import CommentStyle.Proofs.Yaml.BlockGrammar

/-!
# The tokens of a flow collection

Inside brackets and braces a value is written in a row, with commas between the parts. What matters here is
that a quoted word before a colon is a key only if the lexer has put the mark of a key before it.

* **`Flow`** — the grammar: these tokens stand for the value, every word having its mark.
* **`Broken`** — as far as these tokens go they are those of a value, and then a word has no mark, or there
  is no room for one more collection.
* **`flowParses`** — the parser comes to nodes that stand for the value. Each parser follows from the others
  with less fuel, as for blocks.
* **`brokenFails`** — there the parser fails.
* **`readChars_of_flow`**, **`readChars_of_broken`** — what becomes of a text that gives such tokens.
-/

namespace CommentStyle.Yaml

/-! ## The grammar -/

/-- The comma before all parts but the first. -/
def comma (first : Bool) : List Token := if first then [] else [.flowEntry]

mutual

/-- The tokens stand for the value, collections being at most this deep. -/
inductive Flow : Nat → Value → List Token → Prop
  | leaf {h : Nat} {text : List Char} {plain : Bool} {v : Value}
      (content : ∀ n, Scalar.content n (scalarTag plain text) text = .ok v) : Flow h v [.scalar text plain]
  | seq {h : Nat} {vs : List Value} {ts : List Token} (items : FlowItems true h vs ts) :
      Flow (h + 1) (.list vs) (.flowSequence :: ts)
  | map {h : Nat} {kvs : List (Value × Value)} {ts : List Token} (entries : FlowEntries true h kvs ts) :
      Flow (h + 1) (.map (Value.mapOf kvs)) (.flowMapping :: ts)

/-- Items up to the closing bracket. -/
inductive FlowItems : Bool → Nat → List Value → List Token → Prop
  | nil {first : Bool} {h : Nat} : FlowItems first h [] [.flowSequenceEnd]
  | cons {first : Bool} {h : Nat} {v : Value} {vs : List Value} {ts rest : List Token} (item : Flow h v ts)
      (items : FlowItems false h vs rest) : FlowItems first h (v :: vs) (comma first ++ (ts ++ rest))

/-- Words with values up to the closing brace. -/
inductive FlowEntries : Bool → Nat → List (Value × Value) → List Token → Prop
  | nil {first : Bool} {h : Nat} : FlowEntries first h [] [.flowMappingEnd]
  | cons {first : Bool} {h : Nat} {word : List Char} {v : Value} {kvs : List (Value × Value)}
      {ts rest : List Token} (value : Flow h v ts) (entries : FlowEntries false h kvs rest) :
      FlowEntries first h ((.str (String.ofList word), v) :: kvs)
        (comma first ++ .key :: .scalar word false :: .value :: (ts ++ rest))

end

mutual

/-- The tokens of a value up to a word without a mark and the colon behind it, or to the beginning of a
collection for which there is no room. -/
inductive Broken : Nat → List Token → Prop
  | noList : Broken 0 [.flowSequence]
  | noMap : Broken 0 [.flowMapping]
  | seq {room : Nat} {ts : List Token} (items : BrokenItems true room ts) :
      Broken (room + 1) (.flowSequence :: ts)
  | map {room : Nat} {ts : List Token} (entries : BrokenEntries true room ts) :
      Broken (room + 1) (.flowMapping :: ts)

inductive BrokenItems : Bool → Nat → List Token → Prop
  | here {first : Bool} {room : Nat} {ts : List Token} (item : Broken room ts) :
      BrokenItems first room (comma first ++ ts)
  | later {first : Bool} {room : Nat} {v : Value} {ts rest : List Token} (item : Flow room v ts)
      (items : BrokenItems false room rest) : BrokenItems first room (comma first ++ (ts ++ rest))

inductive BrokenEntries : Bool → Nat → List Token → Prop
  | unmarked {first : Bool} {room : Nat} {word : List Char} :
      BrokenEntries first room (comma first ++ [.scalar word false, .value])
  | here {first : Bool} {room : Nat} {word : List Char} {ts : List Token} (value : Broken room ts) :
      BrokenEntries first room (comma first ++ .key :: .scalar word false :: .value :: ts)
  | later {first : Bool} {room : Nat} {word : List Char} {v : Value} {ts rest : List Token}
      (value : Flow room v ts) (entries : BrokenEntries false room rest) :
      BrokenEntries first room (comma first ++ .key :: .scalar word false :: .value :: (ts ++ rest))

end

theorem Flow.exists_cons {h : Nat} {v : Value} {ts : List Token} (hs : Flow h v ts) :
    ∃ t rest, ts = t :: rest ∧ t.makesNode = true := by
  cases hs with
  | leaf => exact ⟨_, _, rfl, rfl⟩
  | seq => exact ⟨_, _, rfl, rfl⟩
  | map => exact ⟨_, _, rfl, rfl⟩

theorem Broken.exists_cons {room : Nat} {ts : List Token} (hs : Broken room ts) :
    ∃ t rest, ts = t :: rest ∧ t.makesNode = true := by
  cases hs with
  | noList => exact ⟨_, _, rfl, rfl⟩
  | noMap => exact ⟨_, _, rfl, rfl⟩
  | seq => exact ⟨_, _, rfl, rfl⟩
  | map => exact ⟨_, _, rfl, rfl⟩

/-! ## One turn of a parser -/

variable {r : Reading} {t : Token} {ts more : List Token} {room fuel : Nat} {first : Bool}

theorem node_flowSequence (hyields : r.lexer.Yields (.flowSequence :: more)) (room : Nat)
    (block indentless : Bool) (fuel : Nat) :
    ∃ lexer : Lexer, lexer.Yields more ∧ (Read.node (room + 1) block indentless (fuel + 1)).run r =
      (Read.flowItems room true fuel [] >>= fun ns => Read.complete r.graph.size (.seq ns)).run
        { r with lexer, graph := r.graph.add ⟨.seq, .seq []⟩ } := by
  obtain ⟨lexer, hpeek, hlooks⟩ := peek_of_yields hyields
  refine ⟨lexer.next, hlooks.more, ?_⟩
  have hpeek' : Read.peek.run { r with lexer } = .ok (.flowSequence, { r with lexer }) := peek_of_looks hlooks
  have hproperties : Read.properties.run { r with lexer } = .ok ({}, { r with lexer }) :=
    properties_of_looks hlooks rfl
  simp only [Read.node, StateT.run_bind, hpeek, ok_bind, hproperties, hpeek', Read.freshAnchor]
  rfl

theorem node_flowMapping (hyields : r.lexer.Yields (.flowMapping :: more)) (room : Nat)
    (block indentless : Bool) (fuel : Nat) :
    ∃ lexer : Lexer, lexer.Yields more ∧ (Read.node (room + 1) block indentless (fuel + 1)).run r =
      (Read.flowEntries room true fuel [] >>= fun es => Read.complete r.graph.size (.map es)).run
        { r with lexer, graph := r.graph.add ⟨.map, .map []⟩ } := by
  obtain ⟨lexer, hpeek, hlooks⟩ := peek_of_yields hyields
  refine ⟨lexer.next, hlooks.more, ?_⟩
  have hpeek' : Read.peek.run { r with lexer } = .ok (.flowMapping, { r with lexer }) := peek_of_looks hlooks
  have hproperties : Read.properties.run { r with lexer } = .ok ({}, { r with lexer }) :=
    properties_of_looks hlooks rfl
  simp only [Read.node, StateT.run_bind, hpeek, ok_bind, hproperties, hpeek', Read.freshAnchor]
  rfl

/-- Without room no collection begins. -/
theorem node_noRoom (hyields : r.lexer.Yields (t :: more)) (ht : t = .flowSequence ∨ t = .flowMapping)
    (block indentless : Bool) (fuel : Nat) :
    (Read.node 0 block indentless (fuel + 1)).run r = .error (.unmade .tooDeep) := by
  obtain ⟨lexer, hpeek, hlooks⟩ := peek_of_yields hyields
  have hpeek' : Read.peek.run { r with lexer } = .ok (t, { r with lexer }) := peek_of_looks hlooks
  have hproperties : Read.properties.run { r with lexer } = .ok ({}, { r with lexer }) :=
    properties_of_looks hlooks (by rcases ht with rfl | rfl <;> rfl)
  rcases ht with rfl | rfl <;>
  · simp only [Read.node, StateT.run_bind, hpeek, ok_bind, hproperties, hpeek', Read.freshAnchor]
    rfl

theorem flowItems_end (hyields : r.lexer.Yields (.flowSequenceEnd :: more)) (fuel : Nat) (read : List Nat) :
    ∃ lexer : Lexer, lexer.Yields more ∧
      (Read.flowItems room first (fuel + 1) read).run r = .ok (read.reverse, { r with lexer }) := by
  obtain ⟨lexer, hpeek, hlooks⟩ := peek_of_yields hyields
  refine ⟨lexer.next, hlooks.more, ?_⟩
  simp only [Read.flowItems, StateT.run_bind, hpeek, ok_bind, next_run]
  rfl

theorem flowEntries_end (hyields : r.lexer.Yields (.flowMappingEnd :: more)) (fuel : Nat)
    (read : List (Nat × Nat)) :
    ∃ lexer : Lexer, lexer.Yields more ∧
      (Read.flowEntries room first (fuel + 1) read).run r = .ok (read.reverse, { r with lexer }) := by
  obtain ⟨lexer, hpeek, hlooks⟩ := peek_of_yields hyields
  refine ⟨lexer.next, hlooks.more, ?_⟩
  simp only [Read.flowEntries, StateT.run_bind, hpeek, ok_bind, next_run]
  rfl

/-- The comma is passed over, and the item is looked at. -/
theorem flowItems_item (hyields : r.lexer.Yields (comma first ++ t :: more)) (ht : t.makesNode = true)
    (fuel : Nat) (read : List Nat) :
    ∃ lexer, Looks lexer t more ∧ (Read.flowItems room first (fuel + 1) read).run r =
      (Read.node room false false fuel >>= fun n => Read.flowItems room false fuel (n :: read)).run
        { r with lexer } := by
  cases first with
  | true =>
    obtain ⟨lexer, hpeek, hlooks⟩ := peek_of_yields (show r.lexer.Yields (t :: more) from hyields)
    have hpeek' : Read.peek.run { r with lexer } = .ok (t, { r with lexer }) := peek_of_looks hlooks
    refine ⟨lexer, hlooks, ?_⟩
    simp only [Read.flowItems, StateT.run_bind, hpeek, ok_bind]
    cases t <;> first | (cases ht; done) | (simp only [Bool.not_true, Bool.false_eq_true, if_false,
      StateT.run_bind, hpeek', ok_bind])
  | false =>
    obtain ⟨lexer₁, hpeek₁, hlooks₁⟩ := peek_of_yields (show r.lexer.Yields (.flowEntry :: t :: more) from hyields)
    obtain ⟨lexer, hpeek, hlooks⟩ := peek_of_yields (r := { r with lexer := lexer₁.next }) hlooks₁.more
    refine ⟨lexer, hlooks, ?_⟩
    simp only [Read.flowItems, StateT.run_bind, hpeek₁, ok_bind, Bool.not_false, if_true, ne_eq,
      not_true_eq_false, if_false, next_run, hpeek]
    cases t <;> first | (cases ht; done) | rfl

/-- The comma is passed over, and the mark of a key is looked at. -/
theorem flowEntries_key (hyields : r.lexer.Yields (comma first ++ .key :: more)) (room fuel : Nat)
    (read : List (Nat × Nat)) :
    ∃ lexer, Looks lexer .key more ∧ (Read.flowEntries room first (fuel + 1) read).run r =
      (Read.flowPair room .flowMappingEnd fuel >>= fun e => Read.flowEntries room false fuel (e :: read)).run
        { r with lexer } := by
  cases first with
  | true =>
    obtain ⟨lexer, hpeek, hlooks⟩ := peek_of_yields (show r.lexer.Yields (.key :: more) from hyields)
    have hpeek' : Read.peek.run { r with lexer } = .ok (.key, { r with lexer }) := peek_of_looks hlooks
    refine ⟨lexer, hlooks, ?_⟩
    simp only [Read.flowEntries, StateT.run_bind, hpeek, ok_bind, Bool.not_true, Bool.false_eq_true, if_false,
      hpeek']
  | false =>
    obtain ⟨lexer₁, hpeek₁, hlooks₁⟩ :=
      peek_of_yields (show r.lexer.Yields (.flowEntry :: .key :: more) from hyields)
    obtain ⟨lexer, hpeek, hlooks⟩ := peek_of_yields (r := { r with lexer := lexer₁.next }) hlooks₁.more
    refine ⟨lexer, hlooks, ?_⟩
    simp only [Read.flowEntries, StateT.run_bind, hpeek₁, ok_bind, Bool.not_false, if_true, ne_eq,
      not_true_eq_false, if_false, next_run, hpeek]

/-- The comma is passed over, and something else is looked at: an entry without a value. -/
theorem flowEntries_word (hyields : r.lexer.Yields (comma first ++ t :: more)) (ht : t.makesNode = true)
    (fuel : Nat) (read : List (Nat × Nat)) :
    ∃ lexer, Looks lexer t more ∧ (Read.flowEntries room first (fuel + 1) read).run r =
      (do
        let k ← Read.node room false false fuel
        let _ ← Read.peek
        let v ← Read.nothing
        Read.flowEntries room false fuel ((k, v) :: read)).run { r with lexer } := by
  cases first with
  | true =>
    obtain ⟨lexer, hpeek, hlooks⟩ := peek_of_yields (show r.lexer.Yields (t :: more) from hyields)
    have hpeek' : Read.peek.run { r with lexer } = .ok (t, { r with lexer }) := peek_of_looks hlooks
    refine ⟨lexer, hlooks, ?_⟩
    simp only [Read.flowEntries, StateT.run_bind, hpeek, ok_bind]
    cases t <;> first | (cases ht; done) | (simp only [Bool.not_true, Bool.false_eq_true, if_false,
      StateT.run_bind, hpeek', ok_bind])
  | false =>
    obtain ⟨lexer₁, hpeek₁, hlooks₁⟩ := peek_of_yields (show r.lexer.Yields (.flowEntry :: t :: more) from hyields)
    obtain ⟨lexer, hpeek, hlooks⟩ := peek_of_yields (r := { r with lexer := lexer₁.next }) hlooks₁.more
    refine ⟨lexer, hlooks, ?_⟩
    simp only [Read.flowEntries, StateT.run_bind, hpeek₁, ok_bind, Bool.not_false, if_true, ne_eq,
      not_true_eq_false, if_false, next_run, hpeek]
    cases t <;> first | (cases ht; done) | rfl

/-- A colon must not follow an entry without a value. -/
theorem flowEntries_unmarked {word : List Char}
    (hyields : r.lexer.Yields (comma first ++ .scalar word false :: .value :: more)) (fuel : Nat)
    (read : List (Nat × Nat)) : ∃ e, (Read.flowEntries room first fuel read).run r = .error e := by
  cases fuel with
  | zero => exact ⟨_, rfl⟩
  | succ fuel =>
    obtain ⟨lexer, hlooks, hrun⟩ := flowEntries_word hyields rfl fuel read
    cases fuel with
    | zero => exact ⟨_, hrun⟩
    | succ fuel =>
      -- the entry is read, and the next turn finds the colon where a comma should be
      obtain ⟨lexer₁, hnode, hmore⟩ := node_scalar (r := { r with lexer }) hlooks.yields room false false fuel
      let r₁ : Reading :=
        { r with
          lexer := lexer₁, graph := r.graph.add ⟨scalarTag false word, .scalar word⟩
          order := r.graph.size :: r.order }
      have hnode : (Read.node room false false (fuel + 1)).run { r with lexer } = .ok (r.graph.size, r₁) := hnode
      obtain ⟨lexer₂, hpeek, hlooks₂⟩ := peek_of_yields (r := r₁) hmore
      have hcolon : ∀ (r₂ : Reading) (read : List (Nat × Nat)), r₂.lexer = lexer₂ →
          (Read.flowEntries room false (fuel + 1) read).run r₂ = .error .malformed := by
        intro r₂ read hlexer
        have hpeek₂ : Read.peek.run r₂ = .ok (.value, r₂) := peek_of_looks (hlexer.symm ▸ hlooks₂)
        simp only [Read.flowEntries, StateT.run_bind, hpeek₂, ok_bind]
        rfl
      refine ⟨.malformed, ?_⟩
      rw [hrun]
      simp only [StateT.run_bind, hnode, ok_bind, hpeek]
      exact hcolon _ _ rfl

/-- A word and its value behind the mark of a key. -/
theorem flowPair_run {word : List Char}
    (hlooks : Looks r.lexer .key (.scalar word false :: .value :: t :: more)) (ht : t.makesNode = true)
    (hfuel : 0 < fuel) :
    ∃ lexer r₂, Looks lexer t more ∧ Grows r r₂ [.scalar word false] [r.graph.size] ∧
      IsLeaf r₂.graph r.graph.size r.graph.size (.str (String.ofList word)) ∧
      r₂.graph.tag r.graph.size = .str ∧
      (Read.flowPair room .flowMappingEnd (fuel + 1)).run r =
        (Read.node room false false fuel >>= fun n => pure (r.graph.size, n)).run { r₂ with lexer } := by
  obtain ⟨r₁, r₂, hpeek₁, hnode, hmore, hgrows, hkey, htag⟩ :=
    exists_key (r := { r with lexer := r.lexer.next }) hlooks.more rfl room false false fuel hfuel
  obtain ⟨lexer₃, hpeek₃, hlooks₃⟩ := peek_of_yields hmore
  obtain ⟨lexer, hpeek, hlooks'⟩ := peek_of_yields (r := { r₂ with lexer := lexer₃.next }) hlooks₃.more
  refine ⟨lexer, r₂, hlooks', hgrows.of_lexer, hkey, htag, ?_⟩
  have hword : (Token.scalar word false == .value || Token.scalar word false == .flowEntry
      || Token.scalar word false == .flowMappingEnd) = false := by rfl
  have hvalue : (t == .flowEntry || t == .flowMappingEnd) = false := by
    cases t <;> first | (cases ht; done) | rfl
  simp only [Read.flowPair, StateT.run_bind, next_run, ok_bind, hpeek₁, hword, Bool.false_eq_true, if_false,
    hnode, hpeek₃, hpeek, hvalue]

/-! ## Parsers -/

/-- Tokens of a value for which there is room are parsed to a node that stands for it. -/
def FlowNodeParses (fuel : Nat) : Prop :=
  ∀ {h room : Nat} {v : Value} {ts more : List Token} {r : Reading} (block indentless : Bool), Flow h v ts →
    h ≤ room → ts.length ≤ fuel → r.lexer.Yields (ts ++ more) →
    ∃ n r' new, (Read.node room block indentless fuel).run r = .ok (n, r') ∧ r'.lexer.Yields more ∧
      Grows r r' ts new ∧ n ∈ new ∧ Denotes r'.graph r.graph.size h n v

def FlowItemsParse (fuel : Nat) : Prop :=
  ∀ {first : Bool} {h room : Nat} {vs : List Value} {ts more : List Token} {r : Reading} (read : List Nat),
    FlowItems first h vs ts → h ≤ room → ts.length ≤ fuel → r.lexer.Yields (ts ++ more) →
    ∃ ns r' new, (Read.flowItems room first fuel read).run r = .ok (read.reverse ++ ns, r') ∧
      r'.lexer.Yields more ∧ Grows r r' ts new ∧ (∀ n ∈ ns, n ∈ new) ∧
      List.Forall₂ (Denotes r'.graph r.graph.size h) ns vs

def FlowEntriesParse (fuel : Nat) : Prop :=
  ∀ {first : Bool} {h room : Nat} {kvs : List (Value × Value)} {ts more : List Token} {r : Reading}
    (read : List (Nat × Nat)), FlowEntries first h kvs ts → h ≤ room → ts.length ≤ fuel →
    r.lexer.Yields (ts ++ more) →
    ∃ es r' new, (Read.flowEntries room first fuel read).run r = .ok (read.reverse ++ es, r') ∧
      r'.lexer.Yields more ∧ Grows r r' ts new ∧ (∀ e ∈ es, e.2 ∈ new) ∧
      List.Forall₂ (fun e kv => IsLeaf r'.graph r.graph.size e.1 kv.1 ∧ r'.graph.tag e.1 = .str ∧
        Denotes r'.graph r.graph.size h e.2 kv.2) es kvs

theorem Grows.comma {r₁ r₂ : Reading} {new : List Nat} (h : Grows r₁ r₂ ts new) (first : Bool) :
    Grows r₁ r₂ (Yaml.comma first ++ ts) new := by
  cases first with
  | true => exact h
  | false => exact h.mark rfl

theorem flowNodeParses_succ (hitems : FlowItemsParse fuel) (hentries : FlowEntriesParse fuel) :
    FlowNodeParses (fuel + 1) := by
  intro h room v ts more r block indentless hflow hroom hfuel hyields
  cases hflow with
  | @leaf h text plain v content => exact exists_leaf hyields content room block indentless fuel h
  | @seq h vs ts items =>
    obtain ⟨room, rfl⟩ := Nat.exists_eq_add_of_lt hroom
    obtain ⟨lexer, hmore, hrun⟩ := node_flowSequence hyields (h + room) block indentless fuel
    obtain ⟨ns, r₂, new, hrun₂, hmore₂, hgrows, hmem, hdenotes⟩ :=
      hitems (r := { r with lexer, graph := r.graph.add ⟨.seq, .seq []⟩ }) [] items (Nat.le_add_right h room)
        (by simpa using hfuel) hmore
    obtain ⟨r₃, hrun₃, hlexer, hgrows₃, hdenotes₃⟩ := hgrows.sequence (t := .flowSequence) rfl hmem hdenotes
    refine ⟨r.graph.size, r₃, _, ?_, hlexer ▸ hmore₂, hgrows₃, List.mem_cons_self, hdenotes₃⟩
    rw [hrun, StateT.run_bind, hrun₂]
    exact hrun₃
  | @map h kvs ts entries =>
    obtain ⟨room, rfl⟩ := Nat.exists_eq_add_of_lt hroom
    obtain ⟨lexer, hmore, hrun⟩ := node_flowMapping hyields (h + room) block indentless fuel
    obtain ⟨es, r₂, new, hrun₂, hmore₂, hgrows, hmem, hdenotes⟩ :=
      hentries (r := { r with lexer, graph := r.graph.add ⟨.map, .map []⟩ }) [] entries
        (Nat.le_add_right h room) (by simpa using hfuel) hmore
    obtain ⟨r₃, hrun₃, hlexer, hgrows₃, hdenotes₃⟩ := hgrows.mapping (t := .flowMapping) rfl hmem hdenotes
    refine ⟨r.graph.size, r₃, _, ?_, hlexer ▸ hmore₂, hgrows₃, List.mem_cons_self, hdenotes₃⟩
    rw [hrun, StateT.run_bind, hrun₂]
    exact hrun₃

theorem FlowItems.length_pos {h : Nat} {vs : List Value} (hs : FlowItems first h vs ts) : 0 < ts.length := by
  cases hs with
  | nil => exact Nat.one_pos
  | cons item items =>
    obtain ⟨t, rest, rfl, -⟩ := item.exists_cons
    simp only [List.length_append, List.length_cons]
    omega

theorem flowItemsParse_succ (hnode : FlowNodeParses fuel) (hitems : FlowItemsParse fuel) :
    FlowItemsParse (fuel + 1) := by
  intro first h room vs ts more r read hflow hroom hfuel hyields
  cases hflow with
  | nil =>
    obtain ⟨lexer, hmore, hrun⟩ := flowItems_end hyields fuel read
    refine ⟨[], { r with lexer }, [], ?_, hmore, (Grows.refl r lexer).mark rfl, by simp, .nil⟩
    rw [hrun, List.append_nil]
  | @cons _ _ v vs ts rest item items =>
    obtain ⟨t, ts', rfl, ht⟩ := item.exists_cons
    have hpos := items.length_pos
    simp only [List.length_append, List.length_cons] at hfuel
    simp only [List.append_assoc] at hyields
    obtain ⟨lexer, hlooks, hrun⟩ := flowItems_item hyields ht fuel read
    obtain ⟨n, r₂, new, hrun₂, hmore₂, hgrows, hmem, hdenotes⟩ :=
      hnode (r := { r with lexer }) false false item hroom (by rw [List.length_cons]; omega) hlooks.yields
    obtain ⟨ns, r₃, new', hrun₃, hmore₃, hgrows', hmem', hdenotes'⟩ :=
      hitems (n :: read) items hroom (by omega) hmore₂
    obtain ⟨hgrows₃, hmem₃, hdenotes₃⟩ := hgrows.of_lexer.cons_item hgrows' hmem hdenotes hmem' hdenotes'
    refine ⟨n :: ns, r₃, new' ++ new, ?_, hmore₃, hgrows₃.comma first, hmem₃, hdenotes₃⟩
    rw [hrun, StateT.run_bind, hrun₂, ok_bind, hrun₃]
    simp

/-- A word and its value are parsed behind the mark of a key. -/
theorem exists_pair (hnode : FlowNodeParses fuel) {h : Nat} {v : Value} {word : List Char} (hs : Flow h v ts)
    (hroom : h ≤ room) (hlooks : Looks r.lexer .key (.scalar word false :: .value :: (ts ++ more)))
    (hfuel : ts.length ≤ fuel) :
    ∃ n r₂ r₃ new, (Read.flowPair room .flowMappingEnd (fuel + 1)).run r = .ok ((r.graph.size, n), r₃) ∧
      r₃.lexer.Yields more ∧ Grows r r₂ [.scalar word false] [r.graph.size] ∧ Grows r₂ r₃ ts new ∧ n ∈ new ∧
      IsLeaf r₂.graph r.graph.size r.graph.size (.str (String.ofList word)) ∧
      r₂.graph.tag r.graph.size = .str ∧ Denotes r₃.graph r₂.graph.size h n v := by
  obtain ⟨t, ts', rfl, ht⟩ := hs.exists_cons
  rw [List.length_cons] at hfuel
  obtain ⟨lexer, r₂, hlooks', hgrows, hkey, htag, hrun⟩ := flowPair_run hlooks ht (Nat.zero_lt_of_lt hfuel)
  obtain ⟨n, r₃, new, hrun₃, hmore₃, hgrows₃, hmem, hdenotes⟩ :=
    hnode (r := { r₂ with lexer }) false false hs hroom hfuel hlooks'.yields
  refine ⟨n, r₂, r₃, new, ?_, hmore₃, hgrows, hgrows₃.of_lexer, hmem, hkey, htag, hdenotes⟩
  rw [hrun, StateT.run_bind, hrun₃]
  rfl

theorem flowEntriesParse_succ (hnode : ∀ f < fuel, FlowNodeParses f) (hentries : FlowEntriesParse fuel) :
    FlowEntriesParse (fuel + 1) := by
  intro first h room kvs ts more r read hflow hroom hfuel hyields
  cases hflow with
  | nil =>
    obtain ⟨lexer, hmore, hrun⟩ := flowEntries_end hyields fuel read
    refine ⟨[], { r with lexer }, [], ?_, hmore, (Grows.refl r lexer).mark rfl, by simp, .nil⟩
    rw [hrun, List.append_nil]
  | @cons _ _ word v kvs ts rest value entries =>
    simp only [List.length_append, List.length_cons] at hfuel
    simp only [List.append_assoc, List.cons_append] at hyields
    obtain ⟨lexer, hlooks, hrun⟩ := flowEntries_key hyields room fuel read
    obtain ⟨fuel, rfl⟩ := Nat.exists_eq_add_one_of_ne_zero (show fuel ≠ 0 by omega)
    obtain ⟨n, r₂, r₃, new, hrun₃, hmore₃, hgrows₂, hgrows₃, hmem, hkey, htag, hdenotes⟩ :=
      exists_pair (r := { r with lexer }) (hnode fuel (Nat.lt_succ_self _)) value hroom hlooks (by omega)
    obtain ⟨es, r₄, new', hrun₄, hmore₄, hgrows₄, hmem', hdenotes'⟩ :=
      hentries ((r.graph.size, n) :: read) entries hroom (by omega) hmore₃
    obtain ⟨hgrows, hmem₄, hdenotes₄⟩ :=
      hgrows₂.of_lexer.cons_entry hgrows₃ hgrows₄ hkey htag hmem hdenotes hmem' hdenotes'
    refine ⟨(r.graph.size, n) :: es, r₄, _, ?_, hmore₄, (hgrows.mark rfl).comma first, hmem₄, hdenotes₄⟩
    rw [hrun, StateT.run_bind, hrun₃, ok_bind, hrun₄]
    simp

/-- **Every value in a row is parsed**, given as much fuel as it has tokens. -/
theorem flowParses (fuel : Nat) : FlowNodeParses fuel ∧ FlowItemsParse fuel ∧ FlowEntriesParse fuel := by
  induction fuel using Nat.strong_induction_on with
  | _ fuel ih =>
    cases fuel with
    | zero =>
      refine ⟨fun _ _ hs _ hfuel _ => ?_, fun _ hs _ hfuel _ => ?_, fun _ hs _ hfuel _ => ?_⟩
      · obtain ⟨t, rest, rfl, -⟩ := hs.exists_cons
        simp at hfuel
      · exact absurd hs.length_pos (Nat.not_lt.mpr hfuel)
      · cases hs <;> simp at hfuel
    | succ fuel =>
      obtain ⟨hnode, hitems, hentries⟩ := ih fuel (Nat.lt_succ_self fuel)
      exact ⟨flowNodeParses_succ hitems hentries, flowItemsParse_succ hnode hitems,
        flowEntriesParse_succ (fun f hf => (ih f (Nat.lt_succ_of_lt hf)).1) hentries⟩

/-! ## Words without a mark, and collections without room -/

/-- The parser fails on tokens that break off. -/
def BrokenNodeFails (fuel : Nat) : Prop :=
  ∀ {room : Nat} {ts more : List Token} {r : Reading} (block indentless : Bool), Broken room ts →
    2 * ts.length ≤ fuel → r.lexer.Yields (ts ++ more) →
    ∃ e, (Read.node room block indentless fuel).run r = .error e

def BrokenItemsFail (fuel : Nat) : Prop :=
  ∀ {first : Bool} {room : Nat} {ts more : List Token} {r : Reading} (read : List Nat),
    BrokenItems first room ts → 2 * ts.length < fuel → r.lexer.Yields (ts ++ more) →
    ∃ e, (Read.flowItems room first fuel read).run r = .error e

def BrokenEntriesFail (fuel : Nat) : Prop :=
  ∀ {first : Bool} {room : Nat} {ts more : List Token} {r : Reading} (read : List (Nat × Nat)),
    BrokenEntries first room ts → 2 * ts.length < fuel → r.lexer.Yields (ts ++ more) →
    ∃ e, (Read.flowEntries room first fuel read).run r = .error e

theorem run_bind_of_error {α β : Type} {x : Read α} {e : Fault} (h : x.run r = .error e) (f : α → Read β) :
    (x >>= f).run r = .error e := by
  rw [StateT.run_bind, h]
  rfl

theorem brokenNodeFails_succ (hitems : BrokenItemsFail fuel) (hentries : BrokenEntriesFail fuel) :
    BrokenNodeFails (fuel + 1) := by
  intro room ts more r block indentless hbroken hfuel hyields
  cases hbroken with
  | noList => exact ⟨_, node_noRoom hyields (.inl rfl) block indentless fuel⟩
  | noMap => exact ⟨_, node_noRoom hyields (.inr rfl) block indentless fuel⟩
  | @seq room ts items =>
    obtain ⟨lexer, hmore, hrun⟩ := node_flowSequence hyields room block indentless fuel
    rw [List.length_cons] at hfuel
    obtain ⟨e, he⟩ := hitems (r := { r with lexer, graph := r.graph.add ⟨.seq, .seq []⟩ }) [] items
      (by omega) hmore
    exact ⟨e, hrun.trans (run_bind_of_error he _)⟩
  | @map room ts entries =>
    obtain ⟨lexer, hmore, hrun⟩ := node_flowMapping hyields room block indentless fuel
    rw [List.length_cons] at hfuel
    obtain ⟨e, he⟩ := hentries (r := { r with lexer, graph := r.graph.add ⟨.map, .map []⟩ }) [] entries
      (by omega) hmore
    exact ⟨e, hrun.trans (run_bind_of_error he _)⟩

theorem brokenItemsFail_succ (hnode : BrokenNodeFails fuel) (hitems : BrokenItemsFail fuel) :
    BrokenItemsFail (fuel + 1) := by
  intro first room ts more r read hbroken hfuel hyields
  cases hbroken with
  | @here _ _ ts item =>
    obtain ⟨t, ts', rfl, ht⟩ := item.exists_cons
    rw [List.length_append] at hfuel
    rw [List.append_assoc] at hyields
    obtain ⟨lexer, hlooks, hrun⟩ := flowItems_item hyields ht fuel read
    obtain ⟨e, he⟩ := hnode (r := { r with lexer }) false false item (by omega) hlooks.yields
    exact ⟨e, hrun.trans (run_bind_of_error he _)⟩
  | @later _ _ v ts rest item items =>
    obtain ⟨t, ts', rfl, ht⟩ := item.exists_cons
    simp only [List.length_append, List.length_cons] at hfuel
    simp only [List.append_assoc] at hyields
    obtain ⟨lexer, hlooks, hrun⟩ := flowItems_item hyields ht fuel read
    obtain ⟨n, r₂, -, hrun₂, hmore₂, -⟩ :=
      (flowParses fuel).1 (r := { r with lexer }) false false item le_rfl (by rw [List.length_cons]; omega)
        hlooks.yields
    obtain ⟨e, he⟩ := hitems (n :: read) items (by omega) hmore₂
    refine ⟨e, ?_⟩
    rw [hrun, StateT.run_bind, hrun₂]
    exact he

theorem brokenEntriesFail_succ (hnode : ∀ f < fuel, BrokenNodeFails f) (hentries : BrokenEntriesFail fuel) :
    BrokenEntriesFail (fuel + 1) := by
  intro first room ts more r read hbroken hfuel hyields
  cases hbroken with
  | unmarked =>
    rw [List.append_assoc] at hyields
    exact flowEntries_unmarked hyields (fuel + 1) read
  | @here _ _ word ts value =>
    obtain ⟨t, ts', rfl, ht⟩ := value.exists_cons
    simp only [List.length_append, List.length_cons] at hfuel
    simp only [List.append_assoc, List.cons_append] at hyields
    obtain ⟨lexer, hlooks, hrun⟩ := flowEntries_key hyields room fuel read
    obtain ⟨fuel, rfl⟩ := Nat.exists_eq_add_one_of_ne_zero (show fuel ≠ 0 by omega)
    obtain ⟨lexer', r₂, hlooks', -, -, -, hrun₂⟩ :=
      flowPair_run (r := { r with lexer }) hlooks ht (show 0 < fuel by omega)
    obtain ⟨e, he⟩ := hnode fuel (Nat.lt_succ_self fuel) (r := { r₂ with lexer := lexer' }) false false value
      (by rw [List.length_cons]; omega) hlooks'.yields
    exact ⟨e, hrun.trans (run_bind_of_error (hrun₂.trans (run_bind_of_error he _)) _)⟩
  | @later _ _ word v ts rest value entries =>
    simp only [List.length_append, List.length_cons] at hfuel
    simp only [List.append_assoc, List.cons_append] at hyields
    obtain ⟨lexer, hlooks, hrun⟩ := flowEntries_key hyields room fuel read
    obtain ⟨fuel, rfl⟩ := Nat.exists_eq_add_one_of_ne_zero (show fuel ≠ 0 by omega)
    obtain ⟨n, r₂, r₃, -, hrun₃, hmore₃, -⟩ :=
      exists_pair (r := { r with lexer }) (flowParses fuel).1 value le_rfl hlooks (by omega)
    obtain ⟨e, he⟩ := hentries ((r.graph.size, n) :: read) entries (by omega) hmore₃
    refine ⟨e, ?_⟩
    rw [hrun, StateT.run_bind, hrun₃]
    exact he

/-- **Where a mark or the room is missing the parser fails.** -/
theorem brokenFails (fuel : Nat) : BrokenNodeFails fuel ∧ BrokenItemsFail fuel ∧ BrokenEntriesFail fuel := by
  induction fuel using Nat.strong_induction_on with
  | _ fuel ih =>
    cases fuel with
    | zero => exact ⟨fun _ _ _ _ _ => ⟨_, rfl⟩, fun _ _ _ _ => ⟨_, rfl⟩, fun _ _ _ _ => ⟨_, rfl⟩⟩
    | succ fuel =>
      obtain ⟨hnode, hitems, hentries⟩ := ih fuel (Nat.lt_succ_self fuel)
      exact ⟨brokenNodeFails_succ hitems hentries, brokenItemsFail_succ hnode hitems,
        brokenEntriesFail_succ (fun f hf => (ih f (Nat.lt_succ_of_lt hf)).1) hentries⟩

/-! ## Texts -/

/-- **A text that gives the tokens of a value in a row is read as that value.** -/
theorem readChars_of_flow {cs : List Char} {h : Nat} {v : Value} (hallowed : cs.all isAllowed = true)
    (hs : Flow h v ts) (hyields : (Lexer.ofChars cs).Yields (ts ++ [.streamEnd]))
    (hlength : ts.length ≤ 8 * cs.length + 16) (hroom : h ≤ nestingLimit)
    (hh : h ≤ ts.countP Token.makesNode) : readChars cs = .ok v := by
  obtain ⟨t, rest, rfl, ht⟩ := hs.exists_cons
  obtain ⟨lexer, hpeek, hlooks⟩ := peek_of_yields (r := { lexer := .ofChars cs }) hyields
  obtain ⟨n, r₂, new, hrun, hmore, hgrows, hmem, hdenotes⟩ :=
    (flowParses (8 * cs.length + 16)).1 (r := { lexer }) true false hs hroom hlength hlooks.yields
  exact readChars_of_node hallowed ht hpeek hrun hmore hgrows.of_lexer hmem hdenotes hh

/-- **A text in which a mark or the room is missing is not read.** -/
theorem readChars_of_broken {cs : List Char} (hs : Broken nestingLimit ts)
    (hyields : (Lexer.ofChars cs).Yields (ts ++ more)) (hlength : 2 * ts.length ≤ 8 * cs.length + 16) :
    ∃ e, readChars cs = .error e := by
  obtain ⟨t, rest, rfl, ht⟩ := hs.exists_cons
  obtain ⟨lexer, hpeek, hlooks⟩ := peek_of_yields (r := { lexer := .ofChars cs }) hyields
  obtain ⟨e, he⟩ := (brokenFails (8 * cs.length + 16)).1 (r := { lexer }) true false hs hlength hlooks.yields
  have hdocument : (Read.document (8 * cs.length + 16)).run { lexer := .ofChars cs } = .error e := by
    simp only [Read.document, StateT.run_bind, hpeek, ok_bind]
    cases t <;> first | (cases ht; done) | exact run_bind_of_error he _
  rw [readChars, Document.ofChars]
  split
  · exact ⟨e, by simp only [hdocument]; rfl⟩
  · exact ⟨.malformed, rfl⟩

end CommentStyle.Yaml
