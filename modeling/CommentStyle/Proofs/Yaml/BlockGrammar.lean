import CommentStyle.Proofs.Yaml.Denotation
import CommentStyle.Proofs.Yaml.Tokens

/-!
# The tokens of a value

A value in blocks is a scalar, a sequence of items behind dashes, or a mapping of words to values. The parser
makes a node for each, in the order in which they begin, and notes them in the order in which they end.

* **`Spells`** — the grammar: these tokens stand for the value.
* **`Grows`** — what a parser adds to a document: new nodes behind the old ones, and the order in which they
  were complete, each behind its parts.
* **`NodeParses`**, **`ItemsParse`**, **`EntriesParse`** — each parser, run on tokens of its kind, comes to
  nodes that stand for the value. Each follows from the others with less fuel.
* **`readChars_of_reads`** — a text that gives the tokens of a value is read as that value.
-/

namespace CommentStyle.Yaml

/-! ## The grammar -/

mutual

/-- The tokens stand for the value, collections being at most this deep. -/
inductive Spells : Nat → Value → List Token → Prop
  | leaf {h : Nat} {text : List Char} {plain : Bool} {v : Value}
      (content : ∀ n, Scalar.content n (if plain then Tag.ofPlain text else .str) text = .ok v) :
      Spells h v [.scalar text plain]
  | seq {h : Nat} {vs : List Value} {ts : List Token} (items : SpellsItems h vs ts) :
      Spells (h + 1) (.list vs) (.blockSequence :: ts)
  | map {h : Nat} {kvs : List (Value × Value)} {ts : List Token} (entries : SpellsEntries h kvs ts)
      (keys : (kvs.map Prod.fst).Pairwise fun j k => j.sameKey k = false) :
      Spells (h + 1) (.map kvs) (.blockMapping :: ts)

/-- Items behind dashes, and the end of their block. -/
inductive SpellsItems : Nat → List Value → List Token → Prop
  | nil {h : Nat} : SpellsItems h [] [.blockEnd]
  | cons {h : Nat} {v : Value} {vs : List Value} {ts rest : List Token} (item : Spells h v ts)
      (items : SpellsItems h vs rest) : SpellsItems h (v :: vs) (.blockEntry :: (ts ++ rest))

/-- Words with values, and the end of their block. -/
inductive SpellsEntries : Nat → List (Value × Value) → List Token → Prop
  | nil {h : Nat} : SpellsEntries h [] [.blockEnd]
  | cons {h : Nat} {word : List Char} {v : Value} {kvs : List (Value × Value)} {ts rest : List Token}
      (text : Tag.ofPlain word = .str) (value : Spells h v ts) (entries : SpellsEntries h kvs rest) :
      SpellsEntries h ((.str (String.ofList word), v) :: kvs)
        (.key :: .scalar word true :: .value :: (ts ++ rest))

end

/-- The token begins a node. -/
def Token.makesNode : Token → Bool
  | .scalar _ _ | .blockSequence | .blockMapping | .flowSequence | .flowMapping => true
  | _ => false

theorem Spells.exists_cons {h : Nat} {v : Value} {ts : List Token} (hs : Spells h v ts) :
    ∃ t rest, ts = t :: rest ∧ t.makesNode = true := by
  cases hs with
  | leaf => exact ⟨_, _, rfl, rfl⟩
  | seq => exact ⟨_, _, rfl, rfl⟩
  | map => exact ⟨_, _, rfl, rfl⟩

/-! ## Graphs that grow -/

/-- What a node stands for depends on the nodes from `lo` on only. -/
theorem IsLeaf.transfer {g g' : Graph} {lo lo' n : Nat} {v : Value} (hlo : lo' ≤ lo) (hsize : g.size ≤ g'.size)
    (hsame : ∀ k, lo ≤ k → k < g.size → g'.node k = g.node k) (hn : IsLeaf g lo n v) : IsLeaf g' lo' n v := by
  have hnode := hsame n hn.lower hn.upper
  refine ⟨hlo.trans hn.lower, hn.upper.trans_le hsize, ?_⟩
  rw [Graph.tag, hnode]
  exact hn.content

theorem Denotes.transfer {g g' : Graph} {lo lo' : Nat} (hlo : lo' ≤ lo) (hsize : g.size ≤ g'.size)
    (hsame : ∀ k, lo ≤ k → k < g.size → g'.node k = g.node k) {h n : Nat} {v : Value}
    (hn : Denotes g lo h n v) : Denotes g' lo' h n v := by
  induction h generalizing n v with
  | zero => exact IsLeaf.transfer hlo hsize hsame hn
  | succ h ih =>
    refine hn.imp (IsLeaf.transfer hlo hsize hsame) fun hn => ?_
    cases hn with
    | seq lower upper node items =>
      exact .seq (hlo.trans lower) (upper.trans_le hsize) ((hsame _ lower upper).trans node)
        (items.imp fun _ _ => ih)
    | map lower upper node entries =>
      refine .map (hlo.trans lower) (upper.trans_le hsize) ((hsame _ lower upper).trans node)
        (entries.imp fun e kv hekv => ⟨hekv.1.transfer hlo hsize hsame, ?_, ih hekv.2.2⟩)
      rw [Graph.tag, hsame _ hekv.1.lower hekv.1.upper]
      exact hekv.2.1

theorem Ordered.transfer {g g' : Graph} {done : List Nat} (hsame : ∀ k ∈ done, g'.node k = g.node k)
    (hdone : Ordered g done) : Ordered g' done := by
  induction done with
  | nil => trivial
  | cons n done ih =>
    refine ⟨?_, ih (fun k hk => hsame k (List.mem_cons_of_mem n hk)) hdone.2⟩
    rw [hsame n List.mem_cons_self]
    exact hdone.1

theorem Ordered.append {g : Graph} {done before : List Nat} (hdone : Ordered g done)
    (hbefore : Ordered g before) : Ordered g (done ++ before) := by
  induction done with
  | nil => exact hbefore
  | cons n done ih => exact ⟨fun k hk => List.mem_append_left before (hdone.1 k hk), ih hdone.2⟩

/-- The reading went on by these tokens: nodes were added, of which these are complete, last first. -/
structure Grows (r r' : Reading) (ts : List Token) (new : List Nat) : Prop where
  size : r.graph.size + ts.countP Token.makesNode ≤ r'.graph.size
  old : ∀ k < r.graph.size, r'.graph.node k = r.graph.node k
  order : r'.order = new ++ r.order
  ordered : Ordered r'.graph new
  range : ∀ k ∈ new, r.graph.size ≤ k ∧ k < r'.graph.size

namespace Grows

variable {r r₁ r₂ r₃ : Reading} {ts ts' : List Token} {new new' : List Nat}

theorem le_size (h : Grows r₁ r₂ ts new) : r₁.graph.size ≤ r₂.graph.size :=
  (Nat.le_add_right ..).trans h.size

theorem trans (h₁ : Grows r₁ r₂ ts new) (h₂ : Grows r₂ r₃ ts' new') :
    Grows r₁ r₃ (ts ++ ts') (new' ++ new) := by
  have hsize₁ := h₁.size
  have hsize₂ := h₂.size
  refine ⟨?_, fun k hk => ?_, ?_, ?_, fun k hk => ?_⟩
  · rw [List.countP_append]
    omega
  · rw [h₂.old k (hk.trans_le h₁.le_size), h₁.old k hk]
  · rw [h₂.order, h₁.order, List.append_assoc]
  · exact h₂.ordered.append (h₁.ordered.transfer fun k hk => h₂.old k (h₁.range k hk).2)
  · rcases List.mem_append.mp hk with hk | hk
    · exact ⟨h₁.le_size.trans (h₂.range k hk).1, (h₂.range k hk).2⟩
    · exact ⟨(h₁.range k hk).1, (h₁.range k hk).2.trans_le h₂.le_size⟩

/-- What stood for a value before still does. -/
theorem denotes (h : Grows r₁ r₂ ts new) {lo height n : Nat} {v : Value}
    (hn : Denotes r₁.graph lo height n v) : Denotes r₂.graph lo height n v :=
  hn.transfer le_rfl h.le_size fun k _ hk => h.old k hk

/-- Looking at tokens adds nothing. -/
theorem refl (r : Reading) (lexer : Lexer) : Grows r { r with lexer } [] [] :=
  ⟨le_rfl, fun _ _ => rfl, rfl, trivial, by simp⟩

theorem of_lexer {lexer : Lexer} (h : Grows { r with lexer } r₂ ts new) : Grows r r₂ ts new :=
  ⟨h.size, h.old, h.order, h.ordered, h.range⟩

/-- A mark adds no node. -/
theorem mark (h : Grows r₁ r₂ ts new) {t : Token} (ht : t.makesNode = false) : Grows r₁ r₂ (t :: ts) new := by
  refine ⟨?_, h.old, h.order, h.ordered, h.range⟩
  rw [List.countP_cons, ht]
  exact h.size

/-- A node of its own. -/
theorem scalar (r : Reading) (lexer : Lexer) (tag : Tag) (text : List Char) {t : Token}
    (ht : t.makesNode = true) :
    Grows r { r with lexer, graph := r.graph.add ⟨tag, .scalar text⟩, order := r.graph.size :: r.order }
      [t] [r.graph.size] := by
  refine ⟨?_, fun k hk => Graph.node_add_of_lt _ hk, rfl, ⟨?_, trivial⟩, fun k hk => ?_⟩
  · simp [Graph.size_add, ht]
  · simp [Graph.node_add_size, Body.parts]
  · rw [List.mem_singleton.mp hk]
    exact ⟨le_rfl, by simp [Graph.size_add]⟩

/-- A collection begins before its parts, and is complete after them. -/
theorem collection {lexer : Lexer} {tag : Tag} {blank : Body} {t : Token} (ht : t.makesNode = true)
    (h : Grows { r with lexer, graph := r.graph.add ⟨tag, blank⟩ } r₂ ts new) (body : Body)
    (hparts : ∀ k ∈ body.parts, k ∈ new) :
    let r₃ := { r₂ with graph := r₂.graph.setBody r.graph.size body, order := r.graph.size :: r₂.order }
    Grows r r₃ (t :: ts) (r.graph.size :: new) ∧ r₃.graph.node r.graph.size = ⟨tag, body⟩ ∧
      r₃.graph.size = r₂.graph.size ∧ ∀ k, r.graph.size + 1 ≤ k → r₃.graph.node k = r₂.graph.node k := by
  intro r₃
  have hsize := h.size
  rw [Graph.size_add] at hsize
  have hsize₃ : r₃.graph.size = r₂.graph.size := Graph.size_setBody body
  -- the body is put into the node of the collection, and nothing else changes
  have hlater : ∀ k, r.graph.size + 1 ≤ k → r₃.graph.node k = r₂.graph.node k := fun k hk =>
    Graph.node_setBody_of_ne body (by omega)
  have hself : r₃.graph.node r.graph.size = ⟨tag, body⟩ := by
    rw [show r₃.graph = r₂.graph.setBody r.graph.size body from rfl,
      Graph.node_setBody_self body (by omega), h.old r.graph.size (by rw [Graph.size_add]; omega),
      Graph.node_add_size]
  have hrange : ∀ k ∈ new, r.graph.size + 1 ≤ k ∧ k < r₂.graph.size := by
    intro k hk
    have hk := h.range k hk
    rwa [Graph.size_add] at hk
  refine ⟨⟨?_, fun k hk => ?_, ?_, ⟨?_, ?_⟩, fun k hk => ?_⟩, hself, hsize₃, hlater⟩
  · rw [List.countP_cons, ht, hsize₃]
    simp only [if_true]
    omega
  · rw [show r₃.graph = r₂.graph.setBody r.graph.size body from rfl,
      Graph.node_setBody_of_ne body (Nat.ne_of_lt hk), h.old k (by rw [Graph.size_add]; omega),
      Graph.node_add_of_lt _ hk]
  · rw [show r₃.order = r.graph.size :: r₂.order from rfl, h.order]
    rfl
  · rw [hself]
    exact hparts
  · exact h.ordered.transfer fun k hk => hlater k (hrange k hk).1
  · rw [hsize₃]
    rcases List.mem_cons.mp hk with rfl | hk
    · omega
    · have := hrange k hk
      omega

/-- A sequence whose items stand for values. -/
theorem sequence {lexer : Lexer} {t : Token} (ht : t.makesNode = true)
    (h : Grows { r with lexer, graph := r.graph.add ⟨.seq, .seq []⟩ } r₂ ts new) {ns : List Nat} {vs : List Value}
    {height : Nat} (hmem : ∀ n ∈ ns, n ∈ new)
    (hitems : List.Forall₂ (Denotes r₂.graph (r.graph.add ⟨.seq, .seq []⟩).size height) ns vs) :
    ∃ r₃, (Read.complete r.graph.size (.seq ns)).run r₂ = .ok (r.graph.size, r₃) ∧ r₃.lexer = r₂.lexer ∧
      Grows r r₃ (t :: ts) (r.graph.size :: new) ∧
      Denotes r₃.graph r.graph.size (height + 1) r.graph.size (.list vs) := by
  rw [Graph.size_add] at hitems
  obtain ⟨hgrows, hself, hsize, hlater⟩ := h.collection ht (.seq ns) hmem
  refine ⟨_, rfl, rfl, hgrows, .inr (.seq le_rfl ?_ hself (hitems.imp fun k w hkw => ?_))⟩
  · exact (hgrows.range _ List.mem_cons_self).2
  · exact hkw.transfer (Nat.le_succ _) hsize.ge fun j hj _ => hlater j hj

/-- A mapping whose keys are words, and whose values stand for what is under them. -/
theorem mapping {lexer : Lexer} {t : Token} (ht : t.makesNode = true)
    (h : Grows { r with lexer, graph := r.graph.add ⟨.map, .map []⟩ } r₂ ts new) {es : List (Nat × Nat)}
    {kvs : List (Value × Value)} {height : Nat} (hmem : ∀ e ∈ es, e.2 ∈ new)
    (hentries : List.Forall₂ (fun e kv => IsLeaf r₂.graph (r.graph.add ⟨.map, .map []⟩).size e.1 kv.1 ∧
      r₂.graph.tag e.1 = .str ∧ Denotes r₂.graph (r.graph.add ⟨.map, .map []⟩).size height e.2 kv.2) es kvs) :
    ∃ r₃, (Read.complete r.graph.size (.map es)).run r₂ = .ok (r.graph.size, r₃) ∧ r₃.lexer = r₂.lexer ∧
      Grows r r₃ (t :: ts) (r.graph.size :: new) ∧
      Denotes r₃.graph r.graph.size (height + 1) r.graph.size (.map (Value.mapOf kvs)) := by
  rw [Graph.size_add] at hentries
  have hparts : ∀ k ∈ (Body.map es).parts, k ∈ new := by
    intro k hk
    obtain ⟨e, he, rfl⟩ := List.mem_map.mp hk
    exact hmem e he
  obtain ⟨hgrows, hself, hsize, hlater⟩ := h.collection ht (.map es) hparts
  refine ⟨_, rfl, rfl, hgrows, .inr (.map le_rfl ?_ hself (hentries.imp fun e kv hekv => ⟨?_, ?_, ?_⟩))⟩
  · exact (hgrows.range _ List.mem_cons_self).2
  · exact hekv.1.transfer (Nat.le_succ _) hsize.ge fun j hj _ => hlater j hj
  · rw [Graph.tag, hlater _ hekv.1.lower]
    exact hekv.2.1
  · exact hekv.2.2.transfer (Nat.le_succ _) hsize.ge fun j hj _ => hlater j hj

/-- An item and the items behind it. Parsing these leaves the nodes of the first as they are. -/
theorem cons_item (h₁ : Grows r₁ r₂ ts new) (h₂ : Grows r₂ r₃ ts' new') {n height : Nat} {v : Value}
    {ns : List Nat} {vs : List Value} (hn : n ∈ new) (hv : Denotes r₂.graph r₁.graph.size height n v)
    (hns : ∀ k ∈ ns, k ∈ new') (hvs : List.Forall₂ (Denotes r₃.graph r₂.graph.size height) ns vs) :
    Grows r₁ r₃ (ts ++ ts') (new' ++ new) ∧ (∀ k ∈ n :: ns, k ∈ new' ++ new) ∧
      List.Forall₂ (Denotes r₃.graph r₁.graph.size height) (n :: ns) (v :: vs) := by
  refine ⟨h₁.trans h₂, fun k hk => ?_, .cons (h₂.denotes hv) (hvs.imp fun k w hkw => ?_)⟩
  · rcases List.mem_cons.mp hk with rfl | hk
    · exact List.mem_append_right new' hn
    · exact List.mem_append_left new (hns k hk)
  · exact hkw.transfer h₁.le_size le_rfl fun _ _ _ => rfl

/-- An entry and the entries behind it. -/
theorem cons_entry {r₄ : Reading} {t : Token} (hkey : Grows r₁ r₂ [t] [r₁.graph.size])
    (hvalue : Grows r₂ r₃ ts new) (hrest : Grows r₃ r₄ ts' new') {word v : Value} {n height : Nat}
    {es : List (Nat × Nat)} {kvs : List (Value × Value)}
    (hleaf : IsLeaf r₂.graph r₁.graph.size r₁.graph.size word) (htag : r₂.graph.tag r₁.graph.size = .str)
    (hn : n ∈ new) (hv : Denotes r₃.graph r₂.graph.size height n v) (hes : ∀ e ∈ es, e.2 ∈ new')
    (hkvs : List.Forall₂ (fun e kv => IsLeaf r₄.graph r₃.graph.size e.1 kv.1 ∧ r₄.graph.tag e.1 = .str ∧
      Denotes r₄.graph r₃.graph.size height e.2 kv.2) es kvs) :
    Grows r₁ r₄ (t :: (.value :: (ts ++ ts'))) (new' ++ (new ++ [r₁.graph.size])) ∧
      (∀ e ∈ (r₁.graph.size, n) :: es, e.2 ∈ new' ++ (new ++ [r₁.graph.size])) ∧
      List.Forall₂ (fun e kv => IsLeaf r₄.graph r₁.graph.size e.1 kv.1 ∧ r₄.graph.tag e.1 = .str ∧
        Denotes r₄.graph r₁.graph.size height e.2 kv.2) ((r₁.graph.size, n) :: es) ((word, v) :: kvs) := by
  have hboth : Grows r₁ r₃ (t :: .value :: ts) (new ++ [r₁.graph.size]) := hkey.trans (hvalue.mark rfl)
  have hlater : Grows r₂ r₄ (.value :: ts ++ ts') (new' ++ new) := (hvalue.mark rfl).trans hrest
  refine ⟨hboth.trans hrest, fun e he => ?_, .cons ⟨?_, ?_, ?_⟩ (hkvs.imp fun e kv hekv => ⟨?_, hekv.2.1, ?_⟩)⟩
  · rcases List.mem_cons.mp he with rfl | he
    · exact List.mem_append_right new' (List.mem_append_left _ hn)
    · exact List.mem_append_left _ (hes e he)
  · exact hleaf.transfer le_rfl hlater.le_size fun k _ hk => hlater.old k hk
  · rw [Graph.tag, hlater.old _ hleaf.upper]
    exact htag
  · exact (hrest.denotes hv).transfer hkey.le_size le_rfl fun _ _ _ => rfl
  · exact hekv.1.transfer hboth.le_size le_rfl fun _ _ _ => rfl
  · exact hekv.2.2.transfer hboth.le_size le_rfl fun _ _ _ => rfl

end Grows

/-! ## Looking ahead -/

/-- The token was looked at, and these come behind it. -/
structure Looks (l : Lexer) (t : Token) (ts : List Token) : Prop where
  ahead : l.ahead = .ok (t, l)
  more : l.next.Yields ts

variable {r : Reading} {t : Token} {ts more : List Token} {fuel : Nat}

theorem Looks.yields {l : Lexer} (h : Looks l t ts) : l.Yields (t :: ts) := .cons h.ahead h.ahead h.more

theorem peek_of_yields (h : r.lexer.Yields (t :: ts)) :
    ∃ lexer, Read.peek.run r = .ok (t, { r with lexer }) ∧ Looks lexer t ts := by
  cases h with
  | @cons _ lexer _ _ ahead again more =>
    refine ⟨lexer, ?_, again, more⟩
    simp only [Read.peek, StateT.run_bind, StateT.run_get, pure_bind, ahead]
    rfl

theorem peek_of_looks (h : Looks r.lexer t ts) : Read.peek.run r = .ok (t, r) := by
  simp only [Read.peek, StateT.run_bind, StateT.run_get, pure_bind, h.ahead]
  rfl

theorem next_run (r : Reading) : Read.next.run r = .ok ((), { r with lexer := r.lexer.next }) := rfl

/-- A token that begins a node has neither an anchor nor a tag before it. -/
theorem properties_of_looks (h : Looks r.lexer t ts) (ht : t.makesNode = true) :
    Read.properties.run r = .ok ({}, r) := by
  have hanchor : Read.anchorAhead.run r = .ok (none, r) := by
    simp only [Read.anchorAhead, StateT.run_bind, peek_of_looks h, ok_bind]
    cases t <;> first | rfl | cases ht
  have htag : Read.tagAhead.run r = .ok (none, r) := by
    simp only [Read.tagAhead, StateT.run_bind, peek_of_looks h, ok_bind]
    cases t <;> first | rfl | cases ht
  simp only [Read.properties, StateT.run_bind, hanchor, htag, ok_bind]
  rfl

/-! ## Parsers -/

/-- Tokens of a value for which there is room are parsed to a node that stands for it. -/
def NodeParses (fuel : Nat) : Prop :=
  ∀ {h room : Nat} {v : Value} {ts more : List Token} {r : Reading} (indentless : Bool), Spells h v ts →
    h ≤ room → ts.length ≤ fuel → r.lexer.Yields (ts ++ more) →
    ∃ n r' new, (Read.node room true indentless fuel).run r = .ok (n, r') ∧ r'.lexer.Yields more ∧
      Grows r r' ts new ∧ n ∈ new ∧ Denotes r'.graph r.graph.size h n v

def ItemsParse (fuel : Nat) : Prop :=
  ∀ {h room : Nat} {vs : List Value} {ts more : List Token} {r : Reading} (read : List Nat),
    SpellsItems h vs ts → h ≤ room → ts.length ≤ fuel → r.lexer.Yields (ts ++ more) →
    ∃ ns r' new, (Read.blockItems room fuel read).run r = .ok (read.reverse ++ ns, r') ∧ r'.lexer.Yields more ∧
      Grows r r' ts new ∧ (∀ n ∈ ns, n ∈ new) ∧ List.Forall₂ (Denotes r'.graph r.graph.size h) ns vs

def EntriesParse (fuel : Nat) : Prop :=
  ∀ {h room : Nat} {kvs : List (Value × Value)} {ts more : List Token} {r : Reading}
    (read : List (Nat × Nat)), SpellsEntries h kvs ts → h ≤ room → ts.length ≤ fuel →
    r.lexer.Yields (ts ++ more) →
    ∃ es r' new, (Read.blockEntries room fuel read).run r = .ok (read.reverse ++ es, r') ∧ r'.lexer.Yields more ∧
      Grows r r' ts new ∧ (∀ e ∈ es, e.2 ∈ new) ∧
      List.Forall₂ (fun e kv => IsLeaf r'.graph r.graph.size e.1 kv.1 ∧ r'.graph.tag e.1 = .str ∧
        Denotes r'.graph r.graph.size h e.2 kv.2) es kvs

/-- How a scalar is tagged that has no tag of its own. -/
def scalarTag (plain : Bool) (text : List Char) : Tag := if plain then Tag.ofPlain text else .str

theorem node_scalar {text : List Char} {plain : Bool} (hyields : r.lexer.Yields (.scalar text plain :: more))
    (room : Nat) (block indentless : Bool) (fuel : Nat) :
    ∃ lexer, (Read.node room block indentless (fuel + 1)).run r = .ok (r.graph.size,
        { r with
          lexer, graph := r.graph.add ⟨scalarTag plain text, .scalar text⟩
          order := r.graph.size :: r.order }) ∧
      lexer.Yields more := by
  obtain ⟨lexer, hpeek, hlooks⟩ := peek_of_yields hyields
  refine ⟨lexer.next, ?_, hlooks.more⟩
  have hpeek' : Read.peek.run { r with lexer } = .ok (.scalar text plain, { r with lexer }) :=
    peek_of_looks hlooks
  have hproperties : Read.properties.run { r with lexer } = .ok ({}, { r with lexer }) :=
    properties_of_looks hlooks rfl
  simp only [Read.node, StateT.run_bind, hpeek, ok_bind, hproperties, hpeek', Read.freshAnchor]
  rfl

theorem node_sequence (hyields : r.lexer.Yields (.blockSequence :: more)) (room : Nat) (indentless : Bool)
    (fuel : Nat) :
    ∃ lexer : Lexer, lexer.Yields more ∧ (Read.node (room + 1) true indentless (fuel + 1)).run r =
      (Read.blockItems room fuel [] >>= fun ns => Read.complete r.graph.size (.seq ns)).run
        { r with lexer, graph := r.graph.add ⟨.seq, .seq []⟩ } := by
  obtain ⟨lexer, hpeek, hlooks⟩ := peek_of_yields hyields
  refine ⟨lexer.next, hlooks.more, ?_⟩
  have hpeek' : Read.peek.run { r with lexer } = .ok (.blockSequence, { r with lexer }) := peek_of_looks hlooks
  have hproperties : Read.properties.run { r with lexer } = .ok ({}, { r with lexer }) :=
    properties_of_looks hlooks rfl
  simp only [Read.node, StateT.run_bind, hpeek, ok_bind, hproperties, hpeek', Read.freshAnchor, Bool.true_and,
    beq_self_eq_true, if_true]
  rfl

theorem node_mapping (hyields : r.lexer.Yields (.blockMapping :: more)) (room : Nat) (indentless : Bool)
    (fuel : Nat) :
    ∃ lexer : Lexer, lexer.Yields more ∧ (Read.node (room + 1) true indentless (fuel + 1)).run r =
      (Read.blockEntries room fuel [] >>= fun es => Read.complete r.graph.size (.map es)).run
        { r with lexer, graph := r.graph.add ⟨.map, .map []⟩ } := by
  obtain ⟨lexer, hpeek, hlooks⟩ := peek_of_yields hyields
  refine ⟨lexer.next, hlooks.more, ?_⟩
  have hpeek' : Read.peek.run { r with lexer } = .ok (.blockMapping, { r with lexer }) := peek_of_looks hlooks
  have hproperties : Read.properties.run { r with lexer } = .ok ({}, { r with lexer }) :=
    properties_of_looks hlooks rfl
  have hnot : ∀ t : Token, t ≠ .blockMapping → (Token.blockMapping == t) = false := fun t ht =>
    beq_eq_false_iff_ne.mpr (Ne.symm ht)
  simp only [Read.node, StateT.run_bind, hpeek, ok_bind, hproperties, hpeek', Read.freshAnchor, Bool.true_and,
    beq_self_eq_true, if_true, hnot .blockSequence (by decide), hnot .blockEntry (by decide), Bool.and_false,
    Bool.false_eq_true, if_false]
  rfl

/-- A scalar that has a content is parsed to a leaf. -/
theorem exists_leaf {text : List Char} {plain : Bool} {v : Value}
    (hyields : r.lexer.Yields (.scalar text plain :: more))
    (content : ∀ n, Scalar.content n (scalarTag plain text) text = .ok v) (room : Nat)
    (block indentless : Bool) (fuel height : Nat) :
    ∃ n r' new, (Read.node room block indentless (fuel + 1)).run r = .ok (n, r') ∧ r'.lexer.Yields more ∧
      Grows r r' [.scalar text plain] new ∧ n ∈ new ∧ Denotes r'.graph r.graph.size height n v := by
  obtain ⟨lexer, hrun, hmore⟩ := node_scalar hyields room block indentless fuel
  refine ⟨_, _, _, hrun, hmore, Grows.scalar r lexer _ text rfl, List.mem_singleton_self _, ?_⟩
  refine IsLeaf.denotes ⟨le_rfl, ?_, text, ?_, ?_⟩ height
  · rw [Graph.size_add]
    exact Nat.lt_succ_self _
  · rw [Graph.node_add_size]
  · rw [Graph.tag, Graph.node_add_size]
    exact content r.graph.size

theorem nodeParses_succ (hitems : ItemsParse fuel) (hentries : EntriesParse fuel) : NodeParses (fuel + 1) := by
  intro h room v ts more r indentless hspells hroom hfuel hyields
  cases hspells with
  | @leaf h text plain v content => exact exists_leaf hyields content room true indentless fuel h
  | @seq h vs ts items =>
    -- the node of the sequence comes before those of its items, which are parsed next
    obtain ⟨room, rfl⟩ := Nat.exists_eq_add_of_lt hroom
    obtain ⟨lexer, hmore, hrun⟩ := node_sequence hyields (h + room) indentless fuel
    obtain ⟨ns, r₂, new, hrun₂, hmore₂, hgrows, hmem, hdenotes⟩ :=
      hitems (r := { r with lexer, graph := r.graph.add ⟨.seq, .seq []⟩ }) [] items (Nat.le_add_right h room)
        (by simpa using hfuel) hmore
    obtain ⟨r₃, hrun₃, hlexer, hgrows₃, hdenotes₃⟩ := hgrows.sequence (t := .blockSequence) rfl hmem hdenotes
    refine ⟨r.graph.size, r₃, _, ?_, hlexer ▸ hmore₂, hgrows₃, List.mem_cons_self, hdenotes₃⟩
    rw [hrun, StateT.run_bind, hrun₂]
    exact hrun₃
  | @map h kvs ts entries keys =>
    obtain ⟨room, rfl⟩ := Nat.exists_eq_add_of_lt hroom
    obtain ⟨lexer, hmore, hrun⟩ := node_mapping hyields (h + room) indentless fuel
    obtain ⟨es, r₂, new, hrun₂, hmore₂, hgrows, hmem, hdenotes⟩ :=
      hentries (r := { r with lexer, graph := r.graph.add ⟨.map, .map []⟩ }) [] entries
        (Nat.le_add_right h room) (by simpa using hfuel) hmore
    obtain ⟨r₃, hrun₃, hlexer, hgrows₃, hdenotes₃⟩ := hgrows.mapping (t := .blockMapping) rfl hmem hdenotes
    rw [Value.mapOf_of_pairwise keys] at hdenotes₃
    refine ⟨r.graph.size, r₃, _, ?_, hlexer ▸ hmore₂, hgrows₃, List.mem_cons_self, hdenotes₃⟩
    rw [hrun, StateT.run_bind, hrun₂]
    exact hrun₃

/-- A value is looked at before it is parsed. -/
theorem exists_peek_node (hnode : NodeParses fuel) {h room : Nat} {v : Value} (indentless : Bool)
    (hs : Spells h v ts) (hroom : h ≤ room) (hfuel : ts.length ≤ fuel)
    (hyields : r.lexer.Yields (ts ++ more)) :
    ∃ t r₁ n r₂ new, t.makesNode = true ∧ Read.peek.run r = .ok (t, r₁) ∧
      (Read.node room true indentless fuel).run r₁ = .ok (n, r₂) ∧ r₂.lexer.Yields more ∧ Grows r r₂ ts new ∧
      n ∈ new ∧ Denotes r₂.graph r.graph.size h n v := by
  obtain ⟨t, rest, rfl, ht⟩ := hs.exists_cons
  obtain ⟨lexer, hpeek, hlooks⟩ := peek_of_yields hyields
  obtain ⟨n, r₂, new, hrun, hmore, hgrows, hmem, hdenotes⟩ :=
    hnode (r := { r with lexer }) indentless hs hroom hfuel hlooks.yields
  exact ⟨t, _, n, r₂, new, ht, hpeek, hrun, hmore, hgrows.of_lexer, hmem, hdenotes⟩

theorem itemsParse_succ (hnode : NodeParses fuel) (hitems : ItemsParse fuel) : ItemsParse (fuel + 1) := by
  intro h room vs ts more r read hspells hroom hfuel hyields
  cases hspells with
  | nil =>
    obtain ⟨lexer, hpeek, hlooks⟩ := peek_of_yields hyields
    have hgrows := (Grows.refl r lexer.next).mark (t := .blockEnd) rfl
    refine ⟨[], { r with lexer := lexer.next }, [], ?_, hlooks.more, hgrows, by simp, .nil⟩
    simp only [Read.blockItems, StateT.run_bind, hpeek, ok_bind, next_run, List.append_nil]
    rfl
  | @cons _ v vs ts rest item items =>
    obtain ⟨lexer, hpeek, hlooks⟩ := peek_of_yields hyields
    have hmore := hlooks.more
    rw [List.append_eq, List.append_assoc] at hmore
    simp only [List.length_cons, List.length_append] at hfuel
    -- the item behind the dash, and the other items
    obtain ⟨t, r₁, n, r₂, new, ht, hpeek₁, hrun₂, hmore₂, hgrows, hmem, hdenotes⟩ :=
      exists_peek_node (r := { r with lexer := lexer.next }) hnode false item hroom (by omega) hmore
    obtain ⟨ns, r₃, new', hrun₃, hmore₃, hgrows', hmem', hdenotes'⟩ :=
      hitems (n :: read) items hroom (by omega) hmore₂
    obtain ⟨hgrows₃, hmem₃, hdenotes₃⟩ := hgrows.of_lexer.cons_item hgrows' hmem hdenotes hmem' hdenotes'
    refine ⟨n :: ns, r₃, new' ++ new, ?_, hmore₃, hgrows₃.mark rfl, hmem₃, hdenotes₃⟩
    have hresult : read.reverse ++ n :: ns = (n :: read).reverse ++ ns := by simp
    rw [hresult]
    simp only [Read.blockItems, StateT.run_bind, hpeek, ok_bind, next_run, hpeek₁]
    cases t <;> first | (cases ht; done) | simp only [StateT.run_bind, hrun₂, ok_bind, hrun₃]

/-- A word that is a text is parsed as a key. -/
theorem exists_key {word : List Char} {plain : Bool} (hyields : r.lexer.Yields (.scalar word plain :: more))
    (hword : scalarTag plain word = .str) (room : Nat) (block indentless : Bool) (fuel : Nat)
    (hfuel : 0 < fuel) :
    ∃ r₁ r₂, Read.peek.run r = .ok (.scalar word plain, r₁) ∧
      (Read.node room block indentless fuel).run r₁ = .ok (r.graph.size, r₂) ∧ r₂.lexer.Yields more ∧
      Grows r r₂ [.scalar word plain] [r.graph.size] ∧
      IsLeaf r₂.graph r.graph.size r.graph.size (.str (String.ofList word)) ∧
      r₂.graph.tag r.graph.size = .str := by
  obtain ⟨fuel, rfl⟩ := Nat.exists_eq_add_one_of_ne_zero (Nat.ne_of_gt hfuel)
  obtain ⟨lexer, hpeek, hlooks⟩ := peek_of_yields hyields
  obtain ⟨lexer', hrun, hmore⟩ := node_scalar (r := { r with lexer }) hlooks.yields room block indentless fuel
  have hgrows := Grows.scalar r lexer' (scalarTag plain word) word (t := .scalar word plain) rfl
  have htag : (r.graph.add ⟨scalarTag plain word, .scalar word⟩).tag r.graph.size = .str := by
    rw [Graph.tag, Graph.node_add_size]
    exact hword
  refine ⟨_, _, hpeek, hrun, hmore, hgrows, ⟨le_rfl, ?_, word, ?_, ?_⟩, htag⟩
  · exact (hgrows.range _ List.mem_cons_self).2
  · rw [Graph.node_add_size]
  · rw [htag]
    rfl

theorem entriesParse_succ (hnode : NodeParses fuel) (hentries : EntriesParse fuel) :
    EntriesParse (fuel + 1) := by
  intro h room kvs ts more r read hspells hroom hfuel hyields
  cases hspells with
  | nil =>
    obtain ⟨lexer, hpeek, hlooks⟩ := peek_of_yields hyields
    have hgrows := (Grows.refl r lexer.next).mark (t := .blockEnd) rfl
    refine ⟨[], { r with lexer := lexer.next }, [], ?_, hlooks.more, hgrows, by simp, .nil⟩
    simp only [Read.blockEntries, StateT.run_bind, hpeek, ok_bind, next_run, List.append_nil]
    rfl
  | @cons _ word v kvs ts rest text value entries =>
    simp only [List.length_cons, List.length_append] at hfuel
    obtain ⟨lexer, hpeek, hlooks⟩ := peek_of_yields hyields
    -- the key, which is a node of its own
    obtain ⟨r₁, r₂, hpeek₁, hrun₂, hmore₂, hgrows₂, hkey, htag⟩ :=
      exists_key (r := { r with lexer := lexer.next }) hlooks.more text room true true fuel (by omega)
    -- its colon
    obtain ⟨lexer₃, hpeek₃, hlooks₃⟩ := peek_of_yields hmore₂
    have hmore₃ := hlooks₃.more
    rw [List.append_eq, List.append_assoc] at hmore₃
    -- its value, and the other entries
    obtain ⟨t, r₄, n, r₅, new, ht, hpeek₄, hrun₅, hmore₅, hgrows₅, hmem, hdenotes⟩ :=
      exists_peek_node (r := { r₂ with lexer := lexer₃.next }) hnode true value hroom (by omega) hmore₃
    obtain ⟨es, r₆, new', hrun₆, hmore₆, hgrows₆, hmem', hdenotes'⟩ :=
      hentries ((r.graph.size, n) :: read) entries hroom (by omega) hmore₅
    obtain ⟨hgrows, hmem₆, hdenotes₆⟩ :=
      hgrows₂.of_lexer.cons_entry hgrows₅.of_lexer hgrows₆ hkey htag hmem hdenotes hmem' hdenotes'
    refine ⟨(r.graph.size, n) :: es, r₆, _, ?_, hmore₆, hgrows.mark rfl, hmem₆, hdenotes₆⟩
    have hresult : read.reverse ++ (r.graph.size, n) :: es = ((r.graph.size, n) :: read).reverse ++ es := by
      simp
    rw [hresult]
    simp only [Read.blockEntries, StateT.run_bind, hpeek, ok_bind, next_run, hpeek₁, hrun₂, hpeek₃, hpeek₄]
    cases t <;> first | (cases ht; done) | simp only [StateT.run_bind, hrun₅, ok_bind, hrun₆]

/-- **Every value in blocks is parsed**, given as much fuel as it has tokens. -/
theorem parses (fuel : Nat) : NodeParses fuel ∧ ItemsParse fuel ∧ EntriesParse fuel := by
  induction fuel with
  | zero =>
    refine ⟨fun _ hs _ hfuel _ => ?_, fun _ hs _ hfuel _ => ?_, fun _ hs _ hfuel _ => ?_⟩ <;>
      cases hs <;> simp at hfuel
  | succ fuel ih =>
    obtain ⟨hnode, hitems, hentries⟩ := ih
    exact ⟨nodeParses_succ hitems hentries, itemsParse_succ hnode hitems, entriesParse_succ hnode hentries⟩

/-! ## Texts -/

/-- Nothing follows the document. -/
theorem finish_spec (hfuel : 0 < fuel) (hyields : r.lexer.Yields [.streamEnd]) :
    ∃ lexer, (Read.finish fuel).run r = .ok ((), { r with lexer }) := by
  obtain ⟨fuel, rfl⟩ := Nat.exists_eq_add_one_of_ne_zero (Nat.ne_of_gt hfuel)
  obtain ⟨lexer, hpeek, hlooks⟩ := peek_of_yields hyields
  have hpeek' : Read.peek.run { r with lexer } = .ok (.streamEnd, { r with lexer }) := peek_of_looks hlooks
  refine ⟨lexer, ?_⟩
  simp only [Read.finish, Read.documentEnds, StateT.run_bind, hpeek, ok_bind]
  rw [show (pure () : Read Unit).run { r with lexer } = .ok ((), { r with lexer }) from rfl]
  simp only [ok_bind, hpeek']
  rfl

/-- A text is read as what its one node stands for. -/
theorem readChars_of_node {cs : List Char} {h n : Nat} {v : Value} {r₁ r₂ : Reading} {new : List Nat}
    (hallowed : cs.all isAllowed = true) (ht : t.makesNode = true)
    (hpeek : Read.peek.run { lexer := .ofChars cs } = .ok (t, r₁))
    (hrun : (Read.node nestingLimit true false (8 * cs.length + 16)).run r₁ = .ok (n, r₂))
    (hmore : r₂.lexer.Yields [.streamEnd]) (hgrows : Grows { lexer := .ofChars cs } r₂ ts new) (hmem : n ∈ new)
    (hdenotes : Denotes r₂.graph 0 h n v) (hh : h ≤ ts.countP Token.makesNode) : readChars cs = .ok v := by
  have hfuel : 0 < 8 * cs.length + 16 := by omega
  obtain ⟨lexer, hfinish⟩ := finish_spec hfuel hmore
  have hdocument : (Read.document (8 * cs.length + 16)).run { lexer := .ofChars cs }
      = .ok (some n, { r₂ with lexer }) := by
    simp only [Read.document, StateT.run_bind, hpeek, ok_bind]
    cases t <;> first | (cases ht; done) | (simp only [StateT.run_bind, hrun, ok_bind, hfinish]; rfl)
  -- the nodes were noted with the last one first, as `Ordered` has them
  have horder : r₂.order = new := by simpa using hgrows.order
  let d : Document := { graph := r₂.graph, root := n, order := r₂.order.reverse }
  have hvalue : d.value = .ok v := by
    refine value_of_denotes hdenotes ?_ (by rw [← horder]) hgrows.ordered hmem
    have := hgrows.size
    show h ≤ r₂.graph.size
    omega
  rw [readChars, Document.ofChars, if_pos hallowed]
  simp only [hdocument, ok_bind]
  exact hvalue

/-- **A text that gives the tokens of a value is read as that value.** -/
theorem readChars_of_reads {cs : List Char} {h : Nat} {v : Value} (hallowed : cs.all isAllowed = true)
    (hmark : cs.head? ≠ some '\uFEFF') (hs : Spells h v ts)
    (hreads : Lexer.Reads ⟨cs, 0, [], true⟩ (ts ++ [.streamEnd])) (hlength : ts.length ≤ 8 * cs.length + 16)
    (hroom : h ≤ nestingLimit) (hh : h ≤ ts.countP Token.makesNode) : readChars cs = .ok v := by
  obtain ⟨hstands, hoffers⟩ := Lexer.ofChars_spec hmark
  obtain ⟨hnode, -, -⟩ := parses (8 * cs.length + 16)
  obtain ⟨t, r₁, n, r₂, new, ht, hpeek, hrun, hmore, hgrows, hmem, hdenotes⟩ :=
    exists_peek_node (r := { lexer := .ofChars cs }) hnode false hs hroom hlength (hreads _ hstands hoffers)
  exact readChars_of_node hallowed ht hpeek hrun hmore hgrows hmem hdenotes hh

end CommentStyle.Yaml
