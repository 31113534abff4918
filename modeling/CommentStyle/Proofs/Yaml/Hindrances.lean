import CommentStyle.Proofs.Yaml.Descent
import CommentStyle.Proofs.Yaml.Merging
import CommentStyle.Yaml.Reader

/-!
# What can keep a text from making data

A text that is no YAML is refused for its form. Any other fault has a cause that can be pointed at: in the text
itself as long as its document is being taken in, and in the nodes of the document when values are made of them.

* **`scanning`** — while the tokens are taken, what cannot be got past is in the text, and collections are no
  deeper inside each other than there are marks that begin them (**`yields_ofChars`**).
* **`Graph.Hinders`** — a scalar that does not make the value of its tag, a mapping where a scalar is asked for, or
  too many merge keys. **`Makes`** — nothing else ends the making of values (**`makes_node`** and those beside it).
* **`Hinders`**, **`hinders_of_readChars`** — all of it.
-/

namespace CommentStyle.Yaml

/-! ## Taking a document in -/

/-- The lexer is inside the text, and the bound is beyond the collections and items that may still begin. -/
def scanning (cs : List Char) : Watch where
  before k l := l.cursor.rest <:+ cs ∧ l.openings < k
  looked k t l := (l.cursor.rest <:+ cs ∧ l.openings < k) ∧ ∃ ts, l.ready = t :: ts
  cause k room f := Unscannable cs f ∨ f = .tooDeep ∧ room < k
  ahead {_ l} h _ := l.lexes_ahead.imp
    (fun _ hr => ⟨⟨hr.1.reaches.suffix.trans h.1, hr.1.openings_le.trans_lt h.2⟩, hr.2⟩)
    fun _ hf => .inl (hf.of_part h.1.isInfix)
  unlooked h := h.1
  next {_ _ l} h := by
    obtain ⟨⟨hpart, hbound⟩, ts, hready⟩ := h
    have hcount := Lexer.openings_next hready
    exact ⟨hpart, by omega⟩
  opened {_ _ l} h ht := by
    obtain ⟨⟨hpart, hbound⟩, ts, hready⟩ := h
    have hcount := Lexer.openings_next hready
    rw [if_pos ht] at hcount
    exact ⟨hpart, by omega⟩
  widen h := ⟨h.1, h.2.trans_le (Nat.sub_le _ 1)⟩
  full h := .inr ⟨rfl, Nat.zero_lt_of_lt h.2⟩
  inner h := h.imp_right fun h => ⟨h.1, by omega⟩
  shallow h := h.imp_right fun h => ⟨h.1, by omega⟩

theorem scanning_ofChars (cs : List Char) : (scanning cs).before (cs.countP opens + 1) (Lexer.ofChars cs) := by
  have hreaches : Cursor.Reaches { rest := cs } (Lexer.ofChars cs).cursor := by
    unfold Lexer.ofChars
    simp only
    split
    · exact Cursor.reaches_next _
    · exact .refl _
  refine ⟨hreaches.suffix, Nat.lt_succ_of_le ?_⟩
  simp only [Lexer.openings, Lexer.ofChars, List.countP_nil, Nat.zero_add]
  exact hreaches.suffix.sublist.countP_le

/-- What keeps a document from being taken in, other than its form. -/
theorem yields_ofChars (cs : List Char) : Yields (Document.ofChars cs) (fun _ => True) fun f =>
    Unscannable cs f ∨ f = .tooDeep ∧ nestingLimit ≤ cs.countP opens := by
  unfold Document.ofChars
  split
  · have hreads := (scanning cs).reads_document _ (8 * cs.length + 16) { lexer := .ofChars cs } (scanning_ofChars cs)
    refine (hreads.imp (fun _ _ => trivial) ?_).bind fun _ _ => .ok trivial
    exact fun f hf => hf.imp_right fun h => ⟨h.1, Nat.le_of_lt_succ h.2⟩
  · exact .malformed

/-! ## Making values -/

/-- What in the nodes of a document keeps values from being made of them, although the document may be in order. -/
inductive Graph.Hinders (g : Graph) : Unmade → Prop
  /-- A scalar does not make the value that its tag asks for. -/
  | scalar {n : Nat} {text : List Char} {f : Unmade} (hbody : (g.node n).body = .scalar text)
      (hvalue : Scalar.content n (g.tag n) text = .error (.unmade f)) : Hinders g f
  /-- A tag that asks for a scalar stands on a mapping. -/
  | mapping {n : Nat} (f : Unmade) (hmap : (g.node n).isMap = true)
      (htag : (g.tag n).isScalar = true ∨ g.tag n = .value) : Hinders g f
  | merges (hcount : chainLimit ≤ g.mergeCount) : Hinders g .tooDeep

section Making

variable {g g' : Graph} {n : Nat}

theorem isMap_of_merged (h : g.Merged g') (hn : (g'.node n).isMap = true) : (g.node n).isMap = true := by
  rcases h.body n with hsame | ⟨hmap, -⟩
  · rw [Node.isMap, ← hsame]
    exact hn
  · exact hmap

theorem yields_scalar (h : g.Merged g') (n : Nat) : Yields (Make.scalar g' n) (fun _ => True) g.Hinders := by
  have htag : (g'.tag n).isScalar = true → (g.tag n).isScalar = true ∨ g.tag n = .value := by
    rcases h.tag n with hsame | ⟨hvalue, -⟩
    · exact fun hscalar => .inl (hsame ▸ hscalar)
    · exact fun _ => .inr hvalue
  unfold Make.scalar
  extract_lets behind
  split
  · exact .malformed
  next hscalar =>
  simp only [Bool.not_eq_true, Bool.not_eq_false'] at hscalar
  cases hbody : (g'.node n).body with
  | map es =>
    have hmap : (g.node n).isMap = true := isMap_of_merged h (by rw [Node.isMap, hbody])
    exact ⟨fun _ _ => trivial, fun f _ => .mapping f hmap (htag hscalar)⟩
  | seq ns =>
    have htext : Make.textOf g' chainLimit n = .error .malformed := by
      show Make.textOf g' (984 + 1) n = _
      rw [Make.textOf, hbody]
    simp only [behind, htext]
    exact .malformed
  | scalar text =>
    have htext : Make.textOf g' chainLimit n = .ok text := by
      show Make.textOf g' (984 + 1) n = _
      rw [Make.textOf, hbody]
    have hmap : (g'.node n).isMap = false := by rw [Node.isMap, hbody]
    have hcontent : behind () = Scalar.content n (g'.tag n) text := by
      simp only [behind, htext, hmap, Bool.and_false]
      rfl
    rw [hcontent]
    refine ⟨fun _ _ => trivial, fun f hf => ?_⟩
    -- merging leaves scalars as they are, and where it changes a tag it is to that of texts, which any scalar makes
    rcases h.tag n with hsame | ⟨-, hstr⟩
    · rcases h.body n with hfirst | ⟨-, hmap'⟩
      · exact .scalar (hfirst ▸ hbody) (hsame ▸ hf)
      · rw [hmap] at hmap'
        cases hmap'
    · rw [hstr] at hf
      cases hf

/-- A step of the making: the graph stays merged from the one that the document began with. -/
def Makes {α : Type} (g : Graph) (x : Make α) : Prop :=
  ∀ m, g.Merged m.graph → Yields (x.run m) (fun p => g.Merged p.2.graph) g.Hinders

namespace Makes

variable {α β : Type} {x : Make α}

theorem bind {f : α → Make β} (hx : Makes g x) (hf : ∀ a, Makes g (f a)) : Makes g (x >>= f) := by
  intro m hm
  rw [StateT.run_bind]
  exact (hx m hm).bind fun p hp => hf p.1 p.2 hp

theorem pure (a : α) : Makes g (Pure.pure a : Make α) := fun _ hm => .ok hm

theorem malformed : Makes g (MonadExcept.throw Fault.malformed : Make α) := fun _ _ => .malformed

theorem get_bind {f : Making → Make α} (hf : ∀ m, g.Merged m.graph → Makes g (f m)) :
    Makes g (MonadState.get >>= f) := fun m hm => hf m hm m hm

theorem modify {f : Making → Making} (hf : ∀ m, g.Merged m.graph → g.Merged (f m).graph) :
    Makes g (modify f : Make PUnit) := fun m hm => .ok (hf m hm)

theorem lift_bind {y : Except Fault α} {Result : α → Prop} {f : α → Make β} (hy : Yields y Result g.Hinders)
    (hf : ∀ a, Result a → Makes g (f a)) : Makes g (liftM y >>= f) := by
  intro m hm
  cases y with
  | error e => exact ⟨fun _ hb => (by cases hb), fun k hk => hy.cause k (by cases hk; rfl)⟩
  | ok a => exact hf a (hy.result a rfl) m hm

theorem forM {f : α → Make PUnit} (hf : ∀ a, Makes g (f a)) (as : List α) : Makes g (as.forM f) := by
  induction as with
  | nil => exact .pure _
  | cons a as ih => exact (hf a).bind fun _ => ih

theorem mapM {f : α → Make β} (hf : ∀ a, Makes g (f a)) (as : List α) : Makes g (as.mapM f) := by
  induction as with
  | nil => exact .pure _
  | cons a as ih =>
    rw [List.mapM_cons]
    exact (hf a).bind fun _ => ih.bind fun _ => .pure _

end Makes

theorem makes_put (n : Nat) (c : Content) : Makes g (Make.put n c) := .modify fun _ => id

theorem makes_collection (n : Nat) (c : Content) : Makes g (Make.collection n c) :=
  (makes_put n c).bind fun _ => .modify fun _ => id

theorem makes_node (n : Nat) : Makes g (Make.node n) := by
  refine .get_bind fun m hm => ?_
  split
  · exact .pure ()
  · split
    case h_6 => exact .lift_bind (yields_scalar hm n) fun v _ => makes_put n (.leaf v)
    all_goals exact makes_collection n _

theorem makes_key (n : Nat) : Makes g (Make.key n) := by
  refine (makes_node n).bind fun _ => .get_bind fun m _ => ?_
  split
  · exact .pure _
  · exact .malformed

theorem makes_entries (n : Nat) : Makes g (Make.entries n) := by
  refine .get_bind fun m hm => ?_
  extract_lets rest
  split
  · exact .malformed
  · next hmap =>
    have hn : (g.node n).isMap = true := isMap_of_merged hm (by simpa using hmap)
    refine .get_bind fun m' hm' => ?_
    have hflatten := Graph.yields_flatten (hm'.isMap hn)
    refine .lift_bind (hflatten.imp (fun _ h => hm'.trans h) ?_) fun g'' hg'' => ?_
    · rintro f ⟨rfl, hcount⟩
      exact .merges (hcount.trans hm'.count)
    · refine .bind (.modify fun _ _ => hg'') fun _ => .bind (.mapM ?_ _) fun es => .pure _
      exact fun e => (makes_key e.1).bind fun k => (makes_node e.2).bind fun _ => .pure _

theorem makes_pair (n : Nat) : Makes g (Make.pair n) := by
  refine .get_bind fun m _ => ?_
  split
  · exact (makes_node _).bind fun _ => (makes_node _).bind fun _ => .pure _
  · exact .malformed

theorem makes_items (n : Nat) : Makes g (Make.items n) := by
  refine .get_bind fun m _ => ?_
  split
  · exact .pure _
  · exact .malformed

theorem makes_fill (n : Nat) : Makes g (Make.fill n) := by
  refine .get_bind fun m _ => ?_
  split
  · exact (makes_items n).bind fun ns => (Makes.forM makes_node ns).bind fun _ => makes_put n _
  · exact (makes_items n).bind fun ns => (Makes.mapM makes_pair ns).bind fun _ => makes_put n _
  · exact (makes_entries n).bind fun _ => makes_put n _
  · exact (makes_entries n).bind fun _ => makes_put n _
  · exact .pure _

theorem makes_levels (fuel : Nat) : Makes g (Make.levels fuel) := by
  induction fuel with
  | zero => exact .pure ()
  | succ fuel ih =>
    refine .get_bind fun m _ => ?_
    split
    · exact .pure ()
    · exact .bind (.modify fun _ => id) fun _ => (Makes.forM makes_fill _).bind fun _ => ih

end Making

theorem yields_value (d : Document) : Yields d.value (fun _ => True) d.graph.Hinders := by
  have hmakes := (makes_node d.root).bind (g := d.graph) fun _ => makes_levels (d.graph.size + 1)
  have hcontents : Yields d.contents (fun _ => True) d.graph.Hinders :=
    (hmakes { graph := d.graph, contents := Array.replicate d.graph.size none } (.refl d.graph)).bind
      fun _ _ => .ok trivial
  refine hcontents.bind fun contents _ => ?_
  extract_lets values
  split
  · exact .ok trivial
  · exact .ok trivial

/-! ## Reading -/

/-- What can keep a text from making data, although it may be YAML. -/
inductive Hinders (cs : List Char) : Unmade → Prop
  | scanning {f : Unmade} (h : Unscannable cs f) : Hinders cs f
  /-- As many collections as there is room for may be inside each other. -/
  | nesting (h : nestingLimit ≤ cs.countP opens) : Hinders cs .tooDeep
  | making {d : Document} {f : Unmade} (hd : Document.ofChars cs = .ok (some d)) (h : d.graph.Hinders f) :
      Hinders cs f

/-- **A text that makes no data, and is not refused for its form, is hindered.** -/
theorem hinders_of_readChars {cs : List Char} {f : Unmade} (h : readChars cs = .error (.unmade f)) :
    Hinders cs f := by
  rw [readChars] at h
  cases hdocument : Document.ofChars cs with
  | error e =>
    rw [hdocument] at h
    cases h
    rcases (yields_ofChars cs).cause f hdocument with hscan | ⟨rfl, hnesting⟩
    · exact .scanning hscan
    · exact .nesting hnesting
  | ok document =>
    rw [hdocument] at h
    cases document with
    | none => cases h
    | some d => exact .making hdocument ((yields_value d).cause f h)

end CommentStyle.Yaml
