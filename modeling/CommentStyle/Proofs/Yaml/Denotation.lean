import CommentStyle.Proofs.Outcome
import CommentStyle.Proofs.Value.Contents
import CommentStyle.Yaml.Reader
import Mathlib.Data.List.Forall2
import Mathlib.Data.List.TakeWhile

/-!
# What the nodes of a document stand for

A value is made of a document in two rounds: contents are made level by level from the root, and values are
put together in the order in which the nodes were complete. For sequences, mappings with words as keys, and
scalars, this is what one would say without any of it:

* **`Denotes`** — the node stands for the value; a scalar for its own, a collection for that of its parts.
  The index bounds the depth of collections, and with it the number of levels.
* **`Sound`** — the contents made so far are right, save that some collections are still blank. One lemma
  for each function of the maker says that it keeps this (`node_spec`, `fill_spec`, `levels_spec`).
* **`Ordered`** — each node comes behind its parts, so one pass puts all values together
  (`assembleOnce_spec`).
* **`value_of_denotes`** — the value of the document is what its root stands for.
-/

namespace CommentStyle.Yaml

/-- A computation that ends well hands on its result. -/
@[simp] theorem ok_bind {ε α β : Type} (a : α) (f : α → Except ε β) : (Except.ok a >>= f) = f a := rfl

/-! ## Denotation -/

/-- The node is a scalar with a value of its own. Nodes from `lo` on count only. -/
structure IsLeaf (g : Graph) (lo n : Nat) (v : Value) : Prop where
  lower : lo ≤ n
  upper : n < g.size
  content : ∃ text, (g.node n).body = .scalar text ∧ Scalar.content n (g.tag n) text = .ok v

/-- The node is a sequence or a mapping, and its parts are related to those of the value. The keys of a
mapping are words, and a word that comes again takes the last value. -/
inductive IsCollection (g : Graph) (lo : Nat) (part : Nat → Value → Prop) : Nat → Value → Prop
  | seq {n : Nat} {ns : List Nat} {vs : List Value} (lower : lo ≤ n) (upper : n < g.size)
      (node : g.node n = ⟨.seq, .seq ns⟩) (items : List.Forall₂ part ns vs) :
      IsCollection g lo part n (.list vs)
  | map {n : Nat} {es : List (Nat × Nat)} {kvs : List (Value × Value)} (lower : lo ≤ n) (upper : n < g.size)
      (node : g.node n = ⟨.map, .map es⟩)
      (entries : List.Forall₂ (fun e kv => IsLeaf g lo e.1 kv.1 ∧ g.tag e.1 = .str ∧ part e.2 kv.2) es kvs) :
      IsCollection g lo part n (.map (Value.mapOf kvs))

/-- The node stands for the value, collections being at most this deep. -/
def Denotes (g : Graph) (lo : Nat) : Nat → Nat → Value → Prop
  | 0, n, v => IsLeaf g lo n v
  | h + 1, n, v => IsLeaf g lo n v ∨ IsCollection g lo (Denotes g lo h) n v

variable {g : Graph} {lo h n : Nat} {v : Value} {pending : List Nat} {m : Making}

theorem IsLeaf.denotes (hn : IsLeaf g lo n v) (h : Nat) : Denotes g lo h n v := by
  cases h with
  | zero => exact hn
  | succ h => exact .inl hn

theorem Denotes.cases (hn : Denotes g lo h n v) :
    IsLeaf g lo n v ∨ ∃ h', h = h' + 1 ∧ IsCollection g lo (Denotes g lo h') n v := by
  cases h with
  | zero => exact .inl hn
  | succ h => exact hn.imp_right fun hn => ⟨h, rfl, hn⟩

theorem isScalar_of_content {place : Nat} {tag : Tag} {text : List Char}
    (hv : Scalar.content place tag text = .ok v) : tag.isScalar = true := by
  cases tag <;> first | rfl | cases hv

theorem IsLeaf.isScalar (hn : IsLeaf g lo n v) : (g.tag n).isScalar = true := by
  obtain ⟨text, -, hv⟩ := hn.content
  exact isScalar_of_content hv

theorem IsLeaf.unique {w : Value} (hv : IsLeaf g lo n v) (hw : IsLeaf g lo n w) : v = w := by
  obtain ⟨text, hbody, hv⟩ := hv.content
  obtain ⟨text', hbody', hw⟩ := hw.content
  obtain rfl : text = text' := Body.scalar.inj (hbody.symm.trans hbody')
  exact Except.ok.inj (hv.symm.trans hw)

/-- The maker finds the value of a leaf. -/
theorem IsLeaf.scalar (hn : IsLeaf g lo n v) : Make.scalar g n = .ok v := by
  obtain ⟨text, hbody, hv⟩ := hn.content
  have htext : Make.textOf g chainLimit n = .ok text := by rw [chainLimit, Make.textOf, hbody]
  have hmap : (g.node n).isMap = false := by rw [Node.isMap, hbody]
  rw [Make.scalar, hn.isScalar, htext, hmap]
  simpa [bind, Except.bind, pure, Except.pure] using hv

/-! ## Contents -/

/-- The node has a content, be it blank. -/
def Made (m : Making) (n : Nat) : Prop := (m.contents.getD n none).isSome = true

/-- The content is of the kind that the node asks for. -/
inductive Fits (g : Graph) (lo n : Nat) : Content → Prop
  | leaf {v : Value} (hn : IsLeaf g lo n v) : Fits g lo n (.leaf v)
  | list (htag : g.tag n = .seq) (ns : List Nat) : Fits g lo n (.list ns)
  | map (htag : g.tag n = .map) (es : List (Value × Nat)) : Fits g lo n (.map es)

theorem Fits.eq_leaf {c : Content} (hc : Fits g lo n c) (hn : IsLeaf g lo n v) : c = .leaf v := by
  have hscalar := hn.isScalar
  cases hc with
  | leaf hw => rw [hw.unique hn]
  | list htag =>
    rw [htag] at hscalar
    cases hscalar
  | map htag =>
    rw [htag] at hscalar
    cases hscalar

theorem Fits.exists_list {c : Content} (hc : Fits g lo n c) (htag : g.tag n = .seq) : ∃ ns, c = .list ns := by
  cases hc with
  | leaf hn => exact absurd hn.isScalar (by rw [htag]; decide)
  | list _ ns => exact ⟨ns, rfl⟩
  | map htag' => exact absurd (htag.symm.trans htag') (by decide)

theorem Fits.exists_map {c : Content} (hc : Fits g lo n c) (htag : g.tag n = .map) : ∃ es, c = .map es := by
  cases hc with
  | leaf hn => exact absurd hn.isScalar (by rw [htag]; decide)
  | list htag' => exact absurd (htag.symm.trans htag') (by decide)
  | map _ es => exact ⟨es, rfl⟩

/-- The content is that of the node, and its parts are made. -/
inductive Filled (g : Graph) (lo : Nat) (m : Making) (n : Nat) : Content → Prop
  | leaf (v : Value) : Filled g lo m n (.leaf v)
  | list {ns : List Nat} (body : (g.node n).body = .seq ns) (made : ∀ k ∈ ns, Made m k) :
      Filled g lo m n (.list ns)
  | map {es : List (Nat × Nat)} {ks : List (Value × Nat)} (body : (g.node n).body = .map es)
      (entries : List.Forall₂ (fun e k => IsLeaf g lo e.1 k.1 ∧ k.2 = e.2 ∧ Made m e.2) es ks) :
      Filled g lo m n (.map (Value.mapOf ks))

/-- The collections that wait can be filled, and nothing deeper than `h` is behind them. -/
def Due (g : Graph) (lo : Nat) : Nat → List Nat → Prop
  | 0, ns => ns = []
  | h + 1, ns => ∀ n ∈ ns, ∃ v, IsCollection g lo (Denotes g lo h) n v

/-- The contents made so far are right, save that collections which are pending or wait are blank. -/
structure Sound (g : Graph) (lo h : Nat) (pending : List Nat) (m : Making) : Prop where
  graph : m.graph = g
  size : m.contents.size = g.size
  due : Due g lo h m.waiting
  made : ∀ n c, m.contents.getD n none = some c →
    Fits g lo n c ∧ (n ∈ pending ∨ n ∈ m.waiting ∨ Filled g lo m n c)

theorem Filled.mono {m' : Making} {c : Content} (hmade : ∀ k, Made m k → Made m' k)
    (hc : Filled g lo m n c) : Filled g lo m' n c := by
  cases hc with
  | leaf v => exact .leaf v
  | list hbody hparts => exact .list hbody fun k hk => hmade k (hparts k hk)
  | map hbody hparts => exact .map hbody (hparts.imp fun _ _ hek => ⟨hek.1, hek.2.1, hmade _ hek.2.2⟩)

theorem getD_setIfInBounds {α : Type} (xs : Array (Option α)) (n k : Nat) (x : α) :
    (xs.setIfInBounds n (some x)).getD k none = if k = n ∧ n < xs.size then some x else xs.getD k none := by
  rw [Array.getD_eq_getD_getElem?, Array.getElem?_setIfInBounds, Array.getD_eq_getD_getElem?]
  by_cases hk : n = k
  · subst hk
    by_cases hn : n < xs.size
    · simp [hn]
    · simp [hn]
  · simp [hk, Ne.symm hk]

/-- The maker went on to a sound state, and what was made stays made. -/
structure Advances (g : Graph) (lo h : Nat) (pending : List Nat) (m m' : Making) : Prop where
  sound : Sound g lo h pending m'
  keeps : ∀ k, Made m k → Made m' k

theorem Advances.trans {pending' : List Nat} {m₁ m₂ m₃ : Making} (h₁ : Advances g lo h pending m₁ m₂)
    (h₂ : Advances g lo h pending' m₂ m₃) : Advances g lo h pending' m₁ m₃ :=
  ⟨h₂.sound, fun k hk => h₂.keeps k (h₁.keeps k hk)⟩

/-- A content is put in. -/
theorem Sound.put {pending' waiting : List Nat} {c : Content} (hm : Sound g lo h pending m)
    (hn : n < g.size) (hfits : Fits g lo n c) (hdue : Due g lo h waiting)
    (hself : n ∈ pending' ∨ n ∈ waiting ∨ Filled g lo m n c)
    (hothers : ∀ k, k ≠ n → k ∈ pending ∨ k ∈ m.waiting → k ∈ pending' ∨ k ∈ waiting) :
    let m' : Making := { m with contents := m.contents.setIfInBounds n (some c), waiting }
    Advances g lo h pending' m m' ∧ Made m' n := by
  intro m'
  have hget : ∀ k, m'.contents.getD k none = if k = n then some c else m.contents.getD k none := by
    intro k
    rw [getD_setIfInBounds, hm.size]
    simp [hn]
  have hmade : ∀ k, Made m k → Made m' k := by
    intro k hk
    rw [Made, hget]
    split
    · rfl
    · exact hk
  -- the state of every other node is as it was, and nothing that was made is lost
  refine ⟨⟨⟨hm.graph, by simpa [m'] using hm.size, hdue, fun k d hd => ?_⟩, hmade⟩, ?_⟩
  · rw [hget] at hd
    split at hd
    · next hk =>
      obtain rfl := Option.some.inj hd
      rw [hk]
      exact ⟨hfits, hself.imp_right fun hself => hself.imp_right (Filled.mono hmade)⟩
    · next hk =>
      obtain ⟨hfits', hstate⟩ := hm.made k d hd
      refine ⟨hfits', ?_⟩
      rcases hstate with hstate | hstate | hstate
      · exact (hothers k hk (.inl hstate)).imp_right .inl
      · exact (hothers k hk (.inr hstate)).imp_right .inl
      · exact .inr (.inr (hstate.mono hmade))
  · rw [Made, hget, if_pos rfl]
    rfl

/-- A collection is made blank, and waits. -/
theorem collection_spec {c : Content} (hm : Sound g lo h pending m) (hn : n < g.size)
    (hfits : Fits g lo n c) (hdue : Due g lo h (n :: m.waiting)) :
    ∃ m', (Make.collection n c).run m = .ok ((), m') ∧ Advances g lo h pending m m' ∧ Made m' n :=
  ⟨_, rfl, hm.put hn hfits hdue (.inr (.inl List.mem_cons_self)) fun _ _ hk =>
    hk.imp_right (List.mem_cons_of_mem n)⟩

/-- A node that stands for a value is made. -/
theorem node_spec (hm : Sound g lo h pending m) (hn : Denotes g lo h n v) :
    ∃ m', (Make.node n).run m = .ok ((), m') ∧ Advances g lo h pending m m' ∧ Made m' n := by
  cases hcontent : m.contents.getD n none with
  | some c =>
    -- another reference came first
    refine ⟨m, ?_, ⟨hm, fun _ hk => hk⟩, by rw [Made, hcontent]; rfl⟩
    simp only [Make.node, StateT.run_bind, StateT.run_get, pure_bind, hcontent]
    rfl
  | none =>
    rcases hn.cases with hleaf | ⟨h', rfl, hcollection⟩
    · have hrun : (Make.node n).run m = (Make.put n (.leaf v)).run m := by
        have hscalar := hleaf.isScalar
        simp only [Make.node, StateT.run_bind, StateT.run_get, pure_bind, hcontent, hm.graph, hleaf.scalar]
        cases htag : g.tag n <;> first | rfl | (rw [htag] at hscalar; cases hscalar)
      rw [hrun]
      exact ⟨_, rfl, hm.put hleaf.upper (.leaf hleaf) hm.due (.inr (.inr (.leaf v))) fun _ _ hk => hk⟩
    · -- its parts come later, when the collections that wait are filled
      have hdue : Due g lo (h' + 1) (n :: m.waiting) := List.forall_mem_cons.mpr ⟨⟨v, hcollection⟩, hm.due⟩
      cases hcollection with
      | seq lower upper node items =>
        have htag : g.tag n = .seq := by rw [Graph.tag, node]
        have hrun : (Make.node n).run m = (Make.collection n (.list [])).run m := by
          simp only [Make.node, StateT.run_bind, StateT.run_get, pure_bind, hcontent, hm.graph, htag]
        rw [hrun]
        exact collection_spec hm upper (.list htag []) hdue
      | map lower upper node entries =>
        have htag : g.tag n = .map := by rw [Graph.tag, node]
        have hrun : (Make.node n).run m = (Make.collection n (.map [])).run m := by
          simp only [Make.node, StateT.run_bind, StateT.run_get, pure_bind, hcontent, hm.graph, htag]
        rw [hrun]
        exact collection_spec hm upper (.map htag []) hdue

/-- All items are made. -/
theorem forM_node_spec {ns : List Nat} (hm : Sound g lo h pending m)
    (hns : ∀ n ∈ ns, ∃ v, Denotes g lo h n v) :
    ∃ m', (ns.forM Make.node).run m = .ok ((), m') ∧ Advances g lo h pending m m' ∧ ∀ n ∈ ns, Made m' n := by
  induction ns generalizing m with
  | nil => exact ⟨m, rfl, ⟨hm, fun _ hk => hk⟩, by simp⟩
  | cons n ns ih =>
    obtain ⟨v, hn⟩ := hns n List.mem_cons_self
    obtain ⟨m₁, hrun₁, hadv₁, hmade₁⟩ := node_spec hm hn
    obtain ⟨m₂, hrun₂, hadv₂, hmade₂⟩ := ih hadv₁.sound fun k hk => hns k (List.mem_cons_of_mem n hk)
    refine ⟨m₂, ?_, hadv₁.trans hadv₂, ?_⟩
    · rw [List.forM, StateT.run_bind, hrun₁]
      exact hrun₂
    · intro k hk
      rcases List.mem_cons.mp hk with rfl | hk
      · exact hadv₂.keeps _ hmade₁
      · exact hmade₂ k hk

/-- A leaf is made as a key. -/
theorem key_spec (hm : Sound g lo h pending m) (hn : IsLeaf g lo n v) :
    ∃ m', (Make.key n).run m = .ok (v, m') ∧ Advances g lo h pending m m' := by
  obtain ⟨m', hrun, hadv, hmade⟩ := node_spec hm (hn.denotes h)
  obtain ⟨c, hc⟩ := Option.isSome_iff_exists.mp hmade
  have hleaf : c = .leaf v := (hadv.sound.made n c hc).1.eq_leaf hn
  refine ⟨m', ?_, hadv⟩
  simp only [Make.key, StateT.run_bind, hrun, ok_bind, StateT.run_get, pure_bind, hc, hleaf]
  rfl

/-- The entries of a mapping are made, one after the other. -/
theorem mapM_entry_spec {es : List (Nat × Nat)} {kvs : List (Value × Value)} (hm : Sound g lo h pending m)
    (hes : List.Forall₂ (fun e kv => IsLeaf g lo e.1 kv.1 ∧ g.tag e.1 = .str ∧ Denotes g lo h e.2 kv.2) es
      kvs) :
    ∃ m' ks, (es.mapM fun e : Nat × Nat => do let k ← Make.key e.1; Make.node e.2; return (k, e.2)).run m
        = .ok (ks, m') ∧
      Advances g lo h pending m m' ∧
      List.Forall₂ (fun e k => IsLeaf g lo e.1 k.1 ∧ k.2 = e.2 ∧ Made m' e.2) es ks := by
  induction hes generalizing m with
  | nil => exact ⟨m, [], rfl, ⟨hm, fun _ hk => hk⟩, .nil⟩
  | @cons e kv es kvs he hes ih =>
    obtain ⟨hkey, -, hvalue⟩ := he
    obtain ⟨m₁, hrun₁, hadv₁⟩ := key_spec hm hkey
    obtain ⟨m₂, hrun₂, hadv₂, hmade₂⟩ := node_spec hadv₁.sound hvalue
    obtain ⟨m₃, ks, hrun₃, hadv₃, hparts⟩ := ih hadv₂.sound
    refine ⟨m₃, (kv.1, e.2) :: ks, ?_, (hadv₁.trans hadv₂).trans hadv₃,
      .cons ⟨hkey, rfl, hadv₃.keeps _ hmade₂⟩ hparts⟩
    simp only [List.mapM_cons, StateT.run_bind, hrun₁, hrun₂, hrun₃, ok_bind, StateT.run_pure, pure_bind]
    rfl

/-- Nothing is merged into a mapping whose keys are texts. -/
theorem flatten_of_forall (hes : ∀ e ∈ g.entries n, g.tag e.1 = .str) : g.flatten n = .ok g := by
  have hmerge : ((g.entries n).any fun e => g.tag e.1 = .merge) = false := by
    rw [List.any_eq_false]
    intro e he
    simp [hes e he]
  have hown : ((g.entries n).drop 0).takeWhile (fun e => g.tag e.1 ≠ .merge) = g.entries n := by
    rw [List.drop_zero, List.takeWhile_eq_self_iff]
    intro e he
    simp [hes e he]
  -- settling concerns keys that are `=`
  have hsettle : ∀ es : List (Nat × Nat), (∀ e ∈ es, g.tag e.1 = .str) → g.settle es = g := by
    intro es hes
    induction es with
    | nil => rfl
    | cons e es ih =>
      have he := hes e List.mem_cons_self
      rw [Graph.settle, List.foldl_cons, he, if_neg (by decide)]
      exact ih fun d hd => hes d (List.mem_cons_of_mem e hd)
  simp only [Graph.flatten, hmerge, Bool.false_eq_true, if_false]
  rw [Graph.flattenFrom]
  simp only [hown, hsettle _ hes, Nat.zero_add, List.getElem?_length, if_true]

/-- The entries of a mapping whose keys are words. -/
theorem entries_spec {es : List (Nat × Nat)} {kvs : List (Value × Value)} (hm : Sound g lo h pending m)
    (hnode : g.node n = ⟨.map, .map es⟩)
    (hes : List.Forall₂ (fun e kv => IsLeaf g lo e.1 kv.1 ∧ g.tag e.1 = .str ∧ Denotes g lo h e.2 kv.2) es
      kvs) :
    ∃ m' ks, (Make.entries n).run m = .ok (Value.mapOf ks, m') ∧ Advances g lo h pending m m' ∧
      List.Forall₂ (fun e k => IsLeaf g lo e.1 k.1 ∧ k.2 = e.2 ∧ Made m' e.2) es ks := by
  have hentries : g.entries n = es := by rw [Graph.entries, hnode]
  have hflatten : g.flatten n = .ok g := by
    refine flatten_of_forall fun e he => ?_
    obtain ⟨kv, -, hkv⟩ := exists_of_forall₂ hes (hentries ▸ he)
    exact hkv.2.1
  obtain ⟨m', ks, hrun, hadv, hparts⟩ := mapM_entry_spec hm hes
  have hgraph : ({ m with graph := g } : Making) = m := by rw [← hm.graph]
  have hlift : (liftM (Except.ok g : Except Fault Graph) : Make Graph).run m = .ok (g, m) := rfl
  refine ⟨m', ks, ?_, hadv, hparts⟩
  simp only [Make.entries, StateT.run_bind, StateT.run_get, pure_bind, hm.graph, hnode, Node.isMap,
    Bool.not_true, Bool.false_eq_true, if_false, hflatten, hlift, ok_bind, StateT.run_modify, hgraph, hentries,
    hrun]
  rfl

/-- A collection is filled with its parts, which are made. -/
theorem fill_spec (hm : Sound g lo h (n :: pending) m) (hn : IsCollection g lo (Denotes g lo h) n v) :
    ∃ m', (Make.fill n).run m = .ok ((), m') ∧ Advances g lo h pending m m' := by
  have hothers : ∀ {m' : Making} k, k ≠ n → k ∈ n :: pending ∨ k ∈ m'.waiting → k ∈ pending ∨ k ∈ m'.waiting :=
    fun k hk hstate => hstate.imp_left fun hmem => (List.mem_cons.mp hmem).resolve_left hk
  cases hcontent : m.contents.getD n none with
  | none =>
    -- without a content there is nothing to fill
    refine ⟨m, ?_, ⟨⟨hm.graph, hm.size, hm.due, fun k c hc => ?_⟩, fun _ hk => hk⟩⟩
    · simp only [Make.fill, StateT.run_bind, StateT.run_get, pure_bind, hcontent]
      rfl
    · have hk : k ≠ n := fun hk => by rw [hk, hcontent] at hc; cases hc
      obtain ⟨hfits, hstate⟩ := hm.made k c hc
      refine ⟨hfits, hstate.imp_left fun hmem => (List.mem_cons.mp hmem).resolve_left hk⟩
  | some c =>
    have hfits := (hm.made n c hcontent).1
    cases hn with
    | @seq ns vs lower upper node items =>
      have htag : g.tag n = .seq := by rw [Graph.tag, node]
      obtain ⟨ns', rfl⟩ := hfits.exists_list htag
      have hdenotes : ∀ k ∈ ns, ∃ v, Denotes g lo h k v := by
        intro k hk
        obtain ⟨v, -, hkv⟩ := exists_of_forall₂ items hk
        exact ⟨v, hkv⟩
      obtain ⟨m₁, hrun, hadv, hmade⟩ := forM_node_spec hm hdenotes
      obtain ⟨hput, -⟩ := hadv.sound.put upper (.list htag ns) hadv.sound.due
        (.inr (.inr (.list (by rw [node]) hmade))) hothers
      refine ⟨_, ?_, hadv.trans hput⟩
      simp only [Make.fill, StateT.run_bind, StateT.run_get, pure_bind, hcontent, Make.items, hm.graph, node,
        StateT.run_pure, hrun, ok_bind]
      rfl
    | @map es kvs lower upper node entries =>
      have htag : g.tag n = .map := by rw [Graph.tag, node]
      obtain ⟨es', rfl⟩ := hfits.exists_map htag
      obtain ⟨m₁, ks, hrun, hadv, hparts⟩ := entries_spec hm node entries
      obtain ⟨hput, -⟩ := hadv.sound.put upper (.map htag (Value.mapOf ks)) hadv.sound.due
        (.inr (.inr (.map (by rw [node]) hparts))) hothers
      refine ⟨_, ?_, hadv.trans hput⟩
      simp only [Make.fill, StateT.run_bind, StateT.run_get, pure_bind, hcontent, hrun, ok_bind]
      rfl

/-- All collections of a level are filled. -/
theorem forM_fill_spec {ns : List Nat} (hm : Sound g lo h ns m)
    (hns : ∀ n ∈ ns, ∃ v, IsCollection g lo (Denotes g lo h) n v) :
    ∃ m', (ns.forM Make.fill).run m = .ok ((), m') ∧ Advances g lo h [] m m' := by
  induction ns generalizing m with
  | nil => exact ⟨m, rfl, hm, fun _ hk => hk⟩
  | cons n ns ih =>
    obtain ⟨v, hn⟩ := hns n List.mem_cons_self
    obtain ⟨m₁, hrun₁, hadv₁⟩ := fill_spec hm hn
    obtain ⟨m₂, hrun₂, hadv₂⟩ := ih hadv₁.sound fun k hk => hns k (List.mem_cons_of_mem n hk)
    refine ⟨m₂, ?_, hadv₁.trans hadv₂⟩
    rw [List.forM, StateT.run_bind, hrun₁]
    exact hrun₂

/-- Every content that is made is right. -/
def Complete (g : Graph) (lo : Nat) (m : Making) : Prop :=
  ∀ n c, m.contents.getD n none = some c → Fits g lo n c ∧ Filled g lo m n c

theorem Sound.complete (hm : Sound g lo h [] m) (hwaiting : m.waiting = []) : Complete g lo m := by
  intro n c hc
  obtain ⟨hfits, hstate⟩ := hm.made n c hc
  rw [hwaiting] at hstate
  exact ⟨hfits, by simpa using hstate⟩

/-- Level by level everything is filled; each level is less deep than the one before. -/
theorem levels_spec {fuel : Nat} (hfuel : h < fuel) (hm : Sound g lo h [] m) :
    ∃ m', (Make.levels fuel).run m = .ok ((), m') ∧ Complete g lo m' ∧ ∀ k, Made m k → Made m' k := by
  induction h generalizing fuel m with
  | zero =>
    obtain ⟨fuel, rfl⟩ := Nat.exists_eq_add_one_of_ne_zero (Nat.ne_of_gt hfuel)
    have hwaiting : m.waiting = [] := hm.due
    refine ⟨m, ?_, hm.complete hwaiting, fun _ hk => hk⟩
    simp only [Make.levels, StateT.run_bind, StateT.run_get, pure_bind, hwaiting]
    rfl
  | succ h ih =>
    obtain ⟨fuel, rfl⟩ := Nat.exists_eq_add_one_of_ne_zero (Nat.ne_of_gt (Nat.zero_lt_of_lt hfuel))
    cases hwaiting : m.waiting with
    | nil =>
      refine ⟨m, ?_, hm.complete hwaiting, fun _ hk => hk⟩
      simp only [Make.levels, StateT.run_bind, StateT.run_get, pure_bind, hwaiting]
      rfl
    | cons n ns =>
      -- what waits becomes pending; what filling it makes will wait for the next level
      let m₀ : Making := { m with waiting := [] }
      have hm₀ : Sound g lo h (n :: ns).reverse m₀ := by
        refine ⟨hm.graph, hm.size, ?_, fun k c hc => ?_⟩
        · cases h with
          | zero => rfl
          | succ h => exact fun k hk => absurd hk List.not_mem_nil
        · obtain ⟨hfits, hstate⟩ := hm.made k c hc
          rw [hwaiting] at hstate
          refine ⟨hfits, ?_⟩
          rcases hstate with hstate | hstate | hstate
          · exact absurd hstate List.not_mem_nil
          · exact .inl (List.mem_reverse.mpr hstate)
          · exact .inr (.inr (Filled.mono (m := m) (fun _ hk => hk) hstate))
      obtain ⟨m₁, hrun₁, hadv₁⟩ := forM_fill_spec hm₀ fun k hk =>
        hm.due k (by rw [hwaiting]; exact List.mem_reverse.mp hk)
      obtain ⟨m₂, hrun₂, hcomplete, hkeeps⟩ := ih (Nat.lt_of_succ_lt_succ hfuel) hadv₁.sound
      refine ⟨m₂, ?_, hcomplete, fun k hk => hkeeps k (hadv₁.keeps k hk)⟩
      simp only [Make.levels, StateT.run_bind, StateT.run_get, pure_bind, hwaiting, StateT.run_modify]
      rw [show ({ m with waiting := [] } : Making) = m₀ from rfl]
      simp only [hrun₁, ok_bind, hrun₂]

/-- The contents of a document whose root stands for a value. -/
theorem contents_spec {d : Document} (hroot : Denotes d.graph lo h d.root v) (hh : h ≤ d.graph.size) :
    ∃ m : Making, d.contents = .ok m.contents ∧ Made m d.root ∧ Complete d.graph lo m := by
  let start : Making := { graph := d.graph, contents := Array.replicate d.graph.size none }
  have hstart : Sound d.graph lo h [] start := by
    refine ⟨rfl, Array.size_replicate, ?_, fun n c hc => ?_⟩
    · cases h with
      | zero => rfl
      | succ h => exact fun k hk => absurd hk List.not_mem_nil
    · simp only [start, Array.getD_eq_getD_getElem?, Array.getElem?_replicate] at hc
      split at hc <;> cases hc
  obtain ⟨m₁, hrun₁, hadv₁, hmade⟩ := node_spec hstart hroot
  obtain ⟨m₂, hrun₂, hcomplete, hkeeps⟩ := levels_spec (Nat.lt_succ_of_le hh) hadv₁.sound
  refine ⟨m₂, ?_, hkeeps _ hmade, hcomplete⟩
  rw [Document.contents, StateT.run_bind, hrun₁]
  simp only [ok_bind, hrun₂]
  rfl

/-! ## Values -/

/-- The nodes whose values make up that of a node. -/
def Body.parts : Body → List Nat
  | .scalar _ => []
  | .seq ns => ns
  | .map es => es.map Prod.snd

/-- Each node comes behind its parts, the list having the last node first. -/
def Ordered (g : Graph) : List Nat → Prop
  | [] => True
  | n :: done => (∀ k ∈ (g.node n).body.parts, k ∈ done) ∧ Ordered g done

theorem mapM_eq_some {α β : Type} {f : α → Option β} {xs : List α} {ys : List β}
    (h : List.Forall₂ (fun x y => f x = some y) xs ys) : xs.mapM f = some ys := by
  induction h with
  | nil => rfl
  | cons hxy _ ih => simp [List.mapM_cons, hxy, ih]

/-- Entries under the same keys stay related when later ones replace earlier ones. -/
theorem forall₂_mapOf {α β : Type} {R : α → β → Prop} {xs : List (Value × α)} {ys : List (Value × β)}
    (h : List.Forall₂ (fun x y => x.1 = y.1 ∧ R x.2 y.2) xs ys) :
    List.Forall₂ (fun x y => x.1 = y.1 ∧ R x.2 y.2) (Value.mapOf xs) (Value.mapOf ys) := by
  have hinsert : ∀ {key : Value} {a : α} {b : β} {xs : List (Value × α)} {ys : List (Value × β)}, R a b →
      List.Forall₂ (fun x y => x.1 = y.1 ∧ R x.2 y.2) xs ys →
      List.Forall₂ (fun x y => x.1 = y.1 ∧ R x.2 y.2) (Value.insertEntry key a xs)
        (Value.insertEntry key b ys) := by
    intro key a b xs ys hab h
    induction h with
    | nil => exact .cons ⟨rfl, hab⟩ .nil
    | @cons x y xs ys hxy htail ih =>
      rw [Value.insertEntry, Value.insertEntry, hxy.1]
      split
      · exact .cons ⟨rfl, hab⟩ htail
      · exact .cons ⟨rfl, hxy.2⟩ ih
  suffices hfold : ∀ {before : List (Value × α)} {before' : List (Value × β)},
      List.Forall₂ (fun x y => x.1 = y.1 ∧ R x.2 y.2) before before' →
      List.Forall₂ (fun x y => x.1 = y.1 ∧ R x.2 y.2)
        (xs.foldl (fun es e => Value.insertEntry e.1 e.2 es) before)
        (ys.foldl (fun es e => Value.insertEntry e.1 e.2 es) before') from hfold .nil
  induction h with
  | nil => exact fun hbefore => hbefore
  | @cons x y xs ys hxy _ ih =>
    intro before before' hbefore
    rw [List.foldl_cons, List.foldl_cons, hxy.1]
    exact ih (hinsert hxy.2 hbefore)

/-- The entries of a content, with the values of their parts. -/
theorem forall₂_entry {values : Values} {R : Nat → Value → Prop} {es : List (Nat × Nat)}
    {ks : List (Value × Nat)} {kvs : List (Value × Value)}
    (hks : List.Forall₂ (fun e k => IsLeaf g lo e.1 k.1 ∧ k.2 = e.2 ∧ Made m e.2) es ks)
    (hkvs : List.Forall₂ (fun e kv => IsLeaf g lo e.1 kv.1 ∧ g.tag e.1 = .str ∧ R e.2 kv.2) es kvs)
    (hvalues : ∀ e ∈ es, ∀ w, R e.2 w → Made m e.2 → values.getD e.2 none = some w) :
    List.Forall₂ (fun k kv => k.1 = kv.1 ∧ values.getD k.2 none = some kv.2) ks kvs := by
  induction hks generalizing kvs with
  | nil =>
    cases hkvs
    exact .nil
  | @cons e k es ks hk hks ih =>
    cases hkvs with
    | @cons _ kv _ kvs hkv hkvs =>
      refine .cons ⟨hk.1.unique hkv.1, ?_⟩ (ih hkvs fun d hd => hvalues d (List.mem_cons_of_mem e hd))
      rw [hk.2.1, hvalues e List.mem_cons_self kv.2 hkv.2.2 hk.2.2]

/-- A filled content has the value that its node stands for, once the parts have theirs. -/
theorem value?_spec {values : Values} {c : Content} (hn : Denotes g lo h n v) (hfits : Fits g lo n c)
    (hfilled : Filled g lo m n c)
    (hparts : ∀ k ∈ (g.node n).body.parts, ∀ h w, Denotes g lo h k w → Made m k → values.getD k none = some w) :
    c.value? values = some v := by
  rcases hn.cases with hleaf | ⟨h', -, hcollection⟩
  · rw [hfits.eq_leaf hleaf]
    rfl
  · cases hcollection with
    | @seq ns vs lower upper node items =>
      obtain ⟨ns', rfl⟩ := hfits.exists_list (by rw [Graph.tag, node])
      rw [node] at hparts
      cases hfilled with
      | list body made =>
        rw [node] at body
        obtain rfl := Body.seq.inj body
        have hvalues : List.Forall₂ (fun k w => values.getD k none = some w) ns vs :=
          ((List.forall₂_and_left _ _).mpr ⟨fun k hk => hk, items⟩).imp fun k w hkw =>
            hparts k hkw.1 h' w hkw.2 (made k hkw.1)
        rw [Content.value?, mapM_eq_some hvalues]
        rfl
    | @map es kvs lower upper node entries =>
      obtain ⟨ks, rfl⟩ := hfits.exists_map (by rw [Graph.tag, node])
      rw [node] at hparts
      cases hfilled with
      | map body made =>
        rw [node] at body
        obtain rfl := Body.map.inj body
        have hvalues := forall₂_entry made entries fun e he w =>
          hparts e.2 (List.mem_map_of_mem he) h' w
        have hmapOf := forall₂_mapOf (R := fun k w => values.getD k none = some w) hvalues
        rw [Content.value?]
        refine congrArg (Option.map Value.map) (mapM_eq_some (hmapOf.imp fun k kv hkv => ?_))
        rw [hkv.2, hkv.1]
        rfl

/-- What one pass does at a node. -/
def assembleAt (contents : Array (Option Content)) (values : Values) (n : Nat) : Values :=
  match values.getD n none, contents.getD n none with
  | none, some c =>
    match c.value? values with
    | some v => values.setIfInBounds n (some v)
    | none => values
  | _, _ => values

theorem assembleOnce_eq (contents : Array (Option Content)) (order : List Nat) (values : Values) :
    assembleOnce contents order values = order.foldl (assembleAt contents) values := rfl

/-- A pass changes the value of its node only, and only if that has none. -/
theorem getD_assembleAt {contents : Array (Option Content)} {values : Values} {n k : Nat}
    (hk : k ≠ n ∨ (values.getD k none).isSome = true) :
    (assembleAt contents values n).getD k none = values.getD k none := by
  unfold assembleAt
  split
  · next hnone hc =>
    have hk : k ≠ n := by
      rintro rfl
      have hsome := hk.resolve_left fun hne => hne rfl
      rw [hnone] at hsome
      cases hsome
    split
    · rw [getD_setIfInBounds, if_neg fun h => hk h.1]
    · rfl
  · rfl

theorem size_assembleAt (contents : Array (Option Content)) (values : Values) (n : Nat) :
    (assembleAt contents values n).size = values.size := by
  unfold assembleAt
  split
  · split
    · exact Array.size_setIfInBounds
    · rfl
  · rfl

theorem Denotes.lt_size (hn : Denotes g lo h n v) : n < g.size := by
  rcases hn.cases with hleaf | ⟨h', -, hcollection⟩
  · exact hleaf.upper
  · cases hcollection with
    | seq lower upper => exact upper
    | map lower upper => exact upper

/-- One pass in order puts together the value of every node that has a content. -/
theorem assembleOnce_spec {done : List Nat} (hm : Complete g lo m) (hdone : Ordered g done) :
    let values := assembleOnce m.contents done.reverse (Array.replicate g.size none)
    values.size = g.size ∧ (∀ k, k ∉ done → values.getD k none = none) ∧
      ∀ n ∈ done, ∀ h v, Denotes g lo h n v → Made m n → values.getD n none = some v := by
  induction done with
  | nil =>
    refine ⟨Array.size_replicate, fun k _ => ?_, by simp⟩
    simp only [assembleOnce_eq, List.reverse_nil, List.foldl_nil, Array.getD_eq_getD_getElem?,
      Array.getElem?_replicate]
    split <;> rfl
  | cons n done ih =>
    obtain ⟨hfirst, hdone⟩ := hdone
    obtain ⟨hsize, hnone, hsome⟩ := ih hdone
    intro values'
    -- the pass up to here, and one node more
    generalize hvalues : assembleOnce m.contents done.reverse (Array.replicate g.size none) = values
      at hsize hnone hsome
    have hstep : values' = assembleAt m.contents values n := by
      rw [← hvalues]
      simp only [values', assembleOnce_eq, List.reverse_cons, List.foldl_append, List.foldl_cons,
        List.foldl_nil]
    rw [hstep]
    refine ⟨(size_assembleAt ..).trans hsize, fun k hk => ?_, fun k hk h v hdenotes hmade => ?_⟩
    · rw [List.mem_cons, not_or] at hk
      rw [getD_assembleAt (.inl hk.1), hnone k hk.2]
    · by_cases hmem : k ∈ done
      · have hvalue := hsome k hmem h v hdenotes hmade
        rw [getD_assembleAt (.inr (by rw [hvalue]; rfl)), hvalue]
      · -- the node itself, whose parts have their values
        obtain rfl := (List.mem_cons.mp hk).resolve_right hmem
        obtain ⟨c, hc⟩ := Option.isSome_iff_exists.mp hmade
        obtain ⟨hfits, hfilled⟩ := hm k c hc
        have hvalue : c.value? values = some v :=
          value?_spec hdenotes hfits hfilled fun j hj h w => hsome j (hfirst j hj) h w
        unfold assembleAt
        simp only [hnone k hmem, hc, hvalue]
        rw [getD_setIfInBounds, if_pos ⟨rfl, by rw [hsize]; exact hdenotes.lt_size⟩]

/-- Later passes leave a value as it is. -/
theorem getD_assemble {contents : Array (Option Content)} (fuel : Nat) (order : List Nat) {values : Values}
    (hn : values.getD n none = some v) : (assemble contents fuel order values).getD n none = some v := by
  have honce : ∀ (order : List Nat) {values : Values}, values.getD n none = some v →
      (assembleOnce contents order values).getD n none = some v := by
    intro order
    induction order with
    | nil => exact fun hn => hn
    | cons k order ih =>
      intro values hn
      rw [assembleOnce_eq, List.foldl_cons, ← assembleOnce_eq]
      exact ih (by rw [getD_assembleAt (.inr (by rw [hn]; rfl)), hn])
  induction fuel generalizing order values with
  | zero => exact hn
  | succ fuel ih =>
    rw [assemble]
    split
    · exact ih _ (honce order hn)
    · exact honce order hn

/-- **The value of a document is what its root stands for.** -/
theorem value_of_denotes {d : Document} {done : List Nat} (hroot : Denotes d.graph lo h d.root v)
    (hh : h ≤ d.graph.size) (horder : d.order = done.reverse) (hdone : Ordered d.graph done)
    (hmem : d.root ∈ done) : d.value = .ok v := by
  obtain ⟨m, hcontents, hmade, hcomplete⟩ := contents_spec hroot hh
  obtain ⟨-, -, hvalues⟩ := assembleOnce_spec hcomplete hdone
  have hvalue := hvalues d.root hmem h v hroot hmade
  have hassembled : (assemble m.contents (d.graph.size + 1) d.order
      (Array.replicate d.graph.size none)).getD d.root none = some v := by
    rw [assemble, horder]
    split
    · exact getD_assemble _ _ hvalue
    · exact hvalue
  simp only [Document.value, hcontents, ok_bind, hassembled]
  rfl

end CommentStyle.Yaml
