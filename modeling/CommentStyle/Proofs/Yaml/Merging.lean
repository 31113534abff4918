import CommentStyle.Proofs.Yaml.Scanning
import CommentStyle.Yaml.Merge

/-!
# How deep merging goes

A `<<` key is taken out of its mapping before the mappings under it are merged themselves. So merging goes no
deeper than there are such keys in the document, though mappings may well merge each other in a circle.

* **`Graph.mergeCount`** — the number of `<<` keys.
* **`Graph.Merged`** — what merging does to a graph: only mappings get another body, no `<<` key is added, and none
  comes to stand where there was none before.
* **`flattens`** — the three functions that merge, by induction on the fuel they share; **`yields_flatten`** —
  merging into one mapping.
-/

namespace CommentStyle.Yaml.Graph

variable {g g' g'' : Graph} {n : Nat}

/-! ## Mappings -/

theorem lt_size_of_isMap (h : (g.node n).isMap = true) : n < g.size := by
  by_contra hle
  rw [node, Array.getD_eq_getD_getElem?, Array.getElem?_eq_none (Nat.not_lt.mp hle)] at h
  cases h

theorem entries_eq_of_body {k : Nat} (h : (g'.node k).body = (g.node k).body) : g'.entries k = g.entries k := by
  rw [entries, entries, h]

theorem entries_setBody_self (hn : n < g.size) (es : List (Nat × Nat)) :
    (g.setBody n (.map es)).entries n = es := by
  rw [entries, node_setBody_self _ hn]

theorem entries_setBody_of_ne {k : Nat} (body : Body) (hk : k ≠ n) : (g.setBody n body).entries k = g.entries k :=
  entries_eq_of_body (by rw [node_setBody_of_ne body hk])

/-! ## Merge keys -/

/-- The entry asks for a merge. -/
def isMerge (g : Graph) (e : Nat × Nat) : Bool := g.tag e.1 = .merge

/-- The merge keys of the nodes below a number. -/
def mergesBelow (g : Graph) : Nat → Nat
  | 0 => 0
  | n + 1 => g.mergesBelow n + (g.entries n).countP g.isMerge

def mergeCount (g : Graph) : Nat := g.mergesBelow g.size

theorem isMerge_congr {e : Nat × Nat}
    (htag : g'.tag e.1 = g.tag e.1 ∨ g.tag e.1 = .value ∧ g'.tag e.1 = .str) : g'.isMerge e = g.isMerge e := by
  rcases htag with hsame | ⟨hvalue, hstr⟩
  · rw [isMerge, isMerge, hsame]
  · rw [isMerge, isMerge, hvalue, hstr]
    rfl

/-- The first entries of a mapping are none that ask for a merge. -/
def PlainTo (g : Graph) (n index : Nat) : Prop := ∀ e ∈ (g.entries n).take index, g.isMerge e = false

theorem plainTo_zero (g : Graph) (n : Nat) : g.PlainTo n 0 := List.forall_mem_nil _

/-- What merging does to a graph. The key `=` may have become a text. -/
structure Merged (g g' : Graph) : Prop where
  tag : ∀ n, g'.tag n = g.tag n ∨ g.tag n = .value ∧ g'.tag n = .str
  body : ∀ n, (g'.node n).body = (g.node n).body ∨ (g.node n).isMap = true ∧ (g'.node n).isMap = true
  size : g'.size = g.size
  count : g'.mergeCount ≤ g.mergeCount
  plain : ∀ n index, g.PlainTo n index → g'.PlainTo n index

namespace Merged

theorem refl (g : Graph) : Merged g g :=
  ⟨fun _ => .inl rfl, fun _ => .inl rfl, rfl, le_rfl, fun _ _ => id⟩

theorem trans (h : Merged g g') (h' : Merged g' g'') : Merged g g'' where
  tag n := by
    rcases h'.tag n with hsame | ⟨hvalue, hstr⟩
    · exact hsame ▸ h.tag n
    · rcases h.tag n with hsame | ⟨-, hstr'⟩
      · exact .inr ⟨hsame ▸ hvalue, hstr⟩
      · rw [hstr'] at hvalue
        cases hvalue
  body n := by
    rcases h'.body n with hsame | ⟨hmap, hmap'⟩
    · rcases h.body n with hfirst | ⟨hmap, hmap'⟩
      · exact .inl (hsame.trans hfirst)
      · refine .inr ⟨hmap, ?_⟩
        rw [Node.isMap, hsame]
        exact hmap'
    · rcases h.body n with hsame | ⟨hfirst, -⟩
      · refine .inr ⟨?_, hmap'⟩
        rw [Node.isMap, ← hsame]
        exact hmap
      · exact .inr ⟨hfirst, hmap'⟩
  size := h'.size.trans h.size
  count := h'.count.trans h.count
  plain n index hplain := h'.plain n index (h.plain n index hplain)

theorem isMerge_eq (h : Merged g g') (e : Nat × Nat) : g'.isMerge e = g.isMerge e := isMerge_congr (h.tag e.1)

theorem plain_list (h : Merged g g') {es : List (Nat × Nat)} (hes : ∀ e ∈ es, g.isMerge e = false) :
    ∀ e ∈ es, g'.isMerge e = false := fun e he => (h.isMerge_eq e).trans (hes e he)

theorem isMap (h : Merged g g') (hn : (g.node n).isMap = true) : (g'.node n).isMap = true := by
  rcases h.body n with hsame | ⟨-, hmap⟩
  · rw [Node.isMap, hsame]
    exact hn
  · exact hmap

end Merged

theorem mergesBelow_congr {k : Nat} (hentries : ∀ n, g'.entries n = g.entries n)
    (hmerge : ∀ e, g'.isMerge e = g.isMerge e) : g'.mergesBelow k = g.mergesBelow k := by
  induction k with
  | zero => rfl
  | succ k ih => rw [mergesBelow, mergesBelow, ih, hentries, funext hmerge]

/-- Where only tags change, and no merge key among them, nothing else does. -/
theorem Merged.setTag (hn : g.tag n = .value) : Merged g (g.setTag n .str) := by
  have htag : ∀ k, (g.setTag n .str).tag k = g.tag k ∨ g.tag k = .value ∧ (g.setTag n .str).tag k = .str := by
    intro k
    rcases tag_setTag (g := g) (n := n) (k := k) .str with hsame | ⟨rfl, hstr⟩
    · exact .inl hsame
    · exact .inr ⟨hn, hstr⟩
  have hentries : ∀ k, (g.setTag n .str).entries k = g.entries k := fun k =>
    entries_eq_of_body (body_setTag .str)
  have hmerge : ∀ e, (g.setTag n .str).isMerge e = g.isMerge e := fun e => isMerge_congr (htag e.1)
  refine ⟨htag, fun _ => .inl (body_setTag .str), size_setTag .str, ?_, ?_⟩
  · rw [mergeCount, mergeCount, size_setTag, mergesBelow_congr hentries hmerge]
  · intro k index hplain e he
    rw [hmerge]
    exact hplain e (hentries k ▸ he)

theorem merged_settle (g : Graph) (es : List (Nat × Nat)) : Merged g (g.settle es) := by
  refine List.foldlRecOn es _ (motive := Merged g) (.refl g) fun g' h e _ => ?_
  split
  · next hvalue => exact h.trans (.setTag hvalue)
  · exact h

theorem entries_settle (g : Graph) (es : List (Nat × Nat)) (n : Nat) : (g.settle es).entries n = g.entries n := by
  refine List.foldlRecOn es _ (motive := fun g' : Graph => g'.entries n = g.entries n) rfl fun g' h e _ => ?_
  split
  · exact (entries_eq_of_body (body_setTag .str)).trans h
  · exact h

theorem isMerge_setBody (g : Graph) (n : Nat) (body : Body) : (g.setBody n body).isMerge = g.isMerge := by
  funext e
  rw [isMerge, isMerge, tag_setBody]

/-- A mapping with other entries: the merge keys are counted anew in it. -/
theorem mergeCount_setBody (hn : (g.node n).isMap = true) (es : List (Nat × Nat)) :
    (g.setBody n (.map es)).mergeCount + (g.entries n).countP g.isMerge
      = g.mergeCount + es.countP g.isMerge := by
  have hlt := lt_size_of_isMap hn
  -- of the sum over all nodes only the part of this one changes
  have hbelow : ∀ k, (g.setBody n (.map es)).mergesBelow k + (if n < k then (g.entries n).countP g.isMerge else 0)
      = g.mergesBelow k + if n < k then es.countP g.isMerge else 0 := by
    intro k
    induction k with
    | zero => rfl
    | succ k ih =>
      rw [mergesBelow, mergesBelow, isMerge_setBody]
      by_cases hk : n = k
      · subst hk
        rw [entries_setBody_self hlt, if_pos n.lt_succ_self, if_pos n.lt_succ_self]
        rw [if_neg (lt_irrefl n), if_neg (lt_irrefl n)] at ih
        omega
      · have hiff : n < k + 1 ↔ n < k := by omega
        rw [entries_setBody_of_ne _ (Ne.symm hk)]
        simp only [hiff]
        omega
  have hall := hbelow g.size
  rw [if_pos hlt, if_pos hlt] at hall
  rw [mergeCount, size_setBody]
  exact hall

/-- A mapping gets other entries, of which as many as before are plain, and no merge key more. -/
theorem Merged.setBody (hn : (g.node n).isMap = true) {es : List (Nat × Nat)}
    (hcount : es.countP g.isMerge ≤ (g.entries n).countP g.isMerge)
    (hplain : ∀ index, g.PlainTo n index → ∀ e ∈ es.take index, g.isMerge e = false) :
    Merged g (g.setBody n (.map es)) := by
  have hlt := lt_size_of_isMap hn
  refine ⟨fun _ => .inl (tag_setBody _), fun k => ?_, size_setBody _, ?_, fun k index hk e he => ?_⟩
  · by_cases hk : n = k
    · subst hk
      exact .inr ⟨hn, by rw [node_setBody_self _ hlt]; rfl⟩
    · exact .inl (by rw [node_setBody_of_ne _ (Ne.symm hk)])
  · have := mergeCount_setBody hn es
    omega
  · rw [isMerge_setBody]
    by_cases hnk : n = k
    · subst hnk
      rw [entries_setBody_self hlt] at he
      exact hplain index hk e he
    · rw [entries_setBody_of_ne _ (Ne.symm hnk)] at he
      exact hk e he

/-! ## Merging -/

/-- The own entries from an index on up to the next merge key, if there is one. -/
theorem exists_own (g : Graph) (es : List (Nat × Nat)) {index : Nat}
    (hplain : ∀ e ∈ es.take index, g.isMerge e = false) :
    ∃ own, ((es.drop index).takeWhile fun e => g.tag e.1 ≠ .merge) = own ∧
      (∀ e ∈ es.take (index + own.length), g.isMerge e = false) ∧
      ∀ e, es[index + own.length]? = some e → g.isMerge e = true := by
  refine ⟨_, rfl, fun e he => ?_, fun e he => ?_⟩
  · rw [List.take_add, ← List.prefix_iff_eq_take.mp (List.takeWhile_prefix _)] at he
    rcases List.mem_append.mp he with he | he
    · exact hplain e he
    · simpa [isMerge] using List.mem_takeWhile_imp he
  · rw [← List.getElem?_drop] at he
    have hrest : ((es.drop index).dropWhile fun e => g.tag e.1 ≠ .merge).head? = some e := by
      have hsplit := List.takeWhile_append_dropWhile (p := fun e => decide (g.tag e.1 ≠ .merge)) (l := es.drop index)
      have happend := congrArg (·[((es.drop index).takeWhile fun e => g.tag e.1 ≠ .merge).length]?) hsplit
      simp only [List.getElem?_append_right le_rfl, Nat.sub_self] at happend
      rw [List.head?_eq_getElem?]
      exact happend.trans he
    have hhead := List.head?_dropWhile_not (fun e => decide (g.tag e.1 ≠ .merge)) (es.drop index)
    rw [hrest] at hhead
    simpa [isMerge] using hhead

/-- A merge key is taken out. -/
theorem merged_erase {e : Nat × Nat} {index : Nat} (hn : (g.node n).isMap = true)
    (he : (g.entries n)[index]? = some e) (hmerge : g.isMerge e = true) :
    Merged g (g.setBody n (.map ((g.entries n).eraseIdx index))) ∧
      (g.setBody n (.map ((g.entries n).eraseIdx index))).mergeCount + 1 = g.mergeCount := by
  have hcount : ((g.entries n).eraseIdx index).countP g.isMerge + 1 = (g.entries n).countP g.isMerge := by
    obtain ⟨hlt, rfl⟩ := List.getElem?_eq_some_iff.mp he
    have hsplit := congrArg (List.countP g.isMerge) (List.take_append_drop index (g.entries n))
    rw [List.drop_eq_getElem_cons hlt, List.countP_append, List.countP_cons, if_pos hmerge] at hsplit
    rw [List.eraseIdx_eq_take_drop_succ, List.countP_append]
    omega
  refine ⟨.setBody hn (by omega) fun k hk => ?_, ?_⟩
  · -- what is plain ends before the merge key
    have hle : k ≤ index := by
      by_contra hlt
      have hmem : e ∈ (g.entries n).take k := by
        refine List.mem_of_getElem? (i := index) ?_
        rw [List.getElem?_take_of_lt (by omega), he]
      rw [hk e hmem] at hmerge
      cases hmerge
    have hlt := (List.getElem?_eq_some_iff.mp he).1
    rw [List.eraseIdx_eq_take_drop_succ, List.take_append_of_le_length (by rw [List.length_take]; omega),
      List.take_take, min_eq_left hle]
    exact hk
  · have := mergeCount_setBody hn ((g.entries n).eraseIdx index)
    omega

/-- What was merged comes to stand before the own entries. -/
theorem merged_prepend {merged : List (Nat × Nat)} (hn : (g.node n).isMap = true)
    (hmerged : ∀ e ∈ merged, g.isMerge e = false) (hown : ∀ e ∈ g.entries n, g.isMerge e = false) :
    Merged g (g.setBody n (.map (merged ++ g.entries n))) ∧
      ∀ e ∈ (g.setBody n (.map (merged ++ g.entries n))).entries n,
        (g.setBody n (.map (merged ++ g.entries n))).isMerge e = false := by
  have hall : ∀ e ∈ merged ++ g.entries n, g.isMerge e = false := List.forall_mem_append.mpr ⟨hmerged, hown⟩
  refine ⟨.setBody hn ?_ fun _ _ e he => hall e (List.mem_of_mem_take he), ?_⟩
  · rw [List.countP_eq_zero.mpr fun e he => by simp [hall e he]]
    exact Nat.zero_le _
  · rw [entries_setBody_self (lt_size_of_isMap hn), isMerge_setBody]
    exact hall

/-- What the functions that merge do to a graph, and when they find no room. -/
structure Flattens (fuel : Nat) : Prop where
  mapping : ∀ {n index merged g} room, (g.node n).isMap = true → g.PlainTo n index →
    (∀ e ∈ merged, g.isMerge e = false) →
    Yields (flattenFrom n room fuel index merged g)
      (fun g' => Merged g g' ∧ ∀ e ∈ g'.entries n, g'.isMerge e = false)
      fun f => f = .tooDeep ∧ room ≤ g.mergeCount
  node : ∀ n room g, Yields (mergedFrom n room fuel g)
    (fun r => Merged g r.2 ∧ ∀ e ∈ r.1, r.2.isMerge e = false) fun f => f = .tooDeep ∧ room ≤ g.mergeCount + 1
  items : ∀ items room g, Yields (mergedItems items room fuel g)
    (fun r => Merged g r.2 ∧ ∀ e ∈ r.1, r.2.isMerge e = false) fun f => f = .tooDeep ∧ room ≤ g.mergeCount + 1

namespace Flattens

variable {fuel : Nat}

/-- One mapping inside another, if there is room for it. -/
theorem inner (h : Flattens fuel) {n room : Nat} (hn : (g.node n).isMap = true) :
    Yields (deeper room >>= fun inner => flattenFrom n inner fuel 0 [] g)
      (fun g' => Merged g g' ∧ ∀ e ∈ g'.entries n, g'.isMerge e = false)
      fun f => f = .tooDeep ∧ room ≤ g.mergeCount + 1 := by
  cases room with
  | zero => exact .unmade ⟨rfl, Nat.zero_le _⟩
  | succ room =>
    have hinner := h.mapping room hn (g.plainTo_zero n) (List.forall_mem_nil _)
    exact hinner.imp (fun _ => id) fun f hf => ⟨hf.1, Nat.succ_le_succ hf.2⟩

theorem node_succ (h : Flattens fuel) (n room : Nat) (g : Graph) :
    Yields (mergedFrom n room (fuel + 1) g) (fun r => Merged g r.2 ∧ ∀ e ∈ r.1, r.2.isMerge e = false)
      fun f => f = .tooDeep ∧ room ≤ g.mergeCount + 1 := by
  rw [mergedFrom]
  split
  · next es hbody =>
    have hn : (g.node n).isMap = true := by rw [Node.isMap, hbody]
    rw [← bind_assoc]
    exact (h.inner hn).bind fun g' hg' => .ok hg'
  · exact h.items _ room g
  · exact .malformed

theorem items_succ (h : Flattens fuel) (items : List Nat) (room : Nat) (g : Graph) :
    Yields (mergedItems items room (fuel + 1) g) (fun r => Merged g r.2 ∧ ∀ e ∈ r.1, r.2.isMerge e = false)
      fun f => f = .tooDeep ∧ room ≤ g.mergeCount + 1 := by
  rw [mergedItems.eq_def]
  simp only
  split
  · exact .ok ⟨.refl g, List.forall_mem_nil _⟩
  next n rest =>
  split
  · next hn =>
    rw [← bind_assoc]
    refine (h.inner hn).bind fun g' hg' => ?_
    have hcause : ∀ f, f = .tooDeep ∧ room ≤ g'.mergeCount + 1 → f = Unmade.tooDeep ∧ room ≤ g.mergeCount + 1 :=
      fun f hf => ⟨hf.1, hf.2.trans (Nat.succ_le_succ hg'.1.count)⟩
    refine ((h.items rest room g').imp (fun _ => id) hcause).bind fun r hr => ?_
    obtain ⟨more, g''⟩ := r
    exact .ok ⟨hg'.1.trans hr.1, List.forall_mem_append.mpr ⟨hr.2, hr.1.plain_list hg'.2⟩⟩
  · exact .malformed

theorem mapping_succ (h : Flattens fuel) {n index : Nat} {merged : List (Nat × Nat)} (room : Nat)
    (hn : (g.node n).isMap = true) (hplain : g.PlainTo n index) (hmerged : ∀ e ∈ merged, g.isMerge e = false) :
    Yields (flattenFrom n room (fuel + 1) index merged g)
      (fun g' => Merged g g' ∧ ∀ e ∈ g'.entries n, g'.isMerge e = false)
      fun f => f = .tooDeep ∧ room ≤ g.mergeCount := by
  obtain ⟨own, hown, htaken, hnext⟩ := exists_own g (g.entries n) hplain
  have hsettled := merged_settle g own
  have hentries := g.entries_settle own n
  have hmap := hsettled.isMap hn
  rw [flattenFrom]
  simp only [hown]
  split
  · next hend =>
    -- no merge key is left, neither in front of this place nor behind it
    have hall : ∀ e ∈ (g.settle own).entries n, (g.settle own).isMerge e = false := by
      rw [List.getElem?_eq_none_iff] at hend
      rw [List.take_of_length_le hend] at htaken
      exact hentries.symm ▸ hsettled.plain_list htaken
    split
    · exact .ok ⟨hsettled, hall⟩
    · have hclosed := merged_prepend hmap (hsettled.plain_list hmerged) hall
      rw [hentries] at hclosed
      exact .ok ⟨hsettled.trans hclosed.1, hclosed.2⟩
  · next key value hkey =>
    -- the key is gone before its value is merged, which pays for the room that takes
    obtain ⟨herased, hcount⟩ := merged_erase hmap (hentries.symm ▸ hkey)
      ((hsettled.isMerge_eq _).trans (hnext _ hkey))
    rw [hentries] at herased hcount
    have hchanged := hsettled.trans herased
    have hless := hsettled.count
    refine ((h.node value room _).imp (fun _ => id) fun f hf => ⟨hf.1, by omega⟩).bind fun r hr => ?_
    obtain ⟨more, g'⟩ := r
    have hsofar := hchanged.trans hr.1
    have hbrought : ∀ e ∈ merged ++ more, g'.isMerge e = false :=
      List.forall_mem_append.mpr ⟨hsofar.plain_list hmerged, hr.2⟩
    refine (h.mapping room (hsofar.isMap hn) (hsofar.plain _ _ htaken) hbrought).imp ?_ ?_
    · exact fun g'' hg'' => ⟨hsofar.trans hg''.1, hg''.2⟩
    · exact fun f hf => ⟨hf.1, hf.2.trans hsofar.count⟩

end Flattens

theorem flattens (fuel : Nat) : Flattens fuel := by
  induction fuel with
  | zero => exact ⟨fun _ _ _ _ => .malformed, fun _ _ _ => .malformed, fun _ _ _ => .malformed⟩
  | succ fuel ih => exact ⟨ih.mapping_succ, ih.node_succ, ih.items_succ⟩

/-- **Merging goes no deeper than there are merge keys.** -/
theorem yields_flatten (hn : (g.node n).isMap = true) :
    Yields (g.flatten n) (Merged g) fun f => f = .tooDeep ∧ chainLimit ≤ g.mergeCount :=
  ((flattens _).mapping chainLimit hn (g.plainTo_zero n) (List.forall_mem_nil _)).imp (fun _ h => h.1)
    fun _ => id

end CommentStyle.Yaml.Graph
