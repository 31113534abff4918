import CommentStyle.Proofs.Registry.EntryPoints
import CommentStyle.Proofs.Registry.Observers

/-!
# Loading again, in parts, and in another order

The registry that a loading extends is also what the loading looks names up in, and an entry-point that failed
is tried again by the next loading. Does it matter then how often the same entry-points are loaded, whether at
once or in parts, and in which order?

* **`loadOne_again`** — an entry-point that did not break a loading off does nothing in any registry that has
  what that loading had then. **`load_again`**, by induction on the entry-points: a second loading changes
  nothing and ends as the first did, also where that was broken off.
* **`exists_keys_load`**, **`names_load_congr`** — a loading adds names that are free and distinct, so that the
  listing afterwards is settled by which names have a rule.
* **`offered_of_perm`** — what a list with distinct names has for a name does not depend on the order.
* **`SameView`** — two registries that are listed alike and give the same for each name.
* **`load_again_in_parts_in_any_order`** — the headline. The order matters exactly where one entry-point breaks
  the loading off and another has a rule to add; **`unshown_makes_order_matter`** is the smallest such list.
-/

namespace CommentStyle.Registry

/-! ## Loading again -/

/-- An entry-point that was gone through once is gone through again without effect: its name has a rule by
now, or it has none to give. -/
theorem loadOne_again {r s : Registry} {group : String} {e : EntryPoint}
    (hfault : (r.loadOne group e).fault = none)
    (hkept : ∀ n, (r.loadOne group e).registry.find? n ≠ none → s.find? n ≠ none) :
    (s.loadOne group e).registry = s ∧ (s.loadOne group e).fault = none := by
  have hone : (r.loadOne group e).registry.find? e.name = (r.find? e.name).or (offered [e] e.name) :=
    find?_loadOne_or r group e e.name
  rcases loadOne_outcomes s group e with ⟨-, -, hreg, hquiet⟩ | ⟨rule, hfree, hload, hname, -⟩ |
    ⟨hfree, hunshown, -⟩ | ⟨-, -, -, hreg, hquiet⟩
  · exact ⟨hreg, hquiet⟩
  · -- the rule would have been registered the first time
    refine absurd hfree (hkept e.name ?_)
    rw [hone, offered_singleton, if_pos ⟨hname, rfl⟩, (EntryPoint.rule?_eq_some_iff e rule).mpr hload]
    simp
  · -- the name was free the first time too, and the loading would have been broken off
    have hbefore : r.find? e.name = none := by
      by_contra htaken
      refine hkept e.name ?_ hfree
      rw [hone]
      simp [htaken]
    exact absurd ⟨hbefore, hunshown⟩ ((fault_loadOne_eq_none_iff r group e).mp hfault)
  · exact ⟨hreg, hquiet⟩

/-- A loading that is broken off by its first entry-point leaves the registry as it is. -/
theorem registry_load_of_fault {r : Registry} {group : String} {e : EntryPoint} {b : Breach}
    (hgroup : e.group = group) (hfault : (r.loadOne group e).fault = some b) (es : List EntryPoint) :
    (r.load group (e :: es)).registry = r := by
  rw [load_of_fault hgroup hfault]
  apply registry_loadOne_of_fault
  rw [hfault]
  exact Option.some_ne_none b

theorem find?_load_ne_none {r : Registry} {n : String} (hn : r.find? n ≠ none) (group : String)
    (es : List EntryPoint) : (r.load group es).registry.find? n ≠ none := by
  obtain ⟨rule, hrule⟩ := Option.ne_none_iff_exists'.mp hn
  rw [find?_load_of_some hrule group es]
  exact Option.some_ne_none rule

/-- **The second loading** changes nothing and ends as the first did. The induction is on the entry-points, from
any registry, as the first loading goes through them. -/
theorem load_again (r : Registry) (group : String) (es : List EntryPoint) :
    ((r.load group es).registry.load group es).registry = (r.load group es).registry ∧
      ((r.load group es).registry.load group es).fault = (r.load group es).fault := by
  induction es generalizing r with
  | nil => exact ⟨rfl, rfl⟩
  | cons e es ih =>
    by_cases hgroup : e.group = group
    · cases hfault : (r.loadOne group e).fault with
      | some m =>
        -- broken off at once, the registry is what it was
        have hsame := registry_load_of_fault hgroup hfault es
        rw [hsame]
        exact ⟨hsame, rfl⟩
      | none =>
        -- the second loading meets `e` in a registry that has all the first one had behind `e`
        obtain ⟨hreg, hquiet⟩ := loadOne_again (s := ((r.loadOne group e).registry.load group es).registry)
          hfault fun n hn => find?_load_ne_none hn group es
        rw [load_of_no_fault hgroup hfault]
        simp only
        rw [load_of_no_fault hgroup hquiet, hreg]
        exact ih _
    · rw [load_of_group_ne hgroup, load_of_group_ne hgroup]
      exact ih r

/-! ## The names after a loading -/

/-- A loading adds names at the end, none of them twice and none that had a rule. -/
theorem exists_keys_load (r : Registry) (group : String) (es : List EntryPoint) :
    ∃ new, (r.load group es).registry.entries.map Prod.fst = r.entries.map Prod.fst ++ new ∧
      new.Nodup ∧ ∀ n ∈ new, r.find? n = none := by
  induction es generalizing r with
  | nil => exact ⟨[], by simp [load], List.nodup_nil, by simp⟩
  | cons e es ih =>
    by_cases hgroup : e.group = group
    · cases hfault : (r.loadOne group e).fault with
      | some m =>
        refine ⟨[], ?_, List.nodup_nil, by simp⟩
        rw [registry_load_of_fault hgroup hfault, List.append_nil]
      | none =>
        rw [registry_load_of_no_fault hgroup hfault]
        obtain ⟨new, hkeys, hnodup, hnew⟩ := ih (r.loadOne group e).registry
        rcases loadOne_cases r group e with ⟨rule, hfree, -, hreg, -⟩ | ⟨-, hreg⟩
        · -- the name of `e` is new, and the later names are new even to the registry that has it
          rw [hreg] at hkeys hnew
          rw [hreg, hkeys]
          refine ⟨e.name :: new, by simp, List.nodup_cons.mpr ⟨fun hmem => ?_, hnodup⟩, ?_⟩
          · have hfound := hnew e.name hmem
            rw [find?_concat rule hfree, Function.update_self] at hfound
            exact absurd hfound (Option.some_ne_none rule)
          · intro n hn
            rcases List.mem_cons.mp hn with rfl | hmem
            · exact hfree
            · by_contra htaken
              obtain ⟨other, hother⟩ := Option.ne_none_iff_exists'.mp htaken
              have hfound := hnew n hmem
              rw [find?_concat_of_some hother rule hfree] at hfound
              exact absurd hfound (Option.some_ne_none other)
        · rw [hreg] at hkeys hnew ⊢
          exact ⟨new, hkeys, hnodup, hnew⟩
    · rw [load_of_group_ne hgroup]
      exact ih r

/-- The listing does not show the order of registration. -/
theorem names_eq_of_perm {r s : Registry} (h : (r.entries.map Prod.fst).Perm (s.entries.map Prod.fst)) :
    r.names = s.names := by
  refine List.Perm.eq_of_pairwise (fun a b _ _ => String.le_antisymm) (pairwise_le_names r)
    (pairwise_le_names s) ?_
  exact (List.mergeSort_perm _ _).trans (h.trans (List.mergeSort_perm _ _).symm)

/-- Two loadings from one registry after which the same names have a rule are listed alike. -/
theorem names_load_congr {r : Registry} {group : String} {es es' : List EntryPoint}
    (h : ∀ n, (r.load group es').registry.find? n = (r.load group es).registry.find? n) :
    (r.load group es').registry.names = (r.load group es).registry.names := by
  obtain ⟨new, hkeys, hnodup, hnew⟩ := exists_keys_load r group es
  obtain ⟨new', hkeys', hnodup', hnew'⟩ := exists_keys_load r group es'
  -- the new names are those that have a rule now and had none
  have hmem : ∀ {xs : List EntryPoint} {added : List String},
      (r.load group xs).registry.entries.map Prod.fst = r.entries.map Prod.fst ++ added →
      (∀ n ∈ added, r.find? n = none) →
      ∀ n, n ∈ added ↔ r.find? n = none ∧ (r.load group xs).registry.find? n ≠ none := by
    intro xs added hxs hfree n
    rw [← mem_keys_iff, hxs, List.mem_append, mem_keys_iff]
    exact ⟨fun hn => ⟨hfree n hn, Or.inr hn⟩, fun hn => hn.2.resolve_left (not_not_intro hn.1)⟩
  refine names_eq_of_perm ?_
  rw [hkeys, hkeys']
  refine List.Perm.append_left _ ((List.perm_ext_iff_of_nodup hnodup' hnodup).mpr fun n => ?_)
  rw [hmem hkeys' hnew', hmem hkeys hnew, h n]

/-! ## Another order -/

/-- Where no name occurs twice, a rule is the first of its name by being there at all. -/
theorem provides_iff_of_nodup {es : List EntryPoint} (hnodup : (es.map EntryPoint.name).Nodup) (n : String)
    (rule : Rule) : Provides es n rule ↔ ∃ e ∈ es, e.name = n ∧ e.load = .ok (.rule rule) := by
  constructor
  · rintro ⟨before, e, after, rfl, hname, hload, -⟩
    exact ⟨e, by simp, hname, hload⟩
  · rintro ⟨e, he, hname, hload⟩
    obtain ⟨before, after, rfl⟩ := List.append_of_mem he
    refine ⟨before, e, after, rfl, hname, hload, fun x hx hxname => ?_⟩
    -- with one of its name in front, the name would occur twice
    rw [List.map_append, List.map_cons, List.nodup_append] at hnodup
    exact absurd (hxname.trans hname.symm)
      (hnodup.2.2 x.name (List.mem_map_of_mem hx) e.name List.mem_cons_self)

theorem offered_of_perm {es es' : List EntryPoint} (hperm : es'.Perm es)
    (hnodup : (es.map EntryPoint.name).Nodup) (n : String) : offered es' n = offered es n := by
  have hnodup' : (es'.map EntryPoint.name).Nodup := (hperm.map EntryPoint.name).nodup_iff.mpr hnodup
  refine Option.ext fun rule => ?_
  rw [offered_eq_some_iff, offered_eq_some_iff, provides_iff_of_nodup hnodup, provides_iff_of_nodup hnodup']
  simp only [hperm.mem_iff]

/-- What a loading comes to, of all the entry-points that it is given: those of the group are gone through up to
the one that breaks it off, if one does, and these alone count. -/
theorem exists_reached (r : Registry) (group : String) (es : List EntryPoint) :
    ∃ done rest, (es.filter fun e => e.group = group) = done ++ rest ∧
      (∀ e ∈ rest.head?, Breaks r done e) ∧ ((r.load group es).fault = none ↔ rest = []) ∧
      ∀ n, (r.load group es).registry.find? n = (r.find? n).or (offered done n) := by
  have hgroup : ∀ e ∈ es.filter fun e => e.group = group, e.group = group := fun e he => by
    simpa using (List.mem_filter.mp he).2
  obtain ⟨done, rest, hsplit, hdone, hbreaks, hall, hreg⟩ := exists_gone_through r _ hgroup
  rw [load_filter] at hall hreg
  refine ⟨done, rest, hsplit, hbreaks, hall, fun n => ?_⟩
  rw [hreg]
  refine find?_load_or (fun e he => hgroup e ?_) hdone n
  rw [hsplit]
  exact List.mem_append_left _ he

/-- Nothing breaks a loading off unless its name was free from the start. -/
theorem fault_load_eq_none {r : Registry} {group : String} {es : List EntryPoint}
    (hquiet : ∀ e ∈ es, e.group = group → ¬ (r.find? e.name = none ∧ e.IsUnshown)) :
    (r.load group es).fault = none := by
  obtain ⟨done, rest, hsplit, hbreaks, hall, -⟩ := exists_reached r group es
  rw [hall]
  cases rest with
  | nil => rfl
  | cons e rest =>
    obtain ⟨hfree, hunshown⟩ := hbreaks e rfl
    have he : e ∈ es.filter fun e => e.group = group := by rw [hsplit]; simp
    rw [List.mem_filter, decide_eq_true_iff] at he
    exact absurd ⟨hfree.1, hunshown⟩ (hquiet e he.1 he.2)

/-- A loading that is not broken off gives every name that was free what the list offers for it. -/
theorem find?_load_of_no_fault {r : Registry} {group : String} {es : List EntryPoint}
    (hfault : (r.load group es).fault = none) (n : String) :
    (r.load group es).registry.find? n = (r.find? n).or (offered (es.filter fun e => e.group = group) n) := by
  obtain ⟨done, rest, hsplit, -, hall, hfind⟩ := exists_reached r group es
  rw [hfind n, hsplit, hall.mp hfault, List.append_nil]

/-- Under its name, which is free and not empty, the entry-point has a rule to add. -/
def Adds (r : Registry) (e : EntryPoint) : Prop :=
  r.find? e.name = none ∧ e.name ≠ "" ∧ ∃ rule, e.load = .ok (.rule rule)

/-- Where no entry-point has a rule to add, a loading leaves the rules as it finds them, broken off or not. -/
theorem find?_load_of_not_adds {r : Registry} {group : String} {es : List EntryPoint}
    (hnone : ∀ e ∈ es, e.group = group → ¬ Adds r e) (n : String) :
    (r.load group es).registry.find? n = r.find? n := by
  obtain ⟨done, rest, hsplit, -, -, hfind⟩ := exists_reached r group es
  rw [hfind n]
  cases hn : r.find? n with
  | some rule => rfl
  | none =>
    rw [Option.none_or, offered_eq_none_iff]
    intro hne x hx hname rule hload
    have hasked : x ∈ es.filter fun e => e.group = group := by
      rw [hsplit]
      exact List.mem_append_left _ hx
    rw [List.mem_filter, decide_eq_true_iff] at hasked
    exact hnone x hasked.1 hasked.2 ⟨hname ▸ hn, hname ▸ hne, rule, hload⟩

/-- The registries are listed alike and give the same for each name. -/
def SameView (r s : Registry) : Prop := r.names = s.names ∧ ∀ n, r.get n = s.get n

theorem sameView_load {r : Registry} {group : String} {es es' : List EntryPoint}
    (h : ∀ n, (r.load group es').registry.find? n = (r.load group es).registry.find? n) :
    SameView (r.load group es').registry (r.load group es).registry := by
  refine ⟨names_load_congr h, fun n => ?_⟩
  unfold get
  rw [h n, name_load, name_load]

/-- Loading with an entry-point in front that adds a rule gives a name that loading with one in front that
breaks off does not give. -/
theorem not_sameView_of_fronts {r : Registry} {group : String} {a b : EntryPoint} (ha : a.group = group)
    (hb : b.group = group) (hadds : Adds r a) (hfree : r.find? b.name = none) (hunshown : b.IsUnshown)
    (xs ys : List EntryPoint) :
    ¬ SameView (r.load group (a :: xs)).registry (r.load group (b :: ys)).registry := by
  intro hview
  obtain ⟨hname, hne, rule, hload⟩ := hadds
  have hafter : (r.load group (a :: xs)).registry.find? a.name = some rule := by
    have hquiet : (r.loadOne group a).fault = none := by
      rw [fault_loadOne_eq_none_iff]
      exact fun h => not_isUnshown_of_rule hload h.2
    rw [registry_load_of_no_fault ha hquiet]
    apply find?_load_of_some
    rw [find?_loadOne_or, hname, Option.none_or, offered_singleton, if_pos ⟨hne, rfl⟩]
    exact (EntryPoint.rule?_eq_some_iff a rule).mpr hload
  have hbroken : (r.loadOne group b).fault ≠ none := fun h =>
    (fault_loadOne_eq_none_iff r group b).mp h ⟨hfree, hunshown⟩
  obtain ⟨m, hm⟩ := Option.ne_none_iff_exists'.mp hbroken
  have hget := (get_eq_ok_iff _ a.name rule).mpr hafter
  rw [hview.2, get_eq_ok_iff, registry_load_of_fault hb hm, hname] at hget
  exact absurd hget (by simp)

/-! ## The laws of loading -/

/-- **Loading again, in parts, and in another order.** A second loading of the same entry-points leaves the
registry as it is, and ends as the first did. What is loaded at once and what is loaded in two parts comes to
the same if the first part is not broken off; if it is, loading at once stops there as well. And where no two
names are the same, every order gives the same listing and the same rules exactly if nothing breaks the loading
off (no entry-point under a free name gives something that is no rule and cannot be shown) or there is nothing
to add in the first place. -/
theorem load_again_in_parts_in_any_order (r : Registry) (group : String) :
    (∀ es, ((r.load group es).registry.load group es).registry = (r.load group es).registry ∧
        ((r.load group es).registry.load group es).fault = (r.load group es).fault) ∧
      (∀ xs ys, ((r.load group xs).fault = none →
          (r.load group (xs ++ ys)).registry = ((r.load group xs).registry.load group ys).registry ∧
            (r.load group (xs ++ ys)).fault = ((r.load group xs).registry.load group ys).fault) ∧
        ((r.load group xs).fault ≠ none →
          (r.load group (xs ++ ys)).registry = (r.load group xs).registry)) ∧
      ∀ es, ((es.filter fun e => e.group = group).map EntryPoint.name).Nodup →
        ((∀ es', es'.Perm es → SameView (r.load group es').registry (r.load group es).registry) ↔
          (∀ e ∈ es, e.group = group → ¬ (r.find? e.name = none ∧ e.IsUnshown)) ∨
            ∀ e ∈ es, e.group = group → ¬ Adds r e) := by
  refine ⟨load_again r group, fun xs ys => ⟨fun hfault => ?_, fun hfault => ?_⟩, fun es hnodup => ⟨?_, ?_⟩⟩
  · rw [load_append hfault]
    exact ⟨rfl, rfl⟩
  · rw [load_append_of_fault hfault]
  · intro hall
    by_contra hmixed
    push Not at hmixed
    obtain ⟨⟨b, hb, hbgroup, hfree, hunshown⟩, a, ha, hagroup, hadds⟩ := hmixed
    -- an order with the one in front, and an order with the other in front
    obtain ⟨before, after, hes⟩ := List.append_of_mem ha
    obtain ⟨before', after', hes'⟩ := List.append_of_mem hb
    have hafirst := hall (a :: (before ++ after)) (by rw [hes]; exact List.perm_middle.symm)
    have hbfirst := hall (b :: (before' ++ after')) (by rw [hes']; exact List.perm_middle.symm)
    exact not_sameView_of_fronts hagroup hbgroup hadds hfree hunshown _ _
      ⟨hafirst.1.trans hbfirst.1.symm, fun n => (hafirst.2 n).trans (hbfirst.2 n).symm⟩
  · rintro (hquiet | hnone) es' hperm
    · refine sameView_load fun n => ?_
      have hoffered := offered_of_perm (hperm.filter fun e => e.group = group) hnodup n
      rw [find?_load_of_no_fault (fault_load_eq_none hquiet),
        find?_load_of_no_fault (fault_load_eq_none fun e he => hquiet e (hperm.mem_iff.mp he)), hoffered]
    · refine sameView_load fun n => ?_
      rw [find?_load_of_not_adds hnone, find?_load_of_not_adds fun e he => hnone e (hperm.mem_iff.mp he)]

/-- A rule, a failure to load, something that is no rule, a rule without a name, and a rule set up for a run that
cannot be shown, but under a name that has a rule already: in whichever order, loading gives the same. -/
theorem load_again_in_parts_in_any_order_of_failures :
    let plain := Rule.scripted "Plain" {}
    let es : List EntryPoint := [{ name := "a", load := .ok (.rule plain) },
      { name := "b", load := .error (.lookup "x") }, { name := "c", load := .ok (.thing (.ok "3") "") },
      { name := "", load := .ok (.rule plain) },
      { name := Rule.capitalizedOption, load := .ok (.made plain) }]
    (es.map EntryPoint.name).Nodup ∧
      ∀ es', es'.Perm es → SameView (builtin.load ruleGroup es').registry (builtin.load ruleGroup es).registry := by
  intro plain es
  have hnodup : (es.map EntryPoint.name).Nodup := by
    simp [es, Rule.capitalizedOption]
  have hasked : (es.filter fun e => e.group = ruleGroup) = es := by
    rw [List.filter_eq_self]
    simp [es]
  refine ⟨hnodup, ((load_again_in_parts_in_any_order builtin ruleGroup).2.2 es ?_).mpr (Or.inl ?_)⟩
  · rwa [hasked]
  · simp only [es, List.forall_mem_cons]
    refine ⟨?_, ?_, ?_, ?_, ?_, by simp⟩
    · simp [EntryPoint.IsUnshown, Candidate.IsRule]
    · simp [EntryPoint.IsUnshown]
    · simp [EntryPoint.IsUnshown, Candidate.CanBeShown, Candidate.shown, Except.mapError]
    · simp [EntryPoint.IsUnshown, Candidate.IsRule]
    · intro _ h
      exact absurd h.1 (Option.some_ne_none _)

/-- Of two entry-points one gives a rule and the other something that is to be skipped but breaks the loading
off. The order decides whether the rule is registered; and loading them in two parts registers it where loading
them at once does not. -/
theorem unshown_makes_order_matter :
    let plain := Rule.scripted "Plain" {}
    let r : Registry := { name := "r" }
    let a : EntryPoint := { name := "a", load := .ok (.rule plain) }
    let b : EntryPoint := { name := "b", load := .ok (.made plain) }
    ([a, b].map EntryPoint.name).Nodup ∧ [b, a].Perm [a, b] ∧
      (r.load ruleGroup [a, b]).registry.names = ["a"] ∧
      (r.load ruleGroup [b, a]).registry.names = [] ∧
      ((r.load ruleGroup [b]).registry.load ruleGroup [a]).registry.names = ["a"] := by
  intro plain r a b
  refine ⟨by simp [a, b], List.Perm.swap a b [], ?_, ?_, ?_⟩
  · show ["a"].mergeSort _ = ["a"]
    simp
  · show [].mergeSort _ = []
    simp
  · show ["a"].mergeSort _ = ["a"]
    simp

end CommentStyle.Registry
