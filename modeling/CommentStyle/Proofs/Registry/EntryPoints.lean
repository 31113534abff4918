import CommentStyle.Proofs.Registry.History
import Mathlib.Data.List.Basic

/-!
# Which entry-points a loading takes

Loading goes through the entry-points of a group and looks each name up in the very registry that it is
extending: what becomes of an entry-point depends on all that came before it. Said from outside, a name gets
the first rule that the list has for it, however many entry-points of that name failed before.

* **`Provides`**, **`FreeAfter`** — the first rule that a list has for a name, and a name for which there is
  none yet, by the list alone.
* **`find?_loadOne_or`**, **`fault_loadOne_eq_none_iff`** — the one step: what an entry-point adds, and when
  it breaks the loading off.
* **`find?_load_or`** — the loop, by induction on the entry-points: what was registered stays, and every other
  name gets what the list offers.
* **`load_append`**, **`exists_gone_through`** — a loading that is broken off has done what the entry-points
  before the breaking one make it do.
* **`IsLoaded`** — an entry-point is loaded if the outcome depends on what loading it gives.
* **`load_takes_first_rules`** — the headline; **`unshown_hides_later_rule`** is a list for which an
  entry-point that is to be skipped ends the loading.
-/

namespace CommentStyle

namespace EntryPoint

/-- The rule that loading gives, if it gives one. -/
def rule? (e : EntryPoint) : Option Rule :=
  match e.load with
  | .ok (.rule rule) => some rule
  | _ => none

/-- Loading gives something that is no rule and cannot be put into the words of a message. -/
def IsUnshown (e : EntryPoint) : Prop := ∃ c, e.load = .ok c ∧ ¬ c.IsRule ∧ ¬ c.CanBeShown

theorem rule?_eq_some_iff (e : EntryPoint) (rule : Rule) :
    e.rule? = some rule ↔ e.load = .ok (.rule rule) := by
  unfold rule?
  split
  · next given hload => simp [hload]
  · next hother =>
    refine ⟨fun h => absurd h (by simp), fun h => ?_⟩
    exact absurd h (hother rule)

theorem rule?_eq_none_iff (e : EntryPoint) :
    e.rule? = none ↔ ∀ rule, e.load ≠ .ok (.rule rule) := by
  rw [Option.eq_none_iff_forall_ne_some]
  exact forall_congr' fun rule => not_congr (rule?_eq_some_iff e rule)

end EntryPoint

namespace Registry

/-! ## What a list of entry-points has for a name -/

/-- The rule is that of the first entry-point of the name which loads to a rule. -/
def Provides (es : List EntryPoint) (n : String) (rule : Rule) : Prop :=
  ∃ before e after, es = before ++ e :: after ∧ e.name = n ∧ e.load = .ok (.rule rule) ∧
    ∀ x ∈ before, x.name = n → ∀ other, x.load ≠ .ok (.rule other)

/-- The name was free, and none of these entry-points has a rule for it. The empty name stays free. -/
def FreeAfter (r : Registry) (es : List EntryPoint) (n : String) : Prop :=
  r.find? n = none ∧ (n ≠ "" → ∀ x ∈ es, x.name = n → ∀ rule, x.load ≠ .ok (.rule rule))

/-- The rule that some entry-points have for a name; no rule goes under the empty name. -/
def offered (es : List EntryPoint) (n : String) : Option Rule :=
  if n = "" then none else es.findSome? fun e => if e.name = n then e.rule? else none

theorem offered_append (xs ys : List EntryPoint) (n : String) :
    offered (xs ++ ys) n = (offered xs n).or (offered ys n) := by
  unfold offered
  by_cases hn : n = ""
  · simp only [if_pos hn, Option.none_or]
  · simp only [if_neg hn, List.findSome?_append]

theorem offered_eq_some_iff (es : List EntryPoint) (n : String) (rule : Rule) :
    offered es n = some rule ↔ n ≠ "" ∧ Provides es n rule := by
  unfold offered Provides
  by_cases hn : n = ""
  · simp [hn]
  · rw [if_neg hn, List.findSome?_eq_some_iff, and_iff_right hn]
    refine exists_congr fun before => exists_congr fun e => exists_congr fun after =>
      and_congr_right fun _ => ?_
    rw [← and_assoc]
    refine and_congr ?_ (forall₂_congr fun x _ => ?_)
    · split
      · next hname => simp [hname, EntryPoint.rule?_eq_some_iff]
      · next hname => simp [hname]
    · split
      · next hname => simp [hname, EntryPoint.rule?_eq_none_iff]
      · next hname => simp [hname]

theorem offered_eq_none_iff (es : List EntryPoint) (n : String) :
    offered es n = none ↔ (n ≠ "" → ∀ x ∈ es, x.name = n → ∀ rule, x.load ≠ .ok (.rule rule)) := by
  unfold offered
  by_cases hn : n = ""
  · simp [hn]
  · rw [if_neg hn, List.findSome?_eq_none_iff]
    simp only [ne_eq, hn, not_false_eq_true, true_implies]
    refine forall₂_congr fun x _ => ?_
    split
    · next hname => simp [hname, EntryPoint.rule?_eq_none_iff]
    · next hname => simp [hname]

/-! ## One entry-point -/

/-- **What one entry-point does.** Under a name that has a rule it is passed over. Otherwise it is loaded: a
rule goes under its name unless that is empty, what cannot be shown breaks the loading off, and all else
changes nothing. -/
theorem loadOne_outcomes (r : Registry) (group : String) (e : EntryPoint) :
    (∃ rule, r.find? e.name = some rule ∧ (r.loadOne group e).registry = r
        ∧ (r.loadOne group e).fault = none) ∨
      (∃ rule, r.find? e.name = none ∧ e.load = .ok (.rule rule) ∧ e.name ≠ ""
        ∧ (r.loadOne group e).registry = { r with entries := r.entries ++ [(e.name, rule)] }
        ∧ (r.loadOne group e).fault = none) ∨
      (r.find? e.name = none ∧ e.IsUnshown ∧ (r.loadOne group e).registry = r
        ∧ (r.loadOne group e).fault ≠ none) ∨
      (r.find? e.name = none ∧ ¬ e.IsUnshown ∧ (e.name ≠ "" → e.rule? = none)
        ∧ (r.loadOne group e).registry = r ∧ (r.loadOne group e).fault = none) := by
  cases hfind : r.find? e.name with
  | some rule =>
    have hcontains : r.contains e.name = true := by rw [contains, hfind]; rfl
    refine Or.inl ⟨rule, rfl, ?_, ?_⟩ <;> simp only [loadOne, hcontains, if_true]
  | none =>
    have hcontains := (contains_eq_false_iff r e.name).mpr hfind
    unfold loadOne EntryPoint.IsUnshown EntryPoint.rule?
    simp only [hcontains, Bool.false_eq_true, if_false]
    cases hload : e.load with
    | error f => exact Or.inr (Or.inr (Or.inr (by simp)))
    | ok c =>
      -- the registration is judged as any other is, only that the name is known to be free
      rcases registerAs_cases r e.name c with ⟨rule, rfl, hname, -, hreg⟩ | ⟨rule, -, -, htaken, -⟩ |
        ⟨rule, rfl, hname, hreg⟩ | ⟨f, hrule, hcan, hf, hreg⟩ | ⟨b, hrule, hcan, hreg⟩
      · exact Or.inr (Or.inl ⟨rule, by simp [hreg, hname]⟩)
      · exact absurd hfind htaken
      · have hrule : (Candidate.rule rule).IsRule := ⟨rule, rfl⟩
        exact Or.inr (Or.inr (Or.inr (by simp only [hreg]; simp [hname, hrule])))
      · refine Or.inr (Or.inr (Or.inr ?_))
        cases f with
        | unshown b => exact hf.elim
        | _ =>
          cases c with
          | rule rule => exact absurd ⟨rule, rfl⟩ hrule
          | made rule => simp [hreg, hcan]
          | thing text option => simp [hreg, hcan]
      · exact Or.inr (Or.inr (Or.inl (by simp [hreg, hrule, hcan])))

theorem rule?_eq_none_of_isUnshown {e : EntryPoint} (h : e.IsUnshown) : e.rule? = none := by
  obtain ⟨c, hload, hrule, -⟩ := h
  rw [EntryPoint.rule?_eq_none_iff]
  intro rule hgiven
  rw [hload] at hgiven
  exact hrule ⟨rule, Except.ok.inj hgiven⟩

theorem not_isUnshown_of_rule {e : EntryPoint} {rule : Rule} (h : e.load = .ok (.rule rule)) :
    ¬ e.IsUnshown := by
  intro hunshown
  have hnone := rule?_eq_none_of_isUnshown hunshown
  rw [(EntryPoint.rule?_eq_some_iff e rule).mpr h] at hnone
  exact absurd hnone (Option.some_ne_none rule)

theorem offered_singleton (e : EntryPoint) (n : String) :
    offered [e] n = if n ≠ "" ∧ e.name = n then e.rule? else none := by
  unfold offered
  by_cases hn : n = ""
  · simp [hn]
  · by_cases hname : e.name = n
    · simp [hn, hname]
    · simp [hn, hname]

/-- An entry-point adds what it offers, unless there is a rule already. -/
theorem find?_loadOne_or (r : Registry) (group : String) (e : EntryPoint) (n : String) :
    (r.loadOne group e).registry.find? n = (r.find? n).or (offered [e] n) := by
  rw [offered_singleton]
  rcases loadOne_outcomes r group e with ⟨rule, hfind, hreg, -⟩ | ⟨rule, hfree, hload, hname, hreg, -⟩ |
    ⟨-, hunshown, hreg, -⟩ | ⟨-, -, hnone, hreg, -⟩
  · rw [hreg]
    by_cases hn : e.name = n
    · rw [← hn, hfind, Option.some_or]
    · rw [if_neg (fun h => hn h.2), Option.or_none]
  · -- the rule is new under its own name, and no other name sees it
    rw [hreg, find?_concat rule hfree]
    by_cases hn : e.name = n
    · subst hn
      rw [Function.update_self, hfree, Option.none_or, if_pos ⟨hname, rfl⟩]
      exact ((EntryPoint.rule?_eq_some_iff e rule).mpr hload).symm
    · rw [Function.update_of_ne (Ne.symm hn), if_neg (fun h => hn h.2), Option.or_none]
  · rw [hreg, rule?_eq_none_of_isUnshown hunshown, ite_self, Option.or_none]
  · rw [hreg]
    split
    · next hn =>
      rw [hnone (hn.2 ▸ hn.1), Option.or_none]
    · rw [Option.or_none]

/-- An entry-point breaks the loading off exactly when it is loaded and what it gives cannot be shown. -/
theorem fault_loadOne_eq_none_iff (r : Registry) (group : String) (e : EntryPoint) :
    (r.loadOne group e).fault = none ↔ ¬ (r.find? e.name = none ∧ e.IsUnshown) := by
  rcases loadOne_outcomes r group e with ⟨rule, hfind, -, hfault⟩ | ⟨rule, -, hload, -, -, hfault⟩ |
    ⟨hfree, hunshown, -, hfault⟩ | ⟨-, hshown, -, -, hfault⟩
  · simp [hfault, hfind]
  · simp [hfault, not_isUnshown_of_rule hload]
  · simp [hfault, hfree, hunshown]
  · simp [hfault, hshown]

theorem registry_loadOne_of_fault {r : Registry} {group : String} {e : EntryPoint}
    (hfault : (r.loadOne group e).fault ≠ none) : (r.loadOne group e).registry = r := by
  rcases loadOne_outcomes r group e with ⟨-, -, hreg, -⟩ | ⟨-, -, -, -, -, hnone⟩ | ⟨-, -, hreg, -⟩ |
    ⟨-, -, -, hreg, -⟩
  · exact hreg
  · exact absurd hnone hfault
  · exact hreg
  · exact hreg

/-! ## The loop -/

theorem load_of_no_fault {r : Registry} {e : EntryPoint} {group : String} (hgroup : e.group = group)
    (hfault : (r.loadOne group e).fault = none) (es : List EntryPoint) :
    r.load group (e :: es) = { (r.loadOne group e).registry.load group es with
      log := (r.loadOne group e).log ++ ((r.loadOne group e).registry.load group es).log } := by
  rw [load, if_pos hgroup]
  simp only [hfault]

/-- Entry-points of other groups are not seen. -/
theorem load_filter (r : Registry) (group : String) (es : List EntryPoint) :
    r.load group (es.filter fun e => e.group = group) = r.load group es := by
  induction es generalizing r with
  | nil => rfl
  | cons e es ih =>
    by_cases hgroup : e.group = group
    · rw [List.filter_cons_of_pos (by simpa using hgroup)]
      cases hfault : (r.loadOne group e).fault with
      | some m => rw [load_of_fault hgroup hfault, load_of_fault hgroup hfault]
      | none => rw [load_of_no_fault hgroup hfault, load_of_no_fault hgroup hfault, ih]
    · rw [List.filter_cons_of_neg (by simpa using hgroup), load_of_group_ne hgroup, ih]

/-- A loading that is not broken off goes on with what follows. -/
theorem load_append {r : Registry} {group : String} {xs : List EntryPoint}
    (hfault : (r.load group xs).fault = none) (ys : List EntryPoint) :
    r.load group (xs ++ ys) = { (r.load group xs).registry.load group ys with
      log := (r.load group xs).log ++ ((r.load group xs).registry.load group ys).log } := by
  induction xs generalizing r with
  | nil => rfl
  | cons e xs ih =>
    rw [List.cons_append]
    by_cases hgroup : e.group = group
    · cases hone : (r.loadOne group e).fault with
      | some m =>
        rw [load_of_fault hgroup hone, hone] at hfault
        exact absurd hfault (by simp)
      | none =>
        rw [load_of_no_fault hgroup hone] at hfault
        rw [load_of_no_fault hgroup hone, load_of_no_fault hgroup hone, ih hfault]
        simp only [List.append_assoc]
    · rw [load_of_group_ne hgroup] at hfault
      rw [load_of_group_ne hgroup, load_of_group_ne hgroup, ih hfault]

/-- One that is broken off does not. -/
theorem load_append_of_fault {r : Registry} {group : String} {xs : List EntryPoint}
    (hfault : (r.load group xs).fault ≠ none) (ys : List EntryPoint) :
    r.load group (xs ++ ys) = r.load group xs := by
  induction xs generalizing r with
  | nil => exact absurd rfl hfault
  | cons e xs ih =>
    rw [List.cons_append]
    by_cases hgroup : e.group = group
    · cases hone : (r.loadOne group e).fault with
      | some m => rw [load_of_fault hgroup hone, load_of_fault hgroup hone]
      | none =>
        rw [load_of_no_fault hgroup hone] at hfault
        rw [load_of_no_fault hgroup hone, load_of_no_fault hgroup hone, ih hfault]
    · rw [load_of_group_ne hgroup] at hfault
      rw [load_of_group_ne hgroup, load_of_group_ne hgroup, ih hfault]

theorem load_singleton {e : EntryPoint} {group : String} (hgroup : e.group = group) (r : Registry) :
    r.load group [e] = r.loadOne group e := by
  cases hone : (r.loadOne group e).fault with
  | some m => exact load_of_fault hgroup hone []
  | none =>
    rw [load_of_no_fault hgroup hone, load, List.append_nil, ← hone]

/-- **What a loading comes to that is not broken off**, by induction on the entry-points: what was registered
stays, and every other name gets what the entry-points of the group offer for it. -/
theorem find?_load_or {r : Registry} {group : String} {es : List EntryPoint}
    (hgroup : ∀ e ∈ es, e.group = group) (hfault : (r.load group es).fault = none) (n : String) :
    (r.load group es).registry.find? n = (r.find? n).or (offered es n) := by
  induction es generalizing r with
  | nil =>
    have hnothing : offered [] n = none := by rw [offered_eq_none_iff]; simp
    rw [hnothing, Option.or_none]
    rfl
  | cons e es ih =>
    obtain ⟨he, hes⟩ := List.forall_mem_cons.mp hgroup
    cases hone : (r.loadOne group e).fault with
    | some m =>
      rw [load_of_fault he hone, hone] at hfault
      exact absurd hfault (by simp)
    | none =>
      rw [load_of_no_fault he hone] at hfault
      rw [registry_load_of_no_fault he hone, ih hes hfault, find?_loadOne_or, Option.or_assoc,
        ← offered_append, List.singleton_append]

/-- The names free at some moment of the loading are those for which nothing was offered so far. -/
theorem find?_load_eq_none_iff {r : Registry} {group : String} {es : List EntryPoint}
    (hgroup : ∀ e ∈ es, e.group = group) (hfault : (r.load group es).fault = none) (n : String) :
    (r.load group es).registry.find? n = none ↔ FreeAfter r es n := by
  rw [find?_load_or hgroup hfault, Option.or_eq_none_iff, offered_eq_none_iff]
  rfl

/-! ## How far a loading gets -/

/-- Reached behind these entry-points, this one breaks the loading off. -/
def Breaks (r : Registry) (before : List EntryPoint) (e : EntryPoint) : Prop :=
  FreeAfter r before e.name ∧ e.IsUnshown

theorem fault_eq_none_of_append {r : Registry} {group : String} {xs ys : List EntryPoint}
    (hfault : (r.load group (xs ++ ys)).fault = none) : (r.load group xs).fault = none := by
  by_contra hbroken
  rw [load_append_of_fault hbroken] at hfault
  exact hbroken hfault

/-- One more entry-point breaks off a loading that was not, exactly when it is one that breaks. -/
theorem fault_load_snoc {r : Registry} {group : String} {es : List EntryPoint} {e : EntryPoint}
    (hgroup : ∀ x ∈ es, x.group = group) (he : e.group = group)
    (hfault : (r.load group es).fault = none) :
    (r.load group (es ++ [e])).fault = none ↔ ¬ Breaks r es e := by
  rw [load_append hfault, load_singleton he]
  simp only
  rw [fault_loadOne_eq_none_iff, find?_load_eq_none_iff hgroup hfault]
  rfl

/-- No entry-point of a loading that is not broken off breaks it. -/
theorem not_breaks_of_fault_eq_none {r : Registry} {group : String} {before after : List EntryPoint}
    {e : EntryPoint} (hgroup : ∀ x ∈ before ++ e :: after, x.group = group)
    (hfault : (r.load group (before ++ e :: after)).fault = none) : ¬ Breaks r before e := by
  rw [List.append_cons] at hfault
  have hsnoc := fault_eq_none_of_append hfault
  have hbefore := fault_eq_none_of_append hsnoc
  refine (fault_load_snoc (fun x hx => hgroup x (List.mem_append_left _ hx)) ?_ hbefore).mp hsnoc
  exact hgroup e (List.mem_append_right _ List.mem_cons_self)

/-- **Where a loading stops.** It goes through all entry-points, or through those before one that breaks it
off, and registers what these make it register. The induction is from the right: the last entry-point is
either behind the one that breaks, or breaks itself, or is gone through. -/
theorem exists_gone_through (r : Registry) {group : String} (es : List EntryPoint)
    (hgroup : ∀ e ∈ es, e.group = group) :
    ∃ done rest, es = done ++ rest ∧ (r.load group done).fault = none ∧
      (∀ e ∈ rest.head?, Breaks r done e) ∧ ((r.load group es).fault = none ↔ rest = []) ∧
      (r.load group es).registry = (r.load group done).registry := by
  induction es using List.reverseRecOn with
  | nil => exact ⟨[], [], rfl, rfl, by simp, by simp [load], rfl⟩
  | append_singleton es e ih =>
    have hes : ∀ x ∈ es, x.group = group := fun x hx => hgroup x (List.mem_append_left _ hx)
    have he : e.group = group := hgroup e (by simp)
    obtain ⟨done, rest, hsplit, hdone, hbreaks, hall, hreg⟩ := ih hes
    cases hfault : (r.load group es).fault with
    | some m =>
      have hbroken : (r.load group es).fault ≠ none := by rw [hfault]; simp
      have hrest : rest ≠ [] := fun h => hbroken (hall.mpr h)
      refine ⟨done, rest ++ [e], ?_, hdone, ?_, ?_, ?_⟩
      · rw [hsplit, List.append_assoc]
      · rwa [List.head?_append_of_ne_nil _ hrest]
      · rw [load_append_of_fault hbroken, hfault]
        simp
      · rw [load_append_of_fault hbroken, hreg]
    | none =>
      -- so far nothing broke the loading off
      rw [hall.mp hfault, List.append_nil] at hsplit
      subst hsplit
      have hsnoc := fault_load_snoc hes he hfault
      by_cases hbreak : Breaks r es e
      · have hbroken : (r.load group (es ++ [e])).fault ≠ none := fun h => hsnoc.mp h hbreak
        refine ⟨es, [e], rfl, hfault, by simpa using hbreak, by simpa using hbroken, ?_⟩
        rw [load_append hfault, load_singleton he] at hbroken ⊢
        exact registry_loadOne_of_fault hbroken
      · have hquiet := hsnoc.mpr hbreak
        exact ⟨es ++ [e], [], by rw [List.append_nil], hquiet, by simp, by simp [hquiet], rfl⟩

/-- Reached are the entry-points gone through and the one that breaks the loading off, and no others. -/
theorem fault_eq_none_iff_length_le {r : Registry} {group : String} {done rest before tail : List EntryPoint}
    (hgroup : ∀ e ∈ done ++ rest, e.group = group) (hsplit : done ++ rest = before ++ tail)
    (hdone : (r.load group done).fault = none) (hbreaks : ∀ e ∈ rest.head?, Breaks r done e) :
    (r.load group before).fault = none ↔ before.length ≤ done.length := by
  rcases List.append_eq_append_iff.mp hsplit with ⟨behind, rfl, hrest⟩ | ⟨behind, rfl, -⟩
  · cases behind with
    | nil => simp [hdone]
    | cons e behind =>
      -- the loading was broken off at `e`, which stands before the end of these
      have he : e ∈ rest := by rw [hrest]; simp
      have hbreak : Breaks r done e := hbreaks e (by rw [hrest]; rfl)
      have hsnoc := fault_load_snoc (fun x hx => hgroup x (List.mem_append_left _ hx))
        (hgroup e (List.mem_append_right _ he)) hdone
      have hbroken : (r.load group (done ++ e :: behind)).fault ≠ none := fun h => by
        rw [List.append_cons] at h
        exact hsnoc.mp (fault_eq_none_of_append h) hbreak
      simp [hbroken]
  · simp [fault_eq_none_of_append hdone]

/-! ## Which entry-points are loaded -/

/-- The entry-point is loaded: the outcome depends on what loading it gives. -/
def IsLoaded (r : Registry) (group : String) (before : List EntryPoint) (e : EntryPoint)
    (after : List EntryPoint) : Prop :=
  ∃ given, r.load group (before ++ { e with load := given } :: after)
    ≠ r.load group (before ++ e :: after)

/-- Under a name that has a rule, it does not matter what loading would give. -/
theorem loadOne_of_taken {r : Registry} {e : EntryPoint} (htaken : r.find? e.name ≠ none) (group : String)
    (given : Except Failure Candidate) : r.loadOne group { e with load := given } = r.loadOne group e := by
  have hcontains : r.contains e.name = true := by
    rw [← Bool.not_eq_false, contains_eq_false_iff]
    exact htaken
  unfold loadOne
  simp only [hcontains, if_true]

/-- Under a free name, a failure to load is noted with its kind. -/
theorem load_of_failure {r : Registry} {e : EntryPoint} {group : String} (he : e.group = group)
    (hfree : r.find? e.name = none) (f : Failure) (after : List EntryPoint) :
    (r.load group ({ e with load := .error f } :: after)).log
      = unloadedRecord group e.name f :: (r.load group after).log := by
  have hcontains := (contains_eq_false_iff r e.name).mpr hfree
  have hone : r.loadOne group { e with load := .error f }
      = { registry := r, log := [unloadedRecord group e.name f] } := by
    simp [loadOne, hcontains]
  have hgroup : ({ e with load := .error f } : EntryPoint).group = group := he
  rw [load_of_no_fault hgroup (by rw [hone]), hone]
  rfl

/-- **An entry-point is loaded exactly when it is reached and its name is free at that moment.** -/
theorem isLoaded_iff {r : Registry} {group : String} {before : List EntryPoint} {e : EntryPoint}
    (he : e.group = group) (after : List EntryPoint) :
    IsLoaded r group before e after ↔
      (r.load group before).fault = none ∧ (r.load group before).registry.find? e.name = none := by
  by_cases hfault : (r.load group before).fault = none
  · rw [and_iff_right hfault]
    constructor
    · rintro ⟨given, hdiffers⟩
      by_contra htaken
      apply hdiffers
      have hone := loadOne_of_taken htaken group given
      have hgiven : ({ e with load := given } : EntryPoint).group = group := he
      rw [load_append hfault, load_append hfault, load, load, if_pos he, if_pos hgiven, hone]
    · -- two failures of different kinds leave different notes, so one of them differs from what happens
      intro hfree
      by_contra hsame
      have hequal : ∀ f, (r.load group (before ++ { e with load := .error f } :: after)).log
          = (r.load group (before ++ e :: after)).log := fun f => by
        by_contra hlog
        exact hsame ⟨.error f, fun h => hlog (by rw [h])⟩
      have hlogs := (hequal (.other "a" "")).trans (hequal (.other "b" "")).symm
      rw [load_append hfault, load_append hfault] at hlogs
      simp only [load_of_failure he hfree, List.append_cancel_left_eq, List.cons.injEq, and_true] at hlogs
      exact absurd (congrArg LogRecord.failure hlogs) (by simp [unloadedRecord, Failure.kind])
  · -- what is not reached is not loaded
    refine iff_of_false ?_ fun h => hfault h.1
    rintro ⟨given, hdiffers⟩
    rw [load_append_of_fault hfault, load_append_of_fault hfault] at hdiffers
    exact hdiffers rfl

/-! ## The loading as a whole -/

/-- **What a loading does.** Of the entry-points of the group it goes through all, or through those in front
of the first that is reached under a free name and gives something that is no rule and cannot be shown, which
breaks it off. What was registered stays. Any other name gets a rule exactly when it is not empty and the
entry-points gone through have one for it, and then the first. An entry-point is loaded exactly when it is
reached and its name is free at that moment, which is so when no entry-point before it had a rule for the
name, however many of them failed. -/
theorem load_takes_first_rules (r : Registry) (group : String) (es : List EntryPoint) :
    let asked := es.filter fun e => e.group = group
    let loading := r.load group es
    (∀ n rule, r.find? n = some rule → loading.registry.find? n = some rule) ∧
      ∃ done rest, asked = done ++ rest ∧
        (∀ before e after, done = before ++ e :: after → ¬ Breaks r before e) ∧
        (∀ e ∈ rest.head?, Breaks r done e) ∧
        (loading.fault = none ↔ rest = []) ∧
        (∀ n rule, r.find? n = none →
          (loading.registry.find? n = some rule ↔ n ≠ "" ∧ Provides done n rule)) ∧
        ∀ before e after, asked = before ++ e :: after →
          (IsLoaded r group before e after ↔ before.length ≤ done.length
            ∧ (r.load group before).registry.find? e.name = none) ∧
          (before.length ≤ done.length →
            ((r.load group before).registry.find? e.name = none ↔ FreeAfter r before e.name)) := by
  intro asked loading
  have hgroup : ∀ e ∈ asked, e.group = group := fun e he => by
    simpa using (List.mem_filter.mp he).2
  refine ⟨fun n rule hn => find?_load_of_some hn group es, ?_⟩
  obtain ⟨done, rest, hsplit, hdone, hbreaks, hall, hreg⟩ := exists_gone_through r asked hgroup
  have hdoneGroup : ∀ e ∈ done, e.group = group := fun e he => by
    exact hgroup e (hsplit ▸ List.mem_append_left _ he)
  rw [load_filter] at hall hreg
  refine ⟨done, rest, hsplit, fun before e after h => ?_, hbreaks, hall, fun n rule hfree => ?_,
    fun before e after h => ?_⟩
  · subst h
    exact not_breaks_of_fault_eq_none hdoneGroup hdone
  · rw [show loading.registry = (r.load group done).registry from hreg, find?_load_or hdoneGroup hdone,
      hfree, Option.none_or, offered_eq_some_iff]
  · -- reached means not broken off before, whatever stands behind
    have hbeforeGroup : ∀ x ∈ before, x.group = group := fun x hx =>
      hgroup x (h ▸ List.mem_append_left _ hx)
    have he : e.group = group := hgroup e (h ▸ List.mem_append_right _ List.mem_cons_self)
    have hreached := fault_eq_none_iff_length_le (hsplit ▸ hgroup) (hsplit.symm.trans h) hdone hbreaks
    rw [isLoaded_iff he, hreached]
    exact ⟨Iff.rfl, fun hle => find?_load_eq_none_iff hbeforeGroup (hreached.mpr hle) e.name⟩

/-- A rule set up for a run, without an option name, is loaded under a name before the rule itself. It is to
be skipped, but the loading is broken off there, and the name stays free although the list has a rule for
it. -/
theorem unshown_hides_later_rule :
    let plain := Rule.scripted "Plain" {}
    let r : Registry := { name := "r" }
    let es : List EntryPoint := [{ name := "b", load := .ok (.made plain) },
      { name := "b", load := .ok (.rule plain) }]
    (r.load ruleGroup es).fault ≠ none ∧ Provides es "b" plain
      ∧ (r.load ruleGroup es).registry.find? "b" = none := by
  intro plain r es
  refine ⟨?_, ⟨[{ name := "b", load := .ok (.made plain) }], _, [], rfl, rfl, rfl, ?_⟩, rfl⟩
  · have hfault : (r.load ruleGroup es).fault = some (.lacking { rule := "Plain", lacking := "option_name" }) := rfl
    rw [hfault]
    exact Option.some_ne_none _
  · simp

end Registry

end CommentStyle
