import CommentStyle.Proofs.Linter.Isolation
import CommentStyle.Proofs.Linter.Setup
import Mathlib.Data.List.Perm.Basic
import Mathlib.Logic.Relation

/-!
# The order of the options

The options of a linter are a mapping, but the rules run in the order in which it lists them, and the sort keeps
that order where findings share a place. This module says how much of it can be seen: two lint runs whose options
differ in their order report the same, at the same places, each rule its own findings in the same order. Only
findings of different rules at one place may change places with each other. Where rules fail without a text, no
order comes to a result, and the order decides which of the failures is the end of the run.

* **`contributed`**, **`labelled`** — what the rule registered under a name contributes, and the contributions
  of several names in their order, each diagnostic labelled with the name it is from.
* **`attributed`** — the result of a run with its marks, the place of a rule in the run replaced by the name
  of the option it was set up from. **`exists_traces`**: it is `labelled`, sorted.
* **`filter_labelled`** — what has one label does not depend on the order of the names.
* **`SwapsAtPlace`**, **`swaps_of_filter`** — two lists in the order of their places that agree on the elements
  of each label differ by swaps of neighbours with one place and different labels. The induction is on the
  second list: its head is moved to the front of the first.
* **`lint_of_reordered_options`** — the headline.
-/

namespace CommentStyle

/-! ## Lists in order that agree on each label -/

section Swaps

variable {α β γ : Type} (key : α → β) (label : α → γ)

/-- Two neighbours with one key and different labels change places. -/
inductive SwapsAtPlace : List α → List α → Prop where
  | swap (front back : List α) {a b : α} (hkey : key a = key b) (hlabel : label a ≠ label b) :
      SwapsAtPlace (front ++ a :: b :: back) (front ++ b :: a :: back)

/-- Any number of such swaps. -/
def Swaps : List α → List α → Prop := Relation.ReflTransGen (SwapsAtPlace key label)

variable {key label}

theorem Swaps.cons {xs ys : List α} (h : Swaps key label xs ys) (a : α) :
    Swaps key label (a :: xs) (a :: ys) := by
  refine Relation.ReflTransGen.lift (a :: ·) (fun us vs hswap => ?_) xs ys h
  obtain ⟨front, back, hkey, hlabel⟩ := hswap
  exact .swap (a :: front) back hkey hlabel

/-- An element moves to the front past elements of its key that have other labels. -/
theorem swaps_to_front {front : List α} {a : α} (back : List α)
    (hfront : ∀ b ∈ front, key b = key a ∧ label b ≠ label a) :
    Swaps key label (front ++ a :: back) (a :: (front ++ back)) := by
  induction front with
  | nil => exact Relation.ReflTransGen.refl
  | cons b front ih =>
    obtain ⟨⟨hkey, hlabel⟩, hrest⟩ := List.forall_mem_cons.mp hfront
    refine Relation.ReflTransGen.tail ((ih hrest).cons b) ?_
    exact .swap [] (front ++ back) hkey hlabel

variable [LinearOrder β]

/-- Two lists in the order of a key, one a permutation of the other, have the same key at every index. -/
theorem map_key_eq_of_perm {xs ys : List α} (hperm : xs.Perm ys) (hxs : xs.Pairwise fun a b => key a ≤ key b)
    (hys : ys.Pairwise fun a b => key a ≤ key b) : xs.map key = ys.map key := by
  refine List.Perm.eq_of_pairwise (fun _ _ _ _ => le_antisymm) ?_ ?_ (hperm.map key)
  · exact List.pairwise_map.mpr hxs
  · exact List.pairwise_map.mpr hys

variable [DecidableEq γ]

/-- **Lists in the order of a key that agree on the elements of each label differ by swaps of neighbours with one
key and different labels.** What stands in front of the second list's head in the first has its key, both
lists being in order, and another label, the head being the first of its own. -/
theorem swaps_of_filter {xs ys : List α} (hxs : xs.Pairwise fun a b => key a ≤ key b)
    (hys : ys.Pairwise fun a b => key a ≤ key b)
    (hfilter : ∀ c, xs.filter (fun a => label a = c) = ys.filter fun a => label a = c) :
    Swaps key label xs ys := by
  induction ys generalizing xs with
  | nil =>
    cases xs with
    | nil => exact Relation.ReflTransGen.refl
    | cons x xs => simpa using hfilter (label x)
  | cons y ys ih =>
    obtain ⟨hleast, hys⟩ := List.pairwise_cons.mp hys
    have hown := hfilter (label y)
    rw [List.filter_cons_of_pos (by simp)] at hown
    obtain ⟨front, back, rfl, hothers, -, hback⟩ := List.filter_eq_cons_iff.mp hown
    have hother : ∀ a ∈ front, label a ≠ label y := fun a ha => by simpa using hothers a ha
    -- what stands in front is in the second list too, behind its head, and so has no smaller key
    have hfront : ∀ a ∈ front, key a = key y ∧ label a ≠ label y := by
      intro a ha
      have hmem : a ∈ ys := by
        have hsame := congrArg (a ∈ ·) (hfilter (label a))
        have hin : a ∈ y :: ys := by simpa [ha] using hsame
        refine (List.mem_cons.mp hin).resolve_left ?_
        rintro rfl
        exact hother a ha rfl
      refine ⟨le_antisymm ?_ (hleast a hmem), hother a ha⟩
      exact (List.pairwise_append.mp hxs).2.2 a ha y List.mem_cons_self
    refine Relation.ReflTransGen.trans (swaps_to_front back hfront) (Swaps.cons (ih ?_ hys fun c => ?_) y)
    · exact hxs.sublist (List.Sublist.append_left (List.sublist_cons_self y back) front)
    · -- without the head, the lists still agree on each label
      have hc := hfilter c
      rw [List.filter_append] at hc ⊢
      by_cases hyc : label y = c
      · subst hyc
        rw [List.filter_eq_nil_iff.mpr (by simpa using hother), List.nil_append, hback]
      · rwa [List.filter_cons_of_neg (by simpa using hyc), List.filter_cons_of_neg (by simpa using hyc)] at hc

end Swaps

namespace Linter

/-! ## Contributions by name -/

/-- What the rule registered under a name contributes; nothing if there is none, or if it breaks the run off. -/
def contributed (reg : Registry) (cs : List Comment) (name : String) : List Diagnostic :=
  match reg.find? name with
  | none => []
  | some rule => (contribution cs rule).toOption.getD []

theorem contributes_contributed {reg : Registry} {o : String × Value} {rule : Rule} {cs : List Comment}
    (hrule : SetsUp reg o rule) (hsound : ¬ Lacking rule ∧ ¬ Untold cs rule) :
    Contributes cs rule (contributed reg cs o.1) := by
  obtain ⟨ds, hds⟩ := not_lacking_and_not_untold_iff.mp hsound
  simp only [contributed, hrule.registered, contribution_of_contributes hds]
  exact hds

/-- The contributions of some names in their order, each diagnostic labelled with the name it is from. -/
def labelled (reg : Registry) (cs : List Comment) (names : List String) : List (Option String × Diagnostic) :=
  names.flatMap fun n => (contributed reg cs n).map fun d => (some n, d)

/-- **What has one label does not depend on the order of the names**: it is the contribution of that name, as
often as the name occurs. -/
theorem filter_labelled (reg : Registry) (cs : List Comment) (names : List String) (n : String) :
    (labelled reg cs names).filter (fun m => m.1 = some n)
      = labelled reg cs (List.replicate (names.count n) n) := by
  induction names with
  | nil => rfl
  | cons name names ih =>
    unfold labelled at ih ⊢
    rw [List.flatMap_cons, List.filter_append, ih]
    -- a contribution has one label throughout, so that it is kept or dropped as a whole
    by_cases hname : name = n
    · subst hname
      rw [List.count_cons_self, List.replicate_succ, List.flatMap_cons, List.filter_eq_self.mpr (by simp)]
    · rw [List.count_cons_of_ne hname, List.filter_eq_nil_iff.mpr (by simp [hname]), List.nil_append]

theorem filter_labelled_none (reg : Registry) (cs : List Comment) (names : List String) :
    (labelled reg cs names).filter (fun m => m.1 = none) = [] := by
  rw [List.filter_eq_nil_iff]
  intro m hm
  obtain ⟨n, -, hm⟩ := List.mem_flatMap.mp hm
  obtain ⟨d, -, rfl⟩ := List.mem_map.mp hm
  simp

/-- **Names in another order** contribute the same; sorted by place, what they contribute has the same place at
every index, is the same for each label, and differs only by swaps at one place. -/
theorem sortedBy_labelled_of_perm (reg : Registry) (cs : List Comment) {names names' : List String}
    (hperm : names'.Perm names) :
    let before := sortedBy (fun m => m.2.location) (labelled reg cs names)
    let after := sortedBy (fun m => m.2.location) (labelled reg cs names')
    after.Perm before ∧
      after.map (fun m => m.2.location.key) = before.map (fun m => m.2.location.key) ∧
      (∀ name, after.filter (fun m => m.1 = name) = before.filter fun m => m.1 = name) ∧
      Swaps (fun m => m.2.location.key) Prod.fst before after := by
  intro before after
  have hbefore : before.Pairwise fun a b => a.2.location.key ≤ b.2.location.key := pairwise_sortedBy _ _
  have hafter : after.Pairwise fun a b => a.2.location.key ≤ b.2.location.key := pairwise_sortedBy _ _
  have hsame : after.Perm before :=
    (List.mergeSort_perm _ _).trans ((hperm.flatMap_right _).trans (List.mergeSort_perm _ _).symm)
  have hfilter : ∀ name, after.filter (fun m => m.1 = name) = before.filter fun m => m.1 = name := by
    intro name
    rw [filter_sortedBy, filter_sortedBy]
    cases name with
    | none => rw [filter_labelled_none, filter_labelled_none]
    | some n => rw [filter_labelled, filter_labelled, hperm.count_eq]
  exact ⟨hsame, map_key_eq_of_perm hsame hafter hbefore, hfilter,
    swaps_of_filter hbefore hafter fun name => (hfilter name).symm⟩

/-! ## A linter set up from options -/

/-- A result with marks, the place of a rule in the run replaced by the name of the option at that place. -/
def attributed (options : Options) (traced : List (Nat × Diagnostic)) : List (Option String × Diagnostic) :=
  traced.map fun m => ((given options)[m.1]?.map Prod.fst, m.2)

/-- Marks that count from some place on, read in a list that has as many names in front. -/
theorem map_mark_labelled (reg : Registry) (cs : List Comment) (front names : List String) :
    (mark front.length (names.map (contributed reg cs))).map (fun m => ((front ++ names)[m.1]?, m.2))
      = labelled reg cs names := by
  induction names generalizing front with
  | nil => rfl
  | cons name names ih =>
    -- behind the first contribution, its name counts among those in front
    have hrest := ih (front ++ [name])
    rw [List.length_append, List.length_singleton, List.append_assoc, List.singleton_append] at hrest
    rw [List.map_cons, mark, List.map_append, hrest, List.map_map]
    unfold labelled
    rw [List.flatMap_cons]
    congr 1
    refine List.map_congr_left fun d _ => ?_
    show ((front ++ name :: names)[front.length]?, d) = (some name, d)
    rw [List.getElem?_append_right (Nat.le_refl _), Nat.sub_self, List.getElem?_cons_zero]

section FromOptions

variable {reg : Registry} {options : Options} {rules : List Rule} {cs : List Comment}

theorem forall₂_contributes (hrules : List.Forall₂ (SetsUp reg) (given options) rules)
    (hsound : ∀ r ∈ rules, ¬ Lacking r ∧ ¬ Untold cs r) :
    List.Forall₂ (Contributes cs) rules (((given options).map Prod.fst).map (contributed reg cs)) := by
  rw [List.map_map]
  generalize given options = asked at hrules
  induction hrules with
  | nil => exact .nil
  | cons hrule _ ih =>
    obtain ⟨hhead, hrest⟩ := List.forall_mem_cons.mp hsound
    exact .cons (contributes_contributed hrule hhead) (ih hrest)

/-- **The result of a run, each diagnostic with the name of its option**, is what the names contribute, sorted by
place. -/
theorem exists_traces (hrules : List.Forall₂ (SetsUp reg) (given options) rules)
    (hsound : ∀ r ∈ rules, ¬ Lacking r ∧ ¬ Untold cs r) :
    ∃ traced, Traces cs rules traced ∧ lint ⟨rules⟩ cs = .ok (traced.map Prod.snd) ∧
      attributed options traced
        = sortedBy (fun m => m.2.location) (labelled reg cs ((given options).map Prod.fst)) := by
  have hblocks := forall₂_contributes hrules hsound
  refine ⟨_, traces_sortedBy hblocks, lint_of_contributes hblocks (map_mark 0 _), ?_⟩
  -- the sort does not see the marks, so that it makes no difference when they are replaced
  have hlabelled := map_mark_labelled reg cs [] ((given options).map Prod.fst)
  simp only [List.length_nil, List.nil_append, List.getElem?_map] at hlabelled
  rw [← hlabelled]
  exact List.map_mergeSort fun _ _ _ _ => rfl

end FromOptions

/-- Options in another order set up the same rules in that order. -/
theorem exists_reordered_rules {reg : Registry} {options options' : Options} {rules : List Rule}
    (hrules : List.Forall₂ (SetsUp reg) (given options) rules) (hperm : options'.Perm options) :
    ∃ rules', List.Forall₂ (SetsUp reg) (given options') rules' ∧ rules'.Perm rules :=
  List.perm_comp_forall₂ (hperm.filter _) hrules

theorem map_snd_attributed (options : Options) (traced : List (Nat × Diagnostic)) :
    (attributed options traced).map Prod.snd = traced.map Prod.snd := by
  rw [attributed, List.map_map]
  rfl

/-- **What the order of the options can change.** Let a linter be set up from options, all its rules having an
option name and a code. Then one is set up from the same options in any other order, from the same rules.

For all comments on which no rule fails without a text, the results of the two hold the same diagnostics, have the
same line and column at every index, and hold the diagnostics of each option's rule in the same order. So the one
comes from the other by swaps of neighbours that are of different rules and have the same place.

For all others neither linter comes to a result, and each ends as the first rule of its own order that fails
without a text makes it end. -/
theorem lint_of_reordered_options {reg : Registry} {options options' : Options} {l : Linter}
    (hl : ofOptions reg (some options) = .ok l) (hcomplete : ∀ r ∈ l.rules, ¬ Lacking r)
    (hperm : options'.Perm options) (cs : List Comment) :
    ∃ l', ofOptions reg (some options') = .ok l' ∧ l'.rules.Perm l.rules ∧
      ((∀ r ∈ l.rules, ¬ Untold cs r) → ∃ ds ds' traced traced',
        l.lint cs = .ok ds ∧ Traces cs l.rules traced ∧ ds = traced.map Prod.snd ∧
        l'.lint cs = .ok ds' ∧ Traces cs l'.rules traced' ∧ ds' = traced'.map Prod.snd ∧
        ds'.Perm ds ∧
        ds'.map (fun d => d.location.key) = ds.map (fun d => d.location.key) ∧
        (∀ name, (attributed options' traced').filter (fun m => m.1 = name)
          = (attributed options traced).filter fun m => m.1 = name) ∧
        Swaps (fun m => m.2.location.key) Prod.fst (attributed options traced) (attributed options' traced')) ∧
      ((∃ r ∈ l.rules, Untold cs r) → ∃ b b',
        l.lint cs = .error b ∧ FirstBreak cs l.rules b ∧
        l'.lint cs = .error b' ∧ FirstBreak cs l'.rules b') := by
  have hrules := ((ofOptions_decides reg options).eq_ok_iff l).mp hl
  obtain ⟨rules', hrules', hsame⟩ := exists_reordered_rules hrules hperm
  refine ⟨⟨rules'⟩, ((ofOptions_decides reg options').eq_ok_iff _).mpr hrules', hsame, fun htold => ?_, ?_⟩
  · have hsound : ∀ r ∈ l.rules, ¬ Lacking r ∧ ¬ Untold cs r := fun r hr => ⟨hcomplete r hr, htold r hr⟩
    obtain ⟨traced, htraces, hlint, hsorted⟩ := exists_traces hrules hsound
    obtain ⟨traced', htraces', hlint', hsorted'⟩ :=
      exists_traces hrules' fun r hr => hsound r (hsame.mem_iff.mp hr)
    have hnames : ((given options').map Prod.fst).Perm ((given options).map Prod.fst) :=
      (hperm.filter _).map Prod.fst
    obtain ⟨hsame, hplaces, hfilter, hswaps⟩ := sortedBy_labelled_of_perm reg cs hnames
    rw [← hsorted, ← hsorted'] at hsame hplaces hfilter hswaps
    refine ⟨_, _, traced, traced', hlint, htraces, rfl, hlint', htraces', rfl, ?_, ?_, hfilter, hswaps⟩
    · rw [← map_snd_attributed options', ← map_snd_attributed options]
      exact hsame.map Prod.snd
    · rw [← map_snd_attributed options', ← map_snd_attributed options, List.map_map, List.map_map]
      exact hplaces
  · rintro ⟨r, hr, huntold⟩
    obtain ⟨b, hb⟩ := exists_firstBreak_iff.mpr ⟨r, hr, .inr huntold⟩
    obtain ⟨b', hb'⟩ := exists_firstBreak_iff.mpr ⟨r, hsame.mem_iff.mpr hr, .inr huntold⟩
    exact ⟨b, b', (lint_eq_error_iff l cs b).mpr hb, hb, (lint_eq_error_iff ⟨rules'⟩ cs b').mpr hb', hb'⟩

/-- A rule that reports, a rule that fails, and an option without a value whose name is unknown. All places
count as the unknown one, so that nothing but the order of the options decides in which order the two rules
are heard. -/
theorem lint_of_reordered_options_at_one_place :
    let failing : Rule := { Rule.capitalized with check := fun cs => (scan cs, some (.lookup "key")) }
    let reg : Registry := { name := "r", entries := [("a", .capitalized), ("b", failing)] }
    let options : Options := [("a", .bool true), ("x", .null), ("b", .bool true)]
    let l : Linter := ⟨[.capitalized, failing]⟩
    let cs : List Comment := [⟨"b", .unknown, .line⟩, ⟨"a", ⟨.flag false, .number 0⟩, .block⟩]
    ofOptions reg (some options) = .ok l ∧ (∀ r ∈ l.rules, ¬ Lacking r) ∧ (∀ r ∈ l.rules, ¬ Untold cs r) ∧
      options.reverse.Perm options ∧
      ∃ l' ds ds', ofOptions reg (some options.reverse) = .ok l' ∧ l.lint cs = .ok ds ∧ l'.lint cs = .ok ds' ∧
        ds'.Perm ds ∧ ds'.map (fun d => d.location.key) = ds.map fun d => d.location.key := by
  intro failing reg options l cs
  have hl : ofOptions reg (some options) = .ok l := rfl
  have hcomplete : ∀ r ∈ l.rules, ¬ Lacking r := by
    simp [l, failing, Lacking, Rule.capitalized]
  have htold : ∀ r ∈ l.rules, ¬ Untold cs r := by
    simp [l, failing, Untold, Rule.capitalized, Failure.text]
  have hperm : options.reverse.Perm options := List.reverse_perm options
  obtain ⟨l', hl', -, hresults, -⟩ := lint_of_reordered_options hl hcomplete hperm cs
  obtain ⟨ds, ds', -, -, hds, -, -, hds', -, -, hsame, hplaces, -⟩ := hresults htold
  exact ⟨hl, hcomplete, htold, hperm, l', ds, ds', hl', hds, hds', hsame, hplaces⟩

/-- Of two rules whose failures cannot be told, the one that comes first in the options decides how the run
ends. -/
theorem lint_ends_by_order :
    let other : Rule :=
      { Rule.capitalized with check := fun _ => ([], some (.mute "KeyError" (.other "TypeError" "x"))) }
    let reg : Registry := { name := "r", entries := [("a", lookingUpLongNumber), ("b", other)] }
    let options : Options := [("a", .bool true), ("b", .bool true)]
    let cs : List Comment := [⟨"b", .unknown, .line⟩]
    ∃ l l', ofOptions reg (some options) = .ok l ∧ ofOptions reg (some options.reverse) = .ok l' ∧
      (∀ r ∈ l.rules, ¬ Lacking r) ∧
      l.lint cs = .error (.failed (.other "ValueError" NumberFault.tooLong.message)) ∧
      l'.lint cs = .error (.failed (.other "TypeError" "x")) := by
  intro other reg options cs
  have hcomplete : ∀ r ∈ [lookingUpLongNumber, other], ¬ Lacking r := by
    simp [other, Lacking, lookingUpLongNumber, Rule.capitalized]
  exact ⟨⟨[lookingUpLongNumber, other]⟩, ⟨[other, lookingUpLongNumber]⟩, rfl, rfl, hcomplete, rfl, rfl⟩

end Linter

end CommentStyle
