import CommentStyle.Proofs.Linter.Setup
import CommentStyle.Proofs.Registry.History
import Mathlib.Data.List.Nodup
import Mathlib.Data.String.Basic

/-!
# What can be seen of a registry

A registry can be listed, counted, asked whether it has a name, asked for the rule of a name, and searched by
a linter that is being set up. All of these read the same entries, but the listing sorts them, the counting
takes them as they are and the others stop at the first of a name: they agree only as long as no name is there
twice. That is kept by everything that can be done with a registry, whether it succeeds or not.

* **`Consistent`** — the invariant: names are distinct and not empty. **`Consistent.run`** is the step, one
  lemma for each call, and **`consistent_reached`** the run.
* **`find?_step`** — a step registers no rule but one that it was offered as a rule.
* **`pairwise_names`**, **`mem_names_iff`**, **`ofOptions_singleton`** — what each way of looking comes to.
* **`observers_agree`** — the headline.
-/

namespace CommentStyle.Registry

/-! ## Everything that can be done -/

/-- What may be done with a registry: a call on it, or going on with a copy of it. -/
inductive Step where
  | call (c : Call)
  | copy (name : Option String)

def Step.run (r : Registry) : Step → Registry
  | call c => (c.run r).1
  | copy name => r.copy name

/-- The registry after some steps, whether their calls fail or not. -/
def reached (r : Registry) (steps : List Step) : Registry := steps.foldl Step.run r

/-- What a registry may start from. -/
inductive Origin where
  | empty (name : String)
  | builtin

def Origin.registry : Origin → Registry
  | empty name => { name }
  | builtin => Registry.builtin

/-- The call offers this candidate for registration under the name. -/
def Call.Offers (n : String) (c : Candidate) : Call → Prop
  | register d => d = c ∧ d.optionName = n
  | registerAs name d => d = c ∧ name = n
  | deregister _ => False
  | load group es => ∃ e ∈ es, e.group = group ∧ e.name = n ∧ e.load = .ok c

def Step.Offers (n : String) (c : Candidate) : Step → Prop
  | call k => k.Offers n c
  | copy _ => False

/-! ## The invariant -/

/-- The registered names differ from each other, and none of them is empty. -/
structure Consistent (r : Registry) : Prop where
  distinct : (r.entries.map Prod.fst).Nodup
  named : "" ∉ r.entries.map Prod.fst

theorem mem_keys_iff (r : Registry) (n : String) : n ∈ r.entries.map Prod.fst ↔ r.find? n ≠ none := by
  unfold find?
  rw [Ne, List.lookup_eq_none_iff]
  constructor
  · intro hmem hall
    obtain ⟨e, he, rfl⟩ := List.mem_map.mp hmem
    exact absurd (hall e he) (by simp)
  · intro hfound
    by_contra hnone
    refine hfound fun e he => ?_
    rw [bne_iff_ne]
    rintro rfl
    exact hnone (List.mem_map_of_mem he)

namespace Consistent

variable {r : Registry}

/-- A rule goes to the end, under a name that is not empty and free. -/
theorem concat (h : Consistent r) {name : String} (hname : name ≠ "") (hfree : r.find? name = none)
    (rule : Rule) : Consistent { r with entries := r.entries ++ [(name, rule)] } := by
  have hnew : name ∉ r.entries.map Prod.fst := fun hmem => (mem_keys_iff r name).mp hmem hfree
  constructor
  · show ((r.entries ++ [(name, rule)]).map Prod.fst).Nodup
    rw [List.map_append, List.nodup_append]
    refine ⟨h.distinct, by simp, fun a ha b hb => ?_⟩
    rw [List.map_singleton, List.mem_singleton] at hb
    subst hb
    rintro rfl
    exact hnew ha
  · show "" ∉ (r.entries ++ [(name, rule)]).map Prod.fst
    rw [List.map_append, List.mem_append, not_or]
    refine ⟨h.named, fun hmem => ?_⟩
    rw [List.map_singleton, List.mem_singleton] at hmem
    exact hname hmem.symm

theorem registerAs (h : Consistent r) (name : String) (c : Candidate) :
    Consistent (r.attempt (r.registerAs name c)).1 := by
  rcases registerAs_cases r name c with ⟨rule, -, hname, hfree, hreg⟩ | ⟨rule, -, -, -, hreg⟩ |
    ⟨rule, -, -, hreg⟩ | ⟨f, -, -, -, hreg⟩ | ⟨b, -, -, hreg⟩
  · rw [hreg]
    exact h.concat hname hfree rule
  -- a refused registration leaves the registry as it is
  all_goals
    rw [hreg]
    exact h

theorem deregister (h : Consistent r) (name : String) :
    Consistent (r.attempt (r.deregister name)).1 := by
  unfold Registry.deregister
  split
  · -- what is left is a part of what there was
    have hsub : ((r.entries.filter fun e => e.1 ≠ name).map Prod.fst).Sublist (r.entries.map Prod.fst) :=
      List.filter_sublist.map Prod.fst
    exact ⟨h.distinct.sublist hsub, fun hmem => h.named (hsub.subset hmem)⟩
  · exact h

/-- An entry-point is passed over or offered for registration. -/
theorem loadOne (h : Consistent r) (group : String) (e : EntryPoint) :
    Consistent (r.loadOne group e).registry := by
  unfold Registry.loadOne
  split
  · exact h
  · cases e.load with
    | error f => exact h
    | ok c =>
      have hreg := h.registerAs e.name c
      simp only
      cases hattempt : r.registerAs e.name c with
      | ok r' => rwa [hattempt] at hreg
      | error f => cases f <;> exact h

theorem load (h : Consistent r) (group : String) (es : List EntryPoint) :
    Consistent (r.load group es).registry := by
  induction es generalizing r with
  | nil => exact h
  | cons e es ih =>
    by_cases hgroup : e.group = group
    · cases hfault : (r.loadOne group e).fault with
      | some m =>
        rw [load_of_fault hgroup hfault]
        exact h.loadOne group e
      | none =>
        rw [registry_load_of_no_fault hgroup hfault]
        exact ih (h.loadOne group e)
    · rw [load_of_group_ne hgroup]
      exact ih h

/-- **The step.** Whatever is done, and whether it succeeds or not, the registry stays consistent. -/
theorem run (h : Consistent r) (step : Step) : Consistent (step.run r) := by
  cases step with
  | call c =>
    cases c with
    | register d => exact h.registerAs d.optionName d
    | registerAs name d => exact h.registerAs name d
    | deregister name => exact h.deregister name
    | load group es => exact h.load group es
  | copy name => exact ⟨h.distinct, h.named⟩

end Consistent

theorem consistent_origin (origin : Origin) : Consistent origin.registry := by
  cases origin with
  | empty name => exact ⟨List.nodup_nil, List.not_mem_nil⟩
  | builtin =>
    refine ⟨List.nodup_singleton Rule.capitalizedOption, ?_⟩
    show "" ∉ [Rule.capitalizedOption]
    decide

/-- **The run**, by induction on the steps. -/
theorem consistent_reached {r : Registry} (h : Consistent r) (steps : List Step) :
    Consistent (r.reached steps) := by
  induction steps generalizing r with
  | nil => exact h
  | cons step rest ih => exact ih (h.run step)

/-! ## Where the registered rules come from -/

theorem eq_of_mem_registration {r : Registry} {name n : String} {c : Candidate} {rule : Rule}
    (h : .added n rule ∈ r.registration name c) : c = .rule rule ∧ name = n := by
  unfold registration at h
  split at h
  · cases List.mem_singleton.mp h
    exact ⟨rfl, rfl⟩
  · exact absurd h List.not_mem_nil

theorem exists_of_mem_loadChanges {r : Registry} {group n : String} {rule : Rule} {es : List EntryPoint}
    (h : .added n rule ∈ r.loadChanges group es) :
    ∃ e ∈ es, e.group = group ∧ e.name = n ∧ e.load = .ok (.rule rule) := by
  induction es generalizing r with
  | nil => exact absurd h List.not_mem_nil
  | cons e es ih =>
    have hlater : ∀ r', .added n rule ∈ loadChanges r' group es →
        ∃ x ∈ e :: es, x.group = group ∧ x.name = n ∧ x.load = .ok (.rule rule) := fun r' hrest => by
      obtain ⟨x, hx, hfacts⟩ := ih hrest
      exact ⟨x, List.mem_cons_of_mem e hx, hfacts⟩
    rw [loadChanges] at h
    by_cases hgroup : e.group = group
    · rw [if_pos hgroup, List.mem_append] at h
      rcases h with hown | hrest
      · unfold entryChanges at hown
        cases hload : e.load with
        | error f =>
          rw [hload] at hown
          exact absurd hown List.not_mem_nil
        | ok c =>
          rw [hload] at hown
          obtain ⟨rfl, hname⟩ := eq_of_mem_registration hown
          exact ⟨e, List.mem_cons_self, hgroup, hname, hload⟩
      · cases hfault : (r.loadOne group e).fault with
        | some m =>
          rw [hfault] at hrest
          exact absurd hrest List.not_mem_nil
        | none =>
          rw [hfault] at hrest
          exact hlater _ hrest
    · rw [if_neg hgroup] at h
      exact hlater r h

/-- What a call adds was offered to it as a rule. -/
theorem offers_of_mem_changes {r : Registry} {call : Call} {n : String} {rule : Rule}
    (h : .added n rule ∈ call.changes r) : call.Offers n (.rule rule) := by
  cases call with
  | register c => exact eq_of_mem_registration h
  | registerAs name c => exact eq_of_mem_registration h
  | deregister name =>
    rw [Call.changes, deregistration] at h
    split at h
    · exact absurd (List.mem_singleton.mp h) (by simp)
    · exact absurd h List.not_mem_nil
  | load group es => exact exists_of_mem_loadChanges h

/-- A rule found after a step was there before, or was offered by the step as a rule. -/
theorem find?_step {r : Registry} {step : Step} {n : String} {rule : Rule}
    (h : (step.run r).find? n = some rule) : r.find? n = some rule ∨ step.Offers n (.rule rule) := by
  cases step with
  | copy name => exact Or.inl h
  | call call =>
    rw [show ((Step.call call).run r).find? = _ from find?_run r call, foldl_play] at h
    cases hlast : lastChange n (call.changes r) with
    | none =>
      rw [hlast] at h
      exact Or.inl h
    | some change =>
      -- the last change under the name has put the rule there
      rw [hlast] at h
      obtain ⟨hmem, hname⟩ := List.mem_filter.mp (List.mem_of_getLast? hlast)
      cases change with
      | removed k => exact absurd h (by simp)
      | added k added =>
        cases Option.some.inj h
        have hk : k = n := of_decide_eq_true hname
        subst hk
        exact Or.inr (offers_of_mem_changes hmem)

theorem find?_reached {r : Registry} {steps : List Step} {n : String} {rule : Rule}
    (h : (r.reached steps).find? n = some rule) :
    r.find? n = some rule ∨ ∃ step ∈ steps, step.Offers n (.rule rule) := by
  induction steps generalizing r with
  | nil => exact Or.inl h
  | cons step rest ih =>
    rcases ih h with hafter | ⟨later, hlater, hoffers⟩
    · rcases find?_step hafter with hbefore | hoffers
      · exact Or.inl hbefore
      · exact Or.inr ⟨step, List.mem_cons_self, hoffers⟩
    · exact Or.inr ⟨later, List.mem_cons_of_mem step hlater, hoffers⟩

/-! ## Ways of looking at a registry -/

/-- The code points of a text, by which names are ordered. -/
def codes (s : String) : List Nat := s.toList.map Char.toNat

theorem codes_lt_codes {a b : String} (h : a < b) : codes a < codes b :=
  List.map_lt (fun _ _ hlt => hlt) (String.lt_iff_toList_lt.mp h)

theorem pairwise_le_names (r : Registry) : r.names.Pairwise fun a b => a ≤ b := by
  have hordered : r.names.Pairwise fun a b => decide (a ≤ b) = true := by
    refine List.pairwise_mergeSort ?_ ?_ _
    · intro a b c hab hbc
      exact decide_eq_true (String.le_trans (of_decide_eq_true hab) (of_decide_eq_true hbc))
    · intro a b
      simpa using String.le_total a b
  exact hordered.imp fun h => of_decide_eq_true h

/-- Where the names are distinct, their listing increases strictly. -/
theorem pairwise_names {r : Registry} (h : Consistent r) :
    r.names.Pairwise fun a b => codes a < codes b := by
  have hdistinct : r.names.Pairwise fun a b => a ≠ b :=
    (List.mergeSort_perm _ _).nodup_iff.mpr h.distinct
  -- the sort gives the order, and distinct names make it strict
  refine ((pairwise_le_names r).and hdistinct).imp fun {a b} hab => codes_lt_codes ?_
  exact Std.lt_of_le_of_ne hab.1 hab.2

theorem mem_names_iff (r : Registry) (n : String) : n ∈ r.names ↔ r.find? n ≠ none := by
  rw [← mem_keys_iff]
  exact (List.mergeSort_perm _ _).mem_iff

theorem length_names (r : Registry) : r.names.length = r.size := by
  unfold names size
  rw [(List.mergeSort_perm _ _).length_eq, List.length_map]

end CommentStyle.Registry

namespace CommentStyle.Linter

open CommentStyle (Registry)

/-- A rule is unsupported exactly when nothing is registered under its name; what the rule itself refuses is
another fault. -/
theorem configure_eq_unsupported_iff (reg : Registry) (n : String) (v : Value) :
    configure reg n v = .error (.unsupported n) ↔ reg.find? n = none := by
  rw [(configure_decides reg (n, v)).eq_error_iff]
  constructor
  · intro hrefused
    cases hrefused with
    | unsupported hnone => exact hnone
    | incomplete _ hmissing hmake =>
      rw [make_of_missing hmissing] at hmake
      cases hmake
  · intro hnone
    exact Refused.unsupported (o := (n, v)) hnone

/-- A linter with one option that has a value is set up as the rule of its name is. -/
theorem ofOptions_singleton (reg : Registry) (n : String) {v : Value} (hv : v ≠ .null) :
    ofOptions reg (some [(n, v)]) = (configure reg n v).map fun rule => ⟨[rule]⟩ := by
  have hrules : rulesOf reg [(n, v)] = (configure reg n v).map fun rule => [rule] := by
    rw [rulesOf]
    · cases configure reg n v <;> rfl
    · exact hv
  unfold ofOptions
  rw [Option.getD_some, hrules]
  cases configure reg n v <;> rfl

theorem ofOptions_eq_unsupported_iff (reg : Registry) (n : String) {v : Value} (hv : v ≠ .null) :
    ofOptions reg (some [(n, v)]) = .error (.unsupported n) ↔ reg.find? n = none := by
  rw [ofOptions_singleton reg n hv, ← configure_eq_unsupported_iff reg n v]
  cases configure reg n v <;> simp [Except.map]

end CommentStyle.Linter

namespace CommentStyle.Registry

/-! ## The views agree -/

/-- **All ways of looking at a registry agree.** Start from an empty registry or from the built-in rules, and
do anything with it, registering, taking away, loading and copying, with success or without. Then every
registered name is non-empty and every registered rule was there from the start or was offered as a rule; the
listing increases strictly by code points; a name is in the listing exactly when the registry contains it,
when it gives a rule for it, and when a linter set up with any value for the name finds it supported; and the
size is the length of the listing. -/
theorem observers_agree (origin : Origin) (steps : List Step) :
    let r := origin.registry.reached steps
    (∀ n rule, r.find? n = some rule → n ≠ "" ∧
        (origin.registry.find? n = some rule ∨ ∃ step ∈ steps, step.Offers n (.rule rule))) ∧
      (r.names.Pairwise fun a b => codes a < codes b) ∧
      (∀ n, (n ∈ r.names ↔ r.contains n = true) ∧
        (n ∈ r.names ↔ ∃ rule, r.get n = .ok rule) ∧
        ∀ v, v ≠ .null →
          (n ∈ r.names ↔ Linter.ofOptions r (some [(n, v)]) ≠ .error (.unsupported n))) ∧
      r.size = r.names.length := by
  intro r
  have hconsistent : Consistent r := consistent_reached (consistent_origin origin) steps
  refine ⟨fun n rule hn => ⟨?_, find?_reached hn⟩, pairwise_names hconsistent, fun n => ⟨?_, ?_, ?_⟩,
    (length_names r).symm⟩
  · rintro rfl
    refine hconsistent.named ((mem_keys_iff r "").mpr ?_)
    rw [hn]
    exact Option.some_ne_none rule
  · rw [mem_names_iff, contains, Option.isSome_iff_ne_none]
  · rw [mem_names_iff, Option.ne_none_iff_exists']
    exact exists_congr fun rule => (get_eq_ok_iff r n rule).symm
  · intro v hv
    rw [mem_names_iff, Ne, Ne, Linter.ofOptions_eq_unsupported_iff r n hv]

end CommentStyle.Registry
