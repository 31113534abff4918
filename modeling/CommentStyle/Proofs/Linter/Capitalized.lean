import CommentStyle.Proofs.Linter.Run
import CommentStyle.Proofs.Textblock.Concatenation
import Mathlib.Data.List.TakeWhile

/-!
# Linting with the capitalisation rule

The built-in rule reports what a scan finds, and a run passes this on: it looks the rule up, sets it up, stamps
its findings and sorts them. This module follows the findings all the way from the comments to the result.

* **`lint_capitalized`** — the run as a whole: the stamped findings of the scan, sorted.
* **`map_location_violations_sublist`** — a scan finds places of the comments, in the order of the comments; so
  where these are in order there is nothing to sort (**`sorted_of_pairwise`**).
* **`lint_capitalized_sorts_scan`** — the first headline, from these.
* **`scan_eq_nil_iff`** — a scan finds nothing exactly when every comment that begins with a lowercase letter
  follows directly on one that begins with a letter. One half looks one step back into the history of a textblock;
  the other is an induction along the comments.
* **`scan_run_uppercase`**, **`scan_run_notLetter`** — a run of lowercase beginnings, however long, is excused
  or flagged as a whole by the comment in front of it.
* **`lint_capitalized_clean_iff`** — the second headline.
-/

namespace CommentStyle

/-- The options that turn the capitalisation rule on. -/
def capitalizedOn : Options := [(Rule.capitalizedOption, .bool true)]

/-- A finding with the stamp of the capitalisation rule. -/
def capitalizedDiagnostic (f : Finding) : Diagnostic where
  severity := .error
  code := "CMT001"
  message := f.message
  location := f.location
  rule := "requireCapitalizedComments"

/-- **The run as a whole.** -/
theorem lint_capitalized (cs : List Comment) :
    lint cs (some capitalizedOn) = .ok (Linter.sorted ((scan cs).map capitalizedDiagnostic)) := by
  have hsetup : Linter.ofOptions .builtin (some capitalizedOn) = .ok ⟨[.capitalized]⟩ := rfl
  have hown : Linter.Contributes cs .capitalized ((scan cs).map capitalizedDiagnostic) := .findings rfl rfl rfl
  have hlint : Linter.lint ⟨[.capitalized]⟩ cs = _ := Linter.lint_of_gather (.cons hown .nil)
  simp only [lint, hsetup, hlint, List.flatten_cons, List.flatten_nil, List.append_nil]

/-! ## Findings in the order of the comments -/

namespace Textblock

/-- A scan takes the places of its violations from the comments, in their order and none twice. -/
theorem map_location_violations_sublist (state : Textblock) (cs : List Comment) :
    ((state.violations cs).map Finding.location).Sublist (cs.map Comment.location) := by
  induction cs generalizing state with
  | nil => exact List.Sublist.slnil
  | cons c cs ih =>
    rw [violations_cons, List.map_append, List.map_cons]
    split
    · exact (ih _).cons_cons c.location
    · exact (ih _).cons c.location

end Textblock

/-- What is in the order of its places already is left as it is. -/
theorem Linter.sorted_of_pairwise {ds : List Diagnostic}
    (h : ds.Pairwise fun a b => a.location.key ≤ b.location.key) : Linter.sorted ds = ds :=
  List.mergeSort_of_pairwise (h.imp fun hab => (Position.precedes_iff_key_le _ _).mpr hab)

theorem Linter.sorted_eq_nil_iff (ds : List Diagnostic) : Linter.sorted ds = [] ↔ ds = [] := by
  rw [← List.length_eq_zero_iff, (Linter.sorted_perm ds).length_eq, List.length_eq_zero_iff]

theorem pairwise_diagnostics {cs : List Comment}
    (h : cs.Pairwise fun a b => a.location.key ≤ b.location.key) :
    ((scan cs).map capitalizedDiagnostic).Pairwise fun a b => a.location.key ≤ b.location.key := by
  -- the places of the findings are a selection of those of the comments, and so in order as well
  have hplaces : (cs.map Comment.location).Pairwise fun p q => p.key ≤ q.key := List.pairwise_map.mpr h
  have hfindings := hplaces.sublist (Textblock.map_location_violations_sublist .unknown cs)
  rw [List.pairwise_map] at hfindings ⊢
  exact hfindings

/-- **What the capitalisation rule comes to in a run.** For all comments the result is the findings of the scan,
each stamped as an error with the rule's code and option name, sorted by line and column, with findings of one
place in the order of the scan. If the comments stand in the order of their places, repeated and unknown ones
included, nothing is moved at all. -/
theorem lint_capitalized_sorts_scan (cs : List Comment) :
    (∃ ds, lint cs (some capitalizedOn) = .ok ds ∧
        ds.Perm ((scan cs).map capitalizedDiagnostic) ∧
        ds.Pairwise (fun a b => a.location.key ≤ b.location.key) ∧
        ∀ k, ds.filter (fun d => d.location.key = k)
          = ((scan cs).map capitalizedDiagnostic).filter fun d => d.location.key = k) ∧
      ((cs.Pairwise fun a b => a.location.key ≤ b.location.key) →
        lint cs (some capitalizedOn) = .ok ((scan cs).map capitalizedDiagnostic)) := by
  refine ⟨⟨_, lint_capitalized cs, Linter.sorted_perm _, Linter.pairwise_sorted _, Linter.filter_sorted _⟩,
    fun hordered => ?_⟩
  rw [lint_capitalized, Linter.sorted_of_pairwise (pairwise_diagnostics hordered)]

/-- Four comments at places that do not decrease: two are unknown, of two the line is a truth value, and three
are flagged. -/
theorem lint_capitalized_sorts_scan_with_ties :
    let cs : List Comment := [⟨"b", .unknown, .line⟩, ⟨"* a", ⟨.flag false, .number 0⟩, .block⟩,
      ⟨"", .unknown, .line⟩, ⟨"一", ⟨.flag true, .number (-3)⟩, .line⟩]
    (cs.Pairwise fun a b => a.location.key ≤ b.location.key) ∧
      lint cs (some capitalizedOn) = .ok ([Position.unknown, ⟨.flag false, .number 0⟩,
        ⟨.flag true, .number (-3)⟩].map fun p => capitalizedDiagnostic ⟨capitalizationMessage, p⟩) := by
  intro cs
  have hprecedes : cs.Pairwise fun a b => a.location.precedes b.location = true := by decide
  have hordered : cs.Pairwise fun a b => a.location.key ≤ b.location.key :=
    hprecedes.imp fun h => (Position.precedes_iff_key_le _ _).mp h
  have hscan : scan cs = [Position.unknown, ⟨.flag false, .number 0⟩, ⟨.flag true, .number (-3)⟩].map
      (⟨capitalizationMessage, ·⟩) := by
    decide +kernel
  refine ⟨hordered, ?_⟩
  rw [(lint_capitalized_sorts_scan cs).2 hordered, hscan, List.map_map]
  rfl

/-! ## Clean files -/

namespace Textblock

theorem scan_eq_nil_iff_not_flagged (cs : List Comment) : scan cs = [] ↔ ∀ i, ¬ Flagged cs i := by
  have hscan : scan cs = (cs.zipIdx.filter fun p => Flagged cs p.2).map fun p => violation p.1 :=
    violations_after [] cs
  rw [hscan, List.map_eq_nil_iff, List.filter_eq_nil_iff]
  constructor
  · intro hnone i hflagged
    obtain ⟨c, hc, -⟩ := Option.map_eq_some_iff.mp hflagged.1
    exact hnone (c, i) (List.mk_mem_zipIdx_iff_getElem?.mpr hc) (decide_eq_true hflagged)
  · intro hnone p _ hflagged
    exact hnone p.2 (of_decide_eq_true hflagged)

/-- In front of a comment there is one that begins with a letter, if it does not begin with anything else. -/
theorem letter_of_ne_notLetter {cs : List Comment} {i : Nat} {later : LetterClass}
    (hlater : classAt cs (i + 1) = some later) (hne : classAt cs i ≠ some .notLetter) :
    classAt cs i = some .lowercase ∨ classAt cs i = some .uppercase := by
  obtain ⟨c, hc, -⟩ := Option.map_eq_some_iff.mp hlater
  obtain ⟨hlt, -⟩ := List.getElem?_eq_some_iff.mp hc
  have hthere : classAt cs i = some (firstClass (cs[i]).text) := by
    rw [classAt, List.getElem?_eq_getElem (by omega), Option.map_some]
  rw [hthere] at hne ⊢
  cases hclass : firstClass (cs[i]).text with
  | notLetter => exact absurd (congrArg some hclass) hne
  | lowercase => exact Or.inl rfl
  | uppercase => exact Or.inr rfl

/-- **A scan finds nothing exactly when every comment with a lowercase beginning follows directly on one that
begins with a letter.** -/
theorem scan_eq_nil_iff (cs : List Comment) :
    scan cs = [] ↔ ∀ i, classAt cs i = some .lowercase →
      ∃ j, i = j + 1 ∧ (classAt cs j = some .lowercase ∨ classAt cs j = some .uppercase) := by
  rw [scan_eq_nil_iff_not_flagged]
  constructor
  · intro hnone i hlower
    have hblock : InTextblock cs i := by
      by_contra houtside
      exact hnone i ⟨hlower, houtside⟩
    cases i with
    | zero =>
      obtain ⟨j, hj, -⟩ := hblock
      exact absurd hj (Nat.not_lt_zero j)
    | succ j =>
      refine ⟨j, rfl, ?_⟩
      rcases (inTextblock_succ_iff cs j).mp hblock with hupper | ⟨hletter, -⟩
      · exact Or.inr hupper
      · exact letter_of_ne_notLetter hlower hletter
  · intro hlocal
    -- every lowercase beginning lies in a textblock: its predecessor opens one, or lies in one itself
    have hblock : ∀ i, classAt cs i = some .lowercase → InTextblock cs i := by
      intro i
      induction i with
      | zero =>
        intro hlower
        obtain ⟨j, hj, -⟩ := hlocal 0 hlower
        omega
      | succ i ih =>
        intro hlower
        obtain ⟨j, hj, hletter⟩ := hlocal (i + 1) hlower
        obtain rfl : i = j := by omega
        rw [inTextblock_succ_iff]
        rcases hletter with hlower | hupper
        · exact Or.inr ⟨by simp [hlower], ih hlower⟩
        · exact Or.inl hupper
    exact fun i hflagged => hflagged.2 (hblock i hflagged.1)

/-! ## Long runs of lowercase beginnings -/

theorem violations_opened_run {run : List Comment} (hrun : ∀ c ∈ run, firstClass c.text = .lowercase) :
    opened.violations run = [] := by
  rw [violations_opened, List.dropWhile_eq_nil_iff.mpr fun c hc => by simp [hrun c hc]]
  rfl

theorem violations_closed_run {run : List Comment} (hrun : ∀ c ∈ run, firstClass c.text = .lowercase) :
    closed.violations run = run.map violation := by
  induction run with
  | nil => rfl
  | cons c run ih =>
    obtain ⟨hc, hrun⟩ := List.forall_mem_cons.mp hrun
    rw [violations_cons, hc]
    -- a flagged comment opens nothing, so that the next is met in the same state
    show [violation c] ++ closed.violations run = violation c :: run.map violation
    rw [ih hrun, List.singleton_append]

/-- Behind an uppercase beginning the whole run is excused. -/
theorem scan_run_uppercase (cs : List Comment) {u : Comment} {run : List Comment}
    (hu : firstClass u.text = .uppercase) (hrun : ∀ c ∈ run, firstClass c.text = .lowercase) :
    scan (cs ++ u :: run) = scan cs := by
  show unknown.violations (cs ++ u :: run) = unknown.violations cs
  rw [violations_append, violations_cons, hu]
  show unknown.violations cs ++ ([] ++ opened.violations run) = unknown.violations cs
  rw [violations_opened_run hrun, List.append_nil, List.append_nil]

/-- Behind a beginning that is no letter the whole run is flagged. -/
theorem scan_run_notLetter (cs : List Comment) {v : Comment} {run : List Comment}
    (hv : firstClass v.text = .notLetter) (hrun : ∀ c ∈ run, firstClass c.text = .lowercase) :
    scan (cs ++ v :: run) = scan cs ++ run.map violation := by
  show unknown.violations (cs ++ v :: run) = unknown.violations cs ++ run.map violation
  rw [violations_append, violations_cons, hv]
  show unknown.violations cs ++ ([] ++ closed.violations run) = unknown.violations cs ++ run.map violation
  rw [violations_closed_run hrun, List.nil_append]

end Textblock

open Textblock (classAt violation)

/-- **A clean file is one in which every comment that begins with a lowercase letter follows directly on one that
begins with a letter.** What is flagged in a file that is not clean cannot be told from neighbours: however long a
run of lowercase beginnings, the comment in front of it decides whether all of it is flagged or none. -/
theorem lint_capitalized_clean_iff (cs : List Comment) :
    (lint cs (some capitalizedOn) = .ok [] ↔
        ∀ i, classAt cs i = some .lowercase →
          ∃ j, i = j + 1 ∧ (classAt cs j = some .lowercase ∨ classAt cs j = some .uppercase)) ∧
      ∀ {u v : Comment} {run : List Comment}, firstClass u.text = .uppercase → firstClass v.text = .notLetter →
        (∀ c ∈ run, firstClass c.text = .lowercase) →
          scan (cs ++ u :: run) = scan cs ∧ scan (cs ++ v :: run) = scan cs ++ run.map violation := by
  refine ⟨?_, fun hu hv hrun => ⟨Textblock.scan_run_uppercase cs hu hrun,
    Textblock.scan_run_notLetter cs hv hrun⟩⟩
  rw [← Textblock.scan_eq_nil_iff, lint_capitalized, Except.ok.injEq, Linter.sorted_eq_nil_iff, List.map_eq_nil_iff]

/-- The same run of lowercase beginnings behind an uppercase one and behind a number, in a file that is not clean
before either. -/
theorem lint_capitalized_clean_iff_long_run :
    let cs : List Comment := [⟨"x", .unknown, .line⟩]
    let u : Comment := ⟨"** Über", .unknown, .block⟩
    let v : Comment := ⟨"1", .unknown, .line⟩
    let run : List Comment := [⟨"y", .unknown, .line⟩, ⟨"一", .unknown, .line⟩, ⟨" z", .unknown, .line⟩]
    firstClass u.text = .uppercase ∧ firstClass v.text = .notLetter ∧
      (∀ c ∈ run, firstClass c.text = .lowercase) ∧
      scan (cs ++ u :: run) = scan cs ∧ scan (cs ++ v :: run) = scan cs ++ run.map violation ∧
      lint cs (some capitalizedOn) ≠ .ok [] := by
  intro cs u v run
  have hu : firstClass u.text = .uppercase := by decide +kernel
  have hv : firstClass v.text = .notLetter := by decide +kernel
  have hrun : ∀ c ∈ run, firstClass c.text = .lowercase := by decide +kernel
  obtain ⟨hclean, hlong⟩ := lint_capitalized_clean_iff cs
  obtain ⟨huppercase, hnotLetter⟩ := hlong hu hv hrun
  refine ⟨hu, hv, hrun, huppercase, hnotLetter, fun hnone => ?_⟩
  obtain ⟨j, hj, -⟩ := hclean.mp hnone 0 (by decide +kernel)
  omega

end CommentStyle
