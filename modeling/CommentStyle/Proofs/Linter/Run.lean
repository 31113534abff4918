import CommentStyle.Linter
import CommentStyle.Proofs.Outcome
import Mathlib.Data.Prod.Lex

/-!
# What a lint run returns

A run goes through the rules in order, gathers what each contributes, and sorts the whole by place. This
module says what comes out, for every list of rules and every sequence of comments:

* **`Contributes cs r ds`** — what one rule adds, said without the linter's own functions: its findings
  with its name, code and severity on them, or a single internal error if its check failed.
* **`Breaks cs r b`** — a rule that the run does not get past, for want of a name or a code, or because its check
  failed and the failure has no text. **`contribution_decides`** — each rule contributes or breaks the run off.
* **`gather_decides`** — the run over the rules, by induction on their list: it strings the contributions
  together in the order of the rules, or ends where the first of them breaks it off (**`FirstBreak`**).
* **`pairwise_sortedBy`**, **`filter_key_sortedBy`** — the sort orders by line and column and leaves what has
  one place in its order; **`sorted_perm`**: it loses and invents nothing.
* **`lint_sorts_contributions`** — the headline, put together from these.
-/

namespace CommentStyle

/-! ## The order of places -/

/-- Line and column as numbers, the line counting first. -/
def Position.key (p : Position) : ℤ ×ₗ ℤ := toLex (p.line.toInt, p.column.toInt)

theorem Position.precedes_iff_key_le (p q : Position) : p.precedes q = true ↔ p.key ≤ q.key := by
  unfold Position.key
  rw [Position.precedes_iff, Prod.Lex.toLex_le_toLex]

namespace Linter

/-! ## What one rule contributes -/

/-- What a rule adds to a run over the comments, if it has an option name and a code. A failed check
contributes one internal error at the unknown place, with the text of the failure; whatever it had reported
before is dropped. -/
inductive Contributes (cs : List Comment) (r : Rule) : List Diagnostic → Prop where
  | findings {name code : String} {fs : List Finding}
      (hname : r.optionName = some name) (hcode : r.code = some code)
      (hcheck : r.check cs = (fs, none)) :
      Contributes cs r (fs.map fun f =>
        { severity := r.severity, code := code, message := f.message, location := f.location,
          rule := name })
  | internalError {name code text : String} {fs : List Finding} {failure : Failure}
      (hname : r.optionName = some name) (hcode : r.code = some code)
      (hcheck : r.check cs = (fs, some failure)) (htext : failure.text = .ok text) :
      Contributes cs r
        [{ severity := .error, code := "CMT999",
           message := "Internal linter error in rule " ++ Text.quoted name ++ ": " ++ text,
           location := ⟨.number 0, .number 0⟩, rule := name }]

/-- What a run ends with at a rule that it does not get past. -/
inductive Breaks (cs : List Comment) (r : Rule) : Breach → Prop where
  | unnamed (hname : r.optionName = none) :
      Breaks cs r (.lacking { rule := r.name, lacking := "option_name" })
  | uncoded {name : String} (hname : r.optionName = some name) (hcode : r.code = none) :
      Breaks cs r (.lacking { rule := r.name, lacking := "code" })
  | untold {name code : String} {fs : List Finding} {failure raised : Failure}
      (hname : r.optionName = some name) (hcode : r.code = some code)
      (hcheck : r.check cs = (fs, some failure)) (htext : failure.text = .error raised) :
      Breaks cs r (.failed raised)

/-- The rule has no option name or no code. -/
def Lacking (r : Rule) : Prop := r.optionName = none ∨ r.code = none

/-- The check fails, and to ask the failure for its text fails too. -/
def Untold (cs : List Comment) (r : Rule) : Prop :=
  ∃ fs failure raised, r.check cs = (fs, some failure) ∧ failure.text = .error raised

theorem stamp_of_some {r : Rule} {name code : String} (hname : r.optionName = some name)
    (hcode : r.code = some code) : r.stamp = .ok ⟨name, code, r.severity⟩ := by
  simp only [Rule.stamp, Rule.requiredName, hname, hcode]
  rfl

theorem contribution_of_contributes {cs : List Comment} {r : Rule} {ds : List Diagnostic}
    (h : Contributes cs r ds) : contribution cs r = .ok ds := by
  cases h with
  | findings hname hcode hcheck =>
    simp only [contribution, stamp_of_some hname hcode, hcheck, stamped, Collector.diagnostics_foldl_add]
    rfl
  | internalError hname hcode hcheck htext =>
    simp only [contribution, stamp_of_some hname hcode, hcheck, stamped, htext]
    rfl

theorem contribution_of_breaks {cs : List Comment} {r : Rule} {b : Breach} (h : Breaks cs r b) :
    contribution cs r = .error b := by
  cases h with
  | unnamed hname =>
    simp only [contribution, Rule.stamp, Rule.requiredName, hname]
    rfl
  | uncoded hname hcode =>
    simp only [contribution, Rule.stamp, Rule.requiredName, hname, hcode]
    rfl
  | untold hname hcode hcheck htext =>
    simp only [contribution, stamp_of_some hname hcode, hcheck, stamped, htext]
    rfl

/-- **One rule contributes or breaks the run off.** -/
theorem contribution_decides (cs : List Comment) (r : Rule) :
    Decides (contribution cs r) (Contributes cs r) (Breaks cs r) := by
  refine .of_total (fun _ => contribution_of_contributes) (fun _ => contribution_of_breaks) ?_
  cases hname : r.optionName with
  | none => exact .inr ⟨_, .unnamed hname⟩
  | some name =>
    cases hcode : r.code with
    | none => exact .inr ⟨_, .uncoded hname hcode⟩
    | some code =>
      rcases hcheck : r.check cs with ⟨fs, _ | failure⟩
      · exact .inl ⟨_, .findings hname hcode hcheck⟩
      · cases htext : failure.text with
        | ok text => exact .inl ⟨_, .internalError hname hcode hcheck htext⟩
        | error raised => exact .inr ⟨_, .untold hname hcode hcheck htext⟩

theorem exists_breaks_iff {cs : List Comment} {r : Rule} :
    (∃ b, Breaks cs r b) ↔ Lacking r ∨ Untold cs r := by
  constructor
  · rintro ⟨b, h⟩
    cases h with
    | unnamed hname => exact .inl (.inl hname)
    | uncoded _ hcode => exact .inl (.inr hcode)
    | untold _ _ hcheck htext => exact .inr ⟨_, _, _, hcheck, htext⟩
  · intro h
    rcases (contribution_decides cs r).total with ⟨ds, hds⟩ | hbreaks
    · -- a rule that contributes has a name, a code and a text for its failure
      rcases h with (hname | hcode) | ⟨fs, failure, raised, hcheck, htext⟩
      · cases hds <;> simp_all
      · cases hds <;> simp_all
      · cases hds <;> simp_all
    · exact hbreaks

/-! ## The run over the rules -/

/-- The first rule that does not contribute breaks the run off. -/
def FirstBreak (cs : List Comment) (rs : List Rule) (b : Breach) : Prop :=
  ∃ before r after, rs = before ++ r :: after ∧ (∀ q ∈ before, ¬ Lacking q ∧ ¬ Untold cs q) ∧ Breaks cs r b

theorem not_lacking_and_not_untold_iff {cs : List Comment} {r : Rule} :
    ¬ Lacking r ∧ ¬ Untold cs r ↔ ∃ ds, Contributes cs r ds := by
  rw [← not_or, ← exists_breaks_iff]
  have hdecides := contribution_decides cs r
  constructor
  · exact fun hnone => hdecides.total.resolve_right hnone
  · rintro ⟨ds, hds⟩ ⟨b, hb⟩
    have hok := contribution_of_contributes hds
    rw [contribution_of_breaks hb] at hok
    cases hok

theorem firstBreak_cons_iff {cs : List Comment} {r : Rule} {rs : List Rule} {b : Breach} :
    FirstBreak cs (r :: rs) b ↔
      Breaks cs r b ∨ (∃ ds, Contributes cs r ds) ∧ FirstBreak cs rs b := by
  rw [← not_lacking_and_not_untold_iff]
  constructor
  · rintro ⟨before, q, after, heq, hbefore, hq⟩
    cases before with
    | nil =>
      obtain ⟨rfl, rfl⟩ := List.cons.inj heq
      exact .inl hq
    | cons first before =>
      obtain ⟨rfl, rfl⟩ := List.cons.inj heq
      obtain ⟨hfirst, hbefore⟩ := List.forall_mem_cons.mp hbefore
      exact .inr ⟨hfirst, before, q, after, rfl, hbefore, hq⟩
  · rintro (hr | ⟨hr, before, q, after, rfl, hbefore, hq⟩)
    · exact ⟨[], r, rs, rfl, by simp, hr⟩
    · exact ⟨r :: before, q, after, rfl, List.forall_mem_cons.mpr ⟨hr, hbefore⟩, hq⟩

/-- A run strings the contributions together, in the order of the rules. -/
theorem gather_of_contributes {cs : List Comment} {rs : List Rule} {blocks : List (List Diagnostic)}
    (hblocks : List.Forall₂ (Contributes cs) rs blocks) : gather cs rs = .ok blocks.flatten := by
  induction hblocks with
  | nil => rfl
  | cons hblock _ ih => rw [gather, contribution_of_contributes hblock, ih, List.flatten_cons]

/-- **The run over the rules** comes to all their contributions, or ends where the first rule breaks it off. -/
theorem gather_decides (cs : List Comment) (rs : List Rule) :
    Decides (gather cs rs) (fun ds => ∃ blocks, List.Forall₂ (Contributes cs) rs blocks ∧ ds = blocks.flatten)
      (FirstBreak cs rs) := by
  refine .of_total ?_ (fun b hb => ?_) ?_
  · rintro ds ⟨blocks, hblocks, rfl⟩
    exact gather_of_contributes hblocks
  · induction rs with
    | nil =>
      obtain ⟨before, r, after, heq, -⟩ := hb
      simp at heq
    | cons r rs ih =>
      rcases firstBreak_cons_iff.mp hb with hr | ⟨⟨ds, hds⟩, hrest⟩
      · rw [gather, contribution_of_breaks hr]
      · rw [gather, contribution_of_contributes hds, ih hrest]
  · induction rs with
    | nil => exact .inl ⟨_, [], .nil, rfl⟩
    | cons r rs ih =>
      rcases (contribution_decides cs r).total with ⟨block, hblock⟩ | ⟨b, hb⟩
      · rcases ih with ⟨_, blocks, hblocks, -⟩ | ⟨b, hb⟩
        · exact .inl ⟨_, block :: blocks, .cons hblock hblocks, rfl⟩
        · exact .inr ⟨b, firstBreak_cons_iff.mpr (.inr ⟨⟨block, hblock⟩, hb⟩)⟩
      · exact .inr ⟨b, firstBreak_cons_iff.mpr (.inl hb)⟩

/-- If no rule breaks the run off, each contributes something. -/
theorem exists_contributes {cs : List Comment} {rs : List Rule}
    (hrs : ∀ r ∈ rs, ¬ Lacking r ∧ ¬ Untold cs r) : ∃ blocks, List.Forall₂ (Contributes cs) rs blocks := by
  rcases (gather_decides cs rs).total with ⟨_, blocks, hblocks, -⟩ | ⟨b, before, r, after, rfl, -, hr⟩
  · exact ⟨blocks, hblocks⟩
  · exact absurd (exists_breaks_iff.mp ⟨b, hr⟩) (not_or.mpr (hrs r (by simp)))

theorem exists_firstBreak_iff {cs : List Comment} {rs : List Rule} :
    (∃ b, FirstBreak cs rs b) ↔ ∃ r ∈ rs, Lacking r ∨ Untold cs r := by
  constructor
  · rintro ⟨b, before, r, after, rfl, -, hr⟩
    exact ⟨r, by simp, exists_breaks_iff.mp ⟨b, hr⟩⟩
  · rintro ⟨r, hr, hbreaks⟩
    refine (gather_decides cs rs).total.resolve_left ?_
    rintro ⟨_, blocks, hblocks, -⟩
    obtain ⟨ds, -, hds⟩ := exists_of_forall₂ hblocks hr
    exact not_or.mpr (not_lacking_and_not_untold_iff.mpr ⟨ds, hds⟩) hbreaks

/-! ## The sort

The sort reads nothing of a diagnostic but its place, so that its laws hold of anything that has a place. -/

section ByPlace

variable {α : Type} (place : α → Position)

/-- By place; what has the same place keeps its order. -/
def sortedBy (xs : List α) : List α := xs.mergeSort fun a b => (place a).precedes (place b)

theorem pairwise_sortedBy (xs : List α) :
    (sortedBy place xs).Pairwise fun a b => (place a).key ≤ (place b).key := by
  have hprecedes : (sortedBy place xs).Pairwise fun a b => (place a).precedes (place b) = true := by
    refine List.pairwise_mergeSort ?_ ?_ xs
    · exact fun a b c => Position.precedes_trans (place a) (place b) (place c)
    · exact fun a b => Position.precedes_total (place a) (place b)
  exact hprecedes.imp fun h => (Position.precedes_iff_key_le _ _).mp h

/-- A selection that is in order already comes out of the sort in that order. -/
theorem sublist_sortedBy {ys xs : List α} (hordered : ys.Pairwise fun a b => (place a).key ≤ (place b).key)
    (hsub : ys.Sublist xs) : ys.Sublist (sortedBy place xs) := by
  refine List.sublist_mergeSort ?_ ?_ (hordered.imp fun h => ?_) hsub
  · exact fun a b c => Position.precedes_trans (place a) (place b) (place c)
  · exact fun a b => Position.precedes_total (place a) (place b)
  · exact (Position.precedes_iff_key_le _ _).mpr h

/-- What has one place keeps its order: it is in order already, so it is a sublist of the result, and there is
as much of it there. -/
theorem filter_key_sortedBy (xs : List α) (k : ℤ ×ₗ ℤ) :
    (sortedBy place xs).filter (fun a => (place a).key = k) = xs.filter fun a => (place a).key = k := by
  have hordered : (xs.filter fun a => (place a).key = k).Pairwise
      fun a b => (place a).key ≤ (place b).key := by
    rw [List.pairwise_filter]
    refine List.pairwise_of_forall fun a b ha hb => ?_
    rw [of_decide_eq_true ha, of_decide_eq_true hb]
  have hsub := (sublist_sortedBy place hordered List.filter_sublist).filter fun a => (place a).key = k
  rw [List.filter_filter] at hsub
  simp only [Bool.and_self] at hsub
  have hlength := ((List.mergeSort_perm xs fun a b => (place a).precedes (place b)).filter
    fun a => (place a).key = k).length_eq
  exact (hsub.eq_of_length hlength.symm).symm

end ByPlace

theorem sorted_perm (ds : List Diagnostic) : (sorted ds).Perm ds :=
  List.mergeSort_perm ds _

theorem pairwise_sorted (ds : List Diagnostic) :
    (sorted ds).Pairwise fun a b => a.location.key ≤ b.location.key :=
  pairwise_sortedBy Diagnostic.location ds

theorem filter_sorted (ds : List Diagnostic) (k : ℤ ×ₗ ℤ) :
    (sorted ds).filter (fun d => d.location.key = k) = ds.filter fun d => d.location.key = k :=
  filter_key_sortedBy Diagnostic.location ds k

/-! ## The run as a whole -/

theorem lint_eq_error_iff (l : Linter) (cs : List Comment) (b : Breach) :
    l.lint cs = .error b ↔ FirstBreak cs l.rules b := by
  rw [← (gather_decides cs l.rules).eq_error_iff, lint]
  cases gather cs l.rules with
  | error b' => simp [Except.map]
  | ok ds => simp [Except.map]

theorem lint_of_gather {l : Linter} {cs : List Comment} {blocks : List (List Diagnostic)}
    (hblocks : List.Forall₂ (Contributes cs) l.rules blocks) : l.lint cs = .ok (sorted blocks.flatten) := by
  rw [lint, gather_of_contributes hblocks]
  rfl

/-- **What a run returns.** It breaks off exactly when some rule lacks its option name or its code, or fails in
a way that cannot be told, and then it ends as the first of these makes it end. Otherwise its result is ordered
by line and column, holds exactly the contributions of the rules, and keeps those of one place in the order of
the run. -/
theorem lint_sorts_contributions (l : Linter) (cs : List Comment) :
    ((∃ b, l.lint cs = .error b) ↔ ∃ r ∈ l.rules, Lacking r ∨ Untold cs r) ∧
      (∀ b, l.lint cs = .error b ↔ FirstBreak cs l.rules b) ∧
      ((∀ r ∈ l.rules, ¬ Lacking r ∧ ¬ Untold cs r) →
        ∃ ds blocks, l.lint cs = .ok ds ∧ List.Forall₂ (Contributes cs) l.rules blocks
          ∧ ds.Pairwise (fun a b => a.location.key ≤ b.location.key)
          ∧ ds.Perm blocks.flatten
          ∧ ∀ k, ds.filter (fun d => d.location.key = k)
              = blocks.flatten.filter fun d => d.location.key = k) := by
  have herror := lint_eq_error_iff l cs
  refine ⟨?_, herror, fun hrules => ?_⟩
  · rw [← exists_firstBreak_iff]
    exact exists_congr herror
  · obtain ⟨blocks, hblocks⟩ := exists_contributes hrules
    exact ⟨sorted blocks.flatten, blocks, lint_of_gather hblocks, hblocks, pairwise_sorted _, sorted_perm _,
      filter_sorted _⟩

/-- Two rules of which the first fails after it has reported, on comments whose places are out of order and
partly truth values. -/
theorem lint_sorts_contributions_of_failed_check :
    let l : Linter := ⟨[{ Rule.capitalized with check := fun cs => (scan cs, some (.lookup "key")) },
      .capitalized]⟩
    let cs : List Comment :=
      [⟨"b", ⟨.number 2, .flag true⟩, .line⟩, ⟨"a", ⟨.flag true, .number (-3)⟩, .block⟩]
    (∀ r ∈ l.rules, ¬ Lacking r ∧ ¬ Untold cs r) ∧
      ∃ ds blocks, l.lint cs = .ok ds ∧ List.Forall₂ (Contributes cs) l.rules blocks
        ∧ ds.Pairwise (fun a b => a.location.key ≤ b.location.key)
        ∧ ds.Perm blocks.flatten
        ∧ ∀ k, ds.filter (fun d => d.location.key = k)
            = blocks.flatten.filter fun d => d.location.key = k := by
  intro l cs
  have hrules : ∀ r ∈ l.rules, ¬ Lacking r ∧ ¬ Untold cs r := by
    simp [l, Lacking, Untold, Rule.capitalized, Failure.text]
  exact ⟨hrules, (lint_sorts_contributions l cs).2.2 hrules⟩

/-- A rule whose check reports and then fails by looking up a number that is too long to be written. -/
def lookingUpLongNumber : Rule :=
  { Rule.capitalized with
    check := fun cs => (scan cs, some (.mute "KeyError" (.other "ValueError" NumberFault.tooLong.message))) }

/-- A rule that has all it needs can break the run off nevertheless, so that not even the rules before it are
heard. -/
theorem lint_breaks_off_untold :
    let l : Linter := ⟨[.capitalized, lookingUpLongNumber]⟩
    let cs : List Comment := [⟨"b", ⟨.number 2, .number 0⟩, .line⟩]
    (∀ r ∈ l.rules, ¬ Lacking r) ∧
      l.lint cs = .error (.failed (.other "ValueError" NumberFault.tooLong.message)) := by
  intro l cs
  have hcomplete : ∀ r ∈ l.rules, ¬ Lacking r := by
    simp [l, Lacking, lookingUpLongNumber, Rule.capitalized]
  exact ⟨hcomplete, rfl⟩

end Linter

end CommentStyle
