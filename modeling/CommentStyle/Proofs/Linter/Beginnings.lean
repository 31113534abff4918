import CommentStyle.Proofs.Linter.Setup
import CommentStyle.Proofs.Textblock.Concatenation
import CommentStyle.Proofs.Textblock.Decoration
import Mathlib.Logic.Relation

/-!
# Only beginnings count

The capitalisation rule looks at where a comment stands and at how it begins, and at nothing else. So two files that
agree in these are linted alike, whatever the kinds of their comments and whatever their texts go on with. This
is a statement about two runs; they are followed side by side, one comment of each at a time.

* **`SameBeginning`** — two comments at one place that begin alike. **`step_eq_of_sameBeginning`** is the one
  step: they have the same violation and leave the same state behind. **`violations_eq_of_forall₂`** is the run.
* **`Linter.lint_congr`** — a linter whose rules report the same about two files gives the same result for both;
  **`Linter.eq_capitalized_of_ofOptions`** — the built-in rules are all the one rule, whatever the options.
* **`Edit`** — decoration is put in or taken out anywhere, or what stands behind a character that is no decoration
  is changed. **`Edit.firstClass_eq`**: the text begins as before.
* **`lint_of_same_beginnings`** — the headline.
-/

namespace CommentStyle

/-! ## Two scans side by side -/

/-- The comments stand at one place and begin alike. -/
def SameBeginning (c d : Comment) : Prop := c.location = d.location ∧ firstClass c.text = firstClass d.text

instance (c d : Comment) : Decidable (SameBeginning c d) := inferInstanceAs (Decidable (_ ∧ _))

namespace Textblock

theorem step_eq_of_sameBeginning (state : Textblock) {c d : Comment} (h : SameBeginning c d) :
    state.step c = state.step d := by
  obtain ⟨hplace, hfirst⟩ := h
  simp only [step, hplace, hfirst]

theorem violations_eq_of_forall₂ (state : Textblock) {cs ds : List Comment}
    (h : List.Forall₂ SameBeginning cs ds) : state.violations cs = state.violations ds := by
  induction h generalizing state with
  | nil => rfl
  | cons hcd _ ih => rw [violations, violations, step_eq_of_sameBeginning state hcd, ih]

end Textblock

theorem scan_eq_of_forall₂ {cs ds : List Comment} (h : List.Forall₂ SameBeginning cs ds) : scan cs = scan ds :=
  Textblock.violations_eq_of_forall₂ .unknown h

/-! ## Two runs of a linter -/

namespace Linter

/-- The comments reach the result through the reports of the rules only. -/
theorem lint_congr {l : Linter} {cs ds : List Comment} (h : ∀ r ∈ l.rules, r.check cs = r.check ds) :
    l.lint cs = l.lint ds := by
  have hgather : ∀ rules : List Rule, (∀ r ∈ rules, r.check cs = r.check ds) →
      gather cs rules = gather ds rules := by
    intro rules hrules
    induction rules with
    | nil => rfl
    | cons r rules ih =>
      obtain ⟨hr, hrest⟩ := List.forall_mem_cons.mp hrules
      simp only [gather, contribution, hr, ih hrest]
  rw [lint, lint, hgather l.rules h]

/-- Among the built-in rules there is no other. -/
theorem eq_capitalized_of_find? {name : String} {r : Rule} (h : Registry.builtin.find? name = some r) :
    r = .capitalized := by
  rw [Registry.find?, Registry.builtin, List.lookup_cons] at h
  split at h
  · exact (Option.some.inj h).symm
  · cases h

theorem eq_capitalized_of_ofOptions {options : Option Options} {l : Linter}
    (h : ofOptions .builtin options = .ok l) : ∀ r ∈ l.rules, r = .capitalized := by
  have hsome : ofOptions .builtin (some (options.getD (allOn .builtin))) = .ok l := h
  have hsets := ((ofOptions_decides .builtin _).eq_ok_iff l).mp hsome
  intro r hr
  obtain ⟨o, -, hset⟩ := exists_of_forall₂ hsets.flip hr
  exact eq_capitalized_of_find? hset.registered

end Linter

theorem lint_eq_of_forall₂ {cs ds : List Comment} (h : List.Forall₂ SameBeginning cs ds)
    (options : Option Options) : lint cs options = lint ds options := by
  unfold lint
  cases hsetup : Linter.ofOptions .builtin options with
  | error f => rfl
  | ok l =>
    have hsame : l.lint cs = l.lint ds := by
      refine Linter.lint_congr fun r hr => ?_
      rw [Linter.eq_capitalized_of_ofOptions hsetup r hr]
      show (scan cs, none) = (scan ds, none)
      rw [scan_eq_of_forall₂ h]
    simp only [hsame]

/-! ## Edits that keep the beginning -/

/-- One change to a text: a decoration character is put in or taken out, anywhere, or everything behind a character
that is no decoration is replaced. -/
inductive Edit : List Char → List Char → Prop
  | insert {d : Char} (hd : isDecoration d = true) (before behind : List Char) :
      Edit (before ++ behind) (before ++ d :: behind)
  | delete {d : Char} (hd : isDecoration d = true) (before behind : List Char) :
      Edit (before ++ d :: behind) (before ++ behind)
  | replace {c : Char} (hc : isDecoration c = false) (before behind behind' : List Char) :
      Edit (before ++ c :: behind) (before ++ c :: behind')

namespace Edit

/-- The first character that is no decoration stays the first. -/
theorem find?_eq {s t : List Char} (h : Edit s t) :
    s.find? (fun c => !isDecoration c) = t.find? fun c => !isDecoration c := by
  cases h with
  | insert hd before behind =>
    rw [List.find?_append, List.find?_append, List.find?_cons_of_neg (by simp [hd])]
  | delete hd before behind =>
    rw [List.find?_append, List.find?_append, List.find?_cons_of_neg (by simp [hd])]
  | replace hc before behind behind' =>
    -- it stands before the character, or is the character itself
    rw [List.find?_append, List.find?_append, List.find?_cons_of_pos (by simp [hc]),
      List.find?_cons_of_pos (by simp [hc])]

/-- After any number of edits a text begins as before. -/
theorem firstClass_eq {s t : String} (h : Relation.ReflTransGen Edit s.toList t.toList) :
    firstClass s = firstClass t := by
  have hfind : s.toList.find? (fun c => !isDecoration c) = t.toList.find? fun c => !isDecoration c := by
    generalize s.toList = before at h
    generalize t.toList = after at h
    induction h with
    | refl => rfl
    | tail _ hedit ih => rw [ih, hedit.find?_eq]
  rw [firstClass, firstClass, hfind]

end Edit

/-- The comments stand at one place, and the text of one becomes that of the other by edits. -/
def Reworded (c d : Comment) : Prop :=
  c.location = d.location ∧ Relation.ReflTransGen Edit c.text.toList d.text.toList

/-- **Only the first meaningful character of each comment matters.** Two files with as many comments, at the same
places and with the same beginnings one by one, are linted alike, whatever the options of the built-in rules, and
whatever the kinds of the comments and the rest of their texts. In particular decoration may be put in and taken
out at will, and texts may go on as they like behind a character that is none. -/
theorem lint_of_same_beginnings (options : Option Options) (cs ds : List Comment) :
    (List.Forall₂ SameBeginning cs ds → lint cs options = lint ds options) ∧
      (List.Forall₂ Reworded cs ds → lint cs options = lint ds options) := by
  refine ⟨fun h => lint_eq_of_forall₂ h options, fun h => lint_eq_of_forall₂ ?_ options⟩
  exact h.imp fun _ _ hcd => ⟨hcd.1, Edit.firstClass_eq hcd.2⟩

/-- A file and what becomes of it when decoration is taken out of one text and put into another, each of the two
texts is continued, and the kinds are exchanged. The first comment is flagged in both. -/
theorem lint_of_same_beginnings_edited :
    let cs : List Comment := [⟨"* a", ⟨.number 1, .number 0⟩, .block⟩, ⟨"Xy", ⟨.number 2, .flag true⟩, .line⟩]
    let ds : List Comment :=
      [⟨"a*B!", ⟨.number 1, .number 0⟩, .line⟩, ⟨"\uFEFFX", ⟨.number 2, .flag true⟩, .block⟩]
    List.Forall₂ SameBeginning cs ds ∧ List.Forall₂ Reworded cs ds ∧ scan ds ≠ [] ∧
      ∀ options, lint cs options = lint ds options := by
  intro cs ds
  have hsame : List.Forall₂ SameBeginning cs ds :=
    .cons (by decide +kernel) (.cons (by decide +kernel) .nil)
  have hfirst : Relation.ReflTransGen Edit "* a".toList "a*B!".toList :=
    .head (.delete (d := '*') (by decide) [] [' ', 'a']) <|
      .head (.delete (d := ' ') (by decide) [] ['a']) <|
        .single (.replace (c := 'a') (by decide) [] [] ['*', 'B', '!'])
  have hsecond : Relation.ReflTransGen Edit "Xy".toList "\uFEFFX".toList :=
    .head (.replace (c := 'X') (by decide) [] ['y'] []) <|
      .single (.insert (d := '\uFEFF') (by decide) [] ['X'])
  have hreworded : List.Forall₂ Reworded cs ds := .cons ⟨rfl, hfirst⟩ (.cons ⟨rfl, hsecond⟩ .nil)
  exact ⟨hsame, hreworded, by decide +kernel, fun options => (lint_of_same_beginnings options cs ds).2 hreworded⟩

end CommentStyle
