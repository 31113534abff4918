import CommentStyle.Textblock
import Mathlib.Data.List.Chain
import Mathlib.Data.List.TakeWhile
import Mathlib.Data.String.Basic

/-!
# What decoration takes away

Decoration is dropped from a text wherever it stands, and the first character left decides how the text begins.
Nothing that matters is lost by this if no letter is decoration; and a character is told to be uppercase in
the same way by every function that asks if every uppercase letter is a letter. Both are facts about tables of code
points, which are too long to be compared range by range.

* **`has_iff`** — a table whose ranges begin in order has just the code points of its ranges.
* **`within`**, **`has_of_within`** — one table lies in another, found out in one walk along both.
* **`isLetter_of_isUppercase`**, **`isLetter_eq_false_of_isDecoration`** — the two facts.
* **`firstClass_eq_ofText`** — a text begins as the first character of what is left of it.
* **`stripDecoration_keeps_letters`** — the headline.
-/

namespace CommentStyle

/-! ## Tables of code points -/

namespace Text.CodePoints

/-- The ranges begin in increasing order. -/
def Ascends (points : CodePoints) : Prop := points.IsChain fun r s => r.1 ≤ s.1

instance (points : CodePoints) : Decidable points.Ascends :=
  inferInstanceAs (Decidable (List.IsChain _ points))

/-- The walk along a table misses no range, since it stops where all that is left begins too high. -/
theorem has_iff {points : CodePoints} (h : points.Ascends) (n : Nat) :
    points.has n = true ↔ ∃ r ∈ points, r.1 ≤ n ∧ n ≤ r.2 := by
  induction points with
  | nil => simp [has]
  | cons range rest ih =>
    have hlater : ∀ r ∈ rest, range.1 ≤ r.1 := by
      have htrans : IsTrans (Nat × Nat) fun r s => r.1 ≤ s.1 := ⟨fun _ _ _ => Nat.le_trans⟩
      exact (List.pairwise_cons.mp (List.isChain_iff_pairwise.mp h)).1
    have ih := ih (List.IsChain.tail h)
    simp only [has, List.mem_cons, or_and_right, exists_or, exists_eq_left]
    by_cases hbelow : n < range.1
    · rw [if_pos hbelow]
      constructor
      · exact fun hfalse => absurd hfalse Bool.false_ne_true
      · rintro (hrange | ⟨r, hr, hfirst, -⟩)
        · omega
        · have := hlater r hr
          omega
    · rw [if_neg hbelow, Bool.or_eq_true, decide_eq_true_iff, ih]
      have habove : range.1 ≤ n := Nat.le_of_not_lt hbelow
      simp [habove]

/-- Every range of the first table lies in one of the second, both going upwards. -/
def within (inner : CodePoints) : CodePoints → Bool
  | [] => inner.isEmpty
  | r :: rest => within (inner.dropWhile fun u => r.1 ≤ u.1 && u.2 ≤ r.2) rest

theorem exists_of_within {inner outer : CodePoints} (h : within inner outer = true) :
    ∀ u ∈ inner, ∃ r ∈ outer, r.1 ≤ u.1 ∧ u.2 ≤ r.2 := by
  induction outer generalizing inner with
  | nil =>
    rw [within, List.isEmpty_iff] at h
    simp [h]
  | cons r rest ih =>
    intro u hu
    -- the ranges that lie in the first one are dropped, and the others are looked for further on
    rw [← List.takeWhile_append_dropWhile (p := fun u => r.1 ≤ u.1 && u.2 ≤ r.2) (l := inner)] at hu
    rcases List.mem_append.mp hu with hhere | hlater
    · have hin := List.mem_takeWhile_imp hhere
      rw [Bool.and_eq_true, decide_eq_true_iff, decide_eq_true_iff] at hin
      exact ⟨r, List.mem_cons_self, hin⟩
    · obtain ⟨s, hs, hin⟩ := ih h u hlater
      exact ⟨s, List.mem_cons_of_mem r hs, hin⟩

theorem has_of_within {inner outer : CodePoints} (hinner : inner.Ascends) (houter : outer.Ascends)
    (h : within inner outer = true) {n : Nat} (hn : inner.has n = true) : outer.has n = true := by
  obtain ⟨u, hu, hfirst, hlast⟩ := (has_iff hinner n).mp hn
  obtain ⟨r, hr, hle, hge⟩ := exists_of_within h u hu
  exact (has_iff houter n).mpr ⟨r, hr, Nat.le_trans hle hfirst, Nat.le_trans hlast hge⟩

/-- No range of the first table meets one of the second. -/
def apart (points others : CodePoints) : Bool :=
  points.all fun r => others.all fun s => r.2 < s.1 || s.2 < r.1

theorem has_eq_false_of_apart {points others : CodePoints} (hpoints : points.Ascends) (hothers : others.Ascends)
    (h : apart points others = true) {n : Nat} (hn : points.has n = true) : others.has n = false := by
  rw [Bool.eq_false_iff]
  intro hother
  obtain ⟨r, hr, hr₁, hr₂⟩ := (has_iff hpoints n).mp hn
  obtain ⟨s, hs, hs₁, hs₂⟩ := (has_iff hothers n).mp hother
  have hseparate := List.all_eq_true.mp (List.all_eq_true.mp h r hr) s hs
  rw [Bool.or_eq_true, decide_eq_true_iff, decide_eq_true_iff] at hseparate
  omega

end Text.CodePoints

/-! ## Letters and decoration -/

open Text (letterPoints uppercasePoints)

theorem ascends_letterPoints : letterPoints.Ascends := by decide +kernel

/-- An uppercase letter is a letter. -/
theorem isLetter_of_isUppercase {c : Char} (h : isUppercase c = true) : isLetter c = true := by
  have hascends : uppercasePoints.Ascends := by decide +kernel
  exact Text.CodePoints.has_of_within hascends ascends_letterPoints (by decide +kernel) h

/-- The code points of decoration: the white space of scripts and the asterisk. The separators of ASCII and the
next-line character are not among them. -/
def decorationPoints : Text.CodePoints :=
  [(0x9, 0xD), (0x20, 0x20), (0x2A, 0x2A), (0xA0, 0xA0), (0x1680, 0x1680), (0x2000, 0x200A), (0x2028, 0x2029),
    (0x202F, 0x202F), (0x205F, 0x205F), (0x3000, 0x3000), (0xFEFF, 0xFEFF)]

theorem isDecoration_eq_hasChar (c : Char) : isDecoration c = decorationPoints.hasChar c := by
  have heq : ∀ d : Char, (c == d) = decide (c.toNat = d.toNat) := fun d => by
    rw [Bool.eq_iff_iff, beq_iff_eq, decide_eq_true_iff, Char.toNat_inj]
  have hle : ∀ d e : Char, decide (d ≤ e) = decide (d.toNat ≤ e.toNat) := fun _ _ => rfl
  rw [Bool.eq_iff_iff, Text.CodePoints.hasChar, Text.CodePoints.has_iff (by decide)]
  simp only [isDecoration, heq, hle, decorationPoints, Bool.or_eq_true, Bool.and_eq_true, decide_eq_true_iff,
    List.mem_cons, or_and_right, exists_or, exists_eq_left, List.not_mem_nil, or_false, Char.reduceToNat]
  omega

/-- No letter is decoration. -/
theorem isLetter_eq_false_of_isDecoration {c : Char} (h : isDecoration c = true) : isLetter c = false := by
  rw [isDecoration_eq_hasChar] at h
  exact Text.CodePoints.has_eq_false_of_apart (by decide) ascends_letterPoints (by decide +kernel) h

namespace LetterClass

theorem ofChar_eq_notLetter_iff (c : Char) : ofChar c = notLetter ↔ isLetter c = false := by
  unfold ofChar
  cases isLetter c <;> cases isUppercase c <;> simp

theorem ofChar_eq_uppercase_iff (c : Char) : ofChar c = uppercase ↔ isUppercase c = true := by
  constructor
  · unfold ofChar
    cases isLetter c <;> cases isUppercase c <;> simp
  · intro hupper
    simp [ofChar, isLetter_of_isUppercase hupper, hupper]

end LetterClass

/-! ## Texts without decoration -/

@[simp] theorem toList_stripDecoration (t : String) :
    (stripDecoration t).toList = t.toList.filter fun c => !isDecoration c := by
  rw [stripDecoration, String.toList_ofList]

theorem isDecoration_eq_false_of_mem {t : String} {c : Char} (hc : c ∈ (stripDecoration t).toList) :
    isDecoration c = false := by
  rw [toList_stripDecoration, List.mem_filter] at hc
  simpa using hc.2

theorem stripDecoration_stripDecoration (t : String) :
    stripDecoration (stripDecoration t) = stripDecoration t := by
  rw [← String.toList_inj, toList_stripDecoration (stripDecoration t), List.filter_eq_self]
  intro c hc
  rw [isDecoration_eq_false_of_mem hc, Bool.not_false]

theorem stripDecoration_append (a b : String) :
    stripDecoration (a ++ b) = stripDecoration a ++ stripDecoration b := by
  rw [← String.toList_inj, toList_stripDecoration, String.toList_append, String.toList_append,
    List.filter_append, toList_stripDecoration, toList_stripDecoration]

/-- The letters of a text stand in what is left of it, in their order. -/
theorem filter_isLetter_stripDecoration (t : String) :
    (stripDecoration t).toList.filter isLetter = t.toList.filter isLetter := by
  rw [toList_stripDecoration, List.filter_filter]
  refine List.filter_congr fun c _ => ?_
  cases hdecoration : isDecoration c with
  | false => simp
  | true => simp [isLetter_eq_false_of_isDecoration hdecoration]

/-! ## The first character -/

/-- A text begins with the first character that is no decoration. -/
theorem firstClass_of_toList {t : String} {before behind : List Char} {c : Char}
    (ht : t.toList = before ++ c :: behind) (hbefore : ∀ d ∈ before, isDecoration d = true)
    (hc : isDecoration c = false) : firstClass t = .ofChar c := by
  have hnone : before.find? (fun d => !isDecoration d) = none :=
    List.find?_eq_none.mpr fun d hd => by simp [hbefore d hd]
  rw [firstClass, ht, List.find?_append, hnone, Option.none_or, List.find?_cons_of_pos (by simp [hc])]

theorem firstClass_of_forall {t : String} (ht : ∀ c ∈ t.toList, isDecoration c = true) :
    firstClass t = .notLetter := by
  have hnone : t.toList.find? (fun d => !isDecoration d) = none :=
    List.find?_eq_none.mpr fun d hd => by simp [ht d hd]
  rw [firstClass, hnone]

/-- A text is all decoration, or has a first character that is none. -/
theorem forall_isDecoration_or_exists (t : List Char) :
    (∀ c ∈ t, isDecoration c = true) ∨ ∃ before c behind, t = before ++ c :: behind ∧
      (∀ d ∈ before, isDecoration d = true) ∧ isDecoration c = false := by
  cases hfind : t.find? fun c => !isDecoration c with
  | none =>
    left
    intro c hc
    simpa using List.find?_eq_none.mp hfind c hc
  | some c =>
    right
    obtain ⟨hc, before, behind, ht, hbefore⟩ := List.find?_eq_some_iff_append.mp hfind
    exact ⟨before, c, behind, ht, fun d hd => by simpa using hbefore d hd, by simpa using hc⟩

/-- To classify the first character of what is left comes to the same. -/
theorem firstClass_eq_ofText (t : String) :
    firstClass t = .ofText (String.ofList ((stripDecoration t).toList.take 1)) := by
  rw [LetterClass.ofText, String.toList_ofList, toList_stripDecoration]
  rcases forall_isDecoration_or_exists t.toList with hall | ⟨before, c, behind, ht, hbefore, hc⟩
  · rw [firstClass_of_forall hall, List.filter_eq_nil_iff.mpr fun c hc => by simp [hall c hc]]
    rfl
  · rw [firstClass_of_toList ht hbefore hc, ht, List.filter_append,
      List.filter_eq_nil_iff.mpr fun d hd => by simp [hbefore d hd], List.nil_append,
      List.filter_cons_of_pos (by simp [hc])]
    rfl

/-- **What is left of a text without its decoration.** It is all that is no decoration, in its order; nothing more
can be taken from it, and a text in two parts is taken apart part by part. No letter is lost. And how the text
begins can be told from what is left: as something that is no letter if nothing is, and else as the first
character left is classified, which agrees with the two questions whether that is uppercase and whether it is a
letter. -/
theorem stripDecoration_keeps_letters (t a b : String) :
    (∀ c ∈ (stripDecoration t).toList, isDecoration c = false) ∧
      (stripDecoration t).toList = t.toList.filter (fun c => !isDecoration c) ∧
      stripDecoration (stripDecoration t) = stripDecoration t ∧
      stripDecoration (a ++ b) = stripDecoration a ++ stripDecoration b ∧
      (stripDecoration t).toList.filter isLetter = t.toList.filter isLetter ∧
      firstClass t = .ofText (String.ofList ((stripDecoration t).toList.take 1)) ∧
      ((∀ c ∈ t.toList, isDecoration c = true) ∧ firstClass t = .notLetter ∨
        ∃ before c behind, t.toList = before ++ c :: behind ∧ (∀ d ∈ before, isDecoration d = true) ∧
          isDecoration c = false ∧ firstClass t = .ofChar c ∧
          (firstClass t = .uppercase ↔ isUppercase c = true) ∧
          (firstClass t = .notLetter ↔ isLetter c = false)) := by
  refine ⟨fun c hc => isDecoration_eq_false_of_mem hc, toList_stripDecoration t, stripDecoration_stripDecoration t,
    stripDecoration_append a b, filter_isLetter_stripDecoration t, firstClass_eq_ofText t, ?_⟩
  rcases forall_isDecoration_or_exists t.toList with hall | ⟨before, c, behind, ht, hbefore, hc⟩
  · exact .inl ⟨hall, firstClass_of_forall hall⟩
  · have hfirst := firstClass_of_toList ht hbefore hc
    refine .inr ⟨before, c, behind, ht, hbefore, hc, hfirst, ?_, ?_⟩
    · rw [hfirst, LetterClass.ofChar_eq_uppercase_iff]
    · rw [hfirst, LetterClass.ofChar_eq_notLetter_iff]

/-- A mark of the next line is no decoration, and so it hides the letter behind it. -/
example : firstClass "* \u0085a" = .notLetter ∧ firstClass "*\uFEFF a" = .lowercase := by decide +kernel

end CommentStyle
