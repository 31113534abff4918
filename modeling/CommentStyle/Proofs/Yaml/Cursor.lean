import CommentStyle.Yaml.Cursor
import Mathlib.Data.List.TakeWhile

/-!
# Moving a cursor over a known text

The scanners of YAML move a cursor, and what they find is said by the text ahead. These lemmas say where a
cursor comes to when it passes over a known piece of text: along a line, over a line break, over blanks.

* **`skip_inline`** — a piece of one line moves the column by its length.
* **`span_append`** — a span takes a piece whole where something else follows.
* **`lineBreak?_of_isBreak`**, **`lineBreak?_eq_none`** — the break ahead, and that there is none.
* **`BeginsSeen`** — what may follow the blanks and breaks that a scanner passes over.
-/

namespace CommentStyle.Yaml

/-- A list is a row of elements with a property and something that begins otherwise. -/
theorem exists_span {α : Type} (p : α → Bool) (t : List α) :
    ∃ a b, t = a ++ b ∧ (∀ c ∈ a, p c = true) ∧ ∀ c ∈ b.head?, p c = false := by
  refine ⟨t.takeWhile p, t.dropWhile p, List.takeWhile_append_dropWhile.symm,
    fun c hc => List.mem_takeWhile_imp hc, fun c hc => ?_⟩
  have hhead := List.head?_dropWhile_not p t
  rw [Option.mem_def.mp hc] at hhead
  exact hhead

namespace Cursor

@[simp] theorem rest_next (c : Cursor) : c.next.rest = c.rest.tail := by
  unfold next
  split
  · next h => rw [h]; rfl
  · next ch rest h =>
    rw [h]
    split <;> rfl

@[simp] theorem rest_skip (c : Cursor) (n : Nat) : (c.skip n).rest = c.rest.drop n := by
  induction n generalizing c with
  | zero => rfl
  | succ n ih => rw [skip, ih, rest_next, List.drop_tail]

/-- Stays on its line and takes a column. -/
def isInline (ch : Char) : Bool := !isBreak ch && ch != '\uFEFF'

theorem next_inline {c : Cursor} {ch : Char} {x : List Char} (hc : c.rest = ch :: x)
    (hch : isInline ch = true) :
    c.next = { rest := x, index := c.index + 1, line := c.line, column := c.column + 1 } := by
  obtain ⟨hbreak, hmark⟩ : isBreak ch = false ∧ (ch == '\uFEFF') = false := by
    simpa [isInline] using hch
  simp only [next, hc, hbreak, hmark, Bool.false_and, Bool.false_eq_true, if_false]

/-- A piece of one line moves the column by its length. -/
theorem skip_inline {c : Cursor} {w x : List Char} (hc : c.rest = w ++ x)
    (hw : ∀ ch ∈ w, isInline ch = true) :
    c.skip w.length
      = { rest := x, index := c.index + w.length, line := c.line, column := c.column + w.length } := by
  induction w generalizing c with
  | nil => rw [← show c.rest = x from hc]; rfl
  | cons ch w ih =>
    have hstep := next_inline hc (hw ch List.mem_cons_self)
    have hrest := ih (c := c.next) (by rw [hstep]; rfl) fun d hd => hw d (List.mem_cons_of_mem ch hd)
    rw [List.length_cons, skip, hrest, hstep]
    simp only [mk.injEq, true_and]
    omega

/-- A span takes a piece whole where something else follows. -/
theorem span_append {c : Cursor} {p : Char → Bool} {w x : List Char} (hc : c.rest = w ++ x)
    (hw : ∀ ch ∈ w, p ch = true) (hx : ∀ ch ∈ x.head?, p ch = false) :
    c.span p = (w, c.skip w.length) := by
  have htake : c.rest.takeWhile p = w := by
    rw [hc, List.takeWhile_append_of_pos hw]
    cases x with
    | nil => simp
    | cons ch x => simp [hx ch rfl]
  rw [span, htake]

/-! ## Line breaks -/

/-- How a line break reads. -/
def readBreak (ch : Char) : Char := if ch = '\u2028' ∨ ch = '\u2029' then ch else '\n'

/-- Any line break but a carriage return, which may have company, is passed over by itself. -/
theorem lineBreak?_of_isBreak {c : Cursor} {ch : Char} {x : List Char} (hc : c.rest = ch :: x)
    (hbreak : isBreak ch = true) (hreturn : ch ≠ '\r') :
    c.lineBreak? =
      some (readBreak ch, { rest := x, index := c.index + 1, line := c.line + 1, column := 0 }) := by
  have hnext : c.next = { rest := x, index := c.index + 1, line := c.line + 1, column := 0 } := by
    simp [next, hc, hbreak, hreturn]
  have hnot : ∀ y, ch :: x ≠ '\r' :: y := fun y h => hreturn (List.cons.inj h).1
  rw [← hnext]
  unfold lineBreak?
  rw [hc]
  split
  · next h => exact absurd h (hnot _)
  · next h =>
    obtain ⟨rfl, -⟩ := List.cons.inj h
    by_cases hkept : ch = '\u2028' ∨ ch = '\u2029'
    · rw [if_pos (by simpa using hkept), readBreak, if_pos hkept]
    · rw [if_neg (by simpa using hkept), if_pos hbreak, readBreak, if_neg hkept]
  · next h => cases h

theorem lineBreak?_eq_none {c : Cursor} (h : ∀ ch ∈ c.rest.head?, isBreak ch = false) :
    c.lineBreak? = none := by
  unfold lineBreak?
  split
  · next hc =>
    rw [hc] at h
    exact absurd (h '\r' rfl) (by decide)
  · next ch x _ hc =>
    rw [hc] at h
    have hbreak := h ch rfl
    have hkept : (ch == '\u2028' || ch == '\u2029') = false := by
      rw [isBreak] at hbreak
      simp_all
    rw [hkept, hbreak]
    rfl
  · rfl

/-- A line that divides documents begins with one of its marks. -/
theorem divides_eq_false {c : Cursor} {mark : Char} (h : ∀ ch ∈ c.rest.head?, ch ≠ mark) :
    c.divides mark = false := by
  unfold divides
  split
  · next x y z rest hc =>
    have hx : (x == mark) = false := by simpa using h x (by rw [hc]; rfl)
    rw [hx]
    rfl
  · rfl

/-- The dash of an item divides nothing. -/
theorem divides_of_dash {c : Cursor} {y : List Char} (hc : c.rest = '-' :: ' ' :: y) (mark : Char) :
    c.divides mark = false := by
  rw [divides.eq_def, hc]
  cases y with
  | nil => rfl
  | cons z y =>
    by_cases hmark : mark = '-'
    · simp [hmark]
    · simp [Ne.symm hmark]

theorem atDivider_eq_false {c : Cursor} (h : ∀ ch ∈ c.rest.head?, ch ≠ '-' ∧ ch ≠ '.') :
    c.atDivider = false := by
  rw [atDivider, divides_eq_false fun ch hch => (h ch hch).1, divides_eq_false fun ch hch => (h ch hch).2]
  rfl

end Cursor

/-! ## Texts after white space -/

/-- The text begins with no white space, if it begins at all. -/
def BeginsSeen (x : List Char) : Prop := ∀ ch ∈ x.head?, isWhite ch = false

namespace BeginsSeen

variable {x : List Char}

theorem cons {ch : Char} (hch : isWhite ch = false) (x : List Char) : BeginsSeen (ch :: x) := fun _ h =>
  Option.some.inj h ▸ hch

theorem ne_blank (hx : BeginsSeen x) : ∀ ch ∈ x.head?, (ch == ' ') = false := by
  intro ch hch
  have hwhite := hx ch hch
  simp only [isWhite, Bool.or_eq_false_iff] at hwhite
  exact hwhite.1.1

theorem isSpace_eq_false (hx : BeginsSeen x) : ∀ ch ∈ x.head?, isSpace ch = false := by
  intro ch hch
  have hwhite := hx ch hch
  simp only [isWhite, Bool.or_eq_false_iff] at hwhite
  simp only [isSpace, hwhite.1, Bool.or_self]

theorem lineBreak?_eq_none (hx : BeginsSeen x) {c : Cursor} (hc : c.rest = x) : c.lineBreak? = none := by
  refine Cursor.lineBreak?_eq_none fun ch hch => ?_
  have hwhite := hx ch (hc ▸ hch)
  simp only [isWhite, Bool.or_eq_false_iff] at hwhite
  exact hwhite.2

end BeginsSeen

theorem isInline_of_mem_replicate {n : Nat} : ∀ c ∈ List.replicate n ' ', Cursor.isInline c = true := by
  intro c hc
  rw [List.eq_of_mem_replicate hc]
  rfl

/-- Blanks move a cursor along its line. -/
theorem skip_blanks {c : Cursor} {n : Nat} {x : List Char} (hc : c.rest = List.replicate n ' ' ++ x) :
    c.skip n = { rest := x, index := c.index + n, line := c.line, column := c.column + n } := by
  simpa using Cursor.skip_inline hc isInline_of_mem_replicate

theorem span_blanks {c : Cursor} {n : Nat} {x : List Char} (hc : c.rest = List.replicate n ' ' ++ x)
    (hx : ∀ ch ∈ x.head?, (ch == ' ') = false) :
    c.span (· == ' ') = (List.replicate n ' ', c.skip n) := by
  have h := Cursor.span_append (p := (· == ' ')) hc
    (fun ch hch => by simpa using List.eq_of_mem_replicate hch) hx
  simpa using h

end CommentStyle.Yaml
