import CommentStyle.Proofs.Yaml.Tokens

/-!
# A text as the value of an entry

A text is written in one of three styles. Whichever it is, one token comes of it, and only characters that a
YAML text may hold are written.

* **`recovered`** — the text that is read back. It is the text itself, but for single quotes that hold a
  next-line character (`recovered_eq_self_iff`).
* **`reads_text`** — the token of a written text.
* **`all_text`** — the characters of a written text.
-/

namespace CommentStyle.Yaml

/-! ## What comes back -/

/-- The text that is read where a text was written. -/
def recovered (t : List Char) : List Char :=
  if !Writer.isPlain t && Writer.isSingleQuotable t then reread false t else t

/-- A text in single quotes loses its next-line characters; nothing else is lost. -/
theorem recovered_eq_self_iff (t : List Char) :
    recovered t = t ↔ ¬('\u0085' ∈ t ∧ Writer.isSingleQuotable t = true) := by
  unfold recovered
  by_cases hplain : Writer.isPlain t = true
  · have hnot : '\u0085' ∉ t := fun hmem => absurd ((plainly_of_isPlain hplain).chars _ hmem).1 (by decide)
    simp [hplain, hnot]
  · by_cases hsingle : Writer.isSingleQuotable t = true
    · simp [hplain, hsingle, reread_eq_self_iff]
    · simp [hsingle]

/-! ## Its token -/

theorem isWhite_of_writer {c : Char} (hc : Writer.isWhite c = false) : isWhite c = false := by
  simp only [Writer.isWhite, Writer.isBreak, Bool.or_eq_false_iff] at hc
  simp [isWhite, isBreak, hc]

theorem startsPlain_of_isPlain {t : List Char} (ht : Writer.isPlain t = true) (column : Nat) (x : List Char) :
    Lexer.StartsPlain (Writer.plain column false t ++ x) := by
  have hplainly := plainly_of_isPlain ht
  obtain ⟨c, rest, rfl, hblank, -⟩ := hplainly.begins
  have hc : (c == ' ') = false := by simpa using hblank
  have hwhite := hplainly.beginsSeen c rfl
  simp only [Writer.isPlain, Writer.plainHead, Bool.and_eq_true, Bool.not_eq_true'] at ht
  obtain ⟨⟨⟨⟨⟨⟨⟨⟨hhead, hindicator⟩, -⟩, -⟩, -⟩, -⟩, -⟩, -⟩, -⟩ := ht
  have hwrite : Writer.plain column false (c :: rest) = c :: Writer.plain (column + 1) false rest := by
    rw [Writer.plain]
    simp [hc]
  refine ⟨c, Writer.plain (column + 1) false rest ++ x, by rw [hwrite]; rfl, hwhite, hhead, fun hmark => ?_⟩
  -- an indicator is followed by a character that stays where it is
  have hseen : Writer.whiteOrEnd rest.head? = false := by
    rcases hmark with rfl | rfl | rfl <;> simpa using hindicator
  cases rest with
  | nil => cases hseen
  | cons d rest =>
    have hd : Writer.isWhite d = false := hseen
    have hd' : (d == ' ') = false := by
      have hne : d ≠ ' ' := by
        rintro rfl
        cases hd
      simpa using hne
    rw [Writer.plain]
    simpa [hd', whiteOrEnd] using isWhite_of_writer hd

/-- **The token of a written text.** A line follows it that begins no deeper than its block. -/
theorem reads_text {p : Stance} {column k : Nat} {blocks : List Nat} {t x : List Char} {ts : List Token}
    (hskip : Lexer.Skips p ⟨Writer.text k t ++ '\n' :: x, column, blocks, false⟩) (hcolumn : column ≠ 0)
    (hindent : Lexer.indentOf blocks < column) (hmargin : Lexer.indentOf blocks < Writer.margin)
    (hzero : 0 ≤ Lexer.indentOf blocks) (hx : Lexer.BeginsToken x)
    (hdivider : ∀ d : Cursor, d.rest = x → d.atDivider = false)
    (h : ∀ p, Lexer.Skips p ⟨x, 0, blocks, true⟩ → Lexer.Reads p ts) :
    Lexer.Reads p (.scalar (recovered t) (Writer.isPlain t) :: ts) := by
  -- behind a quoted text the line still has to end
  have hquoted : ∀ column, Lexer.Reads ⟨'\n' :: x, column, blocks, false⟩ ts := fun column =>
    h _ (Lexer.Skips.line 0 hx column blocks false)
  rw [Writer.text] at hskip
  unfold recovered
  by_cases hplain : Writer.isPlain t = true
  · rw [if_pos hplain] at hskip
    rw [hplain]
    have hstarts := startsPlain_of_isPlain hplain k ('\n' :: x)
    exact Lexer.reads_plain (n := 0) (plainly_of_isPlain hplain) hskip hcolumn hindent hstarts
      (fun _ => hmargin) hzero hx.1 hdivider (h _ (Lexer.Skips.blanks 0 hx 0 blocks true))
  · rw [if_neg hplain] at hskip
    rw [Bool.not_eq_true] at hplain
    rw [hplain]
    by_cases hsingle : Writer.isSingleQuotable t = true
    · rw [if_pos hsingle, List.cons_append, List.cons_append, List.append_assoc] at hskip
      rw [hsingle]
      simp only [Writer.isSingleQuotable, Bool.and_eq_true, Bool.not_eq_true', List.any_eq_false,
        Bool.not_eq_true] at hsingle
      have hquotes : Quotes false (Writer.single (k + 1) .opening t ++ '\x27' :: '\n' :: x) (reread false t)
          ('\n' :: x) := quotes_single hsingle.1 hsingle.2 (k + 1) (by decide) (by simp)
      refine Lexer.reads_quoted ?_ hcolumn hindent hquotes ?_ hquoted
      · exact hskip
      · simp only [List.length_append, List.length_cons]
        omega
    · rw [if_neg hsingle, List.cons_append, List.cons_append, List.append_assoc] at hskip
      rw [Bool.not_eq_true] at hsingle
      rw [hsingle]
      have hquotes := quotes_double t ('\n' :: x) 0 (k + 1) true false
      refine Lexer.reads_quoted ?_ hcolumn hindent hquotes ?_ hquoted
      · exact hskip
      · simp only [List.length_append, List.length_cons]
        omega

theorem beginsToken_text (k : Nat) (t x : List Char) : Lexer.BeginsToken (Writer.text k t ++ x) := by
  unfold Writer.text
  split
  · next hplain => exact (startsPlain_of_isPlain hplain k x).beginsToken
  · split <;> exact ⟨.cons (by decide) _, by simp⟩

/-! ## Its characters -/

theorem isAllowed_of_not_isSpecial {c : Char} (hc : Writer.isSpecial c = false) : isAllowed c = true := by
  by_cases hfeed : c = '\n'
  · rw [hfeed]
    decide
  · simp only [Writer.isSpecial, Bool.or_eq_false_iff, Bool.not_eq_false', Bool.or_eq_true, Bool.and_eq_true,
      beq_iff_eq, decide_eq_true_eq, hfeed, false_or] at hc
    simp only [isAllowed, Bool.or_eq_true, Bool.and_eq_true, beq_iff_eq, decide_eq_true_eq]
    omega

theorem isAllowed_of_isOrdinary {c : Char} (hc : Writer.isOrdinary c = true) : isAllowed c = true := by
  simp only [Writer.isOrdinary, Bool.or_eq_true, Bool.and_eq_true, decide_eq_true_eq] at hc
  simp only [isAllowed, Bool.or_eq_true, Bool.and_eq_true, beq_iff_eq, decide_eq_true_eq]
  omega

theorem isAllowed_of_toNat {c : Char} (hlow : 0x20 ≤ c.toNat) (hhigh : c.toNat ≤ 0x7E) :
    isAllowed c = true := by
  simp only [isAllowed, Bool.or_eq_true, Bool.and_eq_true, beq_iff_eq, decide_eq_true_eq]
  omega

theorem isAllowed_of_isHexDigit {c : Char} (hc : Scalar.isHexDigit c = true) : isAllowed c = true := by
  simp only [Scalar.isHexDigit, Bool.or_eq_true, Bool.and_eq_true, decide_eq_true_eq] at hc
  rcases hc with (⟨hlow, hhigh⟩ | ⟨hlow, hhigh⟩) | ⟨hlow, hhigh⟩ <;>
  · have hlow : _ ≤ c.toNat := UInt32.le_iff_toNat_le.mp hlow
    have hhigh : c.toNat ≤ _ := UInt32.le_iff_toNat_le.mp hhigh
    exact isAllowed_of_toNat (le_trans (by decide) hlow) (le_trans hhigh (by decide))

@[simp] theorem all_newLine : Writer.newLine.all isAllowed = true := by decide

/-- Folding adds line feeds and blanks only. -/
theorem all_plain {t : List Char} (ht : t.all isAllowed = true) (column : Nat) (afterBlank : Bool) :
    (Writer.plain column afterBlank t).all isAllowed = true := by
  induction t generalizing column afterBlank with
  | nil => rfl
  | cons d t ih =>
    rw [List.all_cons, Bool.and_eq_true] at ht
    rw [Writer.plain]
    split
    · rw [List.all_append, all_newLine, ih ht.2]
      rfl
    · rw [List.all_cons, ht.1, ih ht.2]
      rfl

theorem all_single {t : List Char} (ht : t.all isAllowed = true) (column : Nat) (before : Writer.Before) :
    (Writer.single column before t).all isAllowed = true := by
  have hmargin : (List.replicate Writer.margin ' ').all isAllowed = true := by decide
  have hfeed : isAllowed '\n' = true := by decide
  induction t generalizing column before with
  | nil =>
    rw [Writer.single]
    split
    · exact hmargin
    · rfl
  | cons d t ih =>
    rw [List.all_cons, Bool.and_eq_true] at ht
    rw [Writer.single]
    simp only
    split_ifs <;> simp only [List.all_append, List.all_cons, List.all_nil, hmargin, hfeed, ht.1, ih ht.2,
      all_newLine, Bool.and_self]

theorem all_upperHex {width n : Nat} (hn : n < Nat.pow 16 width) (hwidth : 0 < width) :
    (Writer.upperHex width n).all isAllowed = true := by
  have hdigits := (upperHex_read hn hwidth).2.1
  rw [List.all_eq_true] at hdigits ⊢
  exact fun c hc => isAllowed_of_isHexDigit (hdigits c hc)

theorem all_escape (ch : Char) : (Writer.escape ch).all isAllowed = true := by
  obtain ⟨hslash, hx, hu, hU⟩ : isAllowed '\\' = true ∧ isAllowed 'x' = true ∧ isAllowed 'u' = true ∧
      isAllowed 'U' = true := by decide
  unfold Writer.escape
  split
  · next letter hletter =>
    have hletters : ∀ e ∈ Writer.escapeLetters, isAllowed e.2 = true := by decide
    rw [List.all_cons, List.all_cons, hslash, hletters _ (mem_escapeLetters hletter)]
    rfl
  · split_ifs with hsmall hmiddle
    · rw [List.all_cons, List.all_cons, hslash, hx, all_upperHex (by rw [Nat.pow_eq]; omega) (by decide)]
      rfl
    · rw [List.all_cons, List.all_cons, hslash, hu, all_upperHex (by rw [Nat.pow_eq]; omega) (by decide)]
      rfl
    · have hvalid : ch.toNat < 0xD800 ∨ 0xDFFF < ch.toNat ∧ ch.toNat < 0x110000 := ch.valid
      rw [List.all_cons, List.all_cons, hslash, hU, all_upperHex (by rw [Nat.pow_eq]; omega) (by decide)]
      rfl

theorem all_splitLine (next : Option Char) : (Writer.splitLine next).1.all isAllowed = true := by
  unfold Writer.splitLine
  split <;> decide

theorem all_double (t : List Char) (column : Nat) (first afterEscape : Bool) :
    (Writer.double column first afterEscape t).all isAllowed = true := by
  induction t generalizing column first afterEscape with
  | nil => rfl
  | cons d t ih =>
    rw [Writer.double]
    simp only
    by_cases hordinary : Writer.isOrdinary d = true
    · have hd := isAllowed_of_isOrdinary hordinary
      rw [if_pos hordinary]
      split <;> simp only [List.all_append, List.all_cons, hd, ih, all_splitLine, Bool.and_self]
    · rw [if_neg hordinary]
      split <;> simp only [List.all_append, all_escape, ih, all_splitLine, Bool.and_self]

/-- Only characters that a YAML text may hold are written. -/
theorem all_text (column : Nat) (t : List Char) : (Writer.text column t).all isAllowed = true := by
  unfold Writer.text
  split
  · next hplain =>
    have hchars : t.all isAllowed = true := List.all_eq_true.mpr fun c hc =>
      isAllowed_of_not_isSpecial ((plainly_of_isPlain hplain).chars c hc).2
    exact all_plain hchars _ _
  · have hquotes : isAllowed '\x27' = true ∧ isAllowed '"' = true := by decide
    split
    · next hsingle =>
      simp only [Writer.isSingleQuotable, Bool.and_eq_true, Bool.not_eq_true', List.any_eq_false,
        Bool.not_eq_true] at hsingle
      have hchars : t.all isAllowed = true := List.all_eq_true.mpr fun c hc =>
        isAllowed_of_not_isSpecial (hsingle.1 c hc)
      simp only [List.all_cons, List.all_append, all_single hchars, hquotes, List.all_nil, Bool.and_self]
    · simp only [List.all_cons, List.all_append, all_double, hquotes, List.all_nil, Bool.and_self]

end CommentStyle.Yaml
