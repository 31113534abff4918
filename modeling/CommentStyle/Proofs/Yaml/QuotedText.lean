import CommentStyle.Proofs.Number.Numeral
import CommentStyle.Proofs.Yaml.PlainText

/-!
# Quoted texts read back

What stands between quotes is read piece by piece: a character, a doubled quote, a row of blanks, a row of
line breaks with the margin behind it, an escape. **`Quotes`** says of a text that it reads as another one up
to the closing quote, and has a lemma for each piece; both writers are then taken apart into these pieces.

* **`quotes_single`** — what is written in single quotes comes back as **`reread`** says: the next-line
  character is a line break to the reader, and reads as a line feed or a blank, or is lost. All else stays.
* **`reread_eq_self_iff`** — so a text comes back unless it holds that character.
* **`ofDigits_hex`**, **`escape_write`** — what is written as an escape is read as the character again.
* **`quotes_double`** — what is written in double quotes comes back.
-/

namespace CommentStyle.Yaml

open Cursor (readBreak)

/-- Behind the opening quote the text reads as `text`, and `rest` follows the closing one. -/
def Quotes (double : Bool) (written text rest : List Char) : Prop :=
  ∀ fuel (c : Cursor), c.rest = written → written.length < fuel →
    ∃ c', Scalar.quoted double fuel c = .ok (text, c') ∧ c'.rest = rest

/-! ## Pieces -/

theorem isBreak_of_writer {b : Char} (hb : Writer.isBreak b = true) :
    isBreak b = true ∧ b ≠ '\r' ∧ isSpace b = false ∧ b ≠ '-' ∧ b ≠ '.' := by
  simp only [Writer.isBreak, Bool.or_eq_true, beq_iff_eq] at hb
  rcases hb with ((rfl | rfl) | rfl) | rfl <;> decide

/-- Line breaks and the margin behind them are passed over, and the breaks are noted. -/
theorem quotedBreaks_margin {bs x : List Char} (hbs : ∀ b ∈ bs, Writer.isBreak b = true) (hx : BeginsSeen x)
    (fuel : Nat) {c : Cursor} (hc : c.rest = bs ++ (List.replicate Writer.margin ' ' ++ x))
    (hfuel : bs.length < fuel) :
    ∃ c', Scalar.quotedBreaks fuel c = .ok (bs.map readBreak, c') ∧ c'.rest = x := by
  induction bs generalizing fuel c with
  | nil =>
    -- only the margin is left
    rw [List.nil_append] at hc
    have hdivider : c.atDivider = false :=
      Cursor.atDivider_eq_false (by rw [hc]; simp [Writer.margin, List.replicate_succ])
    have hspan : c.span isSpace = (List.replicate Writer.margin ' ', c.skip Writer.margin) := by
      have h := Cursor.span_append (p := isSpace) hc
        (fun ch hch => by rw [List.eq_of_mem_replicate hch]; rfl) hx.isSpace_eq_false
      simpa using h
    have hrest : (c.skip Writer.margin).rest = x := by rw [skip_blanks hc]
    refine ⟨c.skip Writer.margin, ?_, hrest⟩
    cases fuel with
    | zero => exact absurd hfuel (by simp)
    | succ fuel =>
      rw [Scalar.quotedBreaks, hdivider]
      simp only [Cursor.skipWhile, hspan, hx.lineBreak?_eq_none hrest, Bool.false_eq_true, if_false]
      rfl
  | cons b bs ih =>
    obtain ⟨hbreak, hreturn, hspace, hmark⟩ := isBreak_of_writer (hbs b List.mem_cons_self)
    rw [List.cons_append] at hc
    have hdivider : c.atDivider = false := Cursor.atDivider_eq_false (by rw [hc]; simpa using hmark)
    have hspan : c.span isSpace = ([], c) :=
      Cursor.span_append (w := []) (p := isSpace) hc (by simp) (by simpa using hspace)
    cases fuel with
    | zero => omega
    | succ fuel =>
      obtain ⟨c', hbreaks, hrest⟩ := ih (fun d hd => hbs d (List.mem_cons_of_mem b hd)) fuel
        (c := ⟨bs ++ (List.replicate Writer.margin ' ' ++ x), c.index + 1, c.line + 1, 0⟩) rfl
        (Nat.lt_of_succ_lt_succ hfuel)
      refine ⟨c', ?_, hrest⟩
      rw [Scalar.quotedBreaks, hdivider]
      simp only [Cursor.skipWhile, hspan, Cursor.lineBreak?_of_isBreak hc hbreak hreturn,
        Bool.false_eq_true, if_false, hbreaks]
      rfl

namespace Quotes

variable {double : Bool} {y more rest : List Char}

/-- It is enough to look at one turn of the reader. -/
theorem of_turn {written text : List Char}
    (h : ∀ fuel (c : Cursor), c.rest = written → written.length ≤ fuel →
      ∃ c', Scalar.quoted double (fuel + 1) c = .ok (text, c') ∧ c'.rest = rest) :
    Quotes double written text rest := by
  intro fuel c hc hfuel
  cases fuel with
  | zero => omega
  | succ fuel => exact h fuel c hc (Nat.le_of_lt_succ hfuel)

theorem close_single (hrest : rest.head? ≠ some '\x27') : Quotes false ('\x27' :: rest) [] rest := by
  refine of_turn fun fuel c hc _ => ⟨c.next, ?_, by rw [Cursor.rest_next, hc]; rfl⟩
  have hhead : (rest.head? == some '\x27') = false := by simpa using hrest
  rw [Scalar.quoted, hc]
  simp [isWhite, isBreak, hhead, pure, Except.pure]

theorem close_double : Quotes true ('"' :: rest) [] rest := by
  refine of_turn fun fuel c hc _ => ⟨c.next, ?_, by rw [Cursor.rest_next, hc]; rfl⟩
  rw [Scalar.quoted, hc]
  simp [isWhite, isBreak, pure, Except.pure]

theorem char {ch : Char} (hwhite : isWhite ch = false) (hsingle : double = false → ch ≠ '\x27')
    (hdouble : double = true → ch ≠ '"' ∧ ch ≠ '\\') (h : Quotes double y more rest) :
    Quotes double (ch :: y) (ch :: more) rest := by
  refine of_turn fun fuel c hc hfuel => ?_
  obtain ⟨c', hquoted, hrest⟩ := h fuel c.next (by rw [Cursor.rest_next, hc]; rfl) hfuel
  refine ⟨c', ?_, hrest⟩
  have hkind : (double && ch == '"') = false ∧ (double && ch == '\\') = false ∧
      (!double && ch == '\x27') = false := by
    cases double with
    | false => simpa using hsingle rfl
    | true => simpa using hdouble rfl
  rw [Scalar.quoted, hc]
  simp only [hwhite, hkind.1, hkind.2.1, hkind.2.2, Bool.false_eq_true, if_false, hquoted]
  rfl

theorem doubledQuote (h : Quotes false y more rest) :
    Quotes false ('\x27' :: '\x27' :: y) ('\x27' :: more) rest := by
  refine of_turn fun fuel c hc hfuel => ?_
  obtain ⟨c', hquoted, hrest⟩ := h fuel (c.skip 2) (by rw [Cursor.rest_skip, hc]; rfl)
    (by simp at hfuel; omega)
  refine ⟨c', ?_, hrest⟩
  rw [Scalar.quoted, hc]
  simp [isWhite, isBreak, hquoted, bind, Except.bind, pure, Except.pure]

theorem blanks {k : Nat} (hy : BeginsSeen y) (h : Quotes double y more rest) :
    Quotes double (List.replicate (k + 1) ' ' ++ y) (List.replicate (k + 1) ' ' ++ more) rest := by
  refine of_turn fun fuel c hc hfuel => ?_
  have hafter : (c.skip (k + 1)).rest = y := by rw [skip_blanks hc]
  have hspan : c.span isSpace = (List.replicate (k + 1) ' ', c.skip (k + 1)) := by
    have h := Cursor.span_append (p := isSpace) hc
      (fun ch hch => by rw [List.eq_of_mem_replicate hch]; rfl) hy.isSpace_eq_false
    simpa using h
  obtain ⟨c', hquoted, hrest⟩ := h fuel (c.skip (k + 1)) hafter (by simp at hfuel; omega)
  refine ⟨c', ?_, hrest⟩
  have hcons : c.rest = ' ' :: (List.replicate k ' ' ++ y) := hc
  have hwhite : isWhite ' ' = true := rfl
  rw [Scalar.quoted, hcons]
  simp only [hwhite, if_true, hspan, hy.lineBreak?_eq_none hafter, hquoted]
  rfl

/-- Line breaks are read with the margin behind them, and the first of them folds. -/
theorem breaks {b : Char} {bs : List Char} (hb : Writer.isBreak b = true)
    (hbs : ∀ b ∈ bs, Writer.isBreak b = true) (hy : BeginsSeen y) (h : Quotes double y more rest) :
    Quotes double (b :: (bs ++ (List.replicate Writer.margin ' ' ++ y)))
      (Scalar.folded (readBreak b) (bs.map readBreak) ++ more) rest := by
  refine of_turn fun fuel c hc hfuel => ?_
  obtain ⟨hbreak, hreturn, hspace, -⟩ := isBreak_of_writer hb
  have hspan : c.span isSpace = ([], c) :=
    Cursor.span_append (w := []) (p := isSpace) hc (by simp) (by simpa using hspace)
  have hwhite : isWhite b = true := by simp [isWhite, hbreak]
  obtain ⟨d, hbreaks, hafter⟩ := quotedBreaks_margin hbs hy fuel
    (c := ⟨bs ++ (List.replicate Writer.margin ' ' ++ y), c.index + 1, c.line + 1, 0⟩) rfl
    (by simp at hfuel; omega)
  obtain ⟨c', hquoted, hrest⟩ := h fuel d hafter (by simp at hfuel; omega)
  refine ⟨c', ?_, hrest⟩
  rw [Scalar.quoted, hc]
  simp only [hwhite, if_true, hspan, Cursor.lineBreak?_of_isBreak hc hbreak hreturn, hbreaks, hquoted,
    bind, Except.bind, pure, Except.pure]

/-- A single break folds to a blank. -/
theorem foldedBlank (hy : BeginsSeen y) (h : Quotes double y more rest) :
    Quotes double (Writer.newLine ++ y) (' ' :: more) rest := by
  show Quotes double ('\n' :: ([] ++ (List.replicate Writer.margin ' ' ++ y)))
    (Scalar.folded (readBreak '\n') ([].map readBreak) ++ more) rest
  exact h.breaks rfl (by simp) hy

end Quotes

/-! ## Single quotes -/

/-- What comes back of a text from single quotes, `inBreak` telling that a line break stands before it. To the
reader the next-line character is a line break like the line feed, but it is written without the further break
that reading takes away. -/
def reread (inBreak : Bool) : List Char → List Char
  | [] => []
  | c :: rest =>
    if c = '\u0085' then
      if inBreak then '\n' :: reread true rest
      else if rest.head?.any Writer.isBreak then reread true rest
      else ' ' :: reread false rest
    else c :: reread (Writer.isBreak c) rest

theorem reread_of_notMem {t : List Char} (ht : '\u0085' ∉ t) (inBreak : Bool) : reread inBreak t = t := by
  induction t generalizing inBreak with
  | nil => rfl
  | cons c t ih =>
    have hc : c ≠ '\u0085' := fun h => ht (h ▸ List.mem_cons_self)
    rw [reread, if_neg hc, ih fun h => ht (List.mem_cons_of_mem c h)]

theorem notMem_reread (t : List Char) (inBreak : Bool) : '\u0085' ∉ reread inBreak t := by
  induction t generalizing inBreak with
  | nil => simp [reread]
  | cons c t ih =>
    rw [reread]
    split
    · split
      · simpa using ih true
      · split
        · exact ih true
        · simpa using ih false
    · next hc => simpa [Ne.symm hc] using ih _

/-- A text comes back from single quotes unless it holds the next-line character. -/
theorem reread_eq_self_iff (t : List Char) : reread false t = t ↔ '\u0085' ∉ t :=
  ⟨fun h => h ▸ notMem_reread t false, fun h => reread_of_notMem h false⟩

theorem reread_of_not_break {c : Char} (hc : Writer.isBreak c = false) (t : List Char) :
    reread false (c :: t) = c :: reread false t := by
  have hne : c ≠ '\u0085' := by
    rintro rfl
    exact absurd hc (by decide)
  rw [reread, if_neg hne, hc]

theorem reread_blanks (k : Nat) (t : List Char) :
    reread false (List.replicate k ' ' ++ t) = List.replicate k ' ' ++ reread false t := by
  induction k with
  | zero => rfl
  | succ k ih => rw [List.replicate_succ, List.cons_append, reread_of_not_break rfl, ih, List.cons_append]

/-- Behind a row of breaks a text that begins with none comes back as if none stood before it. -/
theorem reread_true {t : List Char} (ht : ∀ c ∈ t.head?, Writer.isBreak c = false) :
    reread true t = reread false t := by
  cases t with
  | nil => rfl
  | cons c t =>
    have hc : c ≠ '\u0085' := by
      rintro rfl
      exact absurd (ht _ rfl) (by decide)
    rw [reread, reread, if_neg hc, if_neg hc]

theorem reread_inBreak {bs t : List Char} (hbs : ∀ b ∈ bs, Writer.isBreak b = true)
    (ht : ∀ c ∈ t.head?, Writer.isBreak c = false) :
    reread true (bs ++ t) = bs.map readBreak ++ reread false t := by
  induction bs with
  | nil => exact reread_true ht
  | cons b bs ih =>
    have ih := ih fun d hd => hbs d (List.mem_cons_of_mem b hd)
    rw [List.cons_append, reread]
    by_cases hb : b = '\u0085'
    · subst hb
      rw [if_pos rfl, if_pos rfl, ih]
      rfl
    · have hbreak := hbs b List.mem_cons_self
      have hread : readBreak b = b := by
        simp only [Writer.isBreak, Bool.or_eq_true, beq_iff_eq] at hbreak
        rcases hbreak with ((rfl | rfl) | rfl) | rfl
        · rfl
        · exact absurd rfl hb
        · rfl
        · rfl
      rw [if_neg hb, hbreak, ih, List.map_cons, hread, List.cons_append]

/-- What a row of breaks is written as: one more line feed if it begins with one. -/
def writtenBreaks (b : Char) (bs : List Char) : List Char := if b = '\n' then '\n' :: '\n' :: bs else b :: bs

/-- The row of breaks that begins a text folds to what comes back of it. -/
theorem reread_breaks {b : Char} {bs t : List Char} (hb : Writer.isBreak b = true)
    (hbs : ∀ b ∈ bs, Writer.isBreak b = true) (ht : ∀ c ∈ t.head?, Writer.isBreak c = false) :
    ∃ d ds, writtenBreaks b bs = d :: ds ∧ Writer.isBreak d = true ∧ (∀ d ∈ ds, Writer.isBreak d = true) ∧
      reread false (b :: (bs ++ t)) = Scalar.folded (readBreak d) (ds.map readBreak) ++ reread false t := by
  have hin : reread true (bs ++ t) = bs.map readBreak ++ reread false t := reread_inBreak hbs ht
  simp only [Writer.isBreak, Bool.or_eq_true, beq_iff_eq] at hb
  rcases hb with ((rfl | rfl) | rfl) | rfl
  · -- written twice, so that folding leaves one
    refine ⟨'\n', '\n' :: bs, rfl, rfl, List.forall_mem_cons.mpr ⟨rfl, hbs⟩, ?_⟩
    rw [reread, if_neg (by decide), show Writer.isBreak '\n' = true from rfl, hin]
    rfl
  · -- written once, though it folds like a line feed: alone it becomes a blank
    refine ⟨'\u0085', bs, rfl, rfl, hbs, ?_⟩
    rw [reread, if_pos rfl, if_neg Bool.false_ne_true]
    cases bs with
    | nil =>
      have hhead : t.head?.any Writer.isBreak = false := by
        cases t with
        | nil => rfl
        | cons c t => exact ht c rfl
      rw [List.nil_append, hhead, if_neg Bool.false_ne_true]
      rfl
    | cons d bs =>
      have hhead : (d :: bs ++ t).head?.any Writer.isBreak = true := hbs d List.mem_cons_self
      rw [hhead, if_pos rfl, hin]
      rfl
  · -- the other two are no line feeds, and folding keeps them
    refine ⟨'\u2028', bs, rfl, rfl, hbs, ?_⟩
    rw [reread, if_neg (by decide), show Writer.isBreak '\u2028' = true from rfl, hin]
    rfl
  · refine ⟨'\u2029', bs, rfl, rfl, hbs, ?_⟩
    rw [reread, if_neg (by decide), show Writer.isBreak '\u2029' = true from rfl, hin]
    rfl

/-! ### The writer by pieces -/

/-- A character that is neither blank nor break. -/
def isSeen (c : Char) : Bool := !(c == ' ') && !Writer.isBreak c

theorem single_seen {c : Char} (hc : isSeen c = true) (column : Nat) {before : Writer.Before}
    (hbefore : before ≠ .lineBreak) (t : List Char) :
    ∃ column', Writer.single column before (c :: t)
      = (if c = '\x27' then [c, c] else [c]) ++ Writer.single column' .other t := by
  obtain ⟨hblank, hbreak⟩ : (c == ' ') = false ∧ Writer.isBreak c = false := by simpa [isSeen] using hc
  rw [Writer.single]
  simp only [hbreak, hblank, hbefore, Bool.false_eq_true, if_false, List.nil_append, beq_iff_eq]
  by_cases hquote : c = '\x27'
  · exact ⟨column + 2, by simp [hquote]⟩
  · exact ⟨column + 1, by simp [hquote]⟩

/-- Behind a row of breaks the text goes on at the margin. -/
theorem single_lineBreak {t : List Char} (ht : ∀ c ∈ t.head?, isSeen c = true) (column : Nat) :
    Writer.single column .lineBreak t
      = List.replicate Writer.margin ' ' ++ Writer.single Writer.margin .opening t := by
  cases t with
  | nil => simp [Writer.single]
  | cons c t =>
    obtain ⟨hblank, hbreak⟩ : (c == ' ') = false ∧ Writer.isBreak c = false := by
      simpa [isSeen] using ht c rfl
    rw [Writer.single, Writer.single]
    simp only [hbreak, hblank, Bool.false_eq_true, if_false, if_true]
    split <;> simp

theorem single_breaks {b : Char} {bs t : List Char} (hb : Writer.isBreak b = true)
    (hbs : ∀ b ∈ bs, Writer.isBreak b = true) (column : Nat) {before : Writer.Before}
    (hbefore : before ≠ .lineBreak) :
    Writer.single column before (b :: (bs ++ t)) = writtenBreaks b bs ++ Writer.single 0 .lineBreak t := by
  have hmore : Writer.single 0 .lineBreak (bs ++ t) = bs ++ Writer.single 0 .lineBreak t := by
    induction bs with
    | nil => rfl
    | cons d bs ih =>
      have hd := hbs d List.mem_cons_self
      rw [List.cons_append, Writer.single, hd, if_pos rfl,
        ih fun e he => hbs e (List.mem_cons_of_mem d he)]
      simp
  rw [Writer.single, hb, if_pos rfl, hmore]
  by_cases hfeed : b = '\n'
  · simp [writtenBreaks, hfeed, hbefore]
  · simp [writtenBreaks, hfeed]

theorem single_blanks (k : Nat) (t : List Char) (column : Nat)
    {before : Writer.Before} (hbefore : before ≠ .lineBreak) :
    ∃ column', (Writer.single column before (List.replicate (k + 1) ' ' ++ t)
        = Writer.newLine ++ Writer.single column' .blank t ∧ k = 0) ∨
      Writer.single column before (List.replicate (k + 1) ' ' ++ t)
        = List.replicate (k + 1) ' ' ++ Writer.single column' .blank t := by
  -- behind a blank no other blank is folded
  have hbehind : ∀ k column, Writer.single column .blank (List.replicate k ' ' ++ t)
      = List.replicate k ' ' ++ Writer.single (column + k) .blank t := by
    intro k
    induction k with
    | zero => intro column; rfl
    | succ k ih =>
      intro column
      rw [List.replicate_succ, List.cons_append, Writer.single]
      simp [Writer.isBreak, ih, Nat.add_assoc, Nat.add_comm 1]
  rw [List.replicate_succ, List.cons_append, Writer.single]
  simp only [show Writer.isBreak ' ' = false from rfl, hbefore, Bool.false_eq_true, if_false,
    show (' ' == ' ') = true from rfl, if_true, List.nil_append]
  split
  · next hfold =>
    cases k with
    | zero => exact ⟨_, .inl ⟨rfl, rfl⟩⟩
    | succ k => simp [List.replicate_succ] at hfold
  · exact ⟨_, .inr (by rw [hbehind]; rfl)⟩

theorem blankAtBreak_append {xs ys : List Char} (h : Writer.blankAtBreak (xs ++ ys) = false) :
    Writer.blankAtBreak ys = false := by
  induction xs with
  | nil => exact h
  | cons x xs ih =>
    refine ih ?_
    cases hmore : xs ++ ys with
    | nil => rfl
    | cons d more =>
      rw [List.cons_append, hmore, Writer.blankAtBreak, Bool.or_eq_false_iff] at h
      exact h.2

/-- Behind a row of blanks no break stands, and behind a row of breaks no blank. -/
theorem isSeen_behind {c : Char} {cs t : List Char} (h : Writer.blankAtBreak (c :: (cs ++ t)) = false)
    (hrow : (∀ d ∈ c :: cs, d = ' ') ∧ (∀ d ∈ t.head?, d ≠ ' ') ∨
      (∀ d ∈ c :: cs, Writer.isBreak d = true) ∧ ∀ d ∈ t.head?, Writer.isBreak d = false) :
    ∀ d ∈ t.head?, isSeen d = true := by
  intro d hd
  obtain ⟨t, rfl⟩ : ∃ t', t = d :: t' := by
    cases t with
    | nil => cases hd
    | cons e t => exact ⟨t, by rw [Option.some.inj hd]⟩
  -- the last of the row and the character behind it
  obtain ⟨before, last, hlast⟩ : ∃ before last, c :: cs = before ++ [last] :=
    ⟨_, _, (List.dropLast_concat_getLast (List.cons_ne_nil c cs)).symm⟩
  rw [← List.cons_append, hlast, List.append_assoc] at h
  have hpair := blankAtBreak_append h
  rw [List.singleton_append, Writer.blankAtBreak, Bool.or_eq_false_iff, Bool.or_eq_false_iff] at hpair
  have hmem : last ∈ c :: cs := by rw [hlast]; simp
  rcases hrow with ⟨hblanks, hother⟩ | ⟨hbreaks, hother⟩
  · have hbreak : Writer.isBreak d = false := by simpa [hblanks last hmem] using hpair.1.1
    simpa [isSeen, hbreak] using hother d rfl
  · have hblank : d ≠ ' ' := by simpa [hbreaks last hmem] using hpair.1.2
    simpa [isSeen, hblank] using hother d rfl

/-- What is written of a text that begins with a seen character begins with it, and else the quote does. -/
theorem beginsSeen_single {t : List Char} (hspecial : ∀ c ∈ t, Writer.isSpecial c = false)
    (ht : ∀ c ∈ t.head?, isSeen c = true) (column : Nat) (before : Writer.Before)
    (hbefore : before ≠ .lineBreak) (rest : List Char) :
    BeginsSeen (Writer.single column before t ++ '\x27' :: rest) := by
  cases t with
  | nil =>
    rw [Writer.single, if_neg hbefore]
    exact .cons (by decide) rest
  | cons c t =>
    obtain ⟨column', hwrite⟩ := single_seen (ht c rfl) column hbefore t
    obtain ⟨hblank, hbreak⟩ : c ≠ ' ' ∧ Writer.isBreak c = false := by simpa [isSeen] using ht c rfl
    have hc := isWhite_eq_false hbreak (hspecial c List.mem_cons_self) hblank
    rw [hwrite]
    split
    · exact .cons hc _
    · exact .cons hc _

/-- **What is written in single quotes comes back as `reread` says.** By induction on the length of the text,
from one row of blanks, row of breaks or other character to the next. -/
theorem quotes_single {t : List Char} (hspecial : ∀ c ∈ t, Writer.isSpecial c = false)
    (hblanks : Writer.blankAtBreak t = false) (column : Nat) {before : Writer.Before}
    (hbefore : before ≠ .lineBreak) {rest : List Char} (hrest : rest.head? ≠ some '\x27') :
    Quotes false (Writer.single column before t ++ '\x27' :: rest) (reread false t) rest := by
  induction hn : t.length using Nat.strongRecOn generalizing t column before with
  | _ n ih =>
    cases t with
    | nil =>
      rw [Writer.single, if_neg hbefore]
      exact .close_single hrest
    | cons c t =>
      -- what holds of any text that the present one ends with
      have hmore : ∀ cs t', c :: t = cs ++ t' → t'.length < n → ∀ column before, before ≠ .lineBreak →
          Quotes false (Writer.single column before t' ++ '\x27' :: rest) (reread false t') rest := by
        intro cs t' hcs hlength column before hbefore
        exact ih t'.length hlength (fun d hd => hspecial d (by rw [hcs]; simp [hd]))
          (blankAtBreak_append (hcs ▸ hblanks)) column hbefore rfl
      have hlength : t.length < n := by rw [← hn]; simp
      by_cases hbreak : Writer.isBreak c = true
      · -- a row of breaks, written with the margin of what follows
        obtain ⟨bs, t', rfl, hbs, ht'⟩ := exists_span Writer.isBreak t
        have hseen := isSeen_behind hblanks (.inr ⟨List.forall_mem_cons.mpr ⟨hbreak, hbs⟩, ht'⟩)
        obtain ⟨d, ds, hwritten, hd, hds, hreread⟩ := reread_breaks hbreak hbs ht'
        have ht := hmore (c :: bs) t' rfl (by simp at hlength; omega) Writer.margin .opening (by decide)
        have hbegins := beginsSeen_single (fun e he => hspecial e (by simp [he])) hseen Writer.margin
          .opening (by decide) rest
        rw [single_breaks hbreak hbs column hbefore, single_lineBreak hseen, hwritten, hreread,
          List.append_assoc, List.append_assoc, List.cons_append]
        exact ht.breaks hd hds hbegins
      by_cases hblank : c = ' '
      · -- a row of blanks, or one blank as a line break
        subst hblank
        obtain ⟨cs, t', rfl, hcs, ht'⟩ := exists_span (· == ' ') t
        obtain ⟨k, rfl⟩ : ∃ k, cs = List.replicate k ' ' :=
          ⟨cs.length, List.eq_replicate_iff.mpr ⟨rfl, fun d hd => by simpa using hcs d hd⟩⟩
        have hseen := isSeen_behind hblanks
          (.inl ⟨by simp [List.mem_replicate], fun d hd => by simpa using ht' d hd⟩)
        obtain ⟨column', hwrite⟩ := single_blanks k t' column hbefore
        have ht := hmore (' ' :: List.replicate k ' ') t' rfl (by simp at hlength; omega) column' .blank
          (by decide)
        have hbegins := beginsSeen_single (fun e he => hspecial e (by simp [he])) hseen column'
          .blank (by decide) rest
        rw [← List.cons_append, ← List.replicate_succ, reread_blanks]
        rcases hwrite with ⟨hwrite, rfl⟩ | hwrite
        · rw [hwrite, List.append_assoc]
          exact ht.foldedBlank hbegins
        · rw [hwrite, List.append_assoc]
          exact ht.blanks hbegins
      · have hc : isSeen c = true := by simpa [isSeen, hblank] using hbreak
        obtain ⟨column', hwrite⟩ := single_seen hc column hbefore t
        have ht := hmore [c] t rfl hlength column' .other (by decide)
        have hnot : Writer.isBreak c = false := by simpa using hbreak
        have hwhite := isWhite_eq_false hnot (hspecial c List.mem_cons_self) hblank
        rw [hwrite, reread_of_not_break hnot]
        by_cases hquote : c = '\x27'
        · rw [if_pos hquote, hquote]
          exact ht.doubledQuote
        · rw [if_neg hquote]
          exact ht.char hwhite (fun _ => hquote) (by simp)

/-! ## Escapes -/

/-- The digits of a number in base 16, as numbers. -/
theorem exists_toDigits_sixteen (n : Nat) :
    ∃ ds, Nat.toDigits 16 n = ds.map Nat.digitChar ∧ (∀ d ∈ ds, d < 16) ∧ Number.ofDigits 16 ds = n := by
  induction n using Nat.strongRecOn with
  | _ n ih =>
    by_cases hlt : n < 16
    · exact ⟨[n], Nat.toDigits_of_lt_base hlt, by simpa using hlt, by simp [Number.ofDigits]⟩
    · obtain ⟨ds, hdigits, hds, hvalue⟩ := ih (n / 16) (by omega)
      refine ⟨ds ++ [n % 16], ?_, ?_, ?_⟩
      · rw [Nat.toDigits_of_base_le (by decide) (by omega), hdigits, List.map_append]
        rfl
      · intro d hd
        rcases List.mem_append.mp hd with hd | hd
        · exact hds d hd
        · rw [List.mem_singleton.mp hd]
          omega
      · rw [Number.ofDigits, List.foldl_append, ← Number.ofDigits, hvalue]
        show n / 16 * 16 + n % 16 = n
        omega

/-- Zeros in front change nothing. -/
theorem ofDigits_replicate (k : Nat) (ds : List Nat) :
    Number.ofDigits 16 (List.replicate k 0 ++ ds) = Number.ofDigits 16 ds := by
  induction k with
  | zero => rfl
  | succ k ih =>
    rw [List.replicate_succ, List.cons_append, ← ih]
    rfl

theorem digit?_upper : ∀ d < 16, Scalar.isHexDigit d.digitChar.toUpper = true ∧
    Number.digit? 16 d.digitChar.toUpper = some d := by
  decide +kernel

/-- The hexadecimal digits of a number, as many as its width asks for, stand for it. -/
theorem upperHex_read {width n : Nat} (hn : n < Nat.pow 16 width) (hwidth : 0 < width) :
    (Writer.upperHex width n).length = width ∧ (Writer.upperHex width n).all Scalar.isHexDigit = true ∧
      Number.ofDigits 16 ((Writer.upperHex width n).filterMap (Number.digit? 16)) = n := by
  obtain ⟨ds, hdigits, hds, hvalue⟩ := exists_toDigits_sixteen n
  have hlength : ds.length ≤ width := by
    have h := (Nat.length_toDigits_le_iff (b := 16) (by decide) hwidth).mpr hn
    simpa [hdigits] using h
  have hwritten : Writer.upperHex width n
      = (List.replicate (width - ds.length) 0 ++ ds).map fun d : Nat => d.digitChar.toUpper := by
    rw [Writer.upperHex, Text.hex, hdigits, List.leftpad, List.length_map, List.map_append, List.map_append,
      List.map_replicate, List.map_replicate, List.map_map]
    rfl
  have hall : ∀ d ∈ List.replicate (width - ds.length) 0 ++ ds, d < 16 := by
    intro d hd
    rcases List.mem_append.mp hd with hd | hd
    · rw [List.eq_of_mem_replicate hd]
      decide
    · exact hds d hd
  have hread : ∀ es : List Nat, (∀ d ∈ es, d < 16) →
      (es.map fun d => d.digitChar.toUpper).filterMap (Number.digit? 16) = es := by
    intro es hes
    induction es with
    | nil => rfl
    | cons d es ih =>
      rw [List.map_cons, List.filterMap_cons, (digit?_upper d (hes d List.mem_cons_self)).2,
        ih fun e he => hes e (List.mem_cons_of_mem d he)]
  refine ⟨?_, ?_, ?_⟩
  · rw [hwritten, List.length_map, List.length_append, List.length_replicate]
    omega
  · rw [hwritten, List.all_map, List.all_eq_true]
    exact fun d hd => (digit?_upper d (hall d hd)).1
  · rw [hwritten, hread _ hall, ofDigits_replicate, hvalue]

theorem codeChar_toNat (c : Char) : Scalar.codeChar c.toNat = .ok c := by
  have hvalid : c.toNat < 0xD800 ∨ 0xDFFF < c.toNat ∧ c.toNat < 0x110000 := c.valid
  rw [Scalar.codeChar, if_neg (by omega), if_neg (by omega), if_neg (by omega), Char.ofNat_toNat]

theorem escape_hex {letter : Char} {width : Nat} (hletter : Scalar.escaped? letter = none)
    (hwidth : Scalar.escapeWidth? letter = some width) (hpositive : 0 < width) {ch : Char}
    (hch : ch.toNat < Nat.pow 16 width) (fuel : Nat) {c : Cursor} {y : List Char}
    (hc : c.rest = letter :: (Writer.upperHex width ch.toNat ++ y)) :
    ∃ c', Scalar.escape fuel c = .ok ([ch], c') ∧ c'.rest = y := by
  obtain ⟨hlength, hdigits, hvalue⟩ := upperHex_read hch hpositive
  have hnext : c.next.rest = Writer.upperHex width ch.toNat ++ y := by rw [Cursor.rest_next, hc]; rfl
  have htake : c.next.rest.take width = Writer.upperHex width ch.toNat := by
    rw [hnext, List.take_left' hlength]
  refine ⟨c.next.skip width, ?_, by rw [Cursor.rest_skip, hnext, List.drop_left' hlength]⟩
  rw [Scalar.escape, Cursor.peek, hc]
  simp only [List.head?_cons, hletter, hwidth, htake, hlength, hdigits, hvalue, codeChar_toNat]
  rfl

theorem mem_escapeLetters {ch letter : Char} (h : Writer.escapeLetters.lookup ch = some letter) :
    (ch, letter) ∈ Writer.escapeLetters := by
  obtain ⟨before, after, htable, -⟩ := List.lookup_eq_some_iff.mp h
  rw [htable]
  simp

/-- **An escape is read as the character it is written for.** -/
theorem escape_write (ch : Char) :
    ∃ w, Writer.escape ch = '\\' :: w ∧ w ≠ [] ∧ ∀ fuel (c : Cursor) y, c.rest = w ++ y →
      ∃ c', Scalar.escape fuel c = .ok ([ch], c') ∧ c'.rest = y := by
  unfold Writer.escape
  split
  · next l hl =>
    have hletters : ∀ e ∈ Writer.escapeLetters, Scalar.escaped? e.2 = some e.1 := by decide
    have hletter : Scalar.escaped? l = some ch := hletters (ch, l) (mem_escapeLetters hl)
    refine ⟨[l], rfl, by simp, fun fuel c y hc => ⟨c.next, ?_, by rw [Cursor.rest_next, hc]; rfl⟩⟩
    rw [Scalar.escape, Cursor.peek, hc]
    simp only [List.cons_append, List.head?_cons, hletter]
  · have hvalid : ch.toNat < 0xD800 ∨ 0xDFFF < ch.toNat ∧ ch.toNat < 0x110000 := ch.valid
    split
    · exact ⟨'x' :: Writer.upperHex 2 ch.toNat, rfl, by simp, fun fuel c y hc =>
        escape_hex rfl rfl (by decide) (by rw [Nat.pow_eq]; omega) fuel hc⟩
    split
    · exact ⟨'u' :: Writer.upperHex 4 ch.toNat, rfl, by simp, fun fuel c y hc =>
        escape_hex rfl rfl (by decide) (by rw [Nat.pow_eq]; omega) fuel hc⟩
    · exact ⟨'U' :: Writer.upperHex 8 ch.toNat, rfl, by simp, fun fuel c y hc =>
        escape_hex rfl rfl (by decide) (by rw [Nat.pow_eq]; omega) fuel hc⟩

/-! ## Double quotes -/

namespace Quotes

variable {y more rest : List Char}

/-- A turn of the reader at a backslash. -/
theorem of_escape {w chars : List Char} (hw : w ≠ []) (hescape : ∀ fuel (c : Cursor), w.length ≤ fuel →
      c.rest = w ++ y → ∃ c', Scalar.escape fuel c = .ok (chars, c') ∧ c'.rest = y)
    (h : Quotes true y more rest) : Quotes true ('\\' :: (w ++ y)) (chars ++ more) rest := by
  refine of_turn fun fuel c hc hfuel => ?_
  have hpositive : w.length ≠ 0 := fun h => hw (List.length_eq_zero_iff.mp h)
  simp only [List.length_cons, List.length_append] at hfuel
  obtain ⟨d, hchars, hafter⟩ := hescape fuel c.next (by omega) (by rw [Cursor.rest_next, hc]; rfl)
  obtain ⟨c', hquoted, hrest⟩ := h fuel d hafter (by omega)
  refine ⟨c', ?_, hrest⟩
  have hwhite : isWhite '\\' = false := rfl
  rw [Scalar.quoted, hc]
  simp only [hwhite, hchars, hquoted, bind, Except.bind, pure, Except.pure]
  rfl

theorem escape (ch : Char) (h : Quotes true y more rest) :
    Quotes true (Writer.escape ch ++ y) (ch :: more) rest := by
  obtain ⟨w, hwrite, hne, hread⟩ := escape_write ch
  rw [hwrite, List.cons_append]
  exact h.of_escape hne fun fuel c _ hc => hread fuel c y hc

theorem escapedBlank (h : Quotes true y more rest) : Quotes true ('\\' :: ' ' :: y) (' ' :: more) rest := by
  show Quotes true ('\\' :: ([' '] ++ y)) ([' '] ++ more) rest
  refine h.of_escape (by simp) fun fuel c _ hc => ⟨c.next, ?_, ?_⟩
  · rw [Scalar.escape, Cursor.peek, hc]
    rfl
  · rw [Cursor.rest_next, hc]
    rfl

/-- A backslash before a line break hides the break and the margin behind it. -/
theorem splitLine (hy : BeginsSeen y) (h : Quotes true y more rest) :
    Quotes true ('\\' :: (Writer.newLine ++ y)) more rest := by
  show Quotes true ('\\' :: (Writer.newLine ++ y)) ([] ++ more) rest
  refine h.of_escape (by simp [Writer.newLine]) fun fuel c hfuel hc => ?_
  have hline : c.rest = '\n' :: (List.replicate Writer.margin ' ' ++ y) := hc
  have hnone : ∀ b ∈ ([] : List Char), Writer.isBreak b = true := by simp
  obtain ⟨c', hbreaks, hrest⟩ := quotedBreaks_margin hnone hy fuel
    (c := ⟨List.replicate Writer.margin ' ' ++ y, c.index + 1, c.line + 1, 0⟩) rfl
    (by simp [Writer.newLine] at hfuel; simp; omega)
  refine ⟨c', ?_, hrest⟩
  rw [Scalar.escape, Cursor.peek, hline]
  simp only [List.head?_cons, Scalar.escaped?, Scalar.escapeWidth?,
    Cursor.lineBreak?_of_isBreak hline rfl (by decide), hbreaks]
  rfl

/-- Blanks in front of what begins with none. -/
theorem leadingBlanks (k : Nat) (hy : BeginsSeen y) (h : Quotes true y more rest) :
    Quotes true (List.replicate k ' ' ++ y) (List.replicate k ' ' ++ more) rest := by
  cases k with
  | zero => exact h
  | succ k => exact h.blanks hy

end Quotes

theorem isWhite_of_isOrdinary {c : Char} (hc : Writer.isOrdinary c = true) (hblank : c ≠ ' ') :
    isWhite c = false ∧ c ≠ '"' ∧ c ≠ '\\' := by
  have hne : ∀ d, Writer.isOrdinary d = false → c ≠ d := fun d hd h => by rw [h, hd] at hc; cases hc
  refine ⟨?_, hne '"' (by decide), hne '\\' (by decide)⟩
  simp [isWhite, isBreak, hblank, hne '\t' (by decide), hne '\n' (by decide), hne '\r' (by decide),
    hne '\u0085' (by decide), hne '\u2028' (by decide), hne '\u2029' (by decide)]

theorem splitLine_of_ne_blank {c : Char} (hc : c ≠ ' ') :
    Writer.splitLine (some c) = ('\\' :: Writer.newLine, Writer.margin) := by
  simp [Writer.splitLine, hc]

/-- What is written of a text that begins with no blank begins with no white. -/
theorem beginsSeen_double {t : List Char} (ht : t.head? ≠ some ' ') (column : Nat) (first afterEscape : Bool)
    (rest : List Char) : BeginsSeen (Writer.double column first afterEscape t ++ '"' :: rest) := by
  cases t with
  | nil => exact .cons (by decide) rest
  | cons c t =>
    have hc : c ≠ ' ' := by simpa using ht
    have hsplit := splitLine_of_ne_blank hc
    rw [Writer.double]
    split
    · next hordinary =>
      split
      · simp only [hsplit]
        exact .cons (by decide) _
      · exact .cons (isWhite_of_isOrdinary hordinary hc).1 _
    · obtain ⟨w, hwrite, -⟩ := escape_write c
      simp only [hwrite]
      split
      · exact .cons (by decide) _
      · exact .cons (by decide) _

/-- A text reads back from behind a split line if it does so by itself, and so does what follows its first
character. A blank that begins it is written behind a backslash of its own. -/
theorem quotes_split {t rest : List Char}
    (ht : ∀ column first afterEscape,
      Quotes true (Writer.double column first afterEscape t ++ '"' :: rest) t rest)
    (htail : ∀ column first afterEscape,
      Quotes true (Writer.double column first afterEscape t.tail ++ '"' :: rest) t.tail rest) :
    Quotes true ((Writer.splitLine t.head?).1
      ++ (Writer.double (Writer.splitLine t.head?).2 false true t ++ '"' :: rest)) t rest := by
  cases t with
  | nil => exact (ht Writer.margin false true).splitLine (.cons (by decide) rest)
  | cons c t =>
    by_cases hc : c = ' '
    · subst hc
      -- the blank itself is not split off again, since the line has just begun
      have hwrite : Writer.double (Writer.margin + 1) false true (' ' :: t)
          = ' ' :: Writer.double (Writer.margin + 2) false false t := by
        rw [Writer.double]
        simp [Writer.isOrdinary, Writer.margin, Writer.width]
      have hblank : Quotes true ('\\' :: ' ' :: (Writer.double (Writer.margin + 2) false false t
          ++ '"' :: rest)) (' ' :: t) rest := (htail (Writer.margin + 2) false false).escapedBlank
      show Quotes true ('\\' :: Writer.newLine ++ ['\\']
        ++ (Writer.double (Writer.margin + 1) false true (' ' :: t) ++ '"' :: rest)) (' ' :: t) rest
      rw [hwrite]
      exact hblank.splitLine (.cons (by decide) _)
    · rw [List.head?_cons, splitLine_of_ne_blank hc]
      exact (ht Writer.margin false true).splitLine
        (beginsSeen_double (by simpa using hc) Writer.margin false true rest)

theorem double_ordinary {c : Char} (hc : Writer.isOrdinary c = true) (column : Nat)
    (first afterEscape : Bool) (t : List Char) :
    ∃ column', Writer.double column first afterEscape (c :: t) = c :: Writer.double column' false false t ∨
      Writer.double column first afterEscape (c :: t)
        = (Writer.splitLine (some c)).1 ++ c :: Writer.double column' false false t := by
  rw [Writer.double]
  simp only [hc, if_true]
  split
  · exact ⟨_, .inr rfl⟩
  · exact ⟨_, .inl rfl⟩

theorem double_escaped {c : Char} (hc : Writer.isOrdinary c = false) (column : Nat)
    (first afterEscape : Bool) (t : List Char) :
    ∃ column', Writer.double column first afterEscape (c :: t)
        = Writer.escape c ++ Writer.double column' false true t ∨
      Writer.double column first afterEscape (c :: t)
        = Writer.escape c ++ ((Writer.splitLine t.head?).1
          ++ Writer.double (Writer.splitLine t.head?).2 false true t) := by
  rw [Writer.double]
  simp only [hc, Bool.false_eq_true, if_false]
  split
  · exact ⟨column, .inr (List.append_assoc _ _ _)⟩
  · exact ⟨_, .inl rfl⟩

/-- **What is written in double quotes comes back**, whatever blanks stand before it on the line. A blank that
is written as it is joins them, so that the induction goes on with one blank more. -/
theorem quotes_double (t rest : List Char) (k column : Nat) (first afterEscape : Bool) :
    Quotes true (List.replicate k ' ' ++ (Writer.double column first afterEscape t ++ '"' :: rest))
      (List.replicate k ' ' ++ t) rest := by
  induction hn : t.length using Nat.strongRecOn generalizing t k column first afterEscape with
  | _ n ih =>
    cases t with
    | nil => exact Quotes.close_double.leadingBlanks k (.cons (by decide) rest)
    | cons c t =>
      have hlength : t.length < n := by rw [← hn]; simp
      have ht := fun k column first afterEscape => ih t.length hlength t k column first afterEscape rfl
      by_cases hc : Writer.isOrdinary c = true
      · obtain ⟨column', hwrite | hwrite⟩ := double_ordinary hc column first afterEscape t
        · by_cases hblank : c = ' '
          · -- one more blank before the rest of the text
            have hmore := ht (k + 1) column' false false
            rw [List.replicate_succ', List.append_assoc, List.append_assoc] at hmore
            rw [hwrite, hblank]
            exact hmore
          · obtain ⟨hwhite, hquotes⟩ := isWhite_of_isOrdinary hc hblank
            rw [hwrite]
            exact ((ht 0 column' false false).char hwhite (by simp) fun _ => hquotes).leadingBlanks k
              (.cons hwhite _)
        · -- the line is split, so that a blank needs a backslash of its own
          rw [hwrite]
          by_cases hblank : c = ' '
          · subst hblank
            have hmore := (ht 0 column' false false).escapedBlank.splitLine (.cons (by decide) _)
            exact hmore.leadingBlanks k (.cons (by decide) _)
          · obtain ⟨hwhite, hquotes⟩ := isWhite_of_isOrdinary hc hblank
            have hmore := ((ht 0 column' false false).char hwhite (by simp) fun _ => hquotes).splitLine
              (.cons hwhite _)
            rw [splitLine_of_ne_blank hblank]
            exact hmore.leadingBlanks k (.cons (by decide) _)
      · have hc : Writer.isOrdinary c = false := by simpa using hc
        -- an escape begins with its backslash, which ends the blanks before it
        have hbegins := beginsSeen_double (t := c :: t)
          (by rintro h; cases h; exact absurd hc (by decide)) column first afterEscape rest
        refine Quotes.leadingBlanks k hbegins ?_
        obtain ⟨column', hwrite | hwrite⟩ := double_escaped hc column first afterEscape t
        · rw [hwrite, List.append_assoc]
          exact (ht 0 column' false true).escape c
        · rw [hwrite, List.append_assoc, List.append_assoc]
          refine (quotes_split (fun column first afterEscape => ht 0 column first afterEscape) ?_).escape c
          intro column first afterEscape
          exact ih t.tail.length (by simp; omega) t.tail 0 column first afterEscape rfl

end CommentStyle.Yaml
