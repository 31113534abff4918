import CommentStyle.Proofs.Json.Source
import CommentStyle.Proofs.Yaml.BareWords

/-!
# The strings of JSON as YAML reads them

A string of JSON is a scalar in double quotes, and mostly it means the same. Raw white inside of it folds at
the line breaks that JSON does not take for such, and two surrogates are two characters. A line of the string
may look as if a document ended there, and then the text is refused.

* **`foldedText`** — what the string means, and **`hasDivider`** — whether a line of it divides documents.
* **`readsAs_pieces`** — the string is read so, unless it is refused.
-/

namespace CommentStyle.Yaml

open Cursor (readBreak)
open Json (Piece rawChars unitChar)

/-! ## Raw white in quotes -/

/-- What becomes of a row of white. Blanks stay; a line break takes the blanks around it with it, and folds. -/
def foldRun (run : List Char) : List Char :=
  match run.filter isBreak with
  | [] => run
  | b :: bs => Scalar.folded (readBreak b) (bs.map readBreak)

/-- Three equal marks and white: a line that begins so divides documents. -/
def startsDivider : List Char → Bool
  | x :: y :: z :: w :: _ => (x == '-' || x == '.') && y == x && z == x && isWhite w
  | _ => false

/-- A line of the text divides documents, its first line apart. -/
def hasDivider : List Char → Bool
  | [] => false
  | c :: cs => isBreak c && startsDivider cs || hasDivider cs

theorem atDivider_of_rest {c : Cursor} {raw x : List Char} (hc : c.rest = raw ++ '"' :: x) :
    c.atDivider = startsDivider raw := by
  rw [Cursor.atDivider, Cursor.divides, Cursor.divides, hc]
  rcases raw with _ | ⟨p, _ | ⟨q, _ | ⟨r, _ | ⟨w, raw⟩⟩⟩⟩
  case nil => rcases x with _ | ⟨_, _ | _⟩ <;> rfl
  case cons.nil => cases x <;> simp [startsDivider]
  case cons.cons.nil => simp [startsDivider]
  case cons.cons.cons.nil => simp [startsDivider, whiteOrEnd, isWhite, isBreak]
  case cons.cons.cons.cons =>
    by_cases hdash : p = '-'
    · subst hdash
      simp [startsDivider, whiteOrEnd]
    by_cases hdot : p = '.'
    · subst hdot
      simp [startsDivider, whiteOrEnd]
    · have hdash : (p == '-') = false := beq_eq_false_iff_ne.mpr hdash
      have hdot : (p == '.') = false := beq_eq_false_iff_ne.mpr hdot
      simp [startsDivider, hdash, hdot]

/-- White is a blank or a line break. -/
theorem isBreak_of_isWhite {b : Char} (hwhite : isWhite b = true) (hspace : isSpace b = false) :
    isBreak b = true := by
  simp only [isWhite, isSpace, Bool.or_eq_true, Bool.or_eq_false_iff] at hwhite hspace
  rcases hwhite with (h | h) | h
  · exact absurd h (by rw [hspace.1]; decide)
  · exact absurd h (by rw [hspace.2]; decide)
  · exact h

theorem isBreak_of_isSpace {b : Char} (hspace : isSpace b = true) : isBreak b = false := by
  simp only [isSpace, Bool.or_eq_true, beq_iff_eq] at hspace
  rcases hspace with rfl | rfl <;> decide

theorem ne_mark_of_isWhite {b : Char} (hwhite : isWhite b = true) : b ≠ '-' ∧ b ≠ '.' := by
  constructor <;> rintro rfl <;> exact absurd hwhite (by decide)

theorem all_isBreak_getLast? {b : Char} (hbreak : isBreak b = true) (spaces more : List Char) :
    (spaces ++ b :: more).getLast?.all isBreak = more.getLast?.all isBreak := by
  rw [List.getLast?_append_of_ne_nil _ (List.cons_ne_nil b more)]
  cases more with
  | nil => exact hbreak
  | cons a more => rw [List.getLast?_cons_cons]

theorem any_isBreak_getLast? {run : List Char} (hne : run ≠ []) :
    run.getLast?.any isBreak = run.getLast?.all isBreak := by
  rw [List.getLast?_eq_some_getLast hne]
  rfl

theorem filter_isBreak_of_spaces {spaces : List Char} (hspaces : ∀ c ∈ spaces, isSpace c = true) :
    spaces.filter isBreak = [] :=
  List.filter_eq_nil_iff.mpr fun b hb => by rw [isBreak_of_isSpace (hspaces b hb)]; decide

theorem filter_isBreak_append {b : Char} {spaces : List Char} (hspaces : ∀ c ∈ spaces, isSpace c = true)
    (hbreak : isBreak b = true) (more : List Char) :
    (spaces ++ b :: more).filter isBreak = b :: more.filter isBreak := by
  rw [List.filter_append, filter_isBreak_of_spaces hspaces, List.nil_append, List.filter_cons_of_pos hbreak]

theorem atDivider_of_white {w : Char} {x : List Char} (hwhite : isWhite w = true) {c : Cursor}
    (hc : c.rest = w :: x) : c.atDivider = false := by
  refine Cursor.atDivider_eq_false fun ch hch => ?_
  rw [hc] at hch
  cases hch
  exact ne_mark_of_isWhite hwhite

/-- A row of white at a cursor, with `y` behind it: it is all spaces, or a line ends behind its spaces. -/
inductive WhiteRow (y : List Char) (c : Cursor) : List Char → Prop
  | spaces {run : List Char} (all : ∀ b ∈ run, isSpace b = true) (span : c.span isSpace = (run, c.skip run.length))
      (rest : (c.skip run.length).rest = y) (line : (c.skip run.length).lineBreak? = none) : WhiteRow y c run
  | breaks {spaces more : List Char} {b : Char} {e : Cursor} (all : ∀ b ∈ spaces, isSpace b = true)
      (hbreak : isBreak b = true) (span : c.span isSpace = (spaces, c.skip spaces.length))
      (line : (c.skip spaces.length).lineBreak? = some (readBreak b, e)) (rest : e.rest = more ++ y) :
      WhiteRow y c (spaces ++ b :: more)

theorem whiteRow_of_rest {run y : List Char} (hrun : ∀ c ∈ run, isWhite c = true ∧ c ≠ '\r') (hy : BeginsSeen y)
    {c : Cursor} (hc : c.rest = run ++ y) : WhiteRow y c run := by
  obtain ⟨spaces, more, rfl, hspaces, hmore⟩ := exists_span isSpace run
  rw [List.append_assoc] at hc
  have hafter : (c.skip spaces.length).rest = more ++ y := by rw [Cursor.rest_skip, hc, List.drop_left]
  cases more with
  | nil =>
    rw [List.append_nil]
    exact .spaces hspaces (Cursor.span_append hc hspaces hy.isSpace_eq_false) hafter (hy.lineBreak?_eq_none hafter)
  | cons b more =>
    have hb := hrun b (List.mem_append_right spaces List.mem_cons_self)
    have hbreak : isBreak b = true := isBreak_of_isWhite hb.1 (hmore b rfl)
    have hspan := Cursor.span_append hc hspaces fun ch hch => by cases hch; exact hmore b rfl
    exact .breaks hspaces hbreak hspan (Cursor.lineBreak?_of_isBreak hafter hbreak hb.2) rfl

/-- Blanks and line breaks behind a first break. Where a line begins behind them, it must not divide
documents. -/
theorem exists_quotedBreaks_run {run y : List Char} {d : Bool} (hrun : ∀ c ∈ run, isWhite c = true ∧ c ≠ '\r')
    (hy : BeginsSeen y) (hd : ∀ c : Cursor, c.rest = y → c.atDivider = d) {fuel : Nat} {c : Cursor}
    (hc : c.rest = run ++ y) (hfuel : run.length < fuel) :
    ∃ c', c'.rest = y ∧ Scalar.quotedBreaks fuel c =
      if run.getLast?.all isBreak && d then .error .malformed else .ok ((run.filter isBreak).map readBreak, c') := by
  induction fuel generalizing run c with
  | zero => exact absurd hfuel (Nat.not_lt_zero _)
  | succ fuel ih =>
    -- what divides documents can only begin where no white is left
    have hdivider : run ≠ [] → c.atDivider = false := by
      intro hne
      obtain ⟨w, z, rfl⟩ := List.exists_cons_of_ne_nil hne
      exact atDivider_of_white (hrun w List.mem_cons_self).1 hc
    cases whiteRow_of_rest hrun hy hc with
    | spaces hspaces hspan hafter hnone =>
      refine ⟨_, hafter, ?_⟩
      have hlast : c.atDivider = (run.getLast?.all isBreak && d) := by
        cases hlast : run.getLast? with
        | none =>
          rw [List.getLast?_eq_none_iff.mp hlast] at hc
          simpa using hd c hc
        | some b =>
          have hb := List.mem_of_getLast? hlast
          rw [Option.all_some, isBreak_of_isSpace (hspaces b hb), Bool.false_and]
          exact hdivider (List.ne_nil_of_mem hb)
      rw [Scalar.quotedBreaks, hlast, filter_isBreak_of_spaces hspaces]
      simp only [Cursor.skipWhile, hspan, hnone]
      rfl
    | @breaks spaces more b e hspaces hbreak hspan hline he =>
      obtain ⟨c', hrest, hbreaks⟩ := ih
        (fun ch hch => hrun ch (List.mem_append_right spaces (List.mem_cons_of_mem b hch))) he (by
          rw [List.length_append, List.length_cons] at hfuel
          omega)
      refine ⟨c', hrest, ?_⟩
      rw [Scalar.quotedBreaks, hdivider (by simp), if_neg Bool.false_ne_true, all_isBreak_getLast? hbreak,
        filter_isBreak_append hspaces hbreak]
      simp only [Cursor.skipWhile, hspan, hline, hbreaks]
      split <;> rfl

/-- **A row of white is read at once.** Where a line begins behind it, it must not divide documents. -/
theorem exists_quoted_run {run y : List Char} {d : Bool} (hrun : ∀ c ∈ run, isWhite c = true ∧ c ≠ '\r')
    (hne : run ≠ []) (hy : BeginsSeen y) (hd : ∀ c : Cursor, c.rest = y → c.atDivider = d) {fuel : Nat}
    {c : Cursor} (hc : c.rest = run ++ y) (hfuel : run.length ≤ fuel) :
    ∃ c', c'.rest = y ∧ Scalar.quoted true (fuel + 1) c =
      if run.getLast?.any isBreak && d then .error .malformed
      else (Scalar.quoted true fuel c').map fun r => (foldRun run ++ r.1, r.2) := by
  obtain ⟨w, z, hwhite, hcons⟩ : ∃ w z, isWhite w = true ∧ c.rest = w :: z := by
    obtain ⟨w, z, rfl⟩ := List.exists_cons_of_ne_nil hne
    exact ⟨w, z ++ y, (hrun w List.mem_cons_self).1, hc⟩
  cases whiteRow_of_rest hrun hy hc with
  | spaces hspaces hspan hafter hnone =>
    have hlast : run.getLast?.any isBreak = false := by
      cases hlast : run.getLast? with
      | none => rfl
      | some b => exact isBreak_of_isSpace (hspaces b (List.mem_of_getLast? hlast))
    refine ⟨_, hafter, ?_⟩
    rw [hlast, Bool.false_and, if_neg Bool.false_ne_true, Scalar.quoted, hcons, foldRun,
      filter_isBreak_of_spaces hspaces]
    simp only [hwhite, if_true, hspan, hnone]
    cases Scalar.quoted true fuel (c.skip run.length) <;> rfl
  | @breaks spaces more b e hspaces hbreak hspan hline he =>
    have hless : more.length < fuel := by
      rw [List.length_append, List.length_cons] at hfuel
      omega
    obtain ⟨c', hrest, hbreaks⟩ := exists_quotedBreaks_run
      (fun ch hch => hrun ch (List.mem_append_right spaces (List.mem_cons_of_mem b hch))) hy hd he hless
    refine ⟨c', hrest, ?_⟩
    rw [any_isBreak_getLast? hne, all_isBreak_getLast? hbreak, Scalar.quoted, hcons, foldRun,
      filter_isBreak_append hspaces hbreak]
    simp only [hwhite, if_true, hspan, hline, hbreaks]
    split
    · rfl
    · simp only [bind, Except.bind]
      cases Scalar.quoted true fuel c' <;> rfl

/-! ## Strings -/

/-- White that is written as itself. -/
def isSoft : Piece → Bool
  | .plain c _ => isWhite c
  | _ => false

/-- The characters of a string, behind a row of white: rows of white fold, and everything else is a character of
its own. -/
def foldedText (run : List Char) : List Piece → List Char
  | [] => foldRun run
  | p :: ps =>
    if isSoft p then foldedText (run ++ [unitChar p.unit]) ps
    else foldRun run ++ unitChar p.unit :: foldedText [] ps

/-- The hexadecimal digits of JSON are those of YAML. -/
theorem digit?_of_hexValue? {c : Char} {x : Nat} (h : Json.hexValue? c = some x) :
    x < 16 ∧ Scalar.isHexDigit c = true ∧ Number.digit? 16 c = some x := by
  have htable : ∀ n < 103, (Json.hexValue? (Char.ofNat n)).all fun x => x < 16 &&
      Scalar.isHexDigit (Char.ofNat n) && Number.digit? 16 (Char.ofNat n) == some x := by decide +kernel
  have hlt : c.toNat < 103 := by
    have hle : ∀ {m : Char}, c ≤ m → c.toNat ≤ m.toNat := fun h => UInt32.le_iff_toNat_le.mp h
    unfold Json.hexValue? at h
    split at h
    · next hc => exact Nat.lt_of_le_of_lt (hle hc.2) (by decide)
    split at h
    · next hc => exact Nat.lt_of_le_of_lt (hle hc.2) (by decide)
    split at h
    · next hc => exact Nat.lt_of_le_of_lt (hle hc.2) (by decide)
    · cases h
  have hrow := htable c.toNat hlt
  rw [Char.ofNat_toNat, h] at hrow
  simpa [and_assoc] using hrow

theorem exists_escape_unit {a b c d : Char} {u : Nat} (h : Json.unit? a b c d = some u) (fuel : Nat)
    {e : Cursor} {y : List Char} (he : e.rest = ['u', a, b, c, d] ++ y) :
    ∃ e', e'.rest = y ∧ Scalar.escape fuel e = .ok ([unitChar u], e') := by
  simp only [Json.unit?, Option.bind_eq_bind, Option.bind_eq_some_iff] at h
  obtain ⟨p, hp, q, hq, r, hr, t, ht, hu⟩ := h
  obtain ⟨hp', hpdigit, hpvalue⟩ := digit?_of_hexValue? hp
  obtain ⟨hq', hqdigit, hqvalue⟩ := digit?_of_hexValue? hq
  obtain ⟨hr', hrdigit, hrvalue⟩ := digit?_of_hexValue? hr
  obtain ⟨ht', htdigit, htvalue⟩ := digit?_of_hexValue? ht
  obtain rfl : ((p * 16 + q) * 16 + r) * 16 + t = u := Option.some.inj hu
  have hnext : e.next.rest = [a, b, c, d] ++ y := by rw [Cursor.rest_next, he]; rfl
  have hcode : Scalar.codeChar (((p * 16 + q) * 16 + r) * 16 + t)
      = .ok (unitChar (((p * 16 + q) * 16 + r) * 16 + t)) := by
    generalize hn : ((p * 16 + q) * 16 + r) * 16 + t = n
    have hlt : n < 0x10000 := by omega
    unfold Scalar.codeChar unitChar Json.isHighSurrogate Json.isLowSurrogate
    rw [if_neg (by omega), if_neg (by omega)]
    by_cases hsurrogate : 0xD800 ≤ n ∧ n ≤ 0xDFFF
    · rw [if_pos hsurrogate, if_pos (by simp; omega)]
    · rw [if_neg hsurrogate, if_neg (by simp; omega)]
  refine ⟨e.next.skip 4, by rw [Cursor.rest_skip, hnext]; rfl, ?_⟩
  have htake : e.next.rest.take 4 = [a, b, c, d] := by rw [hnext]; rfl
  have hdigits : ([a, b, c, d].length = 4 && [a, b, c, d].all Scalar.isHexDigit) = true := by
    simp [hpdigit, hqdigit, hrdigit, htdigit]
  have hvalue : Number.ofDigits 16 ([a, b, c, d].filterMap (Number.digit? 16)) = ((p * 16 + q) * 16 + r) * 16 + t := by
    simp [Number.ofDigits, hpvalue, hqvalue, hrvalue, htvalue]
  rw [Scalar.escape, Cursor.peek, he]
  simp only [List.cons_append, List.head?_cons, show Scalar.escaped? 'u' = none from rfl,
    show Scalar.escapeWidth? 'u' = some 4 from rfl, htake, hdigits, if_true, hvalue, hcode]
  rfl

/-- The short escapes of JSON are among those of YAML. -/
theorem escaped?_of_json {letter stands : Char} (h : Json.escaped? letter = some stands) :
    Scalar.escaped? letter = some stands := by
  unfold Json.escaped? at h
  split at h
  · next hself =>
    cases h
    simp only [Bool.or_eq_true, beq_iff_eq] at hself
    rcases hself with (rfl | rfl) | rfl <;> rfl
  repeat
    split at h
    · next hletter =>
      cases h
      rw [beq_iff_eq.mp hletter]
      rfl
  cases h

/-- **A piece that is not white by itself is read as its character.** -/
theorem exists_quoted_piece {p : Piece} (hp : isSoft p = false) {fuel : Nat} {c : Cursor} {y : List Char}
    (hc : c.rest = p.chars ++ y) :
    ∃ c', c'.rest = y ∧ Scalar.quoted true (fuel + 1) c =
      (Scalar.quoted true fuel c').map fun r => (unitChar p.unit :: r.1, r.2) := by
  -- a turn at a backslash
  have hescape : ∀ {w : List Char} {u : Nat} {e : Cursor}, c.rest = '\\' :: w →
      Scalar.escape fuel c.next = .ok ([unitChar u], e) → Scalar.quoted true (fuel + 1) c =
        (Scalar.quoted true fuel e).map fun r => (unitChar u :: r.1, r.2) := by
    intro w u e hrest he
    have hwhite : isWhite '\\' = false := rfl
    rw [Scalar.quoted, hrest]
    simp only [hwhite, he, bind, Except.bind]
    cases Scalar.quoted true fuel e <;> rfl
  cases p with
  | plain ch fits =>
    have hwhite : isWhite ch = false := hp
    refine ⟨c.next, by rw [Cursor.rest_next, hc]; rfl, ?_⟩
    have hquote : (true && ch == '"') = false := by simpa using fits.2.1
    have hslash : (true && ch == '\\') = false := by simpa using fits.2.2
    rw [Scalar.quoted, hc]
    simp only [Piece.chars, Piece.unit, List.singleton_append, hwhite, hquote, hslash, Bool.not_true, Bool.false_and,
      Bool.false_eq_true, if_false, Json.unitChar_toNat, bind, Except.bind]
    cases Scalar.quoted true fuel c.next <;> rfl
  | short letter stands fits =>
    have hnext : c.next.rest = letter :: y := by rw [Cursor.rest_next, hc]; rfl
    refine ⟨c.next.next, by rw [Cursor.rest_next, hnext]; rfl, hescape hc ?_⟩
    rw [Scalar.escape, Cursor.peek, hnext]
    simp only [List.head?_cons, escaped?_of_json fits, Piece.unit, Json.unitChar_toNat]
  | hex a b d e u fits =>
    have hnext : c.next.rest = ['u', a, b, d, e] ++ y := by rw [Cursor.rest_next, hc]; rfl
    obtain ⟨c', hrest, hunit⟩ := exists_escape_unit fits fuel hnext
    exact ⟨c', hrest, hescape hc hunit⟩

/-- How the text before a closing quote is read: not at all if it has a divider, and else as these characters. -/
structure ReadsAs (raw x text : List Char) : Prop where
  quotes : hasDivider raw = false → Quotes true (raw ++ '"' :: x) text x
  fails : hasDivider raw = true → ∀ fuel (c : Cursor), c.rest = raw ++ '"' :: x →
    (raw ++ '"' :: x).length < fuel → ∃ e, Scalar.quoted true fuel c = .error e

theorem ReadsAs.nil (x : List Char) : ReadsAs [] x [] := ⟨fun _ => .close_double, fun h => by cases h⟩

/-- A turn of the reader in front of what is known. -/
theorem ReadsAs.of_turn {w raw x chars more : List Char} {stops : Bool} (h : ReadsAs raw x more) (hw : w ≠ [])
    (hdivider : hasDivider (w ++ raw) = (stops || hasDivider raw))
    (hturn : ∀ fuel (c : Cursor), c.rest = w ++ (raw ++ '"' :: x) → w.length ≤ fuel →
      ∃ c', c'.rest = raw ++ '"' :: x ∧ Scalar.quoted true (fuel + 1) c =
        if stops then .error .malformed else (Scalar.quoted true fuel c').map fun r => (chars ++ r.1, r.2)) :
    ReadsAs (w ++ raw) x (chars ++ more) := by
  have hpositive : 0 < w.length := List.length_pos_iff.mpr hw
  rw [← List.append_assoc] at hturn
  -- the turn stops where the divider is in front, else the divider is in what is left
  refine ⟨fun hno => ?_, fun hyes fuel c hc hfuel => ?_⟩
  · rw [hdivider, Bool.or_eq_false_iff] at hno
    refine Quotes.of_turn fun fuel c hc hfuel => ?_
    simp only [List.length_append] at hfuel
    obtain ⟨c', hrest, hrun⟩ := hturn fuel c hc (by omega)
    obtain ⟨e, hquoted, he⟩ := h.quotes hno.2 fuel c' hrest (by simp only [List.length_append]; omega)
    refine ⟨e, ?_, he⟩
    rw [hrun, hno.1, if_neg Bool.false_ne_true, hquoted]
    rfl
  · cases fuel with
    | zero => exact absurd hfuel (Nat.not_lt_zero _)
    | succ fuel =>
      simp only [List.length_append] at hfuel
      obtain ⟨c', hrest, hrun⟩ := hturn fuel c hc (by omega)
      rw [hrun]
      split
      · exact ⟨_, rfl⟩
      · next hgo =>
        rw [hdivider, Bool.eq_false_iff.mpr hgo, Bool.false_or] at hyes
        obtain ⟨e, he⟩ := h.fails hyes fuel c' hrest (by simp only [List.length_append]; omega)
        exact ⟨e, by rw [he]; rfl⟩

theorem startsDivider_of_ne {c : Char} (hc : c ≠ '-' ∧ c ≠ '.') (y : List Char) : startsDivider (c :: y) = false := by
  have hdash : (c == '-') = false := beq_eq_false_iff_ne.mpr hc.1
  have hdot : (c == '.') = false := beq_eq_false_iff_ne.mpr hc.2
  unfold startsDivider
  split
  · next heq =>
    obtain ⟨rfl, -⟩ := List.cons.inj heq
    rw [hdash, hdot]
    rfl
  · rfl

theorem hasDivider_run {run : List Char} (hrun : ∀ c ∈ run, isWhite c = true) (raw : List Char) :
    hasDivider (run ++ raw) = ((run.getLast?.any isBreak && startsDivider raw) || hasDivider raw) := by
  induction run with
  | nil => rfl
  | cons c run ih =>
    have hmore := ih fun d hd => hrun d (List.mem_cons_of_mem c hd)
    cases run with
    | nil => rfl
    | cons d run =>
      -- a line that goes on with white divides nothing
      have hstarts : startsDivider (d :: run ++ raw) = false :=
        startsDivider_of_ne (ne_mark_of_isWhite (hrun d (List.mem_cons_of_mem c List.mem_cons_self))) _
      rw [List.cons_append, hasDivider, hstarts, Bool.and_false, Bool.false_or, hmore, List.getLast?_cons_cons]

theorem ReadsAs.run {run raw x more : List Char} (h : ReadsAs raw x more)
    (hrun : ∀ c ∈ run, isWhite c = true ∧ c ≠ '\r') (hseen : BeginsSeen (raw ++ '"' :: x)) :
    ReadsAs (run ++ raw) x (foldRun run ++ more) := by
  by_cases hne : run = []
  · subst hne
    exact h
  · exact h.of_turn hne (hasDivider_run (fun c hc => (hrun c hc).1) raw) fun fuel c hc hfuel =>
      exists_quoted_run hrun hne hseen (fun _ => atDivider_of_rest) hc hfuel

/-- What holds of no line break holds of other characters only. -/
theorem isBreak_of_ne_none {α : Type} {f : Char → Option α} {c : Char} {x : α} (h : f c = some x)
    (hreturn : f '\r' = none) (hnewline : f '\n' = none) (hnext : f '\u0085' = none)
    (hline : f '\u2028' = none) (hparagraph : f '\u2029' = none) : isBreak c = false := by
  cases hbreak : isBreak c with
  | false => rfl
  | true =>
    simp only [isBreak, Bool.or_eq_true, beq_iff_eq] at hbreak
    rcases hbreak with (((rfl | rfl) | rfl) | rfl) | rfl <;> simp_all

theorem hasDivider_piece {p : Piece} (hp : isSoft p = false) (raw : List Char) :
    hasDivider (p.chars ++ raw) = hasDivider raw := by
  have hseen : ∀ w : List Char, (∀ c ∈ w, isBreak c = false) → hasDivider (w ++ raw) = hasDivider raw := by
    intro w hw
    induction w with
    | nil => rfl
    | cons c w ih =>
      rw [List.cons_append, hasDivider, hw c List.mem_cons_self, Bool.false_and, Bool.false_or,
        ih fun d hd => hw d (List.mem_cons_of_mem c hd)]
  -- no character of the piece is a break, be it written as itself or escaped
  refine hseen p.chars fun c hc => ?_
  cases p with
  | plain ch fits =>
    rw [List.mem_singleton.mp hc]
    have hwhite : isWhite ch = false := hp
    simp only [isWhite, Bool.or_eq_false_iff] at hwhite
    exact hwhite.2
  | short letter stands fits =>
    simp only [Piece.chars, List.mem_cons, List.not_mem_nil, or_false] at hc
    rcases hc with rfl | rfl
    · rfl
    · exact isBreak_of_ne_none fits rfl rfl rfl rfl rfl
  | hex a b d e u fits =>
    simp only [Json.unit?, Option.bind_eq_bind, Option.bind_eq_some_iff] at fits
    obtain ⟨p, hp, q, hq, r, hr, t, ht, -⟩ := fits
    simp only [Piece.chars, List.mem_cons, List.not_mem_nil, or_false] at hc
    rcases hc with rfl | rfl | rfl | rfl | rfl | rfl
    · rfl
    · rfl
    · exact isBreak_of_ne_none hp rfl rfl rfl rfl rfl
    · exact isBreak_of_ne_none hq rfl rfl rfl rfl rfl
    · exact isBreak_of_ne_none hr rfl rfl rfl rfl rfl
    · exact isBreak_of_ne_none ht rfl rfl rfl rfl rfl

theorem ReadsAs.piece {p : Piece} {raw x more : List Char} (h : ReadsAs raw x more) (hp : isSoft p = false) :
    ReadsAs (p.chars ++ raw) x (unitChar p.unit :: more) := by
  have hdivider : hasDivider (p.chars ++ raw) = (false || hasDivider raw) := hasDivider_piece hp raw
  change ReadsAs (p.chars ++ raw) x ([unitChar p.unit] ++ more)
  refine h.of_turn (by cases p <;> simp [Piece.chars]) hdivider fun fuel c hc _ => ?_
  obtain ⟨c', hrest, hrun⟩ := exists_quoted_piece hp hc
  exact ⟨c', hrest, hrun⟩

theorem beginsSeen_piece {p : Piece} (hp : isSoft p = false) (y : List Char) : BeginsSeen (p.chars ++ y) := by
  cases p with
  | plain ch fits => exact .cons hp y
  | short letter stands fits => exact .cons (by decide) _
  | hex a b c d u fits => exact .cons (by decide) _

/-- **How YAML reads a string of JSON.** -/
theorem readsAs_pieces (x : List Char) (ps : List Piece) (run : List Char)
    (hrun : ∀ c ∈ run, isWhite c = true ∧ c ≠ '\r') : ReadsAs (run ++ rawChars ps) x (foldedText run ps) := by
  induction ps generalizing run with
  | nil =>
    have h := (ReadsAs.nil x).run hrun (.cons (by decide) x)
    rw [List.append_nil (foldRun run)] at h
    exact h
  | cons p ps ih =>
    have hraw : rawChars (p :: ps) = p.chars ++ rawChars ps := List.flatMap_cons
    rw [foldedText, hraw]
    cases hp : isSoft p with
    | true =>
      -- the row of white goes on
      cases p with
      | plain ch fits =>
        have hch : isWhite ch = true ∧ ch ≠ '\r' := ⟨hp, by rintro rfl; exact absurd fits.1 (by decide)⟩
        have h := ih (run ++ [ch]) fun c hc => by
          rcases List.mem_append.mp hc with hc | hc
          · exact hrun c hc
          · exact List.mem_singleton.mp hc ▸ hch
        rw [List.append_assoc] at h
        rw [if_pos rfl, Piece.unit, Json.unitChar_toNat]
        exact h
      | short => cases hp
      | hex => cases hp
    | false =>
      -- the row ends here
      have h := (ih [] (by simp)).piece hp
      rw [if_neg Bool.false_ne_true]
      refine h.run hrun ?_
      rw [List.append_assoc]
      exact beginsSeen_piece hp _

end CommentStyle.Yaml
