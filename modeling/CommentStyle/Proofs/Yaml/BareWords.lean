import CommentStyle.Proofs.Json.Scalars
import CommentStyle.Proofs.Number.Numeral
import CommentStyle.Proofs.Yaml.Tokens
import CommentStyle.Yaml.ScalarValue

/-!
# Numbers and words in a YAML text

Whole numbers, truth values and the names of kinds are written bare: letters and digits, behind a minus at
most. Such a word is a plain scalar wherever it stands, and its form says what it is.

* **`IsBare`** — such a word; it is plain (`IsBare.plainly`) and begins no mark (`IsBare.startsPlain`).
* **`reads_bare`** — the tokens of an entry whose value is bare.
* **`ofPlain_toString`**, **`int_toString`** — a whole number has the form of one, and reads as itself if it
  is not too long.
-/

namespace CommentStyle.Yaml

/-! ## Bare words -/

/-- Letters and digits, behind a minus at most. -/
def IsBare (t : List Char) : Prop :=
  ∃ sign w, t = sign ++ w ∧ (sign = [] ∨ sign = ['-']) ∧ w ≠ [] ∧ ∀ c ∈ w, c.isAlphanum = true

theorem toNat_of_isAlphanum {c : Char} (hc : c.isAlphanum = true) : 0x30 ≤ c.toNat ∧ c.toNat ≤ 0x7A := by
  rcases Bool.or_eq_true_iff.mp hc with halpha | hdigit
  · rcases Bool.or_eq_true_iff.mp halpha with hupper | hlower
    · obtain ⟨hlow, hhigh⟩ : 65 ≤ c.toNat ∧ c.toNat ≤ 90 := of_decide_eq_true hupper
      omega
    · have hlow : 97 ≤ c.toNat := of_decide_eq_true (Bool.and_eq_true_iff.mp hlower).1
      have hhigh : c.toNat ≤ 122 := of_decide_eq_true (Bool.and_eq_true_iff.mp hlower).2
      omega
  · have hrange := Number.toNat_of_isDigit hdigit
    omega

theorem ne_of_isAlphanum {c d : Char} (hc : c.isAlphanum = true) (hd : d.isAlphanum = false) : c ≠ d := by
  rintro rfl
  rw [hc] at hd
  cases hd

/-- A printable character of ASCII needs no quotes on its own account. -/
theorem writer_of_toNat {c : Char} (hlow : 0x20 ≤ c.toNat) (hhigh : c.toNat ≤ 0x7E) :
    Writer.isBreak c = false ∧ Writer.isSpecial c = false := by
  have hne : ∀ d : Char, d.toNat < 0x20 ∨ 0x7E < d.toNat → c ≠ d := by
    rintro d hd rfl
    omega
  constructor
  · simp [Writer.isBreak, hne '\n' (by decide), hne '\u0085' (by decide), hne '\u2028' (by decide),
      hne '\u2029' (by decide)]
  · simp [Writer.isSpecial, hlow, hhigh, hne '\uFEFF' (by decide)]

namespace IsBare

variable {t : List Char}

theorem chars (ht : IsBare t) : ∀ c ∈ t, c.isAlphanum = true ∨ c = '-' := by
  obtain ⟨sign, w, rfl, hsign, -, hw⟩ := ht
  intro c hc
  rcases List.mem_append.mp hc with hc | hc
  · rcases hsign with rfl | rfl
    · cases hc
    · exact .inr (List.mem_singleton.mp hc)
  · exact .inl (hw c hc)

theorem toNat (ht : IsBare t) : ∀ c ∈ t, 0x20 ≤ c.toNat ∧ c.toNat ≤ 0x7E := by
  intro c hc
  rcases ht.chars c hc with h | rfl
  · have := toNat_of_isAlphanum h
    omega
  · decide

theorem ne_of_mem (ht : IsBare t) {c d : Char} (hc : c ∈ t) (hd : d.isAlphanum = false) (hminus : d ≠ '-') :
    c ≠ d := by
  rcases ht.chars c hc with h | rfl
  · exact ne_of_isAlphanum h hd
  · exact Ne.symm hminus

theorem blank_notMem (ht : IsBare t) : ' ' ∉ t := fun h => ht.ne_of_mem h (by decide) (by decide) rfl

theorem exists_cons (ht : IsBare t) : ∃ c rest, t = c :: rest := by
  obtain ⟨sign, w, rfl, -, hne, -⟩ := ht
  exact List.exists_cons_of_ne_nil fun h => hne (List.append_eq_nil_iff.mp h).2

end IsBare

theorem plainBody_of_forall {t : List Char} (ht : ∀ c ∈ t, c ≠ ':' ∧ c ≠ '#') (before : Char) :
    Writer.plainBody before t = true := by
  induction t generalizing before with
  | nil => rfl
  | cons c t ih =>
    obtain ⟨hcolon, hsharp⟩ := ht c List.mem_cons_self
    simp [Writer.plainBody, hcolon, hsharp, ih fun d hd => ht d (List.mem_cons_of_mem c hd)]

theorem IsBare.plainly {t : List Char} (ht : IsBare t) : Plainly t := by
  obtain ⟨c, rest, hcons⟩ := ht.exists_cons
  have hne : ∀ d ∈ t, d ≠ ' ' ∧ d ≠ '#' ∧ d ≠ ':' := fun d hd =>
    ⟨ht.ne_of_mem hd (by decide) (by decide), ht.ne_of_mem hd (by decide) (by decide),
      ht.ne_of_mem hd (by decide) (by decide)⟩
  have hc := hne c (by rw [hcons]; exact List.mem_cons_self)
  refine ⟨⟨c, rest, hcons, hc.1, hc.2.1⟩, fun hlast => ?_, fun d hd => ?_, ?_⟩
  · exact ht.blank_notMem (List.mem_of_mem_getLast? hlast)
  · exact writer_of_toNat (ht.toNat d hd).1 (ht.toNat d hd).2
  · exact plainBody_of_forall (fun d hd => ⟨(hne d hd).2.2, (hne d hd).2.1⟩) ' '

theorem isWhite_of_isAlphanum {c : Char} (hc : c.isAlphanum = true) : isWhite c = false := by
  have hrange := toNat_of_isAlphanum hc
  have hwriter := writer_of_toNat (c := c) (by omega) (by omega)
  exact isWhite_eq_false hwriter.1 hwriter.2 (ne_of_isAlphanum hc (by decide))

theorem IsBare.startsPlain {t : List Char} (ht : IsBare t) (x : List Char) : Lexer.StartsPlain (t ++ x) := by
  obtain ⟨sign, w, rfl, hsign, hne, hw⟩ := ht
  obtain ⟨d, w, rfl⟩ := List.exists_cons_of_ne_nil hne
  have hd := hw d List.mem_cons_self
  rcases hsign with rfl | rfl
  · refine ⟨d, w ++ x, rfl, isWhite_of_isAlphanum hd, ?_, fun hmarks => ?_⟩
    · have hmarks : ("#,[]\x7b\x7d&*!|>'\"%@`".toList.all fun mark => !mark.isAlphanum) = true := by decide
      rw [List.contains_eq_mem, decide_eq_false_iff_not]
      exact fun hmem => ne_of_isAlphanum hd (by simpa using List.all_eq_true.mp hmarks d hmem) rfl
    · rcases hmarks with h | h | h <;> exact absurd h (ne_of_isAlphanum hd (by decide))
  · exact ⟨'-', d :: w ++ x, rfl, by decide, by decide, fun _ => isWhite_of_isAlphanum hd⟩

/-- A word with a bare value on its line; the next line begins no deeper than the word. -/
theorem reads_bare {p : Stance} {column n : Nat} {blocks : List Nat} {w t x : List Char} {ts : List Token}
    (hw : Lexer.IsWord w) (ht : IsBare t)
    (hskip : Lexer.Skips p
      ⟨w ++ ':' :: ' ' :: (t ++ '\n' :: (List.replicate n ' ' ++ x)), column, blocks, true⟩)
    (hpos : 0 < n) (hn : n ≤ column) (hx : Lexer.BeginsToken x)
    (h : Lexer.Reads ⟨x, n, Lexer.opened column (Lexer.upTo column blocks), true⟩ ts) :
    Lexer.Reads p (Lexer.closing column blocks ++
      (Lexer.opening .blockMapping column (Lexer.upTo column blocks) ++ [.key, .scalar w true, .value] ++
        .scalar t true :: ts)) := by
  have hblock := Lexer.indentOf_opened column blocks
  refine Lexer.reads_key hw rfl hskip (by omega) ?_
  have hstarts := ht.startsPlain ('\n' :: (List.replicate n ' ' ++ x))
  have hvalue := Lexer.Skips.blanks 1 hstarts.beginsToken (column + w.length + 1)
    (Lexer.opened column (Lexer.upTo column blocks)) false
  -- without a blank there is nowhere to fold
  have hwritten : t ++ '\n' :: (List.replicate n ' ' ++ x) =
      Writer.plain 0 false t ++ '\n' :: (List.replicate n ' ' ++ x) := by
    rw [plain_of_not_mem ht.blank_notMem]
  rw [hwritten] at hstarts hvalue ⊢
  refine Lexer.reads_plain ht.plainly hvalue ?_ ?_ hstarts ?_ ?_ hx.1 ?_ h
  · omega
  · rw [hblock]
    omega
  · exact fun hblank => absurd hblank ht.blank_notMem
  · rw [hblock]
    omega
  · intro d hd
    -- a line that begins with a blank divides no documents
    obtain ⟨n, rfl⟩ := Nat.exists_eq_succ_of_ne_zero (Nat.ne_of_gt hpos)
    refine Cursor.atDivider_eq_false fun ch hch => ?_
    rw [hd, List.replicate_succ] at hch
    cases hch
    decide

/-! ## Whole numbers -/

theorem isBare_toString (n : Int) : IsBare (toString n).toList := by
  refine ⟨if n < 0 then ['-'] else [], Nat.toDigits 10 n.natAbs, Json.toList_toString n, ?_,
    Nat.toDigits_ne_nil, fun c hc => ?_⟩
  · split
    · exact .inr rfl
    · exact .inl rfl
  · have hdigit := Nat.isDigit_of_mem_toDigits (by decide) (by decide) hc
    simp [Char.isAlphanum, hdigit]

theorem withoutFinalBreak_of_notMem {t : List Char} (ht : '\n' ∉ t) : Form.withoutFinalBreak t = t := by
  unfold Form.withoutFinalBreak
  split
  · next c rest h =>
    have hmem : '\n' ∈ t := List.mem_reverse.mp (by rw [h]; exact List.mem_cons_self)
    exact absurd hmem ht
  · rfl

theorem isDigitOrBar_of_mem {n : Nat} : ∀ c ∈ Nat.toDigits 10 n, Form.isDigitOrBar c = true := by
  intro c hc
  have hdigit : Form.isDigit c = true := Json.isDigit_of_mem_toDigits hc
  rw [Form.isDigitOrBar, hdigit, Bool.true_or]

/-- Nothing is left of the digits of a number but digits. -/
theorem dropWhile_toDigits (n : Nat) : (Nat.toDigits 10 n).dropWhile Form.isDigitOrBar = [] :=
  List.dropWhile_eq_nil_iff.mpr isDigitOrBar_of_mem

theorem dropSign_toString (n : Int) : Form.dropSign (toString n).toList = Nat.toDigits 10 n.natAbs := by
  obtain ⟨d, ds, hcons, hd, -⟩ := Json.toDigits_eq_cons n.natAbs
  rw [Json.toList_toString]
  split
  · rfl
  · rw [hcons, List.nil_append]
    unfold Form.dropSign
    split
    · next h => exact absurd (List.cons.inj h).1 (Json.ne_of_isDigit hd (by decide))
    · next h => exact absurd (List.cons.inj h).1 (Json.ne_of_isDigit hd (by decide))
    · rfl

/-- Among words that begin otherwise the text is not found. -/
theorem contains_ofList_eq_false {ws : List String} {c : Char} {cs : List Char} (p : Char → Bool)
    (hc : p c = true) (hws : (ws.all fun w => w.toList.head?.all fun x => !p x) = true) :
    ws.contains (String.ofList (c :: cs)) = false := by
  rw [List.contains_eq_mem, decide_eq_false_iff_not]
  intro hmem
  have hword := List.all_eq_true.mp hws _ hmem
  rw [String.toList_ofList] at hword
  simp [hc] at hword

/-- A number begins with a minus or a digit. -/
theorem exists_toString_eq_cons (n : Int) :
    ∃ c cs, (toString n).toList = c :: cs ∧ (c == '-' || Form.isDigit c) = true := by
  obtain ⟨c, cs, hcons, hc⟩ := Json.toString_eq_cons n
  refine ⟨c, cs, hcons, ?_⟩
  by_contra hnot
  simp only [Bool.or_eq_true, beq_iff_eq, not_or, Bool.not_eq_true] at hnot
  exact hc c hnot.1 hnot.2 rfl

theorem isTruthWord_toString (n : Int) : Form.isTruthWord (toString n).toList = false := by
  obtain ⟨c, cs, hcons, hc⟩ := exists_toString_eq_cons n
  rw [hcons]
  exact contains_ofList_eq_false (fun c => c == '-' || Form.isDigit c) hc (by decide)

theorem isFloat_toString (n : Int) : Form.isFloat (toString n).toList = false := by
  obtain ⟨c, cs, hcons, hc⟩ := exists_toString_eq_cons n
  obtain ⟨d, ds, hdigits, hd, -⟩ := Json.toDigits_eq_cons n.natAbs
  have hrest := dropWhile_toDigits n.natAbs
  have hpoint : c ≠ '.' := by
    rintro rfl
    exact absurd hc (by decide)
  have hinfinity : [".inf", ".Inf", ".INF"].contains (String.ofList (d :: ds)) = false :=
    contains_ofList_eq_false Form.isDigit hd (by decide)
  have hnan : [".nan", ".NaN", ".NAN"].contains (String.ofList (c :: cs)) = false :=
    contains_ofList_eq_false (fun c => c == '-' || Form.isDigit c) hc (by decide)
  rw [hdigits] at hrest
  unfold Form.isFloat
  rw [dropSign_toString, hcons, hdigits]
  simp only [hrest, hinfinity, hnan, Form.sixties?, Bool.or_false, Bool.and_false, List.length_nil]
  split
  · next h => exact absurd (List.cons.inj h).1 hpoint
  · rfl

theorem isInt_toString (n : Int) : Form.isInt (toString n).toList = true := by
  by_cases hn : n.natAbs = 0
  · rw [Form.isInt, dropSign_toString, hn]
    rfl
  · obtain ⟨d, ds, hdigits, hd, hzero⟩ := Json.toDigits_eq_cons n.natAbs
    have hzero := hzero hn
    have hrest : ds.dropWhile Form.isDigitOrBar = [] := by
      refine List.dropWhile_eq_nil_iff.mpr fun c hc => isDigitOrBar_of_mem (n := n.natAbs) c ?_
      rw [hdigits]
      exact List.mem_cons_of_mem d hc
    rw [Form.isInt, dropSign_toString, hdigits]
    split
    · next h => exact absurd (List.cons.inj h).1 hzero
    · next h => exact absurd (List.cons.inj h).1 hzero
    · next h => exact absurd (List.cons.inj h).1 hzero
    · next h => exact absurd (List.cons.inj h).1 hzero
    · next h =>
      obtain ⟨rfl, rfl⟩ := List.cons.inj h
      rw [hrest, show Form.isDigit d = true from hd]
      rfl
    · next h => cases h

/-- A whole number has the form of one. -/
theorem ofPlain_toString (n : Int) : Tag.ofPlain (toString n).toList = .int := by
  have hbreak : '\n' ∉ (toString n).toList := fun h =>
    (isBare_toString n).ne_of_mem h (by decide) (by decide) rfl
  simp only [Tag.ofPlain, withoutFinalBreak_of_notMem hbreak, isTruthWord_toString, isFloat_toString,
    isInt_toString, Bool.false_eq_true, if_false, if_true]

/-- A whole number reads as itself. -/
theorem int_toString {n : Int} (hn : Number.isWritable n = true) :
    Scalar.int (toString n).toList = .ok n := by
  have hwhole := Number.whole?_toDigits (Json.length_toDigits_le hn)
  obtain ⟨d, ds, hdigits, hd, hzero⟩ := Json.toDigits_eq_cons n.natAbs
  have hundivided : Scalar.undivided (toString n).toList = (toString n).toList := by
    refine List.filter_eq_self.mpr fun c hc => ?_
    simpa using (isBare_toString n).ne_of_mem hc (by decide) (by decide)
  -- the sign is split off, and a digit is not taken for one
  have hsigned : Scalar.signed (toString n).toList = .ok (decide (n < 0), Nat.toDigits 10 n.natAbs) := by
    rw [Json.toList_toString]
    by_cases hneg : n < 0
    · rw [if_pos hneg, decide_eq_true hneg]
      rfl
    · rw [if_neg hneg, decide_eq_false hneg, List.nil_append, hdigits]
      unfold Scalar.signed
      split
      · next h => cases h
      · next h => exact absurd (List.cons.inj h).1 (Json.ne_of_isDigit hd (by decide))
      · next h => exact absurd (List.cons.inj h).1 (Json.ne_of_isDigit hd (by decide))
      · rfl
  have hresult : (if decide (n < 0) = true then -(n.natAbs : Int) else n.natAbs) = n := by
    split
    · next h => rw [decide_eq_true_iff] at h; omega
    · next h => rw [decide_eq_true_iff] at h; omega
  rw [Scalar.int, hundivided, hsigned]
  simp only [bind, Except.bind]
  by_cases hn : n.natAbs = 0
  · rw [hn] at hresult ⊢
    exact congrArg Except.ok hresult
  · have hzero := hzero hn
    have hcolon : (d :: ds).contains ':' = false := by
      rw [List.contains_eq_mem, decide_eq_false_iff_not, ← hdigits]
      exact fun h => Json.ne_of_isDigit (Json.isDigit_of_mem_toDigits h) (by decide) rfl
    -- the first digit is not zero, so no other base is meant
    rw [hdigits] at hwhole ⊢
    split
    · next h => cases h
    · next h => exact absurd (List.cons.inj h).1 hzero
    · next h => exact absurd (List.cons.inj h).1 hzero
    · next h => exact absurd (List.cons.inj h).1 hzero
    · next h => exact absurd (List.cons.inj h).1 hzero
    · simp only [hcolon, hwhole, Scalar.number, Except.mapError, Bool.false_eq_true, if_false]
      exact congrArg Except.ok hresult

end CommentStyle.Yaml
