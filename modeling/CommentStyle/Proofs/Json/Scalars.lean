import CommentStyle.Json.Reader
import CommentStyle.Json.Writer

/-!
# Written scalars are read back

The bricks of the round trip through JSON: each kind of scalar, followed by whatever may stand behind a
value, is read back to what was written, and the reader stops exactly where the writer did.

* **Strings** — `escape_cases` lists the three forms in which a character is written. Each of them gives
  back the one code unit of its character (`stringUnits_escape`), and since the code of a character is
  never a surrogate, the units of a text are its characters again (`charsOfUnits_map_toNat`).
* **Whole numbers** — the decimal digits of a number have no leading zero, so that the reader takes all of
  them (`wholeDigits_toDigits`), and they stand for the number (`ofDigits_toDigits`).
* **`Ends`** — what may stand behind a value. A number has no closing mark of its own, so its reading
  depends on this.
-/

namespace CommentStyle.Json

/-! ## Strings -/

theorem isHighSurrogate_toNat (c : Char) : isHighSurrogate c.toNat = false := by
  have hvalid : c.toNat < 0xD800 ∨ (0xDFFF < c.toNat ∧ c.toNat < 0x110000) := c.valid
  simp only [isHighSurrogate, Bool.and_eq_false_iff, decide_eq_false_iff_not]
  omega

theorem isLowSurrogate_toNat (c : Char) : isLowSurrogate c.toNat = false := by
  have hvalid : c.toNat < 0xD800 ∨ (0xDFFF < c.toNat ∧ c.toNat < 0x110000) := c.valid
  simp only [isLowSurrogate, Bool.and_eq_false_iff, decide_eq_false_iff_not]
  omega

theorem unitChar_toNat (c : Char) : unitChar c.toNat = c := by
  unfold unitChar
  rw [isHighSurrogate_toNat, isLowSurrogate_toNat]
  exact Char.ofNat_toNat c

/-- The codes of a text's characters are its code units: none of them is half of a pair. -/
theorem charsOfUnits_map_toNat (cs : List Char) : charsOfUnits (cs.map Char.toNat) = cs := by
  induction cs with
  | nil => rfl
  | cons c cs ih =>
    cases cs with
    | nil => rw [List.map_singleton, charsOfUnits, unitChar_toNat]
    | cons d ds =>
      rw [List.map_cons] at ih
      rw [List.map_cons, List.map_cons, charsOfUnits, isHighSurrogate_toNat, unitChar_toNat, ih]
      rfl

/-- A control is written with two zeros and its two digits, which the reader takes for its code again. -/
theorem hex_control {n : Nat} (hn : n < 0x20) :
    ∃ a b c d, Text.hex 4 n = [a, b, c, d] ∧ unit? a b c d = some n ∧ '\r' ∉ [a, b, c, d] := by
  have hdigits : Text.hex 4 n = ['0', '0', Nat.digitChar (n / 16), Nat.digitChar (n % 16)] := by
    revert n
    decide
  refine ⟨_, _, _, _, hdigits, ?_⟩
  revert n
  decide

/-- The three forms of a written character: a letter behind a backslash, a code behind a backslash, or the
character itself. -/
theorem escape_cases (c : Char) :
    (∃ letter, escape c = ['\\', letter] ∧ escaped? letter = some c ∧ letter ≠ 'u') ∨
      (c.toNat < 0x20 ∧ escape c = '\\' :: 'u' :: Text.hex 4 c.toNat) ∨
      (0x20 ≤ c.toNat ∧ c ≠ '"' ∧ c ≠ '\\' ∧ escape c = [c]) := by
  by_cases hquote : c = '"'
  · subst hquote; exact Or.inl ⟨'"', by decide⟩
  by_cases hbackslash : c = '\\'
  · subst hbackslash; exact Or.inl ⟨'\\', by decide⟩
  by_cases hfeed : c = '\n'
  · subst hfeed; exact Or.inl ⟨'n', by decide⟩
  by_cases hreturn : c = '\r'
  · subst hreturn; exact Or.inl ⟨'r', by decide⟩
  by_cases htab : c = '\t'
  · subst htab; exact Or.inl ⟨'t', by decide⟩
  by_cases hback : c = '\x08'
  · subst hback; exact Or.inl ⟨'b', by decide⟩
  by_cases hpage : c = '\x0c'
  · subst hpage; exact Or.inl ⟨'f', by decide⟩
  right
  by_cases hcontrol : c.toNat < 0x20
  · left
    refine ⟨hcontrol, ?_⟩
    simp [escape, hquote, hbackslash, hfeed, hreturn, htab, hback, hpage, hcontrol]
  · right
    refine ⟨by omega, hquote, hbackslash, ?_⟩
    simp [escape, hquote, hbackslash, hfeed, hreturn, htab, hback, hpage, hcontrol]

/-- A written character gives its code unit. Something has to follow it, as the closing quote does. -/
theorem stringUnits_escape (opening : List Char) (c : Char) {rest : List Char} (hrest : rest ≠ []) :
    stringUnits opening (escape c ++ rest)
      = (stringUnits opening rest).map fun (us, r) => (c.toNat :: us, r) := by
  rcases escape_cases c with ⟨letter, hescape, hletter, hu⟩ | ⟨hcontrol, hescape⟩ |
    ⟨hvisible, hquote, hbackslash, hescape⟩
  · rw [hescape]
    simp [stringUnits, hletter, hu]
  · obtain ⟨a, b, d, e, hhex, hunit, -⟩ := hex_control hcontrol
    cases rest with
    | nil => exact absurd rfl hrest
    | cons f rest =>
      rw [hescape, hhex]
      simp [stringUnits, hunit]
  · rw [hescape, List.singleton_append]
    simp [stringUnits, hbackslash, Nat.not_lt.mpr hvisible]

theorem stringUnits_flatMap_escape (opening cs rest : List Char) :
    stringUnits opening (cs.flatMap escape ++ '"' :: rest) = .ok (cs.map Char.toNat, rest) := by
  induction cs with
  | nil => rfl
  | cons c cs ih =>
    have hbehind : cs.flatMap escape ++ '"' :: rest ≠ [] := by simp
    rw [List.flatMap_cons, List.append_assoc, stringUnits_escape opening c hbehind, ih]
    rfl

/-- A written string is read back up to its closing quote. -/
theorem string_escape (opening : List Char) (s : String) (rest : List Char) :
    string opening (s.toList.flatMap escape ++ '"' :: rest) = .ok (s, rest) := by
  unfold string
  rw [stringUnits_flatMap_escape]
  simp only [Except.map, charsOfUnits_map_toNat, String.ofList_toList]

/-! ## Whole numbers -/

/-- What may stand behind a value: nothing, or a character that no number goes on with. -/
def Ends (rest : List Char) : Prop :=
  ∀ c ∈ rest.head?, c = ',' ∨ c = ']' ∨ c = '}' ∨ c = '\n'

theorem Ends.nil : Ends [] := fun c hc => absurd hc (by simp)

theorem fraction_of_ends {rest : List Char} (hrest : Ends rest) : fraction rest = ([], rest) := by
  cases rest with
  | nil => rfl
  | cons c rest => rcases hrest c rfl with rfl | rfl | rfl | rfl <;> rfl

theorem exponent_of_ends {rest : List Char} (hrest : Ends rest) : exponent rest = ([], rest) := by
  cases rest with
  | nil => rfl
  | cons c rest => rcases hrest c rfl with rfl | rfl | rfl | rfl <;> rfl

theorem isDigit_of_mem_toDigits {n : Nat} {c : Char} (hc : c ∈ Nat.toDigits 10 n) :
    isDigit c = true :=
  Nat.isDigit_of_mem_toDigits (by decide) (by decide) hc

theorem ne_of_isDigit {d c : Char} (hd : isDigit d = true) (hc : isDigit c = false) : d ≠ c := by
  rintro rfl
  rw [hc] at hd
  exact absurd hd (by decide)

/-- The digits of a number begin with a zero only if they are that zero. -/
theorem toDigits_eq_cons (n : Nat) :
    ∃ d ds, Nat.toDigits 10 n = d :: ds ∧ isDigit d = true ∧ (n ≠ 0 → d ≠ '0') := by
  induction n using Nat.strongRecOn with
  | _ n ih =>
    by_cases hlt : n < 10
    · have hdigit : ∀ d < 10, isDigit d.digitChar = true ∧ (d ≠ 0 → d.digitChar ≠ '0') := by decide
      exact ⟨n.digitChar, [], Nat.toDigits_of_lt_base hlt, hdigit n hlt⟩
    · -- the leading digits are those of `n / 10`, which is not zero either
      obtain ⟨d, ds, hdigits, hd, hzero⟩ := ih (n / 10) (by omega)
      refine ⟨d, ds ++ [(n % 10).digitChar], ?_, hd, fun _ => hzero (by omega)⟩
      rw [Nat.toDigits_of_base_le (by decide) (by omega), hdigits, List.cons_append]

theorem wholeDigits_toDigits (n : Nat) {rest : List Char} (hrest : Ends rest) :
    wholeDigits (Nat.toDigits 10 n ++ rest) = (Nat.toDigits 10 n, rest) := by
  by_cases hn : n = 0
  · subst hn
    rfl
  · have hall : ∀ c ∈ Nat.toDigits 10 n, isDigit c = true := fun c hc => isDigit_of_mem_toDigits hc
    have hstop : rest.takeWhile isDigit = [] ∧ rest.dropWhile isDigit = rest := by
      cases rest with
      | nil => exact ⟨rfl, rfl⟩
      | cons c rest =>
        have hc : isDigit c = false := by
          rcases hrest c rfl with rfl | rfl | rfl | rfl <;> decide
        simp [hc]
    unfold wholeDigits
    split
    · next tail hzero =>
      obtain ⟨d, ds, hdigits, -, hd⟩ := toDigits_eq_cons n
      rw [hdigits, List.cons_append] at hzero
      exact absurd (List.cons.inj hzero).1 (hd hn)
    · rw [List.takeWhile_append_of_pos hall, List.dropWhile_append_of_pos hall, hstop.1, hstop.2,
        List.append_nil]

theorem foldl_hexValue? {cs : List Char} (hcs : ∀ c ∈ cs, isDigit c = true) (n : Nat) :
    (cs.filterMap hexValue?).foldl (fun n d => n * 10 + d) n = Nat.ofDigitChars 10 cs n := by
  induction cs generalizing n with
  | nil => simp
  | cons c cs ih =>
    have hvalue : hexValue? c = some (c.toNat - '0'.toNat) :=
      if_pos (by simpa [isDigit] using hcs c List.mem_cons_self)
    rw [List.filterMap_cons, hvalue, List.foldl_cons,
      ih (fun d hd => hcs d (List.mem_cons_of_mem c hd)), Nat.ofDigitChars_cons, Nat.mul_comm]

/-- The digits of a number stand for it. -/
theorem ofDigits_toDigits (n : Nat) :
    Number.ofDigits 10 ((Nat.toDigits 10 n).filterMap hexValue?) = n := by
  unfold Number.ofDigits
  rw [foldl_hexValue? (fun c hc => isDigit_of_mem_toDigits hc), Nat.ofDigitChars_ten_toDigits]

/-- A whole number is written as its digits, behind a minus if it is negative. -/
theorem toList_toString (n : Int) :
    (toString n).toList = (if n < 0 then ['-'] else []) ++ Nat.toDigits 10 n.natAbs := by
  rw [Int.toString_eq_repr, Int.repr_eq_if]
  by_cases hn : n < 0
  · rw [if_neg (by omega), if_pos hn, String.toList_append, Nat.toList_repr,
      show (-n).toNat = n.natAbs by omega]
    rfl
  · rw [if_pos (by omega), if_neg hn, Nat.toList_repr, show n.toNat = n.natAbs by omega]
    rfl

/-- A written whole number begins with a minus or a digit. -/
theorem toString_eq_cons (n : Int) :
    ∃ c cs, (toString n).toList = c :: cs ∧ ∀ x, x ≠ '-' → isDigit x = false → c ≠ x := by
  obtain ⟨d, ds, hdigits, hd, -⟩ := toDigits_eq_cons n.natAbs
  rw [toList_toString, hdigits]
  by_cases hneg : n < 0
  · rw [if_pos hneg]
    exact ⟨'-', d :: ds, rfl, fun x hminus _ => Ne.symm hminus⟩
  · rw [if_neg hneg]
    exact ⟨d, ds, rfl, fun x _ hx => ne_of_isDigit hd hx⟩

theorem length_toDigits_le {n : Int} (hn : Number.isWritable n = true) :
    (Nat.toDigits 10 n.natAbs).length ≤ NumberFault.digitLimit := by
  rw [Nat.length_toDigits_le_iff (by decide) (by decide)]
  rw [Number.isWritable, decide_eq_true_iff] at hn
  -- the power itself is not to be computed
  generalize NumberFault.digitLimit = limit at hn ⊢
  exact hn

/-- A written whole number is read back, if it is short enough to be read at all. -/
theorem number_toString {n : Int} (hn : Number.isWritable n = true) {rest : List Char}
    (hrest : Ends rest) :
    number {} ((toString n).toList ++ rest) = .ok (.int n, rest) := by
  have hlimit : ((some NumberFault.digitLimit).any
      fun most => (Nat.toDigits 10 n.natAbs).length > most) = false := by
    simpa using length_toDigits_le hn
  have hnonempty : (Nat.toDigits 10 n.natAbs).isEmpty = false := by simp
  have hsigned : Number.signed (!(if n < 0 then ['-'] else []).isEmpty) n.natAbs = n := by
    by_cases hneg : n < 0
    · rw [if_pos hneg]
      show -(n.natAbs : Int) = n
      omega
    · rw [if_neg hneg]
      show (n.natAbs : Int) = n
      omega
  rw [toList_toString, List.append_assoc]
  unfold number
  split
  next sign body hsplit =>
    -- a sign is taken off only where one was written, since no digit is a minus
    have hparts : sign = (if n < 0 then ['-'] else []) ∧ body = Nat.toDigits 10 n.natAbs ++ rest := by
      by_cases hneg : n < 0
      · rw [if_pos hneg] at hsplit ⊢
        exact ⟨(Prod.mk.inj hsplit).1.symm, (Prod.mk.inj hsplit).2.symm⟩
      · rw [if_neg hneg, List.nil_append] at hsplit
        rw [if_neg hneg]
        split at hsplit
        · next tail hminus =>
          obtain ⟨d, ds, hdigits, hd, -⟩ := toDigits_eq_cons n.natAbs
          rw [hdigits, List.cons_append] at hminus
          exact absurd (List.cons.inj hminus).1 (ne_of_isDigit hd (by decide))
        · exact ⟨(Prod.mk.inj hsplit).1.symm, (Prod.mk.inj hsplit).2.symm⟩
    rw [hparts.1, hparts.2, wholeDigits_toDigits _ hrest]
    simp only [hnonempty, fraction_of_ends hrest, exponent_of_ends hrest, hlimit, ofDigits_toDigits,
      List.isEmpty_nil, Bool.and_self, if_true, Bool.false_eq_true, if_false]
    rw [hsigned]

/-! ## Values that are neither strings nor collections -/

theorem afterWord?_of_ne {a c : Char} (hne : a ≠ c) (word cs : List Char) :
    afterWord? (a :: word) (c :: cs) = none := by
  simp [afterWord?, hne]

/-- A digit, or a minus and a digit, begins none of the words. -/
theorem bareValue_toString {n : Int} (hn : Number.isWritable n = true) {rest : List Char}
    (hrest : Ends rest) :
    bareValue {} ((toString n).toList ++ rest) = .ok (.int n, rest) := by
  rw [← number_toString hn hrest, toList_toString]
  obtain ⟨d, ds, hdigits, hd, -⟩ := toDigits_eq_cons n.natAbs
  have hletter : ∀ a, isDigit a = false → a ≠ d := fun a ha => (ne_of_isDigit hd ha).symm
  rw [hdigits]
  unfold bareValue
  by_cases hneg : n < 0
  · rw [if_pos hneg, List.cons_append, List.cons_append]
    have hinfinity : afterWord? ['-', 'I', 'n', 'f', 'i', 'n', 'i', 't', 'y']
        ('-' :: ([] ++ d :: ds ++ rest)) = none := by
      simp [afterWord?, hletter 'I' (by decide)]
    rw [afterWord?_of_ne (by decide), afterWord?_of_ne (by decide), afterWord?_of_ne (by decide),
      afterWord?_of_ne (by decide), afterWord?_of_ne (by decide), hinfinity]
  · rw [if_neg hneg, List.nil_append, List.cons_append]
    rw [afterWord?_of_ne (hletter _ (by decide)), afterWord?_of_ne (hletter _ (by decide)),
      afterWord?_of_ne (hletter _ (by decide)), afterWord?_of_ne (hletter _ (by decide)),
      afterWord?_of_ne (hletter _ (by decide)), afterWord?_of_ne (hletter _ (by decide))]

end CommentStyle.Json
