import CommentStyle.Number.Word
import Mathlib.Data.List.Induction
import Mathlib.Data.List.TakeWhile

/-!
# Numerals in ASCII

Number words accept the digits of any script, blanks and signs. Here is what they make of the numerals that
writers produce and that JSON knows: rows of ASCII digits, perhaps with a sign, a fraction and an exponent.

* **`digitValue?_of_isDigit`**, **`trimOf_of_forall`** — an ASCII digit has its value, and a text without
  blanks loses nothing.
* **`whole?_of_isDigit`** — a row of digits is read if it is short enough, so that (**`whole?_toDigits`**) the
  digits of a number are read as it.
* **`exists_real?`** — a numeral with a fraction or an exponent is always a number, and
  **`real?_of_decimal?`** — which one, so that its sign can be read apart (**`negate_ofDecimal`**).
-/

namespace CommentStyle.Number

/-! ## Digits -/

theorem toNat_of_isDigit {c : Char} (hc : c.isDigit = true) : 48 ≤ c.toNat ∧ c.toNat ≤ 57 := by
  simpa [Char.isDigit, UInt32.le_iff_toNat_le] using hc

theorem digitValue?_of_isDigit {c : Char} (hc : c.isDigit = true) :
    Text.digitValue? c = some (c.toNat - 48) := by
  have hrange := toNat_of_isDigit hc
  unfold Text.digitValue? Text.zeroDigits
  rw [List.find?_cons_of_pos (by simp; omega)]
  rfl

theorem isNumberBlank_of_isDigit {c : Char} (hc : c.isDigit = true) : Text.isNumberBlank c = false := by
  have hrange := toNat_of_isDigit hc
  have hblank : Text.isBlank c = false := by
    unfold Text.isBlank Text.blankPoints Text.CodePoints.hasChar
    simp only [Text.CodePoints.has]
    rw [if_neg (by omega), if_neg (by omega), if_pos (by omega)]
    simp
    omega
  rw [Text.isNumberBlank, hblank, Bool.false_and]

/-- A text without blanks loses nothing at its ends. -/
theorem trimOf_of_forall {drops : Char → Bool} {text : List Char} (h : ∀ c ∈ text, drops c = false) :
    Text.trimOf drops text = text := by
  have hkept : ∀ cs : List Char, (∀ c ∈ cs, drops c = false) → cs.dropWhile drops = cs := by
    intro cs hcs
    cases cs with
    | nil => rfl
    | cons c cs => rw [List.dropWhile_cons_of_neg (by simp [hcs c List.mem_cons_self])]
  unfold Text.trimOf
  rw [hkept text h, hkept _ (fun c hc => h c (List.mem_reverse.mp hc)), List.reverse_reverse]

theorem toLower_of_isDigit {c : Char} (hc : c.isDigit = true) : c.toLower = c := by
  have hrange := toNat_of_isDigit hc
  unfold Char.toLower
  rw [dif_neg]
  rintro ⟨hlow, -⟩
  have : 65 ≤ c.toNat := UInt32.le_iff_toNat_le.mp hlow
  omega

theorem splitSign_of_isDigit {c : Char} (hc : c.isDigit = true) (rest : List Char) :
    splitSign (c :: rest) = (false, c :: rest) := by
  have hrange := toNat_of_isDigit hc
  unfold splitSign
  split
  · next heq =>
    obtain ⟨rfl, -⟩ := List.cons.inj heq
    exact absurd hrange (by decide)
  · next heq =>
    obtain ⟨rfl, -⟩ := List.cons.inj heq
    exact absurd hrange (by decide)
  · rfl

theorem digit?_ten_of_isDigit {c : Char} (hc : c.isDigit = true) : digit? 10 c = some (c.toNat - 48) := by
  have hrange := toNat_of_isDigit hc
  have hlower : ¬ ('a' ≤ c ∧ c ≤ 'z') := fun h => by
    have : 97 ≤ c.toNat := h.1
    omega
  have hupper : ¬ ('A' ≤ c ∧ c ≤ 'Z') := fun h => by
    have : 65 ≤ c.toNat := h.1
    omega
  unfold digit?
  rw [if_neg hlower, if_neg hupper, digitValue?_of_isDigit hc]
  exact Option.filter_some_pos (decide_eq_true (by omega))

/-! ## Whole numbers -/

/-- A row of digits stands for less than the power that its length gives. -/
theorem ofDigits_lt {base : Nat} {ds : List Nat} (hds : ∀ d ∈ ds, d < base) :
    ofDigits base ds < Nat.pow base ds.length := by
  induction ds using List.reverseRecOn with
  | nil => exact Nat.one_pos
  | append_singleton ds d ih =>
    have hd : d < base := hds d (by simp)
    have hrest := ih fun e he => hds e (by simp [he])
    rw [ofDigits, List.foldl_append, ← ofDigits, List.length_append]
    calc ofDigits base ds * base + d < (ofDigits base ds + 1) * base := by
          rw [Nat.succ_mul]
          omega
      _ ≤ Nat.pow base ds.length * base := Nat.mul_le_mul_right base hrest

theorem mapM_digit?_ten {cs : List Char} (hcs : ∀ c ∈ cs, c.isDigit = true) :
    cs.mapM (digit? 10) = some (cs.map fun c => c.toNat - 48) := by
  induction cs with
  | nil => rfl
  | cons c cs ih =>
    rw [List.mapM_cons, digit?_ten_of_isDigit (hcs c List.mem_cons_self),
      ih fun d hd => hcs d (List.mem_cons_of_mem c hd)]
    rfl

theorem foldl_digits (cs : List Char) (n : Nat) :
    (cs.map fun c => c.toNat - 48).foldl (fun n d => n * 10 + d) n = Nat.ofDigitChars 10 cs n := by
  induction cs generalizing n with
  | nil => simp
  | cons c cs ih =>
    rw [List.map_cons, List.foldl_cons, ih, Nat.ofDigitChars_cons, Nat.mul_comm]
    rfl

/-- No letter names the base ten. -/
theorem dropBaseMark_ten (text : List Char) : dropBaseMark 10 text = text := by
  unfold dropBaseMark
  split
  · rw [if_neg]
    simp [baseMark]
  · rfl

/-- A row of decimal digits is read, unless it is too long. -/
theorem whole?_of_isDigit {cs : List Char} (hne : cs ≠ []) (hcs : ∀ c ∈ cs, c.isDigit = true) :
    whole? 10 cs = if cs.length > NumberFault.digitLimit then .error (.tooManyDigits cs.length)
      else .ok (ofDigits 10 (cs.map fun c => c.toNat - 48)) := by
  obtain ⟨d, ds, rfl⟩ := List.exists_cons_of_ne_nil hne
  have htrim : Text.trimOf Text.isNumberBlank (d :: ds) = d :: ds :=
    trimOf_of_forall fun c hc => isNumberBlank_of_isDigit (hcs c hc)
  have hsign : splitSign (d :: ds) = (false, d :: ds) := splitSign_of_isDigit (hcs d List.mem_cons_self) ds
  have hrun : ((d :: ds).takeWhile fun c => (digit? 10 c).isSome) = d :: ds :=
    List.takeWhile_eq_self_iff.mpr fun c hc => by rw [digit?_ten_of_isDigit (hcs c hc)]; rfl
  unfold whole?
  rw [htrim, hsign]
  simp only [dropBaseMark_ten, true_and, hrun, mapM_digit?_ten hcs]
  split
  · rfl
  · rfl

/-- The digits of a number are read as it, if they are few enough to be read. -/
theorem whole?_toDigits {n : Nat} (hn : (Nat.toDigits 10 n).length ≤ NumberFault.digitLimit) :
    whole? 10 (Nat.toDigits 10 n) = .ok n := by
  have hdigits : ∀ c ∈ Nat.toDigits 10 n, c.isDigit = true := fun c hc =>
    Nat.isDigit_of_mem_toDigits (by decide) (by decide) hc
  rw [whole?_of_isDigit Nat.toDigits_ne_nil hdigits, if_neg (Nat.not_lt.mpr hn), ofDigits, foldl_digits,
    Nat.ofDigitChars_ten_toDigits]

/-! ## Numbers with a fraction or an exponent -/

/-- Nothing, or a point and digits. -/
inductive IsFraction : List Char → Prop
  | absent : IsFraction []
  | digits {ds : List Char} (hne : ds ≠ []) (hds : ∀ c ∈ ds, c.isDigit = true) : IsFraction ('.' :: ds)

/-- Nothing, or the mark of an exponent, perhaps a sign, and digits. -/
inductive IsExponent : List Char → Prop
  | absent : IsExponent []
  | digits {e : Char} {sign ds : List Char} (he : e = 'e' ∨ e = 'E')
      (hsign : sign = [] ∨ sign = ['+'] ∨ sign = ['-']) (hne : ds ≠ [])
      (hds : ∀ c ∈ ds, c.isDigit = true) : IsExponent (e :: (sign ++ ds))

/-- No character of a fraction or an exponent is a blank. -/
theorem IsFraction.notBlank {part : List Char} (h : IsFraction part) :
    ∀ c ∈ part, Text.isNumberBlank c = false := by
  cases h with
  | absent => simp
  | digits hne hds =>
    intro c hc
    rcases List.mem_cons.mp hc with rfl | hc
    · decide
    · exact isNumberBlank_of_isDigit (hds c hc)

theorem IsExponent.notBlank {power : List Char} (h : IsExponent power) :
    ∀ c ∈ power, Text.isNumberBlank c = false := by
  cases h with
  | absent => simp
  | digits he hsign hne hds =>
    intro c hc
    rcases List.mem_cons.mp hc with rfl | hc
    · rcases he with rfl | rfl <;> decide
    rcases List.mem_append.mp hc with hc | hc
    · rcases hsign with rfl | rfl | rfl <;> simp at hc <;> subst hc <;> decide
    · exact isNumberBlank_of_isDigit (hds c hc)

/-- A row of digits is taken whole where something else follows it. -/
theorem span_digits {ds : List Char} (rest : List Char) (hds : ∀ c ∈ ds, c.isDigit = true)
    (hrest : ∀ c ∈ rest.head?, Text.digitValue? c = none) :
    (ds ++ rest).takeWhile (fun c => (Text.digitValue? c).isSome) = ds ∧
      (ds ++ rest).dropWhile (fun c => (Text.digitValue? c).isSome) = rest := by
  have hall : ∀ c ∈ ds, (Text.digitValue? c).isSome = true := fun c hc => by
    rw [digitValue?_of_isDigit (hds c hc)]
    rfl
  rw [List.takeWhile_append_of_pos hall, List.dropWhile_append_of_pos hall]
  cases rest with
  | nil => simp
  | cons c rest => simp [hrest c rfl]

theorem IsExponent.head {power : List Char} (h : IsExponent power) :
    ∀ c ∈ power.head?, Text.digitValue? c = none ∧ c ≠ '.' := by
  cases h with
  | absent => simp
  | digits he hsign hne hds =>
    intro c hc
    cases hc
    rcases he with rfl | rfl <;> decide

theorem IsExponent.splitSign {sign ds : List Char} (hsign : sign = [] ∨ sign = ['+'] ∨ sign = ['-'])
    (hne : ds ≠ []) (hds : ∀ c ∈ ds, c.isDigit = true) :
    (Number.splitSign (sign ++ ds)).2 = ds := by
  rcases hsign with rfl | rfl | rfl
  · obtain ⟨d, ds, rfl⟩ := List.exists_cons_of_ne_nil hne
    rw [List.nil_append, splitSign_of_isDigit (hds d List.mem_cons_self)]
  · rfl
  · rfl

/-- Whatever its digits are, a numeral stands for a number. -/
theorem exists_decimal? {digits part power : List Char} (hne : digits ≠ [])
    (hdigits : ∀ c ∈ digits, c.isDigit = true) (hpart : IsFraction part) (hpower : IsExponent power) :
    ∃ n, decimal? (digits ++ (part ++ power)) = some n := by
  have hwhole := span_digits (part ++ power) hdigits (by
    cases hpart with
    | absent => exact fun c hc => (hpower.head c hc).1
    | digits => intro c hc; cases hc; decide)
  have hsome : ∀ after : List Char, (digits.isEmpty && after.isEmpty) = false := fun after => by
    rw [List.isEmpty_eq_false_iff.mpr hne, Bool.false_and]
  have hexponent : ∀ ds : List Char, ds ≠ [] → (∀ c ∈ ds, c.isDigit = true) →
      (ds.isEmpty || !ds.all fun c => (Text.digitValue? c).isSome) = false := by
    intro ds hne hds
    rw [List.isEmpty_eq_false_iff.mpr hne, Bool.false_or, Bool.not_eq_false', List.all_eq_true]
    intro c hc
    rw [digitValue?_of_isDigit (hds c hc)]
    rfl
  unfold decimal?
  simp only [hwhole.1, hwhole.2]
  -- the point is looked for first, so the fraction is settled before the exponent
  cases hpart with
  | absent =>
    cases hpower with
    | absent => simp [hne]
    | @digits e sign ds he hsign hds_ne hds =>
      rcases he with rfl | rfl <;>
        simp [hne, IsExponent.splitSign hsign hds_ne hds, hexponent ds hds_ne hds]
  | @digits ps hps_ne hps =>
    have hspan := span_digits power hps fun c hc => (hpower.head c hc).1
    simp only [List.cons_append, hspan.1, hspan.2, hsome, Bool.false_eq_true, if_false]
    cases hpower with
    | absent => exact ⟨_, rfl⟩
    | @digits e sign ds he hsign hds_ne hds =>
      have hmark : (e == 'e' || e == 'E') = true := by rcases he with rfl | rfl <;> rfl
      simp only [hmark, if_true, IsExponent.splitSign hsign hds_ne hds, hexponent ds hds_ne hds,
        Bool.false_eq_true, if_false]
      exact ⟨_, rfl⟩

/-- The mark of an exponent is a capital or not. -/
theorem decimal?_capital {digits part : List Char} (r : List Char) (hdigits : ∀ c ∈ digits, c.isDigit = true)
    (hpart : IsFraction part) :
    decimal? (digits ++ (part ++ 'E' :: r)) = decimal? (digits ++ (part ++ 'e' :: r)) := by
  have hmark : ∀ e, e = 'e' ∨ e = 'E' → ∀ c ∈ (e :: r).head?, Text.digitValue? c = none := by
    rintro e (rfl | rfl) c hc <;> cases hc <;> decide
  have hwhole : ∀ e, e = 'e' ∨ e = 'E' → ∀ c ∈ (part ++ e :: r).head?, Text.digitValue? c = none := by
    intro e he c hc
    cases hpart with
    | absent => exact hmark e he c hc
    | digits => cases hc; decide
  unfold decimal?
  simp only [span_digits _ hdigits (hwhole 'e' (.inl rfl)), span_digits _ hdigits (hwhole 'E' (.inr rfl))]
  cases hpart with
  | absent => rfl
  | digits hne hds =>
    simp only [List.cons_append, span_digits _ hds (hmark 'e' (.inl rfl)),
      span_digits _ hds (hmark 'E' (.inr rfl))]
    rfl

/-- A numeral is the number that its digits say, with its sign. -/
theorem real?_of_decimal? (negative : Bool) {digits rest : List Char} {n : Nat} {power : Int} (hne : digits ≠ [])
    (hdigits : ∀ c ∈ digits, c.isDigit = true) (hrest : ∀ c ∈ rest, Text.isNumberBlank c = false)
    (hn : decimal? (digits ++ rest) = some (n, power)) :
    real? ((if negative then ['-'] else []) ++ (digits ++ rest)) = .ok (.ofDecimal negative n power) := by
  obtain ⟨d, ds, rfl⟩ := List.exists_cons_of_ne_nil hne
  have hd := hdigits d List.mem_cons_self
  have htrim : Text.trimOf Text.isNumberBlank ((if negative then ['-'] else []) ++ (d :: ds ++ rest))
      = (if negative then ['-'] else []) ++ (d :: ds ++ rest) := by
    refine trimOf_of_forall fun c hc => ?_
    simp only [List.mem_append] at hc
    rcases hc with hc | hc | hc
    · cases negative <;> simp at hc
      subst hc
      decide
    · exact isNumberBlank_of_isDigit (hdigits c hc)
    · exact hrest c hc
  have hsplit : splitSign ((if negative then ['-'] else []) ++ (d :: ds ++ rest))
      = (negative, d :: ds ++ rest) := by
    cases negative with
    | true => rfl
    | false => exact splitSign_of_isDigit hd _
  -- a word that begins with a digit is not the name of a number
  have hword : ∀ c cs, c.isDigit = false →
      String.ofList ((d :: ds ++ rest).map Char.toLower) ≠ String.ofList (c :: cs) := by
    intro c cs hc heq
    have hlower : d.toLower = c := (List.cons.inj (String.ofList_injective heq)).1
    rw [toLower_of_isDigit hd] at hlower
    rw [← hlower, hd] at hc
    cases hc
  unfold real?
  rw [htrim, hsplit]
  simp only [hn]
  rw [if_neg, if_neg]
  · exact hword 'n' ['a', 'n'] (by decide)
  · exact fun h => h.elim (hword 'i' ['n', 'f'] (by decide))
      (hword 'i' ['n', 'f', 'i', 'n', 'i', 't', 'y'] (by decide))

/-- A numeral with a fraction or an exponent is always a number. -/
theorem exists_real? {sign digits part power : List Char} (hsign : sign = [] ∨ sign = ['-'])
    (hne : digits ≠ []) (hdigits : ∀ c ∈ digits, c.isDigit = true) (hpart : IsFraction part)
    (hpower : IsExponent power) :
    ∃ x, real? (sign ++ digits ++ part ++ power) = .ok x := by
  obtain ⟨⟨n, p⟩, hn⟩ := exists_decimal? hne hdigits hpart hpower
  have hblank : ∀ c ∈ part ++ power, Text.isNumberBlank c = false := fun c hc =>
    (List.mem_append.mp hc).elim (hpart.notBlank c) (hpower.notBlank c)
  rw [List.append_assoc, List.append_assoc]
  rcases hsign with rfl | rfl
  · exact ⟨_, real?_of_decimal? false hne hdigits hblank hn⟩
  · exact ⟨_, real?_of_decimal? true hne hdigits hblank hn⟩

end CommentStyle.Number

namespace CommentStyle.Binary64

/-! ## The sign of a double

The nearest double is looked for without the sign, so the other sign gives the opposite number. -/

theorem negate_pack (negative : Bool) (m : Nat) (e : Int) : (pack negative m e).negate = pack (!negative) m e := by
  unfold pack
  split
  split <;> rfl

theorem negate_ofRatio (negative : Bool) (num den : Nat) :
    (ofRatio negative num den).negate = ofRatio (!negative) num den := by
  unfold ofRatio
  split
  · rfl
  · exact negate_pack ..

theorem negate_ofDecimal (negative : Bool) (digits : Nat) (power : Int) :
    (ofDecimal negative digits power).negate = ofDecimal (!negative) digits power := by
  unfold ofDecimal
  simp only
  split
  · rfl
  split
  · rfl
  split
  · rfl
  split <;> exact negate_ofRatio ..

theorem pack_ne_nan (negative : Bool) (m : Nat) (e : Int) : pack negative m e ≠ .nan := by
  unfold pack
  split
  split <;> exact Binary64.noConfusion

theorem ofRatio_ne_nan (negative : Bool) (num den : Nat) : ofRatio negative num den ≠ .nan := by
  unfold ofRatio
  split
  · exact nofun
  · exact pack_ne_nan _ _ _

theorem ofDecimal_ne_nan (negative : Bool) (digits : Nat) (power : Int) :
    ofDecimal negative digits power ≠ .nan := by
  unfold ofDecimal
  simp only
  split
  · exact nofun
  split
  · exact nofun
  split
  · exact nofun
  split <;> exact ofRatio_ne_nan _ _ _

end CommentStyle.Binary64
