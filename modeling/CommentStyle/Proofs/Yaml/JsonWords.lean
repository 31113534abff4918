import CommentStyle.Proofs.Json.Source
import CommentStyle.Proofs.Yaml.FlowTokens

/-!
# The words of JSON as YAML reads them

What is neither a string nor a collection in JSON is a plain scalar in YAML, and its form decides what it is.
The words of truth and null, whole numbers and numbers with a point have the form that they need. The others
are texts: an exponent needs a point before it and a sign, and the names of infinity and of what is not a
number are written otherwise.

* **`isCommon`** — the word means the same in both; **`wordValue`** — what it means in YAML.
* **`isLiteral_word`** — a word is one plain scalar.
* **`content_word`** — and that scalar makes the value.
-/

namespace CommentStyle.Text

/-- In ASCII only capital letters change, and each by itself. -/
theorem lower_of_ascii {text : List Char} (h : ∀ c ∈ text, c < '\x7f') : lower text = text.map Char.toLower := by
  suffices hall : ∀ inWord, lowerAfter inWord text = text.map Char.toLower from hall false
  induction text with
  | nil => exact fun _ => rfl
  | cons c text ih =>
    intro inWord
    have hc := h c List.mem_cons_self
    have hdot : c ≠ '\u0130' := by
      rintro rfl
      exact absurd hc (by decide)
    have hsigma : c ≠ '\u03A3' := by
      rintro rfl
      exact absurd hc (by decide)
    rw [lowerAfter, if_neg hdot, if_neg hsigma, smallLetter, if_pos hc,
      ih fun d hd => h d (List.mem_cons_of_mem c hd)]
    rfl

end CommentStyle.Text

namespace CommentStyle.Yaml

open Json (Bare Numeral)

/-- A number of a form that YAML knows too. -/
def isCommonNumeral (n : Numeral) : Bool := n.isWhole || !n.part.isEmpty && Form.isExponentOrEnd n.power

def isCommon : Bare → Bool
  | .null => true
  | .bool _ => true
  | .nan => false
  | .infinite _ => false
  | .number n => isCommonNumeral n

def wordValue (w : Bare) : Value := if isCommon w then w.value else .str (String.ofList w.chars)

/-! ## Whole numbers -/

theorem toDigits_of_isDigit {c : Char} (hc : c.isDigit = true) : Nat.toDigits 10 (c.toNat - 48) = [c] := by
  have hall : ∀ k < 10, k.digitChar = Char.ofNat (k + 48) := by decide
  obtain ⟨hlow, hhigh⟩ := Number.toNat_of_isDigit hc
  rw [Nat.toDigits_of_lt_base (by omega), hall _ (by omega), Nat.sub_add_cancel hlow, Char.ofNat_toNat]

/-- Digits behind those of a number that is not zero are the digits of a number. -/
theorem toDigits_append {ds : List Char} {n : Nat} (hn : 0 < n) (hds : ∀ c ∈ ds, c.isDigit = true) :
    Nat.toDigits 10 (Nat.ofDigitChars 10 ds n) = Nat.toDigits 10 n ++ ds := by
  induction ds generalizing n with
  | nil => simp
  | cons d ds ih =>
    have hd := hds d List.mem_cons_self
    have hrange := Number.toNat_of_isDigit hd
    have hnext : Nat.toDigits 10 (10 * n + (d.toNat - 48)) = Nat.toDigits 10 n ++ [d] := by
      rw [← Nat.toDigits_append_toDigits (by decide) hn (by omega), toDigits_of_isDigit hd]
    have hmore := ih (n := 10 * n + (d.toNat - 48)) (by omega) fun c hc => hds c (List.mem_cons_of_mem d hc)
    rw [Nat.ofDigitChars_cons]
    exact hmore.trans (by rw [hnext, List.append_assoc, List.singleton_append])

/-- Digits without a leading zero are those of their value. -/
theorem toDigits_ofDigitChars {ds : List Char} (hne : ds ≠ []) (hds : ∀ c ∈ ds, c.isDigit = true)
    (hleading : ds.head? = some '0' → ds = ['0']) : Nat.toDigits 10 (Nat.ofDigitChars 10 ds 0) = ds := by
  obtain ⟨d, ds, rfl⟩ := List.exists_cons_of_ne_nil hne
  have hd := hds d List.mem_cons_self
  have hrange := Number.toNat_of_isDigit hd
  by_cases hzero : d = '0'
  · rw [hleading (by rw [hzero]; rfl)]
    rfl
  · have hpos : 0 < d.toNat - 48 := by
      by_contra hnot
      have h48 : d.toNat = '0'.toNat := by
        change d.toNat = 48
        omega
      exact hzero (Char.toNat_inj.mp h48)
    have h := toDigits_append hpos fun c hc => hds c (List.mem_cons_of_mem d hc)
    rw [toDigits_of_isDigit hd] at h
    rw [Nat.ofDigitChars_cons, Nat.mul_zero, Nat.zero_add]
    exact h

/-- The digits of a numeral are those of its value. -/
theorem digits_eq (n : Numeral) :
    n.digits = Nat.toDigits 10 (Number.ofDigits 10 (n.digits.filterMap Json.hexValue?)) := by
  rw [Number.ofDigits, Json.foldl_hexValue? n.isDigit_digits,
    toDigits_ofDigitChars n.digits_ne_nil n.isDigit_digits n.leading]

/-- A whole number is written as such. Only zero may have a sign that is lost. -/
theorem chars_eq_toString {n : Numeral} (hwhole : n.isWhole = true) :
    n.chars = (toString n.whole).toList ∨ n.chars = ['-', '0'] ∧ n.whole = 0 := by
  simp only [Numeral.isWhole, Bool.and_eq_true, List.isEmpty_iff] at hwhole
  have hdigits := digits_eq n
  rw [Json.toList_toString, Numeral.chars, hwhole.1, hwhole.2, List.append_nil, List.append_nil, Numeral.whole,
    Numeral.sign]
  generalize Number.ofDigits 10 (n.digits.filterMap Json.hexValue?) = value at hdigits ⊢
  rw [hdigits]
  cases n.negative with
  | false =>
    left
    have hpos : ¬ Number.signed false value < 0 := by simp [Number.signed]
    rw [if_neg hpos]
    rfl
  | true =>
    have habs : (Number.signed true value).natAbs = value := by simp [Number.signed]
    -- minus zero is read as zero, which is written without a sign
    by_cases hzero : value = 0
    · right
      subst hzero
      exact ⟨rfl, rfl⟩
    · left
      have hneg : Number.signed true value < 0 := by
        simp only [Number.signed, if_true]
        omega
      rw [if_pos hneg, if_pos rfl, habs]

theorem content_whole {n : Numeral} (hwhole : n.isWhole = true) (place : Nat) :
    Scalar.content place (Tag.ofPlain n.chars) n.chars = .ok n.value := by
  have hvalue : n.value = .int n.whole := if_pos hwhole
  have hshort : n.digits.length ≤ NumberFault.digitLimit := by
    simp only [Numeral.isWhole, Bool.and_eq_true, List.isEmpty_iff] at hwhole
    exact n.short hwhole.1 hwhole.2
  have hwritable : Number.isWritable n.whole = true :=
    Json.isWritable_signed n.isDigit_digits hshort n.negative
  rw [hvalue]
  rcases chars_eq_toString hwhole with hchars | ⟨hchars, hzero⟩
  · rw [hchars, ofPlain_toString, Scalar.content, int_toString hwritable]
    rfl
  · rw [hchars, hzero]
    rfl

/-! ## The form of a number -/

/-- What follows the digits of a numeral begins with a point or the mark of an exponent. -/
def BeginsTail (tail : List Char) : Prop := ∀ c ∈ tail.head?, c = '.' ∨ c = 'e' ∨ c = 'E'

theorem beginsTail_power {power : List Char} (hpower : Number.IsExponent power) : BeginsTail power := by
  intro c hc
  cases hpower with
  | absent => cases hc
  | digits he =>
    cases hc
    exact .inr he

theorem beginsTail {part power : List Char} (hpart : Number.IsFraction part) (hpower : Number.IsExponent power) :
    BeginsTail (part ++ power) := by
  cases hpart with
  | absent => exact beginsTail_power hpower
  | digits =>
    intro c hc
    cases hc
    exact .inl rfl

/-- Digits are passed over up to what follows them. -/
theorem dropWhile_digits {ds tail : List Char} (hds : ∀ c ∈ ds, c.isDigit = true) (htail : BeginsTail tail) :
    (ds ++ tail).dropWhile Form.isDigitOrBar = tail := by
  have hall : ∀ c ∈ ds, Form.isDigitOrBar c = true := fun c hc => by
    rw [Form.isDigitOrBar, show Form.isDigit c = true from hds c hc, Bool.true_or]
  rw [List.dropWhile_append_of_pos hall]
  cases tail with
  | nil => rfl
  | cons c tail => rcases htail c rfl with rfl | rfl | rfl <;> rfl

/-- Without a colon there are no groups to base sixty. -/
theorem sixties?_of_tail {tail : List Char} (htail : BeginsTail tail) (fuel : Nat) :
    Form.sixties? fuel tail = none := by
  cases fuel with
  | zero => rfl
  | succ fuel =>
    cases tail with
    | nil => rfl
    | cons c tail => rcases htail c rfl with rfl | rfl | rfl <;> rfl

theorem chars_eq (n : Numeral) : n.chars = n.sign ++ (n.digits ++ (n.part ++ n.power)) := by
  rw [Numeral.chars, List.append_assoc, List.append_assoc]

/-- A number begins with a digit, behind its sign. -/
theorem exists_digits_eq_cons (n : Numeral) : ∃ d ds, n.digits = d :: ds ∧ Form.isDigit d = true := by
  obtain ⟨d, ds, hcons⟩ := List.exists_cons_of_ne_nil n.digits_ne_nil
  exact ⟨d, ds, hcons, n.isDigit_digits d (by rw [hcons]; exact List.mem_cons_self)⟩

theorem exists_chars_eq_cons (n : Numeral) :
    ∃ c cs, n.chars = c :: cs ∧ (c == '-' || Form.isDigit c) = true := by
  obtain ⟨d, ds, hcons, hd⟩ := exists_digits_eq_cons n
  rw [chars_eq, hcons]
  rcases n.sign_cases with hsign | hsign
  · exact ⟨d, _, by rw [hsign]; rfl, by rw [hd, Bool.or_true]⟩
  · exact ⟨'-', _, by rw [hsign]; rfl, rfl⟩

theorem mem_chars (n : Numeral) : ∀ c ∈ n.chars, c.isAlphanum = true ∨ c = '-' ∨ c = '+' ∨ c = '.' := by
  have hdigit : ∀ c : Char, c.isDigit = true → c.isAlphanum = true := fun c hc => by
    rw [Char.isAlphanum, hc, Bool.or_true]
  intro c hc
  simp only [chars_eq, List.mem_append] at hc
  rcases hc with hc | hc | hc | hc
  · rcases n.sign_cases with hsign | hsign <;> rw [hsign] at hc
    · cases hc
    · exact .inr (.inl (List.mem_singleton.mp hc))
  · exact .inl (hdigit c (n.isDigit_digits c hc))
  · have hpart := n.isFraction
    generalize n.part = part at hpart hc
    cases hpart with
    | absent => cases hc
    | digits hne hds =>
      rcases List.mem_cons.mp hc with rfl | hc
      · exact .inr (.inr (.inr rfl))
      · exact .inl (hdigit c (hds c hc))
  · have hpower := n.isExponent
    generalize n.power = power at hpower hc
    cases hpower with
    | absent => cases hc
    | digits he hsign hne hds =>
      rcases List.mem_cons.mp hc with rfl | hc
      · rcases he with rfl | rfl <;> exact .inl rfl
      rcases List.mem_append.mp hc with hc | hc
      · rcases hsign with rfl | rfl | rfl
        · cases hc
        · exact .inr (.inr (.inl (List.mem_singleton.mp hc)))
        · exact .inr (.inl (List.mem_singleton.mp hc))
      · exact .inl (hdigit c (hds c hc))

theorem ne_of_mem_chars (n : Numeral) {c d : Char} (hc : c ∈ n.chars) (hd : d.isAlphanum = false)
    (hmark : d ∉ ['-', '+', '.']) : c ≠ d := by
  rintro rfl
  rcases mem_chars n c hc with h | h
  · rw [hd] at h
    cases h
  · exact hmark (by simpa using h)

theorem lt_of_mem_chars (n : Numeral) : ∀ c ∈ n.chars, c < '\x7f' := by
  intro c hc
  rcases mem_chars n c hc with h | rfl | rfl | rfl
  · have hrange := toNat_of_isAlphanum h
    exact UInt32.lt_iff_toNat_lt.mpr (show c.toNat < 127 by omega)
  all_goals decide

theorem dropSign_chars (n : Numeral) : Form.dropSign n.chars = n.digits ++ (n.part ++ n.power) := by
  obtain ⟨d, ds, hcons, hd⟩ := exists_digits_eq_cons n
  rw [chars_eq, hcons]
  rcases n.sign_cases with hsign | hsign
  · rw [hsign, List.nil_append, List.cons_append]
    unfold Form.dropSign
    split
    · next h => exact absurd (List.cons.inj h).1 (Json.ne_of_isDigit hd (by decide))
    · next h => exact absurd (List.cons.inj h).1 (Json.ne_of_isDigit hd (by decide))
    · rfl
  · rw [hsign]
    rfl

/-- Of the numbers that are not whole, those with a point and a signed exponent have the form. -/
theorem isFloat_chars (n : Numeral) :
    Form.isFloat n.chars = (!n.part.isEmpty && Form.isExponentOrEnd n.power) := by
  obtain ⟨c, cs, hchars, hc⟩ := exists_chars_eq_cons n
  obtain ⟨d, ds, hdigits, hd⟩ := exists_digits_eq_cons n
  have hrest := dropWhile_digits n.isDigit_digits (beginsTail n.isFraction n.isExponent)
  have hsixty := sixties?_of_tail (beginsTail n.isFraction n.isExponent)
  have hpoint : c ≠ '.' := by
    rintro rfl
    exact absurd hc (by decide)
  have hinfinity : [".inf", ".Inf", ".INF"].contains (String.ofList (d :: (ds ++ (n.part ++ n.power)))) = false :=
    contains_ofList_eq_false Form.isDigit hd (by decide)
  have hnan : [".nan", ".NaN", ".NAN"].contains (String.ofList (c :: cs)) = false :=
    contains_ofList_eq_false (fun c => c == '-' || Form.isDigit c) hc (by decide)
  rw [hdigits, List.cons_append] at hrest
  unfold Form.isFloat
  rw [dropSign_chars, hdigits, List.cons_append, hchars]
  simp only [hrest, hinfinity, hnan, hsixty, List.head?_cons, Option.any_some, hd, Bool.true_and, Bool.false_or,
    Bool.or_false]
  split
  · next h => exact absurd (List.cons.inj h).1 hpoint
  have hfraction := n.isFraction
  have hpower := beginsTail_power n.isExponent
  generalize n.part = part at hfraction ⊢
  cases hfraction with
  | absent =>
    rw [List.nil_append, Bool.false_or]
    split
    · next h => exact absurd rfl (n.isExponent.head '.' (by rw [h]; rfl)).2
    · rfl
  | digits hne hps =>
    simp only [List.cons_append, dropWhile_digits hps hpower]
    rfl

theorem isInt_chars {n : Numeral} (hwhole : n.isWhole = false) : Form.isInt n.chars = false := by
  obtain ⟨d, ds, hdigits, hd⟩ := exists_digits_eq_cons n
  have htail := beginsTail n.isFraction n.isExponent
  have hne : n.part ++ n.power ≠ [] := by
    intro h
    rw [List.append_eq_nil_iff] at h
    simp [Numeral.isWhole, h] at hwhole
  have hds : ∀ c ∈ ds, c.isDigit = true := fun c hc =>
    n.isDigit_digits c (by rw [hdigits]; exact List.mem_cons_of_mem d hc)
  have hzero : d = '0' → ds = [] := fun h => by
    have := n.leading (by rw [hdigits, h]; rfl)
    rw [hdigits] at this
    exact (List.cons.inj this).2
  have hrest := dropWhile_digits hds htail
  rw [Form.isInt, dropSign_chars, hdigits, List.cons_append]
  generalize n.part ++ n.power = tail at htail hne hrest ⊢
  obtain ⟨c, tail, rfl⟩ := List.exists_cons_of_ne_nil hne
  -- behind a leading zero there is a point or an exponent, and never the mark of another base
  by_cases hd0 : d = '0'
  · subst hd0
    rw [hzero rfl]
    rcases htail c rfl with rfl | rfl | rfl <;> cases tail <;> rfl
  · split
    · next h => exact absurd (List.cons.inj h).1 hd0
    · next h => exact absurd (List.cons.inj h).1 hd0
    · next h => exact absurd (List.cons.inj h).1 hd0
    · next h => exact absurd (List.cons.inj h).1 hd0
    · next h =>
      obtain ⟨rfl, rfl⟩ := List.cons.inj h
      simp [hrest, sixties?_of_tail htail]
    · rfl

/-- A date begins with digits only up to its first dash. -/
theorem timestamp?_eq_none {text : List Char}
    (h : ∀ year rest, text = year ++ '-' :: rest → year ≠ [] → ∃ c ∈ year, Form.isDigit c = false) :
    Form.timestamp? text = none := by
  unfold Form.timestamp?
  by_cases hyear : (text.take 4).length ≠ 4 ∨ (!(text.take 4).all Form.isDigit) = true
  · simp only [if_pos hyear]
    rfl
  · simp only [if_neg hyear]
    split
    · next rest hdrop =>
      obtain ⟨hlength, hall⟩ : (text.take 4).length = 4 ∧ (text.take 4).all Form.isDigit = true := by
        simpa only [ne_eq, not_or, not_not, Bool.not_eq_true, Bool.not_eq_false'] using hyear
      obtain ⟨c, hc, hnot⟩ := h (text.take 4) rest (by rw [← hdrop, List.take_append_drop])
        (List.ne_nil_of_length_eq_add_one hlength)
      rw [List.all_eq_true.mp hall c hc] at hnot
      cases hnot
    · rfl

theorem isTimestamp_chars (n : Numeral) : Form.isTimestamp n.chars = false := by
  have hnone : Form.timestamp? n.chars = none := by
    refine timestamp?_eq_none fun year rest hyear hne => ?_
    by_contra hall
    have hdigits : ∀ c ∈ year, Form.isDigit c = true := fun c hc => by
      by_contra hnot
      exact hall ⟨c, hc, by simpa using hnot⟩
    have htail := beginsTail n.isFraction n.isExponent
    rw [chars_eq] at hyear
    rcases n.sign_cases with hsign | hsign
    · rw [hsign, List.nil_append] at hyear
      rcases List.append_eq_append_iff.mp hyear with ⟨more, hmore, heq⟩ | ⟨more, hmore, heq⟩
      · -- the tail would begin inside of the year, or with the dash behind it
        rw [heq] at htail
        cases more with
        | nil => exact absurd (htail '-' rfl) (by decide)
        | cons c more =>
          have hc := hdigits c (by rw [hmore]; simp)
          rcases htail c rfl with rfl | rfl | rfl <;> exact absurd hc (by decide)
      · -- the dash would be a digit, or begin the tail
        cases more with
        | nil =>
          rw [List.nil_append] at heq
          exact absurd (htail '-' (by rw [← heq]; rfl)) (by decide)
        | cons c more =>
          have hc := n.isDigit_digits c (by rw [hmore]; simp)
          rw [← (List.cons.inj heq).1] at hc
          exact absurd hc (by decide)
    · -- the sign would be the first digit of the year
      obtain ⟨c, year, rfl⟩ := List.exists_cons_of_ne_nil hne
      rw [hsign, List.cons_append, List.cons_append] at hyear
      have hc := hdigits c List.mem_cons_self
      rw [← (List.cons.inj hyear).1] at hc
      exact absurd hc (by decide)
  rw [Form.isTimestamp, hnone]

/-- A number that is not whole is a float if it has the form of one, else a text. -/
theorem ofPlain_chars {n : Numeral} (hwhole : n.isWhole = false) :
    Tag.ofPlain n.chars = if !n.part.isEmpty && Form.isExponentOrEnd n.power then .float else .str := by
  obtain ⟨c, cs, hchars, hc⟩ := exists_chars_eq_cons n
  have hbreak : '\n' ∉ n.chars := fun h => ne_of_mem_chars n h (by decide) (by decide) rfl
  have htruth : Form.isTruthWord n.chars = false := by
    rw [hchars]
    exact contains_ofList_eq_false (fun c => c == '-' || Form.isDigit c) hc (by decide)
  have hnull : Form.isNullWord n.chars = false := by
    rw [hchars]
    exact contains_ofList_eq_false (fun c => c == '-' || Form.isDigit c) hc (by decide)
  have hmark : ∀ x xs, (x == '-' || Form.isDigit x) = false → n.chars ≠ x :: xs := by
    rintro x xs hx heq
    rw [hchars] at heq
    rw [(List.cons.inj heq).1, hx] at hc
    cases hc
  simp only [Tag.ofPlain, withoutFinalBreak_of_notMem hbreak, htruth, isFloat_chars, isInt_chars hwhole, hnull,
    isTimestamp_chars, hmark '<' _ rfl, hmark '=' _ rfl, hmark '!' _ rfl, hmark '&' _ rfl, hmark '*' _ rfl,
    Bool.false_eq_true, if_false, or_self]

/-! ## Floats -/

theorem map_toLower_of_isDigit {ds : List Char} (hds : ∀ c ∈ ds, c.isDigit = true) :
    ds.map Char.toLower = ds :=
  (List.map_congr_left fun c hc => Number.toLower_of_isDigit (hds c hc)).trans (List.map_id' ds)

theorem map_toLower_of_isFraction {part : List Char} (hpart : Number.IsFraction part) :
    part.map Char.toLower = part := by
  cases hpart with
  | absent => rfl
  | digits hne hds => rw [List.map_cons, map_toLower_of_isDigit hds]; rfl

/-- Only the mark of an exponent may be a capital. -/
theorem map_toLower_exponent {e : Char} {sign ds : List Char} (he : e = 'e' ∨ e = 'E')
    (hsign : sign = [] ∨ sign = ['+'] ∨ sign = ['-']) (hds : ∀ c ∈ ds, c.isDigit = true) :
    (e :: (sign ++ ds)).map Char.toLower = 'e' :: (sign ++ ds) := by
  rw [List.map_cons, List.map_append, map_toLower_of_isDigit hds]
  rcases he with rfl | rfl <;> rcases hsign with rfl | rfl | rfl <;> rfl

theorem isExponent_map_toLower {power : List Char} (hpower : Number.IsExponent power) :
    Number.IsExponent (power.map Char.toLower) := by
  cases hpower with
  | absent => exact .absent
  | digits he hsign hne hds =>
    rw [map_toLower_exponent he hsign hds]
    exact .digits (.inl rfl) hsign hne hds

theorem decimal?_map_toLower {digits part power : List Char} (hdigits : ∀ c ∈ digits, c.isDigit = true)
    (hpart : Number.IsFraction part) (hpower : Number.IsExponent power) :
    Number.decimal? (digits ++ (part ++ power.map Char.toLower))
      = Number.decimal? (digits ++ (part ++ power)) := by
  cases hpower with
  | absent => rfl
  | digits he hsign hne hds =>
    rw [map_toLower_exponent he hsign hds]
    rcases he with rfl | rfl
    · rfl
    · exact (Number.decimal?_capital _ hdigits hpart).symm

/-- The number in small letters. -/
def smallNumeral (n : Numeral) : Numeral :=
  { n with
    power := n.power.map Char.toLower
    isExponent := isExponent_map_toLower n.isExponent
    short := fun hpart hpower => n.short hpart (List.map_eq_nil_iff.mp hpower) }

theorem lower_chars (n : Numeral) : Text.lower n.chars = (smallNumeral n).chars := by
  have hsign : n.sign.map Char.toLower = n.sign := by
    rcases n.sign_cases with h | h <;> rw [h] <;> rfl
  rw [Text.lower_of_ascii (lt_of_mem_chars n), chars_eq]
  simp only [List.map_append, map_toLower_of_isDigit n.isDigit_digits, map_toLower_of_isFraction n.isFraction,
    hsign]
  exact (chars_eq (smallNumeral n)).symm

/-- A number is its sign and the number that the rest of it says. -/
theorem real?_body {n : Numeral} {m : Nat} {power : Int}
    (h : Number.decimal? (n.digits ++ (n.part ++ n.power)) = some (m, power)) :
    Number.real? (n.digits ++ (n.part ++ n.power)) = .ok (.ofDecimal false m power) ∧
      n.nearest = .ofDecimal n.negative m power := by
  have hblank : ∀ c ∈ n.part ++ n.power, Text.isNumberBlank c = false := fun c hc =>
    (List.mem_append.mp hc).elim (n.isFraction.notBlank c) (n.isExponent.notBlank c)
  have hreal := fun negative => Number.real?_of_decimal? negative n.digits_ne_nil n.isDigit_digits hblank h
  have hsigned := hreal n.negative
  rw [← Numeral.sign, ← chars_eq, n.real?_chars] at hsigned
  exact ⟨hreal false, Except.ok.inj hsigned⟩

theorem exists_decimal?_body (n : Numeral) :
    ∃ m power, Number.decimal? (n.digits ++ (n.part ++ n.power)) = some (m, power) := by
  obtain ⟨⟨m, power⟩, h⟩ := Number.exists_decimal? n.digits_ne_nil n.isDigit_digits n.isFraction n.isExponent
  exact ⟨m, power, h⟩

theorem nearest_smallNumeral (n : Numeral) : (smallNumeral n).nearest = n.nearest := by
  obtain ⟨m, power, h⟩ := exists_decimal?_body n
  have hsmall := decimal?_map_toLower n.isDigit_digits n.isFraction n.isExponent
  rw [h] at hsmall
  exact (real?_body (n := smallNumeral n) hsmall).2.trans (real?_body h).2.symm

theorem signed_chars (n : Numeral) :
    Scalar.signed n.chars = .ok (n.negative, n.digits ++ (n.part ++ n.power)) := by
  obtain ⟨d, ds, hcons, hd⟩ := exists_digits_eq_cons n
  rw [chars_eq, hcons, Numeral.sign]
  cases n.negative with
  | true => rfl
  | false =>
    rw [if_neg Bool.false_ne_true, List.nil_append, List.cons_append]
    unfold Scalar.signed
    split
    · next h => cases h
    · next h => exact absurd (List.cons.inj h).1 (Json.ne_of_isDigit hd (by decide))
    · next h => exact absurd (List.cons.inj h).1 (Json.ne_of_isDigit hd (by decide))
    · rfl

/-- A number is read as the float nearest to it. -/
theorem float_chars (n : Numeral) (place : Nat) : Scalar.float place n.chars = .ok (.float n.nearest) := by
  have hundivided : Scalar.undivided n.chars = n.chars := by
    refine List.filter_eq_self.mpr fun c hc => ?_
    simpa using ne_of_mem_chars n hc (by decide) (by decide)
  rw [Scalar.float, hundivided, lower_chars, ← nearest_smallNumeral]
  generalize smallNumeral n = n
  obtain ⟨m, power, hdecimal⟩ := exists_decimal?_body n
  obtain ⟨hreal, hnearest⟩ := real?_body hdecimal
  obtain ⟨d, ds, hcons, hd⟩ := exists_digits_eq_cons n
  have hpoint : ∀ rest, n.digits ++ (n.part ++ n.power) ≠ '.' :: rest := by
    intro rest h
    rw [hcons] at h
    exact Json.ne_of_isDigit hd (by decide) (List.cons.inj h).1
  have hcolon : (n.digits ++ (n.part ++ n.power)).contains ':' = false := by
    rw [List.contains_eq_mem, decide_eq_false_iff_not]
    intro hmem
    exact ne_of_mem_chars n (by rw [chars_eq]; exact List.mem_append_right _ hmem) (by decide) (by decide) rfl
  -- the sign is put back behind the rounding, which does not know of it
  have hsign : (if n.negative = true then (Binary64.ofDecimal false m power).negate else .ofDecimal false m power)
      = n.nearest := by
    rw [hnearest]
    cases n.negative with
    | true => exact Binary64.negate_ofDecimal false m power
    | false => rfl
  rw [signed_chars]
  simp only [bind, Except.bind, hreal, hpoint, hcolon, Scalar.number, Except.mapError, if_false, hsign, pure,
    Except.pure, Bool.false_eq_true]
  split
  · next h => exact absurd (hnearest.symm.trans h) (Binary64.ofDecimal_ne_nan _ _ _)
  · rfl

theorem content_numeral (n : Numeral) (place : Nat) :
    Scalar.content place (Tag.ofPlain n.chars) n.chars = .ok (wordValue (.number n)) := by
  rw [wordValue, isCommon, isCommonNumeral, Bare.value, Bare.chars]
  by_cases hwhole : n.isWhole = true
  · rw [hwhole, Bool.true_or, if_pos rfl]
    exact content_whole hwhole place
  · rw [Bool.not_eq_true] at hwhole
    rw [ofPlain_chars hwhole, hwhole, Bool.false_or]
    split
    · rw [Numeral.value, hwhole, if_neg Bool.false_ne_true]
      exact float_chars n place
    · rfl

/-! ## Words -/

theorem isLiteral_of_all {sign ds : List Char} {d : Char} (hsign : sign = [] ∨ sign = ['-'])
    (hall : (d :: ds).all Char.isAlphanum = true) : Lexer.IsLiteral (sign ++ d :: ds) := by
  have hword := List.all_eq_true.mp hall
  refine ⟨fun c hc => ?_, sign, d, ds, rfl, hsign, hword d List.mem_cons_self⟩
  rcases List.mem_append.mp hc with hc | hc
  · rcases hsign with rfl | rfl
    · cases hc
    · exact .inr (.inl (List.mem_singleton.mp hc))
  · exact .inl (hword c hc)

/-- A word is a plain scalar of one piece. -/
theorem isLiteral_word (w : Bare) : Lexer.IsLiteral w.chars := by
  cases w with
  | null => exact isLiteral_of_all (.inl rfl) (d := 'n') rfl
  | bool b =>
    cases b
    · exact isLiteral_of_all (.inl rfl) (d := 'f') rfl
    · exact isLiteral_of_all (.inl rfl) (d := 't') rfl
  | nan => exact isLiteral_of_all (.inl rfl) (d := 'N') rfl
  | infinite negative =>
    cases negative
    · exact isLiteral_of_all (.inl rfl) (d := 'I') rfl
    · exact isLiteral_of_all (.inr rfl) (d := 'I') rfl
  | number n =>
    obtain ⟨d, ds, hcons, hd⟩ := exists_digits_eq_cons n
    refine ⟨mem_chars n, n.sign, d, ds ++ (n.part ++ n.power), ?_, n.sign_cases, ?_⟩
    · rw [Bare.chars, chars_eq, hcons]
      rfl
    · rw [Char.isAlphanum, show d.isDigit = true from hd, Bool.or_true]

/-- What a word means in YAML. -/
theorem content_word (w : Bare) (place : Nat) :
    Scalar.content place (Tag.ofPlain w.chars) w.chars = .ok (wordValue w) := by
  cases w with
  | null => rfl
  | bool b => cases b <;> rfl
  | nan => rfl
  | infinite negative => cases negative <;> rfl
  | number n => exact content_numeral n place

end CommentStyle.Yaml
