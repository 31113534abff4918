import CommentStyle.Proofs.Json.Limits

/-!
# JSON as it is written

The reader of JSON turns a text into a value and forgets how the text was written: the blanks, the escapes,
the form of a number. Here is what it forgets.

* **`Piece`**, **`Numeral`**, **`Bare`**, **`Source`** — a character of a string, a number, a word and a value
  as written. Each carries the proof that it is well formed, so every source is JSON.
* **`Sense`** — how strings and bare words are understood, and **`Source.value`** — what a source says if its
  leaves are understood so. The sense of JSON is one of them.
* **`exists_document_of_read`** — every text that is read has a source, and was read as that source says.
-/

namespace CommentStyle.Json

/-! ## Leaves -/

/-- What may stand between the parts of a text. -/
abbrev Blanks := { bs : List Char // ∀ c ∈ bs, isBlank c = true }

/-- A character of a string as written: itself, a letter behind a backslash, or a code unit. -/
inductive Piece where
  | plain (c : Char) (fits : 0x20 ≤ c.toNat ∧ c ≠ '"' ∧ c ≠ '\\')
  | short (letter stands : Char) (fits : escaped? letter = some stands)
  | hex (a b c d : Char) (unit : Nat) (fits : unit? a b c d = some unit)

namespace Piece

def chars : Piece → List Char
  | plain c _ => [c]
  | short letter _ _ => ['\\', letter]
  | hex a b c d _ _ => ['\\', 'u', a, b, c, d]

/-- The code unit that a piece stands for. -/
def unit : Piece → Nat
  | plain c _ => c.toNat
  | short _ stands _ => stands.toNat
  | hex _ _ _ _ u _ => u

end Piece

/-- The characters between the quotes of a string. -/
def rawChars (ps : List Piece) : List Char := ps.flatMap Piece.chars

/-- A number as written. A whole number has no more digits than are read. -/
structure Numeral where
  negative : Bool
  digits : List Char
  /-- The point and the digits behind it. -/
  part : List Char
  /-- The exponent with its mark. -/
  power : List Char
  digits_ne_nil : digits ≠ []
  isDigit_digits : ∀ c ∈ digits, c.isDigit = true
  leading : digits.head? = some '0' → digits = ['0']
  isFraction : Number.IsFraction part
  isExponent : Number.IsExponent power
  short : part = [] → power = [] → digits.length ≤ NumberFault.digitLimit

namespace Numeral

def sign (n : Numeral) : List Char := if n.negative then ['-'] else []

def chars (n : Numeral) : List Char := n.sign ++ n.digits ++ n.part ++ n.power

/-- Without a fraction and an exponent a number is whole. -/
def isWhole (n : Numeral) : Bool := n.part.isEmpty && n.power.isEmpty

def whole (n : Numeral) : Int := Number.signed n.negative (Number.ofDigits 10 (n.digits.filterMap hexValue?))

/-- The double nearest to the number; there always is one (`real?_chars`). -/
def nearest (n : Numeral) : Binary64 := (Number.real? n.chars).toOption.getD .nan

def value (n : Numeral) : Value := if n.isWhole then .int n.whole else .float n.nearest

theorem sign_cases (n : Numeral) : n.sign = [] ∨ n.sign = ['-'] := by
  unfold sign
  split
  · exact .inr rfl
  · exact .inl rfl

theorem real?_chars (n : Numeral) : Number.real? n.chars = .ok n.nearest := by
  obtain ⟨x, hx⟩ := Number.exists_real? n.sign_cases n.digits_ne_nil n.isDigit_digits n.isFraction n.isExponent
  rw [nearest, chars, hx]
  rfl

end Numeral

/-- A value that is neither a string nor a collection, as written. -/
inductive Bare where
  | null
  | bool (b : Bool)
  | nan
  | infinite (negative : Bool)
  | number (n : Numeral)

namespace Bare

def chars : Bare → List Char
  | null => ['n', 'u', 'l', 'l']
  | bool b => if b then ['t', 'r', 'u', 'e'] else ['f', 'a', 'l', 's', 'e']
  | nan => ['N', 'a', 'N']
  | infinite negative => (if negative then ['-'] else []) ++ ['I', 'n', 'f', 'i', 'n', 'i', 't', 'y']
  | number n => n.chars

def value : Bare → Value
  | null => .null
  | bool b => .bool b
  | nan => .float .nan
  | infinite negative => .float (.infinite negative)
  | number n => n.value

end Bare

/-! ## Sources -/

/-- The name of a member with its colon, and the blanks around both. -/
structure Name where
  before : Blanks
  pieces : List Piece
  behind : Blanks
  after : Blanks

def Name.chars (n : Name) : List Char :=
  n.before.1 ++ '"' :: (rawChars n.pieces ++ '"' :: (n.behind.1 ++ ':' :: n.after.1))

mutual

/-- A value as written. -/
inductive Source where
  | text (pieces : List Piece)
  | bare (word : Bare)
  | emptyList (blanks : Blanks)
  | list (items : Items)
  | emptyMap (blanks : Blanks)
  | map (members : Members)

/-- What stands between the brackets of an array. -/
inductive Items where
  | last (before : Blanks) (item : Source) (after : Blanks)
  | cons (before : Blanks) (item : Source) (after : Blanks) (more : Items)

/-- What stands between the braces of an object. -/
inductive Members where
  | last (name : Name) (value : Source) (after : Blanks)
  | cons (name : Name) (value : Source) (after : Blanks) (more : Members)

end

mutual

def Source.chars : Source → List Char
  | .text ps => '"' :: (rawChars ps ++ ['"'])
  | .bare w => w.chars
  | .emptyList blanks => '[' :: (blanks.1 ++ [']'])
  | .list is => '[' :: (is.chars ++ [']'])
  | .emptyMap blanks => '{' :: (blanks.1 ++ ['}'])
  | .map ms => '{' :: (ms.chars ++ ['}'])

def Items.chars : Items → List Char
  | .last before item after => before.1 ++ (item.chars ++ after.1)
  | .cons before item after more => before.1 ++ (item.chars ++ (after.1 ++ ',' :: more.chars))

def Members.chars : Members → List Char
  | .last name value after => name.chars ++ (value.chars ++ after.1)
  | .cons name value after more => name.chars ++ (value.chars ++ (after.1 ++ ',' :: more.chars))

end

/-- How the leaves of a source are understood. -/
structure Sense where
  text : List Piece → List Char
  bare : Bare → Value

mutual

/-- What a source says. Of members with one name the last gives the value and the first the place. -/
def Source.value (sense : Sense) : Source → Value
  | .text ps => .str (String.ofList (sense.text ps))
  | .bare w => sense.bare w
  | .emptyList _ => .list []
  | .list is => .list (is.values sense)
  | .emptyMap _ => .map []
  | .map ms => .map (Value.mapOf (ms.entries sense))

def Items.values (sense : Sense) : Items → List Value
  | .last _ item _ => [item.value sense]
  | .cons _ item _ more => item.value sense :: more.values sense

def Members.entries (sense : Sense) : Members → List (Value × Value)
  | .last name value _ => [(.str (String.ofList (sense.text name.pieces)), value.value sense)]
  | .cons name value _ more =>
    (.str (String.ofList (sense.text name.pieces)), value.value sense) :: more.entries sense

end

/-- The one value of a text, and the blanks around it. -/
structure Document where
  before : Blanks
  source : Source
  after : Blanks

def Document.chars (d : Document) : List Char := d.before.1 ++ (d.source.chars ++ d.after.1)

/-- The sense of JSON: two surrogates in a row make one character. -/
def sense : Sense where
  text ps := charsOfUnits (ps.map Piece.unit)
  bare := Bare.value

/-! ## Every text that is read has a source -/

theorem exists_blanks {cs x : List Char} (h : skipBlanks cs = x) : ∃ bs : Blanks, cs = bs.1 ++ x :=
  ⟨⟨cs.takeWhile isBlank, fun _ hc => List.mem_takeWhile_imp hc⟩, by
    rw [← h, skipBlanks, List.takeWhile_append_dropWhile]⟩

theorem pieces_of_stringUnits (opening cs : List Char) :
    Gives (fun r => ∃ ps, cs = rawChars ps ++ '"' :: r.2 ∧ ps.map Piece.unit = r.1)
      (stringUnits opening cs) := by
  fun_induction stringUnits opening cs with
  | case1 => exact .error _
  | case2 rest => exact .ok ⟨[], rfl, rfl⟩
  | case3 a b c d rest u hrest hunit ih =>
    refine ih.map ?_
    rintro ⟨us, r⟩ ⟨ps, hps, hunits⟩
    exact ⟨.hex a b c d u hunit :: ps, by rw [hps]; rfl, by rw [List.map_cons, hunits]; rfl⟩
  | case4 => exact .error _
  | case5 => exact .error _
  | case6 => exact .error _
  | case7 c rest _ _ d hd ih =>
    refine ih.map ?_
    rintro ⟨us, r⟩ ⟨ps, hps, hunits⟩
    exact ⟨.short c d hd :: ps, by rw [hps]; rfl, by rw [List.map_cons, hunits]; rfl⟩
  | case8 => exact .error _
  | case9 => exact .error _
  | case10 c rest hquote _ _ hlast hescape hlow ih =>
    have hslash : c ≠ '\\' := by
      rintro rfl
      cases rest with
      | nil => exact hlast rfl rfl
      | cons d rest => exact hescape d rest rfl rfl
    refine ih.map ?_
    rintro ⟨us, r⟩ ⟨ps, hps, hunits⟩
    exact ⟨.plain c ⟨Nat.not_lt.mp hlow, hquote, hslash⟩ :: ps, by rw [hps]; rfl,
      by rw [List.map_cons, hunits]; rfl⟩

theorem wholeDigits_append (cs : List Char) : (wholeDigits cs).1 ++ (wholeDigits cs).2 = cs := by
  unfold wholeDigits
  split
  · rfl
  · exact List.takeWhile_append_dropWhile

theorem wholeDigits_leading {cs : List Char} (h : (wholeDigits cs).1.head? = some '0') :
    (wholeDigits cs).1 = ['0'] := by
  unfold wholeDigits at h ⊢
  split
  · rfl
  · next hzero =>
    -- a row that begins with a zero was taken by the other case
    cases cs with
    | nil => simp at h
    | cons c cs =>
      by_cases hc : isDigit c = true
      · simp only [List.takeWhile_cons_of_pos hc, List.head?_cons, Option.some.injEq] at h
        exact absurd (congrArg (· :: cs) h) (hzero cs)
      · simp [List.takeWhile_cons_of_neg hc] at h

theorem fraction_append (cs : List Char) : (fraction cs).1 ++ (fraction cs).2 = cs := by
  unfold fraction
  split
  · split
    · rfl
    · rw [List.cons_append, List.takeWhile_append_dropWhile]
  · rfl

theorem exponent_append (cs : List Char) : (exponent cs).1 ++ (exponent cs).2 = cs := by
  unfold exponent
  split
  · next e rest =>
    split
    · split
      next sign ds hsplit =>
        have hrest : sign ++ ds = rest := by
          split at hsplit <;> cases hsplit <;> rfl
        split
        · rfl
        · rw [List.cons_append, List.cons_append, List.append_assoc, List.takeWhile_append_dropWhile, hrest]
    · rfl
  · rfl

theorem numeral_of_number (cs : List Char) :
    Gives (fun r => ∃ n : Numeral, cs = n.chars ++ r.2 ∧ n.value = r.1) (number {} cs) := by
  unfold number
  split
  next sign rest hsplit =>
    obtain ⟨negative, rfl, hcs⟩ : ∃ negative : Bool, sign = (if negative then ['-'] else []) ∧ cs = sign ++ rest := by
      split at hsplit
      · cases hsplit
        exact ⟨true, rfl, rfl⟩
      · cases hsplit
        exact ⟨false, rfl, rfl⟩
    have hparts : cs = (if negative then ['-'] else []) ++ (wholeDigits rest).1
        ++ (fraction (wholeDigits rest).2).1 ++ (exponent (fraction (wholeDigits rest).2).2).1
        ++ (exponent (fraction (wholeDigits rest).2).2).2 := by
      simp only [List.append_assoc, exponent_append, fraction_append, wholeDigits_append, hcs]
    have hempty : (if negative then ['-'] else []).isEmpty = !negative := by cases negative <;> rfl
    simp only
    split
    · exact .error _
    next hne =>
    -- a numeral carries that it is not too long if it is whole, so that is left to the two cases
    have hnumeral : ((fraction (wholeDigits rest).2).1 = [] → (exponent (fraction (wholeDigits rest).2).2).1 = [] →
        (wholeDigits rest).1.length ≤ NumberFault.digitLimit) → ∃ n : Numeral,
          n.negative = negative ∧ n.digits = (wholeDigits rest).1 ∧ n.part = (fraction (wholeDigits rest).2).1 ∧
          n.power = (exponent (fraction (wholeDigits rest).2).2).1 := fun hshort =>
      ⟨⟨negative, _, _, _, by simpa using hne, fun c hc => isDigit_of_mem_wholeDigits hc, wholeDigits_leading,
        isFraction_fraction _, isExponent_exponent _, hshort⟩, rfl, rfl, rfl, rfl⟩
    split
    · next hwhole =>
      split
      · exact .error _
      next hmost =>
      obtain ⟨n, hnegative, hdigits, hpart, hpower⟩ := hnumeral fun _ _ => by simpa using hmost
      refine .ok ⟨n, ?_, ?_⟩
      · rw [Numeral.chars, Numeral.sign, hnegative, hdigits, hpart, hpower]
        exact hparts
      · rw [Numeral.value, Numeral.isWhole, hpart, hpower, hwhole, if_pos rfl, Numeral.whole, hnegative, hdigits,
          hempty, Bool.not_not]
    · next hwhole =>
      obtain ⟨n, hnegative, hdigits, hpart, hpower⟩ := hnumeral fun hpart hpower => by
        simp [hpart, hpower] at hwhole
      have hchars : n.chars = (if negative then ['-'] else []) ++ (wholeDigits rest).1
          ++ (fraction (wholeDigits rest).2).1 ++ (exponent (fraction (wholeDigits rest).2).2).1 := by
        rw [Numeral.chars, Numeral.sign, hnegative, hdigits, hpart, hpower]
      rw [← hchars, n.real?_chars]
      refine .ok ⟨n, by rw [hchars]; exact hparts, ?_⟩
      rw [Numeral.value, Numeral.isWhole, hpart, hpower, if_neg hwhole]

theorem afterWord?_eq_some {word cs rest : List Char} (h : afterWord? word cs = some rest) :
    cs = word ++ rest := by
  unfold afterWord? at h
  split at h
  · next hprefix =>
    cases h
    obtain ⟨rest, rfl⟩ := List.isPrefixOf_iff_prefix.mp hprefix
    rw [List.drop_left]
  · cases h

theorem bare_of_bareValue (cs : List Char) :
    Gives (fun r => ∃ w : Bare, cs = w.chars ++ r.2 ∧ w.value = r.1) (bareValue {} cs) := by
  unfold bareValue
  split
  · next rest h => exact .ok ⟨.null, afterWord?_eq_some h, rfl⟩
  split
  · next rest h => exact .ok ⟨.bool true, afterWord?_eq_some h, rfl⟩
  split
  · next rest h => exact .ok ⟨.bool false, afterWord?_eq_some h, rfl⟩
  split
  · next rest h => exact .ok ⟨.nan, afterWord?_eq_some h, rfl⟩
  split
  · next rest h => exact .ok ⟨.infinite false, afterWord?_eq_some h, rfl⟩
  split
  · next rest h => exact .ok ⟨.infinite true, afterWord?_eq_some h, rfl⟩
  intro r hr
  obtain ⟨n, hcs, hvalue⟩ := numeral_of_number cs r hr
  exact ⟨.number n, hcs, hvalue⟩

theorem string_of_string (opening cs : List Char) :
    Gives (fun r => ∃ ps, cs = rawChars ps ++ '"' :: r.2 ∧ String.ofList (sense.text ps) = r.1)
      (string opening cs) := by
  refine (pieces_of_stringUnits opening cs).map ?_
  rintro ⟨us, r⟩ ⟨ps, hps, rfl⟩
  exact ⟨ps, hps, rfl⟩

/-- A name read behind blanks. -/
theorem name_of_memberName (before : Blanks) (cs : List Char) :
    Gives (fun r => ∃ n : Name, before.1 ++ cs = n.chars ++ r.2 ∧ String.ofList (sense.text n.pieces) = r.1)
      (memberName cs) := by
  unfold memberName
  split
  · next rest =>
    refine (string_of_string _ rest).bind ?_
    rintro ⟨name, rest'⟩ ⟨ps, rfl, hname⟩
    simp only
    split
    · next after hcolon =>
      obtain ⟨behind, rfl⟩ := exists_blanks hcolon
      obtain ⟨gap, hgap⟩ := exists_blanks (rfl : skipBlanks after = _)
      refine .ok ⟨⟨before, ps, behind, gap⟩, ?_, hname⟩
      conv_lhs => rw [hgap]
      simp [Name.chars]
    · exact .error _
  · exact .error _

/-- With this much fuel, every value that is read has a source. -/
def ValuesHaveSource (fuel : Nat) : Prop :=
  ∀ depth cs, Gives (fun r => ∃ s : Source, cs = s.chars ++ r.2 ∧ s.value sense = r.1) (value {} depth fuel cs)

/-- The items of an array do, up to the bracket that closes it. The blanks before them belong to the first one. -/
def ItemsHaveSource (fuel : Nat) : Prop :=
  ∀ depth (before : Blanks) cs, Gives (fun r => ∃ is : Items, before.1 ++ cs = is.chars ++ ']' :: r.2 ∧
    is.values sense = r.1) (items {} depth fuel cs)

/-- So do the members of an object. -/
def MembersHaveSource (fuel : Nat) : Prop :=
  ∀ depth (before : Blanks) cs, Gives (fun r => ∃ ms : Members, before.1 ++ cs = ms.chars ++ '}' :: r.2 ∧
    ms.entries sense = r.1) (members {} depth fuel cs)

theorem ValuesHaveSource.step {fuel : Nat} (hitems : ItemsHaveSource fuel) (hmembers : MembersHaveSource fuel) :
    ValuesHaveSource (fuel + 1) := by
  intro depth cs
  unfold value
  split
  · next rest =>
    refine (string_of_string _ rest).map ?_
    rintro ⟨name, rest'⟩ ⟨ps, rfl, hname⟩
    exact ⟨.text ps, by simp [Source.chars], by rw [Source.value, hname]⟩
  · next rest =>
    obtain ⟨before, hbefore⟩ := exists_blanks (rfl : skipBlanks rest = _)
    split
    · exact .error _
    split
    · next rest' hclose =>
      rw [hclose] at hbefore
      exact .ok ⟨.emptyList before, by simp [Source.chars, hbefore], rfl⟩
    · refine (hitems (depth + 1) before _).map ?_
      rintro ⟨vs, rest'⟩ ⟨is, his, hvalues⟩
      rw [← hbefore] at his
      exact ⟨.list is, by simp [Source.chars, his], by rw [Source.value, hvalues]⟩
  · next rest =>
    obtain ⟨before, hbefore⟩ := exists_blanks (rfl : skipBlanks rest = _)
    split
    · exact .error _
    split
    · next rest' hclose =>
      rw [hclose] at hbefore
      exact .ok ⟨.emptyMap before, by simp [Source.chars, hbefore], rfl⟩
    · refine (hmembers (depth + 1) before _).map ?_
      rintro ⟨es, rest'⟩ ⟨ms, hms, hentries⟩
      rw [← hbefore] at hms
      exact ⟨.map ms, by simp [Source.chars, hms], by rw [Source.value, hentries]⟩
  · intro r hr
    obtain ⟨w, hcs, hvalue⟩ := bare_of_bareValue _ r hr
    exact ⟨.bare w, hcs, hvalue⟩

theorem ItemsHaveSource.step {fuel : Nat} (hvalues : ValuesHaveSource fuel) (hitems : ItemsHaveSource fuel) :
    ItemsHaveSource (fuel + 1) := by
  intro depth before cs
  unfold items
  refine (hvalues depth cs).bind ?_
  rintro ⟨v, rest⟩ ⟨s, rfl, hv⟩
  simp only
  split
  · next rest' hclose =>
    obtain ⟨after, rfl⟩ := exists_blanks hclose
    exact .ok ⟨.last before s after, by simp [Items.chars], by rw [Items.values, hv]⟩
  · next rest' hcomma =>
    obtain ⟨after, rfl⟩ := exists_blanks hcomma
    -- the blanks behind the comma go to the next item
    obtain ⟨before', hbefore'⟩ := exists_blanks (rfl : skipBlanks rest' = _)
    refine (hitems depth before' _).bind ?_
    rintro ⟨vs, rest''⟩ ⟨is, his, hvs⟩
    rw [← hbefore'] at his
    exact .ok ⟨.cons before s after is, by simp [Items.chars, his], by rw [Items.values, hv, hvs]⟩
  · exact .error _

theorem MembersHaveSource.step {fuel : Nat} (hvalues : ValuesHaveSource fuel)
    (hmembers : MembersHaveSource fuel) : MembersHaveSource (fuel + 1) := by
  intro depth before cs
  unfold members
  refine (name_of_memberName before cs).bind ?_
  rintro ⟨name, rest⟩ ⟨n, hn, hname⟩
  refine (hvalues depth rest).bind ?_
  rintro ⟨v, rest'⟩ ⟨s, rfl, hv⟩
  simp only at hn ⊢
  split
  · next rest'' hclose =>
    obtain ⟨after, rfl⟩ := exists_blanks hclose
    exact .ok ⟨.last n s after, by simp [Members.chars, hn], by rw [Members.entries, hname, hv]⟩
  · next rest'' hcomma =>
    obtain ⟨after, rfl⟩ := exists_blanks hcomma
    obtain ⟨before', hbefore'⟩ := exists_blanks (rfl : skipBlanks rest'' = _)
    refine (hmembers depth before' _).bind ?_
    rintro ⟨es, rest'''⟩ ⟨ms, hms, hentries⟩
    rw [← hbefore'] at hms
    exact .ok ⟨.cons n s after ms, by simp [Members.chars, hn, hms],
      by rw [Members.entries, hname, hv, hentries]⟩
  · exact .error _

/-- The three readers call each other with less fuel, so their sources are found together. -/
theorem source_of_value (fuel : Nat) :
    ValuesHaveSource fuel ∧ ItemsHaveSource fuel ∧ MembersHaveSource fuel := by
  induction fuel with
  | zero => exact ⟨fun _ _ => .error _, fun _ _ _ => .error _, fun _ _ _ => .error _⟩
  | succ fuel ih =>
    obtain ⟨hvalues, hitems, hmembers⟩ := ih
    exact ⟨.step hitems hmembers, .step hvalues hitems, .step hvalues hmembers⟩

/-- **Every text that is read has a source**, and was read as that source says. -/
theorem exists_document_of_read {text : String} {v : Value} (h : read text = .ok v) :
    ∃ d : Document, d.chars = text.toList ∧ d.source.value sense = v := by
  have hdocument : Gives (fun v => ∃ d : Document, d.chars = text.toList ∧ d.source.value sense = v)
      (document {} text.toList) := by
    unfold document
    split
    · exact .error _
    · obtain ⟨before, hbefore⟩ := exists_blanks (rfl : skipBlanks text.toList = _)
      refine ((source_of_value _).1 0 _).bind ?_
      rintro ⟨v, rest⟩ ⟨s, hs, hv⟩
      simp only at hs hv ⊢
      split
      · next hend =>
        obtain ⟨after, rfl⟩ := exists_blanks hend
        refine .ok ⟨⟨before, s, after⟩, ?_, hv⟩
        rw [Document.chars, hbefore, hs, List.append_nil]
      · exact .error _
  unfold read at h
  cases hread : document {} text.toList with
  | error e =>
    rw [hread] at h
    cases h
  | ok w =>
    rw [hread] at h
    cases h
    exact hdocument _ hread

end CommentStyle.Json
