import CommentStyle.Text.Utf8

/-!
# Octets that are a text

The decoder of UTF-8 against the encoder of the standard library: octets are decoded to characters exactly
when they are the encoding of these characters, so that every other row of octets is refused.

* **`lead?_cases`** — what a first octet may be, with the bounds that it sets to the octet behind it.
* **`decodeFrom_begun`** — the one step inside a character.
* **`decodeFrom_utf8EncodeChar`** — the encoding of a character is decoded to it, whatever follows.
* **`exists_char_of_decodeFrom`** — conversely, what is decoded begins with the encoding of a character. The
  bounds rule out overlong forms and surrogates, so that the character has just the octets read.
* **`decode_eq_ok_iff`** — whole rows of octets, by induction on the characters.
-/

namespace CommentStyle.Text.Utf8

/-! ## First octets -/

/-- The octets that a character may begin with, by how many octets follow. -/
theorem lead?_cases {o : UInt8} {l : Lead} (h : lead? o = some l) :
    (l.more = 0 ∧ o.toNat = l.bits ∧ l.bits < 0x80) ∨
      (l.more = 1 ∧ o.toNat = 0xC0 + l.bits ∧ 2 ≤ l.bits ∧ l.bits < 0x20 ∧ l.low = 0x80
        ∧ l.high = 0xBF) ∨
      (l.more = 2 ∧ o.toNat = 0xE0 + l.bits ∧ l.bits < 0x10
        ∧ l.low = (if l.bits = 0 then 0xA0 else 0x80)
        ∧ l.high = if l.bits = 0xD then 0x9F else 0xBF) ∨
      (l.more = 3 ∧ o.toNat = 0xF0 + l.bits ∧ l.bits ≤ 4
        ∧ l.low = (if l.bits = 0 then 0x90 else 0x80)
        ∧ l.high = if l.bits = 4 then 0x8F else 0xBF) := by
  unfold lead? at h
  simp only at h
  split at h
  · obtain rfl := Option.some.inj h
    exact Or.inl ⟨rfl, rfl, by assumption⟩
  split at h
  · obtain rfl := Option.some.inj h
    refine Or.inr (Or.inl ⟨rfl, ?_, ?_, ?_, rfl, rfl⟩) <;> simp only <;> omega
  split at h
  · obtain rfl := Option.some.inj h
    exact Or.inr (Or.inr (Or.inl ⟨rfl, by assumption, by decide, rfl, rfl⟩))
  split at h
  · obtain rfl := Option.some.inj h
    exact Or.inr (Or.inr (Or.inl ⟨rfl, by assumption, by decide, rfl, rfl⟩))
  split at h
  · obtain rfl := Option.some.inj h
    refine Or.inr (Or.inr (Or.inl ⟨rfl, ?_, ?_, (if_neg ?_).symm, (if_neg ?_).symm⟩)) <;> simp only <;>
      omega
  split at h
  · obtain rfl := Option.some.inj h
    exact Or.inr (Or.inr (Or.inr ⟨rfl, by assumption, by decide, rfl, rfl⟩))
  split at h
  · obtain rfl := Option.some.inj h
    refine Or.inr (Or.inr (Or.inr ⟨rfl, ?_, ?_, (if_neg ?_).symm, (if_neg ?_).symm⟩)) <;> simp only <;>
      omega
  split at h
  · obtain rfl := Option.some.inj h
    exact Or.inr (Or.inr (Or.inr ⟨rfl, by assumption, by decide, rfl, rfl⟩))
  · exact absurd h (by simp)

theorem lead?_one {o : UInt8} (h : o.toNat < 0x80) : lead? o = some ⟨o.toNat, 0, 0x80, 0xBF⟩ := by
  unfold lead?
  simp only
  rw [if_pos h]

theorem lead?_two {o : UInt8} (hlow : 0xC2 ≤ o.toNat) (hhigh : o.toNat ≤ 0xDF) :
    lead? o = some ⟨o.toNat - 0xC0, 1, 0x80, 0xBF⟩ := by
  unfold lead?
  simp only
  rw [if_neg (by omega), if_pos ⟨hlow, hhigh⟩]

/-- The octets that two follow; the first and the last but two allow less behind them. -/
theorem lead?_three {o : UInt8} (hlow : 0xE0 ≤ o.toNat) (hhigh : o.toNat ≤ 0xEF) :
    lead? o = some ⟨o.toNat - 0xE0, 2, if o.toNat = 0xE0 then 0xA0 else 0x80,
      if o.toNat = 0xED then 0x9F else 0xBF⟩ := by
  unfold lead?
  simp only
  rw [if_neg (by omega), if_neg (by omega)]
  split
  · next h => simp [h]
  split
  · next h => simp [h]
  · rw [if_pos ⟨by omega, hhigh⟩]

/-- The octets that three follow; the first and the last allow less behind them. -/
theorem lead?_four {o : UInt8} (hlow : 0xF0 ≤ o.toNat) (hhigh : o.toNat ≤ 0xF4) :
    lead? o = some ⟨o.toNat - 0xF0, 3, if o.toNat = 0xF0 then 0x90 else 0x80,
      if o.toNat = 0xF4 then 0x8F else 0xBF⟩ := by
  unfold lead?
  simp only
  rw [if_neg (by omega), if_neg (by omega), if_neg (by omega), if_neg (by omega), if_neg (by omega)]
  split
  · next h => simp [h]
  split
  · rw [if_neg (show o.toNat ≠ 0xF4 by omega)]
  · next h0 h =>
    have hlast : o.toNat = 0xF4 := by omega
    simp [hlast]

/-! ## Steps of the decoder -/

theorem decodeFrom_lead {o : UInt8} {l : Lead} (h : lead? o = some l) (hmore : l.more ≠ 0)
    (position : Nat) (rest : List UInt8) :
    decodeFrom position none (o :: rest)
      = decodeFrom (position + 1) (some ⟨o, position, l.bits, l.more, l.low, l.high⟩) rest := by
  rw [decodeFrom]
  simp only [h, if_neg hmore]

theorem decodeFrom_continue {b : Begun} {o : UInt8} (hlow : b.low ≤ o.toNat) (hhigh : o.toNat ≤ b.high)
    (hmore : b.more ≠ 1) (position : Nat) (rest : List UInt8) :
    decodeFrom position (some b) (o :: rest)
      = decodeFrom (position + 1)
          (some ⟨b.octet, b.position, b.bits * 64 + (o.toNat - 0x80), b.more - 1, 0x80, 0xBF⟩) rest := by
  rw [decodeFrom]
  simp only [if_pos (And.intro hlow hhigh), if_neg hmore]

theorem decodeFrom_last {b : Begun} {o : UInt8} (hlow : b.low ≤ o.toNat) (hhigh : o.toNat ≤ b.high)
    (hmore : b.more = 1) (position : Nat) (rest : List UInt8) :
    decodeFrom position (some b) (o :: rest)
      = (decodeFrom (position + 1) none rest).map
          (Char.ofNat (b.bits * 64 + (o.toNat - 0x80)) :: ·) := by
  rw [decodeFrom]
  simp only [if_pos (And.intro hlow hhigh), if_pos hmore]

/-- A character that was begun goes on with an octet within its bounds. -/
theorem decodeFrom_begun {position : Nat} {b : Begun} {os : List UInt8} {cs : List Char}
    (h : decodeFrom position (some b) os = .ok cs) :
    ∃ o rest, os = o :: rest ∧ b.low ≤ o.toNat ∧ o.toNat ≤ b.high := by
  cases os with
  | nil => simp [decodeFrom] at h
  | cons o rest =>
    rw [decodeFrom] at h
    simp only at h
    split at h
    · next hbounds => exact ⟨o, rest, rfl, hbounds⟩
    · exact absurd h (by simp)

theorem exists_of_map_eq_ok {c : Char} {x : Except Fault (List Char)} {cs : List Char}
    (h : x.map (c :: ·) = .ok cs) : ∃ ds, x = .ok ds ∧ cs = c :: ds := by
  cases x with
  | error f => exact absurd h (by simp [Except.map])
  | ok ds => exact ⟨ds, rfl, (Except.ok.inj h).symm⟩

/-! ## One character -/

/-- The bound is a numeral here, for arithmetic to see. -/
theorem toNat_ofNat_of_lt {n : Nat} (h : n < 256) : (UInt8.ofNat n).toNat = n :=
  UInt8.toNat_ofNat_of_lt' h

/-- **Encoded characters are decoded**, whatever follows. -/
theorem decodeFrom_utf8EncodeChar (position : Nat) (c : Char) (rest : List UInt8) :
    decodeFrom position none (String.utf8EncodeChar c ++ rest)
      = (decodeFrom (position + (String.utf8EncodeChar c).length) none rest).map (c :: ·) := by
  have hc : Char.ofNat c.val.toNat = c := Char.ofNat_toNat c
  have hvalid : c.val.toNat < 0xD800 ∨ (0xDFFF < c.val.toNat ∧ c.val.toNat < 0x110000) := c.valid
  unfold String.utf8EncodeChar
  simp only
  generalize c.val.toNat = v at hc hvalid ⊢
  split
  · -- one octet
    have ho : (UInt8.ofNat v).toNat = v := toNat_ofNat_of_lt (by omega)
    rw [List.singleton_append, decodeFrom, lead?_one (by omega), ho]
    simp only [hc]
    rfl
  split
  · -- two octets
    have h1 : (UInt8.ofNat (v / 64 % 32 + 192)).toNat = v / 64 % 32 + 192 :=
      toNat_ofNat_of_lt (by omega)
    have h2 : (UInt8.ofNat (v % 64 + 128)).toNat = v % 64 + 128 := toNat_ofNat_of_lt (by omega)
    have hbits : (v / 64 % 32 + 192 - 0xC0) * 64 + (v % 64 + 128 - 0x80) = v := by omega
    rw [List.cons_append, List.singleton_append, decodeFrom_lead (lead?_two (by omega) (by omega))
      (by simp), decodeFrom_last (by simp only; omega) (by simp only; omega) rfl]
    simp only [h1, h2, hbits, hc]
    rfl
  split
  · -- three octets
    have h1 : (UInt8.ofNat (v / 4096 % 16 + 224)).toNat = v / 4096 % 16 + 224 :=
      toNat_ofNat_of_lt (by omega)
    have h2 : (UInt8.ofNat (v / 64 % 64 + 128)).toNat = v / 64 % 64 + 128 :=
      toNat_ofNat_of_lt (by omega)
    have h3 : (UInt8.ofNat (v % 64 + 128)).toNat = v % 64 + 128 := toNat_ofNat_of_lt (by omega)
    have hbits : ((v / 4096 % 16 + 224 - 0xE0) * 64 + (v / 64 % 64 + 128 - 0x80)) * 64
        + (v % 64 + 128 - 0x80) = v := by omega
    rw [List.cons_append, List.cons_append, List.singleton_append,
      decodeFrom_lead (lead?_three (by omega) (by omega)) (by simp),
      decodeFrom_continue (by simp only [h1, h2]; split <;> omega)
        (by simp only [h1, h2]; split <;> omega) (by simp),
      decodeFrom_last (by simp only; omega) (by simp only; omega) rfl]
    simp only [h1, h2, h3, hbits, hc]
    rfl
  · -- four octets
    have h1 : (UInt8.ofNat (v / 262144 % 8 + 240)).toNat = v / 262144 % 8 + 240 :=
      toNat_ofNat_of_lt (by omega)
    have h2 : (UInt8.ofNat (v / 4096 % 64 + 128)).toNat = v / 4096 % 64 + 128 :=
      toNat_ofNat_of_lt (by omega)
    have h3 : (UInt8.ofNat (v / 64 % 64 + 128)).toNat = v / 64 % 64 + 128 :=
      toNat_ofNat_of_lt (by omega)
    have h4 : (UInt8.ofNat (v % 64 + 128)).toNat = v % 64 + 128 := toNat_ofNat_of_lt (by omega)
    have hbits : (((v / 262144 % 8 + 240 - 0xF0) * 64 + (v / 4096 % 64 + 128 - 0x80)) * 64
        + (v / 64 % 64 + 128 - 0x80)) * 64 + (v % 64 + 128 - 0x80) = v := by omega
    rw [List.cons_append, List.cons_append, List.cons_append, List.singleton_append,
      decodeFrom_lead (lead?_four (by omega) (by omega)) (by simp),
      decodeFrom_continue (by simp only [h1, h2]; split <;> omega)
        (by simp only [h1, h2]; split <;> omega) (by simp),
      decodeFrom_continue (by simp only; omega) (by simp only; omega) (by simp),
      decodeFrom_last (by simp only; omega) (by simp only; omega) rfl]
    simp only [h1, h2, h3, h4, hbits, hc]
    rfl

theorem toNat_val_ofNat {n : Nat} (h : n < 0xD800 ∨ (0xDFFF < n ∧ n < 0x110000)) :
    (Char.ofNat n).val.toNat = n := by
  have hvalid : n.isValidChar := h
  rw [Char.ofNat, dif_pos hvalid]
  exact UInt32.toNat_ofNatLT

theorem eq_ofNat_of_toNat {o : UInt8} {n : Nat} (h : o.toNat = n) : o = UInt8.ofNat n := by
  rw [← h, UInt8.ofNat_toNat]

theorem encode_two {a b : UInt8} {x : Nat} (ha : a.toNat = 0xC0 + x) (hx : 2 ≤ x) (hx' : x < 0x20)
    (hb : 0x80 ≤ b.toNat) (hb' : b.toNat ≤ 0xBF) :
    String.utf8EncodeChar (Char.ofNat (x * 64 + (b.toNat - 0x80))) = [a, b] := by
  unfold String.utf8EncodeChar
  simp only
  rw [toNat_val_ofNat (by omega), if_neg (by omega), if_pos (by omega)]
  rw [← eq_ofNat_of_toNat (o := a) (by omega), ← eq_ofNat_of_toNat (o := b) (by omega)]

theorem encode_three {a b c : UInt8} {x : Nat} (ha : a.toNat = 0xE0 + x) (hx : x < 0x10)
    (hb : (if x = 0 then 0xA0 else 0x80) ≤ b.toNat) (hb' : b.toNat ≤ if x = 0xD then 0x9F else 0xBF)
    (hc : 0x80 ≤ c.toNat) (hc' : c.toNat ≤ 0xBF) :
    String.utf8EncodeChar (Char.ofNat ((x * 64 + (b.toNat - 0x80)) * 64 + (c.toNat - 0x80)))
      = [a, b, c] := by
  have hb0 : x = 0 → 0xA0 ≤ b.toNat := fun h => by rwa [if_pos h] at hb
  have hbd : x = 0xD → b.toNat ≤ 0x9F := fun h => by rwa [if_pos h] at hb'
  have hbl : 0x80 ≤ b.toNat := by split at hb <;> omega
  have hbh : b.toNat ≤ 0xBF := by split at hb' <;> omega
  unfold String.utf8EncodeChar
  simp only
  rw [toNat_val_ofNat (by omega), if_neg (by omega), if_neg (by omega), if_pos (by omega)]
  rw [← eq_ofNat_of_toNat (o := a) (by omega), ← eq_ofNat_of_toNat (o := b) (by omega),
    ← eq_ofNat_of_toNat (o := c) (by omega)]

theorem encode_four {a b c d : UInt8} {x : Nat} (ha : a.toNat = 0xF0 + x) (hx : x ≤ 4)
    (hb : (if x = 0 then 0x90 else 0x80) ≤ b.toNat) (hb' : b.toNat ≤ if x = 4 then 0x8F else 0xBF)
    (hc : 0x80 ≤ c.toNat) (hc' : c.toNat ≤ 0xBF) (hd : 0x80 ≤ d.toNat) (hd' : d.toNat ≤ 0xBF) :
    String.utf8EncodeChar (Char.ofNat (((x * 64 + (b.toNat - 0x80)) * 64 + (c.toNat - 0x80)) * 64
      + (d.toNat - 0x80))) = [a, b, c, d] := by
  have hb0 : x = 0 → 0x90 ≤ b.toNat := fun h => by rwa [if_pos h] at hb
  have hb4 : x = 4 → b.toNat ≤ 0x8F := fun h => by rwa [if_pos h] at hb'
  have hbl : 0x80 ≤ b.toNat := by split at hb <;> omega
  have hbh : b.toNat ≤ 0xBF := by split at hb' <;> omega
  unfold String.utf8EncodeChar
  simp only
  rw [toNat_val_ofNat (by omega), if_neg (by omega), if_neg (by omega), if_neg (by omega)]
  rw [← eq_ofNat_of_toNat (o := a) (by omega), ← eq_ofNat_of_toNat (o := b) (by omega),
    ← eq_ofNat_of_toNat (o := c) (by omega), ← eq_ofNat_of_toNat (o := d) (by omega)]

/-- **What is decoded begins with an encoded character.** -/
theorem exists_char_of_decodeFrom {position : Nat} {o : UInt8} {rest : List UInt8} {cs : List Char}
    (h : decodeFrom position none (o :: rest) = .ok cs) :
    ∃ c os ds, o :: rest = String.utf8EncodeChar c ++ os ∧ cs = c :: ds
      ∧ decodeFrom (position + (String.utf8EncodeChar c).length) none os = .ok ds := by
  cases hlead : lead? o with
  | none =>
    rw [decodeFrom] at h
    simp [hlead] at h
  | some l =>
    rcases lead?_cases hlead with ⟨hmore, ho, hbits⟩ | ⟨hmore, ho, hx, hx', hlow, hhigh⟩ |
      ⟨hmore, ho, hx, hlow, hhigh⟩ | ⟨hmore, ho, hx, hlow, hhigh⟩
    · -- an octet that stands for itself
      rw [decodeFrom] at h
      simp only [hlead, if_pos hmore] at h
      obtain ⟨ds, hds, rfl⟩ := exists_of_map_eq_ok h
      have hencode : String.utf8EncodeChar (Char.ofNat l.bits) = [o] := by
        unfold String.utf8EncodeChar
        simp only
        rw [toNat_val_ofNat (by omega), if_pos (by omega), ← eq_ofNat_of_toNat ho]
      exact ⟨Char.ofNat l.bits, rest, ds, by rw [hencode]; rfl, rfl, by rw [hencode]; exact hds⟩
    · rw [decodeFrom_lead hlead (by omega)] at h
      obtain ⟨b, rest, rfl, hb, hb'⟩ := decodeFrom_begun h
      simp only [hlow, hhigh] at hb hb'
      rw [decodeFrom_last (by simpa only [hlow]) (by simpa only [hhigh]) hmore] at h
      obtain ⟨ds, hds, rfl⟩ := exists_of_map_eq_ok h
      have hencode := encode_two ho hx hx' hb hb'
      exact ⟨_, rest, ds, by rw [hencode]; rfl, rfl, by rw [hencode]; exact hds⟩
    · rw [decodeFrom_lead hlead (by omega)] at h
      obtain ⟨b, rest, rfl, hb, hb'⟩ := decodeFrom_begun h
      rw [decodeFrom_continue hb hb' (by simp [hmore])] at h
      obtain ⟨c, rest, rfl, hc, hc'⟩ := decodeFrom_begun h
      rw [decodeFrom_last hc hc' (by simp [hmore])] at h
      obtain ⟨ds, hds, rfl⟩ := exists_of_map_eq_ok h
      have hencode := encode_three ho hx (hlow ▸ hb) (hhigh ▸ hb') hc hc'
      exact ⟨_, rest, ds, by rw [hencode]; rfl, rfl, by rw [hencode]; exact hds⟩
    · rw [decodeFrom_lead hlead (by omega)] at h
      obtain ⟨b, rest, rfl, hb, hb'⟩ := decodeFrom_begun h
      rw [decodeFrom_continue hb hb' (by simp [hmore])] at h
      obtain ⟨c, rest, rfl, hc, hc'⟩ := decodeFrom_begun h
      rw [decodeFrom_continue hc hc' (by simp [hmore])] at h
      obtain ⟨d, rest, rfl, hd, hd'⟩ := decodeFrom_begun h
      rw [decodeFrom_last hd hd' (by simp [hmore])] at h
      obtain ⟨ds, hds, rfl⟩ := exists_of_map_eq_ok h
      have hencode := encode_four ho hx (hlow ▸ hb) (hhigh ▸ hb') hc hc' hd hd'
      exact ⟨_, rest, ds, by rw [hencode]; rfl, rfl, by rw [hencode]; exact hds⟩

/-! ## Rows of octets -/

theorem decodeFrom_flatMap (position : Nat) (cs : List Char) :
    decodeFrom position none (cs.flatMap String.utf8EncodeChar) = .ok cs := by
  induction cs generalizing position with
  | nil => rfl
  | cons c cs ih => rw [List.flatMap_cons, decodeFrom_utf8EncodeChar, ih]; rfl

theorem eq_flatMap_of_decodeFrom {position : Nat} {os : List UInt8} {cs : List Char}
    (h : decodeFrom position none os = .ok cs) : os = cs.flatMap String.utf8EncodeChar := by
  induction cs generalizing position os with
  | nil =>
    cases os with
    | nil => rfl
    | cons o rest =>
      obtain ⟨c, -, ds, -, hcons, -⟩ := exists_char_of_decodeFrom h
      exact absurd hcons (by simp)
  | cons c cs ih =>
    cases os with
    | nil => exact absurd h (by simp [decodeFrom])
    | cons o rest =>
      obtain ⟨d, os, ds, hos, hcons, hrest⟩ := exists_char_of_decodeFrom h
      obtain ⟨rfl, rfl⟩ := List.cons.inj hcons
      rw [hos, List.flatMap_cons, ← ih hrest]

/-- **Octets are decoded to a text exactly when they are its encoding.** -/
theorem decode_eq_ok_iff {os : List UInt8} {cs : List Char} :
    decode os = .ok cs ↔ os = cs.flatMap String.utf8EncodeChar := by
  refine ⟨eq_flatMap_of_decodeFrom, ?_⟩
  rintro rfl
  exact decodeFrom_flatMap 0 cs

end CommentStyle.Text.Utf8
