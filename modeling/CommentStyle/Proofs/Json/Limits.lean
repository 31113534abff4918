import CommentStyle.Proofs.Json.RoundTrip
import CommentStyle.Proofs.Number.Numeral
import CommentStyle.Proofs.Value.Contents
import Mathlib.Data.List.TakeWhile

/-!
# What the limits of reading JSON do

A text is refused for its form, or because it passes a limit: a whole number with too many digits, or too
many collections inside one another. This module separates the two.

* **`Limited`** — a reading under limits goes as the one without, unless a limit ends it; and the one without
  ends for reasons of form only. **`Limited.bind`** and **`Limited.map`** carry this through the readers.
* **`limited_number`** — every numeral with a fraction or an exponent is a number, so that the numerals of JSON
  fail by their length alone.
* **`limited_value`** — the readers of values, items and members, by induction on the fuel they share.
* **`read_faults_iff`** — a text is refused for nothing but its form exactly if the limits make no difference
  to it.
* **`writable_of_read`**, **`str_of_read`** — what is read within the limits can be written again, and the keys of
  its objects are texts.
-/

namespace CommentStyle.Json

/-- The text is not JSON, whatever the limits. -/
def Halt.isMalformed : Halt → Bool
  | malformed _ _ => true
  | number _ | tooDeep _ => false

/-- The text is not JSON, whatever the limits. -/
def Fault.isMalformed : Fault → Bool
  | malformed _ _ _ _ => true
  | number _ | tooDeep _ => false

@[simp] theorem isMalformed_locate (cs : List Char) (h : Halt) : (h.locate cs).isMalformed = h.isMalformed := by
  cases h <;> rfl

/-! ## Two readings side by side -/

/-- The second reading fails for reasons of form only, and the first goes like it unless a limit ends it. -/
structure Limited {α : Type} (x y : Except Halt α) : Prop where
  form : ∀ h, y = .error h → h.isMalformed = true
  agrees : x = y ∨ ∃ h, x = .error h ∧ h.isMalformed = false

namespace Limited

variable {α β : Type} {x y : Except Halt α}

theorem ok (a : α) : Limited (.ok a) (.ok a) := ⟨fun _ h => (by cases h), .inl rfl⟩

theorem malformed (cause : Cause) (left : Nat) :
    Limited (.error (.malformed cause left) : Except Halt α) (.error (.malformed cause left)) :=
  ⟨fun h heq => by cases heq; rfl, .inl rfl⟩

theorem bind {f g : α → Except Halt β} (hxy : Limited x y) (hfg : ∀ a, Limited (f a) (g a)) :
    Limited (x >>= f) (y >>= g) := by
  constructor
  · intro h heq
    cases y with
    | error e =>
      cases heq
      exact hxy.form _ rfl
    | ok a => exact (hfg a).form h heq
  · rcases hxy.agrees with rfl | ⟨h, rfl, hlimit⟩
    · cases x with
      | error e => exact .inl rfl
      | ok a => exact (hfg a).agrees
    · exact .inr ⟨h, rfl, hlimit⟩

theorem map (f : α → β) (hxy : Limited x y) : Limited (x.map f) (y.map f) := by
  have h := hxy.bind fun a => ok (f a)
  cases x <;> cases y <;> exact h

end Limited

/-! ## Numerals -/

theorem isDigit_of_mem_wholeDigits {cs : List Char} {c : Char} (hc : c ∈ (wholeDigits cs).1) :
    c.isDigit = true := by
  unfold wholeDigits at hc
  split at hc
  · rw [List.mem_singleton.mp hc]
    rfl
  · exact List.mem_takeWhile_imp hc

theorem isFraction_fraction (cs : List Char) : Number.IsFraction (fraction cs).1 := by
  unfold fraction
  split
  · next rest =>
    by_cases hne : (rest.takeWhile isDigit).isEmpty = true
    · rw [if_pos hne]
      exact .absent
    · rw [if_neg hne]
      exact .digits (by simpa using hne) fun c hc => List.mem_takeWhile_imp hc
  · exact .absent

theorem isExponent_exponent (cs : List Char) : Number.IsExponent (exponent cs).1 := by
  unfold exponent
  split
  · next e rest =>
    by_cases he : (e == 'e' || e == 'E') = true
    · rw [if_pos he]
      split
      next sign ds hsplit =>
        have hsign : sign = [] ∨ sign = ['+'] ∨ sign = ['-'] := by
          split at hsplit <;> cases hsplit <;> simp
        by_cases hne : (ds.takeWhile isDigit).isEmpty = true
        · rw [if_pos hne]
          exact .absent
        · rw [if_neg hne]
          exact .digits (by simpa using he) hsign (by simpa using hne)
            fun c hc => List.mem_takeWhile_imp hc
    · rw [if_neg he]
      exact .absent
  · exact .absent

/-- A numeral fails by the count of its digits alone. -/
theorem limited_number (limits : Limits) (cs : List Char) :
    Limited (number limits cs) (number .none cs) := by
  unfold number
  split
  next sign rest hsplit =>
    have hsign : sign = [] ∨ sign = ['-'] := by
      split at hsplit <;> cases hsplit <;> simp
    simp only
    by_cases hne : (wholeDigits rest).1.isEmpty = true
    · rw [if_pos hne, if_pos hne]
      exact .malformed _ _
    rw [if_neg hne, if_neg hne]
    generalize hwhole : wholeDigits rest = whole at hne
    split
    · -- a whole number: without limits it is read whatever its length
      have hnone : (Limits.none.digits.any fun most => whole.1.length > most) = false := rfl
      simp only [hnone, Bool.false_eq_true, if_false]
      split
      · exact ⟨fun _ h => (by cases h), .inr ⟨_, rfl, rfl⟩⟩
      · exact .ok _
    · have hdigits : ∀ c ∈ whole.1, c.isDigit = true := fun c hc =>
        isDigit_of_mem_wholeDigits (hwhole ▸ hc)
      obtain ⟨x, hx⟩ := Number.exists_real? hsign (by simpa using hne) hdigits
        (isFraction_fraction whole.2) (isExponent_exponent (fraction whole.2).2)
      rw [hx]
      exact .ok _

/-! ## Values -/

theorem limited_bareValue (limits : Limits) (cs : List Char) :
    Limited (bareValue limits cs) (bareValue .none cs) := by
  unfold bareValue
  repeat
    split
    · exact .ok _
  exact limited_number limits cs

theorem limited_stringUnits (opening cs : List Char) :
    Limited (stringUnits opening cs) (stringUnits opening cs) := by
  fun_induction stringUnits opening cs with
  | case1 => exact .malformed _ _
  | case2 => exact .ok _
  | case3 a b c d rest u hempty hunit ih => exact ih.map _
  | case4 => exact .malformed _ _
  | case5 => exact .malformed _ _
  | case6 => exact .malformed _ _
  | case7 c rest _ _ d hescaped ih => exact ih.map _
  | case8 => exact .malformed _ _
  | case9 => exact .malformed _ _
  | case10 c rest _ _ _ _ _ _ ih => exact ih.map _

theorem limited_string (opening cs : List Char) :
    Limited (string opening cs) (string opening cs) :=
  (limited_stringUnits opening cs).map _

theorem limited_memberName (cs : List Char) : Limited (memberName cs) (memberName cs) := by
  unfold memberName
  split
  · refine (limited_string _ _).bind fun r => ?_
    obtain ⟨name, rest⟩ := r
    simp only
    split
    · exact .ok _
    · exact .malformed _ _
  · exact .malformed _ _

/-- A collection too many ends the reading; the one without limits goes on. -/
theorem Limited.unlessDeep {α : Type} {x y : Except Halt α} (limits : Limits) (depth : Nat)
    (inObject : Bool) (hxy : Limited x y) :
    Limited (if tooDeep limits depth then .error (.tooDeep inObject) else x)
      (if tooDeep .none depth then .error (.tooDeep inObject) else y) := by
  have hopen : tooDeep Limits.none depth = false := rfl
  rw [hopen, if_neg Bool.false_ne_true]
  by_cases hdeep : tooDeep limits depth = true
  · rw [if_pos hdeep]
    exact ⟨hxy.form, .inr ⟨_, rfl, rfl⟩⟩
  · rw [if_neg hdeep]
    exact hxy

/-- The readers of values, of items and of members, which call each other with less fuel each time. -/
theorem limited_value (limits : Limits) (fuel : Nat) :
    (∀ depth cs, Limited (value limits depth fuel cs) (value .none depth fuel cs)) ∧
      (∀ depth cs, Limited (items limits depth fuel cs) (items .none depth fuel cs)) ∧
      ∀ depth cs, Limited (members limits depth fuel cs) (members .none depth fuel cs) := by
  induction fuel with
  | zero =>
    refine ⟨fun depth cs => ?_, fun depth cs => ?_, fun depth cs => ?_⟩
    · exact .malformed _ _
    · exact .malformed _ _
    · exact .malformed _ _
  | succ fuel ih =>
    -- the depth is looked at before the parts of an array or object are read
    obtain ⟨ihvalue, ihitems, ihmembers⟩ := ih
    refine ⟨fun depth cs => ?_, fun depth cs => ?_, fun depth cs => ?_⟩
    · unfold value
      split
      · exact (limited_string _ _).map _
      · refine Limited.unlessDeep limits depth false ?_
        split
        · exact .ok _
        · exact (ihitems (depth + 1) _).map _
      · refine Limited.unlessDeep limits depth true ?_
        split
        · exact .ok _
        · exact (ihmembers (depth + 1) _).map _
      · exact limited_bareValue limits _
    · unfold items
      refine (ihvalue depth cs).bind fun r => ?_
      obtain ⟨v, rest⟩ := r
      simp only
      split
      · exact .ok _
      · refine (ihitems depth _).bind fun r => ?_
        obtain ⟨vs, rest⟩ := r
        exact .ok _
      · exact .malformed _ _
    · unfold members
      refine (limited_memberName cs).bind fun r => ?_
      obtain ⟨name, rest⟩ := r
      refine (ihvalue depth rest).bind fun r => ?_
      obtain ⟨v, rest⟩ := r
      simp only
      split
      · exact .ok _
      · refine (ihmembers depth _).bind fun r => ?_
        obtain ⟨es, rest⟩ := r
        exact .ok _
      · exact .malformed _ _

theorem limited_document (limits : Limits) (cs : List Char) :
    Limited (document limits cs) (document .none cs) := by
  unfold document
  split
  · exact .malformed _ _
  · refine ((limited_value limits _).1 0 _).bind fun r => ?_
    obtain ⟨v, rest⟩ := r
    simp only
    split
    · exact .ok _
    · exact .malformed _ _

/-- **A text is refused for nothing but its form exactly if the limits make no difference to it.** -/
theorem read_faults_iff (text : String) :
    (∀ f, read text = .error f → f.isMalformed = true) ↔ read text = read text .none := by
  have hlimited := limited_document {} text.toList
  have hread : ∀ limits, read text limits = (document limits text.toList).mapError (Halt.locate text.toList) :=
    fun limits => rfl
  constructor
  · intro hform
    rcases hlimited.agrees with hsame | ⟨h, hended, hlimit⟩
    · rw [hread, hread, hsame]
    · -- a limit has ended the reading, which the hypothesis excludes
      have hlocated := hform (h.locate text.toList) (by rw [hread, hended]; rfl)
      rw [isMalformed_locate, hlimit] at hlocated
      exact absurd hlocated Bool.false_ne_true
  · intro hsame f hf
    rw [hsame, hread] at hf
    cases hdocument : document .none text.toList with
    | ok v =>
      rw [hdocument] at hf
      cases hf
    | error h =>
      rw [hdocument] at hf
      cases hf
      rw [isMalformed_locate]
      exact hlimited.form h hdocument

/-! ## What is read can be written -/

/-- Every result of the reading has the property. -/
def Gives {α : Type} (P : α → Prop) (x : Except Halt α) : Prop := ∀ a, x = .ok a → P a

namespace Gives

variable {α β : Type} {P : α → Prop} {Q : β → Prop} {x : Except Halt α}

theorem ok {a : α} (ha : P a) : Gives P (.ok a) := fun _ hb => Except.ok.inj hb ▸ ha

theorem error (h : Halt) : Gives P (.error h) := fun _ hb => (by cases hb)

theorem bind {f : α → Except Halt β} (hx : Gives P x) (hf : ∀ a, P a → Gives Q (f a)) :
    Gives Q (x >>= f) := by
  intro b hb
  cases x with
  | error e => cases hb
  | ok a => exact hf a (hx a rfl) b hb

theorem map {f : α → β} (hx : Gives P x) (hf : ∀ a, P a → Q (f a)) : Gives Q (x.map f) := by
  intro b hb
  cases x with
  | error e => cases hb
  | ok a => exact Except.ok.inj hb ▸ hf a (hx a rfl)

end Gives

theorem isWritable_signed {cs : List Char} (hcs : ∀ c ∈ cs, isDigit c = true)
    (hlength : cs.length ≤ NumberFault.digitLimit) (negative : Bool) :
    Number.isWritable (Number.signed negative (Number.ofDigits 10 (cs.filterMap hexValue?))) = true := by
  have hdigits : ∀ d ∈ cs.filterMap hexValue?, d < 10 := by
    intro d hd
    obtain ⟨c, hc, hvalue⟩ := List.mem_filterMap.mp hd
    have hrange := Number.toNat_of_isDigit (hcs c hc)
    rw [show hexValue? c = some (c.toNat - '0'.toNat) from if_pos (by simpa [isDigit] using hcs c hc)] at hvalue
    cases hvalue
    exact Nat.sub_lt_left_of_lt_add hrange.1 (Nat.lt_succ_of_le hrange.2)
  have habs : (Number.signed negative (Number.ofDigits 10 (cs.filterMap hexValue?))).natAbs
      = Number.ofDigits 10 (cs.filterMap hexValue?) := by
    cases negative <;> simp [Number.signed]
  rw [Number.isWritable, decide_eq_true_iff, habs]
  -- the power itself is not to be computed
  generalize NumberFault.digitLimit = limit at hlength ⊢
  exact (Number.ofDigits_lt hdigits).trans_le
    (Nat.pow_le_pow_right (by decide) ((List.length_filterMap_le _ cs).trans hlength))

theorem writable_number (cs : List Char) : Gives (fun r => r.1.Writable) (number {} cs) := by
  unfold number
  split
  next sign rest hsplit =>
    simp only
    split
    · exact .error _
    split
    · split
      · exact .error _
      · next hmost =>
        refine .ok (.int (isWritable_signed (fun c hc => isDigit_of_mem_wholeDigits hc) ?_ _))
        simpa using hmost
    · split
      · exact .ok (.float _)
      · exact .error _

theorem writable_bareValue (cs : List Char) : Gives (fun r => r.1.Writable) (bareValue {} cs) := by
  unfold bareValue
  split
  · exact .ok .null
  split
  · exact .ok (.bool true)
  split
  · exact .ok (.bool false)
  split
  · exact .ok (.float _)
  split
  · exact .ok (.float _)
  split
  · exact .ok (.float _)
  exact writable_number cs

theorem forall_insertEntry {P Q : Value → Prop} {k v : Value} {es : List (Value × Value)} (hk : P k)
    (hv : Q v) (hes : ∀ e ∈ es, P e.1 ∧ Q e.2) : ∀ e ∈ Value.insertEntry k v es, P e.1 ∧ Q e.2 := by
  induction es with
  | nil =>
    intro e he
    rw [List.mem_singleton.mp he]
    exact ⟨hk, hv⟩
  | cons first rest ih =>
    have hfirst := hes first List.mem_cons_self
    have hrest : ∀ e ∈ rest, P e.1 ∧ Q e.2 := fun e he => hes e (List.mem_cons_of_mem first he)
    intro e he
    unfold Value.insertEntry at he
    split at he
    · rcases List.mem_cons.mp he with rfl | he
      · exact ⟨hfirst.1, hv⟩
      · exact hrest e he
    · rcases List.mem_cons.mp he with rfl | he
      · exact hfirst
      · exact ih hrest e he

/-- Entries keep what holds of all keys and of all values when later ones replace earlier ones. -/
theorem forall_mapOf {P Q : Value → Prop} {es : List (Value × Value)} (hes : ∀ e ∈ es, P e.1 ∧ Q e.2) :
    ∀ e ∈ Value.mapOf es, P e.1 ∧ Q e.2 := by
  unfold Value.mapOf
  exact List.foldlRecOn es _ (motive := fun acc : List (Value × Value) => ∀ e ∈ acc, P e.1 ∧ Q e.2)
    (fun e he => absurd he List.not_mem_nil)
    fun acc hacc e he => forall_insertEntry (hes e he).1 (hes e he).2 hacc

/-- The readers of values, of items and of members give what can be written. -/
theorem writable_value (fuel : Nat) :
    (∀ depth cs, Gives (fun r => r.1.Writable) (value {} depth fuel cs)) ∧
      (∀ depth cs, Gives (fun r => ∀ v ∈ r.1, v.Writable) (items {} depth fuel cs)) ∧
      ∀ depth cs, Gives (fun r => ∀ e ∈ r.1, e.1.Writable ∧ e.2.Writable) (members {} depth fuel cs) := by
  induction fuel with
  | zero => exact ⟨fun _ _ => .error _, fun _ _ => .error _, fun _ _ => .error _⟩
  | succ fuel ih =>
    obtain ⟨ihvalue, ihitems, ihmembers⟩ := ih
    refine ⟨fun depth cs => ?_, fun depth cs => ?_, fun depth cs => ?_⟩
    · unfold value
      split
      · exact .map (P := fun _ => True) (fun _ _ => trivial) fun r _ => .str r.1
      · split
        · exact .error _
        split
        · exact .ok (.list (by simp))
        · exact (ihitems (depth + 1) _).map fun r hr => .list hr
      · split
        · exact .error _
        split
        · exact .ok (Value.writable_map_iff.mpr (by simp))
        · exact (ihmembers (depth + 1) _).map fun r hr => Value.writable_map_iff.mpr (forall_mapOf hr)
      · exact writable_bareValue _
    · unfold items
      refine (ihvalue depth cs).bind fun r hv => ?_
      obtain ⟨v, rest⟩ := r
      simp only
      split
      · exact .ok (by simpa using hv)
      · exact (ihitems depth _).bind fun r hr => .ok (List.forall_mem_cons.mpr ⟨hv, hr⟩)
      · exact .error _
    · unfold members
      refine .bind (P := fun _ => True) (fun _ _ => trivial) fun r _ => ?_
      obtain ⟨name, rest⟩ := r
      refine (ihvalue depth rest).bind fun r hv => ?_
      obtain ⟨v, rest⟩ := r
      simp only
      split
      · exact .ok (by simpa using hv)
      · exact (ihmembers depth _).bind fun r hr => .ok (List.forall_mem_cons.mpr ⟨⟨.str name, hv⟩, hr⟩)
      · exact .error _

/-- What holds of all that the reader of values gives holds of what is read. -/
theorem Gives.of_read {P : Value → Prop} (hvalue : ∀ fuel depth cs, Gives (fun r => P r.1) (value {} depth fuel cs))
    {text : String} {v : Value} (h : read text = .ok v) : P v := by
  have hdocument : Gives P (document {} text.toList) := by
    unfold document
    split
    · exact .error _
    · refine (hvalue _ 0 _).bind fun r hv => ?_
      obtain ⟨v, rest⟩ := r
      simp only
      split
      · exact .ok hv
      · exact .error _
  unfold read at h
  cases hread : document {} text.toList with
  | error e =>
    rw [hread] at h
    cases h
  | ok w =>
    rw [hread] at h
    cases h
    exact hdocument _ hread

/-- What is read within the limits can be written again. -/
theorem writable_of_read {text : String} {v : Value} (h : read text = .ok v) : v.Writable :=
  Gives.of_read (fun fuel => (writable_value fuel).1) h

/-! ## The names of members -/

theorem entries?_bareValue (cs : List Char) : Gives (fun r => r.1.entries? = none) (bareValue {} cs) := by
  have hnumber : Gives (fun r => r.1.entries? = none) (number {} cs) := by
    unfold number
    split
    simp only
    split
    · exact .error _
    split
    · split
      · exact .error _
      · exact .ok rfl
    · split
      · exact .ok rfl
      · exact .error _
  unfold bareValue
  repeat
    split
    · exact .ok rfl
  exact hnumber

theorem str_of_members (fuel depth : Nat) (cs : List Char) :
    Gives (fun r => ∀ e ∈ r.1, ∃ name, e.1 = .str name) (members {} depth fuel cs) := by
  induction fuel generalizing cs with
  | zero => exact .error _
  | succ fuel ih =>
    unfold members
    refine .bind (P := fun _ => True) (fun _ _ => trivial) fun r _ => ?_
    obtain ⟨name, rest⟩ := r
    refine .bind (P := fun _ => True) (fun _ _ => trivial) fun r _ => ?_
    obtain ⟨v, rest⟩ := r
    simp only
    split
    · exact .ok (by simp)
    · exact (ih _).bind fun r hr => .ok (List.forall_mem_cons.mpr ⟨⟨name, rfl⟩, hr⟩)
    · exact .error _

/-- The keys of an object that is read are texts. -/
theorem str_of_read {text : String} {v : Value} (h : read text = .ok v) {es : List (Value × Value)}
    (hes : v.entries? = some es) : ∀ e ∈ es, ∃ name, e.1 = .str name := by
  refine Gives.of_read (P := fun v => ∀ es, v.entries? = some es → ∀ e ∈ es, ∃ name, e.1 = .str name)
    (fun fuel depth cs => ?_) h es hes
  cases fuel with
  | zero => exact .error _
  | succ fuel =>
    unfold value
    split
    · exact .map (P := fun _ => True) (fun _ _ => trivial) fun _ _ _ hnone => by cases hnone
    · split
      · exact .error _
      split
      · exact .ok fun _ hnone => by cases hnone
      · exact .map (P := fun _ => True) (fun _ _ => trivial) fun _ _ _ hnone => by cases hnone
    · split
      · exact .error _
      split
      · refine .ok fun es hes => ?_
        cases hes
        simp
      · refine (str_of_members fuel (depth + 1) _).map fun r hr es hes => ?_
        cases hes
        have hnames := forall_mapOf (P := fun k => ∃ name, k = .str name) (Q := fun _ => True) fun e he =>
          ⟨hr e he, trivial⟩
        exact fun e he => (hnames e he).1
    · exact fun r hr es hes => by
        rw [entries?_bareValue _ r hr] at hes
        cases hes

end CommentStyle.Json
