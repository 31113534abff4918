import CommentStyle.Proofs.Number.Numeral
import CommentStyle.Proofs.Yaml.Cursor
import CommentStyle.Yaml.Token
import Mathlib.Data.List.Infix

/-!
# What scanning does to a text

Every scanner moves its cursor forward, character by character, and nearly all its faults are faults of form.
The rest are due to two things that can be pointed at in the text.

* **`Reaches`** — the cursor moved on.
* **`Unscannable`** — an escape beyond the last code point, or a version with too many digits, stands in the text.
* **`Yields`** — what a computation says of its results and of the faults that are not of form; **`Scans`** puts
  the two above together, and one lemma for each scanner proves it.
* **`Lexer.openings`** — how many collections and items may still begin, by the tokens that wait and by the marks
  in the text ahead. A token that begins one is never made but of such a mark (**`lexes_step`**), so that the
  count never grows (**`lexes_ahead`**) and goes down where such a token is taken (**`openings_next`**).
-/

namespace CommentStyle.Yaml

/-! ## Cursors on their way -/

namespace Cursor

theorem skip_add (c : Cursor) (m n : Nat) : c.skip (m + n) = (c.skip m).skip n := by
  induction m generalizing c with
  | zero => rw [Nat.zero_add]; rfl
  | succ m ih => rw [Nat.succ_add, skip, skip, ih]

/-- The cursor moved on, character by character. -/
def Reaches (c c' : Cursor) : Prop := ∃ n, c' = c.skip n

variable {c c' c₁ c₂ c₃ : Cursor}

theorem Reaches.refl (c : Cursor) : Reaches c c := ⟨0, rfl⟩

theorem Reaches.trans (h₁ : Reaches c₁ c₂) (h₂ : Reaches c₂ c₃) : Reaches c₁ c₃ := by
  obtain ⟨m, rfl⟩ := h₁
  obtain ⟨n, rfl⟩ := h₂
  exact ⟨m + n, (c₁.skip_add m n).symm⟩

theorem Reaches.suffix (h : Reaches c c') : c'.rest <:+ c.rest := by
  obtain ⟨n, rfl⟩ := h
  rw [rest_skip]
  exact List.drop_suffix n c.rest

theorem reaches_skip (c : Cursor) (n : Nat) : Reaches c (c.skip n) := ⟨n, rfl⟩

theorem reaches_next (c : Cursor) : Reaches c c.next := ⟨1, rfl⟩

theorem reaches_span (p : Char → Bool) (c : Cursor) : Reaches c (c.span p).2 := ⟨_, rfl⟩

theorem reaches_skipWhile (p : Char → Bool) (c : Cursor) : Reaches c (c.skipWhile p) := ⟨_, rfl⟩

theorem reaches_lineBreak? {b : Char} (h : c.lineBreak? = some (b, c')) : Reaches c c' := by
  unfold lineBreak? at h
  split at h
  · cases h
    exact ⟨2, rfl⟩
  · split at h
    · cases h
      exact reaches_next c
    · split at h
      · cases h
        exact reaches_next c
      · cases h
  · cases h

/-- Blanks and a comment behind them. -/
theorem reaches_comment (c : Cursor) :
    Reaches c (if c.skipSpaces.peek == some '#' then c.skipSpaces.skipLine else c.skipSpaces) := by
  split
  · exact (reaches_skipWhile _ c).trans (reaches_skipWhile _ _)
  · exact reaches_skipWhile _ c

end Cursor

/-! ## Results and faults -/

/-- The results of the computation have the property, and its faults, those of form aside, have the cause. -/
structure Yields {α : Type} (x : Except Fault α) (Result : α → Prop) (Cause : Unmade → Prop) : Prop where
  result : ∀ a, x = .ok a → Result a
  cause : ∀ f, x = .error (.unmade f) → Cause f

namespace Yields

variable {α β : Type} {x : Except Fault α} {Result Result' : α → Prop} {Next : β → Prop}
  {Cause Cause' : Unmade → Prop}

theorem ok {a : α} (ha : Result a) : Yields (.ok a) Result Cause :=
  ⟨fun _ hb => Except.ok.inj hb ▸ ha, fun _ hf => (by cases hf)⟩

theorem malformed : Yields (.error .malformed : Except Fault α) Result Cause :=
  ⟨fun _ hb => (by cases hb), fun _ hf => (by cases hf)⟩

theorem unmade {f : Unmade} (hf : Cause f) : Yields (.error (.unmade f) : Except Fault α) Result Cause :=
  ⟨fun _ hb => (by cases hb), fun _ hg => Fault.unmade.inj (Except.error.inj hg) ▸ hf⟩

theorem bind {f : α → Except Fault β} (hx : Yields x Result Cause)
    (hf : ∀ a, Result a → Yields (f a) Next Cause) : Yields (x >>= f) Next Cause := by
  cases x with
  | error e => exact ⟨fun _ hb => (by cases hb), fun g hg => hx.cause g (by cases hg; rfl)⟩
  | ok a => exact hf a (hx.result a rfl)

theorem map {f : α → β} (hx : Yields x Result Cause) (hf : ∀ a, Result a → Next (f a)) :
    Yields (x.map f) Next Cause := by
  cases x with
  | error e => exact ⟨fun _ hb => (by cases hb), fun g hg => hx.cause g (by cases hg; rfl)⟩
  | ok a => exact ok (hf a (hx.result a rfl))

theorem imp (hx : Yields x Result Cause) (hresult : ∀ a, Result a → Result' a)
    (hcause : ∀ f, Cause f → Cause' f) : Yields x Result' Cause' :=
  ⟨fun a ha => hresult a (hx.result a ha), fun f hf => hcause f (hx.cause f hf)⟩

end Yields

/-- The code point that hexadecimal digits name. -/
def codeOf (digits : List Char) : Nat := Number.ofDigits 16 (digits.filterMap (Number.digit? 16))

/-- What in a text a scanner cannot get past, although the form may be right. -/
inductive Unscannable (cs : List Char) : Unmade → Prop
  /-- An escape names a code point beyond the last one. -/
  | escape {digits : List Char} (hpart : '\\' :: 'U' :: digits <:+: cs) (hlength : digits.length = 8)
      (hdigits : ∀ c ∈ digits, Scalar.isHexDigit c = true) (hbeyond : codeOf digits > 0x10FFFF) :
      Unscannable cs (.codePoint (decide (codeOf digits > 0x7FFFFFFF)))
  /-- A version has more digits than are read as a number. -/
  | version {digits : List Char} (hname : "YAML".toList <:+: cs) (hpart : digits <:+: cs)
      (hdigits : ∀ c ∈ digits, c.isDigit = true) (hlong : digits.length > NumberFault.digitLimit) :
      Unscannable cs (.number (.tooManyDigits digits.length))

theorem Unscannable.of_part {cs cs' : List Char} {f : Unmade} (h : Unscannable cs f) (hpart : cs <:+: cs') :
    Unscannable cs' f := by
  cases h with
  | escape hescape hlength hdigits hbeyond => exact .escape (hescape.trans hpart) hlength hdigits hbeyond
  | version hname hnumber hdigits hlong => exact .version (hname.trans hpart) (hnumber.trans hpart) hdigits hlong

/-- The scanner moves on from the cursor to where its result says, or cannot get past something ahead. -/
def Scans {α : Type} (c : Cursor) (after : α → Cursor) (x : Except Fault α) : Prop :=
  Yields x (fun r => c.Reaches (after r)) (Unscannable c.rest)

namespace Scans

variable {α β : Type} {c c' : Cursor} {after : α → Cursor} {after' : β → Cursor} {x : Except Fault α}

theorem malformed : Scans c after (.error .malformed) := Yields.malformed

theorem of_reaches (hx : Scans c' after x) (hc : c.Reaches c') : Scans c after x :=
  Yields.imp hx (fun _ => hc.trans) fun _ hf => hf.of_part hc.suffix.isInfix

theorem bind {f : α → Except Fault β} (hx : Scans c after x) (hf : ∀ a, Scans (after a) after' (f a)) :
    Scans c after' (x >>= f) :=
  Yields.bind hx fun a ha => (hf a).of_reaches ha

/-- A check of form before the rest. -/
theorem guarded {p : Prop} [Decidable p] {f : PUnit → Except Fault α} (hf : Scans c after (f ())) :
    Scans c after (if p then throw .malformed >>= f else f ()) := by
  split
  · exact .malformed
  · exact hf

theorem map {f : α → β} (hx : Scans c after x) (hf : ∀ a, after' (f a) = after a) : Scans c after' (x.map f) :=
  Yields.map hx fun a ha => (hf a).symm ▸ ha

end Scans

/-! ## Scalars -/

namespace Scalar

variable {c : Cursor}

theorem scans_quotedBreaks (fuel : Nat) (c : Cursor) : Scans c Prod.snd (quotedBreaks fuel c) := by
  induction fuel generalizing c with
  | zero => exact .ok (.refl c)
  | succ fuel ih =>
    rw [quotedBreaks]
    split
    · exact .malformed
    simp only
    split
    · exact .ok (c.reaches_skipWhile isSpace)
    · next b c' hbreak =>
      have hc : c.Reaches c' := (c.reaches_skipWhile isSpace).trans (Cursor.reaches_lineBreak? hbreak)
      exact .of_reaches (.map (ih c') fun _ => rfl) hc

theorem codeOf_lt (ds : List Char) : codeOf ds < Nat.pow 16 ds.length := by
  have hdigits : ∀ d ∈ ds.filterMap (Number.digit? 16), d < 16 := by
    intro d hd
    obtain ⟨c, -, hc⟩ := List.mem_filterMap.mp hd
    simpa using (Option.filter_eq_some_iff.mp hc).2
  exact (Number.ofDigits_lt hdigits).trans_le (Nat.pow_le_pow_right (by decide) (List.length_filterMap_le _ ds))

theorem yields_codeChar (n : Nat) :
    Yields (codeChar n) (fun _ => True) fun f => n > 0x10FFFF ∧ f = .codePoint (decide (n > 0x7FFFFFFF)) := by
  unfold codeChar
  split
  · next hhuge => exact .unmade ⟨by omega, by rw [decide_eq_true hhuge]⟩
  split
  · next hhuge hbeyond => exact .unmade ⟨hbeyond, by rw [decide_eq_false hhuge]⟩
  split
  · exact .ok trivial
  · exact .ok trivial

/-- Only an escape of eight digits can name a code point that there is not. -/
theorem unscannable_of_width {ch : Char} {x : List Char} {width : Nat} (hwidth : escapeWidth? ch = some width)
    (hlength : (x.take width).length = width) (hdigits : ∀ d ∈ x.take width, isHexDigit d = true)
    (hbeyond : codeOf (x.take width) > 0x10FFFF) :
    Unscannable ('\\' :: ch :: x) (.codePoint (decide (codeOf (x.take width) > 0x7FFFFFFF))) := by
  have hlt := codeOf_lt (x.take width)
  rw [hlength] at hlt
  unfold escapeWidth? at hwidth
  -- two digits and four stay below the last code point
  split at hwidth
  · cases hwidth
    exact absurd (hbeyond.trans hlt) (by decide)
  split at hwidth
  · cases hwidth
    exact absurd (hbeyond.trans hlt) (by decide)
  split at hwidth
  · next hletter =>
    cases hwidth
    rw [beq_iff_eq] at hletter
    subst hletter
    refine .escape ?_ hlength hdigits hbeyond
    exact (List.prefix_append ('\\' :: 'U' :: x.take 8) (x.drop 8)).isInfix.trans (by simp)
  · cases hwidth

/-- An escape, the backslash before it being part of the text. -/
theorem yields_escape (fuel : Nat) (c : Cursor) :
    Yields (escape fuel c) (fun r => c.Reaches r.2) (Unscannable ('\\' :: c.rest)) := by
  unfold escape
  split
  · exact .malformed
  next ch hch =>
  obtain ⟨x, hx⟩ : ∃ x, c.rest = ch :: x := List.head?_eq_some_iff.mp hch
  split
  · exact .ok c.reaches_next
  · next width _ hwidth =>
    simp only
    split
    · next hdigits =>
      obtain ⟨hlength, hhex⟩ : (c.next.rest.take width).length = width ∧
          ∀ d ∈ c.next.rest.take width, isHexDigit d = true := by simpa using hdigits
      refine .map ((yields_codeChar _).imp (fun _ => id) ?_) fun _ _ =>
        c.reaches_next.trans (Cursor.reaches_skip _ width)
      rintro f ⟨hbeyond, rfl⟩
      have hnext : c.next.rest = x := by rw [Cursor.rest_next, hx, List.tail_cons]
      rw [hnext] at hlength hhex hbeyond ⊢
      rw [hx]
      exact unscannable_of_width hwidth hlength hhex hbeyond
    · exact .malformed
  · split
    · next hbreak =>
      refine Yields.imp ((scans_quotedBreaks fuel _).of_reaches (Cursor.reaches_lineBreak? hbreak)) (fun _ => id) ?_
      exact fun _ hf => hf.of_part (List.suffix_cons _ _).isInfix
    · exact .malformed

theorem scans_quoted (double : Bool) (fuel : Nat) (c : Cursor) : Scans c Prod.snd (quoted double fuel c) := by
  induction fuel generalizing c with
  | zero => exact .malformed
  | succ fuel ih =>
    -- each turn moves the cursor and goes on from there
    have hmore : ∀ {d : Cursor} (f : List Char → List Char), c.Reaches d →
        Scans c Prod.snd (quoted double fuel d >>= fun r => .ok (f r.1, r.2)) := fun f hd =>
      .of_reaches (.bind (ih _) fun r => .ok (.refl r.2)) hd
    rw [quoted]
    split
    · exact .malformed
    next ch rest hrest =>
    split
    · have hspaces : c.Reaches (c.span isSpace).2 := c.reaches_span isSpace
      simp only
      split
      · next b d hbreak =>
        refine .of_reaches ?_ (hspaces.trans (Cursor.reaches_lineBreak? hbreak))
        exact (scans_quotedBreaks fuel d).bind fun r => (ih r.2).bind fun r' => .ok (.refl r'.2)
      · exact hmore (fun more => (c.span isSpace).1 ++ more) hspaces
    split
    · exact .ok c.reaches_next
    split
    · next hescape =>
      obtain ⟨-, rfl⟩ : double = true ∧ ch = '\\' := by simpa using hescape
      have hbackslash : '\\' :: c.next.rest = c.rest := by rw [Cursor.rest_next, hrest, List.tail_cons]
      have hread := yields_escape fuel c.next
      rw [hbackslash] at hread
      exact Yields.bind hread fun r hr => hmore (fun more => r.1 ++ more) (c.reaches_next.trans hr)
    split
    · split
      · exact hmore (fun more => ch :: more) (c.reaches_skip 2)
      · exact .ok c.reaches_next
    · exact hmore (fun more => ch :: more) c.reaches_next

theorem reaches_plainBreaks (fuel : Nat) (c : Cursor) : c.Reaches (plainBreaks fuel c).2 := by
  induction fuel generalizing c with
  | zero => exact .refl c
  | succ fuel ih =>
    rw [plainBreaks]
    split
    · exact c.reaches_next.trans (ih _)
    split
    · exact .refl c
    · next b c' hbreak =>
      have hc := Cursor.reaches_lineBreak? hbreak
      split
      · exact hc
      · exact hc.trans (ih c')

theorem reaches_plainGap (fuel : Nat) (c : Cursor) : c.Reaches (plainGap fuel c).after := by
  have hspaces : c.Reaches (c.span (· == ' ')).2 := c.reaches_span _
  unfold plainGap
  simp only
  split
  · exact hspaces
  · next b c' hbreak =>
    have hc := hspaces.trans (Cursor.reaches_lineBreak? hbreak)
    split
    · exact hc
    · exact hc.trans (reaches_plainBreaks fuel c')

theorem reaches_plain (inFlow : Bool) (indent : Int) (fuel : Nat) (gap : List Char) (crossed : Bool) (c : Cursor) :
    c.Reaches (plain inFlow indent fuel gap crossed c).2.1 := by
  induction fuel generalizing gap crossed c with
  | zero => exact .refl c
  | succ fuel ih =>
    have hgap : c.Reaches (plainGap fuel (c.skip (plainRun inFlow c.rest).length)).after :=
      (c.reaches_skip _).trans (reaches_plainGap fuel _)
    rw [plain]
    simp only
    split
    · exact .refl c
    split
    · split
      · exact hgap
      · exact hgap.trans (ih _ _ _)
    · exact hgap

/-! ### Block scalars -/

theorem scans_blockMarks (c : Cursor) : Scans c (fun r => r.2.2) (blockMarks c) := by
  unfold blockMarks
  split
  next chomping c₁ hfirst =>
  have hc₁ : c.Reaches c₁ := by
    split at hfirst <;> cases hfirst
    · exact c.reaches_next
    · exact .refl c
  split
  next increment c₂ hsecond =>
  have hc₂ : c.Reaches c₂ := by
    split at hsecond <;> cases hsecond
    · exact hc₁.trans c₁.reaches_next
    · exact hc₁
  split
  next chomping c₃ hthird =>
  have hc₃ : c.Reaches c₃ := by
    split at hthird <;> cases hthird
    · exact hc₂.trans c₂.reaches_next
    · exact hc₂
  extract_lets marks rest
  split
  · exact .malformed
  · simp only [rest, marks]
    split
    · exact .malformed
    · exact .ok hc₃

theorem scans_endOfLine (c : Cursor) : Scans c id (endOfLine c) := by
  unfold endOfLine
  simp only
  split
  · exact .ok c.reaches_comment
  · next hbreak => exact .ok (c.reaches_comment.trans (Cursor.reaches_lineBreak? hbreak))
  · exact .malformed

theorem reaches_blockLead (fuel widest : Nat) (c : Cursor) : c.Reaches (blockLead fuel widest c).2.2 := by
  induction fuel generalizing widest c with
  | zero => exact .refl c
  | succ fuel ih =>
    rw [blockLead]
    split
    · exact c.reaches_next.trans (ih _ _)
    split
    · exact .refl c
    · next hbreak => exact (Cursor.reaches_lineBreak? hbreak).trans (ih _ _)

theorem reaches_blockBreaks (indent fuel : Nat) (c : Cursor) : c.Reaches (blockBreaks indent fuel c).2 := by
  induction fuel generalizing c with
  | zero => exact .refl c
  | succ fuel ih =>
    have hindent : c.Reaches (skipIndent indent c) := c.reaches_skip _
    rw [blockBreaks]
    simp only
    split
    · exact hindent
    · next hbreak => exact (hindent.trans (Cursor.reaches_lineBreak? hbreak)).trans (ih _)

theorem reaches_blockLines (folding : Bool) (chomping : Chomping) (indent fuel : Nat) (breaks : List Char)
    (c : Cursor) : c.Reaches (blockLines folding chomping indent fuel breaks c).2 := by
  induction fuel generalizing breaks c with
  | zero => exact .refl c
  | succ fuel ih =>
    have hline : c.Reaches (c.span fun ch => !isBreak ch).2 := c.reaches_span _
    rw [blockLines]
    split
    next line c₁ hspan =>
    rw [hspan] at hline
    split
    next b c₂ hbreak =>
    have hc₂ : c.Reaches c₂ := by
      split at hbreak <;> cases hbreak
      · next hbreak => exact hline.trans (Cursor.reaches_lineBreak? hbreak)
      · exact hline
    have hbreaks := hc₂.trans (reaches_blockBreaks indent fuel c₂)
    simp only
    split
    · exact hbreaks.trans (ih _ _)
    · exact hbreaks

theorem scans_block (folding : Bool) (parent : Int) (fuel : Nat) (c : Cursor) :
    Scans c Prod.snd (block folding parent fuel c) := by
  unfold block
  refine (scans_blockMarks c).bind fun r => ?_
  obtain ⟨chomping, increment, c₁⟩ := r
  refine (scans_endOfLine c₁).bind fun c₂ => ?_
  extract_lets least
  split
  next indent breaks c₃ hlead =>
  have hc₃ : c₂.Reaches c₃ := by
    split at hlead <;> cases hlead
    · exact reaches_blockBreaks _ fuel c₂
    · exact reaches_blockLead fuel 0 c₂
  split
  · exact .ok (hc₃.trans (reaches_blockLines folding chomping indent fuel breaks c₃))
  · exact .ok hc₃

end Scalar

/-! ## Names and directives -/

theorem scans_anchorName (c : Cursor) : Scans c Prod.snd (anchorName c) := by
  have hname := c.reaches_span isNameChar
  unfold anchorName
  simp only
  split
  · exact .malformed
  split
  · exact .ok hname
  · exact .malformed

theorem scans_uriOctets (fuel : Nat) (c : Cursor) : Scans c Prod.snd (uriOctets fuel c) := by
  induction fuel generalizing c with
  | zero => exact .ok (.refl c)
  | succ fuel ih =>
    rw [uriOctets]
    split
    · split
      · split
        · exact .of_reaches (.map (ih _) fun _ => rfl) (c.reaches_skip 3)
        · exact .malformed
      · exact .malformed
    · exact .malformed
    · exact .ok (.refl c)

theorem scans_uriChars (fuel : Nat) (c : Cursor) : Scans c Prod.snd (uriChars fuel c) := by
  induction fuel generalizing c with
  | zero => exact .ok (.refl c)
  | succ fuel ih =>
    rw [uriChars]
    split
    · refine (scans_uriOctets _ c).bind fun r => ?_
      obtain ⟨octets, c'⟩ := r
      simp only
      split
      · exact (ih c').bind fun r => .ok (.refl r.2)
      · exact .malformed
    · split
      · exact .of_reaches (.map (ih _) fun _ => rfl) c.reaches_next
      · exact .ok (.refl c)
    · exact .ok (.refl c)

theorem scans_uri (fuel : Nat) (c : Cursor) : Scans c Prod.snd (uri fuel c) := by
  unfold uri
  extract_lets chars
  split
  · exact .malformed
  · exact (scans_uriChars fuel c).bind fun r => .ok (.refl r.2)

theorem scans_tagHandle (c : Cursor) : Scans c Prod.snd (tagHandle c) := by
  unfold tagHandle
  split
  · exact .ok c.reaches_next
  · simp only
    split
    · exact .ok ((c.reaches_next.trans (c.next.reaches_span _)).trans (Cursor.reaches_next _))
    · exact .malformed
  · exact .malformed

theorem scans_tagName (fuel : Nat) (c : Cursor) : Scans c Prod.snd (tagName fuel c) := by
  unfold tagName
  extract_lets name word handled
  have hname : ∀ r : TagName × Cursor, Scans r.2 Prod.snd (name r) := by
    rintro ⟨written, c'⟩
    simp only [name]
    split
    · exact .ok (.refl c')
    · exact .malformed
  split
  · refine .of_reaches ((scans_uri fuel _).bind fun r => ?_) (c.reaches_skip 2)
    obtain ⟨start, c'⟩ := r
    simp only
    split
    · exact (hname (_, c'.next)).of_reaches c'.reaches_next
    · exact .malformed
  split
  · exact (hname (_, c.next)).of_reaches c.reaches_next
  have hhandled : ∀ r : String × Cursor, Scans r.2 Prod.snd (handled r) := fun r =>
    (scans_uri fuel r.2).bind fun r' => hname (_, r'.2)
  split
  · exact (scans_tagHandle c).bind hhandled
  · exact (hhandled (_, c.next)).of_reaches c.reaches_next

/-- A row of digits that is too long to be read as a number. -/
def LongNumber (cs : List Char) (f : Unmade) : Prop :=
  ∃ digits, digits <:+: cs ∧ (∀ c ∈ digits, c.isDigit = true) ∧ digits.length > NumberFault.digitLimit ∧
    f = .number (.tooManyDigits digits.length)

theorem yields_directiveNumber (c : Cursor) :
    Yields (directiveNumber c) (fun r => c.Reaches r.2) (LongNumber c.rest) := by
  unfold directiveNumber
  split
  next digits c' hspan =>
  obtain ⟨hdigits, hc'⟩ := Prod.mk.inj hspan
  have hall : ∀ d ∈ digits, d.isDigit = true := by
    intro d hd
    have := List.mem_takeWhile_imp (hdigits ▸ hd)
    simpa [Char.isDigit, Char.le_def] using this
  split
  · exact .malformed
  next hne =>
  -- a row of digits is no number only if it is too long
  rw [Number.whole?_of_isDigit (by simpa using hne) hall]
  by_cases hlong : digits.length > NumberFault.digitLimit
  · rw [if_pos hlong]
    exact .unmade ⟨digits, hdigits ▸ (List.takeWhile_prefix _).isInfix, hall, hlong, rfl⟩
  · rw [if_neg hlong]
    exact .ok ⟨_, hc'.symm⟩

theorem scans_directive (fuel : Nat) (c : Cursor) : Scans c Prod.snd (directive fuel c) := by
  unfold directive
  split
  next name c₁ hspan =>
  obtain ⟨hname, hc₁⟩ := Prod.mk.inj hspan
  replace hc₁ : c.Reaches c₁ := ⟨_, hc₁.symm⟩
  have hspaces : ∀ d : Cursor, d.Reaches d.skipSpaces := Cursor.reaches_skipWhile _
  refine .guarded ?_
  split
  · next hyaml =>
    rw [beq_iff_eq] at hyaml
    have hpart : "YAML".toList <:+: c.rest := by
      refine .trans ?_ (List.takeWhile_prefix isNameChar).isInfix
      rw [hname, hyaml]
      exact List.infix_rfl
    have hlong : ∀ d : Cursor, c.Reaches d → ∀ f, LongNumber d.rest f → Unscannable c.rest f := by
      rintro d hd f ⟨digits, hdigits, hall, hlong, rfl⟩
      exact .version hpart (hdigits.trans hd.suffix.isInfix) hall hlong
    have hmajor := hc₁.trans (hspaces c₁)
    refine Yields.bind ((yields_directiveNumber _).imp (fun _ => hmajor.trans) (hlong _ hmajor)) fun r hr => ?_
    obtain ⟨major, c₂⟩ := r
    refine Scans.guarded ?_
    have hminor : c.Reaches c₂.next := hr.trans c₂.reaches_next
    refine Yields.bind ((yields_directiveNumber _).imp (fun _ => hminor.trans) (hlong _ hminor)) fun r hr => ?_
    obtain ⟨minor, c₃⟩ := r
    refine Scans.guarded ?_
    exact Scans.of_reaches ((Scalar.scans_endOfLine c₃).bind fun c₄ => .ok (.refl c₄)) hr
  split
  · refine .of_reaches ((scans_tagHandle _).bind fun r => ?_) (hc₁.trans (hspaces c₁))
    obtain ⟨handle, c₂⟩ := r
    refine .guarded (.of_reaches ((scans_uri fuel _).bind fun r => ?_) (hspaces c₂))
    obtain ⟨start, c₃⟩ := r
    refine .guarded ?_
    exact (Scalar.scans_endOfLine c₃).bind fun c₄ => .ok (.refl c₄)
  · have hline : c₁.Reaches c₁.skipLine := c₁.reaches_skipWhile _
    exact .of_reaches ((Scalar.scans_endOfLine c₁.skipLine).bind fun c₂ => .ok (.refl c₂)) (hc₁.trans hline)

/-! ## The lexer -/

/-- A mark that begins a collection or an item of one. -/
def opens (ch : Char) : Bool := ch == '[' || ch == '{' || ch == '-' || ch == '?' || ch == ':'

/-- A token behind which a collection or an item of one begins. -/
def Token.opens : Token → Bool
  | flowSequence | flowMapping | blockEntry | key => true
  | _ => false

namespace Lexer

variable {l l' : Lexer}

/-- How many collections and items may still begin: by the tokens that wait, and by the marks ahead. -/
def openings (l : Lexer) : Nat :=
  l.ready.countP Token.opens + l.recent.countP Token.opens + l.cursor.rest.countP opens

@[simp] theorem openings_push (l : Lexer) (t : Token) :
    (l.push t).openings = l.openings + if t.opens then 1 else 0 := by
  simp only [openings, push, List.countP_cons]
  omega

theorem cursor_insertAt (l : Lexer) (n : Nat) (ts : List Token) : (l.insertAt n ts).cursor = l.cursor := by
  unfold insertAt
  simp only
  split <;> rfl

@[simp] theorem openings_insertAt (l : Lexer) (n : Nat) (ts : List Token) :
    (l.insertAt n ts).openings = l.openings + ts.countP Token.opens := by
  have hready := congrArg (List.countP Token.opens) (List.take_append_drop (n - l.taken) l.ready)
  have hrecent := congrArg (List.countP Token.opens) (List.take_append_drop (l.count - n) l.recent)
  rw [List.countP_append] at hready hrecent
  unfold insertAt
  simp only
  split
  · simp only [openings, List.countP_append]
    omega
  · simp only [openings, List.countP_append, List.countP_reverse]
    omega

theorem openings_moveTo_le {c : Cursor} (hc : l.cursor.Reaches c) : (l.moveTo c).openings ≤ l.openings :=
  Nat.add_le_add_left (hc.suffix.sublist.countP_le) _

/-- A mark is taken off the text when its token is put behind the others. -/
theorem openings_mark {ch : Char} (hch : l.cursor.peek = some ch) (t : Token) :
    (l.mark t).openings + (if opens ch then 1 else 0) = l.openings + if t.opens then 1 else 0 := by
  obtain ⟨x, hx⟩ : ∃ x, l.cursor.rest = ch :: x := List.head?_eq_some_iff.mp hch
  simp only [mark, moveTo, push, openings, Cursor.rest_next, hx, List.tail_cons, List.countP_cons]
  omega

/-- The token ahead is the one to be taken. -/
theorem openings_next {t : Token} {ts : List Token} (hready : l.ready = t :: ts) :
    l.next.openings + (if t.opens then 1 else 0) = l.openings := by
  simp only [next, openings, hready, List.drop_succ_cons, List.drop_zero, List.countP_cons]
  omega

/-- The text ahead is the same, and no more collections or items may begin. -/
structure Stays (l l' : Lexer) : Prop where
  cursor : l'.cursor = l.cursor
  openings_le : l'.openings ≤ l.openings

/-- The cursor moved on, and no more collections or items may begin. -/
structure Advances (l l' : Lexer) : Prop where
  reaches : l.cursor.Reaches l'.cursor
  openings_le : l'.openings ≤ l.openings

theorem Stays.trans {l'' : Lexer} (h : Stays l l') (h' : Stays l' l'') : Stays l l'' :=
  ⟨h'.cursor.trans h.cursor, h'.openings_le.trans h.openings_le⟩

theorem Stays.advances (h : Stays l l') : Advances l l' := ⟨h.cursor ▸ .refl _, h.openings_le⟩

theorem Advances.refl (l : Lexer) : Advances l l := ⟨.refl _, le_rfl⟩

theorem Advances.trans {l'' : Lexer} (h : Advances l l') (h' : Advances l' l'') : Advances l l'' :=
  ⟨h.reaches.trans h'.reaches, h'.openings_le.trans h.openings_le⟩

theorem Advances.moveTo {c : Cursor} (hc : l.cursor.Reaches c) : Advances l (l.moveTo c) :=
  ⟨hc, openings_moveTo_le hc⟩

/-- A token other than those that begin something is made of the text up to a place. -/
theorem Advances.push {m : Lexer} {t : Token} (ht : t.opens = false) {c : Cursor} (hc : l.cursor.Reaches c)
    (hm : Stays l m := by exact ⟨rfl, le_rfl⟩) : Advances l ((m.push t).moveTo c) := by
  refine ⟨hc, (openings_moveTo_le (l := m.push t) (hm.cursor.symm ▸ hc)).trans ?_⟩
  rw [openings_push, ht]
  exact hm.openings_le

/-- A mark that begins something may become a token that does. -/
theorem Advances.mark {m : Lexer} {ch : Char} (hch : l.cursor.peek = some ch) {t : Token}
    (ht : t.opens = true → opens ch = true) (hm : Stays l m := by exact ⟨rfl, le_rfl⟩) : Advances l (m.mark t) := by
  have hcount := openings_mark (l := m) (hm.cursor ▸ hch) t
  refine ⟨hm.cursor ▸ m.cursor.reaches_next, le_trans ?_ hm.openings_le⟩
  cases htoken : t.opens with
  | false =>
    rw [htoken] at hcount
    exact le_of_le_of_eq (Nat.le_add_right _ _) hcount
  | true =>
    rw [htoken, ht htoken] at hcount
    exact (Nat.add_right_cancel hcount).le

/-- A stage of the lexer: it stays or advances, or cannot get past something ahead. -/
def Lexes (l : Lexer) (x : Except Fault Lexer) : Prop := Yields x l.Advances (Unscannable l.cursor.rest)

namespace Lexes

variable {x : Except Fault Lexer}

theorem of_advances (hx : Lexes l' x) (h : Advances l l') : Lexes l x :=
  Yields.imp hx (fun _ => h.trans) fun _ hf => hf.of_part h.reaches.suffix.isInfix

theorem bind {f : Lexer → Except Fault Lexer} (hx : Lexes l x) (hf : ∀ l', Lexes l' (f l')) :
    Lexes l (x >>= f) :=
  Yields.bind hx fun l' h => (hf l').of_advances h

theorem ite {p : Prop} [Decidable p] {y : Except Fault Lexer} (hx : p → Lexes l x) (hy : Lexes l y) :
    Lexes l (if p then x else y) := by
  split
  · next h => exact hx h
  · exact hy

/-- What comes before stays where it is and has faults of form only. -/
theorem of_stays {f : Lexer → Except Fault Lexer} (hx : ∀ Cause, Yields x l.Stays Cause)
    (hf : ∀ l', Stays l l' → Lexes l' (f l')) : Lexes l (x >>= f) :=
  Yields.bind (hx _) fun l' h => (hf l' h).of_advances h.advances

end Lexes

/-! ### Pending keys and indentation -/

section Stays

variable {Cause : Unmade → Prop}

theorem stays_dropKey (l : Lexer) : Yields l.dropKey l.Stays Cause := by
  unfold dropKey
  split
  · split
    · exact .malformed
    · exact .ok ⟨rfl, le_rfl⟩
  · exact .ok ⟨rfl, le_rfl⟩

theorem stays_saveKey (l : Lexer) : Yields l.saveKey l.Stays Cause := by
  unfold saveKey
  split
  · exact (stays_dropKey l).bind fun l' h => .ok ⟨h.cursor, h.openings_le⟩
  · exact .ok ⟨rfl, le_rfl⟩

theorem stays_dropStaleKeys (l : Lexer) : Yields l.dropStaleKeys l.Stays Cause := by
  unfold dropStaleKeys
  simp only
  split
  · exact .malformed
  · exact .ok ⟨rfl, le_rfl⟩

theorem stays_closeBlocks (column : Int) (indents : List Int) (l : Lexer) :
    l.Stays (closeBlocks column indents l) := by
  induction indents generalizing l with
  | nil => exact ⟨rfl, le_rfl⟩
  | cons outer rest ih =>
    rw [closeBlocks]
    split
    · have hpush : l.Stays ({ l with indent := outer, indents := rest }.push .blockEnd) := by
        refine ⟨rfl, ?_⟩
        rw [openings_push]
        exact le_rfl
      exact hpush.trans (ih _)
    · exact ⟨rfl, le_rfl⟩

theorem stays_unwind (l : Lexer) (column : Int) : l.Stays (l.unwind column) := by
  unfold unwind
  split
  · exact ⟨rfl, le_rfl⟩
  · exact stays_closeBlocks column l.indents l

theorem stays_outermost (l : Lexer) : Yields l.outermost l.Stays Cause := by
  refine (stays_dropKey (l.unwind (-1))).bind fun l' h => .ok ?_
  exact (stays_unwind l (-1)).trans ⟨h.cursor, h.openings_le⟩

/-- A block collection is not counted itself: its items and keys are. -/
theorem stays_beginBlock (l : Lexer) {collection : Token} (hcollection : collection.opens = false) :
    Yields (l.beginBlock collection) l.Stays Cause := by
  unfold beginBlock
  split
  · exact .ok ⟨rfl, le_rfl⟩
  split
  · exact .malformed
  split
  · next m hindent =>
    unfold indentTo at hindent
    split at hindent
    · cases hindent
      refine .ok ⟨rfl, ?_⟩
      rw [openings_push, hcollection]
      exact le_rfl
    · cases hindent
  · exact .ok ⟨rfl, le_rfl⟩

end Stays

theorem advances_skipToToken (fuel : Nat) (l : Lexer) : l.Advances (skipToToken fuel l) := by
  induction fuel generalizing l with
  | zero => exact .refl l
  | succ fuel ih =>
    have hblanks := l.cursor.reaches_comment
    rw [skipToToken]
    split
    · next b c hbreak =>
      have hc := hblanks.trans (Cursor.reaches_lineBreak? hbreak)
      have hmove : l.Advances { l with cursor := c, keyAllowed := l.keyAllowed || !l.inFlow } :=
        ⟨hc, openings_moveTo_le hc⟩
      exact hmove.trans (ih _)
    · exact .moveTo hblanks

/-! ### Tokens -/

section Tokens

variable {ch : Char}

theorem lexes_openFlow (hch : l.cursor.peek = some ch) (hopens : opens ch = true) (t : Token) :
    Lexes l (l.openFlow t) :=
  .of_stays (fun _ => stays_saveKey l) fun _ h => .ok (.mark (h.cursor ▸ hch) fun _ => hopens)

theorem lexes_closeFlow (hch : l.cursor.peek = some ch) {t : Token} (ht : t.opens = false) :
    Lexes l (l.closeFlow t) := by
  refine .of_stays (fun _ => stays_dropKey l) fun l' h => ?_
  extract_lets rest
  split
  · exact .malformed
  · exact .ok (.mark (h.cursor ▸ hch) fun hopens => absurd (ht.symm.trans hopens) Bool.false_ne_true)

theorem lexes_flowEntry (hch : l.cursor.peek = some ch) : Lexes l l.flowEntry :=
  .of_stays (fun _ => stays_dropKey l) fun _ h =>
    .ok (.mark (h.cursor ▸ hch) fun hopens => absurd hopens Bool.false_ne_true)

/-- What a mark outside of flow collections does: it may begin a block, and ends the pending key. -/
theorem lexes_blockMark (hch : l.cursor.peek = some ch) (hopens : opens ch = true) {collection : Token}
    (hcollection : collection.opens = false) (allowed : Lexer → Bool) (t : Token) :
    Lexes l (do
      let l ← l.beginBlock collection
      let l ← { l with keyAllowed := allowed l }.dropKey
      return l.mark t) := by
  refine .of_stays (fun _ => stays_beginBlock l hcollection) fun l' h => ?_
  have hsame : l'.Stays { l' with keyAllowed := allowed l' } := ⟨rfl, le_rfl⟩
  refine .of_stays (fun _ => (stays_dropKey _).imp (fun _ => hsame.trans) fun _ => id) fun _ h' => ?_
  exact .ok (.mark (h'.cursor ▸ h.cursor ▸ hch) fun _ => hopens)

theorem lexes_valueMark (hch : l.cursor.peek = some ':') : Lexes l l.valueMark := by
  unfold valueMark
  split
  · next k rest hkeys =>
    -- the key that is put before the others is paid for by the colon
    extract_lets l' l''
    have hinserted : l''.cursor = l.cursor ∧ l''.openings = l.openings + 1 := by
      simp only [l'']
      split
      · next m hindent =>
        split at hindent
        · cases hindent
        · unfold indentTo at hindent
          split at hindent
          · cases hindent
            exact ⟨cursor_insertAt _ _ _, openings_insertAt _ _ _⟩
          · cases hindent
      · exact ⟨cursor_insertAt _ _ _, openings_insertAt _ _ _⟩
    have hcount := openings_mark (l := l'') (hinserted.1 ▸ hch) .value
    refine .ok ⟨?_, ?_⟩
    · exact hinserted.1 ▸ l''.cursor.reaches_next
    · have hopens : opens ':' = true := rfl
      rw [hopens, hinserted.2] at hcount
      exact (Nat.add_right_cancel hcount).le
  · exact lexes_blockMark hch rfl rfl (fun l => !l.inFlow) .value

theorem lexes_keyLike {scan : Cursor → Except Fault (Token × Cursor)}
    (hscan : ∀ c, Yields (scan c) (fun r => r.1.opens = false ∧ c.Reaches r.2) (Unscannable c.rest)) :
    Lexes l (l.keyLike scan) := by
  refine .of_stays (fun _ => stays_saveKey l) fun l' _ => ?_
  refine Yields.bind (hscan l'.cursor) fun r hr => .ok ?_
  exact .push hr.1 hr.2

theorem lexes_quotedScalar (fuel : Nat) (double : Bool) (l : Lexer) : Lexes l (l.quotedScalar fuel double) :=
  lexes_keyLike fun c => Yields.bind ((Scalar.scans_quoted double fuel c.next).of_reaches c.reaches_next) fun _ hr =>
    .ok ⟨rfl, hr⟩

theorem lexes_plainScalar (fuel : Nat) (l : Lexer) : Lexes l (l.plainScalar fuel) :=
  .of_stays (fun _ => stays_saveKey l) fun _ _ => .ok (.push rfl (Scalar.reaches_plain _ _ fuel _ _ _))

theorem lexes_blockScalar (fuel : Nat) (folding : Bool) (l : Lexer) : Lexes l (l.blockScalar fuel folding) := by
  have hsame : l.Stays { l with keyAllowed := true } := ⟨rfl, le_rfl⟩
  refine .of_stays (fun _ => (stays_dropKey _).imp (fun _ => hsame.trans) fun _ => id) fun l' _ => ?_
  have hscan := (Scalar.scans_block folding l'.indent fuel l'.cursor.next).of_reaches l'.cursor.reaches_next
  exact Yields.bind hscan fun _ hr => .ok (.push rfl hr)

theorem lexes_token (fuel : Nat) (l : Lexer) : Lexes l (l.token fuel) := by
  -- a divider ends all blocks; a mark that begins something is what the token is paid with
  have hdivider : ∀ t : Token, t.opens = false →
      Lexes l (l.outermost >>= fun l' => .ok ((l'.push t).moveTo (l.cursor.skip 3))) := fun t ht =>
    .of_stays (fun _ => stays_outermost l) fun l' h => .ok (.push ht (h.cursor ▸ l.cursor.reaches_skip 3))
  have hname : ∀ {scan : Cursor → Except Fault (String × Cursor)} {make : String → Token},
      (∀ n, (make n).opens = false) → (∀ c, Scans c Prod.snd (scan c)) →
      Lexes l (l.keyLike fun c => (scan c.next).map fun r => (make r.1, r.2)) := fun hmake hscan =>
    lexes_keyLike fun c => .map ((hscan c.next).of_reaches c.reaches_next) fun r hr => ⟨hmake r.1, hr⟩
  unfold token
  extract_lets c bare
  cases hch : l.cursor.peek with
  | none =>
    refine .of_stays (fun _ => stays_outermost l) fun l' _ => .ok ⟨.refl _, ?_⟩
    exact (openings_push l' .streamEnd).le
  | some ch =>
    have hopens : ∀ {mark : Char}, (ch == mark) = true → opens mark = true → opens ch = true := fun hmark h =>
      beq_iff_eq.mp hmark ▸ h
    refine .ite (fun _ => .of_stays (fun _ => stays_outermost l) fun l' _ => ?_) ?_
    · have hscan := (scans_directive fuel l'.cursor.next).of_reaches l'.cursor.reaches_next
      exact Yields.bind hscan fun _ hr => .ok (.push rfl hr)
    refine .ite (fun _ => hdivider .documentStart rfl) ?_
    refine .ite (fun _ => hdivider .documentEnd rfl) ?_
    refine .ite (fun hmark => lexes_openFlow hch (hopens hmark rfl) _) ?_
    refine .ite (fun hmark => lexes_openFlow hch (hopens hmark rfl) _) ?_
    refine .ite (fun _ => lexes_closeFlow hch rfl) ?_
    refine .ite (fun _ => lexes_closeFlow hch rfl) ?_
    refine .ite (fun _ => lexes_flowEntry hch) ?_
    refine .ite (fun hmark => ?_) ?_
    · exact lexes_blockMark hch (hopens (Bool.and_eq_true_iff.mp hmark).1 rfl) rfl (fun _ => true) _
    refine .ite (fun hmark => ?_) ?_
    · exact lexes_blockMark hch (hopens (Bool.and_eq_true_iff.mp hmark).1 rfl) rfl (fun l => !l.inFlow) _
    refine .ite (fun hmark => ?_) ?_
    · have hcolon : ch = ':' := beq_iff_eq.mp (Bool.and_eq_true_iff.mp hmark).1
      exact lexes_valueMark (hcolon ▸ hch)
    refine .ite (fun _ => hname (fun _ => rfl) scans_anchorName) ?_
    refine .ite (fun _ => hname (fun _ => rfl) scans_anchorName) ?_
    refine .ite (fun _ => lexes_keyLike fun c => .map (scans_tagName fuel c) fun r hr => ⟨rfl, hr⟩) ?_
    refine .ite (fun _ => lexes_blockScalar fuel false l) ?_
    refine .ite (fun _ => lexes_blockScalar fuel true l) ?_
    refine .ite (fun _ => lexes_quotedScalar fuel false l) ?_
    refine .ite (fun _ => lexes_quotedScalar fuel true l) ?_
    exact .ite (fun _ => lexes_plainScalar fuel l) .malformed

end Tokens

/-- A step of the lexer makes tokens that begin something of marks that do only. -/
theorem lexes_step (l : Lexer) : Lexes l l.step := by
  have hskip := advances_skipToToken l.size l
  refine .of_advances (.of_stays (fun _ => stays_dropStaleKeys _) fun l' _ => ?_) hskip
  exact (lexes_token _ _).of_advances (stays_unwind l' _).advances

theorem lexes_fill (fuel : Nat) (l : Lexer) : Lexes l (fill fuel l) := by
  induction fuel generalizing l with
  | zero => exact .ok (.refl l)
  | succ fuel ih =>
    rw [fill]
    split
    · exact .ok (.refl l)
    split
    · exact (lexes_step l).bind ih
    · refine .of_stays (fun _ => stays_dropStaleKeys l) fun l' _ => ?_
      split
      · exact (lexes_step l').bind ih
      · exact .ok (.refl l')

/-- The token ahead is the first of those that wait. -/
theorem lexes_ahead (l : Lexer) :
    Yields l.ahead (fun r => l.Advances r.2 ∧ ∃ ts, r.2.ready = r.1 :: ts) (Unscannable l.cursor.rest) := by
  unfold ahead
  refine Yields.bind (lexes_fill _ l) fun l' h => ?_
  split
  · next t ts hready => exact .ok ⟨h, ts, hready⟩
  · next hready =>
    split
    · next t ts hrecent =>
      refine .ok ⟨h.trans ⟨.refl _, ?_⟩, ts, rfl⟩
      have hcount := congrArg (List.countP Token.opens) hrecent
      rw [List.countP_reverse] at hcount
      simp only [openings, hready, hcount]
      simp
    · exact .malformed

end Lexer

end CommentStyle.Yaml
