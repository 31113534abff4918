import CommentStyle.Proofs.Yaml.Cursor
import CommentStyle.Yaml.Writer

/-!
# Plain texts read back

A plain text is written as it stands, save that a single blank far to the right becomes a line break and a
margin. Reading takes it run by run: an unbroken run of characters, then the gap up to the next one. So the
proof goes by runs.

* **`Plainly`** — what a text that is written plainly is like; what follows a gap is like it again.
* **`plain_run_append`**, **`plain_blanks`** — the writer, by runs and gaps.
* **`plainRun_append`**, **`plainGap_blanks`**, **`plainGap_line`** — the reader, by runs and gaps.
* **`plain_write`** — the two together, by induction on the fuel of the reader.
* **`plain_key`** — a word before a colon.
-/

namespace CommentStyle.Yaml

/-! ## Characters -/

/-- What the writer takes neither for a break nor for special is a blank or no white at all. -/
theorem isWhite_eq_false {c : Char} (hbreak : Writer.isBreak c = false) (hspecial : Writer.isSpecial c = false)
    (hblank : c ≠ ' ') : isWhite c = false := by
  have htab : c ≠ '\t' := by rintro rfl; exact absurd hspecial (by decide)
  have hreturn : c ≠ '\r' := by rintro rfl; exact absurd hspecial (by decide)
  simp only [Writer.isBreak, Bool.or_eq_false_iff, beq_eq_false_iff_ne, ne_eq] at hbreak
  simp [isWhite, isBreak, hbreak, hblank, htab, hreturn]

theorem isInline_of_writer {c : Char} (hbreak : Writer.isBreak c = false)
    (hspecial : Writer.isSpecial c = false) : Cursor.isInline c = true := by
  have hmark : c ≠ '\uFEFF' := by rintro rfl; exact absurd hspecial (by decide)
  have hreturn : c ≠ '\r' := by rintro rfl; exact absurd hspecial (by decide)
  simp only [Writer.isBreak, Bool.or_eq_false_iff, beq_eq_false_iff_ne, ne_eq] at hbreak
  simp [Cursor.isInline, isBreak, hbreak, hmark, hreturn]

/-! ## Texts that are written plainly -/

/-- A text that stands for itself behind white space: it begins and ends with a character that is seen, and
nothing in it would end it early. -/
structure Plainly (t : List Char) : Prop where
  begins : ∃ c rest, t = c :: rest ∧ c ≠ ' ' ∧ c ≠ '#'
  ends : t.getLast? ≠ some ' '
  chars : ∀ c ∈ t, Writer.isBreak c = false ∧ Writer.isSpecial c = false
  /-- No colon stands before white or the end, and no number sign behind white. -/
  body : Writer.plainBody ' ' t = true

theorem plainly_of_isPlain {t : List Char} (h : Writer.isPlain t = true) : Plainly t := by
  simp only [Writer.isPlain, Bool.and_eq_true, Bool.not_eq_true', bne_iff_ne] at h
  obtain ⟨⟨⟨⟨⟨⟨hhead, -⟩, hchars⟩, hfirst⟩, hlast⟩, -⟩, -⟩ := h
  cases t with
  | nil => exact absurd hhead (by decide)
  | cons c rest =>
    have hfirst : c ≠ ' ' := by simpa using hfirst
    simp only [Writer.plainHead, Bool.and_eq_true, Bool.not_eq_true'] at hhead
    obtain ⟨⟨hmarks, hindicator⟩, hbody⟩ := hhead
    have hsharp : c ≠ '#' := by
      rintro rfl
      exact absurd hmarks (by decide)
    refine ⟨⟨c, rest, rfl, hfirst, hsharp⟩, hlast, fun d hd => ?_, ?_⟩
    · have hd := List.any_eq_false.mp hchars d hd
      simpa using hd
    · have hcolon : (c == ':' && Writer.whiteOrEnd rest.head?) = false := by
        by_cases hc : c = ':'
        · simpa [hc] using hindicator
        · simp [hc]
      simp [Writer.plainBody, hcolon, hsharp, hbody]

/-- What follows a blank is read as if nothing stood before the blank. -/
theorem plainBody_append {before : Char} {xs ys : List Char}
    (h : Writer.plainBody before (xs ++ ' ' :: ys) = true) : Writer.plainBody ' ' ys = true := by
  induction xs generalizing before with
  | nil =>
    simp only [List.nil_append, Writer.plainBody, Bool.and_eq_true] at h
    exact h.2
  | cons x xs ih =>
    simp only [List.cons_append, Writer.plainBody, Bool.and_eq_true] at h
    exact ih h.2

/-- A colon does not stand at the end of a run. -/
theorem getLast?_ne_colon {before : Char} {xs ys : List Char}
    (h : Writer.plainBody before (xs ++ ys) = true) (hys : Writer.whiteOrEnd ys.head? = true) :
    xs.getLast? ≠ some ':' := by
  induction xs generalizing before with
  | nil => simp
  | cons x xs ih =>
    simp only [List.cons_append, Writer.plainBody, Bool.and_eq_true, Bool.not_eq_true'] at h
    cases xs with
    | nil =>
      intro hlast
      have hx : x = ':' := by simpa using hlast
      rw [List.nil_append, hys, hx] at h
      exact absurd h.1.1 (by decide)
    | cons y xs => exact ih h.2

/-- A text that is written plainly is a run, or a run and blanks before another such text. -/
theorem Plainly.exists_run {t : List Char} (ht : Plainly t) :
    ∃ run, run ≠ [] ∧ (∀ c ∈ run, c ≠ ' ') ∧
      (t = run ∨ ∃ k t', t = run ++ (List.replicate (k + 1) ' ' ++ t') ∧ Plainly t') := by
  obtain ⟨run, more, hsplit, hrun, hmore⟩ := exists_span (fun c => !(c == ' ')) t
  have hrun : ∀ c ∈ run, c ≠ ' ' := fun c hc => by simpa using hrun c hc
  have hne : run ≠ [] := by
    rintro rfl
    obtain ⟨c, rest, hcons, hblank, -⟩ := ht.begins
    rw [List.nil_append] at hsplit
    exact hblank (by simpa [← hsplit, hcons] using hmore c (by rw [← hsplit, hcons]; rfl))
  refine ⟨run, hne, hrun, ?_⟩
  cases more with
  | nil => exact .inl (by rw [hsplit, List.append_nil])
  | cons c more =>
    right
    have hc : c = ' ' := by simpa using hmore c rfl
    subst hc
    obtain ⟨blanks, t', rfl, hblanks, ht'⟩ := exists_span (· == ' ') more
    have hreplicate : blanks = List.replicate blanks.length ' ' :=
      List.eq_replicate_iff.mpr ⟨rfl, fun c hc => by simpa using hblanks c hc⟩
    rw [hreplicate] at hsplit
    have hsplit' : t = run ++ (List.replicate (blanks.length + 1) ' ' ++ t') := by
      rw [hsplit, List.replicate_succ, List.cons_append]
    refine ⟨blanks.length, t', hsplit', ?_⟩
    have hbody : Writer.plainBody ' ' t' = true := by
      have h := ht.body
      rw [hsplit', List.replicate_succ', List.append_assoc, ← List.append_assoc, List.singleton_append] at h
      exact plainBody_append h
    have hmem : ∀ d ∈ t', d ∈ t := fun d hd => by rw [hsplit']; simp [hd]
    cases t' with
    | nil =>
      -- the blanks would end the text
      have hlast := ht.ends
      rw [hsplit', List.append_nil, List.replicate_succ', ← List.append_assoc, List.getLast?_concat] at hlast
      exact absurd rfl hlast
    | cons d t' =>
      have hd : d ≠ ' ' := by simpa using ht' d rfl
      have hsharp : d ≠ '#' := by
        rintro rfl
        exact absurd hbody (by simp [Writer.plainBody, Writer.isWhite])
      refine ⟨⟨d, t', rfl, hd, hsharp⟩, fun hlast => ht.ends ?_, fun e he => ht.chars e (hmem e he), hbody⟩
      rw [hsplit', ← List.append_assoc, List.getLast?_append, hlast]
      rfl

/-! ## The writer by runs and gaps -/

theorem plain_run_append {run : List Char} (hrun : ∀ c ∈ run, c ≠ ' ') (hne : run ≠ []) (column : Nat)
    (afterBlank : Bool) (t : List Char) :
    Writer.plain column afterBlank (run ++ t) = run ++ Writer.plain (column + run.length) false t := by
  induction run generalizing column afterBlank with
  | nil => exact absurd rfl hne
  | cons c run ih =>
    have hc : (c == ' ') = false := by simpa using hrun c List.mem_cons_self
    rw [List.cons_append, Writer.plain]
    simp only [hc, Bool.false_and, Bool.false_eq_true, if_false]
    cases run with
    | nil => rfl
    | cons d run =>
      rw [ih (fun e he => hrun e (List.mem_cons_of_mem c he)) (List.cons_ne_nil d run),
        List.length_cons (a := c), Nat.add_assoc, Nat.add_comm 1]
      rfl

/-- A text without blanks is written as it stands. -/
theorem plain_of_not_mem {t : List Char} (ht : ' ' ∉ t) (column : Nat) : Writer.plain column false t = t := by
  cases t with
  | nil => rfl
  | cons c t =>
    have h := plain_run_append (fun d hd hblank => ht (hblank ▸ hd)) (List.cons_ne_nil c t) column false []
    simpa [Writer.plain] using h

/-- Blanks are written as they are, but a single one beyond the width becomes a line break. -/
theorem plain_blanks (column k : Nat) {c : Char} (hc : c ≠ ' ') (t : List Char) :
    ∃ column', Writer.plain column false (List.replicate (k + 1) ' ' ++ c :: t)
        = Writer.newLine ++ Writer.plain column' false (c :: t) ∧ k = 0 ∨
      Writer.plain column false (List.replicate (k + 1) ' ' ++ c :: t)
        = List.replicate (k + 1) ' ' ++ Writer.plain column' false (c :: t) := by
  have hc : (c == ' ') = false := by simpa using hc
  -- behind a blank no other blank is folded
  have hbehind : ∀ k column, Writer.plain column true (List.replicate k ' ' ++ c :: t)
      = List.replicate k ' ' ++ Writer.plain (column + k) false (c :: t) := by
    intro k
    induction k with
    | zero => intro column; simp [Writer.plain, hc]
    | succ k ih =>
      intro column
      rw [List.replicate_succ, List.cons_append, Writer.plain]
      simp [ih, Nat.add_assoc, Nat.add_comm 1]
  rw [List.replicate_succ, List.cons_append, Writer.plain]
  split
  · next hfold =>
    cases k with
    | zero => exact ⟨Writer.margin, .inl ⟨congrArg (Writer.newLine ++ ·) (hbehind 0 Writer.margin), rfl⟩⟩
    | succ k => simp [List.replicate_succ] at hfold
  · exact ⟨_, .inr (by rw [show (' ' == ' ') = true from rfl, hbehind]; rfl)⟩

/-! ## The reader by runs and gaps -/

/-- A run is taken whole, up to what begins no run. -/
theorem plainRun_append {run y : List Char} (hrun : ∀ c ∈ run, isWhite c = false)
    (hcolon : run.getLast? ≠ some ':') (hy : Scalar.plainRun false y = []) :
    Scalar.plainRun false (run ++ y) = run := by
  induction run with
  | nil => exact hy
  | cons c run ih =>
    have hc : isWhite c = false := hrun c List.mem_cons_self
    have hends : Scalar.endsPlain false c (run ++ y).head? = false := by
      cases run with
      | nil =>
        have hne : (c == ':') = false := by simpa using hcolon
        simp [Scalar.endsPlain, hc, hne]
      | cons d run =>
        have hd : isWhite d = false := hrun d (by simp)
        simp [Scalar.endsPlain, hc, whiteOrEnd, hd]
    have hrest : Scalar.plainRun false (run ++ y) = run := by
      refine ih (fun d hd => hrun d (List.mem_cons_of_mem c hd)) ?_
      cases run with
      | nil => simp
      | cons d run => exact hcolon
    rw [List.cons_append, Scalar.plainRun, hends, if_neg Bool.false_ne_true, hrest]

theorem plainBreaks_blanks {c : Cursor} {n fuel : Nat} {x : List Char}
    (hc : c.rest = List.replicate n ' ' ++ x) (hx : BeginsSeen x) (hfuel : n < fuel) :
    Scalar.plainBreaks fuel c = (some [], c.skip n) := by
  induction fuel generalizing c n with
  | zero => omega
  | succ fuel ih =>
    rw [Scalar.plainBreaks]
    cases n with
    | zero =>
      rw [List.replicate_zero, List.nil_append] at hc
      have hpeek : (c.peek == some ' ') = false := by
        rw [Cursor.peek, hc]
        cases x with
        | nil => rfl
        | cons ch x => simpa using hx.ne_blank ch rfl
      rw [hpeek, if_neg Bool.false_ne_true, hx.lineBreak?_eq_none hc]
      rfl
    | succ n =>
      rw [List.replicate_succ, List.cons_append] at hc
      have hpeek : (c.peek == some ' ') = true := by rw [Cursor.peek, hc]; rfl
      rw [hpeek, if_pos rfl, ih (by rw [Cursor.rest_next, hc]; rfl) (by omega)]
      rfl

theorem plainGap_blanks {c : Cursor} {k : Nat} {x : List Char} (fuel : Nat)
    (hc : c.rest = List.replicate (k + 1) ' ' ++ x) (hx : BeginsSeen x) :
    Scalar.plainGap fuel c = ⟨some (List.replicate (k + 1) ' '), c.skip (k + 1), false⟩ := by
  have hafter : (c.skip (k + 1)).rest = x := by rw [skip_blanks hc]
  rw [Scalar.plainGap, span_blanks hc hx.ne_blank]
  simp only [hx.lineBreak?_eq_none hafter]
  rfl

/-- A line break and the indentation after it read as one blank. -/
theorem plainGap_line {c : Cursor} {n fuel : Nat} {x : List Char}
    (hc : c.rest = '\n' :: (List.replicate n ' ' ++ x)) (hx : BeginsSeen x)
    (hdivider : ∀ d : Cursor, d.rest = List.replicate n ' ' ++ x → d.atDivider = false)
    (hfuel : n < fuel) :
    ∃ c', Scalar.plainGap fuel c = ⟨some [' '], c', true⟩ ∧ c'.rest = x ∧ c'.column = n := by
  let d : Cursor := { rest := List.replicate n ' ' ++ x, index := c.index + 1, line := c.line + 1, column := 0 }
  have hbreak : c.lineBreak? = some ('\n', d) := Cursor.lineBreak?_of_isBreak hc (by decide) (by decide)
  have hd : d.skip n = { rest := x, index := d.index + n, line := d.line, column := n } := by
    simpa [d] using skip_blanks (c := d) rfl
  refine ⟨d.skip n, ?_, by rw [hd], by rw [hd]⟩
  rw [Scalar.plainGap, span_blanks (n := 0) hc (by simp)]
  simp only [Cursor.skip, hbreak, hdivider d rfl, plainBreaks_blanks (c := d) rfl hx hfuel]
  rfl

/-! ## Plain texts -/

theorem Plainly.beginsSeen {t : List Char} (ht : Plainly t) : BeginsSeen t := by
  obtain ⟨c, rest, rfl, hblank, -⟩ := ht.begins
  have hchars := ht.chars c List.mem_cons_self
  exact .cons (isWhite_eq_false hchars.1 hchars.2 hblank) rest

/-- A plain text is written so that what comes first stays first. -/
theorem Plainly.exists_write_eq_cons {t : List Char} (ht : Plainly t) (column : Nat) :
    ∃ c rest, Writer.plain column false t = c :: rest ∧ isWhite c = false ∧ c ≠ '#' := by
  obtain ⟨c, rest, rfl, hblank, hsharp⟩ := ht.begins
  have hchars := ht.chars c List.mem_cons_self
  have hc : (c == ' ') = false := by simpa using hblank
  refine ⟨c, Writer.plain (column + 1) (c == ' ') rest, ?_,
    isWhite_eq_false hchars.1 hchars.2 hblank, hsharp⟩
  rw [Writer.plain]
  simp [hc]

/-- One turn of the reader: a run, and the gap behind it. -/
theorem plain_turn {indent : Int} {fuel : Nat} {gap run y : List Char} {crossed : Bool} {c : Cursor}
    (hc : c.rest = run ++ y) (hne : run ≠ []) (hsharp : run.head? ≠ some '#')
    (hrun : Scalar.plainRun false (run ++ y) = run) :
    Scalar.plain false indent (fuel + 1) gap crossed c =
      let g := Scalar.plainGap fuel (c.skip run.length)
      match g.text with
      | some text =>
        if g.after.peek == some '#' || decide ((g.after.column : Int) < indent) then
          (gap ++ run, g.after, g.crossesLine)
        else
          let (more, c, crossed) := Scalar.plain false indent fuel text g.crossesLine g.after
          (gap ++ run ++ more, c, crossed)
      | none => (gap ++ run, g.after, g.crossesLine) := by
  have hpeek : (c.peek == some '#') = false := by
    obtain ⟨ch, run, rfl⟩ := List.exists_cons_of_ne_nil hne
    rw [Cursor.peek, hc]
    simpa using hsharp
  rw [Scalar.plain, hc, hrun, hpeek, List.isEmpty_eq_false_iff.mpr hne]
  rfl

theorem Plainly.head?_ne_sharp {t run : List Char} (ht : Plainly t) (hne : run ≠ []) (hrun : run <+: t) :
    run.head? ≠ some '#' := by
  obtain ⟨ch, rest, rfl, -, hch⟩ := ht.begins
  obtain ⟨d, run, rfl⟩ := List.exists_cons_of_ne_nil hne
  have hd : d = ch := (List.cons_prefix_cons.mp hrun).1
  simpa [hd] using hch

/-- However the blanks between two runs are written, they are read as the blanks they stand for. -/
theorem exists_plainGap_write {indent : Int} {fuel k column : Nat} {t y : List Char} {c : Cursor}
    (ht : Plainly t) (hmargin : indent ≤ Writer.margin) (hcolumn : indent ≤ c.column)
    (hc : c.rest = Writer.plain column false (List.replicate (k + 1) ' ' ++ t) ++ y)
    (hfuel : c.rest.length ≤ fuel) :
    Scalar.plainRun false c.rest = [] ∧ ∃ column' c' crossed,
      Scalar.plainGap fuel c = ⟨some (List.replicate (k + 1) ' '), c', crossed⟩ ∧
      c'.rest = Writer.plain column' false t ++ y ∧ c'.rest.length ≤ c.rest.length ∧ indent ≤ c'.column := by
  obtain ⟨d, rest, hcons, hd, -⟩ := ht.begins
  obtain ⟨column', hwrite⟩ := plain_blanks column k hd rest
  rw [← hcons] at hwrite
  obtain ⟨e, more, hbegins, hseen, -⟩ := ht.exists_write_eq_cons column'
  have hgoes : BeginsSeen (Writer.plain column' false t ++ y) := by
    rw [hbegins]
    exact .cons hseen _
  -- the writer folds a single blank only; all other blanks stay on the line
  rcases hwrite with ⟨hwrite, rfl⟩ | hwrite
  · have hline : c.rest = '\n' :: (List.replicate Writer.margin ' ' ++ (Writer.plain column' false t ++ y)) := by
      rw [hc, hwrite, List.append_assoc]
      rfl
    have hdivider : ∀ d : Cursor,
        d.rest = List.replicate Writer.margin ' ' ++ (Writer.plain column' false t ++ y) →
          d.atDivider = false := fun d hd =>
      Cursor.atDivider_eq_false (by rw [hd]; simp [Writer.margin, List.replicate_succ])
    have hroom : Writer.margin < fuel := by
      simp [hline] at hfuel
      omega
    obtain ⟨c', hgap, hrest, hcolumn'⟩ := plainGap_line hline hgoes hdivider hroom
    refine ⟨?_, column', c', true, hgap, hrest, ?_, by rw [hcolumn']; exact hmargin⟩
    · rw [hline]
      simp [Scalar.plainRun, Scalar.endsPlain, isWhite, isBreak]
    · rw [hrest, hline]
      simp only [List.length_cons, List.length_append]
      omega
  · rw [hwrite, List.append_assoc] at hc
    have hafter := skip_blanks hc
    refine ⟨?_, column', c.skip (k + 1), false, plainGap_blanks fuel hc hgoes, by rw [hafter], ?_, ?_⟩
    · rw [hc]
      simp [List.replicate_succ, Scalar.plainRun, Scalar.endsPlain, isWhite]
    · rw [hafter, hc]
      simp
    · rw [hafter]
      simp only
      omega

/-- **A plain text reads back.** It is followed by a line that is indented less than the scalar has to be; the
margin is enough if the text may be folded. -/
theorem plain_write {indent : Int} {n : Nat} {x : List Char} (hn : (n : Int) < indent)
    (hx : BeginsSeen x) (hdivider : ∀ d : Cursor, d.rest = List.replicate n ' ' ++ x → d.atDivider = false)
    (fuel : Nat) {t : List Char} (ht : Plainly t) (hmargin : ' ' ∈ t → indent ≤ Writer.margin)
    (column : Nat) (gap : List Char) (crossed : Bool) {c : Cursor}
    (hc : c.rest = Writer.plain column false t ++ '\n' :: (List.replicate n ' ' ++ x))
    (hfuel : c.rest.length < fuel) (hcolumn : indent ≤ c.column) :
    ∃ c', Scalar.plain false indent fuel gap crossed c = (gap ++ t, c', true) ∧ c'.rest = x ∧
      c'.column = n := by
  induction fuel generalizing t column gap crossed c with
  | zero => omega
  | succ fuel ih =>
    obtain ⟨run, hne, hblanks, hsplit⟩ := ht.exists_run
    have hbegins : run <+: t := by
      rcases hsplit with rfl | ⟨k, t', rfl, -⟩
      · exact List.prefix_rfl
      · exact List.prefix_append _ _
    have hchars : ∀ ch ∈ run, Writer.isBreak ch = false ∧ Writer.isSpecial ch = false := fun ch hch =>
      ht.chars ch (hbegins.subset hch)
    have hseen : ∀ ch ∈ run, isWhite ch = false := fun ch hch =>
      isWhite_eq_false (hchars ch hch).1 (hchars ch hch).2 (hblanks ch hch)
    have hsharp := ht.head?_ne_sharp hne hbegins
    have hskip := fun y (hy : c.rest = run ++ y) =>
      Cursor.skip_inline hy fun ch hch => isInline_of_writer (hchars ch hch).1 (hchars ch hch).2
    rcases hsplit with rfl | ⟨k, t', rfl, ht'⟩
    · -- the last run: the line behind it is indented too little for the text to go on
      rw [← List.append_nil t, plain_run_append hblanks hne, Writer.plain, List.append_nil] at hc
      have hbody : Writer.plainBody ' ' (t ++ []) = true := by simpa using ht.body
      have hrun : Scalar.plainRun false (t ++ '\n' :: (List.replicate n ' ' ++ x)) = t :=
        plainRun_append hseen (getLast?_ne_colon hbody rfl)
          (by simp [Scalar.plainRun, Scalar.endsPlain, isWhite, isBreak])
      have hafter : (c.skip t.length).rest = '\n' :: (List.replicate n ' ' ++ x) := by rw [hskip _ hc]
      have hroom : n < fuel := by
        simp [hc] at hfuel
        omega
      obtain ⟨c', hgap, hrest, hcolumn'⟩ := plainGap_line hafter hx hdivider hroom
      refine ⟨c', ?_, hrest, hcolumn'⟩
      rw [plain_turn hc hne hsharp hrun, hgap]
      simp [hcolumn', hn]
    · -- a run and a gap, behind which the text goes on
      have hwide : indent ≤ Writer.margin := hmargin (by simp [List.replicate_succ])
      rw [plain_run_append hblanks hne, List.append_assoc] at hc
      have hplace := hskip _ hc
      have hafter : (c.skip run.length).rest = Writer.plain (column + run.length) false
          (List.replicate (k + 1) ' ' ++ t') ++ '\n' :: (List.replicate n ' ' ++ x) := by rw [hplace]
      have hdeeper : indent ≤ (c.skip run.length).column := by
        rw [hplace]
        simp only
        omega
      have hpositive : 0 < run.length := List.length_pos_iff.mpr hne
      have hshorter : (c.skip run.length).rest.length < fuel := by
        rw [hc, List.length_append] at hfuel
        rw [hafter]
        omega
      obtain ⟨hends, column', c', b, hgap, hrest, hlength, hcolumn'⟩ :=
        exists_plainGap_write ht' hwide hdeeper hafter (Nat.le_of_lt hshorter)
      rw [hafter] at hends
      obtain ⟨c'', hplain, hrest'', hcolumn''⟩ :=
        ih ht' (fun _ => hwide) column' (List.replicate (k + 1) ' ') b hrest (by omega) hcolumn'
      refine ⟨c'', ?_, hrest'', hcolumn''⟩
      have hcolon : run.getLast? ≠ some ':' := getLast?_ne_colon ht.body rfl
      have hpeek : (c'.peek == some '#') = false := by
        obtain ⟨e, more, hbegins, -, hsharp'⟩ := ht'.exists_write_eq_cons column'
        rw [Cursor.peek, hrest, hbegins]
        simpa using hsharp'
      rw [plain_turn hc hne hsharp (plainRun_append hseen hcolon hends), hgap]
      simp only [hpeek, hplain, Bool.false_or, decide_eq_true_eq]
      rw [if_neg (by omega)]
      simp

/-- A word before a colon is read up to it. -/
theorem plain_key {indent : Int} {fuel : Nat} {word y : List Char} {c : Cursor} (hfuel : 0 < fuel)
    (hc : c.rest = word ++ ':' :: y) (hy : whiteOrEnd y.head? = true) (hne : word ≠ [])
    (hword : ∀ ch ∈ word, isWhite ch = false ∧ ch ≠ ':' ∧ ch ≠ '#') :
    Scalar.plain false indent fuel [] false c = (word, c.skip word.length, false) := by
  obtain ⟨fuel, rfl⟩ := Nat.exists_eq_add_one_of_ne_zero (Nat.ne_of_gt hfuel)
  have hsharp : word.head? ≠ some '#' := fun h => (hword '#' (List.mem_of_mem_head? h)).2.2 rfl
  have hcolon : word.getLast? ≠ some ':' := fun h => (hword ':' (List.mem_of_mem_getLast? h)).2.1 rfl
  have hrun : Scalar.plainRun false (word ++ ':' :: y) = word :=
    plainRun_append (fun ch hch => (hword ch hch).1) hcolon
      (by simp [Scalar.plainRun, Scalar.endsPlain, hy])
  have hafter : (c.skip word.length).rest = ':' :: y := by
    rw [Cursor.rest_skip, hc, List.drop_left]
  have hgap : Scalar.plainGap fuel (c.skip word.length) = ⟨none, c.skip word.length, false⟩ := by
    rw [Scalar.plainGap, span_blanks (n := 0) hafter (by simp)]
    simp only [Cursor.skip, (BeginsSeen.cons (by decide) y).lineBreak?_eq_none hafter]
    rfl
  rw [plain_turn hc hne hsharp hrun, hgap]
  rfl

end CommentStyle.Yaml
