import CommentStyle.Proofs.Textblock.History

/-!
# Comments in two parts

How much of one part of a file is felt in the next? A scan hands nothing on but its state, and of the state
nothing counts but whether a textblock is open. An open one excuses the comments that follow up to the first
that does not begin with a letter; behind that one the scan goes on as if it had just begun.

* **`Alike`** — two states that both have a textblock open, or both have none. **`Alike.next`** and
  **`Alike.atFault`** are the one step; **`violations_congr`**: alike states give the same violations, so a
  scan that goes on in `closed` is one that begins anew in `unknown`.
* **`violations_append`** — the second part is scanned in the state that the first leaves behind.
* **`violations_opened`** — what an open textblock excuses: the comments at the front that begin with a
  letter, and nothing behind them.
* **`inTextblock_length_iff`** — the first part leaves a textblock open exactly when it has a comment with an
  uppercase beginning and only letters behind it.
* **`scan_append`** — the headline.
-/

namespace CommentStyle.Textblock

/-! ## States that a scan does not tell apart -/

/-- Both states have a textblock open, or neither has. -/
def Alike (s t : Textblock) : Prop := s = opened ↔ t = opened

theorem alike_of_ne_opened {s t : Textblock} (hs : s ≠ opened) (ht : t ≠ opened) : Alike s t :=
  iff_of_false hs ht

theorem Alike.next {s t : Textblock} (h : Alike s t) (first : LetterClass) :
    Alike (s.next first) (t.next first) := by
  unfold Alike at h ⊢
  rw [next_eq_opened_iff, next_eq_opened_iff, h]

theorem atFault_iff (state : Textblock) (first : LetterClass) :
    state.atFault first = true ↔ first = .lowercase ∧ state ≠ opened := by
  simp [atFault]

theorem Alike.atFault {s t : Textblock} (h : Alike s t) (first : LetterClass) :
    s.atFault first = t.atFault first := by
  unfold Alike at h
  rw [Bool.eq_iff_iff, atFault_iff, atFault_iff, Ne, Ne, h]

/-- One comment of a scan: its own violation, if it is at fault, and the rest in the state behind it. -/
theorem violations_cons (state : Textblock) (c : Comment) (cs : List Comment) :
    state.violations (c :: cs) = (if state.atFault (firstClass c.text) then [violation c] else [])
      ++ (state.next (firstClass c.text)).violations cs := by
  show (if state.atFault (firstClass c.text) then some (violation c) else none).toList ++ _ = _
  split <;> rfl

theorem violations_congr {s t : Textblock} (h : Alike s t) (cs : List Comment) :
    s.violations cs = t.violations cs := by
  induction cs generalizing s t with
  | nil => rfl
  | cons c cs ih => rw [violations_cons, violations_cons, h.atFault, ih (h.next _)]

/-! ## What is handed on -/

theorem violations_append (state : Textblock) (cs ds : List Comment) :
    state.violations (cs ++ ds) = state.violations cs ++ (state.after cs).violations ds := by
  induction cs generalizing state with
  | nil => rfl
  | cons c cs ih =>
    rw [List.cons_append, violations, violations, ih, List.append_assoc]
    rfl

/-- An open textblock excuses the comments up to the first that does not begin with a letter, and there it
ends. -/
theorem violations_opened (cs : List Comment) :
    opened.violations cs = scan (cs.dropWhile fun c => firstClass c.text ≠ .notLetter) := by
  induction cs with
  | nil => rfl
  | cons c cs ih =>
    rw [violations_cons]
    cases hfirst : firstClass c.text with
    | notLetter =>
      -- the comment stays; in either state it is not at fault and leaves `closed` behind
      rw [List.dropWhile_cons_of_neg (by simp [hfirst])]
      show _ = violations unknown (c :: cs)
      rw [violations_cons, hfirst]
      rfl
    | uppercase =>
      rw [List.dropWhile_cons_of_pos (by simp [hfirst])]
      exact ih
    | lowercase =>
      rw [List.dropWhile_cons_of_pos (by simp [hfirst])]
      exact ih

/-- Comments leave a textblock open exactly when one of them opens it and all behind that one begin with a
letter. -/
theorem inTextblock_length_iff (cs : List Comment) :
    InTextblock cs cs.length ↔
      ∃ before c behind, cs = before ++ c :: behind ∧ firstClass c.text = .uppercase ∧
        ∀ d ∈ behind, firstClass d.text ≠ .notLetter := by
  constructor
  · rintro ⟨j, hj, hopen, hkept⟩
    refine ⟨cs.take j, cs[j], cs.drop (j + 1), ?_, ?_, fun d hd hclass => ?_⟩
    · rw [List.getElem_cons_drop, List.take_append_drop]
    · simpa [classAt, List.getElem?_eq_getElem hj] using hopen
    · -- a comment behind index `j` has an index of its own
      obtain ⟨k, hk⟩ := List.mem_iff_getElem?.mp hd
      rw [List.getElem?_drop] at hk
      obtain ⟨hlt, -⟩ := List.getElem?_eq_some_iff.mp hk
      apply hkept (j + 1 + k) hlt (by omega)
      rw [classAt, hk, Option.map_some, hclass]
  · rintro ⟨before, c, behind, rfl, hopen, hkept⟩
    refine ⟨before.length, by simp, by rw [classAt_append_length, hopen], fun k hk hlt hclass => ?_⟩
    obtain ⟨d, hd, hnot⟩ := Option.map_eq_some_iff.mp hclass
    rw [List.getElem?_append_right (by omega), show k - before.length = k - before.length - 1 + 1 by omega,
      List.getElem?_cons_succ] at hd
    exact hkept d (List.mem_of_getElem? hd) hnot

/-- **A scan of two parts.** If the first part leaves no textblock open, the two are scanned as if each stood
alone. If it leaves one open, the second part is scanned as if it stood alone without the comments at its
front that begin with a letter. And the first part leaves one open exactly when it has a comment that begins
with an uppercase letter and none behind that comment that begins with something other than a letter. -/
theorem scan_append (xs ys : List Comment) :
    (after unknown xs ≠ opened → scan (xs ++ ys) = scan xs ++ scan ys) ∧
      (after unknown xs = opened →
        scan (xs ++ ys) = scan xs ++ scan (ys.dropWhile fun c => firstClass c.text ≠ .notLetter)) ∧
      (after unknown xs = opened ↔
        ∃ before c behind, xs = before ++ c :: behind ∧ firstClass c.text = .uppercase ∧
          ∀ d ∈ behind, firstClass d.text ≠ .notLetter) := by
  have hparts : scan (xs ++ ys) = scan xs ++ (after unknown xs).violations ys :=
    violations_append unknown xs ys
  refine ⟨fun hclosed => ?_, fun hopened => ?_, ?_⟩
  · rw [hparts, violations_congr (alike_of_ne_opened hclosed (by decide : unknown ≠ opened))]
    rfl
  · rw [hparts, hopened, violations_opened]
  · rw [after_eq_opened_iff, inTextblock_length_iff]

/-- The same second part behind two first parts. The first of these leaves its textblock open, by a beginning
without case; the second closes it. -/
theorem scan_append_open_and_closed :
    let opening : List Comment := [⟨"* Über", .unknown, .line⟩, ⟨"一", .unknown, .block⟩]
    let closing : List Comment := opening ++ [⟨"  1", .unknown, .line⟩]
    let ys : List Comment := [⟨"b", .unknown, .line⟩, ⟨"", .unknown, .line⟩, ⟨"c", .unknown, .line⟩]
    after unknown opening = opened ∧ after unknown closing ≠ opened ∧
      scan (opening ++ ys) = scan opening ++ scan (ys.drop 1) ∧
      scan (closing ++ ys) = scan closing ++ scan ys := by
  intro opening closing ys
  have hopened : after unknown opening = opened := by decide +kernel
  have hclosed : after unknown closing ≠ opened := by decide +kernel
  have hdropped : ys.dropWhile (fun c => firstClass c.text ≠ .notLetter) = ys.drop 1 := by decide +kernel
  refine ⟨hopened, hclosed, ?_, (scan_append closing ys).1 hclosed⟩
  rw [← hdropped]
  exact (scan_append opening ys).2.1 hopened

end CommentStyle.Textblock
