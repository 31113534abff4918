import CommentStyle.Proofs.Textblock.Concatenation
import Mathlib.Data.Finset.Insert
import Mathlib.Logic.Relation

/-!
# Scans of a sequence before and after it is edited

What becomes of the verdict on the other comments when some are left out, put in or written anew? A violation
does not say which comment it is about, and an edit moves the indices, so the comments carry marks that no
scan looks at.

* **`reported`** — the comments at which a scan reports, with their marks. **`scan_eq_map_reported`**: their
  violations are the result of the scan.
* **`reported_filter`** — comments that begin with a letter other than an uppercase one can be left out: such
  a step leads to a state alike, so two runs that differ in these steps stay alike. This is the run; the step
  is **`alike_next_lowercase`**.
* **`reported_anti`** — the states are ordered by what they excuse, every step keeps the order, and the run
  from the higher state reports less.
* **`Fix`** — an uppercase beginning written or put in, or a comment without a letter taken out.
  **`reported_fix`**: after a fix less is reported, since the scan goes on from a higher state.
* **`scan_without_lowercase`**, **`scan_after_fixes`** — the headlines.
-/

namespace CommentStyle.Textblock

/-! ## The comments at which a scan reports -/

section Marked

variable {ι : Type}

/-- The marked comments at which a scan that begins in the given state reports, in their order. -/
def reported (state : Textblock) (xs : List (Comment × ι)) : List (Comment × ι) :=
  ((xs.zip (state.steps (xs.map Prod.fst))).filter fun p => p.2.2.isSome).map Prod.fst

theorem reported_cons (state : Textblock) (x : Comment × ι) (xs : List (Comment × ι)) :
    reported state (x :: xs) = (if state.atFault (firstClass x.1.text) then [x] else [])
      ++ reported (state.next (firstClass x.1.text)) xs := by
  have hstep : (state.step x.1).2.isSome = state.atFault (firstClass x.1.text) := by
    show (if state.atFault (firstClass x.1.text) then some (violation x.1) else none).isSome = _
    split <;> simp_all
  unfold reported
  rw [List.map_cons, steps, List.zip_cons_cons, List.filter_cons, hstep]
  split <;> rfl

theorem reported_append (state : Textblock) (xs ys : List (Comment × ι)) :
    reported state (xs ++ ys) = reported state xs ++ reported (state.after (xs.map Prod.fst)) ys := by
  induction xs generalizing state with
  | nil => rfl
  | cons x xs ih =>
    rw [List.cons_append, reported_cons, reported_cons, ih, List.append_assoc]
    rfl

theorem violations_eq_map_reported (state : Textblock) (xs : List (Comment × ι)) :
    state.violations (xs.map Prod.fst) = (reported state xs).map fun x => violation x.1 := by
  induction xs generalizing state with
  | nil => rfl
  | cons x xs ih =>
    rw [List.map_cons, violations_cons, reported_cons, ih, List.map_append]
    split <;> rfl

/-- A scan gives one violation for each comment at which it reports. -/
theorem scan_eq_map_reported (xs : List (Comment × ι)) :
    scan (xs.map Prod.fst) = (reported unknown xs).map fun x => violation x.1 :=
  violations_eq_map_reported unknown xs

/-- Nothing depends on the marks. -/
theorem reported_map {κ : Type} (mark : ι → κ) (state : Textblock) (xs : List (Comment × ι)) :
    reported state (xs.map fun x => (x.1, mark x.2)) = (reported state xs).map fun x => (x.1, mark x.2) := by
  induction xs generalizing state with
  | nil => rfl
  | cons x xs ih =>
    rw [List.map_cons, reported_cons, reported_cons, ih, List.map_append]
    split <;> rfl

/-! ## Leaving comments out -/

/-- A letter other than an uppercase one neither opens nor closes a textblock. -/
theorem alike_next_lowercase (state : Textblock) : Alike (state.next .lowercase) state := by
  unfold Alike
  rw [next_eq_opened_iff]
  simp

/-- Two runs, one of them without some of the comments that begin with a letter other than an uppercase one.
A step that both take keeps their states alike, and so does a step that only one takes. -/
theorem reported_filter {keep : Comment × ι → Bool} {xs : List (Comment × ι)}
    (hleft : ∀ x ∈ xs, keep x = false → firstClass x.1.text = .lowercase) {s t : Textblock}
    (h : Alike s t) : reported t (xs.filter keep) = (reported s xs).filter keep := by
  induction xs generalizing s t with
  | nil => rfl
  | cons x xs ih =>
    have hrest := fun y (hy : y ∈ xs) => hleft y (List.mem_cons_of_mem x hy)
    rw [reported_cons s, List.filter_append]
    cases hkeep : keep x with
    | true =>
      rw [List.filter_cons_of_pos hkeep, reported_cons, h.atFault, ih hrest (h.next _)]
      congr 1
      split
      · rw [List.filter_cons_of_pos hkeep, List.filter_nil]
      · rfl
    | false =>
      have hown : (if s.atFault (firstClass x.1.text) then [x] else []).filter keep = [] := by
        split
        · rw [List.filter_cons_of_neg (by simp [hkeep]), List.filter_nil]
        · rfl
      have halike : Alike (s.next (firstClass x.1.text)) t := by
        rw [hleft x List.mem_cons_self hkeep]
        exact (alike_next_lowercase s).trans h
      rw [List.filter_cons_of_neg (by simp [hkeep]), hown, List.nil_append, ih hrest halike]

end Marked

/-- **Lowercase beginnings do not matter to the others.** Let `S` hold indices of comments that begin with a
letter other than an uppercase one, whether they are flagged or not. Without these comments a scan reports at
exactly those of the others at which it reported before, in the same order. The marks are the indices in the
whole sequence. -/
theorem scan_without_lowercase (cs : List Comment) (S : Finset ℕ)
    (hS : ∀ i ∈ S, classAt cs i = some .lowercase) :
    let kept := cs.zipIdx.filter fun x => x.2 ∉ S
    scan cs = (reported unknown cs.zipIdx).map (fun x => violation x.1) ∧
      reported unknown kept = (reported unknown cs.zipIdx).filter (fun x => x.2 ∉ S) ∧
      scan (kept.map Prod.fst)
        = ((reported unknown cs.zipIdx).filter fun x => x.2 ∉ S).map fun x => violation x.1 := by
  intro kept
  have hleft : ∀ x ∈ cs.zipIdx, decide (x.2 ∉ S) = false → firstClass x.1.text = .lowercase := by
    intro x hx hmem
    have hclass := hS x.2 (by simpa using hmem)
    rw [classAt, List.mem_zipIdx_iff_getElem?.mp hx] at hclass
    exact Option.some.inj hclass
  have hreported := reported_filter hleft (Iff.refl (unknown = opened))
  refine ⟨?_, hreported, ?_⟩
  · rw [← scan_eq_map_reported, List.zipIdx_map_fst]
  · rw [scan_eq_map_reported, hreported]

/-- Of the three comments left out, one is flagged, one lies in a textblock and one is behind a flagged one. -/
theorem scan_without_lowercase_mixed :
    let cs : List Comment := [⟨"a", .unknown, .line⟩, ⟨"Über", .unknown, .line⟩, ⟨"一", .unknown, .block⟩,
      ⟨"* 1", .unknown, .line⟩, ⟨"b", .unknown, .line⟩, ⟨"c", .unknown, .line⟩]
    let kept := cs.zipIdx.filter fun x => x.2 ∉ ({0, 2, 5} : Finset ℕ)
    (∀ i ∈ ({0, 2, 5} : Finset ℕ), classAt cs i = some .lowercase) ∧
      reported unknown kept = [(⟨"b", .unknown, .line⟩, 4)] ∧
      reported unknown kept
        = (reported unknown cs.zipIdx).filter fun x => x.2 ∉ ({0, 2, 5} : Finset ℕ) := by
  intro cs kept
  have hS : ∀ i ∈ ({0, 2, 5} : Finset ℕ), classAt cs i = some .lowercase := by decide +kernel
  exact ⟨hS, by decide +kernel, (scan_without_lowercase cs {0, 2, 5} hS).2.1⟩

/-! ## The order of the states -/

/-- The second state excuses whatever the first does. -/
instance : LE Textblock := ⟨fun s t => s = opened → t = opened⟩

theorem le_opened (state : Textblock) : state ≤ opened := fun _ => rfl

theorem closed_le (state : Textblock) : closed ≤ state := fun h => absurd h (by decide)

theorem next_mono {s t : Textblock} (h : s ≤ t) (first : LetterClass) : s.next first ≤ t.next first := by
  show s.next first = opened → t.next first = opened
  rw [next_eq_opened_iff, next_eq_opened_iff]
  exact Or.imp_right (And.imp_right h)

theorem atFault_anti {s t : Textblock} (h : s ≤ t) {first : LetterClass}
    (hfault : t.atFault first = true) : s.atFault first = true := by
  rw [atFault_iff] at hfault ⊢
  exact ⟨hfault.1, fun hs => hfault.2 (h hs)⟩

section Marked

variable {ι : Type}

/-- The run from a higher state reports less. The two may be apart for long: what matters is that each step
keeps the order. -/
theorem reported_anti {s t : Textblock} (h : s ≤ t) (xs : List (Comment × ι)) :
    (reported t xs).Sublist (reported s xs) := by
  induction xs generalizing s t with
  | nil => exact List.Sublist.refl _
  | cons x xs ih =>
    rw [reported_cons, reported_cons]
    refine List.Sublist.append ?_ (ih (next_mono h _))
    by_cases hfault : t.atFault (firstClass x.1.text) = true
    · rw [if_pos hfault, if_pos (atFault_anti h hfault)]
    · rw [if_neg hfault]
      exact List.nil_sublist _

theorem reported_cons_of_uppercase {c : Comment} (hc : firstClass c.text = .uppercase) (state : Textblock)
    (mark : ι) (xs : List (Comment × ι)) : reported state ((c, mark) :: xs) = reported opened xs := by
  rw [reported_cons, hc]
  rfl

theorem reported_cons_of_notLetter {c : Comment} (hc : firstClass c.text = .notLetter) (state : Textblock)
    (mark : ι) (xs : List (Comment × ι)) : reported state ((c, mark) :: xs) = reported closed xs := by
  rw [reported_cons, hc]
  rfl

end Marked

/-! ## Fixes -/

/-- One fix of a sequence of comments. A comment carries a mark as long as it is the one it was at the start:
what is written anew or put in has none. -/
inductive Fix : List (Comment × Option ℕ) → List (Comment × Option ℕ) → Prop where
  | capitalize (before behind : List (Comment × Option ℕ)) (c : Comment) (mark : Option ℕ) {text : String}
      (htext : firstClass text = .uppercase) :
      Fix (before ++ (c, mark) :: behind) (before ++ ({ c with text }, none) :: behind)
  | insert (before behind : List (Comment × Option ℕ)) {c : Comment}
      (hc : firstClass c.text = .uppercase) :
      Fix (before ++ behind) (before ++ (c, none) :: behind)
  | delete (before behind : List (Comment × Option ℕ)) {c : Comment} (mark : Option ℕ)
      (hc : firstClass c.text = .notLetter) :
      Fix (before ++ (c, mark) :: behind) (before ++ behind)

/-- **One fix.** Up to it the two runs are one; it is not reported itself, and behind it the scan goes on from
a state that is no lower. -/
theorem reported_fix {xs ys : List (Comment × Option ℕ)} (hfix : Fix xs ys) (state : Textblock) :
    (reported state ys).Sublist (reported state xs) := by
  cases hfix with
  | @capitalize before behind c mark text htext =>
    have hnew : firstClass ({ c with text } : Comment).text = .uppercase := htext
    rw [reported_append, reported_append, reported_cons_of_uppercase hnew, reported_cons]
    apply (List.Sublist.refl _).append
    exact (reported_anti (le_opened _) behind).trans (List.sublist_append_right _ _)
  | insert before behind hc =>
    rw [reported_append, reported_append, reported_cons_of_uppercase hc]
    exact (List.Sublist.refl _).append (reported_anti (le_opened _) behind)
  | delete before behind mark hc =>
    rw [reported_append, reported_append, reported_cons_of_notLetter hc]
    exact (List.Sublist.refl _).append (reported_anti (closed_le _) behind)

/-- **A series of fixes**, by induction on their number. -/
theorem reported_fixes {xs ys : List (Comment × Option ℕ)} (hfixes : Relation.ReflTransGen Fix xs ys)
    (state : Textblock) : (reported state ys).Sublist (reported state xs) := by
  induction hfixes with
  | refl => exact List.Sublist.refl _
  | tail _ hfix ih => exact (reported_fix hfix state).trans ih

/-- **Fixing never hurts.** Let each comment of a sequence be marked with its index, and let one fix after the
other be made, at any places. A comment that still has its mark and is flagged in the end was flagged at the
start; a comment that was written anew or put in is not flagged; and the violations in the end are among
those at the start, in the same order. -/
theorem scan_after_fixes {cs : List Comment} {xs : List (Comment × Option ℕ)}
    (hfixes : Relation.ReflTransGen Fix (cs.zipIdx.map fun x => (x.1, some x.2)) xs) :
    (∀ c i, (c, some i) ∈ reported unknown xs → (c, i) ∈ reported unknown cs.zipIdx) ∧
      (∀ c, (c, none) ∉ reported unknown xs) ∧
      (scan (xs.map Prod.fst)).Sublist (scan cs) := by
  have hsub := reported_fixes hfixes unknown
  rw [reported_map some] at hsub
  refine ⟨fun c i hmem => ?_, fun c hmem => ?_, ?_⟩
  · obtain ⟨x, hx, heq⟩ := List.mem_map.mp (hsub.subset hmem)
    cases heq
    exact hx
  · obtain ⟨x, -, heq⟩ := List.mem_map.mp (hsub.subset hmem)
    cases heq
  · rw [scan_eq_map_reported, ← List.zipIdx_map_fst 0 cs, scan_eq_map_reported]
    have hviolations := hsub.map fun x => violation x.1
    rwa [List.map_map] at hviolations

/-- All three kinds of fixes, one after the other: a flagged comment is written anew, the comment that closed
the textblock so opened is taken out, and a comment is put in at the end. Of the three flagged comments the
last stays flagged. -/
theorem scan_after_fixes_series :
    let cs : List Comment := [⟨"a", .unknown, .line⟩, ⟨"* 1", .unknown, .line⟩, ⟨"b", .unknown, .block⟩,
      ⟨"2", .unknown, .line⟩, ⟨"c", .unknown, .line⟩]
    let xs : List (Comment × Option ℕ) := [(⟨"Über", .unknown, .line⟩, none),
      (⟨"b", .unknown, .block⟩, some 2), (⟨"2", .unknown, .line⟩, some 3), (⟨"c", .unknown, .line⟩, some 4),
      (⟨"D", .unknown, .line⟩, none)]
    Relation.ReflTransGen Fix (cs.zipIdx.map fun x => (x.1, some x.2)) xs ∧
      (reported unknown cs.zipIdx).map Prod.snd = [0, 2, 4] ∧
      reported unknown xs = [(⟨"c", .unknown, .line⟩, some 4)] ∧
      (∀ c i, (c, some i) ∈ reported unknown xs → (c, i) ∈ reported unknown cs.zipIdx) ∧
      ∀ c, (c, none) ∉ reported unknown xs := by
  intro cs xs
  have htext : firstClass "Über" = .uppercase := by decide +kernel
  have hadded : firstClass "D" = .uppercase := by decide +kernel
  have hclosing : firstClass "* 1" = .notLetter := by decide +kernel
  have hfixes : Relation.ReflTransGen Fix (cs.zipIdx.map fun x => (x.1, some x.2)) xs := by
    refine .tail (.tail (.single (.capitalize [] _ _ _ htext)) (.delete [_] _ _ hclosing)) ?_
    exact .insert [_, _, _, _] [] hadded
  obtain ⟨hmarked, hunmarked, -⟩ := scan_after_fixes hfixes
  exact ⟨hfixes, by decide +kernel, by decide +kernel, hmarked, hunmarked⟩

end CommentStyle.Textblock
