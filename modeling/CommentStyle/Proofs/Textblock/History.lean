import CommentStyle.Textblock
import Mathlib.Data.List.Induction

/-!
# Textblocks seen from the whole history

`scan` decides each comment from a state that is carried along. This module says the same without any
state: a comment is flagged exactly when it begins with a letter that is not uppercase and no earlier
comment opened a textblock that is still open.

* **`InTextblock cs i`** — some comment before index `i` begins with an uppercase letter, and no comment
  between the two begins with something other than a letter. It looks back over an unbounded history.
* **`after_eq_opened_iff`** — the invariant: the carried state is `opened` exactly when the comments read
  so far leave a textblock open in that sense. Induction on the comments, the last one taken off.
* **`violations_after`** — a scan continued behind a prefix flags exactly the indices of the rest that
  `Flagged` describes, each comment keeping its index in the whole sequence.
* **`scan_eq_flagged`** — the headline, the case of an empty prefix.
-/

namespace CommentStyle.Textblock

/-! ## The history of a comment -/

/-- How the comment with the given index begins; there is no answer behind the last one. -/
def classAt (cs : List Comment) (i : Nat) : Option LetterClass := cs[i]?.map fun c => firstClass c.text

/-- An uppercase beginning before index `i` opened a textblock, and nothing since has closed it. -/
def InTextblock (cs : List Comment) (i : Nat) : Prop :=
  ∃ j < i, classAt cs j = some .uppercase ∧ ∀ k < i, j < k → classAt cs k ≠ some .notLetter

instance (cs : List Comment) (i : Nat) : Decidable (InTextblock cs i) := by
  unfold InTextblock
  infer_instance

/-- The comment begins with a letter that is not uppercase and lies in no textblock. -/
def Flagged (cs : List Comment) (i : Nat) : Prop :=
  classAt cs i = some .lowercase ∧ ¬ InTextblock cs i

instance (cs : List Comment) (i : Nat) : Decidable (Flagged cs i) := by
  unfold Flagged
  infer_instance

/-- What is reported about a comment at fault. -/
def violation (c : Comment) : Finding := ⟨capitalizationMessage, c.location⟩

theorem classAt_append_left {cs : List Comment} {i : Nat} (hi : i < cs.length) (ds : List Comment) :
    classAt (cs ++ ds) i = classAt cs i := by
  unfold classAt
  rw [List.getElem?_append_left hi]

theorem classAt_append_length (cs ds : List Comment) (c : Comment) :
    classAt (cs ++ c :: ds) cs.length = some (firstClass c.text) := by
  unfold classAt
  rw [List.getElem?_append_right (Nat.le_refl _), Nat.sub_self, List.getElem?_cons_zero, Option.map_some]

/-- Whether an index lies in a textblock is settled by the comments before it. -/
theorem inTextblock_append {cs : List Comment} {i : Nat} (hi : i ≤ cs.length) (ds : List Comment) :
    InTextblock (cs ++ ds) i ↔ InTextblock cs i := by
  have hclass : ∀ k < i, classAt (cs ++ ds) k = classAt cs k := fun k hk =>
    classAt_append_left (Nat.lt_of_lt_of_le hk hi) ds
  constructor
  · rintro ⟨j, hj, hopen, hkept⟩
    refine ⟨j, hj, by rw [← hclass j hj]; exact hopen, fun k hk hjk => ?_⟩
    rw [← hclass k hk]
    exact hkept k hk hjk
  · rintro ⟨j, hj, hopen, hkept⟩
    refine ⟨j, hj, by rw [hclass j hj]; exact hopen, fun k hk hjk => ?_⟩
    rw [hclass k hk]
    exact hkept k hk hjk

/-- Behind a comment a textblock is open if the comment opens one, or keeps the one that was open by beginning
with a letter. -/
theorem inTextblock_succ_iff (cs : List Comment) (i : Nat) :
    InTextblock cs (i + 1) ↔
      classAt cs i = some .uppercase ∨ (classAt cs i ≠ some .notLetter ∧ InTextblock cs i) := by
  constructor
  · rintro ⟨j, hj, hopen, hkept⟩
    rcases Nat.lt_or_ge j i with hlt | hge
    · -- the opener stands before the comment, which is then one of those that keep the block open
      right
      exact ⟨hkept i (Nat.lt_succ_self i) hlt, j, hlt, hopen, fun k hk => hkept k (Nat.lt_succ_of_lt hk)⟩
    · -- the opener is the comment itself
      left
      have hjeq : j = i := by omega
      rwa [hjeq] at hopen
  · rintro (hupper | ⟨hletter, j, hj, hopen, hkept⟩)
    · exact ⟨i, Nat.lt_succ_self i, hupper, fun k hk hjk => by omega⟩
    · refine ⟨j, Nat.lt_succ_of_lt hj, hopen, fun k hk hjk => ?_⟩
      rcases Nat.lt_or_ge k i with hlt | hge
      · exact hkept k hlt hjk
      · have hkeq : k = i := by omega
        rwa [hkeq]

/-- One more comment at the end. -/
theorem inTextblock_snoc (cs : List Comment) (c : Comment) :
    InTextblock (cs ++ [c]) (cs.length + 1) ↔
      firstClass c.text = .uppercase ∨ (firstClass c.text ≠ .notLetter ∧ InTextblock cs cs.length) := by
  rw [inTextblock_succ_iff, classAt_append_length cs [] c, inTextblock_append (Nat.le_refl _) [c]]
  simp only [ne_eq, Option.some.injEq]

/-! ## The carried state

The state that a comment leaves behind is `opened` in two cases only, which are the two cases of
`inTextblock_snoc`. -/

theorem next_eq_opened_iff (state : Textblock) (first : LetterClass) :
    state.next first = opened ↔ first = .uppercase ∨ (first ≠ .notLetter ∧ state = opened) := by
  cases first with
  | notLetter => simp [next]
  | uppercase => simp [next]
  | lowercase => simp [next]

@[simp] theorem after_nil (state : Textblock) : state.after [] = state := rfl

theorem after_append (state : Textblock) (cs ds : List Comment) :
    state.after (cs ++ ds) = (state.after cs).after ds := by
  unfold after
  rw [List.foldl_append]

theorem after_snoc (state : Textblock) (cs : List Comment) (c : Comment) :
    state.after (cs ++ [c]) = (state.after cs).next (firstClass c.text) := by
  rw [after_append]
  rfl

/-- **The invariant.** The state after some comments is `opened` exactly when they leave a textblock
open. -/
theorem after_eq_opened_iff (cs : List Comment) :
    after unknown cs = opened ↔ InTextblock cs cs.length := by
  induction cs using List.reverseRecOn with
  | nil =>
    constructor
    · intro h
      exact absurd h (by decide)
    · rintro ⟨j, hj, -⟩
      exact absurd hj (Nat.not_lt_zero j)
  | append_singleton cs c ih =>
    rw [after_snoc, next_eq_opened_iff, ih, List.length_append, List.length_singleton, inTextblock_snoc]

/-- A comment is at fault in the state its predecessors leave behind exactly when it is flagged. -/
theorem atFault_after_iff (before : List Comment) (c : Comment) (behind : List Comment) :
    (after unknown before).atFault (firstClass c.text) = true ↔
      Flagged (before ++ c :: behind) before.length := by
  unfold atFault Flagged
  rw [classAt_append_length, inTextblock_append (Nat.le_refl _), ← after_eq_opened_iff]
  simp

/-! ## The scan -/

/-- What one comment adds to the violations. -/
theorem step_snd_after (before : List Comment) (c : Comment) (behind : List Comment) :
    ((after unknown before).step c).2
      = if Flagged (before ++ c :: behind) before.length then some (violation c) else none := by
  by_cases hflagged : Flagged (before ++ c :: behind) before.length
  · rw [if_pos hflagged]
    exact if_pos ((atFault_after_iff before c behind).mpr hflagged)
  · rw [if_neg hflagged]
    exact if_neg fun h => hflagged ((atFault_after_iff before c behind).mp h)

/-- A scan continued behind some comments. The indices count from the start of the whole sequence, which
is what lets the induction move a comment from the rest to the prefix. -/
theorem violations_after (before cs : List Comment) :
    (after unknown before).violations cs
      = ((cs.zipIdx before.length).filter fun p => Flagged (before ++ cs) p.2).map
          fun p => violation p.1 := by
  induction cs generalizing before with
  | nil => rfl
  | cons c cs ih =>
    have hrest := ih (before ++ [c])
    rw [List.append_assoc, List.singleton_append, List.length_append, List.length_singleton,
      after_snoc] at hrest
    rw [violations, step_snd_after before c cs, List.zipIdx_cons]
    rw [show ((after unknown before).step c).1 = (after unknown before).next (firstClass c.text) from rfl,
      hrest]
    by_cases hflagged : Flagged (before ++ c :: cs) before.length
    · rw [if_pos hflagged, List.filter_cons_of_pos (by simpa using hflagged)]
      rfl
    · rw [if_neg hflagged, List.filter_cons_of_neg (by simpa using hflagged)]
      rfl

/-- **What a scan reports.** One violation for each flagged comment, at that comment's place, in the order
of the comments, and nothing else. -/
theorem scan_eq_flagged (cs : List Comment) :
    scan cs = (cs.zipIdx.filter fun p => Flagged cs p.2).map fun p => violation p.1 :=
  violations_after [] cs

end CommentStyle.Textblock
