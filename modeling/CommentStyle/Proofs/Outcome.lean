import Mathlib.Data.List.Forall2

/-!
# Results and faults

Most of what is computed here either gives a result or ends with a fault. To know such a computation is to
know which results it gives and which faults it ends with, each by a relation that does not mention it.

* **`Decides`** — the computation gives just these results and just these faults. **`Decides.of_total`** is
  the way to show it: the two relations leave nothing out, and the computation follows each.
* **`exists_bind_ok_iff`**, **`exists_mapM_ok_iff`**, **`mapM_eq_ok`** — computations in a row;
  **`exists_of_forall₂`** — to each of what they are given belongs a result.
-/

namespace CommentStyle

/-- The computation gives just the results of one relation and just the faults of another. -/
structure Decides {ε α : Type} (x : Except ε α) (Result : α → Prop) (Fault : ε → Prop) : Prop where
  eq_ok_iff : ∀ a, x = .ok a ↔ Result a
  eq_error_iff : ∀ e, x = .error e ↔ Fault e

namespace Decides

variable {ε α : Type} {x : Except ε α} {Result : α → Prop} {Fault : ε → Prop}

/-- If one of the two relations holds of something, it is enough to compute what each gives. -/
theorem of_total (hok : ∀ a, Result a → x = .ok a) (herror : ∀ e, Fault e → x = .error e)
    (htotal : (∃ a, Result a) ∨ ∃ e, Fault e) : Decides x Result Fault := by
  rcases htotal with ⟨a, ha⟩ | ⟨e, he⟩
  · have hx : x = .ok a := hok a ha
    refine ⟨fun b => ⟨fun hb => ?_, hok b⟩, fun e => ⟨fun he => ?_, herror e⟩⟩
    · rw [hx, Except.ok.injEq] at hb
      exact hb ▸ ha
    · rw [hx] at he
      cases he
  · have hx : x = .error e := herror e he
    refine ⟨fun b => ⟨fun hb => ?_, hok b⟩, fun e' => ⟨fun he' => ?_, herror e'⟩⟩
    · rw [hx] at hb
      cases hb
    · rw [hx, Except.error.injEq] at he'
      exact he' ▸ he

theorem total (h : Decides x Result Fault) : (∃ a, Result a) ∨ ∃ e, Fault e := by
  cases x with
  | ok a => exact .inl ⟨a, (h.eq_ok_iff a).mp rfl⟩
  | error e => exact .inr ⟨e, (h.eq_error_iff e).mp rfl⟩

end Decides

/-! ## Computations in a row -/

section Results

variable {ε α β : Type}

theorem exists_bind_ok_iff (x : Except ε α) (f : α → Except ε β) :
    (∃ b, (x >>= f) = .ok b) ↔ ∃ a, x = .ok a ∧ ∃ b, f a = .ok b := by
  cases x with
  | ok a => simp [bind, Except.bind]
  | error e => simp [bind, Except.bind]

theorem exists_mapM_ok_iff (f : α → Except ε β) (xs : List α) :
    (∃ ys, xs.mapM f = .ok ys) ↔ ∀ x ∈ xs, ∃ y, f x = .ok y := by
  induction xs with
  | nil => simp [pure, Except.pure]
  | cons x xs ih =>
    rw [List.mapM_cons, List.forall_mem_cons, ← ih]
    cases f x with
    | error e => simp [bind, Except.bind]
    | ok y =>
      cases xs.mapM f with
      | error e => simp [bind, Except.bind]
      | ok ys => simp [bind, Except.bind, pure, Except.pure]

theorem mapM_eq_ok {f : α → Except ε β} {xs : List α} {ys : List β}
    (h : List.Forall₂ (fun x y => f x = .ok y) xs ys) : xs.mapM f = .ok ys := by
  induction h with
  | nil => rfl
  | cons hxy _ ih =>
    rw [List.mapM_cons, hxy, ih]
    rfl

/-- Each element on the left has one on the right. -/
theorem exists_of_forall₂ {R : α → β → Prop} {xs : List α} {ys : List β}
    (h : List.Forall₂ R xs ys) {x : α} (hx : x ∈ xs) : ∃ y ∈ ys, R x y := by
  induction h with
  | nil => cases hx
  | @cons a b xs ys hab _ ih =>
    rcases List.mem_cons.mp hx with rfl | hx
    · exact ⟨b, List.mem_cons_self, hab⟩
    · obtain ⟨y, hy, hxy⟩ := ih hx
      exact ⟨y, List.mem_cons_of_mem b hy, hxy⟩

end Results

end CommentStyle
