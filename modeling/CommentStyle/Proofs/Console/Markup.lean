import CommentStyle.Console.Table
import CommentStyle.Proofs.Outcome
import Mathlib.Control.Monad.Basic

/-!
# When a text can be printed

Everything that goes to the console is read as markup, so that a text is printed only if its tags match.
This module brings that down to the single texts: a table is printed exactly when its title and all its cells
are well marked.

* **`WellMarked`** — the tags of a text match, and their styles can be looked up.
* **`wellMarked_of_notMem`** — a text without an opening bracket has no tags; **`Markup.print_open`** and
  **`Markup.print_close`** say what a tag does.
* **`print_ok_iff`**, **`Table.print_ok_iff`** — lines of text and tables; a table is laid out column by column,
  so this is an induction on the columns, and within one on the cells.
-/

namespace CommentStyle.Console

/-- The tags of a text match and ask for styles that can be looked up, so that it can be printed. -/
def WellMarked (markup : String) : Prop := ∃ text, plain markup = .ok text

theorem toBool_plain_iff (markup : String) : (plain markup).toBool = true ↔ WellMarked markup := by
  unfold WellMarked
  cases plain markup with
  | ok text => simp [Except.toBool]
  | error f => simp [Except.toBool]

instance (markup : String) : Decidable (WellMarked markup) :=
  decidable_of_iff _ (toBool_plain_iff markup)

theorem print_ok_iff (markup : String) : (∃ text, print markup = .ok text) ↔ WellMarked markup := by
  unfold print WellMarked
  cases plain markup with
  | ok text => simp [Except.map]
  | error f => simp [Except.map]

/-! ## Texts without tags -/

namespace Markup

/-- A text without an opening bracket falls into characters only. -/
theorem char_of_mem_pieces {cs : List Char} (hcs : '[' ∉ cs) {position held : Nat} {piece : Piece}
    (hpiece : piece ∈ pieces position held 0 cs) : ∃ c, piece = .char c := by
  have hbackslashes : ∀ n, piece ∈ backslashes n → ∃ c, piece = .char c := fun n h =>
    ⟨'\\', List.eq_of_mem_replicate h⟩
  induction cs generalizing position held with
  | nil => exact hbackslashes held hpiece
  | cons c cs ih =>
    rw [List.mem_cons, not_or] at hcs
    obtain ⟨hc, hcs⟩ := hcs
    rw [pieces, if_neg (Nat.lt_irrefl 0)] at hpiece
    by_cases hslash : c = '\\'
    · rw [if_pos hslash] at hpiece
      exact ih hcs hpiece
    · rw [if_neg hslash, if_neg (Ne.symm hc), List.mem_append, List.mem_cons] at hpiece
      rcases hpiece with hpiece | rfl | hpiece
      · exact hbackslashes held hpiece
      · exact ⟨c, rfl⟩
      · exact ih hcs hpiece

/-- Characters are printed as they are, whatever tags are open. -/
theorem exists_print_of_char {ps : List Piece} (hps : ∀ p ∈ ps, ∃ c, p = .char c) (opened : List Opened) :
    ∃ text, print opened ps = .ok text := by
  induction ps with
  | nil => exact ⟨[], rfl⟩
  | cons p ps ih =>
    obtain ⟨⟨c, rfl⟩, hrest⟩ := List.forall_mem_cons.mp hps
    obtain ⟨text, htext⟩ := ih hrest
    exact ⟨c :: text, by rw [print, htext]; rfl⟩

/-- Characters ask for no style. -/
theorem checkStyles_of_char {ps : List Piece} (hps : ∀ p ∈ ps, ∃ c, p = .char c) : checkStyles ps = .ok () := by
  induction ps with
  | nil => rfl
  | cons p ps ih =>
    obtain ⟨⟨c, rfl⟩, hrest⟩ := List.forall_mem_cons.mp hps
    exact ih hrest

end Markup

theorem wellMarked_of_notMem {markup : String} (h : '[' ∉ markup.toList) : WellMarked markup := by
  have hpieces : ∀ p ∈ Markup.pieces 0 0 0 markup.toList, ∃ c, p = .char c := fun _ hpiece =>
    Markup.char_of_mem_pieces h hpiece
  obtain ⟨text, htext⟩ := Markup.exists_print_of_char hpieces []
  exact ⟨_, by simp only [plain, htext, Markup.checkStyles_of_char hpieces]; rfl⟩

/-! ## Single tags -/

namespace Markup

/-- A tag that begins with no slash is opened under the name of its style. -/
theorem print_open {body name : List Char} (hopens : ∀ written, tagName body ≠ '/' :: written)
    (hname : styleName (tagName body) = .ok name) (opened : List Opened) (position : Nat)
    (rest : List Piece) :
    print opened (.tag body position :: rest)
      = print ({ name, parameters := body.drop ((tagName body).length + 1) } :: opened) rest := by
  rw [print.eq_def]
  simp only
  rw [hname]
  rfl

/-- An end tag of its name ends the tag opened last, if that is well written. -/
theorem print_close {body written : List Char} {o : Opened} (hbody : tagName body = '/' :: written)
    (hwritten : Text.trim written ≠ []) (hname : styleName (Text.trim written) = .ok o.name)
    (hclose : o.close = .ok ()) (opened : List Opened) (position : Nat) (rest : List Piece) :
    print (o :: opened) (.tag body position :: rest) = print opened rest := by
  rw [print]
  split
  · next other h =>
    rw [hbody] at h
    cases h
    simp [hwritten, hname, hclose, Except.mapError, bind, Except.bind]
  · next h => exact absurd hbody (h written)

end Markup

/-! ## Tables -/

namespace Table

theorem lay_ok_iff (c : Column) (texts : List String) :
    (∃ l, lay c texts = .ok l) ↔ WellMarked c.name ∧ ∀ text ∈ texts, WellMarked text := by
  have htexts := exists_mapM_ok_iff plain texts
  unfold lay
  simp only [exists_bind_ok_iff, pure, Except.pure, Except.ok.injEq, exists_eq', and_true]
  rw [htexts, exists_and_right]
  rfl

/-- The columns of a table can be laid out exactly when their names and all their cells are well marked. The
induction is on the columns, with the place of the first one among those of a row. -/
theorem layAll_ok_iff (rows : List (List String)) (index : Nat) (columns : List Column) :
    (∃ ls, layAll rows index columns = .ok ls) ↔
      ∀ p ∈ columns.zipIdx index, WellMarked p.1.name ∧ ∀ row ∈ rows, WellMarked (row.getD p.2 "") := by
  induction columns generalizing index with
  | nil => simp [layAll]
  | cons c cs ih =>
    rw [List.zipIdx_cons, List.forall_mem_cons, ← ih]
    have hown := lay_ok_iff c (rows.map fun row => row.getD index "")
    rw [List.forall_mem_map] at hown
    rw [← hown, layAll]
    simp only [exists_bind_ok_iff, pure, Except.pure, Except.ok.injEq, exists_eq', and_true]
    exact exists_and_right

theorem print_ok_iff (t : Table) :
    (∃ text, t.print = .ok text) ↔ (∃ ls, layAll t.rows 0 t.columns = .ok ls) ∧ WellMarked t.title := by
  unfold print
  cases layAll t.rows 0 t.columns with
  | error f => simp [bind, Except.bind, Functor.map, Except.map]
  | ok ls =>
    unfold WellMarked
    cases plain t.title with
    | error f => simp [bind, Except.bind, Functor.map, Except.map]
    | ok title => simp [bind, Except.bind, Functor.map, Except.map, pure, Except.pure]

end Table

end CommentStyle.Console
