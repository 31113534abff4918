import CommentStyle.Proofs.Yaml.Descent
import CommentStyle.Proofs.Yaml.LookAhead
import CommentStyle.Yaml.Reader

/-!
# Texts whose tokens break off

The parser takes its tokens one by one, and a fault of the lexer may come late, long after the first nodes were
made. It does come, though: a document is complete only at the end of the text, and a lexer that fails before
the end never gets there.

* **`Poised`** — the token ahead was looked at, and behind it the lexer fails sooner or later.
* **`Lexer.breaking`** — this is kept while tokens are taken, and the end is never seen.
* **`readChars_of_breaks`** — such a text is not read.
-/

namespace CommentStyle.Yaml

namespace Lexer

variable {l l' : Lexer} {t : Token}

/-- A token was looked at, which is not the end, and behind it the lexer fails sooner or later. -/
structure Poised (t : Token) (l : Lexer) : Prop where
  again : l.ahead = .ok (t, l)
  unfinished : t ≠ .streamEnd
  next : l.next.Breaks

theorem Poised.breaks (h : l.Poised t) : l.Breaks := .cons h.again h.again h.unfinished h.next

theorem Breaks.poised (h : l.Breaks) (hahead : l.ahead = .ok (t, l')) : l'.Poised t := by
  cases h with
  | fault hfault =>
    rw [hahead] at hfault
    cases hfault
  | cons hahead' again unfinished more =>
    rw [hahead] at hahead'
    cases hahead'
    exact ⟨again, unfinished, more⟩

/-- A lexer that fails sooner or later, whatever begins on the way and whatever the fault is. -/
def breaking : Watch where
  before _ := Breaks
  looked _ := Poised
  cause _ _ _ := True
  ahead h _ := ⟨fun _ hahead => h.poised hahead, fun _ _ => trivial⟩
  unlooked := Poised.breaks
  next := Poised.next
  opened h _ := h.next
  widen := id
  full _ := trivial
  inner := id
  shallow := id

end Lexer

/-- **A text whose tokens break off is not read.** -/
theorem readChars_of_breaks {cs : List Char} (h : (Lexer.ofChars cs).Breaks) : ∃ e, readChars cs = .error e := by
  rw [readChars, Document.ofChars]
  split
  · have hreads := Lexer.breaking.reads_document 0 (8 * cs.length + 16) { lexer := .ofChars cs } h
    cases hrun : (Read.document (8 * cs.length + 16)).run { lexer := .ofChars cs } with
    | error e => exact ⟨e, rfl⟩
    | ok p => exact absurd rfl (hreads.result p hrun).unfinished
  · exact ⟨.malformed, rfl⟩

end CommentStyle.Yaml
