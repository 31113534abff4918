import CommentStyle.Proofs.Yaml.QuotedText
import CommentStyle.Yaml.Token

/-!
# The tokens of block collections

The lexer reads on only as far as it takes to know that the next token begins no key. So the tokens come in
an order of their own: a word is held back until the colon behind it is read, while the tokens before it are
handed out. This module says what tokens come out, and no more of how they do.

* **`Yields`** — the lexer hands out these tokens in order.
* **`StandsAt`** — where the lexer stands in the text and in the blocks around it; **`Offers`**, **`Holds`** —
  what it has read and not handed out, without and with a word that is held back.
* **`Reads`** — from this stance on these tokens come out; **`Reads.step`** and **`Reads.key`** reduce it to
  what one or two steps of the lexer do.
* **`reads_entry`**, **`reads_key`**, **`reads_plain`**, **`reads_quoted`**, **`reads_end`** — the lines of a
  block collection, one lemma for each kind.
-/

namespace CommentStyle.Yaml

namespace Lexer

/-- The lexer hands out these tokens in order. A token that was looked at stays ahead until it is taken. -/
inductive Yields : Lexer → List Token → Prop
  | nil (l : Lexer) : Yields l []
  | cons {l l' : Lexer} {t : Token} {ts : List Token} (ahead : l.ahead = .ok (t, l'))
      (again : l'.ahead = .ok (t, l')) (more : Yields l'.next ts) : Yields l (t :: ts)

theorem Yields.of_ahead_eq {l m : Lexer} {t : Token} {ts : List Token} (h : Yields m (t :: ts))
    (heq : l.ahead = m.ahead) : Yields l (t :: ts) := by
  cases h with
  | cons ahead again more => exact .cons (heq.trans ahead) again more

/-! ## Handing out -/

/-- The tokens read and not handed out. -/
def queue (l : Lexer) : List Token := l.ready ++ l.recent.reverse

/-- No pending key is too far behind. -/
def Fresh (l : Lexer) : Prop := ∀ k, some k ∈ l.keys → isStale l.cursor k = false

/-- The lexer reads no further before it hands out a token. -/
def Settled (l : Lexer) : Prop := l.done = true ∨ l.taken ≠ l.count ∧ l.Fresh ∧ l.firstKey ≠ some l.taken

theorem dropStaleKeys_of_fresh {l : Lexer} (h : l.Fresh) : l.dropStaleKeys = .ok l := by
  have hstale : ∀ k ∈ l.keys, (k.any (isStale l.cursor)) = false := by
    intro k hk
    cases k with
    | none => rfl
    | some k => exact h k hk
  have hany : (l.keys.any fun k => k.any (isStale l.cursor) && k.any PendingKey.required) = false := by
    rw [List.any_eq_false]
    intro k hk
    rw [hstale k hk]
    simp
  have hmap : (l.keys.map fun k => if k.any (isStale l.cursor) then none else k) = l.keys := by
    rw [List.map_congr_left (g := id), List.map_id]
    intro k hk
    rw [hstale k hk]
    rfl
  unfold dropStaleKeys
  simp only [hany, Bool.false_eq_true, if_false, hmap]

theorem fill_of_settled {l : Lexer} (h : l.Settled) (fuel : Nat) : fill (fuel + 1) l = .ok l := by
  rw [fill]
  rcases h with hdone | ⟨hcount, hfresh, hkey⟩
  · rw [if_pos hdone]
  · by_cases hdone : l.done = true
    · rw [if_pos hdone]
    · rw [if_neg hdone, if_neg hcount, dropStaleKeys_of_fresh hfresh]
      simp only [bind, Except.bind, hkey, if_false]
      rfl

/-- The lexer takes a step if it has no token, or only one that may begin a key. -/
theorem fill_step {l m : Lexer} (hgoing : l.done = false)
    (hneeds : l.taken = l.count ∨ l.Fresh ∧ l.firstKey = some l.taken) (hstep : l.step = .ok m)
    (fuel : Nat) : fill (fuel + 1) l = fill fuel m := by
  rw [fill, hgoing, if_neg Bool.false_ne_true]
  by_cases hcount : l.taken = l.count
  · rw [if_pos hcount, hstep]
    rfl
  · obtain ⟨hfresh, hkey⟩ := hneeds.resolve_left hcount
    rw [if_neg hcount, dropStaleKeys_of_fresh hfresh]
    simp only [bind, Except.bind, hkey, if_true, hstep]

/-- Two lexers that come to the same settled one have the same token ahead. -/
theorem ahead_eq_of_fill {l m : Lexer} (hl : fill (l.size + 2) l = .ok m) (hm : m.Settled) :
    l.ahead = m.ahead := by
  rw [ahead, ahead, hl, fill_of_settled hm]

/-- The first token is handed out, and the others stay. -/
theorem ahead_of_settled {l : Lexer} (h : l.Settled) {t : Token} {q : List Token} (hq : l.queue = t :: q) :
    ∃ ready recent, ready ++ recent.reverse = q ∧
      l.ahead = .ok (t, { l with ready := t :: ready, recent }) ∧
      ({ l with ready := t :: ready, recent } : Lexer).ahead
        = .ok (t, { l with ready := t :: ready, recent }) := by
  have hsettled : ∀ ready recent, ({ l with ready, recent } : Lexer).Settled := fun ready recent => h
  have hagain : ∀ ready recent, ({ l with ready := t :: ready, recent } : Lexer).ahead
      = .ok (t, { l with ready := t :: ready, recent }) := by
    intro ready recent
    rw [ahead, fill_of_settled (hsettled (t :: ready) recent)]
    rfl
  cases hready : l.ready with
  | cons s ready =>
    rw [queue, hready, List.cons_append] at hq
    obtain ⟨rfl, htail⟩ := List.cons.inj hq
    have hsame : ({ l with ready := s :: ready } : Lexer) = l := by rw [← hready]
    refine ⟨ready, l.recent, htail, ?_, hagain ready l.recent⟩
    have hahead := hagain ready l.recent
    rw [hsame] at hahead ⊢
    exact hahead
  | nil =>
    -- the tokens read last are turned round first
    rw [queue, hready, List.nil_append] at hq
    refine ⟨q, [], by simp, ?_, hagain q []⟩
    rw [ahead, fill_of_settled h]
    simp only [bind, Except.bind, hready, hq]
    rfl

/-! ## Stances -/

/-- The column of the innermost block, -1 outside of all. -/
def indentOf : List Nat → Int
  | [] => -1
  | b :: _ => b

/-- The columns around the innermost block. -/
def indentsOf : List Nat → List Int
  | [] => []
  | _ :: bs => indentOf bs :: indentsOf bs

end Lexer

/-- A place in a text, outside of flow collections. -/
structure Stance where
  rest : List Char
  column : Nat
  /-- The columns of the open blocks, innermost first. -/
  blocks : List Nat
  keyAllowed : Bool

namespace Lexer

structure StandsAt (l : Lexer) (p : Stance) : Prop where
  rest : l.cursor.rest = p.rest
  column : l.cursor.column = p.column
  indent : l.indent = indentOf p.blocks
  indents : l.indents = indentsOf p.blocks
  keyAllowed : l.keyAllowed = p.keyAllowed
  going : l.done = false
  room : p.rest.length < l.size

/-- These tokens are read and not handed out, and no key is pending. -/
structure Offers (l : Lexer) (q : List Token) : Prop where
  keys : l.keys = [none]
  queue : l.queue = q
  count : l.count = l.taken + q.length

/-- These tokens are read and not handed out, and behind them a word at a column that may be a key. -/
structure Holds (l : Lexer) (q : List Token) (word : List Char) (column : Nat) : Prop where
  keys : ∃ k, l.keys = [some k] ∧ k.number = l.taken + q.length ∧ k.column = column ∧
    isStale l.cursor k = false
  queue : l.queue = q ++ [.scalar word true]
  count : l.count = l.taken + q.length + 1

theorem Offers.fresh {l : Lexer} {q : List Token} (h : l.Offers q) : l.Fresh := by
  intro k hk
  rw [h.keys] at hk
  simp at hk

theorem Offers.firstKey {l : Lexer} {q : List Token} (h : l.Offers q) : l.firstKey = none := by
  rw [Lexer.firstKey, h.keys]
  rfl

theorem Offers.settled {l : Lexer} {q : List Token} (h : l.Offers q) (hq : q ≠ []) : l.Settled := by
  refine .inr ⟨?_, h.fresh, by rw [h.firstKey]; simp⟩
  have hcount := h.count
  have hpositive : q.length ≠ 0 := fun hzero => hq (List.length_eq_zero_iff.mp hzero)
  omega

theorem Holds.fresh {l : Lexer} {q : List Token} {word : List Char} {column : Nat}
    (h : l.Holds q word column) : l.Fresh := by
  obtain ⟨k, hkeys, -, -, hstale⟩ := h.keys
  intro k' hk'
  rw [hkeys] at hk'
  rw [← Option.some.inj (List.mem_singleton.mp hk')] at hstale
  exact hstale

theorem Holds.firstKey {l : Lexer} {q : List Token} {word : List Char} {column : Nat}
    (h : l.Holds q word column) : l.firstKey = some (l.taken + q.length) := by
  obtain ⟨k, hkeys, hnumber, -⟩ := h.keys
  rw [Lexer.firstKey, hkeys, ← hnumber]
  rfl

theorem Holds.settled {l : Lexer} {t : Token} {q : List Token} {word : List Char} {column : Nat}
    (h : l.Holds (t :: q) word column) : l.Settled := by
  refine .inr ⟨?_, h.fresh, by rw [h.firstKey]; simp⟩
  have := h.count
  omega

/-! ## From stance to stance -/

/-- What a lexer offers comes out first. -/
theorem Offers.yields {l : Lexer} {q ts : List Token} (hq : l.Offers q)
    (hmore : ∀ ready recent taken, ({ l with ready, recent, taken } : Lexer).Offers [] →
      ({ l with ready, recent, taken } : Lexer).Yields ts) : l.Yields (q ++ ts) := by
  induction q generalizing l with
  | nil => exact hmore l.ready l.recent l.taken hq
  | cons t q ih =>
    obtain ⟨ready, recent, hrest, hahead, hagain⟩ :=
      ahead_of_settled (hq.settled (List.cons_ne_nil t q)) hq.queue
    refine .cons hahead hagain (ih ⟨hq.keys, hrest, ?_⟩ hmore)
    have hcount := hq.count
    simp only [Lexer.next, List.length_cons] at hcount ⊢
    omega

/-- From this stance on, with nothing left to hand out, these tokens come out. -/
def Reads (p : Stance) (ts : List Token) : Prop := ∀ l : Lexer, l.StandsAt p → l.Offers [] → l.Yields ts

theorem Reads.offers {p : Stance} {ts : List Token} (h : Reads p ts) {l : Lexer} {q : List Token}
    (hp : l.StandsAt p) (hq : l.Offers q) : l.Yields (q ++ ts) :=
  hq.yields fun _ _ _ hnone =>
    h _ ⟨hp.rest, hp.column, hp.indent, hp.indents, hp.keyAllowed, hp.going, hp.room⟩ hnone

/-- **A step after which no key is pending.** -/
theorem reads_of_step {p : Stance} {q ts : List Token} (hne : q ≠ [])
    (hstep : ∀ l : Lexer, l.StandsAt p → l.Offers [] →
      ∃ l', l.step = .ok l' ∧ l'.Offers q ∧ ∀ ready recent taken,
        ({ l' with ready, recent, taken } : Lexer).Offers [] →
          ({ l' with ready, recent, taken } : Lexer).Yields ts) :
    Reads p (q ++ ts) := by
  intro l hp hq
  obtain ⟨l', hl', hq', hmore⟩ := hstep l hp hq
  have hfill : fill (l.size + 2) l = .ok l' := by
    rw [fill_step hp.going (.inl (by simpa using hq.count.symm)) hl', fill_of_settled (hq'.settled hne)]
  have hyields := hq'.yields hmore
  obtain ⟨t, q, rfl⟩ := List.exists_cons_of_ne_nil hne
  exact hyields.of_ahead_eq (ahead_eq_of_fill hfill (hq'.settled hne))

/-- **Two steps with a word held back in between**: what stands before the word comes out first. -/
theorem reads_of_steps {p p₁ p' : Stance} {word : List Char} {column : Nat} {q q' ts : List Token}
    (hne : q' ≠ [])
    (hword : ∀ l : Lexer, l.StandsAt p → l.Offers [] →
      ∃ l', l.step = .ok l' ∧ l'.StandsAt p₁ ∧ l'.Holds q word column)
    (hcolon : ∀ l : Lexer, l.StandsAt p₁ → l.Holds [] word column →
      ∃ l', l.step = .ok l' ∧ l'.StandsAt p' ∧ l'.Offers q')
    (h : Reads p' ts) : Reads p (q ++ (q' ++ ts)) := by
  obtain ⟨t, q', rfl⟩ := List.exists_cons_of_ne_nil hne
  -- the colon is read once nothing stands before the word any more
  have hbare : ∀ l : Lexer, l.StandsAt p₁ → l.Holds [] word column → ∃ m : Lexer,
      (∀ fuel, fill (fuel + 2) l = .ok m) ∧ m.Settled ∧ m.Yields (t :: q' ++ ts) := by
    intro l hl hheld
    obtain ⟨m, hm, hpm, hqm⟩ := hcolon l hl hheld
    refine ⟨m, fun fuel => ?_, hqm.settled hne, h.offers hpm hqm⟩
    rw [fill_step hl.going (.inr ⟨hheld.fresh, hheld.firstKey⟩) hm, fill_of_settled (hqm.settled hne)]
  have hheld : ∀ (q : List Token) (l : Lexer), l.StandsAt p₁ → l.Holds q word column →
      l.Yields (q ++ (t :: q' ++ ts)) := by
    intro q
    induction q with
    | nil =>
      intro l hl hheld
      obtain ⟨m, hfill, hsettled, hyields⟩ := hbare l hl hheld
      exact hyields.of_ahead_eq (ahead_eq_of_fill (hfill l.size) hsettled)
    | cons s q ih =>
      intro l hl hheld
      obtain ⟨ready, recent, hrest, hahead, hagain⟩ := ahead_of_settled hheld.settled hheld.queue
      refine .cons hahead hagain (ih _ ?_ ?_)
      · exact ⟨hl.rest, hl.column, hl.indent, hl.indents, hl.keyAllowed, hl.going, hl.room⟩
      · -- keys are numbered from the beginning of the text, so the word keeps its number
        obtain ⟨k, hkeys, hnumber, hcolumn, hstale⟩ := hheld.keys
        have hcount := hheld.count
        refine ⟨⟨k, hkeys, ?_, hcolumn, hstale⟩, hrest, ?_⟩
        · simp only [Lexer.next, List.length_cons] at hnumber ⊢
          omega
        · simp only [Lexer.next, List.length_cons] at hcount ⊢
          omega
  intro l hp hq
  obtain ⟨l', hl', hp', hheld'⟩ := hword l hp hq
  have hfill := fun fuel => fill_step hp.going (.inl (by simpa using hq.count.symm)) hl' fuel
  cases q with
  | nil =>
    -- one look ahead takes both steps
    obtain ⟨m, hfill', hsettled, hyields⟩ := hbare l' hp' hheld'
    have hsize : 0 < l.size := Nat.zero_lt_of_lt hp.room
    refine hyields.of_ahead_eq (ahead_eq_of_fill ?_ hsettled)
    rw [hfill, show l.size + 1 = (l.size - 1) + 2 by omega, hfill']
  | cons s q =>
    refine (hheld _ l' hp' hheld').of_ahead_eq (ahead_eq_of_fill ?_ hheld'.settled)
    rw [hfill, fill_of_settled hheld'.settled]

/-! ## Between tokens -/

theorem Offers.inFlow {l : Lexer} {q : List Token} (h : l.Offers q) : l.inFlow = false := by
  rw [Lexer.inFlow, h.keys]
  rfl

theorem Offers.push {l : Lexer} {q : List Token} (h : l.Offers q) (t : Token) :
    (l.push t).Offers (q ++ [t]) := by
  refine ⟨h.keys, ?_, ?_⟩
  · have hqueue := h.queue
    rw [Lexer.queue] at hqueue
    simp [Lexer.queue, Lexer.push, ← hqueue]
  · have hcount := h.count
    simp only [Lexer.push, List.length_append, List.length_singleton]
    omega

theorem Offers.dropKey {l : Lexer} {q : List Token} (h : l.Offers q) : l.dropKey = .ok l := by
  rw [Lexer.dropKey, h.keys]

theorem Offers.dropStaleKeys {l : Lexer} {q : List Token} (h : l.Offers q) : l.dropStaleKeys = .ok l :=
  dropStaleKeys_of_fresh h.fresh

/-- A token may begin here: there is no white space and no comment. -/
def BeginsToken (x : List Char) : Prop := BeginsSeen x ∧ x.head? ≠ some '#'

/-- What stands between two tokens: blanks, or the end of a line and the indentation of the next one. -/
inductive Skips : Stance → Stance → Prop
  | blanks (n : Nat) {x : List Char} (hx : BeginsToken x) (column : Nat) (blocks : List Nat)
      (keyAllowed : Bool) :
      Skips ⟨List.replicate n ' ' ++ x, column, blocks, keyAllowed⟩ ⟨x, column + n, blocks, keyAllowed⟩
  | line (n : Nat) {x : List Char} (hx : BeginsToken x) (column : Nat) (blocks : List Nat)
      (keyAllowed : Bool) :
      Skips ⟨'\n' :: (List.replicate n ' ' ++ x), column, blocks, keyAllowed⟩ ⟨x, n, blocks, true⟩

theorem skipToToken_blanks {l : Lexer} {n : Nat} {x : List Char} (hx : BeginsToken x)
    (hrest : l.cursor.rest = List.replicate n ' ' ++ x) (fuel : Nat) :
    skipToToken (fuel + 1) l = l.moveTo (l.cursor.skip n) := by
  have hafter : (l.cursor.skip n).rest = x := by rw [skip_blanks hrest]
  have hpeek : ((l.cursor.skip n).peek == some '#') = false := by
    rw [Cursor.peek, hafter]
    simpa using hx.2
  have hspaces : l.cursor.skipSpaces = l.cursor.skip n := by
    rw [Cursor.skipSpaces, Cursor.skipWhile, span_blanks hrest hx.1.ne_blank]
  rw [skipToToken, hspaces, hpeek, if_neg Bool.false_ne_true]
  simp only [hx.1.lineBreak?_eq_none hafter]

theorem exists_skipToToken {p p' : Stance} (hskip : Skips p p') {l : Lexer} (hp : l.StandsAt p)
    (hflow : l.inFlow = false) :
    ∃ cursor keyAllowed, skipToToken l.size l = { l with cursor, keyAllowed } ∧
      ({ l with cursor, keyAllowed } : Lexer).StandsAt p' := by
  have hroom := hp.room
  cases hskip with
  | blanks n hx column blocks keyAllowed =>
    have hcursor := skip_blanks hp.rest
    refine ⟨l.cursor.skip n, l.keyAllowed, ?_, ?_⟩
    · obtain ⟨fuel, hfuel⟩ := Nat.exists_eq_add_one_of_ne_zero (Nat.ne_of_gt (Nat.zero_lt_of_lt hroom))
      rw [hfuel, skipToToken_blanks hx hp.rest, moveTo, ← hfuel]
    · refine ⟨by rw [hcursor], by rw [hcursor, hp.column], hp.indent, hp.indents, hp.keyAllowed, hp.going, ?_⟩
      simp only [List.length_append] at hroom ⊢
      omega
  | @line n x hx column blocks keyAllowed =>
    let d : Cursor :=
      { rest := List.replicate n ' ' ++ x, index := l.cursor.index + 1, line := l.cursor.line + 1, column := 0 }
    have hcursor : d.skip n = { rest := x, index := d.index + n, line := d.line, column := n } := by
      simpa [d] using skip_blanks (c := d) rfl
    have hbreak : l.cursor.lineBreak? = some ('\n', d) :=
      Cursor.lineBreak?_of_isBreak hp.rest (by decide) (by decide)
    have hspaces : l.cursor.skipSpaces = l.cursor := by
      rw [Cursor.skipSpaces, Cursor.skipWhile, span_blanks (n := 0) hp.rest (by simp)]
      rfl
    have hpeek : (l.cursor.peek == some '#') = false := by
      rw [Cursor.peek, hp.rest]
      rfl
    have hsize : 2 ≤ l.size := by
      simp only [List.length_cons] at hroom
      omega
    -- at the beginning of a line a key may stand
    refine ⟨d.skip n, true, ?_, ?_⟩
    · obtain ⟨fuel, hfuel⟩ := Nat.exists_eq_add_of_le' hsize
      rw [hfuel, show fuel + 2 = fuel + 1 + 1 from rfl, skipToToken, hspaces, hpeek,
        if_neg Bool.false_ne_true]
      simp only [hbreak, hflow, Bool.not_false, Bool.or_true]
      rw [skipToToken_blanks hx rfl, moveTo]
      simp only [hfuel]
    · refine ⟨by rw [hcursor], by rw [hcursor], hp.indent, hp.indents, rfl, hp.going, ?_⟩
      simp only [List.length_cons, List.length_append] at hroom ⊢
      omega

/-! ## Ends and beginnings of blocks -/

/-- The ends of the blocks beyond a column. -/
def closing (column : Int) (blocks : List Nat) : List Token :=
  (blocks.takeWhile fun b : Nat => column < (b : Int)).map fun _ => .blockEnd

/-- The blocks up to a column. -/
def upTo (column : Int) (blocks : List Nat) : List Nat := blocks.dropWhile fun b : Nat => column < (b : Int)

theorem closing_cons (column : Int) (b : Nat) (blocks : List Nat) :
    closing column (b :: blocks) = if column < b then .blockEnd :: closing column blocks else [] := by
  by_cases hb : column < (b : Int)
  · rw [closing, List.takeWhile_cons_of_pos (by simpa using hb), if_pos hb]
    rfl
  · rw [closing, List.takeWhile_cons_of_neg (by simpa using hb), if_neg hb]
    rfl

theorem upTo_cons (column : Int) (b : Nat) (blocks : List Nat) :
    upTo column (b :: blocks) = if column < b then upTo column blocks else b :: blocks := by
  by_cases hb : column < (b : Int)
  · rw [upTo, List.dropWhile_cons_of_pos (by simpa using hb), if_pos hb]
    rfl
  · rw [upTo, List.dropWhile_cons_of_neg (by simpa using hb), if_neg hb]

theorem closeBlocks_spec (column : Int) {p : Stance} {l : Lexer} {q : List Token} (hp : l.StandsAt p)
    (hq : l.Offers q) :
    (closeBlocks column l.indents l).StandsAt { p with blocks := upTo column p.blocks } ∧
      (closeBlocks column l.indents l).Offers (q ++ closing column p.blocks) ∧
      (closeBlocks column l.indents l).cursor = l.cursor ∧
      (closeBlocks column l.indents l).size = l.size := by
  rcases p with ⟨rest, place, blocks, keyAllowed⟩
  induction blocks generalizing l q with
  | nil =>
    have hindents : l.indents = [] := hp.indents
    rw [hindents, closeBlocks]
    exact ⟨hp, by simpa [closing] using hq, rfl, rfl⟩
  | cons b blocks ih =>
    have hindents : l.indents = indentOf blocks :: indentsOf blocks := hp.indents
    have hindent : l.indent = (b : Int) := hp.indent
    rw [hindents, closeBlocks, hindent]
    by_cases hb : column < (b : Int)
    · -- a block ends, and the induction goes on with the ones around it
      let popped : Lexer := { l with indent := indentOf blocks, indents := indentsOf blocks }
      have hpopped : popped.Offers q := ⟨hq.keys, hq.queue, hq.count⟩
      have hpop := ih (hpopped.push .blockEnd)
        ⟨hp.rest, hp.column, rfl, rfl, hp.keyAllowed, hp.going, hp.room⟩
      rw [if_pos hb, upTo_cons, if_pos hb, closing_cons, if_pos hb]
      rw [List.append_assoc] at hpop
      exact hpop
    · rw [if_neg hb, upTo_cons, if_neg hb, closing_cons, if_neg hb, List.append_nil]
      exact ⟨hp, hq, rfl, rfl⟩

/-- A block begins at a column beyond the innermost one. -/
def opened (column : Nat) (blocks : List Nat) : List Nat :=
  if indentOf blocks < column then column :: blocks else blocks

def opening (t : Token) (column : Nat) (blocks : List Nat) : List Token :=
  if indentOf blocks < column then [t] else []

/-- A step passes over what divides tokens and ends blocks; then it reads the token. -/
theorem exists_step {p : Stance} {x : List Char} {column : Nat} {blocks : List Nat} {keyAllowed : Bool}
    (hskip : Skips p ⟨x, column, blocks, keyAllowed⟩) {l : Lexer} (hp : l.StandsAt p) (hq : l.Offers []) :
    ∃ m : Lexer, l.step = m.token m.size ∧ m.StandsAt ⟨x, column, upTo column blocks, keyAllowed⟩ ∧
      m.Offers (closing column blocks) := by
  obtain ⟨cursor, allowed, hskipped, hp'⟩ := exists_skipToToken hskip hp hq.inFlow
  let l' : Lexer := { l with cursor, keyAllowed := allowed }
  have hq' : l'.Offers [] := ⟨hq.keys, hq.queue, hq.count⟩
  obtain ⟨hstands, hoffers, -, hsize⟩ := closeBlocks_spec column hp' hq'
  refine ⟨closeBlocks column l'.indents l', ?_, hstands, hoffers⟩
  have hcolumn : l'.cursor.column = column := hp'.column
  rw [step, hskipped, hq'.dropStaleKeys]
  simp only [bind, Except.bind, unwind, hq'.inFlow, Bool.false_eq_true, if_false, hcolumn]
  rw [hsize]

/-! ## Which token is read -/

/-- The text begins with no indicator, or with one that is none before what follows it. -/
def StartsPlain (x : List Char) : Prop :=
  ∃ ch rest, x = ch :: rest ∧ isWhite ch = false ∧ "#,[]\x7b\x7d&*!|>'\"%@`".toList.contains ch = false ∧
    (ch = '-' ∨ ch = '?' ∨ ch = ':' → whiteOrEnd rest.head? = false)

theorem StartsPlain.beginsToken {x : List Char} (hx : StartsPlain x) : BeginsToken x := by
  obtain ⟨ch, rest, rfl, hwhite, hmarks, -⟩ := hx
  refine ⟨.cons hwhite rest, ?_⟩
  rintro ⟨rfl⟩
  exact absurd hmarks (by decide)

theorem token_entry {l : Lexer} {y : List Char} (hrest : l.cursor.rest = '-' :: ' ' :: y) (fuel : Nat) :
    l.token fuel = l.blockEntry := by
  simp [token, Cursor.peek, Cursor.peekAt, hrest, Cursor.divides_of_dash hrest, whiteOrEnd, isWhite]

theorem token_colon {l : Lexer} {y : List Char} (hrest : l.cursor.rest = ':' :: y)
    (hy : whiteOrEnd y.head? = true) (fuel : Nat) : l.token fuel = l.valueMark := by
  have hdivides : ∀ mark, ':' ≠ mark → l.cursor.divides mark = false := fun mark hmark =>
    Cursor.divides_eq_false (by simpa [hrest] using hmark)
  rw [List.head?_eq_getElem?] at hy
  simp [token, Cursor.peek, Cursor.peekAt, hrest, hdivides, hy]

theorem token_quote {l : Lexer} {double : Bool} {y : List Char}
    (hrest : l.cursor.rest = (if double then '"' else '\x27') :: y) (hcolumn : l.cursor.column ≠ 0)
    (fuel : Nat) :
    l.token fuel = l.quotedScalar fuel double := by
  cases double <;> simp [token, Cursor.peek, hrest, hcolumn]

theorem token_plain {l : Lexer} (hflow : l.inFlow = false) (hstarts : StartsPlain l.cursor.rest)
    (hcolumn : l.cursor.column ≠ 0) (fuel : Nat) : l.token fuel = l.plainScalar fuel := by
  obtain ⟨ch, rest, hrest, hseen, hmarks, hbare⟩ := hstarts
  rw [List.head?_eq_getElem?] at hbare
  have hmarks : ∀ mark ∈ "#,[]\x7b\x7d&*!|>'\"%@`".toList, ch ≠ mark := by
    intro mark hmark hch
    rw [hch, List.contains_iff_mem.mpr hmark] at hmarks
    cases hmarks
  simp only [String.reduceToList, List.forall_mem_cons] at hmarks
  have hbegins : l.beginsPlain ch = true := by
    by_cases hdash : ch = '-' ∨ ch = '?' ∨ ch = ':'
    · have hnext := hbare hdash
      simp [beginsPlain, Cursor.peekAt, hrest, hnext, hflow, hdash]
    · simp only [not_or] at hdash
      simp [beginsPlain, hseen, hmarks, hdash]
  have hnot : ∀ mark, mark = '-' ∨ mark = '?' ∨ mark = ':' → ¬(ch = mark ∧ whiteOrEnd rest[0]? = true) := by
    rintro mark hmark ⟨rfl, hwhite⟩
    rw [hbare hmark] at hwhite
    cases hwhite
  simp [token, Cursor.peek, Cursor.peekAt, hrest, hcolumn, hflow, hmarks, hbegins, -not_and,
    hnot '-' (.inl rfl), hnot '?' (.inr (.inl rfl)), hnot ':' (.inr (.inr rfl))]

/-! ## The lines of a block collection -/

section Lines

variable {p : Stance} {column : Nat} {blocks : List Nat} {keyAllowed : Bool} {q ts : List Token} {l : Lexer}

theorem indentOf_upTo_le (column : Nat) (blocks : List Nat) : indentOf (upTo column blocks) ≤ column := by
  induction blocks with
  | nil =>
    show (-1 : Int) ≤ column
    omega
  | cons b blocks ih =>
    rw [upTo_cons]
    split
    · exact ih
    · next hb => exact Int.not_lt.mp hb

/-- A block at the column of a token is the innermost one behind it. -/
theorem indentOf_opened (column : Nat) (blocks : List Nat) :
    indentOf (opened column (upTo column blocks)) = column := by
  have hle := indentOf_upTo_le column blocks
  unfold opened
  split
  · rfl
  · next hnot => exact Int.le_antisymm hle (Int.not_lt.mp hnot)

theorem upTo_of_indentOf_le (h : indentOf blocks ≤ column) : upTo column blocks = blocks := by
  cases blocks with
  | nil => rfl
  | cons b blocks => exact (upTo_cons ..).trans (if_neg (Int.not_lt.mpr h))

theorem closing_of_indentOf_le (h : indentOf blocks ≤ column) : closing column blocks = [] := by
  cases blocks with
  | nil => rfl
  | cons b blocks => exact (closing_cons ..).trans (if_neg (Int.not_lt.mpr h))

/-- A mark takes its character. -/
theorem mark_spec {ch : Char} {x : List Char} (hp : l.StandsAt ⟨ch :: x, column, blocks, keyAllowed⟩)
    (hq : l.Offers q) (hch : Cursor.isInline ch = true) (t : Token) :
    (l.mark t).StandsAt ⟨x, column + 1, blocks, keyAllowed⟩ ∧ (l.mark t).Offers (q ++ [t]) := by
  have hnext := Cursor.next_inline hp.rest hch
  have hroom := hp.room
  simp only [List.length_cons] at hroom
  have hoffers := hq.push t
  refine ⟨⟨?_, ?_, hp.indent, hp.indents, hp.keyAllowed, hp.going, by simp only [mark, moveTo, push]; omega⟩,
    hoffers.keys, hoffers.queue, hoffers.count⟩
  · simp only [mark, moveTo, hnext]
  · simp only [mark, moveTo, hnext, hp.column]

theorem exists_beginBlock {x : List Char} (hp : l.StandsAt ⟨x, column, blocks, true⟩) (hq : l.Offers q)
    (t : Token) :
    ∃ m : Lexer, l.beginBlock t = .ok m ∧ m.StandsAt ⟨x, column, opened column blocks, true⟩ ∧
      m.Offers (q ++ opening t column blocks) := by
  have hkey : l.keyAllowed = true := hp.keyAllowed
  have hcolumn : l.cursor.column = column := hp.column
  have hindent : l.indent = indentOf blocks := hp.indent
  simp only [beginBlock, hq.inFlow, hkey, indentTo, hcolumn, hindent, opened, opening]
  by_cases hdeeper : indentOf blocks < column
  · let inner : Lexer := { l with indents := indentOf blocks :: l.indents, indent := column }
    have hinner : inner.Offers q := ⟨hq.keys, hq.queue, hq.count⟩
    refine ⟨inner.push t, ?_, ?_, ?_⟩
    · simp only [if_pos hdeeper, inner, hkey]
      rfl
    · rw [if_pos hdeeper]
      refine ⟨hp.rest, hcolumn, rfl, ?_, hkey, hp.going, hp.room⟩
      exact congrArg (indentOf blocks :: ·) hp.indents
    · rw [if_pos hdeeper]
      exact hinner.push t
  · refine ⟨l, ?_, ?_, ?_⟩
    · simp only [if_neg hdeeper]
      rfl
    · rw [if_neg hdeeper]
      exact hp
    · rw [if_neg hdeeper, List.append_nil]
      exact hq

/-- The dash of an item. -/
theorem reads_entry {y : List Char} (hskip : Skips p ⟨'-' :: ' ' :: y, column, blocks, true⟩)
    (h : Reads ⟨' ' :: y, column + 1, opened column (upTo column blocks), true⟩ ts) :
    Reads p (closing column blocks ++ opening .blockSequence column (upTo column blocks) ++ [.blockEntry]
      ++ ts) := by
  refine reads_of_step (by simp) fun l hp hq => ?_
  obtain ⟨m, hstep, hstands, hoffers⟩ := exists_step hskip hp hq
  obtain ⟨m', hbegin, hstands', hoffers'⟩ := exists_beginBlock hstands hoffers .blockSequence
  have hallowed : { m' with keyAllowed := true } = m' := by
    rw [← show m'.keyAllowed = true from hstands'.keyAllowed]
  obtain ⟨hmark, hqueue⟩ := mark_spec hstands' hoffers' (by decide) .blockEntry
  refine ⟨m'.mark .blockEntry, ?_, hqueue, fun ready recent taken hnone => h _ ?_ hnone⟩
  · rw [hstep, token_entry hstands.rest, blockEntry, hbegin]
    simp only [bind, Except.bind, hallowed, hoffers'.dropKey]
    rfl
  · exact ⟨hmark.rest, hmark.column, hmark.indent, hmark.indents, hmark.keyAllowed, hmark.going, hmark.room⟩

/-- A word of letters, short enough to be a key. -/
def IsWord (w : List Char) : Prop := w ≠ [] ∧ w.length ≤ 1024 ∧ w.all Char.isAlpha = true

instance : DecidablePred IsWord := fun w => inferInstanceAs (Decidable (w ≠ [] ∧ _))

theorem IsWord.ne_of_mem {w : List Char} (hw : IsWord w) {ch mark : Char} (hch : ch ∈ w)
    (hmark : mark.isAlpha = false) : ch ≠ mark := by
  rintro rfl
  rw [List.all_eq_true.mp hw.2.2 ch hch] at hmark
  cases hmark

theorem IsWord.chars {w : List Char} (hw : IsWord w) : ∀ ch ∈ w, isWhite ch = false ∧ ch ≠ ':' ∧ ch ≠ '#' := by
  intro ch hch
  have hne : ∀ mark : Char, mark.isAlpha = false → ch ≠ mark := fun _ => hw.ne_of_mem hch
  refine ⟨?_, hne ':' (by decide), hne '#' (by decide)⟩
  simp [isWhite, isBreak, hne _ (show Char.isAlpha ' ' = false by decide), hne '\t' (by decide),
    hne '\n' (by decide), hne '\r' (by decide), hne '\u0085' (by decide),
    hne '\u2028' (by decide), hne '\u2029' (by decide)]

theorem IsWord.isInline {w : List Char} (hw : IsWord w) : ∀ ch ∈ w, Cursor.isInline ch = true := by
  intro ch hch
  have hwhite := (hw.chars ch hch).1
  simp only [isWhite, Bool.or_eq_false_iff] at hwhite
  simp [Cursor.isInline, hwhite.2, hw.ne_of_mem hch (show Char.isAlpha '\uFEFF' = false by decide)]

theorem IsWord.startsPlain {w : List Char} (hw : IsWord w) (x : List Char) : StartsPlain (w ++ x) := by
  obtain ⟨ch, rest, rfl⟩ := List.exists_cons_of_ne_nil hw.1
  have hne : ∀ mark : Char, mark.isAlpha = false → ch ≠ mark := fun _ => hw.ne_of_mem List.mem_cons_self
  refine ⟨ch, rest ++ x, rfl, (hw.chars ch List.mem_cons_self).1, ?_, fun hmarks => ?_⟩
  · have hmarks : ("#,[]\x7b\x7d&*!|>'\"%@`".toList.all fun mark => !mark.isAlpha) = true := by decide
    rw [List.contains_eq_mem, decide_eq_false_iff_not]
    exact fun hmem => hne ch (by simpa using List.all_eq_true.mp hmarks ch hmem) rfl
  · rcases hmarks with h | h | h <;> exact absurd h (hne _ (by decide))

theorem IsWord.beginsToken {w x : List Char} (hw : IsWord w) : BeginsToken (w ++ x) :=
  (hw.startsPlain x).beginsToken

/-- A word is held back, as the colon behind it is not read yet. -/
theorem exists_word {y w : List Char} (hw : IsWord w) (hy : whiteOrEnd y.head? = true)
    (hskip : Skips p ⟨w ++ ':' :: y, column, blocks, true⟩) (hcolumn : column ≠ 0) (hp : l.StandsAt p)
    (hq : l.Offers []) :
    ∃ l', l.step = .ok l' ∧ l'.StandsAt ⟨':' :: y, column + w.length, upTo column blocks, false⟩ ∧
      l'.Holds (closing column blocks) w column := by
  obtain ⟨m, hstep, hstands, hoffers⟩ := exists_step hskip hp hq
  have hrest : m.cursor.rest = w ++ ':' :: y := hstands.rest
  have hplace : m.cursor.column = column := hstands.column
  have hallowed : m.keyAllowed = true := hstands.keyAllowed
  have hroom : (w ++ ':' :: y).length < m.size := hstands.room
  have hskipped := Cursor.skip_inline hrest hw.isInline
  -- noted in case a colon follows
  let k : PendingKey :=
    { number := m.count, required := m.indent == (m.cursor.column : Int), index := m.cursor.index
      line := m.cursor.line, column := m.cursor.column }
  have hsave : m.saveKey = .ok { m with keys := [some k] } := by
    rw [saveKey, if_pos hallowed, hoffers.dropKey]
    simp only [bind, Except.bind, hoffers.inFlow, hoffers.keys, Bool.not_false, Bool.true_and]
    rfl
  have htoken : m.token m.size = .ok
      (({ m with keys := [some k], keyAllowed := false } : Lexer).push (.scalar w true)
        |>.moveTo (m.cursor.skip w.length)) := by
    have hstarts : StartsPlain m.cursor.rest := hrest ▸ hw.startsPlain (':' :: y)
    rw [token_plain hoffers.inFlow hstarts (by rw [hplace]; exact hcolumn), plainScalar, hsave]
    have hplain : ∀ indent : Int, Scalar.plain false indent m.size [] false m.cursor
        = (w, m.cursor.skip w.length, false) :=
      fun _ => plain_key (Nat.zero_lt_of_lt hroom) hrest hy hw.1 hw.chars
    simp only [bind, Except.bind, inFlow, List.length_singleton, gt_iff_lt, lt_irrefl, decide_false, hplain]
    rfl
  refine ⟨_, hstep.trans htoken, ?_, ?_⟩
  · refine ⟨?_, ?_, hstands.indent, hstands.indents, rfl, hstands.going, ?_⟩
    · simp only [moveTo, hskipped]
    · simp only [moveTo, hskipped, hplace]
    · simp only [List.length_append, moveTo, push] at hroom ⊢
      omega
  · have hcount := hoffers.count
    refine ⟨⟨k, rfl, hcount, hplace, ?_⟩, ?_, ?_⟩
    · have hshort := hw.2.1
      simp only [isStale, moveTo, hskipped, k]
      simp
      omega
    · have hqueue := hoffers.queue
      simp only [queue] at hqueue
      simp [queue, moveTo, push, ← hqueue]
    · simp only [moveTo, push]
      omega

/-- Tokens are put before the only one that is read and not handed out. -/
theorem exists_insertAt {s : Token} (hqueue : l.queue = [s]) (hcount : l.count = l.taken + 1)
    (ts : List Token) :
    ∃ ready recent, l.insertAt l.taken ts = { l with ready, recent, count := l.count + ts.length } ∧
      ready ++ recent.reverse = ts ++ [s] := by
  rw [queue] at hqueue
  unfold insertAt
  simp only [Nat.sub_self, hcount, Nat.add_sub_cancel_left]
  cases hready : l.ready with
  | nil =>
    rw [hready, List.nil_append, List.reverse_eq_cons_iff] at hqueue
    refine ⟨[], s :: ts.reverse, ?_, by simp⟩
    simp [hqueue]
  | cons r ready =>
    rw [hready] at hqueue
    obtain ⟨rfl, hnone⟩ := List.cons.inj hqueue
    obtain ⟨rfl, hrecent⟩ := List.append_eq_nil_iff.mp hnone
    exact ⟨ts ++ [r], l.recent, by simp, by rw [hrecent, List.append_nil]⟩

/-- The word held back becomes a key. What it begins goes before it in the queue, and the block and the queue
change together, according to whether the key is deeper than the block. -/
theorem exists_valueMark {w : List Char} (hindent : l.indent = indentOf blocks)
    (hindents : l.indents = indentsOf blocks) (hheld : l.Holds [] w column) :
    ∃ ready recent, l.valueMark = .ok (({ l with
        keys := [none], keyAllowed := false, indent := indentOf (opened column blocks)
        indents := indentsOf (opened column blocks), ready, recent
        count := l.count + ((opening .blockMapping column blocks).length + 1) } : Lexer).mark .value) ∧
      ready ++ recent.reverse = opening .blockMapping column blocks ++ [.key] ++ [.scalar w true] := by
  obtain ⟨k, hkeys, hnumber, hcolumn, -⟩ := hheld.keys
  rw [valueMark, hkeys]
  simp only [inFlow, List.length_singleton, gt_iff_lt, lt_irrefl, decide_false, indentTo, hindent, hcolumn,
    hnumber, List.length_nil, Nat.add_zero, Bool.false_eq_true, if_false, opening, opened]
  by_cases hdeeper : indentOf blocks < column
  · let inner : Lexer :=
      { l with keys := [none], keyAllowed := false, indents := indentOf blocks :: l.indents, indent := column }
    obtain ⟨ready, recent, hinsert, hqueue⟩ :=
      exists_insertAt (l := inner) hheld.queue hheld.count [.blockMapping, .key]
    refine ⟨ready, recent, ?_, by rw [hqueue, if_pos hdeeper]; rfl⟩
    simp only [if_pos hdeeper]
    rw [show (inner.insertAt l.taken [.blockMapping, .key]) = _ from hinsert]
    simp only [inner, hindents]
    rfl
  · let outer : Lexer := { l with keys := [none], keyAllowed := false, indent := indentOf blocks }
    obtain ⟨ready, recent, hinsert, hqueue⟩ := exists_insertAt (l := outer) hheld.queue hheld.count [.key]
    refine ⟨ready, recent, ?_, by rw [hqueue, if_neg hdeeper]; rfl⟩
    simp only [if_neg hdeeper]
    rw [show (outer.insertAt l.taken [.key]) = _ from hinsert]
    simp only [outer, hindents]
    rfl

/-- At the colon the word becomes a key, and perhaps the first one of a mapping. -/
theorem exists_colon {y w : List Char} (hy : whiteOrEnd y.head? = true) {place : Nat}
    (hp : l.StandsAt ⟨':' :: y, place, blocks, false⟩) (hindent : indentOf blocks ≤ place)
    (hheld : l.Holds [] w column) :
    ∃ l', l.step = .ok l' ∧ l'.StandsAt ⟨y, place + 1, opened column blocks, false⟩ ∧
      l'.Offers (opening .blockMapping column blocks ++ [.key, .scalar w true, .value]) := by
  have hrest : l.cursor.rest = ':' :: y := hp.rest
  have hplace : l.cursor.column = place := hp.column
  have hinner : l.indent = indentOf blocks := hp.indent
  have hstep : l.step = l.valueMark := by
    have hsize : l.size = l.size - 1 + 1 := by
      have := hp.room
      omega
    -- there is no blank to pass over, and the colon is deep enough for no block to end
    have hskipped : skipToToken l.size l = l := by
      rw [hsize, skipToToken_blanks (n := 0) ⟨.cons (by decide) y, by simp⟩ hrest]
      rfl
    have hclosed : l.unwind place = l := by
      rw [unwind]
      split
      · rfl
      · cases hindents : l.indents with
        | nil => rfl
        | cons outer rest => rw [closeBlocks, if_neg (by rw [hinner]; omega)]
    rw [step, hskipped, dropStaleKeys_of_fresh hheld.fresh]
    simp only [bind, Except.bind, hplace, hclosed]
    exact token_colon hrest hy _
  obtain ⟨ready, recent, hvalue, hqueue⟩ := exists_valueMark hinner hp.indents hheld
  have hnext := Cursor.next_inline hrest (by decide)
  have hroom := hp.room
  simp only [List.length_cons] at hroom
  refine ⟨_, hstep.trans hvalue, ?_, ?_⟩
  · refine ⟨?_, ?_, rfl, rfl, rfl, hp.going, by simp only [mark, moveTo, push]; omega⟩
    · simp only [mark, moveTo, hnext]
    · simp only [mark, moveTo, hnext, hplace]
  · have hcount := hheld.count
    refine ⟨rfl, ?_, ?_⟩
    · rw [queue]
      simp only [mark, moveTo, push, List.reverse_cons]
      rw [← List.append_assoc, hqueue]
      simp
    · simp only [mark, moveTo, push, hcount, List.length_append, List.length_cons, List.length_nil]
      omega

/-- A key and its colon. -/
theorem reads_key {w y : List Char} (hw : IsWord w) (hy : whiteOrEnd y.head? = true)
    (hskip : Skips p ⟨w ++ ':' :: y, column, blocks, true⟩) (hcolumn : column ≠ 0)
    (h : Reads ⟨y, column + w.length + 1, opened column (upTo column blocks), false⟩ ts) :
    Reads p (closing column blocks ++
      (opening .blockMapping column (upTo column blocks) ++ [.key, .scalar w true, .value] ++ ts)) := by
  refine reads_of_steps (by simp) (fun l hp hq => exists_word hw hy hskip hcolumn hp hq) ?_ h
  intro l hp hheld
  refine exists_colon hy hp ?_ hheld
  have := indentOf_upTo_le column blocks
  omega

/-- A value stands deeper than its block, so no block ends before it. -/
theorem exists_value {x : List Char} (hskip : Skips p ⟨x, column, blocks, keyAllowed⟩)
    (hindent : indentOf blocks < column) (hp : l.StandsAt p) (hq : l.Offers []) :
    ∃ m : Lexer, l.step = m.token m.size ∧ m.StandsAt ⟨x, column, blocks, keyAllowed⟩ ∧ m.Offers [] := by
  obtain ⟨m, hstep, hstands, hoffers⟩ := exists_step hskip hp hq
  rw [upTo_of_indentOf_le (Int.le_of_lt hindent)] at hstands
  rw [closing_of_indentOf_le (Int.le_of_lt hindent)] at hoffers
  exact ⟨m, hstep, hstands, hoffers⟩

theorem saveKey_of_keyAllowed_eq_false (h : l.keyAllowed = false) : l.saveKey = .ok l := by
  rw [saveKey, h]
  rfl

/-- A plain value; the reader has come to the next line behind it. -/
theorem reads_plain {n k : Nat} {t x : List Char} (ht : Plainly t)
    (hskip : Skips p ⟨Writer.plain k false t ++ '\n' :: (List.replicate n ' ' ++ x), column, blocks, false⟩)
    (hcolumn : column ≠ 0) (hindent : indentOf blocks < column)
    (hstarts : StartsPlain (Writer.plain k false t ++ '\n' :: (List.replicate n ' ' ++ x)))
    (hmargin : ' ' ∈ t → indentOf blocks < Writer.margin) (hn : (n : Int) ≤ indentOf blocks)
    (hx : BeginsSeen x) (hdivider : ∀ d : Cursor, d.rest = List.replicate n ' ' ++ x → d.atDivider = false)
    (h : Reads ⟨x, n, blocks, true⟩ ts) : Reads p (.scalar t true :: ts) := by
  refine reads_of_step (List.cons_ne_nil _ []) fun l hp hq => ?_
  obtain ⟨m, hstep, hstands, hoffers⟩ := exists_value hskip hindent hp hq
  have hplace : m.cursor.column = column := hstands.column
  have hinner : m.indent = indentOf blocks := hstands.indent
  have hrest := hstands.rest
  have hroom : m.cursor.rest.length < m.size := by rw [hrest]; exact hstands.room
  have hdeeper : (n : Int) < m.indent + 1 := by omega
  obtain ⟨c, hplain, hafter, hcolumn'⟩ := plain_write hdeeper hx hdivider m.size ht
    (fun hblank => by rw [hinner]; exact hmargin hblank) k [] false hrest hroom (by omega)
  have hpushed := hoffers.push (.scalar t true)
  refine ⟨({ m with keyAllowed := true }.push (.scalar t true)).moveTo c, ?_,
    ⟨hpushed.keys, hpushed.queue, hpushed.count⟩, fun ready recent taken hnone => h _ ?_ hnone⟩
  · rw [hstep, token_plain hoffers.inFlow (hrest ▸ hstarts) (by rw [hplace]; exact hcolumn), plainScalar,
      saveKey_of_keyAllowed_eq_false hstands.keyAllowed]
    simp only [bind, Except.bind, hoffers.inFlow, hplain]
    rfl
  · refine ⟨hafter, hcolumn', hstands.indent, hstands.indents, rfl, hstands.going, ?_⟩
    rw [hrest] at hroom
    simp only [List.length_append, List.length_cons] at hroom
    simp only [moveTo, push]
    omega

/-- A quoted value; the reader stands right behind it. -/
theorem reads_quoted {double : Bool} {t written x : List Char}
    (hskip : Skips p ⟨(if double then '"' else '\x27') :: written, column, blocks, false⟩)
    (hcolumn : column ≠ 0) (hindent : indentOf blocks < column) (hquotes : Quotes double written t x)
    (hx : x.length ≤ written.length) (h : ∀ column, Reads ⟨x, column, blocks, false⟩ ts) :
    Reads p (.scalar t false :: ts) := by
  refine reads_of_step (List.cons_ne_nil _ []) fun l hp hq => ?_
  obtain ⟨m, hstep, hstands, hoffers⟩ := exists_value hskip hindent hp hq
  have hplace : m.cursor.column = column := hstands.column
  have hrest : m.cursor.rest = (if double then '"' else '\x27') :: written := hstands.rest
  have hroom : written.length + 1 < m.size := hstands.room
  obtain ⟨c, hquoted, hafter⟩ := hquotes m.size m.cursor.next (by rw [Cursor.rest_next, hrest]; rfl) (by omega)
  have hpushed := hoffers.push (.scalar t false)
  refine ⟨({ m with keyAllowed := false }.push (.scalar t false)).moveTo c, ?_,
    ⟨hpushed.keys, hpushed.queue, hpushed.count⟩, fun ready recent taken hnone => h c.column _ ?_ hnone⟩
  · rw [hstep, token_quote hrest (by rw [hplace]; exact hcolumn), quotedScalar, keyLike,
      saveKey_of_keyAllowed_eq_false hstands.keyAllowed]
    simp only [bind, Except.bind, hquoted]
    rfl
  · refine ⟨hafter, rfl, hstands.indent, hstands.indents, rfl, hstands.going, ?_⟩
    simp only [moveTo, push]
    omega

/-- The end of the text ends every block. -/
theorem reads_end (hskip : Skips p ⟨[], column, blocks, keyAllowed⟩) :
    Reads p (closing column blocks ++ closing (-1) (upTo column blocks) ++ [.streamEnd]) := by
  rw [← List.append_nil (_ ++ [_])]
  refine reads_of_step (by simp) fun l hp hq => ?_
  obtain ⟨m, hstep, hstands, hoffers⟩ := exists_step hskip hp hq
  obtain ⟨-, hclosed, -, -⟩ := closeBlocks_spec (-1) hstands hoffers
  let m' := closeBlocks (-1) m.indents m
  have houter : m.outermost = .ok { m' with keyAllowed := false } := by
    rw [outermost, unwind, hoffers.inFlow, if_neg Bool.false_ne_true, hclosed.dropKey]
    rfl
  have hpushed := hclosed.push .streamEnd
  refine ⟨{ ({ m' with keyAllowed := false } : Lexer).push .streamEnd with done := true }, ?_,
    ⟨hpushed.keys, hpushed.queue, hpushed.count⟩, fun _ _ _ _ => .nil _⟩
  have hrest : m.cursor.rest = [] := hstands.rest
  rw [hstep, token, Cursor.peek, hrest]
  simp only [List.head?_nil, bind, Except.bind, houter]
  rfl

end Lines

/-- Where the lexer stands before a text without a byte order mark. -/
theorem ofChars_spec {cs : List Char} (hcs : cs.head? ≠ some '\uFEFF') :
    (ofChars cs).StandsAt ⟨cs, 0, [], true⟩ ∧ (ofChars cs).Offers [] := by
  have hpeek : (({ rest := cs } : Cursor).peek == some '\uFEFF') = false := by
    simpa [Cursor.peek] using hcs
  unfold ofChars
  simp only [hpeek, Bool.false_eq_true, if_false]
  exact ⟨⟨rfl, rfl, rfl, rfl, rfl, rfl, Nat.lt_succ_self _⟩, ⟨rfl, rfl, rfl⟩⟩

end Lexer

end CommentStyle.Yaml
