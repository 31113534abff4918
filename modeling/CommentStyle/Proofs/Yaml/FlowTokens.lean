import CommentStyle.Proofs.Yaml.BareWords
import CommentStyle.Proofs.Yaml.LookAhead
import CommentStyle.Proofs.Yaml.Scanning

/-!
# The tokens of flow collections

One lemma for each kind of token that a flow collection is made of. Each says where a step leads to from a spot
with blanks before the token, or that there is a fault.

* **`goes_open`**, **`goes_close`**, **`goes_entry`** — brackets, braces and commas.
* **`goes_quoted`**, **`goes_plain`** — scalars. Behind a plain one the lexer has passed over the blanks.
* **`goes_colon`**, **`goes_colon_stale`** — a colon makes a key of what stands before it, if that is not too
  far behind; otherwise it is a value without a key.
* **`run_end`** — the end of the text.
* **`stops_tab`**, **`stops_quoted`** — a tab between tokens is a fault, and so is a scalar that cannot be read.
-/

namespace CommentStyle.Yaml

/-! ## Cursors on their way -/

namespace Cursor

theorem next_eq_self {c : Cursor} (h : c.rest = []) : c.next = c := by
  rw [next, h]

theorem skip_eq_self {c : Cursor} (h : c.rest = []) (n : Nat) : c.skip n = c := by
  induction n with
  | zero => rfl
  | succ n ih => rw [skip, next_eq_self h, ih]

/-- Where a cursor comes to is known from what is left. -/
theorem skip_eq_of_rest {c : Cursor} {w x : List Char} {n : Nat} (hc : c.rest = w ++ x)
    (hn : (c.skip n).rest = x) : c.skip n = c.skip w.length := by
  have hlength := congrArg List.length hn
  rw [rest_skip, hc, List.length_drop, List.length_append] at hlength
  by_cases hle : w.length ≤ n
  · obtain ⟨k, rfl⟩ := Nat.exists_eq_add_of_le hle
    rw [skip_add]
    cases k with
    | zero => rfl
    | succ k =>
      refine skip_eq_self ?_ _
      rw [rest_skip, hc, List.drop_left]
      exact List.eq_nil_of_length_eq_zero (by omega)
  · omega

theorem index_next_le (c : Cursor) : c.index ≤ c.next.index ∧ c.line ≤ c.next.line := by
  unfold next
  split
  · exact ⟨le_rfl, le_rfl⟩
  · split <;> exact ⟨by simp, by simp⟩

theorem le_skip (c : Cursor) (n : Nat) : c.index ≤ (c.skip n).index ∧ c.line ≤ (c.skip n).line := by
  induction n generalizing c with
  | zero => exact ⟨le_rfl, le_rfl⟩
  | succ n ih => exact ⟨c.index_next_le.1.trans (ih _).1, c.index_next_le.2.trans (ih _).2⟩

theorem next_of_cons {c : Cursor} {ch : Char} {x : List Char} (hc : c.rest = ch :: x) (hreturn : ch ≠ '\r') :
    c.next.index = c.index + 1 ∧ c.next.line = c.line + if isBreak ch then 1 else 0 := by
  unfold next
  rw [hc]
  have hreturn : (ch == '\r') = false := by simpa using hreturn
  cases hbreak : isBreak ch <;> simp [hbreak, hreturn]

/-- Each line break begins a line. -/
theorem skip_index_line {c : Cursor} {w x : List Char} (hc : c.rest = w ++ x) (hw : '\r' ∉ w) :
    (c.skip w.length).index = c.index + w.length ∧
      (c.skip w.length).line = c.line + w.countP isBreak := by
  induction w generalizing c with
  | nil => exact ⟨rfl, rfl⟩
  | cons ch w ih =>
    obtain ⟨hindex, hline⟩ := next_of_cons hc fun h => hw (h ▸ List.mem_cons_self)
    obtain ⟨hindex', hline'⟩ := ih (c := c.next) (by rw [rest_next, hc]; rfl) fun h => hw (List.mem_cons_of_mem ch h)
    rw [List.length_cons, skip, hindex', hline', hindex, hline, List.countP_cons]
    constructor <;> omega

end Cursor

/-- The token at a spot as a pending key. Outside of blocks no key is required. -/
def Spot.pending (s : Spot) : PendingKey :=
  { number := s.tokens.length, required := false, index := s.cursor.index, line := s.cursor.line
    column := s.cursor.column }

/-- The pending key of the innermost level, once the token at the spot was noted. -/
def Spot.saved (s : Spot) (top : Option PendingKey) : Option PendingKey :=
  if s.keyAllowed then some s.pending else top

/-- The spot behind a gap. -/
def Spot.behind (s : Spot) (n : Nat) (b : Bool) : Spot := { s with cursor := s.cursor.skip n, keyAllowed := b }

namespace Lexer

variable {l m : Lexer} {s : Spot} {blanks x : List Char}

/-- A key that is too far behind stays so. -/
theorem isStale_mono {c d : Cursor} {k : PendingKey} (hindex : c.index ≤ d.index) (hline : c.line ≤ d.line)
    (hk : k.line ≤ c.line) (h : isStale c k = true) : isStale d k = true := by
  simp only [isStale, ne_eq, Bool.or_eq_true, decide_eq_true_eq] at h ⊢
  omega

/-- Keys of these lines are told apart by their lines. -/
def Above (c : Cursor) (k : Option PendingKey) : Prop := ∀ p, k = some p → p.line ≤ c.line

theorem any_isStale_mono {c : Cursor} {k : Option PendingKey} (hk : Above c k) (n : Nat)
    (h : k.any (isStale c) = true) : k.any (isStale (c.skip n)) = true := by
  cases k with
  | none => cases h
  | some k => exact isStale_mono (c.le_skip n).1 (c.le_skip n).2 (hk k rfl) h

theorem Kept.mono {c : Cursor} {noted k : Option PendingKey} (h : Kept c noted k) (hk : Above c k) (n : Nat) :
    Kept (c.skip n) noted k :=
  h.imp_right fun h => ⟨h.1, any_isStale_mono hk n h.2⟩

theorem kept_fresh {c : Cursor} {k : Option PendingKey} (hk : Above c k) (n : Nat) :
    Kept (c.skip n) (fresh c k) k := by
  have hkept : Kept c k k := .inl rfl
  exact hkept.fresh.1.mono hk n

/-! ## Between tokens -/

/-- Blanks that are passed over; a tab is none. -/
def IsGap (blanks : List Char) : Prop := ∀ b ∈ blanks, b = ' ' ∨ b = '\n'

theorem IsGap.nil : IsGap [] := fun _ hb => absurd hb List.not_mem_nil

/-- What ends a gap. -/
def EndsGap (x : List Char) : Prop := ∀ ch ∈ x.head?, ch ≠ ' ' ∧ isBreak ch = false ∧ ch ≠ '#'

theorem lineBreak?_newline {c : Cursor} (hc : c.rest = '\n' :: x) : c.lineBreak? = some ('\n', c.next) := by
  simp [Cursor.lineBreak?, hc, isBreak]

theorem skipSpaces_eq {c : Cursor} {spaces : List Char} (hc : c.rest = spaces ++ x)
    (hspaces : ∀ b ∈ spaces, (b == ' ') = true) (hx : ∀ ch ∈ x.head?, (ch == ' ') = false) :
    c.skipSpaces = c.skip spaces.length := by
  rw [Cursor.skipSpaces, Cursor.skipWhile, Cursor.span_append hc hspaces hx]

/-- A gap is passed over. Behind a line break a key may begin, in a block. -/
theorem exists_skipToToken_gap {fuel : Nat} (hblanks : IsGap blanks) (hrest : l.cursor.rest = blanks ++ x)
    (hx : EndsGap x) (hfuel : blanks.length < fuel) :
    ∃ b, skipToToken fuel l = { l with cursor := l.cursor.skip blanks.length, keyAllowed := b } ∧
      (l.inFlow = true ∨ l.keyAllowed = true → b = l.keyAllowed) := by
  induction fuel generalizing l blanks with
  | zero => exact absurd hfuel (Nat.not_lt_zero _)
  | succ fuel ih =>
    obtain ⟨spaces, more, rfl, hspaces, hmore⟩ := exists_span (· == ' ') blanks
    rw [List.append_assoc] at hrest
    cases more with
    | nil =>
      -- the gap ends on this line
      rw [List.nil_append] at hrest
      have hskip := skipSpaces_eq hrest hspaces fun ch hch => by simpa using (hx ch hch).1
      have hafter : (l.cursor.skip spaces.length).rest = x := by rw [Cursor.rest_skip, hrest, List.drop_left]
      have hpeek : ((l.cursor.skip spaces.length).peek == some '#') = false := by
        rw [Cursor.peek, hafter]
        simpa using fun h => (hx '#' h).2.2 rfl
      have hbreak : (l.cursor.skip spaces.length).lineBreak? = none :=
        Cursor.lineBreak?_eq_none fun ch hch => (hx ch (hafter ▸ hch)).2.1
      refine ⟨l.keyAllowed, ?_, fun _ => rfl⟩
      rw [skipToToken, hskip, hpeek, if_neg Bool.false_ne_true]
      simp only [hbreak, moveTo, List.append_nil]
    | cons b more =>
      -- a line ends, and the gap goes on
      obtain rfl : b = '\n' := by
        refine (hblanks b (List.mem_append_right spaces List.mem_cons_self)).resolve_left fun hb => ?_
        simpa [hb] using hmore b rfl
      have hskip := skipSpaces_eq hrest hspaces fun ch hch => by cases hch; rfl
      have hafter : (l.cursor.skip spaces.length).rest = '\n' :: (more ++ x) := by
        rw [Cursor.rest_skip, hrest, List.drop_left]
        rfl
      have hpeek : ((l.cursor.skip spaces.length).peek == some '#') = false := by
        rw [Cursor.peek, hafter]
        rfl
      let l' : Lexer :=
        { l with cursor := (l.cursor.skip spaces.length).next, keyAllowed := l.keyAllowed || !l.inFlow }
      have hgap : IsGap more := fun c hc => hblanks c (List.mem_append_right spaces (List.mem_cons_of_mem _ hc))
      obtain ⟨b, hb, hsame⟩ := ih (l := l') hgap (by rw [Cursor.rest_next, hafter]; rfl) (by
        rw [List.length_append, List.length_cons] at hfuel
        omega)
      refine ⟨b, ?_, fun hflow => ?_⟩
      · rw [skipToToken, hskip, hpeek, if_neg Bool.false_ne_true]
        simp only [lineBreak?_newline hafter]
        rw [hb]
        simp only [l', List.length_append, List.length_cons, Nat.add_comm more.length, Cursor.skip_add]
        rfl
      · have hallowed : l'.keyAllowed = l.keyAllowed := by
          rcases hflow with h | h <;> simp [l', h]
        rw [hsame (hflow.imp (fun h => h) fun h => by rw [hallowed, h]), hallowed]

/-- What is left of a gap of which a part was passed over. -/
theorem exists_gap_append {passed rest : List Char} (hpassed : IsGap passed) (hx : EndsGap x)
    (heq : passed ++ rest = blanks ++ x) : ∃ more, blanks = passed ++ more ∧ rest = more ++ x := by
  rcases List.append_eq_append_iff.mp heq with ⟨more, hmore, hrest⟩ | ⟨more, hmore, hrest⟩
  · exact ⟨more, hmore, hrest⟩
  · cases more with
    | nil => exact ⟨[], by simpa using hmore.symm, by simpa using hrest.symm⟩
    | cons ch more =>
      -- the gap ends before `ch`, which belongs to it
      have hch := hpassed ch (by rw [hmore]; simp)
      have hend := hx ch (by rw [hrest]; rfl)
      rcases hch with rfl | rfl
      · exact absurd rfl hend.1
      · exact absurd hend.2.1 (by decide)

theorem At.inFlow (h : l.At s) : l.inFlow = decide (1 < s.keys.length) := by
  rw [Lexer.inFlow, h.keys.length_eq]

theorem At.above (h : l.At s) (n : Nat) : ∀ k ∈ s.keys, Above (s.cursor.skip n) k := by
  rintro k hk p rfl
  exact (h.harmless p hk).2.trans (s.cursor.le_skip n).2

theorem At.harmless_skip (h : l.At s) (n : Nat) {k : PendingKey} (hk : some k ∈ s.keys) :
    k.required = false ∧ k.line ≤ (s.cursor.skip n).line :=
  ⟨(h.harmless k hk).1, h.above n _ hk k rfl⟩

/-- What is noted of the keys further on. -/
theorem forall₂_kept_mono {c : Cursor} {noted ks : List (Option PendingKey)} (h : List.Forall₂ (Kept c) noted ks)
    (hks : ∀ k ∈ ks, Above c k) (n : Nat) : List.Forall₂ (Kept (c.skip n)) noted ks := by
  induction h with
  | nil => exact .nil
  | @cons a k noted ks hkept _ ih =>
    exact .cons (hkept.mono (hks k List.mem_cons_self) n) (ih fun j hj => hks j (List.mem_cons_of_mem k hj))

theorem map_fresh_eq {c : Cursor} {noted ks : List (Option PendingKey)} (h : List.Forall₂ (Kept c) noted ks) :
    noted.map (fresh c) = ks.map (fresh c) := by
  induction h with
  | nil => rfl
  | cons hkept _ ih => rw [List.map_cons, List.map_cons, hkept.fresh.2, ih]

/-- A step passes over the gap and gives up the keys that are too far behind; then it reads the token. -/
theorem At.exists_token (h : l.At s) (hblanks : IsGap blanks) (hrest : s.cursor.rest = blanks ++ x)
    (hx : EndsGap x) :
    ∃ (m : Lexer) (b : Bool), l.step = m.token m.size ∧ m.cursor = s.cursor.skip blanks.length ∧
      m.keys = s.keys.map (fresh m.cursor) ∧ m.taken = l.taken ∧ m.At (s.behind blanks.length b) ∧
      (1 < s.keys.length ∨ s.keyAllowed = true → b = s.keyAllowed) := by
  obtain ⟨passed, hpassed, hplace, hcursor⟩ := h.cursor
  obtain ⟨more, rfl, hmore⟩ := exists_gap_append hpassed hx (hplace.symm.trans hrest)
  have hgap : IsGap more := fun c hc => hblanks c (List.mem_append_right passed hc)
  have hroom := h.room
  have hfuel : more.length < l.size := by
    rw [hrest] at hroom
    simp only [List.length_append] at hroom
    omega
  obtain ⟨b, hskip, hsame⟩ := exists_skipToToken_gap hgap hmore hx hfuel
  have hend : l.cursor.skip more.length = s.cursor.skip (passed ++ more).length := by
    rw [hcursor, List.length_append, Cursor.skip_add]
  -- the lexer behind the whole gap, of which a part was passed over before
  let l₁ : Lexer := { l with cursor := s.cursor.skip (passed ++ more).length, keyAllowed := b }
  have hl₁ : l₁.At (s.behind (passed ++ more).length b) := by
    refine ⟨⟨[], by simp, rfl, rfl⟩, h.indent, h.indents, rfl, ?_, fun k hk => ?_, h.ahead, h.going, h.taken,
      h.queue, h.count, ?_⟩
    · have habove := h.above passed.length
      rw [← hcursor] at habove
      show List.Forall₂ (Kept (s.cursor.skip (passed ++ more).length)) l.keys s.keys
      rw [← hend]
      exact forall₂_kept_mono h.keys habove _
    · exact h.harmless_skip _ hk
    · show (s.cursor.skip (passed ++ more).length).rest.length < l.size
      rw [Cursor.rest_skip, List.length_drop]
      omega
  refine ⟨{ l₁ with keys := l₁.keys.map (fresh l₁.cursor) }, b, ?_, rfl, map_fresh_eq hl₁.keys, rfl,
    hl₁.map_fresh, fun hflow => ?_⟩
  · have hdrop := hl₁.dropStaleKeys
    rw [step, hskip, hend, hdrop]
    show (Lexer.unwind _ _).token _ = _
    rw [unwind]
    split
    · rfl
    · rw [show ({ l₁ with keys := l₁.keys.map (fresh l₁.cursor) } : Lexer).indents = [] from h.indents]
      rfl
  · rw [← h.keyAllowed]
    refine hsame (hflow.imp (fun hlt => ?_) fun hallowed => by rw [h.keyAllowed, hallowed])
    rw [h.inFlow, decide_eq_true hlt]

/-! ## One token -/

/-- A token is read, and the lexer moves on. -/
theorem At.push (h : m.At s) {c d : Cursor} {b : Bool} (t : Token)
    (noted ks : List (Option PendingKey))
    (hplace : ∃ gap, IsGap gap ∧ c.rest = gap ++ d.rest ∧ d = c.skip gap.length)
    (hkeys : List.Forall₂ (Kept d) noted ks)
    (hharmless : ∀ k, some k ∈ ks → k.required = false ∧ k.line ≤ c.line)
    (hahead : ∀ k, some k ∈ noted → m.taken ≤ k.number) (hroom : c.rest.length ≤ s.cursor.rest.length) :
    ((({ m with keys := noted, keyAllowed := b } : Lexer).push t).moveTo d).At ⟨c, b, ks, s.tokens ++ [t]⟩ where
  cursor := hplace
  indent := h.indent
  indents := h.indents
  keyAllowed := rfl
  keys := hkeys
  harmless := hharmless
  ahead := hahead
  going := h.going
  taken := by
    have htaken := h.taken
    show m.taken ≤ (s.tokens ++ [t]).length
    rw [List.length_append]
    omega
  queue := by
    have hqueue := h.queue
    rw [Lexer.queue] at hqueue
    show m.ready ++ (t :: m.recent).reverse = (s.tokens ++ [t]).drop m.taken
    rw [List.drop_append_of_le_length h.taken, ← hqueue, List.reverse_cons, List.append_assoc]
  count := by
    show m.count + 1 = (s.tokens ++ [t]).length
    rw [h.count, List.length_append]
    rfl
  room := Nat.lt_of_le_of_lt hroom h.room

/-! ## Marks -/

section Marks

variable {top : Option PendingKey} {outer : List (Option PendingKey)} {t : Token} {ch : Char}

theorem At.required_eq_false (h : m.At s) {k : PendingKey} (hk : some k ∈ m.keys) : k.required = false := by
  obtain ⟨k', hk', hkept⟩ := exists_of_forall₂ h.keys hk
  rcases hkept with rfl | ⟨hnone, -⟩
  · exact (h.harmless k hk').1
  · cases hnone

/-- No key is required, so each may be given up. -/
theorem At.dropKey (h : m.At s) (hkeys : m.keys = top :: outer) :
    m.dropKey = .ok { m with keys := none :: outer } := by
  unfold Lexer.dropKey
  cases top with
  | none =>
    simp only [hkeys]
    rw [← hkeys]
  | some k =>
    have hrequired : k.required = false := h.required_eq_false (by rw [hkeys]; exact List.mem_cons_self)
    simp only [hkeys, hrequired, Bool.false_eq_true, if_false]

theorem At.saveKey (h : m.At s) (hcursor : m.cursor = s.cursor) (hkeys : m.keys = top :: outer) :
    m.saveKey = .ok { m with keys := s.saved top :: outer } := by
  have hindent : (m.indent == (s.cursor.column : Int)) = false := by
    rw [h.indent, beq_eq_false_iff_ne]
    omega
  unfold Lexer.saveKey Spot.saved
  by_cases hallowed : s.keyAllowed = true
  · rw [if_pos (h.keyAllowed.trans hallowed), if_pos hallowed, h.dropKey hkeys]
    simp only [bind, Except.bind, pure, Except.pure, List.drop_succ_cons, List.drop_zero, Spot.pending, h.count,
      hcursor, hindent, Bool.and_false]
  · rw [if_neg fun hm => hallowed (h.keyAllowed.symm.trans hm), if_neg hallowed, ← hkeys]

/-- Keys given up before are noted rightly further on. -/
theorem forall₂_kept_fresh {c : Cursor} {ks : List (Option PendingKey)} (hks : ∀ k ∈ ks, Above c k) (n : Nat) :
    List.Forall₂ (Kept (c.skip n)) (ks.map (fresh c)) ks := by
  induction ks with
  | nil => exact .nil
  | cons k ks ih =>
    exact .cons (kept_fresh (hks k List.mem_cons_self) n) (ih fun j hj => hks j (List.mem_cons_of_mem k hj))

/-- The levels further out are noted rightly behind a token. -/
theorem At.kept_outer (h : m.At s) (hkeys : s.keys = top :: outer) (n : Nat) :
    List.Forall₂ (Kept (s.cursor.skip n)) (outer.map (fresh s.cursor)) outer := by
  refine forall₂_kept_fresh (fun k hk p hp => ?_) n
  subst hp
  exact (h.harmless p (by rw [hkeys]; exact List.mem_cons_of_mem top hk)).2

theorem divides_of_ne {c : Cursor} (hc : c.rest = ch :: x) (mark : Char) (hne : ch ≠ mark) :
    c.divides mark = false :=
  Cursor.divides_eq_false (by simpa [hc] using hne)

theorem token_open (hrest : m.cursor.rest = ch :: x)
    (hch : ch = '[' ∧ t = .flowSequence ∨ ch = '{' ∧ t = .flowMapping) (fuel : Nat) :
    m.token fuel = m.openFlow t := by
  rcases hch with ⟨rfl, rfl⟩ | ⟨rfl, rfl⟩ <;>
    simp [token, Cursor.peek, hrest, divides_of_ne hrest '-' (by decide),
      divides_of_ne hrest '.' (by decide)]

theorem token_close (hrest : m.cursor.rest = ch :: x)
    (hch : ch = ']' ∧ t = .flowSequenceEnd ∨ ch = '}' ∧ t = .flowMappingEnd) (fuel : Nat) :
    m.token fuel = m.closeFlow t := by
  rcases hch with ⟨rfl, rfl⟩ | ⟨rfl, rfl⟩ <;>
    simp [token, Cursor.peek, hrest, divides_of_ne hrest '-' (by decide),
      divides_of_ne hrest '.' (by decide)]

theorem token_comma (hrest : m.cursor.rest = ',' :: x) (fuel : Nat) : m.token fuel = m.flowEntry := by
  simp [token, Cursor.peek, hrest, divides_of_ne hrest '-' (by decide),
    divides_of_ne hrest '.' (by decide)]

theorem token_colon_flow (hrest : m.cursor.rest = ':' :: x) (hflow : m.inFlow = true) (fuel : Nat) :
    m.token fuel = m.valueMark := by
  simp [token, Cursor.peek, hrest, hflow, divides_of_ne hrest '-' (by decide),
    divides_of_ne hrest '.' (by decide)]

theorem token_doubleQuote (hrest : m.cursor.rest = '"' :: x) (fuel : Nat) :
    m.token fuel = m.quotedScalar fuel true := by
  simp [token, Cursor.peek, hrest, divides_of_ne hrest '-' (by decide),
    divides_of_ne hrest '.' (by decide)]

theorem token_tab (hrest : m.cursor.rest = '\t' :: x) (fuel : Nat) : m.token fuel = .error .malformed := by
  simp [token, Cursor.peek, hrest, divides_of_ne hrest '-' (by decide),
    divides_of_ne hrest '.' (by decide), beginsPlain, isWhite]

theorem eq_or_of_saved {k : PendingKey} (h : s.saved top = some k) : top = some k ∨ k = s.pending := by
  unfold Spot.saved at h
  split at h
  · exact .inr (Option.some.inj h).symm
  · exact .inl h

/-- It is enough to look at the token itself, the gap before it being passed over. The levels further out stay
as they are, and so may the innermost one; a new pending key can only be the token. -/
theorem goes_of_token {b : Bool} {n : Nat} (ks : List (Option PendingKey)) (hblanks : IsGap blanks)
    (hrest : s.cursor.rest = blanks ++ x) (hx : EndsGap x) (hn : (x.drop n).length < x.length)
    (hkeys : s.keys = top :: outer) (hallowed : outer ≠ [] ∨ s.keyAllowed = true)
    (hks : ∀ k, some k ∈ ks → top = some k ∨ k = (s.behind blanks.length s.keyAllowed).pending)
    (htoken : ∀ m : Lexer, m.At (s.behind blanks.length s.keyAllowed) → m.cursor = s.cursor.skip blanks.length →
      m.keys = fresh m.cursor top :: outer.map (fresh m.cursor) → m.cursor.rest = x →
      ∃ news gap, m.token m.size = .ok ((({ m with
          keys := news ++ outer.map (fresh m.cursor), keyAllowed := b } : Lexer).push t).moveTo
            ((m.cursor.skip n).skip gap.length)) ∧
        IsGap gap ∧ x.drop n = gap ++ x.drop (n + gap.length) ∧
        List.Forall₂ (Kept ((m.cursor.skip n).skip gap.length)) news ks ∧
        ∀ k, some k ∈ news → m.taken ≤ k.number) :
    Goes s ⟨(s.cursor.skip blanks.length).skip n, b, ks ++ outer, s.tokens ++ [t]⟩ := by
  have hafter : (s.cursor.skip blanks.length).rest = x := by rw [Cursor.rest_skip, hrest, List.drop_left]
  refine ⟨?_, List.subset_append_left s.tokens [t], fun l hl => ?_⟩
  · show ((s.cursor.skip blanks.length).skip n).rest.length < s.cursor.rest.length
    rw [Cursor.rest_skip, hafter, hrest, List.length_append]
    omega
  obtain ⟨m, allowed, hstep, hcursor, hnoted, htaken, hm, hsame⟩ := hl.exists_token hblanks hrest hx
  obtain rfl : allowed = s.keyAllowed := hsame (hallowed.imp_left fun hne => by
    have := List.length_pos_iff.mpr hne
    rw [hkeys, List.length_cons]
    omega)
  rw [hkeys, List.map_cons] at hnoted
  obtain ⟨news, gap, htok, hgap, hplace, hkept, hnews⟩ := htoken m hm hcursor hnoted (by rw [hcursor, hafter])
  refine ⟨_, hstep.trans htok, hm.push t _ _ ⟨gap, hgap, ?_, ?_⟩ (List.rel_append hkept ?_) (fun k hk => ?_)
      (fun k hk => ?_) ?_,
    htaken, List.take_append_of_le_length hl.taken⟩
  · rw [hcursor]
    simp only [Cursor.rest_skip, hrest, List.drop_left]
    rw [List.drop_drop]
    exact hplace
  · rw [hcursor]
  · rw [hcursor, ← Cursor.skip_add]
    exact hm.kept_outer hkeys _
  · rcases List.mem_append.mp hk with hk | hk
    · rcases hks k hk with rfl | rfl
      · exact hm.harmless_skip n (hkeys ▸ List.mem_cons_self)
      · exact ⟨rfl, ((s.cursor.skip blanks.length).le_skip n).2⟩
    · exact hm.harmless_skip n (hkeys ▸ List.mem_cons_of_mem top hk)
  · rcases List.mem_append.mp hk with hk | hk
    · exact hnews k hk
    · exact hm.ahead k (by rw [hnoted]; exact List.mem_cons_of_mem _ hk)
  · show ((s.cursor.skip blanks.length).skip n).rest.length ≤ (s.cursor.skip blanks.length).rest.length
    rw [Cursor.rest_skip, List.length_drop]
    omega

/-- What is noted of the innermost level once the token is. -/
theorem At.saved (h : m.At s) (hkeys : s.keys = top :: outer)
    (hm : m.keys = fresh m.cursor top :: outer.map (fresh m.cursor)) (hcursor : m.cursor = s.cursor) (n : Nat) :
    Kept (m.cursor.skip n) (s.saved (fresh m.cursor top)) (s.saved top) ∧
      ∀ k, s.saved (fresh m.cursor top) = some k → m.taken ≤ k.number := by
  have htop : Above m.cursor top := by
    rintro p rfl
    rw [hcursor]
    exact (h.harmless p (by rw [hkeys]; exact List.mem_cons_self)).2
  constructor
  · unfold Spot.saved
    split
    · exact .inl rfl
    · exact kept_fresh htop n
  · intro k hk
    rcases eq_or_of_saved hk with hk | rfl
    · exact h.ahead k (by rw [hm, hk]; exact List.mem_cons_self)
    · exact h.taken

theorem EndsGap.cons (hch : ch ≠ ' ' ∧ isBreak ch = false ∧ ch ≠ '#') (x : List Char) : EndsGap (ch :: x) :=
  fun _ h => Option.some.inj h ▸ hch

/-- As `goes_of_token`, where nothing is passed over behind the token. -/
theorem goes_of_mark {b : Bool} {n : Nat} (ks : List (Option PendingKey)) (hblanks : IsGap blanks)
    (hrest : s.cursor.rest = blanks ++ x) (hx : EndsGap x) (hn : (x.drop n).length < x.length)
    (hkeys : s.keys = top :: outer) (hallowed : outer ≠ [] ∨ s.keyAllowed = true)
    (hks : ∀ k, some k ∈ ks → top = some k ∨ k = (s.behind blanks.length s.keyAllowed).pending)
    (htoken : ∀ m : Lexer, m.At (s.behind blanks.length s.keyAllowed) → m.cursor = s.cursor.skip blanks.length →
      m.keys = fresh m.cursor top :: outer.map (fresh m.cursor) → m.cursor.rest = x →
      ∃ news, m.token m.size = .ok ((({ m with
          keys := news ++ outer.map (fresh m.cursor), keyAllowed := b } : Lexer).push t).moveTo (m.cursor.skip n)) ∧
        List.Forall₂ (Kept (m.cursor.skip n)) news ks ∧ ∀ k, some k ∈ news → m.taken ≤ k.number) :
    Goes s ⟨(s.cursor.skip blanks.length).skip n, b, ks ++ outer, s.tokens ++ [t]⟩ := by
  refine goes_of_token ks hblanks hrest hx hn hkeys hallowed hks fun m hm hcursor hnoted hrest' => ?_
  obtain ⟨news, htok, hkept, hnews⟩ := htoken m hm hcursor hnoted hrest'
  exact ⟨news, [], htok, .nil, rfl, hkept, hnews⟩

/-- A bracket or brace opens a collection. -/
theorem goes_open (hch : ch = '[' ∧ t = .flowSequence ∨ ch = '{' ∧ t = .flowMapping) (hblanks : IsGap blanks)
    (hrest : s.cursor.rest = blanks ++ ch :: x) (hkeys : s.keys = top :: outer)
    (hallowed : outer ≠ [] ∨ s.keyAllowed = true) :
    Goes s ⟨(s.cursor.skip blanks.length).skip 1, true,
      none :: (s.behind blanks.length s.keyAllowed).saved top :: outer, s.tokens ++ [t]⟩ := by
  have hx : EndsGap (ch :: x) := .cons (by rcases hch with ⟨rfl, -⟩ | ⟨rfl, -⟩ <;> decide) x
  have hsaved : ∀ {k : PendingKey} {o : Option PendingKey}, some k ∈ [none, o] → o = some k := by
    intro k o hk
    exact (List.mem_singleton.mp ((List.mem_cons.mp hk).resolve_left (by simp))).symm
  refine goes_of_mark [none, _] hblanks hrest hx (by simp) hkeys hallowed
    (fun k hk => eq_or_of_saved (hsaved hk)) fun m hm hcursor hnoted hrest' => ?_
  obtain ⟨hkept, hahead⟩ := hm.saved hkeys hnoted hcursor 1
  refine ⟨[none, _], ?_, .cons (.inl rfl) (.cons hkept .nil), fun k hk => hahead k (hsaved hk)⟩
  rw [token_open hrest' hch, openFlow, hm.saveKey hcursor hnoted]
  rfl

/-- A bracket or brace closes a collection. -/
theorem goes_close (hch : ch = ']' ∧ t = .flowSequenceEnd ∨ ch = '}' ∧ t = .flowMappingEnd)
    (hblanks : IsGap blanks) (hrest : s.cursor.rest = blanks ++ ch :: x) (hkeys : s.keys = top :: outer)
    (houter : outer ≠ []) :
    Goes s ⟨(s.cursor.skip blanks.length).skip 1, false, outer, s.tokens ++ [t]⟩ := by
  have hx : EndsGap (ch :: x) := .cons (by rcases hch with ⟨rfl, -⟩ | ⟨rfl, -⟩ <;> decide) x
  refine goes_of_mark [] hblanks hrest hx (by simp) hkeys (.inl houter) (by simp)
    fun m hm hcursor hnoted hrest' => ⟨[], ?_, .nil, by simp⟩
  have hlength := List.length_pos_iff.mpr houter
  rw [token_close hrest' hch, closeFlow, hm.dropKey hnoted]
  simp only [bind, Except.bind, inFlow, List.length_cons, List.length_map, gt_iff_lt,
    Nat.lt_add_left_iff_pos.mpr hlength, decide_true, Bool.not_true, Bool.false_eq_true, if_false]
  rfl

/-- A comma divides items and members. -/
theorem goes_entry (hblanks : IsGap blanks) (hrest : s.cursor.rest = blanks ++ ',' :: x)
    (hkeys : s.keys = top :: outer) (houter : outer ≠ []) :
    Goes s ⟨(s.cursor.skip blanks.length).skip 1, true, none :: outer, s.tokens ++ [.flowEntry]⟩ := by
  refine goes_of_mark [none] hblanks hrest (.cons (by decide) x) (by simp) hkeys (.inl houter) (by simp)
    fun m hm hcursor hnoted hrest' => ⟨[none], ?_, .cons (.inl rfl) .nil, by simp⟩
  rw [token_comma hrest', flowEntry, hm.dropKey hnoted]
  rfl

theorem inFlow_of_keys (hkeys : m.keys = top :: outer) (houter : outer ≠ []) : m.inFlow = true := by
  have hlength := List.length_pos_iff.mpr houter
  simpa [inFlow, hkeys] using hlength

/-- A colon behind what is no key any more. -/
theorem goes_colon_stale (hblanks : IsGap blanks) (hrest : s.cursor.rest = blanks ++ ':' :: x)
    (hkeys : s.keys = top :: outer) (houter : outer ≠ [])
    (hstale : fresh (s.cursor.skip blanks.length) top = none) :
    Goes s ⟨(s.cursor.skip blanks.length).skip 1, false, none :: outer, s.tokens ++ [.value]⟩ := by
  refine goes_of_mark [none] hblanks hrest (.cons (by decide) x) (by simp) hkeys (.inl houter) (by simp)
    fun m hm hcursor hnoted hrest' => ⟨[none], ?_, .cons (.inl rfl) .nil, by simp⟩
  rw [hcursor, hstale, ← hcursor] at hnoted
  have hflow : m.inFlow = true := inFlow_of_keys hnoted (by simpa using houter)
  rw [token_colon_flow hrest' hflow, valueMark, hnoted]
  simp only [beginBlock, hflow, if_true, bind, Except.bind, Lexer.dropKey, hnoted]
  rfl

/-- Tokens are put behind the first ones, none of the later ones being handed out. -/
theorem exists_insertAt_append {front back : List Token} (hqueue : m.queue = front ++ back)
    (hcount : m.count = m.taken + (front ++ back).length) (ts : List Token) :
    ∃ ready recent, m.insertAt (m.taken + front.length) ts = { m with ready, recent, count := m.count + ts.length } ∧
      ready ++ recent.reverse = front ++ ts ++ back := by
  rw [queue] at hqueue
  unfold insertAt
  simp only [Nat.add_sub_cancel_left]
  by_cases hready : front.length < m.ready.length
  · -- all of the front is ready
    refine ⟨m.ready.take front.length ++ ts ++ m.ready.drop front.length, m.recent, by rw [if_pos hready], ?_⟩
    have hfront : m.ready.take front.length = front := by
      have htake := congrArg (List.take front.length) hqueue
      rwa [List.take_left, List.take_append_of_le_length (Nat.le_of_lt hready)] at htake
    have hback : m.ready.drop front.length ++ m.recent.reverse = back := by
      have hdrop := congrArg (List.drop front.length) hqueue
      rwa [List.drop_left, List.drop_append_of_le_length (Nat.le_of_lt hready)] at hdrop
    rw [hfront, List.append_assoc, hback]
  · -- the front ends among those read last, which are kept the other way round
    have hbehind : m.count - (m.taken + front.length) = back.length := by
      rw [hcount, List.length_append]
      omega
    obtain ⟨middle, hmiddle⟩ : ∃ middle, front = m.ready ++ middle := by
      refine ⟨front.drop m.ready.length, ?_⟩
      have htake := congrArg (List.take m.ready.length) hqueue
      rw [List.take_left, List.take_append_of_le_length (Nat.not_lt.mp hready)] at htake
      conv_lhs => rw [← List.take_append_drop m.ready.length front, ← htake]
    have hrecent : m.recent = back.reverse ++ middle.reverse := by
      rw [hmiddle, List.append_assoc] at hqueue
      have hrest := congrArg List.reverse (List.append_cancel_left hqueue)
      rwa [List.reverse_reverse, List.reverse_append] at hrest
    refine ⟨m.ready, m.recent.take back.length ++ ts.reverse ++ m.recent.drop back.length, ?_, ?_⟩
    · rw [if_neg hready, hbehind]
    · have hlength : back.length = back.reverse.length := by simp
      rw [hrecent, hlength, List.take_left, List.drop_left]
      simp [hmiddle]

/-- Tokens may be put before those that are not handed out. -/
theorem At.insert (h : m.At s) {front ts back ready recent : List Token} (htokens : s.tokens = front ++ back)
    (hle : m.taken ≤ front.length) (hqueue : ready ++ recent.reverse = front.drop m.taken ++ ts ++ back) :
    ({ m with ready, recent, count := m.count + ts.length } : Lexer).At { s with tokens := front ++ ts ++ back } where
  cursor := h.cursor
  indent := h.indent
  indents := h.indents
  keyAllowed := h.keyAllowed
  keys := h.keys
  harmless := h.harmless
  ahead := h.ahead
  going := h.going
  taken := by
    show m.taken ≤ (front ++ ts ++ back).length
    simp only [List.length_append]
    omega
  queue := by
    show ready ++ recent.reverse = (front ++ ts ++ back).drop m.taken
    rw [hqueue, List.append_assoc, List.append_assoc, List.drop_append_of_le_length hle]
  count := by
    show m.count + ts.length = (front ++ ts ++ back).length
    rw [h.count, htokens]
    simp only [List.length_append]
    omega
  room := h.room

/-- The mark for the key goes where the key begins, and the one for the value to the end. -/
theorem At.exists_valueMark {front back : List Token} {k : PendingKey} (h : m.At s)
    (hkeys : m.keys = some k :: outer) (houter : outer ≠ []) (htokens : s.tokens = front ++ back)
    (hnumber : k.number = front.length) (hle : m.taken ≤ front.length) :
    ∃ ready recent, m.valueMark = .ok (({ m with
        keys := none :: outer, keyAllowed := false, ready, recent, count := m.count + 1 } : Lexer).mark .value) ∧
      ready ++ recent.reverse = front.drop m.taken ++ [.key] ++ back := by
  let m' : Lexer := { m with keys := none :: outer, keyAllowed := false }
  have hqueue : m'.queue = front.drop m.taken ++ back := by
    rw [show m'.queue = s.tokens.drop m.taken from h.queue, htokens, List.drop_append_of_le_length hle]
  have hplace : m'.taken + (front.drop m.taken).length = k.number := by
    show m.taken + (front.drop m.taken).length = k.number
    rw [List.length_drop, hnumber]
    omega
  have hcount : m'.count = m'.taken + (front.drop m.taken ++ back).length := by
    show m.count = m.taken + (front.drop m.taken ++ back).length
    rw [h.count, htokens]
    simp only [List.length_append, List.length_drop]
    omega
  obtain ⟨ready, recent, hinsert, hinserted⟩ := exists_insertAt_append hqueue hcount [.key]
  rw [hplace] at hinsert
  refine ⟨ready, recent, ?_, hinserted⟩
  rw [valueMark, hkeys]
  simp only [show ({ m with keys := none :: outer, keyAllowed := false } : Lexer) = m' from rfl,
    show m'.inFlow = true from inFlow_of_keys (m := m') rfl houter, if_true, hinsert]
  rfl

/-- A colon makes a key of what is pending, and the mark for it goes before. -/
theorem goes_colon {front back : List Token} {k : PendingKey} (hblanks : IsGap blanks)
    (hrest : s.cursor.rest = blanks ++ ':' :: x) (hkeys : s.keys = some k :: outer) (houter : outer ≠ [])
    (hfresh : isStale (s.cursor.skip blanks.length) k = false) (htokens : s.tokens = front ++ back)
    (hnumber : k.number = front.length) :
    Goes s ⟨(s.cursor.skip blanks.length).skip 1, false, none :: outer,
      front ++ [.key] ++ back ++ [.value]⟩ := by
  have hafter : (s.cursor.skip blanks.length).rest = ':' :: x := by rw [Cursor.rest_skip, hrest, List.drop_left]
  refine ⟨?_, ?_, fun l hl => ?_⟩
  · show ((s.cursor.skip blanks.length).skip 1).rest.length < s.cursor.rest.length
    rw [Cursor.rest_skip, hafter, hrest, List.length_append]
    simp only [List.length_drop, List.length_cons]
    omega
  · rw [htokens]
    intro t ht
    simp only [List.mem_append] at ht ⊢
    tauto
  obtain ⟨m, allowed, hstep, hcursor, hnoted, htaken, hm, -⟩ := hl.exists_token hblanks hrest (.cons (by decide) x)
  have hkey : fresh m.cursor (some k) = some k := by
    rw [fresh, if_neg]
    rw [hcursor]
    simpa using hfresh
  rw [hkeys, List.map_cons, hkey] at hnoted
  have hmap : outer.map (fresh m.cursor) ≠ [] := by simpa using houter
  -- the word is not handed out yet, so there is room before it
  have hle : m.taken ≤ front.length := by
    rw [← hnumber]
    exact hm.ahead k (by rw [hnoted]; exact List.mem_cons_self)
  obtain ⟨ready, recent, hvalue, hinserted⟩ := hm.exists_valueMark hnoted hmap htokens hnumber hle
  have houtside : ∀ {j : PendingKey} {js : List (Option PendingKey)}, some j ∈ none :: js → some j ∈ js :=
    fun hj => (List.mem_cons.mp hj).resolve_left (by simp)
  refine ⟨_, ?_, (hm.insert htokens hle hinserted).push .value (c := (s.cursor.skip blanks.length).skip 1)
    (d := m.cursor.next) (b := false) (none :: outer.map (fresh m.cursor)) (none :: outer)
    ⟨[], .nil, ?_, ?_⟩ (.cons (.inl rfl) ?_) (fun j hj => ?_) (fun j hj => ?_) ?_, htaken, ?_⟩
  · rw [hstep, token_colon_flow (by rw [hcursor, hafter]) (inFlow_of_keys hnoted hmap)]
    exact hvalue
  · rw [hcursor]
    rfl
  · rw [hcursor]
    rfl
  · rw [hcursor]
    exact hm.kept_outer hkeys 1
  · exact hm.harmless_skip 1 (hkeys ▸ List.mem_cons_of_mem _ (houtside hj))
  · exact hm.ahead j (by rw [hnoted]; exact List.mem_cons_of_mem _ (houtside hj))
  · show ((s.cursor.skip blanks.length).skip 1).rest.length ≤ (s.cursor.skip blanks.length).rest.length
    rw [Cursor.rest_skip, List.length_drop]
    omega
  · rw [← htaken, htokens]
    show (front ++ [Token.key] ++ back ++ [Token.value]).take m.taken = _
    rw [List.append_assoc, List.append_assoc, List.take_append_of_le_length hle, List.take_append_of_le_length hle]

/-- The end of the text. -/
theorem run_end (hblanks : IsGap blanks) (hrest : s.cursor.rest = blanks) (hkeys : s.keys = [top]) :
    Run s (s.tokens ++ [.streamEnd]) := by
  refine .done fun l hl => ?_
  obtain ⟨m, allowed, hstep, hcursor, hnoted, htaken, hm, -⟩ :=
    hl.exists_token (x := []) hblanks (by rw [hrest, List.append_nil]) (by simp [EndsGap])
  rw [hkeys, List.map_singleton] at hnoted
  have hpeek : m.cursor.peek = none := by
    rw [Cursor.peek, hcursor, Cursor.rest_skip, hrest, List.drop_length]
    rfl
  have houter : m.unwind (-1) = m := by
    rw [unwind, inFlow, hnoted, hm.indents]
    rfl
  refine ⟨{ (({ m with keys := [none], keyAllowed := false } : Lexer).push .streamEnd) with done := true }, ?_, rfl,
    ?_, List.take_append_of_le_length hl.taken⟩
  · rw [hstep, token, hpeek]
    simp only [outermost, houter, hm.dropKey hnoted, bind, Except.bind]
    rfl
  · have hqueue := hm.queue
    rw [queue] at hqueue
    show m.ready ++ (Token.streamEnd :: m.recent).reverse = _
    rw [List.reverse_cons, ← List.append_assoc, hqueue, htaken, List.drop_append_of_le_length hl.taken]
    rfl

/-- A tab between tokens is a fault. -/
theorem stops_tab (hopen : Token.streamEnd ∉ s.tokens) (hblanks : IsGap blanks)
    (hrest : s.cursor.rest = blanks ++ '\t' :: x) : Stops s := by
  refine .fault hopen fun l hl => ⟨.malformed, ?_⟩
  obtain ⟨m, allowed, hstep, hcursor, -⟩ := hl.exists_token hblanks hrest (.cons (by decide) x)
  rw [hstep, token_tab (by rw [hcursor, Cursor.rest_skip, hrest, List.drop_left])]

end Marks

/-! ## Scalars -/

section Scalars

variable {top : Option PendingKey} {outer : List (Option PendingKey)} {text w y : List Char}

/-- A scalar in double quotes. -/
theorem goes_quoted (hblanks : IsGap blanks) (hrest : s.cursor.rest = blanks ++ '"' :: (w ++ y))
    (hquotes : Quotes true (w ++ y) text y) (hkeys : s.keys = top :: outer)
    (hallowed : outer ≠ [] ∨ s.keyAllowed = true) :
    Goes s ⟨(s.cursor.skip blanks.length).skip (w.length + 1), false,
      (s.behind blanks.length s.keyAllowed).saved top :: outer, s.tokens ++ [.scalar text false]⟩ := by
  refine goes_of_mark [_] hblanks hrest (.cons (by decide) _)
    (by rw [List.length_drop, List.length_cons]; omega) hkeys hallowed
    (fun k hk => eq_or_of_saved (List.mem_singleton.mp hk).symm) fun m hm hcursor hnoted hrest' => ?_
  obtain ⟨hkept, hahead⟩ := hm.saved hkeys hnoted hcursor (w.length + 1)
  refine ⟨[_], ?_, .cons hkept .nil, fun k hk => hahead k (List.mem_singleton.mp hk).symm⟩
  have hnext : m.cursor.next.rest = w ++ y := by rw [Cursor.rest_next, hrest']; rfl
  have hroom : (w ++ y).length < m.size := by
    have := hm.room
    rw [show (s.behind blanks.length s.keyAllowed).cursor = m.cursor from hcursor.symm, hrest'] at this
    exact Nat.lt_of_succ_lt this
  obtain ⟨c, hquoted, hc⟩ := hquotes m.size m.cursor.next hnext hroom
  obtain ⟨n, rfl⟩ := (Scalar.scans_quoted true _ _).result _ hquoted
  rw [Cursor.skip_eq_of_rest hnext hc] at hquoted
  rw [token_doubleQuote hrest', quotedScalar, keyLike, hm.saveKey hcursor hnoted]
  simp only [bind, Except.bind, hquoted]
  rfl

/-- A number or a bare word. -/
structure IsLiteral (w : List Char) : Prop where
  chars : ∀ c ∈ w, c.isAlphanum = true ∨ c = '-' ∨ c = '+' ∨ c = '.'
  begins : ∃ sign d rest, w = sign ++ d :: rest ∧ (sign = [] ∨ sign = ['-']) ∧ d.isAlphanum = true

/-- Behind a literal and the blanks after it comes no more of it: a comma or a bracket, a tab, or the end. -/
def EndsLiteral (inFlow : Bool) (x : List Char) : Prop :=
  ∀ ch ∈ x.head?, ch = '\t' ∨ inFlow = true ∧ Scalar.isFlowMark ch = true

theorem EndsLiteral.ne {inFlow : Bool} (hx : EndsLiteral inFlow x) :
    ∀ ch ∈ x.head?, ch ≠ ' ' ∧ isBreak ch = false ∧ ch ≠ '#' ∧ ch ≠ '-' ∧ ch ≠ '.' := by
  intro ch hch
  rcases hx ch hch with rfl | ⟨-, hmark⟩
  · decide
  · simp only [Scalar.isFlowMark, Bool.or_eq_true, beq_iff_eq] at hmark
    rcases hmark with (((rfl | rfl) | rfl) | rfl) | rfl <;> decide

/-- No line of a gap divides documents. -/
theorem EndsLiteral.atDivider_eq_false {inFlow : Bool} (hx : EndsLiteral inFlow x) (hblanks : IsGap blanks)
    {c : Cursor} (hc : c.rest = blanks ++ x) : c.atDivider = false := by
  refine Cursor.atDivider_eq_false fun ch hch => ?_
  rw [hc] at hch
  cases blanks with
  | nil => exact (hx.ne ch hch).2.2.2
  | cons b blanks =>
    obtain rfl : b = ch := Option.some.inj hch
    rcases hblanks b List.mem_cons_self with rfl | rfl <;> decide

theorem IsLiteral.endsPlain_eq_false (hw : IsLiteral w) {c : Char} (hc : c ∈ w) (inFlow : Bool)
    (next : Option Char) : Scalar.endsPlain inFlow c next = false := by
  have hnot : ∀ mark ∈ [':', ',', '[', ']', '{', '}', '?'], c ≠ mark := by
    intro mark hmark heq
    subst heq
    rcases hw.chars c hc with halnum | rfl | rfl | rfl
    · have hnone : ([':', ',', '[', ']', '{', '}', '?'].all fun mark => !mark.isAlphanum) = true := by decide
      have := List.all_eq_true.mp hnone c hmark
      rw [halnum] at this
      cases this
    all_goals exact absurd hmark (by decide)
  have hwhite : isWhite c = false := by
    rcases hw.chars c hc with halnum | rfl | rfl | rfl
    · exact isWhite_of_isAlphanum halnum
    all_goals decide
  simp only [List.forall_mem_cons] at hnot
  simp [Scalar.endsPlain, Scalar.isFlowMark, hwhite, hnot]

theorem plainRun_gap {inFlow : Bool} (hblanks : IsGap blanks) (hx : EndsLiteral inFlow x) :
    Scalar.plainRun inFlow (blanks ++ x) = [] := by
  cases blanks with
  | nil =>
    cases x with
    | nil => rfl
    | cons ch x =>
      have hends : ∀ next, Scalar.endsPlain inFlow ch next = true := by
        intro next
        rcases hx ch rfl with rfl | ⟨hflow, hmark⟩
        · simp [Scalar.endsPlain, isWhite]
        · simp [Scalar.endsPlain, hflow, hmark]
      rw [List.nil_append, Scalar.plainRun, hends, if_pos rfl]
  | cons b blanks =>
    rcases hblanks b List.mem_cons_self with rfl | rfl <;>
      simp [Scalar.plainRun, Scalar.endsPlain, isWhite, isBreak]

theorem IsLiteral.plainRun (hw : IsLiteral w) {inFlow : Bool} (hy : Scalar.plainRun inFlow y = []) :
    Scalar.plainRun inFlow (w ++ y) = w := by
  have hall : ∀ c ∈ w, ∀ next, Scalar.endsPlain inFlow c next = false := fun c hc =>
    hw.endsPlain_eq_false hc inFlow
  clear hw
  induction w with
  | nil => exact hy
  | cons c w ih =>
    rw [List.cons_append, Scalar.plainRun, hall c List.mem_cons_self, if_neg Bool.false_ne_true,
      ih fun d hd => hall d (List.mem_cons_of_mem c hd)]

/-- The lines of a gap behind its first break are passed over. -/
theorem exists_plainBreaks_gap {inFlow : Bool} {fuel : Nat} {c : Cursor} (hblanks : IsGap blanks)
    (hx : EndsLiteral inFlow x) (hc : c.rest = blanks ++ x) (hfuel : blanks.length < fuel) :
    ∃ text, Scalar.plainBreaks fuel c = (text, c.skip blanks.length) := by
  induction fuel generalizing c blanks with
  | zero => exact absurd hfuel (Nat.not_lt_zero _)
  | succ fuel ih =>
    cases blanks with
    | nil =>
      rw [List.nil_append] at hc
      have hpeek : (c.peek == some ' ') = false := by
        rw [Cursor.peek, hc]
        simpa using fun h => (hx.ne ' ' h).1 rfl
      have hbreak : c.lineBreak? = none :=
        Cursor.lineBreak?_eq_none fun ch hch => (hx.ne ch (hc ▸ hch)).2.1
      refine ⟨some [], ?_⟩
      rw [Scalar.plainBreaks, hpeek, if_neg Bool.false_ne_true, hbreak]
      rfl
    | cons b blanks =>
      have hmore : IsGap blanks := fun d hd => hblanks d (List.mem_cons_of_mem b hd)
      have hnext : c.next.rest = blanks ++ x := by
        rw [Cursor.rest_next, hc]
        rfl
      obtain ⟨text, htext⟩ := ih hmore hnext (Nat.lt_of_succ_lt_succ hfuel)
      rcases hblanks b List.mem_cons_self with rfl | rfl
      · refine ⟨text, ?_⟩
        rw [Scalar.plainBreaks, Cursor.peek, hc, List.cons_append, List.head?_cons, if_pos (by rfl), htext]
        rfl
      · refine ⟨text.map ('\n' :: ·), ?_⟩
        rw [Scalar.plainBreaks, Cursor.peek, hc, List.cons_append, List.head?_cons, if_neg (by decide),
          lineBreak?_newline hc]
        simp only [hx.atDivider_eq_false hmore hnext, Bool.false_eq_true, if_false, htext]
        rfl

theorem plainGap_gap {inFlow : Bool} {fuel : Nat} {c : Cursor} (hblanks : IsGap blanks)
    (hx : EndsLiteral inFlow x) (hc : c.rest = blanks ++ x) (hfuel : blanks.length ≤ fuel) :
    (Scalar.plainGap fuel c).after = c.skip blanks.length ∧
      (Scalar.plainGap fuel c).crossesLine = decide ('\n' ∈ blanks) := by
  obtain ⟨spaces, more, rfl, hspaces, hmore⟩ := exists_span (· == ' ') blanks
  rw [List.append_assoc] at hc
  have hafter : (c.skip spaces.length).rest = more ++ x := by rw [Cursor.rest_skip, hc, List.drop_left]
  cases more with
  | nil =>
    have hspan := Cursor.span_append hc hspaces fun ch hch => by simpa using (hx.ne ch hch).1
    have hbreak : (c.skip spaces.length).lineBreak? = none :=
      Cursor.lineBreak?_eq_none fun ch hch => (hx.ne ch (by rwa [hafter] at hch)).2.1
    have hline : '\n' ∉ spaces := fun hmem => absurd (hspaces _ hmem) (by decide)
    rw [Scalar.plainGap, hspan, List.append_nil, decide_eq_false hline]
    simp only [hbreak, and_self]
  | cons b more =>
    obtain rfl : b = '\n' := by
      refine (hblanks b (List.mem_append_right spaces List.mem_cons_self)).resolve_left fun hb => ?_
      simpa [hb] using hmore b rfl
    have hgap : IsGap more := fun d hd => hblanks d (List.mem_append_right spaces (List.mem_cons_of_mem _ hd))
    have hspan := Cursor.span_append hc hspaces fun ch hch => by cases hch; rfl
    have hnext : (c.skip spaces.length).next.rest = more ++ x := by
      rw [Cursor.rest_next, hafter]
      rfl
    have hless : more.length < fuel := by
      rw [List.length_append, List.length_cons] at hfuel
      omega
    obtain ⟨text, htext⟩ := exists_plainBreaks_gap hgap hx hnext hless
    have hline : '\n' ∈ spaces ++ '\n' :: more := List.mem_append_right spaces List.mem_cons_self
    rw [Scalar.plainGap, hspan, decide_eq_true hline]
    simp only [lineBreak?_newline hafter, hx.atDivider_eq_false hgap hnext, Bool.false_eq_true, if_false, htext]
    rw [List.length_append, List.length_cons, Nat.add_comm more.length, Cursor.skip_add, Cursor.skip_add]
    exact ⟨rfl, trivial⟩

/-- A literal is read up to what follows the blanks behind it. -/
theorem IsLiteral.plain (hw : IsLiteral w) {inFlow : Bool} {fuel : Nat} {c : Cursor}
    (hblanks : IsGap blanks) (hx : EndsLiteral inFlow x) (hc : c.rest = w ++ (blanks ++ x))
    (hfuel : blanks.length < fuel) :
    Scalar.plain inFlow 0 fuel [] false c
      = (w, (c.skip w.length).skip blanks.length, decide ('\n' ∈ blanks)) := by
  obtain ⟨fuel, rfl⟩ := Nat.exists_eq_add_one_of_ne_zero (Nat.ne_of_gt (Nat.zero_lt_of_lt hfuel))
  have hrun : Scalar.plainRun inFlow c.rest = w := by rw [hc, hw.plainRun (plainRun_gap hblanks hx)]
  have hbegins : (c.peek == some '#' || w.isEmpty) = false := by
    obtain ⟨sign, d, rest, rfl, rfl | rfl, hd⟩ := hw.begins
    · have hsharp : d ≠ '#' := ne_of_isAlphanum hd (by decide)
      simpa [Cursor.peek, hc] using hsharp
    · simp [Cursor.peek, hc]
  have hafter : (c.skip w.length).rest = blanks ++ x := by rw [Cursor.rest_skip, hc, List.drop_left]
  obtain ⟨hgap, hcrosses⟩ := plainGap_gap hblanks hx hafter (Nat.le_of_lt_succ hfuel)
  have hend : ((c.skip w.length).skip blanks.length).rest = x := by
    rw [Cursor.rest_skip, hafter, List.drop_left]
  have hsharp : (((c.skip w.length).skip blanks.length).peek == some '#') = false := by
    rw [Cursor.peek, hend]
    simpa using fun h => (hx.ne '#' h).2.2.1 rfl
  -- whatever the gap reads as, nothing comes behind it
  have hnothing : ∀ text crossed, Scalar.plain inFlow 0 fuel text crossed ((c.skip w.length).skip blanks.length)
      = ([], (c.skip w.length).skip blanks.length, crossed) := by
    intro text crossed
    cases fuel with
    | zero => rfl
    | succ fuel =>
      have hempty : Scalar.plainRun inFlow ((c.skip w.length).skip blanks.length).rest = [] := by
        rw [hend]
        exact plainRun_gap .nil hx
      rw [Scalar.plain, hempty, List.isEmpty_nil, Bool.or_true, if_pos rfl]
  have hcolumn : ¬((((c.skip w.length).skip blanks.length).column : Int) < 0) := by omega
  rw [Scalar.plain, hrun, hbegins, if_neg Bool.false_ne_true]
  simp only [hgap, hcrosses, hsharp, hcolumn, decide_false, Bool.and_false, Bool.or_false, Bool.false_eq_true, if_false,
    hnothing, List.nil_append, List.append_nil]
  split <;> rfl

theorem token_literal (hw : IsLiteral w) (hrest : m.cursor.rest = w ++ y) (fuel : Nat) :
    m.token fuel = m.plainScalar fuel := by
  obtain ⟨sign, d, rest, rfl, hsign, hd⟩ := hw.begins
  have hwhite : isWhite d = false := isWhite_of_isAlphanum hd
  have hne : ∀ mark ∈ "-.?:,[]\x7b\x7d#&*!|>'\"%@`".toList, d ≠ mark := by
    have hmarks : ("-.?:,[]\x7b\x7d#&*!|>'\"%@`".toList.all fun mark => !mark.isAlphanum) = true := by decide
    exact fun mark hmark => ne_of_isAlphanum hd (by simpa using List.all_eq_true.mp hmarks mark hmark)
  simp only [String.reduceToList, List.forall_mem_cons] at hne
  rcases hsign with rfl | rfl
  · have hdash : m.cursor.divides '-' = false := Cursor.divides_eq_false (by simp [hrest, hne])
    have hdot : m.cursor.divides '.' = false := Cursor.divides_eq_false (by simp [hrest, hne])
    simp [token, Cursor.peek, Cursor.peekAt, hrest, hdash, hdot, beginsPlain, hwhite, hne]
  · have hdash : m.cursor.divides '-' = false := by
      rw [Cursor.divides, hrest]
      cases h : rest ++ y <;> simp [h, hne]
    have hdot : m.cursor.divides '.' = false := Cursor.divides_eq_false (by simp [hrest])
    simp [token, Cursor.peek, Cursor.peekAt, hrest, hdash, hdot, beginsPlain, whiteOrEnd, hwhite]

/-- A number or a bare word. The lexer passes over the blanks behind it. -/
theorem goes_plain {gap : List Char} (hw : IsLiteral w) (hblanks : IsGap blanks) (hgap : IsGap gap)
    (hrest : s.cursor.rest = blanks ++ (w ++ (gap ++ x))) (hkeys : s.keys = top :: outer)
    (hx : EndsLiteral (decide (outer ≠ [])) x) (hallowed : outer ≠ [] ∨ s.keyAllowed = true) :
    Goes s ⟨(s.cursor.skip blanks.length).skip w.length, decide ('\n' ∈ gap),
      (s.behind blanks.length s.keyAllowed).saved top :: outer, s.tokens ++ [.scalar w true]⟩ := by
  obtain ⟨d, rest, hcons, hd⟩ : ∃ d rest, w = d :: rest ∧ (d.isAlphanum = true ∨ d = '-') := by
    obtain ⟨sign, d, rest, rfl, rfl | rfl, hd⟩ := hw.begins
    · exact ⟨d, rest, rfl, .inl hd⟩
    · exact ⟨'-', d :: rest, rfl, .inr rfl⟩
  have hends : EndsGap (w ++ (gap ++ x)) := by
    rw [hcons]
    refine .cons ?_ _
    rcases hd with hd | rfl
    · have hwhite := isWhite_of_isAlphanum hd
      simp only [isWhite, Bool.or_eq_false_iff] at hwhite
      exact ⟨ne_of_isAlphanum hd (by decide), hwhite.2, ne_of_isAlphanum hd (by decide)⟩
    · decide
  refine goes_of_token [_] hblanks hrest hends
    (by simp only [List.length_drop, hcons, List.cons_append, List.length_cons]; omega) hkeys hallowed
    (fun k hk => eq_or_of_saved (List.mem_singleton.mp hk).symm) fun m hm hcursor hnoted hrest' => ?_
  obtain ⟨hkept, hahead⟩ := hm.saved hkeys hnoted hcursor (w.length + gap.length)
  rw [Cursor.skip_add] at hkept
  refine ⟨[_], gap, ?_, hgap, ?_, .cons hkept .nil, fun k hk => hahead k (List.mem_singleton.mp hk).symm⟩
  · have hroom : gap.length < m.size := by
      have := hm.room
      rw [show (s.behind blanks.length s.keyAllowed).cursor = m.cursor from hcursor.symm, hrest'] at this
      simp only [List.length_append] at this
      omega
    have hplain : ∀ k : Option PendingKey,
        Scalar.plain ({ m with keys := k :: outer.map (fresh m.cursor) } : Lexer).inFlow (m.indent + 1) m.size []
          false m.cursor = (w, (m.cursor.skip w.length).skip gap.length, decide ('\n' ∈ gap)) := by
      intro k
      rw [show ({ m with keys := k :: outer.map (fresh m.cursor) } : Lexer).inFlow = decide (outer ≠ []) by
        cases outer <;> simp [inFlow], show m.indent + 1 = 0 by rw [hm.indent]; rfl]
      exact hw.plain hgap hx hrest' hroom
    rw [token_literal hw hrest', plainScalar, hm.saveKey hcursor hnoted]
    simp only [bind, Except.bind, hplain]
    rfl
  · rw [List.drop_left, List.drop_append, List.drop_eq_nil_of_le (Nat.le_add_right _ _), Nat.add_sub_cancel_left,
      List.nil_append, List.drop_left]

/-- The scalar cannot be read, so neither can the text. -/
theorem stops_quoted (hopen : Token.streamEnd ∉ s.tokens) (hblanks : IsGap blanks)
    (hrest : s.cursor.rest = blanks ++ '"' :: y) (hkeys : s.keys = top :: outer)
    (hbad : ∀ fuel (c : Cursor), c.rest = y → y.length < fuel → ∃ e, Scalar.quoted true fuel c = .error e) :
    Stops s := by
  refine .fault hopen fun l hl => ?_
  obtain ⟨m, allowed, hstep, hcursor, hnoted, htaken, hm, -⟩ := hl.exists_token hblanks hrest (.cons (by decide) y)
  rw [hkeys, List.map_cons] at hnoted
  have hrest' : m.cursor.rest = '"' :: y := by rw [hcursor, Cursor.rest_skip, hrest, List.drop_left]
  have hroom : y.length < m.size := by
    have := hm.room
    rw [show (s.behind blanks.length allowed).cursor = m.cursor from hcursor.symm, hrest'] at this
    exact Nat.lt_of_succ_lt this
  obtain ⟨e, he⟩ := hbad m.size m.cursor.next (by rw [Cursor.rest_next, hrest']; rfl) hroom
  refine ⟨e, ?_⟩
  rw [hstep, token_doubleQuote hrest', quotedScalar, keyLike, hm.saveKey hcursor hnoted]
  simp only [bind, Except.bind, he]

end Scalars

end Lexer

end CommentStyle.Yaml
