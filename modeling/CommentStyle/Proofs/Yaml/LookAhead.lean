import CommentStyle.Proofs.Outcome
import CommentStyle.Proofs.Yaml.Tokens

/-!
# Tokens read ahead

Inside a flow collection a key may be pending on every level, and the lexer reads on, over many tokens, until
none of them can begin with the token to be handed out. When that is depends on lines and lengths. What comes
out does not: the tokens are those that the lexer would have read if it had read the whole text first.

* **`Spot`** — where a lexer stands, and all tokens read from the beginning of the text; **`At`** — the lexer
  stands there, however many of them were handed out, and whichever keys were given up as too far behind.
* **`Goes`** — a step leads from spot to spot, whatever was handed out.
* **`Run`** — steps lead to the end of the text; then all tokens come out (`Run.yields`).
* **`Stops`** — steps lead to a fault; then the lexer fails sooner or later, and does not come to the end
  before (`Stops.breaks`).
-/

namespace CommentStyle.Yaml

/-- A place in a text outside of block collections, and the tokens before it. -/
structure Spot where
  cursor : Cursor
  keyAllowed : Bool
  /-- For each open flow collection and what is around them, the pending key, be it too far behind. -/
  keys : List (Option PendingKey)
  tokens : List Token

namespace Lexer

/-- The pending key, unless it is too far behind. -/
def fresh (c : Cursor) (k : Option PendingKey) : Option PendingKey := if k.any (isStale c) then none else k

/-- What is noted of a pending key: the key, or nothing more if it is too far behind. -/
def Kept (c : Cursor) (noted k : Option PendingKey) : Prop :=
  noted = k ∨ noted = none ∧ k.any (isStale c) = true

/-- The lexer stands at the spot, or some blanks further on. -/
structure At (l : Lexer) (s : Spot) : Prop where
  cursor : ∃ blanks, (∀ b ∈ blanks, b = ' ' ∨ b = '\n') ∧ s.cursor.rest = blanks ++ l.cursor.rest ∧
    l.cursor = s.cursor.skip blanks.length
  indent : l.indent = -1
  indents : l.indents = []
  keyAllowed : l.keyAllowed = s.keyAllowed
  keys : List.Forall₂ (Kept l.cursor) l.keys s.keys
  harmless : ∀ k, some k ∈ s.keys → k.required = false ∧ k.line ≤ s.cursor.line
  ahead : ∀ k, some k ∈ l.keys → l.taken ≤ k.number
  going : l.done = false
  taken : l.taken ≤ s.tokens.length
  queue : l.queue = s.tokens.drop l.taken
  count : l.count = s.tokens.length
  room : s.cursor.rest.length < l.size

variable {l m : Lexer} {s s' : Spot} {ts : List Token}

/-! ## Pending keys -/

theorem Kept.fresh {c : Cursor} {noted k : Option PendingKey} (h : Kept c noted k) :
    Kept c (Lexer.fresh c noted) k ∧ Lexer.fresh c noted = Lexer.fresh c k := by
  unfold Lexer.fresh
  rcases h with rfl | ⟨rfl, hstale⟩
  · refine ⟨?_, rfl⟩
    split
    · next hstale => exact .inr ⟨rfl, hstale⟩
    · exact .inl rfl
  · rw [if_pos hstale]
    exact ⟨.inr ⟨rfl, hstale⟩, rfl⟩

theorem any_isStale_fresh (c : Cursor) (k : Option PendingKey) : (fresh c k).any (isStale c) = false := by
  unfold fresh
  split
  · rfl
  · next h => simpa using h

/-- Keys are given up without a fault. -/
theorem At.dropStaleKeys (h : l.At s) :
    l.dropStaleKeys = .ok { l with keys := l.keys.map (fresh l.cursor) } := by
  have hany : (l.keys.any fun k => k.any (isStale l.cursor) && k.any PendingKey.required) = false := by
    rw [List.any_eq_false]
    intro k hk
    obtain ⟨k', hk', hkept⟩ := exists_of_forall₂ h.keys hk
    rcases hkept with rfl | ⟨rfl, -⟩
    · cases k with
      | none => simp
      | some k => simp [(h.harmless k hk').1]
    · simp
  unfold Lexer.dropStaleKeys
  simp only [hany, Bool.false_eq_true, if_false]
  rfl

theorem mem_of_mem_map_fresh {c : Cursor} {ks : List (Option PendingKey)} {k : PendingKey}
    (h : some k ∈ ks.map (fresh c)) : some k ∈ ks := by
  obtain ⟨k', hk', heq⟩ := List.mem_map.mp h
  unfold fresh at heq
  split at heq
  · cases heq
  · exact heq ▸ hk'

/-- With keys given up the lexer still stands at the spot. -/
theorem At.map_fresh (h : l.At s) : ({ l with keys := l.keys.map (fresh l.cursor) } : Lexer).At s where
  cursor := h.cursor
  indent := h.indent
  indents := h.indents
  keyAllowed := h.keyAllowed
  keys := List.forall₂_map_left_iff.mpr (h.keys.imp fun _ _ hkept => hkept.fresh.1)
  harmless := h.harmless
  ahead := fun k hk => h.ahead k (mem_of_mem_map_fresh hk)
  going := h.going
  taken := h.taken
  queue := h.queue
  count := h.count
  room := h.room

/-- What becomes of the least number when one more level is looked at. -/
def lesser (least : Option Nat) (k : Option PendingKey) : Option Nat :=
  match least, k with
  | some n, some k => some (min n k.number)
  | none, some k => some k.number
  | least, none => least

theorem le_lesser {n : Nat} {least : Option Nat} {k : Option PendingKey} (hleast : ∀ m ∈ least, n ≤ m)
    (hk : ∀ j ∈ k, n ≤ j.number) : ∀ m ∈ lesser least k, n ≤ m := by
  cases least <;> cases k <;> simp_all [lesser, Nat.le_min]

theorem lesser_eq_some {n : Nat} {least : Option Nat} {k : Option PendingKey} (hleast : ∀ m ∈ least, n ≤ m)
    (hk : ∀ j ∈ k, n ≤ j.number) (hreached : least = some n ∨ ∃ j ∈ k, j.number = n) :
    lesser least k = some n := by
  rcases hreached with rfl | ⟨j, rfl, rfl⟩
  · cases k with
    | none => rfl
    | some j => exact congrArg some (Nat.min_eq_left (hk j rfl))
  · cases least with
    | none => rfl
    | some m => exact congrArg some (Nat.min_eq_right (hleast m rfl))

/-- A bound that is reached is what the levels come to. -/
theorem foldl_lesser {n : Nat} {ks : List (Option PendingKey)} {least : Option Nat} (hleast : ∀ m ∈ least, n ≤ m)
    (hks : ∀ k, some k ∈ ks → n ≤ k.number) (hreached : least = some n ∨ ∃ k, some k ∈ ks ∧ k.number = n) :
    ks.foldl lesser least = some n := by
  induction ks generalizing least with
  | nil => simpa using hreached
  | cons k ks ih =>
    have hk : ∀ j ∈ k, n ≤ j.number := by
      rintro j rfl
      exact hks j List.mem_cons_self
    refine ih (le_lesser hleast hk) (fun j hj => hks j (List.mem_cons_of_mem k hj)) ?_
    rcases hreached with h | ⟨j, hj, hn⟩
    · exact .inl (lesser_eq_some hleast hk (.inl h))
    · rcases List.mem_cons.mp hj with rfl | hj
      · exact .inl (lesser_eq_some hleast hk (.inr ⟨j, rfl, hn⟩))
      · exact .inr ⟨j, hj, hn⟩

/-- The least number is that of a pending key, if none is less. -/
theorem firstKey_eq_of_mem {n : Nat} (hle : ∀ k, some k ∈ l.keys → n ≤ k.number)
    (hmem : ∃ k, some k ∈ l.keys ∧ k.number = n) : l.firstKey = some n :=
  foldl_lesser (by simp) hle (.inr hmem)

/-! ## Handing out -/

/-- Handing out a token that begins no key leaves the lexer at the spot. -/
theorem At.next (h : l.At s) (hkey : l.firstKey ≠ some l.taken) {t : Token} {q ready recent : List Token}
    (hq : l.queue = t :: q) (hrest : ready ++ recent.reverse = q) :
    ({ l with ready := t :: ready, recent } : Lexer).next.At s where
  cursor := h.cursor
  indent := h.indent
  indents := h.indents
  keyAllowed := h.keyAllowed
  keys := h.keys
  harmless := h.harmless
  ahead := by
    intro k hk
    have hle := h.ahead k hk
    -- else the key would begin with the token that goes
    have hne : k.number ≠ l.taken := fun hn => hkey (firstKey_eq_of_mem h.ahead ⟨k, hk, hn⟩)
    show l.taken + 1 ≤ k.number
    omega
  going := h.going
  taken := by
    have hlength := congrArg List.length (h.queue.symm.trans hq)
    rw [List.length_drop, List.length_cons] at hlength
    show l.taken + 1 ≤ s.tokens.length
    omega
  queue := by
    have htail := congrArg List.tail (h.queue.symm.trans hq)
    rw [List.tail_drop] at htail
    show ready ++ recent.reverse = s.tokens.drop (l.taken + 1)
    rw [hrest, htail]
    rfl
  count := h.count
  room := h.room

/-- With all tokens handed out, filling takes a step. -/
theorem At.fill_of_none (h : l.At s) (hcount : l.taken = l.count) (fuel : Nat) :
    fill (fuel + 1) l = l.step >>= fill fuel := by
  rw [fill, h.going, if_neg Bool.false_ne_true, if_pos hcount]

/-- Else it takes one only if a key may begin with the next token. -/
theorem At.fill_of_some (h : l.At s) (hcount : l.taken ≠ l.count) (fuel : Nat) :
    let m : Lexer := { l with keys := l.keys.map (fresh l.cursor) }
    fill (fuel + 1) l = if m.firstKey = some m.taken then (m.step >>= fill fuel) else .ok m := by
  intro m
  rw [fill, h.going, if_neg Bool.false_ne_true, if_neg hcount, h.dropStaleKeys]
  rfl

theorem settled_map_fresh (hcount : l.taken ≠ l.count)
    (hkey : ({ l with keys := l.keys.map (fresh l.cursor) } : Lexer).firstKey ≠ some l.taken) :
    ({ l with keys := l.keys.map (fresh l.cursor) } : Lexer).Settled := by
  refine .inr ⟨hcount, fun k hk => ?_, hkey⟩
  obtain ⟨k', -, hk'⟩ := List.mem_map.mp hk
  have hfresh := any_isStale_fresh l.cursor k'
  rw [hk'] at hfresh
  exact hfresh

theorem At.exists_queue (h : l.At s) (hcount : l.taken ≠ l.count) : ∃ t q, l.queue = t :: q := by
  refine List.exists_cons_of_ne_nil fun hnil => hcount ?_
  have hlength := congrArg List.length (h.queue.symm.trans hnil)
  have htaken := h.taken
  rw [List.length_drop, List.length_nil] at hlength
  rw [h.count]
  omega

/-- What filling comes to at a spot, if it is known what it comes to after a step, and what follows of a lexer
that hands out a token. The induction is on the tokens left to hand out. -/
theorem exists_fill {G : Except Fault Lexer → Nat → Prop}
    (hstep : ∀ l : Lexer, l.At s → ∃ x,
      (∀ fuel, s.cursor.rest.length < fuel → (l.step >>= fill fuel) = x) ∧ G x l.taken)
    (hhand : ∀ (m : Lexer) (t : Token) (q : List Token), m.At s → m.Settled → m.queue = t :: q →
      (∀ ready recent, ready ++ recent.reverse = q →
        let m' := ({ m with ready := t :: ready, recent } : Lexer).next
        m'.At s ∧ ∃ x, fill (m'.size + 2) m' = x ∧ G x m'.taken) → G (.ok m) m.taken)
    (hl : l.At s) : ∃ x, (∀ fuel, s.cursor.rest.length + 1 < fuel → fill fuel l = x) ∧ G x l.taken := by
  obtain ⟨left, hleft⟩ : ∃ left, s.tokens.length = l.taken + left := Nat.exists_eq_add_of_le hl.taken
  have hsucc : ∀ {fuel}, s.cursor.rest.length + 1 < fuel → ∃ n, fuel = n + 1 ∧ s.cursor.rest.length < n :=
    fun {fuel} hfuel => ⟨fuel - 1, by omega, by omega⟩
  induction left generalizing l with
  | zero =>
    -- nothing is left, so a step is taken
    have hcount : l.taken = l.count := by rw [hl.count, hleft, Nat.add_zero]
    obtain ⟨x, hx, hG⟩ := hstep l hl
    refine ⟨x, fun fuel hfuel => ?_, hG⟩
    obtain ⟨fuel, rfl, hlt⟩ := hsucc hfuel
    rw [hl.fill_of_none hcount, hx fuel hlt]
  | succ left ih =>
    have hcount : l.taken ≠ l.count := by
      rw [hl.count, hleft]
      omega
    let m : Lexer := { l with keys := l.keys.map (fresh l.cursor) }
    have hm : m.At s := hl.map_fresh
    by_cases hkey : m.firstKey = some m.taken
    · -- a key may begin with the next token
      obtain ⟨x, hx, hG⟩ := hstep m hm
      refine ⟨x, fun fuel hfuel => ?_, hG⟩
      obtain ⟨fuel, rfl, hlt⟩ := hsucc hfuel
      rw [hl.fill_of_some hcount, if_pos hkey, hx fuel hlt]
    · -- the next token may go, and then one less is left
      obtain ⟨t, q, hq⟩ := hm.exists_queue hcount
      refine ⟨.ok m, fun fuel hfuel => ?_,
        hhand m t q hm (settled_map_fresh hcount hkey) hq fun ready recent hrest => ?_⟩
      · obtain ⟨fuel, rfl, -⟩ := hsucc hfuel
        rw [hl.fill_of_some hcount, if_neg hkey]
      · have hnext := hm.next hkey hq hrest
        obtain ⟨x, hx, hG⟩ := ih hnext (by
          show s.tokens.length = l.taken + 1 + left
          omega)
        refine ⟨hnext, x, hx _ ?_, hG⟩
        have := hnext.room
        omega

/-! ## Steps -/

/-- A step leads from one spot to another, further on in the text, and puts no token before one that was
handed out. -/
structure Goes (s s' : Spot) : Prop where
  shorter : s'.cursor.rest.length < s.cursor.rest.length
  keeps : s.tokens ⊆ s'.tokens
  step : ∀ l : Lexer, l.At s → ∃ l', l.step = .ok l' ∧ l'.At s' ∧ l'.taken = l.taken ∧
    s'.tokens.take l.taken = s.tokens.take l.taken

/-- Steps lead to the end of the text, with these tokens read. -/
inductive Run : Spot → List Token → Prop
  | done {s : Spot} {ts : List Token}
      (step : ∀ l : Lexer, l.At s → ∃ l', l.step = .ok l' ∧ l'.done = true ∧
        l'.queue = ts.drop l.taken ∧ ts.take l.taken = s.tokens.take l.taken) : Run s ts
  | step {s s' : Spot} {ts : List Token} (goes : Goes s s') (more : Run s' ts) : Run s ts

/-- Steps lead to a fault. -/
inductive Stops : Spot → Prop
  | fault {s : Spot} (unfinished : Token.streamEnd ∉ s.tokens)
      (step : ∀ l : Lexer, l.At s → ∃ e, l.step = .error e) : Stops s
  | step {s s' : Spot} (goes : Goes s s') (more : Stops s') : Stops s

theorem Run.take (h : Run s ts) (hl : l.At s) : ts.take l.taken = s.tokens.take l.taken := by
  induction h generalizing l with
  | done step => exact (step l hl).choose_spec.2.2.2
  | step goes _ ih =>
    obtain ⟨l', -, hl', htaken, htake⟩ := goes.step l hl
    rw [← htake, ← htaken, ih hl']

/-- Behind the end of the text everything that was read comes out. -/
theorem yields_of_done {q : List Token} (hdone : l.done = true) (hq : l.queue = q) : l.Yields q := by
  induction q generalizing l with
  | nil => exact .nil l
  | cons t q ih =>
    obtain ⟨ready, recent, hrest, hahead, hagain⟩ := ahead_of_settled (.inl hdone) hq
    exact .cons hahead hagain (ih (l := ({ l with ready := t :: ready, recent } : Lexer).next) hdone hrest)

/-- Filling comes to a lexer that hands out the tokens from this number on. -/
def Offered (ts : List Token) (x : Except Fault Lexer) (n : Nat) : Prop :=
  ∃ m, x = .ok m ∧ m.Settled ∧ m.Yields (ts.drop n)

theorem Offered.yields {x : Except Fault Lexer} {n : Nat} (h : Offered ts x n)
    (hfill : fill (l.size + 2) l = x) : l.Yields (ts.drop n) := by
  obtain ⟨m, rfl, hm, hyields⟩ := h
  generalize ts.drop n = ts at hyields
  cases ts with
  | nil => exact .nil l
  | cons t ts => exact hyields.of_ahead_eq (ahead_eq_of_fill hfill hm)

theorem drop_eq_cons_of_take {T q : List Token} {n : Nat} {t : Token}
    (htake : ts.take (n + 1) = T.take (n + 1)) (hT : T.drop n = t :: q) : ts.drop n = t :: ts.drop (n + 1) := by
  have hget : ts[n]? = some t := by
    rw [← List.getElem?_take_of_lt (Nat.lt_succ_self n), htake, List.getElem?_take_of_lt (Nat.lt_succ_self n),
      ← List.head?_drop, hT]
    rfl
  obtain ⟨hn, rfl⟩ := List.getElem?_eq_some_iff.mp hget
  exact List.drop_eq_getElem_cons hn

/-- What is settled hands out its first token, and the others come after it. -/
theorem offered_of_hand (h : Run s ts) {t : Token} {q : List Token} (hm : m.At s) (hsettled : m.Settled)
    (hq : m.queue = t :: q)
    (hmore : ∀ ready recent, ready ++ recent.reverse = q →
      let m' := ({ m with ready := t :: ready, recent } : Lexer).next
      m'.At s ∧ ∃ x, fill (m'.size + 2) m' = x ∧ Offered ts x m'.taken) : Offered ts (.ok m) m.taken := by
  obtain ⟨ready, recent, hrest, hahead, hagain⟩ := ahead_of_settled hsettled hq
  obtain ⟨hnext, x, hfill, hoffered⟩ := hmore ready recent hrest
  refine ⟨m, rfl, hsettled, ?_⟩
  rw [drop_eq_cons_of_take (h.take hnext) (hm.queue.symm.trans hq)]
  exact .cons hahead hagain (hoffered.yields hfill)

theorem Run.exists_fill (h : Run s ts) (hl : l.At s) :
    ∃ x, (∀ fuel, s.cursor.rest.length + 1 < fuel → fill fuel l = x) ∧ Offered ts x l.taken := by
  induction h generalizing l with
  | @done s ts step =>
    refine Lexer.exists_fill (fun l hl => ?_) (fun m t q hm hsettled hq hmore => ?_) hl
    · obtain ⟨l', hstep, hdone, hqueue, -⟩ := step l hl
      refine ⟨.ok l', fun fuel hfuel => ?_, l', rfl, .inl hdone, yields_of_done hdone hqueue⟩
      obtain ⟨fuel, rfl⟩ := Nat.exists_eq_add_one_of_ne_zero (Nat.ne_of_gt (Nat.zero_lt_of_lt hfuel))
      rw [hstep]
      exact fill_of_settled (.inl hdone) fuel
    · exact offered_of_hand (.done step) hm hsettled hq hmore
  | @step s s' ts goes more ih =>
    refine Lexer.exists_fill (fun l hl => ?_) (fun m t q hm hsettled hq hmore => ?_) hl
    · obtain ⟨l', hstep, hl', htaken, -⟩ := goes.step l hl
      obtain ⟨x, hx, hoffered⟩ := ih hl'
      rw [htaken] at hoffered
      refine ⟨x, fun fuel hfuel => ?_, hoffered⟩
      rw [hstep]
      exact hx fuel (Nat.lt_of_le_of_lt goes.shorter hfuel)
    · exact offered_of_hand (.step goes more) hm hsettled hq hmore

/-- **All tokens come out**, those that were handed out apart. -/
theorem Run.yields (h : Run s ts) (hl : l.At s) : l.Yields (ts.drop l.taken) := by
  obtain ⟨x, hx, hoffered⟩ := h.exists_fill hl
  have hroom := hl.room
  exact hoffered.yields (hx _ (by omega))

/-! ## Faults -/

/-- The lexer hands out some tokens, none of them the end of the text, and then fails. -/
inductive Breaks : Lexer → Prop
  | fault {l : Lexer} {e : Fault} (ahead : l.ahead = .error e) : Breaks l
  | cons {l l' : Lexer} {t : Token} (ahead : l.ahead = .ok (t, l')) (again : l'.ahead = .ok (t, l'))
      (unfinished : t ≠ .streamEnd) (more : Breaks l'.next) : Breaks l

theorem Breaks.of_ahead_eq (h : Breaks m) (heq : l.ahead = m.ahead) : Breaks l := by
  cases h with
  | fault ahead => exact .fault (heq.trans ahead)
  | cons ahead again unfinished more => exact .cons (heq.trans ahead) again unfinished more

/-- Filling comes to a fault, or to a lexer that will fail. -/
def Doomed (x : Except Fault Lexer) : Prop := ∀ m, x = .ok m → m.Settled ∧ m.Breaks

theorem Doomed.breaks {x : Except Fault Lexer} (h : Doomed x) (hfill : fill (l.size + 2) l = x) : l.Breaks := by
  cases x with
  | error e =>
    refine .fault (e := e) ?_
    rw [ahead, hfill]
    rfl
  | ok m =>
    obtain ⟨hm, hbreaks⟩ := h m rfl
    exact hbreaks.of_ahead_eq (ahead_eq_of_fill hfill hm)

theorem Stops.notMem (h : Stops s) : Token.streamEnd ∉ s.tokens := by
  induction h with
  | fault unfinished => exact unfinished
  | step goes _ ih => exact fun hmem => ih (goes.keeps hmem)

theorem Stops.exists_fill (h : Stops s) (hl : l.At s) :
    ∃ x, (∀ fuel, s.cursor.rest.length + 1 < fuel → fill fuel l = x) ∧ Doomed x := by
  have hhand : ∀ {s : Spot}, Stops s → ∀ (m : Lexer) (t : Token) (q : List Token), m.At s → m.Settled →
      m.queue = t :: q → (∀ ready recent, ready ++ recent.reverse = q →
        let m' := ({ m with ready := t :: ready, recent } : Lexer).next
        m'.At s ∧ ∃ x, fill (m'.size + 2) m' = x ∧ Doomed x) → Doomed (.ok m) := by
    intro s hstops m t q hm hsettled hq hmore
    obtain ⟨ready, recent, hrest, hahead, hagain⟩ := ahead_of_settled hsettled hq
    obtain ⟨-, x, hfill, hx⟩ := hmore ready recent hrest
    have hmem : t ∈ s.tokens := by
      have hfirst : t ∈ s.tokens.drop m.taken := by
        rw [← hm.queue, hq]
        exact List.mem_cons_self
      exact List.mem_of_mem_drop hfirst
    intro m' hm'
    cases hm'
    exact ⟨hsettled, .cons hahead hagain (fun ht => hstops.notMem (ht ▸ hmem)) (hx.breaks hfill)⟩
  induction h generalizing l with
  | @fault s unfinished step =>
    refine Lexer.exists_fill (G := fun x _ => Doomed x) (fun l hl => ?_) (hhand (.fault unfinished step)) hl
    obtain ⟨e, hstep⟩ := step l hl
    refine ⟨.error e, fun fuel _ => by rw [hstep]; rfl, fun m hm => by cases hm⟩
  | @step s s' goes more ih =>
    refine Lexer.exists_fill (G := fun x _ => Doomed x) (fun l hl => ?_) (hhand (.step goes more)) hl
    obtain ⟨l', hstep, hl', -, -⟩ := goes.step l hl
    obtain ⟨x, hx, hdoomed⟩ := ih hl'
    refine ⟨x, fun fuel hfuel => ?_, hdoomed⟩
    rw [hstep]
    exact hx fuel (Nat.lt_of_le_of_lt goes.shorter hfuel)

/-- **A lexer on its way to a fault fails** before it comes to the end. -/
theorem Stops.breaks (h : Stops s) (hl : l.At s) : l.Breaks := by
  obtain ⟨x, hx, hdoomed⟩ := h.exists_fill hl
  have hroom := hl.room
  exact hdoomed.breaks (hx _ (by omega))

end Lexer

end CommentStyle.Yaml
