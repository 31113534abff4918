import CommentStyle.Proofs.Yaml.Scanning
import CommentStyle.Yaml.Document

/-!
# How the parser goes through its tokens

The parser takes tokens one by one, and it knows of the lexer only what looking at them tells. So a property of
lexers that looking at a token and taking it keep is kept by the whole descent; and a fault that is not one of
form comes from the lexer, or from a collection for which there is no room. The walk through the parsers is done
here once, for any such property.

* **`Watch`** — the property, before and after a token is looked at, with a bound on what may still begin, and
  what a fault is put down to.
* **`Reads`** — what a step of the reading says of the lexer it leaves, and of its faults.
* **`Watch.Nodes`** — this for the parsers of nodes, which call each other; one lemma each, then the induction.
* **`Watch.reads_document`** — a document is complete only at the end of the text.
-/

namespace CommentStyle.Yaml

/-- From a lexer with the first property a success leaves one with the second, and a fault that is not one of
form has the cause. -/
def Reads {α : Type} (P : Lexer → Prop) (x : Read α) (Q : Lexer → Prop) (Cause : Unmade → Prop) : Prop :=
  ∀ r, P r.lexer → Yields (x.run r) (fun p => Q p.2.lexer) Cause

namespace Reads

variable {α β : Type} {P Q R : Lexer → Prop} {x : Read α} {Cause Cause' : Unmade → Prop}

theorem bind {f : α → Read β} (hx : Reads P x Q Cause) (hf : ∀ a, Reads Q (f a) R Cause) :
    Reads P (x >>= f) R Cause := by
  intro r hr
  rw [StateT.run_bind]
  exact (hx r hr).bind fun p hp => hf p.1 p.2 hp

theorem pure (a : α) : Reads P (Pure.pure a : Read α) P Cause := fun _ hr => .ok hr

theorem malformed : Reads P (MonadExcept.throw Fault.malformed : Read α) Q Cause := fun _ _ => .malformed

theorem of_imp (hx : Reads Q x R Cause) (himp : ∀ l, P l → Q l) : Reads P x R Cause := fun r hr =>
  hx r (himp _ hr)

theorem imp (hx : Reads P x Q Cause) (himp : ∀ l, Q l → R l) (hcause : ∀ f, Cause f → Cause' f) :
    Reads P x R Cause' := fun r hr => (hx r hr).imp (fun p => himp p.2.lexer) hcause

/-- Changes to the document leave the lexer as it is. -/
theorem modify {f : Reading → Reading} (hf : ∀ r, (f r).lexer = r.lexer) :
    Reads P (modify f : Read PUnit) P Cause := fun r hr => .ok (show P (f r).lexer from (hf r).symm ▸ hr)

theorem get : Reads P (MonadState.get : Read Reading) P Cause := fun _ hr => .ok hr

/-- Where there is no room, that is the fault. -/
theorem deeper {room : Nat} {f : Nat → Read α} (hfull : room = 0 → ∀ l, P l → Cause .tooDeep)
    (hf : ∀ inner, room = inner + 1 → Reads P (f inner) Q Cause) :
    Reads P (liftM (Yaml.deeper room) >>= f) Q Cause := by
  cases room with
  | zero => exact fun r hr => .unmade (hfull rfl r.lexer hr)
  | succ inner => exact hf inner rfl

end Reads

/-! ## What is done to the document -/

section Document

variable {P : Lexer → Prop} {Cause : Unmade → Prop} (anchor : Option String)

theorem reads_bindAnchor (n : Nat) : Reads P (Read.bindAnchor anchor n) P Cause := by
  cases anchor with
  | none => exact .pure ()
  | some name => exact .modify fun _ => rfl

theorem reads_begin (node : Node) : Reads P (Read.begin anchor node) P Cause := by
  refine Reads.get.bind fun r => ?_
  refine .bind (.modify ?_) fun _ => (reads_bindAnchor anchor _).bind fun _ => .pure _
  exact fun _ => rfl

theorem reads_complete (n : Nat) (body : Body) : Reads P (Read.complete n body) P Cause := by
  refine .bind (.modify ?_) fun _ => .pure n
  exact fun _ => rfl

theorem reads_scalar (tag : Tag) (text : List Char) : Reads P (Read.scalar anchor tag text) P Cause := by
  refine (reads_begin anchor _).bind fun n => .bind (.modify ?_) fun _ => .pure n
  exact fun _ => rfl

theorem reads_nothing : Reads P Read.nothing P Cause := reads_scalar none .null []

theorem reads_anchored (name : String) : Reads P (Read.anchored name) P Cause := by
  refine Reads.get.bind fun r => ?_
  split
  · exact .pure _
  · exact .malformed

theorem reads_freshAnchor : Reads P (Read.freshAnchor anchor) P Cause := by
  cases anchor with
  | none => exact .pure ()
  | some name =>
    refine Reads.get.bind fun r => ?_
    split
    · exact .malformed
    · exact .pure _

theorem reads_fullName (name : TagName) : Reads P (Read.fullName name) P Cause := by
  unfold Read.fullName
  split
  · exact .pure _
  · refine Reads.get.bind fun r => ?_
    split
    · exact .pure _
    · exact .malformed

end Document

/-! ## Tokens -/

/-- A property of lexers that looking at tokens and taking them keep, with a bound on the collections and items
that may still begin. A token that begins one lowers the bound; what a fault inside is put down to depends on the
bound and on the room that is left. -/
structure Watch where
  before : Nat → Lexer → Prop
  /-- The token ahead has been looked at. -/
  looked : Nat → Token → Lexer → Prop
  /-- What a fault is put down to, by the bound and the room. -/
  cause : Nat → Nat → Unmade → Prop
  ahead : ∀ {k l}, before k l → ∀ room, Yields l.ahead (fun r => looked k r.1 r.2) (cause k room)
  unlooked : ∀ {k t l}, looked k t l → before k l
  next : ∀ {k t l}, looked k t l → before k l.next
  opened : ∀ {k t l}, looked k t l → t.opens = true → before (k - 1) l.next
  widen : ∀ {k l}, before (k - 1) l → before k l
  full : ∀ {k l}, before k l → cause k 0 .tooDeep
  inner : ∀ {k room f}, cause (k - 1) room f → cause k (room + 1) f
  shallow : ∀ {k room f}, cause k (room + 1) f → cause k room f

namespace Watch

variable (w : Watch) {k room : Nat}

theorem reads_peek_of {α : Type} {Q : Lexer → Prop} {Cause : Unmade → Prop} {f : Token → Read α}
    (hcause : ∀ g, w.cause k room g → Cause g) (hf : ∀ t, Reads (w.looked k t) (f t) Q Cause) :
    Reads (w.before k) (Read.peek >>= f) Q Cause := by
  intro r hr
  rw [StateT.run_bind]
  have hahead := w.ahead hr room
  simp only [Read.peek, StateT.run_bind, StateT.run_get, pure_bind]
  cases h : r.lexer.ahead with
  | error e =>
    rw [h] at hahead
    exact ⟨fun _ hb => (by cases hb), fun g hg => hcause g (hahead.cause g (by cases hg; rfl))⟩
  | ok p => exact hf p.1 { r with lexer := p.2 } (hahead.result p h)

theorem reads_peek {α : Type} {Q : Lexer → Prop} {f : Token → Read α}
    (hf : ∀ t, Reads (w.looked k t) (f t) Q (w.cause k room)) :
    Reads (w.before k) (Read.peek >>= f) Q (w.cause k room) :=
  w.reads_peek_of (fun _ => id) hf

/-- Behind a token that begins something a fault is put down to what it would be before it. -/
theorem reads_peek_inner {α : Type} {Q : Lexer → Prop} {f : Token → Read α}
    (hf : ∀ t, Reads (w.looked (k - 1) t) (f t) Q (w.cause k (room + 1))) :
    Reads (w.before (k - 1)) (Read.peek >>= f) Q (w.cause k (room + 1)) :=
  w.reads_peek_of (fun _ => w.inner) hf

theorem reads_next {t : Token} {Cause : Unmade → Prop} : Reads (w.looked k t) Read.next (w.before k) Cause :=
  fun _ hr => .ok (w.next hr)

theorem reads_open {t : Token} (ht : t.opens = true) {Cause : Unmade → Prop} :
    Reads (w.looked k t) Read.next (w.before (k - 1)) Cause :=
  fun _ hr => .ok (w.opened hr ht)

/-- The token ahead may be looked at and then left where it is. -/
theorem reads_unlooked {α : Type} {Q : Lexer → Prop} {Cause : Unmade → Prop} {x : Read α} {t : Token}
    (hx : Reads (w.before k) x Q Cause) : Reads (w.looked k t) x Q Cause := hx.of_imp fun _ => w.unlooked

theorem reads_anchorAhead : Reads (w.before k) Read.anchorAhead (w.before k) (w.cause k room) := by
  refine w.reads_peek fun t => ?_
  split
  · exact w.reads_next.bind fun _ => .pure _
  · exact w.reads_unlooked (.pure _)

theorem reads_tagAhead : Reads (w.before k) Read.tagAhead (w.before k) (w.cause k room) := by
  refine w.reads_peek fun t => ?_
  split
  · exact w.reads_next.bind fun _ => .pure _
  · exact w.reads_unlooked (.pure _)

theorem reads_properties : Reads (w.before k) Read.properties (w.before k) (w.cause k room) := by
  refine w.reads_anchorAhead.bind fun anchor => w.reads_tagAhead.bind fun tag => ?_
  cases tag with
  | none =>
    simp only
    split
    · exact w.reads_anchorAhead.bind fun _ => .pure _
    · exact (Reads.pure _).bind fun _ => .pure _
  | some name =>
    simp only
    split
    · exact w.reads_anchorAhead.bind fun _ => (reads_fullName name).bind fun _ => .pure _
    · exact (Reads.pure _).bind fun _ => (reads_fullName name).bind fun _ => .pure _

/-! ## Nodes -/

/-- A collection is begun if there is room, its parts are read, and it is complete. -/
theorem reads_collection {α : Type} {P : Lexer → Prop} {parts : Nat → Read α} (hP : ∀ l, P l → w.before k l)
    (hparts : ∀ inner, room = inner + 1 → Reads P (parts inner) (w.before k) (w.cause k room))
    (anchor : Option String) (node : Node) (body : α → Body) :
    Reads P (do
      let inner ← deeper room
      let n ← Read.begin anchor node
      Read.complete n (body (← parts inner))) (w.before k) (w.cause k room) := by
  refine .deeper (fun hroom l hl => ?_) fun inner hinner => ?_
  · subst hroom
    exact w.full (hP l hl)
  · exact (reads_begin anchor node).bind fun n => (hparts inner hinner).bind fun _ => reads_complete n _

/-- The parsers of nodes keep what is watched. That of a pair passes over a mark that was looked at before. The
parsers of items and of block entries begin with a token that lowers the bound, and so have one to spare. -/
structure Nodes (fuel : Nat) : Prop where
  node : ∀ k room block indentless,
    Reads (w.before k) (Read.node room block indentless fuel) (w.before k) (w.cause k room)
  blockItems : ∀ k room items,
    Reads (w.before k) (Read.blockItems room fuel items) (w.before k) (w.cause k (room + 1))
  indentlessItems : ∀ k room items,
    Reads (w.before k) (Read.indentlessItems room fuel items) (w.before k) (w.cause k (room + 1))
  blockEntries : ∀ k room entries,
    Reads (w.before k) (Read.blockEntries room fuel entries) (w.before k) (w.cause k (room + 1))
  flowPair : ∀ k room close,
    Reads (w.looked k .key) (Read.flowPair room close fuel) (w.before k) (w.cause k (room + 1))
  flowItems : ∀ k room first items,
    Reads (w.before k) (Read.flowItems room first fuel items) (w.before k) (w.cause k room)
  flowEntries : ∀ k room first entries,
    Reads (w.before k) (Read.flowEntries room first fuel entries) (w.before k) (w.cause k room)

namespace Nodes

variable {w} {fuel : Nat}

/-- A node behind a token that has lowered the bound. -/
theorem node_inner (h : w.Nodes fuel) (k room : Nat) (block indentless : Bool) :
    Reads (w.before (k - 1)) (Read.node room block indentless fuel) (w.before (k - 1)) (w.cause k (room + 1)) :=
  (h.node (k - 1) room block indentless).imp (fun _ => id) fun _ => w.inner

theorem node_succ (h : w.Nodes fuel) (k room : Nat) (block indentless : Bool) :
    Reads (w.before k) (Read.node room block indentless (fuel + 1)) (w.before k) (w.cause k room) := by
  rw [Read.node]
  refine w.reads_peek fun t => ?_
  split
  · exact w.reads_next.bind fun _ => reads_anchored _
  refine w.reads_unlooked (w.reads_properties.bind fun p => w.reads_peek fun t => ?_)
  refine (reads_freshAnchor p.anchor).bind fun _ => ?_
  split
  · exact w.reads_next.bind fun _ => reads_scalar _ _ _
  -- the bracket is taken before the room is asked for, and lowers the bound by as much
  · refine (w.reads_open rfl).bind fun _ => w.reads_collection (fun _ => w.widen) (fun inner hinner => ?_) _ _ .seq
    exact hinner ▸ (h.flowItems (k - 1) inner true []).imp (fun _ => w.widen) fun _ => w.inner
  · refine (w.reads_open rfl).bind fun _ => w.reads_collection (fun _ => w.widen) (fun inner hinner => ?_) _ _ .map
    exact hinner ▸ (h.flowEntries (k - 1) inner true []).imp (fun _ => w.widen) fun _ => w.inner
  -- a block has no mark of its own: what lowers the bound are its items and keys
  · split
    · refine w.reads_next.bind fun _ => w.reads_collection (fun _ => id) (fun inner hinner => ?_) _ _ .seq
      exact hinner ▸ h.blockItems k inner []
    split
    · refine w.reads_unlooked (w.reads_collection (fun _ => id) (fun inner hinner => ?_) _ _ .seq)
      exact hinner ▸ h.indentlessItems k inner []
    split
    · refine w.reads_next.bind fun _ => w.reads_collection (fun _ => id) (fun inner hinner => ?_) _ _ .map
      exact hinner ▸ h.blockEntries k inner []
    split
    · exact w.reads_unlooked (reads_scalar _ _ _)
    · exact .malformed

theorem blockItems_succ (h : w.Nodes fuel) (k room : Nat) (items : List Nat) :
    Reads (w.before k) (Read.blockItems room (fuel + 1) items) (w.before k) (w.cause k (room + 1)) := by
  rw [Read.blockItems]
  refine w.reads_peek fun t => ?_
  split
  · exact w.reads_next.bind fun _ => .pure _
  · refine (w.reads_open rfl).bind fun _ => w.reads_peek_inner fun t => ?_
    have hmore : ∀ n, Reads (w.before (k - 1)) (Read.blockItems room fuel (n :: items)) (w.before k)
        (w.cause k (room + 1)) := fun n => (h.blockItems k room _).of_imp fun _ => w.widen
    refine w.reads_unlooked ?_
    split
    case h_3 => exact (h.node_inner k room true false).bind hmore
    all_goals exact reads_nothing.bind hmore
  · exact .malformed

theorem indentlessItems_succ (h : w.Nodes fuel) (k room : Nat) (items : List Nat) :
    Reads (w.before k) (Read.indentlessItems room (fuel + 1) items) (w.before k) (w.cause k (room + 1)) := by
  rw [Read.indentlessItems]
  refine w.reads_peek fun t => ?_
  split
  · refine (w.reads_open rfl).bind fun _ => w.reads_peek_inner fun t => ?_
    have hmore : ∀ n, Reads (w.before (k - 1)) (Read.indentlessItems room fuel (n :: items)) (w.before k)
        (w.cause k (room + 1)) := fun n => (h.indentlessItems k room _).of_imp fun _ => w.widen
    refine w.reads_unlooked ?_
    split
    case h_5 => exact (h.node_inner k room true false).bind hmore
    all_goals exact reads_nothing.bind hmore
  · exact w.reads_unlooked (.pure _)

theorem blockEntries_succ (h : w.Nodes fuel) (k room : Nat) (entries : List (Nat × Nat)) :
    Reads (w.before k) (Read.blockEntries room (fuel + 1) entries) (w.before k) (w.cause k (room + 1)) := by
  rw [Read.blockEntries]
  refine w.reads_peek fun t => ?_
  split
  · exact w.reads_next.bind fun _ => .pure _
  · refine (w.reads_open rfl).bind fun _ => w.reads_peek_inner fun t => ?_
    extract_lets behindKey
    have hmore : ∀ e, Reads (w.before (k - 1)) (Read.blockEntries room fuel (e :: entries)) (w.before k)
        (w.cause k (room + 1)) := fun e => (h.blockEntries k room _).of_imp fun _ => w.widen
    have hbehindKey : ∀ n, Reads (w.before (k - 1)) (behindKey n) (w.before k) (w.cause k (room + 1)) := by
      intro n
      refine w.reads_peek_inner fun t => ?_
      split
      · refine w.reads_next.bind fun _ => w.reads_peek_inner fun t => ?_
        refine w.reads_unlooked ?_
        split
        case h_4 => exact (h.node_inner k room true true).bind fun _ => hmore _
        all_goals exact reads_nothing.bind fun _ => hmore _
      · exact w.reads_unlooked (reads_nothing.bind fun _ => hmore _)
    refine w.reads_unlooked ?_
    split
    case h_4 => exact (h.node_inner k room true true).bind hbehindKey
    all_goals exact reads_nothing.bind hbehindKey
  · exact .malformed

theorem flowPair_succ (h : w.Nodes fuel) (k room : Nat) (close : Token) :
    Reads (w.looked k .key) (Read.flowPair room close (fuel + 1)) (w.before k) (w.cause k (room + 1)) := by
  rw [Read.flowPair]
  refine (w.reads_open rfl).bind fun _ => w.reads_peek_inner fun t => ?_
  extract_lets behindKey
  have hdone : ∀ p : Nat × Nat, Reads (w.before (k - 1)) (pure p) (w.before k) (w.cause k (room + 1)) := fun p =>
    (Reads.pure p).imp (fun _ => w.widen) fun _ => id
  have hbehindKey : ∀ n, Reads (w.before (k - 1)) (behindKey n) (w.before k) (w.cause k (room + 1)) := by
    intro n
    refine w.reads_peek_inner fun t => ?_
    split
    · refine w.reads_next.bind fun _ => w.reads_peek_inner fun t => ?_
      refine w.reads_unlooked ?_
      split
      · exact reads_nothing.bind fun _ => hdone _
      · exact (h.node_inner k room false false).bind fun _ => hdone _
    · exact w.reads_unlooked (reads_nothing.bind fun _ => hdone _)
  refine w.reads_unlooked ?_
  split
  · exact reads_nothing.bind hbehindKey
  · exact (h.node_inner k room false false).bind hbehindKey

theorem flowItems_succ (h : w.Nodes fuel) (k room : Nat) (first : Bool) (items : List Nat) :
    Reads (w.before k) (Read.flowItems room first (fuel + 1) items) (w.before k) (w.cause k room) := by
  rw [Read.flowItems]
  refine w.reads_peek fun t => ?_
  split
  · exact w.reads_next.bind fun _ => .pure _
  extract_lets item comma
  have hitem : ∀ u, Reads (w.before k) (item u) (w.before k) (w.cause k room) := by
    intro _
    refine w.reads_peek fun t => ?_
    split
    · exact w.reads_next.bind fun _ => .pure _
    -- a pair among items is a mapping of one entry, which takes room
    · refine .deeper (fun hroom l hl => hroom ▸ w.full (w.unlooked hl)) fun inner hinner => ?_
      refine (reads_begin _ _).bind fun n => ?_
      exact (hinner ▸ h.flowPair k inner _).bind fun _ => (reads_complete n _).bind fun _ => h.flowItems _ _ _ _
    · exact w.reads_unlooked ((h.node _ _ _ _).bind fun _ => h.flowItems _ _ _ _)
  split
  · split
    · exact .malformed
    · exact w.reads_next.bind hitem
  · exact w.reads_unlooked (hitem ())

theorem flowEntries_succ (h : w.Nodes fuel) (k room : Nat) (first : Bool) (entries : List (Nat × Nat)) :
    Reads (w.before k) (Read.flowEntries room first (fuel + 1) entries) (w.before k) (w.cause k room) := by
  rw [Read.flowEntries]
  refine w.reads_peek fun t => ?_
  split
  · exact w.reads_next.bind fun _ => .pure _
  extract_lets entry comma
  have hentry : ∀ u, Reads (w.before k) (entry u) (w.before k) (w.cause k room) := by
    intro _
    refine w.reads_peek fun t => ?_
    split
    · exact w.reads_next.bind fun _ => .pure _
    · have hpair := (h.flowPair k room .flowMappingEnd).imp (fun _ => id) fun _ => w.shallow
      exact hpair.bind fun _ => h.flowEntries _ _ _ _
    · refine w.reads_unlooked ?_
      exact (h.node _ _ _ _).bind fun _ => w.reads_peek fun _ =>
        w.reads_unlooked (reads_nothing.bind fun _ => h.flowEntries _ _ _ _)
  split
  · split
    · exact .malformed
    · exact w.reads_next.bind hentry
  · exact w.reads_unlooked (hentry ())

end Nodes

theorem nodes (fuel : Nat) : w.Nodes fuel := by
  induction fuel with
  | zero =>
    exact ⟨fun _ _ _ _ => .malformed, fun _ _ _ => .malformed, fun _ _ _ => .malformed, fun _ _ _ => .malformed,
      fun _ _ _ => .malformed, fun _ _ _ _ => .malformed, fun _ _ _ _ => .malformed⟩
  | succ fuel ih =>
    exact ⟨ih.node_succ, ih.blockItems_succ, ih.indentlessItems_succ, ih.blockEntries_succ, ih.flowPair_succ,
      ih.flowItems_succ, ih.flowEntries_succ⟩

/-! ## Documents -/

theorem reads_directives (fuel : Nat) (versioned : Bool) (handles : List (String × String)) :
    Reads (w.before k) (Read.directives fuel versioned handles) (w.before k) (w.cause k room) := by
  induction fuel generalizing versioned handles with
  | zero => exact .malformed
  | succ fuel ih =>
    rw [Read.directives]
    refine w.reads_peek fun t => ?_
    split
    · refine w.reads_next.bind fun _ => ?_
      extract_lets more
      split
      · exact .malformed
      · exact ih _ _
    · refine w.reads_next.bind fun _ => ?_
      extract_lets more
      split
      · exact .malformed
      · exact ih _ _
    · exact w.reads_next.bind fun _ => ih _ _
    · exact w.reads_unlooked (.pure _)

theorem reads_documentEnds (fuel : Nat) :
    Reads (w.before k) (Read.documentEnds fuel) (w.before k) (w.cause k room) := by
  induction fuel with
  | zero => exact .malformed
  | succ fuel ih =>
    rw [Read.documentEnds]
    refine w.reads_peek fun t => ?_
    split
    · exact w.reads_next.bind fun _ => ih
    · exact w.reads_unlooked (.pure _)

theorem reads_documentStart (fuel : Nat) :
    Reads (w.before k) (Read.documentStart fuel) (w.before k) (w.cause k room) := by
  refine (w.reads_directives fuel false []).bind fun handles => w.reads_peek fun t => ?_
  split
  · refine w.reads_next.bind fun _ => .modify ?_
    exact fun _ => rfl
  · exact .malformed

theorem reads_finish (fuel : Nat) :
    Reads (w.before k) (Read.finish fuel) (w.looked k .streamEnd) (w.cause k room) := by
  refine (w.reads_documentEnds fuel).bind fun _ => w.reads_peek fun t => ?_
  split
  · exact .pure ()
  · exact w.reads_unlooked ((w.reads_documentStart fuel).bind fun _ => .malformed)

/-- **The reading of a document.** It is complete when the end of the text has been looked at. -/
theorem reads_document (k fuel : Nat) :
    Reads (w.before k) (Read.document fuel) (w.looked k .streamEnd) (w.cause k nestingLimit) := by
  refine w.reads_peek fun t => ?_
  have hnode : Reads (w.before k) (Read.node nestingLimit true false fuel) (w.before k) (w.cause k nestingLimit) :=
    (w.nodes fuel).node _ _ _ _
  split
  case h_1 => exact .pure none
  case h_4 => exact w.reads_unlooked (hnode.bind fun _ => (w.reads_finish fuel).bind fun _ => .pure _)
  -- behind the marks of a document's beginning there may be nothing
  all_goals
    refine w.reads_unlooked ((w.reads_documentStart fuel).bind fun _ => w.reads_peek fun t => ?_)
    extract_lets behind
    have hbehind : ∀ n, Reads (w.before k) (behind n) (w.looked k .streamEnd) (w.cause k nestingLimit) := fun n =>
      (w.reads_finish fuel).bind fun _ => .pure _
    refine w.reads_unlooked ?_
    split
    case h_5 => exact hnode.bind hbehind
    all_goals exact reads_nothing.bind hbehind

end Watch

end CommentStyle.Yaml
