import CommentStyle.Dump.Text
import CommentStyle.Proofs.Outcome
import CommentStyle.Proofs.Value.Contents
import Mathlib.Data.List.Forall2

/-!
# The grammar of comment dumps

What a dump is, said on the data alone, and what reading says of data that are none. Each reader of `Dump`
gets a relation for its results and one for its faults, and **`Decides`** says that it gives just these.

* **`HasText`**, **`HasKind`**, **`HasOrdinal`**, **`HasPlace`** — the fields of a record with their
  defaults; **`Denotes`** puts them together, and a record is **`Valid`** if it has them all.
* **`KindFault`**, **`PlaceFault`**, **`RecordFault`** — what is wrong with a record, each field being
  blamed only where those before it are right.
* **`commentsFrom_decides`** — the loop over the records, by induction on their list: one comment for each
  record, or the fault of the first that is not valid (**`FirstFault`**).
* **`HasBody`**, **`Holds`**, **`Rejected`** — the same for a dump as a whole.
* **`ofValue_accepts_grammar`** — the headline.

An unknown kind is reported with its text, so one without a text is no fault of the dump
(**`BlamesKind`**). If all numbers can be written, this happens to kinds that are nested too deep, and to no
others.
-/

namespace CommentStyle

namespace Dump

open Value (Under Absent)

/-! ## Fields of a record -/

/-- The text: the entry under `value` if there is one, and else the one under `text`. -/
inductive HasText (es : List (Value × Value)) : String → Prop
  | value {t : String} (h : Under "value" es (.str t)) : HasText es t
  | text {t : String} (hvalue : Absent "value" es) (h : Under "text" es (.str t)) : HasText es t

/-- The kind: a line comment unless another is named. -/
inductive HasKind (es : List (Value × Value)) : Comment.Kind → Prop
  | absent (h : Absent "type" es) : HasKind es .line
  | line (h : Under "type" es (.str "Line")) : HasKind es .line
  | block (h : Under "type" es (.str "Block")) : HasKind es .block

/-- A line or column: 0 unless a whole number or truth value is given. -/
inductive HasOrdinal (name : String) (start : List (Value × Value)) : Ordinal → Prop
  | absent (h : Absent name start) : HasOrdinal name start (.number 0)
  | number {n : Int} (h : Under name start (.int n)) : HasOrdinal name start (.number n)
  | flag {b : Bool} (h : Under name start (.bool b)) : HasOrdinal name start (.flag b)

/-- The location is a mapping, and so is what it has under `start`. -/
def StartsAt (loc : Value) (start : List (Value × Value)) : Prop :=
  ∃ es v, loc.entries? = some es ∧ Under "start" es v ∧ v.entries? = some start

/-- The place: 0:0 without a location, and else where the location starts. -/
inductive HasPlace (es : List (Value × Value)) : Position → Prop
  | absent (h : Absent "loc" es) : HasPlace es ⟨.number 0, .number 0⟩
  | null (h : Under "loc" es .null) : HasPlace es ⟨.number 0, .number 0⟩
  | start {loc : Value} {start : List (Value × Value)} {l c : Ordinal} (hloc : Under "loc" es loc)
      (hstart : StartsAt loc start) (hline : HasOrdinal "line" start l)
      (hcolumn : HasOrdinal "column" start c) : HasPlace es ⟨l, c⟩

/-- The record is that of the comment. -/
def Denotes (record : Value) (c : Comment) : Prop :=
  ∃ es, record.entries? = some es ∧ HasText es c.text ∧ HasKind es c.kind ∧ HasPlace es c.location

/-- The record is a mapping, and all its fields are as they may be. -/
def Valid (record : Value) : Prop :=
  ∃ es, record.entries? = some es ∧ (∃ t, HasText es t) ∧ (∃ k, HasKind es k) ∧ ∃ p, HasPlace es p

theorem valid_iff_denotes {record : Value} : Valid record ↔ ∃ c, Denotes record c := by
  constructor
  · rintro ⟨es, hes, ⟨t, ht⟩, ⟨k, hk⟩, p, hp⟩
    exact ⟨⟨t, p, k⟩, es, hes, ht, hk, hp⟩
  · rintro ⟨c, es, hes, ht, hk, hp⟩
    exact ⟨es, hes, ⟨_, ht⟩, ⟨_, hk⟩, _, hp⟩

/-! ## Faults of a record -/

/-- Another kind than the two is named, which may have no text to be reported with. -/
inductive KindFault (index : Int) (es : List (Value × Value)) : DumpFault → Prop
  | unknown {v : Value} {shown : String} (h : Under "type" es v) (hline : v ≠ .str "Line")
      (hblock : v ≠ .str "Block") (hshown : v.shown = .ok shown) :
      KindFault index es (.unknownKind index shown)
  | untold {v : Value} {f : ShowFault} (h : Under "type" es v) (hshown : v.shown = .error f) :
      KindFault index es (.unshownKind f)

/-- There is a location, but it does not start anywhere, or its line or column is no number. -/
inductive PlaceFault (index : Int) (es : List (Value × Value)) : DumpFault → Prop
  | malformed {loc : Value} (hloc : Under "loc" es loc) (hnull : loc ≠ .null)
      (hstart : ∀ start, ¬ StartsAt loc start) : PlaceFault index es (.malformedPlace index)
  | notWhole {loc : Value} {start : List (Value × Value)} (hloc : Under "loc" es loc)
      (hstart : StartsAt loc start)
      (hordinals : (∀ l, ¬ HasOrdinal "line" start l) ∨ ∀ c, ¬ HasOrdinal "column" start c) :
      PlaceFault index es (.notWholePlace index)

/-- What is wrong with the record at `index`: the first of mapping, text, kind and place to be so. -/
inductive RecordFault (index : Int) (record : Value) : DumpFault → Prop
  | notMapping (h : record.entries? = none) :
      RecordFault index record (.notMapping index record.kindName)
  | noText {es : List (Value × Value)} (hes : record.entries? = some es) (htext : ∀ t, ¬ HasText es t) :
      RecordFault index record (.noText index)
  | kind {es : List (Value × Value)} {t : String} {f : DumpFault} (hes : record.entries? = some es)
      (htext : HasText es t) (hf : KindFault index es f) : RecordFault index record f
  | place {es : List (Value × Value)} {t : String} {k : Comment.Kind} {f : DumpFault}
      (hes : record.entries? = some es) (htext : HasText es t) (hkind : HasKind es k)
      (hf : PlaceFault index es f) : RecordFault index record f

/-! ## Reading the fields -/

theorem textOf_eq_some_iff {es : List (Value × Value)} {t : String} :
    textOf es = some (.str t) ↔ HasText es t := by
  unfold textOf
  rw [Option.or_eq_some_iff, Value.field?_eq_some_iff, Value.field?_eq_none_iff, Value.field?_eq_some_iff]
  constructor
  · rintro (h | ⟨hvalue, h⟩)
    · exact .value h
    · exact .text hvalue h
  · rintro (h | ⟨hvalue, h⟩)
    · exact .inl h
    · exact .inr ⟨hvalue, h⟩

/-- What is neither of the two words names no kind, and is reported as it is shown. -/
theorem kindOf_of_other {index : Int} {es : List (Value × Value)} {v : Value} (h : Under "type" es v)
    (hline : v ≠ .str "Line") (hblock : v ≠ .str "Block") :
    kindOf index es = match v.shown with
      | .ok shown => .error (.unknownKind index shown)
      | .error f => .error (.unshownKind f) := by
  cases hshown : v.shown <;>
  · simp only [kindOf, Value.field?_eq_some_iff.mpr h, hshown]
    cases v with
    | str w =>
      have hw : Comment.Kind.ofWord? w = none := by
        simp only [ne_eq, Value.str.injEq] at hline hblock
        rw [Comment.Kind.ofWord?, if_neg hline, if_neg hblock]
      simp only [hw]
    | _ => rfl

theorem kindOf_of_hasKind (index : Int) {es : List (Value × Value)} {k : Comment.Kind}
    (h : HasKind es k) : kindOf index es = .ok k := by
  cases h with
  | absent h => rw [kindOf, Value.field?_eq_none_iff.mpr h]
  | line h => simp [kindOf, Value.field?_eq_some_iff.mpr h, Comment.Kind.ofWord?]
  | block h => simp [kindOf, Value.field?_eq_some_iff.mpr h, Comment.Kind.ofWord?]

/-- A word is always shown. -/
theorem ne_str_of_shown {v : Value} {f : ShowFault} (h : v.shown = .error f) (w : String) : v ≠ .str w := by
  rintro rfl
  cases h

theorem kindOf_decides (index : Int) (es : List (Value × Value)) :
    Decides (kindOf index es) (HasKind es) (KindFault index es) := by
  refine .of_total (fun k hk => kindOf_of_hasKind index hk) ?_ ?_
  · rintro f (⟨h, hline, hblock, hshown⟩ | ⟨h, hshown⟩)
    · rw [kindOf_of_other h hline hblock, hshown]
    · rw [kindOf_of_other h (ne_str_of_shown hshown _) (ne_str_of_shown hshown _), hshown]
  · rcases Value.absent_or_under "type" es with h | ⟨v, h⟩
    · exact .inl ⟨_, .absent h⟩
    by_cases hline : v = .str "Line"
    · exact .inl ⟨_, .line (hline ▸ h)⟩
    by_cases hblock : v = .str "Block"
    · exact .inl ⟨_, .block (hblock ▸ h)⟩
    cases hshown : v.shown with
    | ok shown => exact .inr ⟨_, .unknown h hline hblock hshown⟩
    | error f => exact .inr ⟨_, .untold h hshown⟩

theorem start_eq_some_iff {loc : Value} {start : List (Value × Value)} :
    ((loc.entries?.bind (Value.field? "start")).bind Value.entries?) = some start ↔ StartsAt loc start := by
  simp only [Option.bind_eq_some_iff, Value.field?_eq_some_iff, StartsAt]
  constructor
  · rintro ⟨v, ⟨es, hes, hv⟩, hstart⟩
    exact ⟨es, v, hes, hv, hstart⟩
  · rintro ⟨es, v, hes, hv, hstart⟩
    exact ⟨v, ⟨es, hes, hv⟩, hstart⟩

theorem ordinal?_eq_some_iff {name : String} {start : List (Value × Value)} {o : Ordinal} :
    ((Value.field? name start).getD (.int 0)).ordinal? = some o ↔ HasOrdinal name start o := by
  constructor
  · intro h
    cases hfield : Value.field? name start with
    | none =>
      rw [hfield, Option.getD_none] at h
      cases h
      exact .absent (Value.field?_eq_none_iff.mp hfield)
    | some v =>
      rw [hfield, Option.getD_some] at h
      have hunder : Under name start v := Value.field?_eq_some_iff.mp hfield
      cases v <;> cases h
      · exact .flag hunder
      · exact .number hunder
  · rintro (h | h | h)
    · rw [Value.field?_eq_none_iff.mpr h]
      rfl
    · rw [Value.field?_eq_some_iff.mpr h]
      rfl
    · rw [Value.field?_eq_some_iff.mpr h]
      rfl

/-- A location that is not null is read through its start alone. -/
theorem placeOf_of_loc {index : Int} {es : List (Value × Value)} {loc : Value} (h : Under "loc" es loc)
    (hnull : loc ≠ .null) :
    placeOf index es =
      match (loc.entries?.bind (Value.field? "start")).bind Value.entries? with
      | none => .error (.malformedPlace index)
      | some start =>
        match ((Value.field? "line" start).getD (.int 0)).ordinal?,
          ((Value.field? "column" start).getD (.int 0)).ordinal? with
        | some l, some c => .ok ⟨l, c⟩
        | _, _ => .error (.notWholePlace index) := by
  rw [placeOf, Value.field?_eq_some_iff.mpr h]
  cases loc <;> first | exact absurd rfl hnull | rfl

theorem StartsAt.ne_null {loc : Value} {start : List (Value × Value)} (h : StartsAt loc start) :
    loc ≠ .null := by
  rintro rfl
  obtain ⟨es, v, hes, -⟩ := h
  cases hes

theorem placeOf_of_hasPlace (index : Int) {es : List (Value × Value)} {p : Position}
    (h : HasPlace es p) : placeOf index es = .ok p := by
  cases h with
  | absent h =>
    rw [placeOf, Value.field?_eq_none_iff.mpr h]
    rfl
  | null h =>
    rw [placeOf, Value.field?_eq_some_iff.mpr h]
    rfl
  | start hloc hstart hline hcolumn =>
    rw [placeOf_of_loc hloc hstart.ne_null, start_eq_some_iff.mpr hstart]
    simp only [ordinal?_eq_some_iff.mpr hline, ordinal?_eq_some_iff.mpr hcolumn]

theorem placeOf_of_placeFault {index : Int} {es : List (Value × Value)} {f : DumpFault}
    (h : PlaceFault index es f) : placeOf index es = .error f := by
  cases h with
  | @malformed loc hloc hnull hstart =>
    have hnone : (loc.entries?.bind (Value.field? "start")).bind Value.entries? = none :=
      Option.eq_none_iff_forall_ne_some.mpr fun start hsome => hstart start (start_eq_some_iff.mp hsome)
    rw [placeOf_of_loc hloc hnull, hnone]
  | notWhole hloc hstart hordinals =>
    rw [placeOf_of_loc hloc hstart.ne_null, start_eq_some_iff.mpr hstart]
    simp only
    split
    · next l c hline hcolumn =>
      rw [ordinal?_eq_some_iff] at hline hcolumn
      rcases hordinals with hno | hno
      · exact absurd hline (hno l)
      · exact absurd hcolumn (hno c)
    · rfl

theorem placeOf_decides (index : Int) (es : List (Value × Value)) :
    Decides (placeOf index es) (HasPlace es) (PlaceFault index es) := by
  refine .of_total (fun p hp => placeOf_of_hasPlace index hp) (fun f hf => placeOf_of_placeFault hf) ?_
  rcases Value.absent_or_under "loc" es with h | ⟨loc, hloc⟩
  · exact .inl ⟨_, .absent h⟩
  by_cases hnull : loc = .null
  · exact .inl ⟨_, .null (hnull ▸ hloc)⟩
  by_cases hstart : ∃ start, StartsAt loc start
  · obtain ⟨start, hstart⟩ := hstart
    by_cases hordinals : (∃ l, HasOrdinal "line" start l) ∧ ∃ c, HasOrdinal "column" start c
    · obtain ⟨⟨l, hline⟩, c, hcolumn⟩ := hordinals
      exact .inl ⟨_, .start hloc hstart hline hcolumn⟩
    · rw [not_and_or, not_exists, not_exists] at hordinals
      exact .inr ⟨_, .notWhole hloc hstart hordinals⟩
  · exact .inr ⟨_, .malformed hloc hnull (not_exists.mp hstart)⟩

/-! ## Reading records -/

/-- Once its text is found, a record has its kind read and then its place. -/
theorem comment_of_hasText {index : Int} {record : Value} {es : List (Value × Value)} {t : String}
    (hes : record.entries? = some es) (htext : HasText es t) :
    comment index record = (do
      let kind ← kindOf index es
      let location ← placeOf index es
      return { text := t, location, kind }) := by
  simp only [comment, hes, textOf_eq_some_iff.mpr htext]

theorem comment_of_noText {index : Int} {record : Value} {es : List (Value × Value)}
    (hes : record.entries? = some es) (htext : ∀ t, ¬ HasText es t) :
    comment index record = .error (.noText index) := by
  simp only [comment, hes]
  split
  · next t ht => exact absurd (textOf_eq_some_iff.mp ht) (htext t)
  · rfl

theorem comment_decides (index : Int) (record : Value) :
    Decides (comment index record) (Denotes record) (RecordFault index record) := by
  refine .of_total ?_ ?_ ?_
  · rintro c ⟨es, hes, htext, hkind, hplace⟩
    rw [comment_of_hasText hes htext, kindOf_of_hasKind index hkind, placeOf_of_hasPlace index hplace]
    rfl
  · rintro f (hes | ⟨hes, htext⟩ | ⟨hes, htext, hf⟩ | ⟨hes, htext, hkind, hf⟩)
    · rw [comment, hes]
    · exact comment_of_noText hes htext
    · rw [comment_of_hasText hes htext, ((kindOf_decides index _).eq_error_iff _).mpr hf]
      rfl
    · rw [comment_of_hasText hes htext, kindOf_of_hasKind index hkind, placeOf_of_placeFault hf]
      rfl
  -- a field is at fault, the first one in the order of reading being blamed, or the record is valid
  · cases hes : record.entries? with
    | none => exact .inr ⟨_, .notMapping hes⟩
    | some es =>
      by_cases htext : ∃ t, HasText es t
      · obtain ⟨t, htext⟩ := htext
        rcases (kindOf_decides index es).total with ⟨k, hkind⟩ | ⟨f, hf⟩
        · rcases (placeOf_decides index es).total with ⟨p, hplace⟩ | ⟨f, hf⟩
          · exact .inl ⟨⟨t, p, k⟩, es, hes, htext, hkind, hplace⟩
          · exact .inr ⟨f, .place hes htext hkind hf⟩
        · exact .inr ⟨f, .kind hes htext hf⟩
      · exact .inr ⟨_, .noText hes (not_exists.mp htext)⟩

/-- A record denotes one comment at most: each field is read from it alone. -/
theorem Denotes.unique {record : Value} {c c' : Comment} (h : Denotes record c)
    (h' : Denotes record c') : c = c' := by
  obtain ⟨es, hes, htext, hkind, hplace⟩ := h
  obtain ⟨es', hes', htext', hkind', hplace'⟩ := h'
  obtain rfl : es = es' := Option.some.inj (hes.symm.trans hes')
  have ht : c.text = c'.text := by
    simpa [textOf_eq_some_iff.mpr htext] using textOf_eq_some_iff.mpr htext'
  have hk : c.kind = c'.kind :=
    Except.ok.inj ((kindOf_of_hasKind 0 hkind).symm.trans (kindOf_of_hasKind 0 hkind'))
  have hp : c.location = c'.location :=
    Except.ok.inj ((placeOf_of_hasPlace 0 hplace).symm.trans (placeOf_of_hasPlace 0 hplace'))
  obtain ⟨t, p, k⟩ := c
  cases ht
  cases hk
  cases hp
  rfl

/-- The first record that is not valid, counted from `index` on, has the fault. -/
def FirstFault (index : Nat) (xs : List Value) (f : DumpFault) : Prop :=
  ∃ good bad rest, xs = good ++ bad :: rest ∧ (∀ r ∈ good, Valid r) ∧
    RecordFault (index + good.length : Nat) bad f

theorem firstFault_cons_iff {index : Nat} {x : Value} {xs : List Value} {f : DumpFault} :
    FirstFault index (x :: xs) f ↔
      RecordFault index x f ∨ (Valid x ∧ FirstFault (index + 1) xs f) := by
  have hshift : ∀ n : Nat, index + (n + 1) = index + 1 + n := fun n => by omega
  constructor
  · rintro ⟨good, bad, rest, heq, hgood, hbad⟩
    cases good with
    | nil =>
      -- no valid record in front, so `x` itself is the one at fault
      obtain ⟨rfl, rfl⟩ := List.cons.inj heq
      exact .inl hbad
    | cons first good =>
      obtain ⟨rfl, rfl⟩ := List.cons.inj heq
      obtain ⟨hx, hgood⟩ := List.forall_mem_cons.mp hgood
      rw [List.length_cons, hshift] at hbad
      exact .inr ⟨hx, good, bad, rest, rfl, hgood, hbad⟩
  · rintro (hx | ⟨hx, good, bad, rest, rfl, hgood, hbad⟩)
    · exact ⟨[], x, xs, rfl, by simp, hx⟩
    · refine ⟨x :: good, bad, rest, rfl, List.forall_mem_cons.mpr ⟨hx, hgood⟩, ?_⟩
      rwa [List.length_cons, hshift]

theorem commentsFrom_decides (index : Nat) (xs : List Value) :
    Decides (commentsFrom index xs) (List.Forall₂ Denotes xs) (FirstFault index xs) := by
  induction xs generalizing index with
  | nil =>
    refine .of_total ?_ ?_ (.inl ⟨[], .nil⟩)
    · rintro cs ⟨⟩
      rfl
    · rintro f ⟨good, bad, rest, heq, -⟩
      simp at heq
  | cons x xs ih =>
    -- reading goes on behind `x` only if `x` is valid, which is how `FirstFault` unfolds
    have hhead := comment_decides index x
    have htail := ih (index + 1)
    refine .of_total ?_ ?_ ?_
    · rintro cs (_ | ⟨hc, hcs⟩)
      rw [commentsFrom, (hhead.eq_ok_iff _).mpr hc, (htail.eq_ok_iff _).mpr hcs]
      rfl
    · intro f hf
      rcases firstFault_cons_iff.mp hf with hf | ⟨hvalid, hf⟩
      · rw [commentsFrom, (hhead.eq_error_iff _).mpr hf]
        rfl
      · obtain ⟨c, hc⟩ := valid_iff_denotes.mp hvalid
        rw [commentsFrom, (hhead.eq_ok_iff _).mpr hc, (htail.eq_error_iff _).mpr hf]
        rfl
    · rcases hhead.total with ⟨c, hc⟩ | ⟨f, hf⟩
      · rcases htail.total with ⟨cs, hcs⟩ | ⟨f, hf⟩
        · exact .inl ⟨c :: cs, .cons hc hcs⟩
        · exact .inr ⟨f, firstFault_cons_iff.mpr (.inr ⟨valid_iff_denotes.mpr ⟨c, hc⟩, hf⟩)⟩
      · exact .inr ⟨f, firstFault_cons_iff.mpr (.inl hf)⟩

/-! ## Reading a dump -/

/-- What a dump holds its records in: the data themselves, or what a mapping has under `comments`. -/
inductive HasBody (d : Value) : Value → Prop
  | itself (h : ∀ es, d.entries? = some es → Absent "comments" es) : HasBody d d
  | comments {es : List (Value × Value)} {body : Value} (hes : d.entries? = some es)
      (h : Under "comments" es body) : HasBody d body

/-- A mapping, but without `comments`. -/
def LacksComments (d : Value) : Prop := ∃ es, d.entries? = some es ∧ Absent "comments" es

/-- What is wrong with the body of a dump. -/
inductive BodyFault (body : Value) : DumpFault → Prop
  | notRecords (hnull : body ≠ .null) (hitems : body.items? = none) :
      BodyFault body (.notRecords body.kindName)
  | record {xs : List Value} {f : DumpFault} (hitems : body.items? = some xs) (h : FirstFault 0 xs f) :
      BodyFault body f

/-- The comments a body holds, in the order of their records. -/
inductive Holds (body : Value) : List Comment → Prop
  | null (h : body = .null) : Holds body []
  | records {xs : List Value} {cs : List Comment} (hitems : body.items? = some xs)
      (h : List.Forall₂ Denotes xs cs) : Holds body cs

/-- What is wrong with a dump: its wrapping, or else its body. -/
inductive Rejected (d : Value) : DumpFault → Prop
  | noComments (h : LacksComments d) : Rejected d .noComments
  | body {body : Value} {f : DumpFault} (hwrapped : ¬ LacksComments d) (hbody : HasBody d body)
      (h : BodyFault body f) : Rejected d f

theorem records_of_ne_null {body : Value} (hnull : body ≠ .null) :
    records body = match body.items? with
      | some xs => commentsFrom 0 xs
      | none => .error (.notRecords body.kindName) := by
  cases body <;> first | exact absurd rfl hnull | rfl

theorem ne_null_of_items? {body : Value} {xs : List Value} (h : body.items? = some xs) :
    body ≠ .null := by
  rintro rfl
  cases h

theorem records_decides (body : Value) : Decides (records body) (Holds body) (BodyFault body) := by
  refine .of_total ?_ ?_ ?_
  · rintro cs (rfl | ⟨hitems, h⟩)
    · rfl
    · rw [records_of_ne_null (ne_null_of_items? hitems), hitems]
      exact ((commentsFrom_decides 0 _).eq_ok_iff cs).mpr h
  · rintro f (⟨hnull, hitems⟩ | ⟨hitems, h⟩)
    · rw [records_of_ne_null hnull, hitems]
    · rw [records_of_ne_null (ne_null_of_items? hitems), hitems]
      exact ((commentsFrom_decides 0 _).eq_error_iff f).mpr h
  · by_cases hnull : body = .null
    · exact .inl ⟨[], .null hnull⟩
    cases hitems : body.items? with
    | none => exact .inr ⟨_, .notRecords hnull hitems⟩
    | some xs =>
      rcases (commentsFrom_decides 0 xs).total with ⟨cs, h⟩ | ⟨f, h⟩
      · exact .inl ⟨cs, .records hitems h⟩
      · exact .inr ⟨f, .record hitems h⟩

theorem exists_hasBody (d : Value) : ∃ body, HasBody d body := by
  by_cases h : ∃ es body, d.entries? = some es ∧ Under "comments" es body
  · obtain ⟨es, body, hes, hunder⟩ := h
    exact ⟨body, .comments hes hunder⟩
  · refine ⟨d, .itself fun es hes => ?_⟩
    rcases Value.absent_or_under "comments" es with habsent | ⟨body, hunder⟩
    · exact habsent
    · exact absurd ⟨es, body, hes, hunder⟩ h

theorem HasBody.writable {d body : Value} (hd : d.Writable) (h : HasBody d body) : body.Writable := by
  cases h with
  | itself => exact hd
  | comments hes hunder => exact hd.of_entries? hes hunder

/-- Unless it is a mapping that lacks them, the data are read through their body. -/
theorem ofData_of_hasBody {d body : Value} (hwrapped : ¬ LacksComments d) (h : HasBody d body) :
    ofData d = records body := by
  cases h with
  | itself h =>
    cases hes : d.entries? with
    | none => rw [ofData, hes]
    | some es => exact absurd ⟨es, hes, h es hes⟩ hwrapped
  | comments hes hunder => simp only [ofData, hes, Value.field?_eq_some_iff.mpr hunder]

/-- A mapping that lacks its records has nothing else to read them from. -/
theorem LacksComments.not_holds {d body : Value} {cs : List Comment} (h : LacksComments d)
    (hbody : HasBody d body) : ¬ Holds body cs := by
  obtain ⟨es, hes, habsent⟩ := h
  cases hbody with
  | itself =>
    rintro (rfl | ⟨hitems, -⟩)
    · cases hes
    · rw [Value.items?_eq_none_of_entries? hes] at hitems
      cases hitems
  | comments hes' hunder =>
    rw [hes, Option.some.injEq] at hes'
    subst hes'
    exact absurd rfl (habsent _ hunder.mem)

theorem ofData_decides (d : Value) :
    Decides (ofData d) (fun cs => ∃ body, HasBody d body ∧ Holds body cs) (Rejected d) := by
  by_cases hlacks : LacksComments d
  · have hfault : ofData d = .error .noComments := by
      obtain ⟨es, hes, habsent⟩ := hlacks
      simp only [ofData, hes, Value.field?_eq_none_iff.mpr habsent]
    refine .of_total ?_ ?_ (.inr ⟨_, .noComments hlacks⟩)
    · rintro cs ⟨body, hbody, hholds⟩
      exact absurd hholds (hlacks.not_holds hbody)
    · rintro f (_ | ⟨hwrapped, -, -⟩)
      · exact hfault
      · exact absurd hlacks hwrapped
  · refine .of_total ?_ ?_ ?_
    · rintro cs ⟨body, hbody, hholds⟩
      rw [ofData_of_hasBody hlacks hbody]
      exact ((records_decides body).eq_ok_iff cs).mpr hholds
    · rintro f (h | ⟨-, hbody, hf⟩)
      · exact absurd h hlacks
      · rw [ofData_of_hasBody hlacks hbody]
        exact ((records_decides _).eq_error_iff f).mpr hf
    · obtain ⟨body, hbody⟩ := exists_hasBody d
      rcases (records_decides body).total with ⟨cs, hholds⟩ | ⟨f, hf⟩
      · exact .inl ⟨cs, body, hbody, hholds⟩
      · exact .inr ⟨f, .body hlacks hbody hf⟩

theorem ofValue_decides (d : Value) :
    Decides (ofValue d) (fun cs => ∃ body, HasBody d body ∧ Holds body cs)
      (fun e => ∃ f, e = .ofDump f ∧ Rejected d f) := by
  have hdata := ofData_decides d
  refine .of_total ?_ ?_ ?_
  · intro cs hcs
    rw [ofValue, (hdata.eq_ok_iff cs).mpr hcs]
    rfl
  · rintro e ⟨f, rfl, hf⟩
    rw [ofValue, (hdata.eq_error_iff f).mpr hf, Except.mapError]
  · rcases hdata.total with hok | ⟨f, hf⟩
    · exact .inl hok
    · exact .inr ⟨_, f, rfl, hf⟩

/-! ## Kinds without a text -/

/-- The first record that is not valid has a text, and a kind with the property. -/
def BlamesKind (d : Value) (p : Value → Prop) : Prop :=
  ∃ body xs good bad rest es t kind, HasBody d body ∧ body.items? = some xs ∧ xs = good ++ bad :: rest ∧
    (∀ r ∈ good, Valid r) ∧ bad.entries? = some es ∧ HasText es t ∧ Under "type" es kind ∧ p kind

theorem HasBody.not_lacksComments {d body : Value} {xs : List Value} (h : HasBody d body)
    (hitems : body.items? = some xs) : ¬ LacksComments d := by
  rintro ⟨es, hes, habsent⟩
  cases h with
  | itself =>
    rw [Value.items?_eq_none_of_entries? hes] at hitems
    cases hitems
  | comments hes' hunder =>
    rw [hes, Option.some.injEq] at hes'
    subst hes'
    exact habsent _ hunder.mem rfl

theorem recordFault_unshownKind_iff {index : Int} {record : Value} {f : ShowFault} :
    RecordFault index record (.unshownKind f) ↔ ∃ es t kind, record.entries? = some es ∧ HasText es t ∧
      Under "type" es kind ∧ kind.shown = .error f := by
  constructor
  · intro h
    cases h with
    | kind hes htext hf =>
      cases hf with
      | untold hunder hshown => exact ⟨_, _, _, hes, htext, hunder, hshown⟩
    | place _ _ _ hf => cases hf
  · rintro ⟨es, t, kind, hes, htext, hunder, hshown⟩
    exact .kind hes htext (.untold hunder hshown)

theorem rejected_unshownKind_iff {d : Value} {f : ShowFault} :
    Rejected d (.unshownKind f) ↔ BlamesKind d (·.shown = .error f) := by
  constructor
  · intro h
    cases h with
    | body _ hbody h =>
      cases h with
      | record hitems h =>
        obtain ⟨good, bad, rest, heq, hgood, hbad⟩ := h
        obtain ⟨es, t, kind, hes, htext, hunder, hshown⟩ := recordFault_unshownKind_iff.mp hbad
        exact ⟨_, _, good, bad, rest, es, t, kind, hbody, hitems, heq, hgood, hes, htext, hunder, hshown⟩
  · rintro ⟨body, xs, good, bad, rest, es, t, kind, hbody, hitems, heq, hgood, hes, htext, hunder, hshown⟩
    have hbad : RecordFault (0 + good.length : Nat) bad (.unshownKind f) :=
      recordFault_unshownKind_iff.mpr ⟨es, t, kind, hes, htext, hunder, hshown⟩
    exact .body (hbody.not_lacksComments hitems) hbody
      (.record hitems ⟨good, bad, rest, heq, hgood, hbad⟩)

theorem ofValue_eq_unshown_iff {d : Value} {f : ShowFault} :
    ofValue d = .error (.unshown f) ↔ BlamesKind d (·.shown = .error f) := by
  rw [(ofValue_decides d).eq_error_iff, ← rejected_unshownKind_iff]
  constructor
  · rintro ⟨g, heq, hg⟩
    cases g <;> cases heq
    exact hg
  · exact fun h => ⟨_, rfl, h⟩

theorem blamesKind_exists_iff {ι : Type} {d : Value} {p : ι → Value → Prop} :
    BlamesKind d (fun kind => ∃ i, p i kind) ↔ ∃ i, BlamesKind d (p i) := by
  constructor
  · rintro ⟨body, xs, good, bad, rest, es, t, kind, hbody, hitems, heq, hgood, hes, htext, hunder, i, hi⟩
    exact ⟨i, body, xs, good, bad, rest, es, t, kind, hbody, hitems, heq, hgood, hes, htext, hunder, hi⟩
  · rintro ⟨i, body, xs, good, bad, rest, es, t, kind, hbody, hitems, heq, hgood, hes, htext, hunder, hi⟩
    exact ⟨body, xs, good, bad, rest, es, t, kind, hbody, hitems, heq, hgood, hes, htext, hunder, i, hi⟩

/-- If all numbers can be written, a kind has no text for its nesting alone. -/
theorem blamesKind_shown_iff {d : Value} (hd : d.Writable) {f : ShowFault} :
    BlamesKind d (·.shown = .error f) ↔ f = .tooDeep ∧ BlamesKind d Value.TooDeep := by
  constructor
  · rintro ⟨body, xs, good, bad, rest, es, t, kind, hbody, hitems, heq, hgood, hes, htext, hunder, hshown⟩
    have hbad : bad.Writable := (hbody.writable hd).of_items? hitems (by rw [heq]; simp)
    obtain ⟨rfl, hdeep⟩ := (hbad.of_entries? hes hunder).shown_eq_error_iff.mp hshown
    exact ⟨rfl, body, xs, good, bad, rest, es, t, kind, hbody, hitems, heq, hgood, hes, htext, hunder, hdeep⟩
  · rintro ⟨rfl, body, xs, good, bad, rest, es, t, kind, hbody, hitems, heq, hgood, hes, htext, hunder, hdeep⟩
    have hbad : bad.Writable := (hbody.writable hd).of_items? hitems (by rw [heq]; simp)
    have hshown := (hbad.of_entries? hes hunder).shown_eq_error_iff.mpr ⟨rfl, hdeep⟩
    exact ⟨body, xs, good, bad, rest, es, t, kind, hbody, hitems, heq, hgood, hes, htext, hunder, hshown⟩

/-! ## The grammar -/

theorem exists_forall₂_denotes_iff {xs : List Value} :
    (∃ cs, List.Forall₂ Denotes xs cs) ↔ ∀ x ∈ xs, Valid x := by
  induction xs with
  | nil => simp
  | cons x xs ih =>
    rw [List.forall_mem_cons, ← ih, valid_iff_denotes]
    constructor
    · rintro ⟨_, h⟩
      obtain ⟨c, cs, hc, hcs, rfl⟩ := List.forall₂_cons_left_iff.mp h
      exact ⟨⟨c, hc⟩, cs, hcs⟩
    · rintro ⟨⟨c, hc⟩, cs, hcs⟩
      exact ⟨c :: cs, .cons hc hcs⟩

theorem exists_holds_iff {body : Value} :
    (∃ cs, Holds body cs) ↔ body = .null ∨ ∃ xs, body.items? = some xs ∧ ∀ x ∈ xs, Valid x := by
  constructor
  · rintro ⟨cs, hnull | ⟨hitems, h⟩⟩
    · exact .inl hnull
    · exact .inr ⟨_, hitems, exists_forall₂_denotes_iff.mp ⟨cs, h⟩⟩
  · rintro (hnull | ⟨xs, hitems, hvalid⟩)
    · exact ⟨[], .null hnull⟩
    · obtain ⟨cs, h⟩ := exists_forall₂_denotes_iff.mpr hvalid
      exact ⟨cs, .records hitems h⟩

/-- A mapping under `comments` is not looked into. -/
theorem rejected_of_nested {d body : Value} {es inner : List (Value × Value)} (hes : d.entries? = some es)
    (hunder : Under "comments" es body) (hinner : body.entries? = some inner) :
    Rejected d (.notRecords body.kindName) := by
  have hwrapped : ¬ LacksComments d := by
    rintro ⟨es', hes', habsent⟩
    rw [hes, Option.some.injEq] at hes'
    subst hes'
    exact habsent _ hunder.mem rfl
  have hnull : body ≠ .null := by
    rintro rfl
    cases hinner
  exact .body hwrapped (.comments hes hunder)
    (.notRecords hnull (Value.items?_eq_none_of_entries? hinner))

/-- Reading accepts just the grammar of dumps. Data whose numbers can all be written are read exactly if
their body is null or a list of valid records; the comments are then those the records denote, one for
each and in their order. All other data are a fault of the dump: that of its wrapping, of its body, or of
the first record that is not valid. There is one exception: where that record has a kind nested too deep
to be shown, the failure to show it comes out in place of the fault. -/
theorem ofValue_accepts_grammar (d : Value) (hd : d.Writable) :
    ((∃ cs, ofValue d = .ok cs) ↔ ∃ body, HasBody d body ∧
      (body = .null ∨ ∃ xs, body.items? = some xs ∧ ∀ x ∈ xs, Valid x)) ∧
    (∀ cs, ofValue d = .ok cs ↔ ∃ body, HasBody d body ∧ Holds body cs) ∧
    (∀ record c c', Denotes record c → Denotes record c' → c = c') ∧
    (∀ es body inner, d.entries? = some es → Under "comments" es body → body.entries? = some inner →
      ofValue d = .error (.dump (.notRecords body.kindName))) ∧
    (¬ BlamesKind d Value.TooDeep → ∀ e, ofValue d = .error e ↔ ∃ f, e = .dump f ∧ Rejected d f) ∧
    (BlamesKind d Value.TooDeep ↔ ofValue d = .error (.unshown .tooDeep)) := by
  have hread := ofValue_decides d
  refine ⟨?_, hread.eq_ok_iff, fun _ _ _ h h' => h.unique h', ?_, fun hshows e => ?_, ?_⟩
  · simp only [hread.eq_ok_iff, ← exists_holds_iff]
    exact exists_comm.trans (exists_congr fun body => exists_and_left)
  · intro es body inner hes hunder hinner
    exact (hread.eq_error_iff _).mpr ⟨_, rfl, rejected_of_nested hes hunder hinner⟩
  · have htold : ∀ f, Rejected d f → ReadFault.ofDump f = .dump f := by
      intro f hf
      cases f with
      | unshownKind g =>
        exact absurd ((blamesKind_shown_iff hd).mp (rejected_unshownKind_iff.mp hf)).2 hshows
      | _ => rfl
    rw [hread.eq_error_iff]
    constructor
    · rintro ⟨f, rfl, hf⟩
      exact ⟨f, htold f hf, hf⟩
    · rintro ⟨f, rfl, hf⟩
      exact ⟨f, (htold f hf).symm, hf⟩
  · rw [ofValue_eq_unshown_iff, blamesKind_shown_iff hd, and_iff_right rfl]

/-- A dump in a mapping: its first record is valid with the other name for the text, a truth value as the
line and no column; its second has a text, but hidden behind a null. -/
def hiddenText : Value :=
  .map [(.str "comments", .list [
    .map [(.str "text", .str "a"), (.str "type", .str "Block"),
      (.str "loc", .map [(.str "start", .map [(.str "line", .bool true)])])],
    .map [(.str "value", .null), (.str "text", .str "b"), (.str "loc", .int 7)]])]

theorem ofValue_accepts_grammar_hiddenText :
    hiddenText.Writable ∧ ¬ BlamesKind hiddenText Value.TooDeep ∧
      ofValue hiddenText = .error (.dump (.noText 1)) ∧
      ∃ f, .dump (.noText 1) = ReadFault.dump f ∧ Rejected hiddenText f := by
  have hseven : Number.isWritable 7 = true := by decide +kernel
  have hwritable : hiddenText.Writable := by simp [hiddenText, hseven]
  have hread : ofValue hiddenText = .error (.dump (.noText 1)) := by decide
  obtain ⟨-, -, -, -, hfaults, hdeep⟩ := ofValue_accepts_grammar hiddenText hwritable
  have hshows : ¬ BlamesKind hiddenText Value.TooDeep := by
    rw [hdeep, hread]
    exact nofun
  exact ⟨hwritable, hshows, hread, (hfaults hshows _).mp hread⟩

/-- An empty list inside so many others. -/
def nestedList : Nat → Value
  | 0 => .list []
  | n + 1 => .list [nestedList n]

theorem writable_nestedList (n : Nat) : (nestedList n).Writable := by
  induction n with
  | zero => simp [nestedList]
  | succ n ih => simpa [nestedList] using ih

theorem deeper_nestedList {room n : Nat} (h : room ≤ n) : Value.Deeper [] [] (nestedList n) room := by
  induction room generalizing n with
  | zero => exact .full
  | succ room ih =>
    obtain ⟨n, rfl⟩ := Nat.exists_eq_add_of_lt h
    exact .item List.mem_cons_self (ih (by omega))

/-- The second record has a kind that is no kind, but is not blamed for it. -/
theorem ofValue_hides_kind :
    ofValue (.list [.map [(.str "value", .str "a")],
      .map [(.str "value", .str "b"), (.str "type", nestedList 1000)]]) = .error (.unshown .tooDeep) := by
  refine ofValue_eq_unshown_iff.mpr ((blamesKind_shown_iff ?_).mpr ⟨rfl, ?_⟩)
  · simp [writable_nestedList]
  · refine ⟨_, _, [_], _, [], _, "b", nestedList 1000, .itself nofun, rfl, rfl, ?_, rfl,
      .value ⟨[], _, rfl, by simp⟩, ⟨[_], [], rfl, by simp⟩, deeper_nestedList (by decide)⟩
    rintro r (_ | ⟨_, ⟨⟩⟩)
    exact ⟨_, rfl, ⟨"a", .value ⟨[], _, rfl, by simp⟩⟩, ⟨.line, .absent (by simp [Absent])⟩,
      _, .absent (by simp [Absent])⟩

end Dump

end CommentStyle
