import CommentStyle.Value
import Mathlib.Data.List.Perm.Subperm

/-!
# What a value holds

Two views of plain data that readers of it rely on: the entries of a mapping under a word, and the whole
numbers anywhere inside a value.

* **`Under`**, **`Absent`** — what a look-up by name finds, said on the entries alone. Keys of other kinds
  never stand for a word, so `field?` decides between the two (`field?_eq_some_iff`,
  `field?_eq_none_iff`).
* **`Writable`** — no whole number inside is too long to be written. All views of a value keep this, knots
  included (`Writable.unfold`).
* **`Deeper`**, **`TooDeep`** — how far values stand inside each other, links being followed.
* **`Writable.shown_unless`** — a writable value has a text exactly if it is not nested too deep. Through a
  knot the texts of its collections depend on each other; the induction is on the fuel of `shownPart`, and
  each collection adds one step to it.
-/

namespace CommentStyle

namespace Value

/-! ## Entries by name -/

/-- The mapping has `v` under the word: the first entry with that key. -/
def Under (name : String) (es : List (Value × Value)) (v : Value) : Prop :=
  ∃ before after, es = before ++ (str name, v) :: after ∧ ∀ e ∈ before, e.1 ≠ str name

/-- No key of the mapping is the word. -/
def Absent (name : String) (es : List (Value × Value)) : Prop := ∀ e ∈ es, e.1 ≠ str name

/-- Only a text is the same key as a word. -/
theorem sameKey_str_iff {k : Value} {name : String} : k.sameKey (str name) = true ↔ k = str name := by
  cases k <;> simp [sameKey, wholeKey?]

/-- A key that is not there goes to the end. -/
theorem insertEntry_of_forall {α : Type} {key : Value} {es : List (Value × α)}
    (hes : ∀ e ∈ es, e.1.sameKey key = false) (value : α) :
    insertEntry key value es = es ++ [(key, value)] := by
  induction es with
  | nil => rfl
  | cons e es ih =>
    have hother : e.1.sameKey key = false := hes e List.mem_cons_self
    rw [insertEntry, hother, ih fun d hd => hes d (List.mem_cons_of_mem e hd)]
    rfl

/-- Entries stay as they are if no key comes twice. -/
theorem mapOf_of_pairwise {α : Type} {es : List (Value × α)}
    (hes : (es.map Prod.fst).Pairwise fun j k => j.sameKey k = false) : mapOf es = es := by
  suffices hfold : ∀ done, (∀ d ∈ done, ∀ e ∈ es, d.1.sameKey e.1 = false) →
      es.foldl (fun es e => insertEntry e.1 e.2 es) done = done ++ es by
    simpa [mapOf] using hfold [] (by simp)
  induction es with
  | nil => simp
  | cons e es ih =>
    intro done hdone
    rw [List.map_cons, List.pairwise_cons] at hes
    rw [List.foldl_cons, insertEntry_of_forall fun d hd => hdone d hd e List.mem_cons_self, ih hes.2]
    · simp
    · intro d hd f hf
      rcases List.mem_append.mp hd with hd | hd
      · exact hdone d hd f (List.mem_cons_of_mem e hf)
      · rw [List.mem_singleton.mp hd]
        exact hes.1 f.1 (List.mem_map_of_mem hf)

theorem field?_eq_none_iff {name : String} {es : List (Value × Value)} :
    field? name es = none ↔ Absent name es := by
  induction es with
  | nil => simp [field?, Absent]
  | cons e rest ih =>
    by_cases hkey : e.1 = str name
    · simp [field?, sameKey_str_iff, hkey, Absent]
    · simpa [field?, sameKey_str_iff, hkey, Absent] using ih

theorem field?_eq_some_iff {name : String} {es : List (Value × Value)} {v : Value} :
    field? name es = some v ↔ Under name es v := by
  induction es with
  | nil => simp [field?, Under]
  | cons e rest ih =>
    obtain ⟨key, value⟩ := e
    by_cases hkey : key = str name
    · -- the first entry answers, and nothing may stand before it in a split
      subst hkey
      have hfield : field? name ((str name, value) :: rest) = some value := by
        simp [field?, sameKey_str_iff]
      rw [hfield, Option.some.injEq]
      constructor
      · rintro rfl
        exact ⟨[], rest, rfl, by simp⟩
      · rintro ⟨before, after, heq, hbefore⟩
        cases before with
        | nil => exact congrArg Prod.snd (List.cons.inj heq).1
        | cons first before =>
          have hfirst : (str name, value) = first := (List.cons.inj heq).1
          exact absurd (congrArg Prod.fst hfirst.symm) (hbefore first List.mem_cons_self)
    · -- the first entry is passed over, and belongs to what stands before
      have hfield : field? name ((key, value) :: rest) = field? name rest := by
        simp [field?, sameKey_str_iff, hkey]
      rw [hfield, ih]
      constructor
      · rintro ⟨before, after, rfl, hbefore⟩
        exact ⟨(key, value) :: before, after, rfl, by simpa [hkey] using hbefore⟩
      · rintro ⟨before, after, heq, hbefore⟩
        cases before with
        | nil => exact absurd (congrArg Prod.fst (List.cons.inj heq).1) hkey
        | cons first before =>
          exact ⟨before, after, (List.cons.inj heq).2,
            fun e he => hbefore e (List.mem_cons_of_mem first he)⟩

theorem absent_or_under (name : String) (es : List (Value × Value)) :
    Absent name es ∨ ∃ v, Under name es v := by
  cases hfield : field? name es with
  | none => exact .inl (field?_eq_none_iff.mp hfield)
  | some v => exact .inr ⟨v, field?_eq_some_iff.mp hfield⟩

theorem Under.mem {name : String} {es : List (Value × Value)} {v : Value} (h : Under name es v) :
    (str name, v) ∈ es := by
  obtain ⟨before, after, rfl, -⟩ := h
  simp

/-- A mapping is no list. -/
theorem items?_eq_none_of_entries? {v : Value} {es : List (Value × Value)} (h : v.entries? = some es) :
    v.items? = none := by
  unfold entries? at h
  unfold items?
  split at h
  · next hmap => rw [hmap]
  · cases h

/-! ## Numbers inside -/

theorem mem_of_lookup {α : Type} {parts : List (Nat × α)} {n : Nat} {part : α}
    (h : parts.lookup n = some part) : (n, part) ∈ parts := by
  obtain ⟨before, after, rfl, -⟩ := List.lookup_eq_some_iff.mp h
  simp

/-- Every whole number inside has few enough digits to be written. -/
inductive Writable : Value → Prop
  | null : Writable null
  | bool (b : Bool) : Writable (bool b)
  | int {n : Int} (hn : Number.isWritable n = true) : Writable (int n)
  | float (x : Binary64) : Writable (float x)
  | ownNan (place : Nat) : Writable (ownNan place)
  | str (s : String) : Writable (str s)
  | octets (os : List UInt8) : Writable (octets os)
  | date (d : Date) : Writable (date d)
  | moment (m : Moment) : Writable (moment m)
  | list {xs : List Value} (hxs : ∀ x ∈ xs, Writable x) : Writable (list xs)
  | pair {a b : Value} (ha : Writable a) (hb : Writable b) : Writable (pair a b)
  | map {es : List (Value × Value)} (hkeys : ∀ e ∈ es, Writable e.1) (hvalues : ∀ e ∈ es, Writable e.2) :
      Writable (map es)
  | set {xs : List Value} (hxs : ∀ x ∈ xs, Writable x) : Writable (set xs)
  | link (n : Nat) : Writable (link n)
  | knot {parts : List (Nat × Value)} (hparts : ∀ p ∈ parts, Writable p.2) (n : Nat) :
      Writable (knot parts n)

attribute [simp] Writable.null Writable.bool Writable.str

@[simp] theorem writable_int_iff {n : Int} : Writable (int n) ↔ Number.isWritable n = true :=
  ⟨fun h => by cases h; assumption, .int⟩

@[simp] theorem writable_list_iff {xs : List Value} : Writable (list xs) ↔ ∀ x ∈ xs, Writable x :=
  ⟨fun h => by cases h; assumption, .list⟩

@[simp] theorem writable_map_iff {es : List (Value × Value)} :
    Writable (map es) ↔ ∀ e ∈ es, Writable e.1 ∧ Writable e.2 := by
  constructor
  · intro h
    cases h with
    | map hkeys hvalues => exact fun e he => ⟨hkeys e he, hvalues e he⟩
  · exact fun h => .map (fun e he => (h e he).1) fun e he => (h e he).2

namespace Writable

theorem tie {parts : List (Nat × Value)} (hparts : ∀ p ∈ parts, Writable p.2) {v : Value}
    (hv : Writable v) : Writable (v.tie parts) := by
  cases hv with
  | link n => exact knot hparts n
  | _ => simp only [Value.tie]; constructor <;> assumption

theorem tieItem {parts : List (Nat × Value)} (hparts : ∀ p ∈ parts, Writable p.2) {v : Value}
    (hv : Writable v) : Writable (v.tieItem parts) := by
  unfold Value.tieItem
  split
  · cases hv with
    | pair ha hb => exact pair (ha.tie hparts) (hb.tie hparts)
  · exact hv.tie hparts

theorem unfold {v : Value} (hv : Writable v) : Writable v.unfold := by
  unfold Value.unfold
  split
  · next parts n =>
    cases hv with
    | knot hparts =>
      split
      · next xs hlookup =>
        have hxs := writable_list_iff.mp (hparts _ (mem_of_lookup hlookup))
        refine list fun x hx => ?_
        obtain ⟨y, hy, rfl⟩ := List.mem_map.mp hx
        exact (hxs y hy).tieItem hparts
      · next es hlookup =>
        have hes := writable_map_iff.mp (hparts _ (mem_of_lookup hlookup))
        refine writable_map_iff.mpr fun e he => ?_
        obtain ⟨e', he', rfl⟩ := List.mem_map.mp he
        exact ⟨(hes e' he').1, (hes e' he').2.tie hparts⟩
      · exact null
  · exact hv

theorem of_entries? {v w : Value} {name : String} {es : List (Value × Value)} (hv : Writable v)
    (hes : v.entries? = some es) (hw : Under name es w) : Writable w := by
  have hunfold := hv.unfold
  unfold entries? at hes
  split at hes
  · next hmap =>
    cases hes
    rw [hmap, writable_map_iff] at hunfold
    exact (hunfold _ hw.mem).2
  · cases hes

theorem of_items? {v x : Value} {xs : List Value} (hv : Writable v) (hxs : v.items? = some xs)
    (hx : x ∈ xs) : Writable x := by
  have hunfold := hv.unfold
  unfold items? at hxs
  split at hxs
  · next hlist =>
    cases hxs
    rw [hlist, writable_list_iff] at hunfold
    exact hunfold x hx
  · next a b hpair =>
    cases hxs
    rw [hpair] at hunfold
    cases hunfold with
    | pair ha hb =>
      rw [List.mem_cons, List.mem_singleton] at hx
      rcases hx with rfl | rfl
      · exact ha
      · exact hb
  · cases hxs

end Writable

/-! ## Nesting

What is shown is shown inside of what holds it, and through the links of a knot this goes on until a
collection comes back that is around already. -/

/-- From this value on, more values than there is room for stand inside each other. Links lead to the
collections of the knot, but to none that is around. -/
inductive Deeper : List (Nat × Value) → List Nat → Value → Nat → Prop
  | full {parts : List (Nat × Value)} {around : List Nat} {v : Value} : Deeper parts around v 0
  | item {parts : List (Nat × Value)} {around : List Nat} {xs : List Value} {x : Value} {room : Nat}
      (hx : x ∈ xs) (h : Deeper parts around x room) : Deeper parts around (list xs) (room + 1)
  | first {parts : List (Nat × Value)} {around : List Nat} {a b : Value} {room : Nat}
      (h : Deeper parts around a room) : Deeper parts around (pair a b) (room + 1)
  | second {parts : List (Nat × Value)} {around : List Nat} {a b : Value} {room : Nat}
      (h : Deeper parts around b room) : Deeper parts around (pair a b) (room + 1)
  | key {parts : List (Nat × Value)} {around : List Nat} {es : List (Value × Value)} {e : Value × Value}
      {room : Nat} (he : e ∈ es) (h : Deeper parts around e.1 room) : Deeper parts around (map es) (room + 1)
  | value {parts : List (Nat × Value)} {around : List Nat} {es : List (Value × Value)} {e : Value × Value}
      {room : Nat} (he : e ∈ es) (h : Deeper parts around e.2 room) : Deeper parts around (map es) (room + 1)
  | member {parts : List (Nat × Value)} {around : List Nat} {xs : List Value} {x : Value} {room : Nat}
      (hx : x ∈ xs) (h : Deeper parts around x room) : Deeper parts around (set xs) (room + 1)
  | link {parts : List (Nat × Value)} {around : List Nat} {n : Nat} {v : Value} {room : Nat}
      (hpart : parts.lookup n = some v) (hfresh : n ∉ around) (h : Deeper parts (n :: around) v room) :
      Deeper parts around (link n) room
  | knot {parts inner : List (Nat × Value)} {around : List Nat} {n : Nat} {room : Nat}
      (h : Deeper inner [] (link n) room) : Deeper parts around (knot inner n) room

/-- The value is nested deeper than can be shown. -/
def TooDeep (v : Value) : Prop := Deeper [] [] v showLimit

section Deeper

variable {parts : List (Nat × Value)} {around : List Nat} {room : Nat}

theorem deeper_list_iff {xs : List Value} :
    Deeper parts around (list xs) (room + 1) ↔ ∃ x ∈ xs, Deeper parts around x room := by
  constructor
  · intro h
    cases h with
    | item hx h => exact ⟨_, hx, h⟩
  · rintro ⟨x, hx, h⟩
    exact .item hx h

theorem deeper_pair_iff {a b : Value} :
    Deeper parts around (pair a b) (room + 1) ↔ Deeper parts around a room ∨ Deeper parts around b room := by
  constructor
  · intro h
    cases h with
    | first h => exact .inl h
    | second h => exact .inr h
  · rintro (h | h)
    · exact .first h
    · exact .second h

theorem deeper_map_iff {es : List (Value × Value)} :
    Deeper parts around (map es) (room + 1) ↔
      ∃ e ∈ es, Deeper parts around e.1 room ∨ Deeper parts around e.2 room := by
  constructor
  · intro h
    cases h with
    | key he h => exact ⟨_, he, .inl h⟩
    | value he h => exact ⟨_, he, .inr h⟩
  · rintro ⟨e, he, h | h⟩
    · exact .key he h
    · exact .value he h

theorem deeper_set_iff {xs : List Value} :
    Deeper parts around (set xs) (room + 1) ↔ ∃ x ∈ xs, Deeper parts around x room := by
  constructor
  · intro h
    cases h with
    | member hx h => exact ⟨_, hx, h⟩
  · rintro ⟨x, hx, h⟩
    exact .member hx h

theorem deeper_link_iff {n : Nat} :
    Deeper parts around (link n) (room + 1) ↔
      ∃ v, parts.lookup n = some v ∧ n ∉ around ∧ Deeper parts (n :: around) v (room + 1) := by
  constructor
  · intro h
    cases h with
    | link hpart hfresh h => exact ⟨_, hpart, hfresh, h⟩
  · rintro ⟨v, hpart, hfresh, h⟩
    exact .link hpart hfresh h

theorem deeper_knot_iff {inner : List (Nat × Value)} {n : Nat} :
    Deeper parts around (knot inner n) (room + 1) ↔ Deeper inner [] (link n) (room + 1) := by
  constructor
  · intro h
    cases h with
    | knot h => exact h
  · exact .knot

end Deeper

/-! ## The text of a writable value

Among writable values only nesting keeps one from being shown. Through a knot the texts of its collections
depend on each other. The induction is on the fuel of `shownPart`, which is never used up, as the
collections around are different ones of the knot. -/

/-- There is a text unless there is too deep a nesting. -/
def ShownUnless (x : Shown) (deep : Prop) : Prop :=
  (deep → x = .error .tooDeep) ∧ (¬ deep → ∃ s, x = .ok s)

namespace ShownUnless

variable {x y : Shown} {p q : Prop}

theorem ok (s : String) (hp : ¬ p) : ShownUnless (.ok s) p := ⟨fun h => absurd h hp, fun _ => ⟨s, rfl⟩⟩

theorem tooDeep (hp : p) : ShownUnless (.error .tooDeep) p := ⟨fun _ => rfl, fun h => absurd hp h⟩

theorem congr (hx : ShownUnless x p) (hpq : q ↔ p) : ShownUnless x q := by rwa [ShownUnless, hpq]

theorem map (hx : ShownUnless x p) (f : String → String) : ShownUnless (f <$> x) p := by
  refine ⟨fun h => by rw [hx.1 h]; rfl, fun h => ?_⟩
  obtain ⟨s, hs⟩ := hx.2 h
  exact ⟨f s, by rw [hs]; rfl⟩

theorem map₂ (hx : ShownUnless x p) (hy : ShownUnless y q) (f : String → String → String) :
    ShownUnless (do return f (← x) (← y)) (p ∨ q) := by
  by_cases hp : p
  · exact ⟨fun _ => by rw [hx.1 hp]; rfl, fun h => absurd (.inl hp) h⟩
  · obtain ⟨s, rfl⟩ := hx.2 hp
    exact (hy.map (f s)).congr (or_iff_right hp)

theorem eq_error_iff (hx : ShownUnless x p) {f : ShowFault} : x = .error f ↔ f = .tooDeep ∧ p := by
  by_cases hp : p
  · simp [hx.1 hp, hp, eq_comm]
  · obtain ⟨s, hs⟩ := hx.2 hp
    simp [hs, hp]

end ShownUnless

section Links

variable {room : Nat} {links : Nat → Nat → Shown}

theorem shownItems_unless {xs : List Value} {deep : Value → Prop}
    (hxs : ∀ x ∈ xs, ShownUnless (shownBy x room links) (deep x)) :
    ShownUnless (shownItems xs room links) (∃ x ∈ xs, deep x) := by
  induction xs with
  | nil => exact .ok _ (by simp)
  | cons x xs ih =>
    have hx := hxs x List.mem_cons_self
    cases xs with
    | nil => exact hx.congr (by simp)
    | cons y xs =>
      have hrest := ih fun z hz => hxs z (List.mem_cons_of_mem x hz)
      exact (hx.map₂ hrest fun s t => s ++ ", " ++ t).congr (by simp)

theorem shownEntries_unless {es : List (Value × Value)} (deep : Value → Prop)
    (hkeys : ∀ e ∈ es, ShownUnless (shownBy e.1 room links) (deep e.1))
    (hvalues : ∀ e ∈ es, ShownUnless (shownBy e.2 room links) (deep e.2)) :
    ShownUnless (shownEntries es room links) (∃ e ∈ es, deep e.1 ∨ deep e.2) := by
  induction es with
  | nil => exact .ok _ (by simp)
  | cons e es ih =>
    obtain ⟨k, v⟩ := e
    have hentry := (hkeys _ List.mem_cons_self).map₂ (hvalues _ List.mem_cons_self) fun s t => s ++ ": " ++ t
    cases es with
    | nil => exact hentry.congr (by simp)
    | cons e' es =>
      have hrest := ih (fun d hd => hkeys d (List.mem_cons_of_mem _ hd))
        fun d hd => hvalues d (List.mem_cons_of_mem _ hd)
      have hall := hentry.map₂ hrest fun s t => s ++ ", " ++ t
      rw [shownEntries]
      simpa using hall

end Links

/-- What is shown for the collection with that number of a knot. -/
theorem lookup_shownParts (parts : List (Nat × Value)) (n : Nat) :
    (shownParts parts).lookup n = (parts.lookup n).map fun v => ⟨v matches map _, shownBy v⟩ := by
  induction parts with
  | nil => rfl
  | cons p parts ih =>
    obtain ⟨m, v⟩ := p
    unfold shownParts
    rw [List.lookup_cons, List.lookup_cons]
    split
    · rfl
    · exact ih

theorem length_lt_of_lookup {α : Type} {parts : List (Nat × α)} {around : List Nat} {n : Nat} {part : α}
    (hnodup : around.Nodup) (hmem : ∀ m ∈ around, m ∈ parts.map Prod.fst) (hpart : parts.lookup n = some part)
    (hfresh : n ∉ around) : around.length < parts.length := by
  have hsub : n :: around ⊆ parts.map Prod.fst :=
    List.cons_subset.mpr ⟨List.mem_map_of_mem (mem_of_lookup hpart), hmem⟩
  simpa [Nat.succ_le_iff] using ((List.nodup_cons.mpr ⟨hfresh, hnodup⟩).subperm hsub).length_le

/-- Wherever the value stands among the collections of a knot, it is shown unless it is nested deeper than there is
room, given that this is so for those it links to. -/
def ShownWithin (parts : List (Nat × Value)) (v : Value) : Prop :=
  ∀ (around : List Nat) (links : Nat → Nat → Shown),
    (∀ n room, ShownUnless (links n (room + 1)) (Deeper parts around (link n) (room + 1))) →
      ∀ room, ShownUnless (shownBy v room links) (Deeper parts around v room)

/-- Without room nothing is shown. -/
theorem ShownWithin.of_room {parts : List (Nat × Value)} {v : Value}
    (h : ∀ (around : List Nat) (links : Nat → Nat → Shown),
      (∀ n room, ShownUnless (links n (room + 1)) (Deeper parts around (link n) (room + 1))) →
        ∀ room, ShownUnless (shownBy v (room + 1) links) (Deeper parts around v (room + 1))) :
    ShownWithin parts v := by
  intro around links hlinks room
  cases room with
  | zero =>
    rw [shownBy]
    exact .tooDeep .full
  | succ room => exact h around links hlinks room

/-- A collection of a knot, shown inside of others. -/
theorem shownPart_unless {parts : List (Nat × Value)} (hparts : ∀ p ∈ parts, ShownWithin parts p.2)
    {fuel : Nat} {around : List Nat} (hnodup : around.Nodup) (hmem : ∀ m ∈ around, m ∈ parts.map Prod.fst)
    (hfuel : parts.length < fuel + around.length) (n room : Nat) :
    ShownUnless (shownPart (shownParts parts) fuel around n (room + 1))
      (Deeper parts around (link n) (room + 1)) := by
  induction fuel generalizing around n room with
  | zero =>
    -- those around are different collections of the knot, so that the fuel outlasts them
    refine .ok _ fun h => ?_
    obtain ⟨v, hpart, hfresh, -⟩ := deeper_link_iff.mp h
    have hlength := length_lt_of_lookup hnodup hmem hpart hfresh
    omega
  | succ fuel ih =>
    rw [shownPart, lookup_shownParts]
    cases hpart : parts.lookup n with
    | none => exact .ok _ fun h => by simp [deeper_link_iff, hpart] at h
    | some v =>
      by_cases hfresh : n ∈ around
      · simp only [Option.map_some, List.contains_iff_mem.mpr hfresh, if_true]
        exact .ok _ fun h => by simp [deeper_link_iff, hfresh] at h
      · have hinside : ∀ m room, ShownUnless (shownPart (shownParts parts) fuel (n :: around) m (room + 1))
            (Deeper parts (n :: around) (link m) (room + 1)) := by
          have hkey : n ∈ parts.map Prod.fst := List.mem_map_of_mem (mem_of_lookup hpart)
          exact fun m room => ih (List.nodup_cons.mpr ⟨hfresh, hnodup⟩) (List.forall_mem_cons.mpr ⟨hkey, hmem⟩)
            (by simp only [List.length_cons]; omega) m room
        have hv := hparts _ (mem_of_lookup hpart) _ _ hinside (room + 1)
        simp only [Option.map_some, List.contains_iff_mem, hfresh, if_false]
        exact hv.congr (by simp [deeper_link_iff, hpart, hfresh])

/-- A writable value is shown unless it is nested deeper than there is room. -/
theorem Writable.shownWithin {v : Value} (hv : Writable v) (parts : List (Nat × Value)) : ShownWithin parts v := by
  induction hv generalizing parts with
  | @int n hn =>
    refine .of_room fun around links hlinks room => ?_
    rw [shownBy, Number.written, if_pos hn]
    exact .ok _ nofun
  | @list xs _ ih =>
    refine .of_room fun around links hlinks room => ?_
    have hitems := shownItems_unless fun x hx => ih x hx parts around links hlinks room
    exact (hitems.map fun s => "[" ++ s ++ "]").congr deeper_list_iff
  | @pair a b _ _ iha ihb =>
    refine .of_room fun around links hlinks room => ?_
    have hboth := (iha parts around links hlinks room).map₂ (ihb parts around links hlinks room)
      fun s t => "(" ++ s ++ ", " ++ t ++ ")"
    exact hboth.congr deeper_pair_iff
  | @map es _ _ ihkeys ihvalues =>
    refine .of_room fun around links hlinks room => ?_
    have hentries := shownEntries_unless (Deeper parts around · room)
      (fun e he => ihkeys e he parts around links hlinks room)
      fun e he => ihvalues e he parts around links hlinks room
    exact (hentries.map fun s => "\x7b" ++ s ++ "\x7d").congr deeper_map_iff
  | @set xs _ ih =>
    refine .of_room fun around links hlinks room => ?_
    cases xs with
    | nil => exact .ok _ fun h => by simp [deeper_set_iff] at h
    | cons x xs =>
      have hitems := shownItems_unless fun y hy => ih y hy parts around links hlinks room
      exact (hitems.map fun s => "\x7b" ++ s ++ "\x7d").congr deeper_set_iff
  | link n => exact .of_room fun around links hlinks room => hlinks n room
  | @knot inner _ n ih =>
    -- the links inside a knot are its own: those around it play no part
    refine .of_room fun around links _ room => ?_
    exact (shownPart_unless (fun p hp => ih p hp inner) .nil (by simp) (by simp) n room).congr deeper_knot_iff
  | _ => exact .of_room fun around links _ room => .ok _ nofun

theorem Writable.shown_unless {v : Value} (hv : Writable v) : ShownUnless v.shown v.TooDeep :=
  hv.shownWithin [] [] _ (fun n room => .ok _ fun h => by simp [deeper_link_iff] at h) showLimit

theorem Writable.shown_eq_error_iff {v : Value} (hv : Writable v) {f : ShowFault} :
    v.shown = .error f ↔ f = .tooDeep ∧ v.TooDeep := hv.shown_unless.eq_error_iff

end Value

end CommentStyle
