import CommentStyle.Proofs.Json.Scalars
import CommentStyle.Proofs.Value.Contents

/-!
# Written values are read back

JSON has no form for some values, and reading sets a bound to numbers and nesting. **`Storable n v`** says
that `v` stays clear of both: whole numbers short enough to be read, collections at most `n` deep, members
with different names. For these the round trip is exact, in every layout:

* **`ReadsBack`** — the statement carried through the induction. It quantifies over the place of the value
  (layout, depth, what stands behind it) and over the fuel, of which twice the written length is enough.
* **`items_writeItems`**, **`members_writeMembers`** — the two loops of the reader against the two of the
  writer, by induction on the items, given that each item is read back.
* **`readsBack`** — all storable values, by induction on `Storable`, one case per form.
* **`read_render`** — the whole text.
* **`return_notMem_write`** — no carriage return is ever written, so that a change of line ends leaves a
  written text alone.
-/

namespace CommentStyle.Json

/-! ## What is written between values -/

theorem skipBlanks_append {bs : List Char} (hbs : ∀ b ∈ bs, isBlank b = true) (cs : List Char) :
    skipBlanks (bs ++ cs) = skipBlanks cs :=
  List.dropWhile_append_of_pos hbs

theorem skipBlanks_cons {c : Char} (hc : isBlank c = false) (cs : List Char) :
    skipBlanks (c :: cs) = c :: cs :=
  List.dropWhile_cons_of_neg (by simp [hc])

theorem isBlank_of_mem_lead {l : Layout} {depth : Nat} {b : Char} (hb : b ∈ l.lead depth) :
    isBlank b = true := by
  cases l with
  | oneLine => simp [Layout.lead] at hb
  | lines indent =>
    rcases List.mem_cons.mp hb with rfl | hb
    · rfl
    · rw [(List.mem_replicate.mp hb).2]
      rfl

theorem skipBlanks_lead (l : Layout) (depth : Nat) (cs : List Char) :
    skipBlanks (l.lead depth ++ cs) = skipBlanks cs :=
  skipBlanks_append (fun _ hb => isBlank_of_mem_lead hb) cs

/-- A divider is a comma and blanks. -/
theorem divider_eq_cons (l : Layout) (depth : Nat) :
    ∃ gap, l.divider depth = ',' :: gap ∧ ∀ b ∈ gap, isBlank b = true := by
  cases l with
  | oneLine => exact ⟨[' '], rfl, List.forall_mem_singleton.mpr rfl⟩
  | lines indent => exact ⟨_, rfl, fun _ hb => isBlank_of_mem_lead hb⟩

theorem ends_divider (l : Layout) (depth : Nat) (cs : List Char) : Ends (l.divider depth ++ cs) := by
  obtain ⟨gap, hdivider, -⟩ := divider_eq_cons l depth
  rw [hdivider]
  rintro c ⟨⟩
  exact Or.inl rfl

/-- What closes a collection ends its last value, whether or not it stands on a line of its own. -/
theorem ends_lead (l : Layout) (depth : Nat) {close : Char} (hclose : close = ']' ∨ close = '}')
    (cs : List Char) : Ends (l.lead depth ++ close :: cs) := by
  cases l with
  | oneLine =>
    rintro c ⟨⟩
    rcases hclose with rfl | rfl
    · exact Or.inr (Or.inl rfl)
    · exact Or.inr (Or.inr (Or.inl rfl))
  | lines indent =>
    rintro c ⟨⟩
    exact Or.inr (Or.inr (Or.inr rfl))

/-! ## The values that are stored in full -/

/-- A value under a name, as an entry of a mapping. -/
def member {α : Type} (m : String × α) : Value × α := (.str m.1, m.2)

@[simp] theorem member_fst {α : Type} (m : String × α) : (member m).1 = .str m.1 := rfl

@[simp] theorem member_snd {α : Type} (m : String × α) : (member m).2 = m.2 := rfl

/-- The value is written in full and within what a reader puts up with, its collections being at most so
many levels deep. -/
inductive Storable : Nat → Value → Prop where
  | null {room : Nat} : Storable room .null
  | bool {room : Nat} (b : Bool) : Storable room (.bool b)
  | int {room : Nat} {n : Int} (hn : Number.isWritable n = true) : Storable room (.int n)
  | str {room : Nat} (s : String) : Storable room (.str s)
  | list {room : Nat} {xs : List Value} (hitems : ∀ x ∈ xs, Storable room x) :
      Storable (room + 1) (.list xs)
  | map {room : Nat} (ms : List (String × Value)) (hnames : (ms.map Prod.fst).Nodup)
      (hmembers : ∀ m ∈ ms, Storable room m.2) :
      Storable (room + 1) (.map (ms.map member))

/-- A written value begins with a character that is no blank, does not close a list, and is not the byte
order mark. -/
theorem write_eq_cons {room : Nat} {v : Value} (hv : Storable room v) (l : Layout) (depth : Nat) :
    ∃ c cs, write l depth v = c :: cs ∧ isBlank c = false ∧ c ≠ ']' ∧ c ≠ '\uFEFF' := by
  cases hv with
  | null => exact ⟨_, _, by rw [write], by decide⟩
  | bool b =>
    cases b with
    | true => exact ⟨'t', ['r', 'u', 'e'], by rw [write]; rfl, by decide⟩
    | false => exact ⟨'f', ['a', 'l', 's', 'e'], by rw [write]; rfl, by decide⟩
  | @int _ n hn =>
    obtain ⟨c, cs, hcons, hne⟩ := toString_eq_cons n
    refine ⟨c, cs, by rw [write, hcons], ?_, hne ']' (by decide) (by decide),
      hne '\uFEFF' (by decide) (by decide)⟩
    simp [isBlank, hne ' ' (by decide) (by decide), hne '\t' (by decide) (by decide),
      hne '\n' (by decide) (by decide), hne '\r' (by decide) (by decide)]
  | str s => exact ⟨'"', _, by rw [write, writeString]; rfl, by decide⟩
  | @list _ xs _ =>
    cases xs with
    | nil => exact ⟨_, _, by rw [write], by decide⟩
    | cons x xs => exact ⟨'[', _, by rw [write]; rfl, by decide⟩
  | map ms _ _ =>
    cases ms with
    | nil => exact ⟨_, _, by rw [List.map_nil, write], by decide⟩
    | cons m ms => exact ⟨'{', _, by rw [List.map_cons, write]; rfl, by decide⟩

theorem skipBlanks_write {room : Nat} {v : Value} (hv : Storable room v) (l : Layout) (depth : Nat)
    (rest : List Char) : skipBlanks (write l depth v ++ rest) = write l depth v ++ rest := by
  obtain ⟨c, cs, hwrite, hblank, -⟩ := write_eq_cons hv l depth
  rw [hwrite, List.cons_append, skipBlanks_cons hblank]

/-! ## Members with different names -/

/-- Entries put in one after the other stay as they are, if no name comes twice. -/
theorem mapOf_of_nodup {ms : List (String × Value)} (hnames : (ms.map Prod.fst).Nodup) :
    Value.mapOf (ms.map member) = ms.map member := by
  refine Value.mapOf_of_pairwise ?_
  rw [List.map_map, show Prod.fst ∘ member = Value.str ∘ Prod.fst from rfl, ← List.map_map, List.pairwise_map]
  exact hnames.imp fun hne => by simpa [Value.sameKey] using hne

/-! ## Reading what was written -/

/-- The value is read back from its written form, wherever that stands. Fuel of twice the written length
is enough: each step of the reader into a collection or on to its next item takes two, and consumes at
least one character. -/
def ReadsBack (room : Nat) (v : Value) : Prop :=
  ∀ (l : Layout) (d depth fuel : Nat) (rest : List Char), depth + room ≤ 990 →
    2 * (write l d v).length ≤ fuel → Ends rest →
      value {} depth fuel (write l d v ++ rest) = .ok (v, rest)

theorem tooDeep_eq_false {depth : Nat} (hdepth : depth < 990) : tooDeep {} depth = false := by
  simp [tooDeep, hdepth]

/-- Written items begin as the first of them does. -/
theorem writeItems_eq_append (l : Layout) (depth : Nat) (x : Value) (xs : List Value) :
    ∃ cs, writeItems l depth (x :: xs) = write l depth x ++ cs := by
  cases xs with
  | nil => exact ⟨[], by rw [writeItems, List.append_nil]⟩
  | cons y ys => exact ⟨_, by rw [writeItems, List.append_assoc]⟩

theorem skipBlanks_writeItems {room : Nat} {x : Value} (hx : Storable room x) (xs : List Value)
    (l : Layout) (depth : Nat) (rest : List Char) :
    skipBlanks (writeItems l depth (x :: xs) ++ rest) = writeItems l depth (x :: xs) ++ rest := by
  obtain ⟨cs, hitems⟩ := writeItems_eq_append l depth x xs
  rw [hitems, List.append_assoc, skipBlanks_write hx]

/-- The items of a list, up to its closing bracket. -/
theorem items_writeItems {room : Nat} {x : Value} {xs : List Value}
    (hstorable : ∀ y ∈ x :: xs, Storable room y) (hread : ∀ y ∈ x :: xs, ReadsBack room y)
    (l : Layout) (d e depth fuel : Nat) (rest : List Char) (hdepth : depth + room ≤ 990)
    (hfuel : 2 * (writeItems l d (x :: xs)).length < fuel) :
    items {} depth fuel (writeItems l d (x :: xs) ++ (l.lead e ++ ']' :: rest))
      = .ok (x :: xs, rest) := by
  induction xs generalizing x fuel with
  | nil =>
    obtain ⟨fuel, rfl⟩ : ∃ f, fuel = f + 1 := ⟨fuel - 1, by omega⟩
    rw [writeItems] at hfuel ⊢
    have hvalue := hread x List.mem_cons_self l d depth fuel (l.lead e ++ ']' :: rest) hdepth
      (by omega) (ends_lead l e (Or.inl rfl) rest)
    rw [items, hvalue]
    simp only [bind, Except.bind]
    rw [skipBlanks_lead, skipBlanks_cons (by decide)]
    rfl
  | cons y ys ih =>
    obtain ⟨fuel, rfl⟩ : ∃ f, fuel = f + 1 := ⟨fuel - 1, by omega⟩
    -- what divides two items is a comma and blanks
    obtain ⟨gap, hdivider, hgap⟩ := divider_eq_cons l d
    rw [writeItems, List.length_append, List.length_append, hdivider, List.length_cons] at hfuel
    have hvalue := hread x List.mem_cons_self l d depth fuel
      (l.divider d ++ (writeItems l d (y :: ys) ++ (l.lead e ++ ']' :: rest))) hdepth (by omega)
      (ends_divider l d _)
    have hrest := ih (fun z hz => hstorable z (List.mem_cons_of_mem x hz))
      (fun z hz => hread z (List.mem_cons_of_mem x hz)) fuel (by omega)
    rw [writeItems, List.append_assoc, List.append_assoc, items, hvalue]
    simp only [bind, Except.bind]
    rw [hdivider, List.cons_append, skipBlanks_cons (by decide)]
    simp only
    rw [skipBlanks_append hgap, skipBlanks_writeItems (hstorable y (by simp)), hrest]

/-- A member's name, its colon and the blank behind that. -/
theorem memberName_writeWord (name : String) (rest : List Char) :
    memberName (writeWord (.str name) ++ ([':', ' '] ++ rest)) = .ok (name, skipBlanks rest) := by
  have hword : writeWord (.str name) = '"' :: (name.toList.flatMap escape ++ ['"']) := rfl
  rw [hword, List.cons_append, List.append_assoc, List.singleton_append, memberName, string_escape]
  rfl

theorem writeMembers_singleton (l : Layout) (depth : Nat) (m : String × Value) :
    writeMembers l depth ([m].map member) = writeWord (.str m.1) ++ [':', ' '] ++ write l depth m.2 := by
  rw [List.map_singleton, writeMembers, member_fst, member_snd]

theorem writeMembers_cons_cons (l : Layout) (depth : Nat) (m y : String × Value)
    (ys : List (String × Value)) :
    writeMembers l depth ((m :: y :: ys).map member)
      = writeWord (.str m.1) ++ [':', ' '] ++ write l depth m.2 ++ l.divider depth
        ++ writeMembers l depth ((y :: ys).map member) := by
  simp only [List.map_cons, member, writeMembers]

/-- Written members begin with the quote of the first name. -/
theorem writeMembers_eq_cons (l : Layout) (depth : Nat) (m : String × Value)
    (ms : List (String × Value)) : ∃ cs, writeMembers l depth ((m :: ms).map member) = '"' :: cs := by
  cases ms with
  | nil => exact ⟨_, by rw [writeMembers_singleton]; rfl⟩
  | cons y ys => exact ⟨_, by rw [writeMembers_cons_cons]; rfl⟩

theorem skipBlanks_writeMembers (m : String × Value) (ms : List (String × Value)) (l : Layout)
    (depth : Nat) (rest : List Char) :
    skipBlanks (writeMembers l depth ((m :: ms).map member) ++ rest)
      = writeMembers l depth ((m :: ms).map member) ++ rest := by
  obtain ⟨cs, hquote⟩ := writeMembers_eq_cons l depth m ms
  rw [hquote, List.cons_append, skipBlanks_cons (by decide)]

/-- The members of an object, up to its closing brace. -/
theorem members_writeMembers {room : Nat} {m : String × Value} {ms : List (String × Value)}
    (hstorable : ∀ y ∈ m :: ms, Storable room y.2) (hread : ∀ y ∈ m :: ms, ReadsBack room y.2)
    (l : Layout) (d e depth fuel : Nat) (rest : List Char) (hdepth : depth + room ≤ 990)
    (hfuel : 2 * (writeMembers l d ((m :: ms).map member)).length < fuel) :
    members {} depth fuel (writeMembers l d ((m :: ms).map member) ++ (l.lead e ++ '}' :: rest))
      = .ok ((m :: ms).map member, rest) := by
  induction ms generalizing m fuel with
  | nil =>
    obtain ⟨fuel, rfl⟩ : ∃ f, fuel = f + 1 := ⟨fuel - 1, by omega⟩
    rw [writeMembers_singleton, List.length_append, List.length_append] at hfuel
    have hvalue := hread m List.mem_cons_self l d depth fuel (l.lead e ++ '}' :: rest) hdepth
      (by omega) (ends_lead l e (Or.inr rfl) rest)
    rw [writeMembers_singleton, List.append_assoc, List.append_assoc, members, memberName_writeWord,
      skipBlanks_write (hstorable m (by simp))]
    simp only [bind, Except.bind]
    rw [hvalue]
    simp only
    rw [skipBlanks_lead, skipBlanks_cons (by decide)]
    rfl
  | cons y ys ih =>
    obtain ⟨fuel, rfl⟩ : ∃ f, fuel = f + 1 := ⟨fuel - 1, by omega⟩
    obtain ⟨gap, hdivider, hgap⟩ := divider_eq_cons l d
    rw [writeMembers_cons_cons, hdivider] at hfuel
    simp only [List.length_append, List.length_cons] at hfuel
    have hvalue := hread m List.mem_cons_self l d depth fuel
      (l.divider d ++ (writeMembers l d ((y :: ys).map member)
        ++ (l.lead e ++ '}' :: rest))) hdepth (by omega) (ends_divider l d _)
    have hrest := ih (fun z hz => hstorable z (List.mem_cons_of_mem m hz))
      (fun z hz => hread z (List.mem_cons_of_mem m hz)) fuel (by omega)
    rw [writeMembers_cons_cons]
    simp only [List.append_assoc]
    rw [members, memberName_writeWord, skipBlanks_write (hstorable m (by simp))]
    simp only [bind, Except.bind]
    rw [hvalue]
    simp only
    rw [hdivider, List.cons_append, skipBlanks_cons (by decide)]
    simp only
    rw [skipBlanks_append hgap, skipBlanks_writeMembers, hrest]
    rfl

/-! ## The three ways into a value -/

theorem value_eq_bareValue (limits : Limits) (depth fuel : Nat) {c : Char} (cs : List Char)
    (hquote : c ≠ '"') (hbracket : c ≠ '[') (hbrace : c ≠ '{') :
    value limits depth (fuel + 1) (c :: cs) = bareValue limits (c :: cs) := by
  rw [value]
  all_goals simp [hquote, hbracket, hbrace]

theorem value_bracket {depth : Nat} (hdepth : depth < 990) (fuel : Nat) {c : Char} {cs rest : List Char}
    (hskip : skipBlanks rest = c :: cs) (hclose : c ≠ ']') :
    value {} depth (fuel + 1) ('[' :: rest)
      = (items {} (depth + 1) fuel (c :: cs)).map fun (vs, r) => (.list vs, r) := by
  rw [value, tooDeep_eq_false hdepth, hskip]
  simp [hclose]

theorem value_brace {depth : Nat} (hdepth : depth < 990) (fuel : Nat) {c : Char} {cs rest : List Char}
    (hskip : skipBlanks rest = c :: cs) (hclose : c ≠ '}') :
    value {} depth (fuel + 1) ('{' :: rest)
      = (members {} (depth + 1) fuel (c :: cs)).map fun (es, r) => (.map (Value.mapOf es), r) := by
  rw [value, tooDeep_eq_false hdepth, hskip]
  simp [hclose]

/-- A written list is read back if its items are. -/
theorem readsBack_list {room : Nat} {xs : List Value} (hstorable : ∀ x ∈ xs, Storable room x)
    (hread : ∀ x ∈ xs, ReadsBack room x) : ReadsBack (room + 1) (.list xs) := by
  intro l d depth fuel rest hdepth hfuel _
  cases xs with
  | nil =>
    rw [write] at hfuel ⊢
    obtain ⟨fuel, rfl⟩ : ∃ f, fuel = f + 1 := ⟨fuel - 1, by simp at hfuel; omega⟩
    rw [List.cons_append, value, tooDeep_eq_false (by omega)]
    rfl
  | cons x xs =>
    rw [write] at hfuel ⊢
    simp only [List.length_append, List.length_cons, List.cons_append, List.append_assoc,
      List.nil_append] at hfuel ⊢
    obtain ⟨fuel, rfl⟩ : ∃ f, fuel = f + 1 := ⟨fuel - 1, by omega⟩
    have hitems := items_writeItems hstorable hread l (d + 1) d (depth + 1) fuel rest (by omega)
      (by omega)
    -- the first item does not begin like the end of an empty list
    obtain ⟨cs, happend⟩ := writeItems_eq_append l (d + 1) x xs
    obtain ⟨c, ds, hwritten, -, hclose, -⟩ := write_eq_cons (hstorable x (by simp)) l (d + 1)
    have hskip := skipBlanks_writeItems (hstorable x (by simp)) xs l (d + 1) (l.lead d ++ ']' :: rest)
    rw [happend, hwritten, List.cons_append, List.cons_append] at hitems hskip ⊢
    rw [value_bracket (by omega) fuel ((skipBlanks_lead l (d + 1) _).trans hskip) hclose, hitems]
    rfl

/-- A written object is read back if the values of its members are. -/
theorem readsBack_map {room : Nat} {ms : List (String × Value)} (hnames : (ms.map Prod.fst).Nodup)
    (hstorable : ∀ m ∈ ms, Storable room m.2) (hread : ∀ m ∈ ms, ReadsBack room m.2) :
    ReadsBack (room + 1) (.map (ms.map member)) := by
  intro l d depth fuel rest hdepth hfuel _
  cases ms with
  | nil =>
    rw [List.map_nil, write] at hfuel ⊢
    obtain ⟨fuel, rfl⟩ : ∃ f, fuel = f + 1 := ⟨fuel - 1, by simp at hfuel; omega⟩
    rw [List.cons_append, value, tooDeep_eq_false (by omega)]
    rfl
  | cons m ms =>
    rw [List.map_cons, write, ← List.map_cons] at hfuel ⊢
    simp only [List.length_append, List.length_cons, List.cons_append, List.append_assoc,
      List.nil_append] at hfuel ⊢
    obtain ⟨fuel, rfl⟩ : ∃ f, fuel = f + 1 := ⟨fuel - 1, by omega⟩
    have hmembers := members_writeMembers hstorable hread l (d + 1) d (depth + 1) fuel rest (by omega)
      (by omega)
    -- the first member begins with the quote of its name, not like the end of an empty object
    obtain ⟨cs, hquote⟩ := writeMembers_eq_cons l (d + 1) m ms
    have hskip := skipBlanks_writeMembers m ms l (d + 1) (l.lead d ++ '}' :: rest)
    rw [hquote, List.cons_append] at hmembers hskip ⊢
    rw [value_brace (by omega) fuel ((skipBlanks_lead l (d + 1) _).trans hskip) (by decide), hmembers]
    simp only [Except.map, mapOf_of_nodup hnames]

/-- **Every storable value is read back.** -/
theorem readsBack {room : Nat} {v : Value} (hv : Storable room v) : ReadsBack room v := by
  induction hv with
  | null =>
    intro l d depth fuel rest _ hfuel _
    rw [write] at hfuel ⊢
    obtain ⟨fuel, rfl⟩ : ∃ f, fuel = f + 1 := ⟨fuel - 1, by simp at hfuel; omega⟩
    rfl
  | bool b =>
    intro l d depth fuel rest _ hfuel _
    rw [write] at hfuel ⊢
    obtain ⟨fuel, rfl⟩ : ∃ f, fuel = f + 1 := ⟨fuel - 1, by cases b <;> simp at hfuel <;> omega⟩
    cases b <;> rfl
  | @int _ n hn =>
    intro l d depth fuel rest _ hfuel hrest
    rw [write] at hfuel ⊢
    obtain ⟨c, cs, hcons, hne⟩ := toString_eq_cons n
    obtain ⟨fuel, rfl⟩ : ∃ f, fuel = f + 1 := ⟨fuel - 1, by rw [hcons] at hfuel; simp at hfuel; omega⟩
    have hbare := bareValue_toString hn hrest
    rw [hcons, List.cons_append] at hbare ⊢
    rw [value_eq_bareValue _ _ _ _ (hne _ (by decide) (by decide)) (hne _ (by decide) (by decide))
      (hne _ (by decide) (by decide)), hbare]
  | str s =>
    intro l d depth fuel rest _ hfuel _
    rw [write, writeString] at hfuel ⊢
    obtain ⟨fuel, rfl⟩ : ∃ f, fuel = f + 1 := ⟨fuel - 1, by simp at hfuel; omega⟩
    rw [List.cons_append, List.cons_append, List.append_assoc, List.singleton_append, value,
      string_escape]
    rfl
  | list hstorable ih => exact readsBack_list hstorable ih
  | map ms hnames hstorable ih => exact readsBack_map hnames hstorable ih

/-! ## Whole texts -/

/-- A written value is the only value of its text, also with blanks behind it. -/
theorem document_write_append {v : Value} (hv : Storable 990 v) (l : Layout) {gap : List Char}
    (hends : Ends gap) (hgap : ∀ b ∈ gap, isBlank b = true) :
    document {} (write l 0 v ++ gap) = .ok v := by
  have hread := readsBack hv l 0 0 (2 * (write l 0 v ++ gap).length + 1) gap (by omega)
    (by rw [List.length_append]; omega) hends
  have hrest : skipBlanks gap = [] := by
    have hskip := skipBlanks_append hgap []
    rwa [List.append_nil] at hskip
  unfold document
  split
  · next tail hmark =>
    obtain ⟨c, cs, hwritten, -, -, hplain⟩ := write_eq_cons hv l 0
    rw [hwritten] at hmark
    exact absurd (List.cons.inj hmark).1 hplain
  · rw [skipBlanks_write hv, hread]
    simp only [bind, Except.bind]
    rw [hrest]

/-- **The round trip.** Whatever the layout, a storable value is read back from its text. -/
theorem read_render {v : Value} (hv : Storable 990 v) (l : Layout) : read (render l v) = .ok v := by
  have hdocument := document_write_append hv l Ends.nil (by simp)
  rw [List.append_nil] at hdocument
  unfold read render
  rw [String.toList_ofList, hdocument]
  rfl

/-- The same with a line feed behind the text, as a printed report has it. -/
theorem read_render_line {v : Value} (hv : Storable 990 v) (l : Layout) :
    read (render l v ++ "\n") = .ok v := by
  have hends : Ends ['\n'] := by
    rintro c ⟨⟩
    exact Or.inr (Or.inr (Or.inr rfl))
  have hdocument := document_write_append hv l hends (List.forall_mem_singleton.mpr rfl)
  unfold read render
  rw [String.toList_append, String.toList_ofList, show "\n".toList = ['\n'] from rfl, hdocument]
  rfl

/-! ## Line ends

A carriage return inside a text is escaped, and the writer puts none between values. -/

theorem return_notMem_escape (c : Char) : '\r' ∉ escape c := by
  rcases escape_cases c with ⟨letter, hescape, hletter, -⟩ | ⟨hcontrol, hescape⟩ |
    ⟨hvisible, -, -, hescape⟩
  · have hne : letter ≠ '\r' := by
      rintro rfl
      exact absurd hletter (by simp [escaped?])
    rw [hescape]
    simp [Ne.symm hne]
  · obtain ⟨a, b, d, e, hhex, -, hreturn⟩ := hex_control hcontrol
    rw [hescape, hhex]
    simpa using hreturn
  · have hne : c ≠ '\r' := by
      rintro rfl
      exact absurd hvisible (by decide)
    rw [hescape]
    simp [Ne.symm hne]

theorem return_notMem_writeString (s : String) : '\r' ∉ writeString s := by
  unfold writeString
  simp [return_notMem_escape]

theorem return_notMem_lead (l : Layout) (depth : Nat) : '\r' ∉ l.lead depth := by
  cases l with
  | oneLine => simp [Layout.lead]
  | lines indent => simp [Layout.lead, List.mem_replicate]

theorem return_notMem_divider (l : Layout) (depth : Nat) : '\r' ∉ l.divider depth := by
  cases l with
  | oneLine => simp [Layout.divider]
  | lines indent => simp [Layout.divider, return_notMem_lead]

theorem return_notMem_writeItems {l : Layout} {depth : Nat} {xs : List Value}
    (hitems : ∀ x ∈ xs, '\r' ∉ write l depth x) : '\r' ∉ writeItems l depth xs := by
  induction xs with
  | nil => simp [writeItems]
  | cons x xs ih =>
    have hrest := ih fun y hy => hitems y (List.mem_cons_of_mem x hy)
    cases xs with
    | nil =>
      rw [writeItems]
      exact hitems x List.mem_cons_self
    | cons y ys =>
      rw [writeItems, List.mem_append, List.mem_append, not_or, not_or]
      exact ⟨⟨hitems x List.mem_cons_self, return_notMem_divider l depth⟩, hrest⟩

theorem return_notMem_writeMembers {l : Layout} {depth : Nat} {ms : List (String × Value)}
    (hmembers : ∀ m ∈ ms, '\r' ∉ write l depth m.2) : '\r' ∉ writeMembers l depth (ms.map member) := by
  induction ms with
  | nil => simp [writeMembers]
  | cons m ms ih =>
    have hrest := ih fun y hy => hmembers y (List.mem_cons_of_mem m hy)
    have hname : '\r' ∉ writeWord (.str m.1) ++ [':', ' '] ++ write l depth m.2 := by
      rw [List.mem_append, List.mem_append, not_or, not_or]
      exact ⟨⟨return_notMem_writeString m.1, by decide⟩, hmembers m List.mem_cons_self⟩
    cases ms with
    | nil =>
      rw [writeMembers_singleton]
      exact hname
    | cons y ys =>
      rw [writeMembers_cons_cons, List.mem_append, List.mem_append, not_or, not_or]
      exact ⟨⟨hname, return_notMem_divider l depth⟩, hrest⟩

theorem return_notMem_write {room : Nat} {v : Value} (hv : Storable room v) (l : Layout) (depth : Nat) :
    '\r' ∉ write l depth v := by
  induction hv generalizing depth with
  | null =>
    rw [write]
    decide
  | bool b =>
    rw [write]
    cases b <;> decide
  | @int _ n hn =>
    rw [write, toList_toString, List.mem_append, not_or]
    refine ⟨by split <;> decide, fun hmem => ?_⟩
    exact absurd (isDigit_of_mem_toDigits hmem) (by decide)
  | str s =>
    rw [write]
    exact return_notMem_writeString s
  | @list _ xs _ ih =>
    cases xs with
    | nil =>
      rw [write]
      decide
    | cons x xs =>
      have hitems := return_notMem_writeItems (l := l) fun y hy => ih y hy (depth + 1)
      rw [write]
      simp [return_notMem_lead, hitems]
  | map ms _ _ ih =>
    cases ms with
    | nil =>
      rw [List.map_nil, write]
      decide
    | cons m ms =>
      have hmembers := return_notMem_writeMembers (l := l) fun y hy => ih y hy (depth + 1)
      rw [List.map_cons, write, ← List.map_cons]
      simp only [List.mem_append, List.mem_cons, List.not_mem_nil, hmembers, return_notMem_lead]
      decide

end CommentStyle.Json
