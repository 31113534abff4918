import CommentStyle.Proofs.Dump.RoundTrip
import CommentStyle.Proofs.Yaml.BareWords
import CommentStyle.Proofs.Yaml.BlockGrammar
import CommentStyle.Proofs.Yaml.WrittenText

/-!
# Comments come back from their YAML dump

A dump written as YAML is read back to the comments it was written from, but for next-line characters that
stand in single quotes: they are folded like any other end of a line. The argument follows the text from its
characters to the comments:

* **`reads_records`** — the characters of the records give the tokens `itemTokens`, one line after the other.
* **`spells_items`** — these tokens stand for the data of the records, with entries in the order of their
  names.
* **`comment_sortedRecord`** — such data give the comment, as the order of entries plays no part.
* **`ofYaml_toYaml_restored`** — so the dump of writable comments is always read, and all but the texts are
  the same; `restored` says which texts come back.
-/

namespace CommentStyle.Dump

open Yaml (Token Stance Spells SpellsItems SpellsEntries)
open Yaml.Lexer (Reads Skips IsWord BeginsToken)

/-! ## Numbers, kinds and texts -/

theorem isBare_ordinalYaml (o : Ordinal) : Yaml.IsBare (ordinalYaml o) := by
  cases o with
  | number n => exact Yaml.isBare_toString n
  | flag b =>
    have hletters : (ordinalYaml (.flag b)).all Char.isAlphanum = true := by cases b <;> decide
    exact ⟨[], ordinalYaml (.flag b), rfl, .inl rfl, by cases b <;> decide, List.all_eq_true.mp hletters⟩

theorem isBare_word (k : Comment.Kind) : Yaml.IsBare k.word.toList := by
  have hletters : k.word.toList.all Char.isAlphanum = true := by cases k <;> decide
  exact ⟨[], k.word.toList, rfl, .inl rfl, by cases k <;> decide, List.all_eq_true.mp hletters⟩

theorem spells_ordinal {h : Nat} {o : Ordinal} (ho : o.isWritable = true) :
    Spells h o.toValue [.scalar (ordinalYaml o) true] := by
  refine .leaf fun place => ?_
  cases o with
  | number n =>
    show Yaml.Scalar.content place (Yaml.Tag.ofPlain (toString n).toList) (toString n).toList = .ok (.int n)
    rw [Yaml.ofPlain_toString, Yaml.Scalar.content, Yaml.int_toString ho]
    rfl
  | flag b => cases b <;> rfl

theorem spells_word {h : Nat} (k : Comment.Kind) : Spells h (.str k.word) [.scalar k.word.toList true] := by
  have htag : Yaml.Tag.ofPlain k.word.toList = .str := by cases k <;> decide +kernel
  refine .leaf fun place => ?_
  rw [if_pos rfl, htag, Yaml.Scalar.content, String.ofList_toList]

/-- A text is a text in every style: a plain one has the form of nothing else. -/
theorem spells_text {h : Nat} (t : List Char) :
    Spells h (.str (String.ofList (Yaml.recovered t)))
      [.scalar (Yaml.recovered t) (Yaml.Writer.isPlain t)] := by
  refine .leaf fun place => ?_
  by_cases hplain : Yaml.Writer.isPlain t = true
  · have htext : Yaml.recovered t = t := by simp [Yaml.recovered, hplain]
    have htag : Yaml.Tag.ofPlain t = .str := by
      simp only [Yaml.Writer.isPlain, Bool.and_eq_true, beq_iff_eq] at hplain
      exact hplain.1.1.1.1.1.2
    rw [if_pos hplain, htext, htag]
    rfl
  · rw [if_neg hplain]
    rfl

/-! ## The tokens of a dump -/

def entryTokens (w : String) (ts : List Token) : List Token := .key :: .scalar w.toList true :: .value :: ts

def positionTokens (p : Position) : List Token :=
  .blockMapping :: (entryTokens "column" [.scalar (ordinalYaml p.column) true]
    ++ (entryTokens "line" [.scalar (ordinalYaml p.line) true] ++ [.blockEnd]))

def placeTokens (p : Position) : List Token :=
  .blockMapping :: (entryTokens "start" (positionTokens p) ++ [.blockEnd])

def textTokens (t : List Char) : List Token := [.scalar (Yaml.recovered t) (Yaml.Writer.isPlain t)]

def recordTokens (c : Comment) : List Token :=
  .blockMapping :: (entryTokens "loc" (placeTokens c.location)
    ++ (entryTokens "type" [.scalar c.kind.word.toList true]
    ++ (entryTokens "value" (textTokens c.text.toList) ++ [.blockEnd])))

def itemTokens : List Comment → List Token
  | [] => [.blockEnd]
  | c :: cs => .blockEntry :: (recordTokens c ++ itemTokens cs)

/-! ## From the characters to the tokens -/

/-- The lines of a place, and what stands behind the indentation of the next line. -/
def placeLines (p : Position) (x : List Char) : List Char :=
  "loc".toList ++ ':' :: '\n' :: (List.replicate 4 ' '
    ++ ("start".toList ++ ':' :: '\n' :: (List.replicate 6 ' '
    ++ ("column".toList ++ ':' :: ' ' :: (ordinalYaml p.column ++ '\n' :: (List.replicate 6 ' '
    ++ ("line".toList ++ ':' :: ' ' :: (ordinalYaml p.line ++ '\n' :: (List.replicate 2 ' ' ++ x)))))))))

/-- The lines of a kind and a text, and what follows them. -/
def kindTextLines (k : Comment.Kind) (t x : List Char) : List Char :=
  "type".toList ++ ':' :: ' ' :: (k.word.toList ++ '\n' :: (List.replicate 2 ' '
    ++ ("value".toList ++ ':' :: ' ' :: (Yaml.Writer.text 9 t ++ '\n' :: x))))

/-- A record with its lines and their indentation told apart. -/
theorem recordYaml_append (c : Comment) (x : List Char) :
    recordYaml c ++ x = '-' :: ' ' :: placeLines c.location (kindTextLines c.kind c.text.toList x) := by
  have hcolumn : "- loc:\n    start:\n      column: ".toList = '-' :: ' ' :: ("loc".toList ++ ':' :: '\n' ::
      (List.replicate 4 ' ' ++ ("start".toList ++ ':' :: '\n' :: (List.replicate 6 ' '
        ++ ("column".toList ++ [':', ' ']))))) := by decide +kernel
  have hline : "\n      line: ".toList = '\n' :: (List.replicate 6 ' ' ++ ("line".toList ++ [':', ' '])) := by
    decide +kernel
  have htype : "\n  type: ".toList = '\n' :: (List.replicate 2 ' ' ++ ("type".toList ++ [':', ' '])) := by
    decide +kernel
  have hvalue : "\n  value: ".toList = '\n' :: (List.replicate 2 ' ' ++ ("value".toList ++ [':', ' '])) := by
    decide +kernel
  unfold recordYaml placeLines kindTextLines
  rw [hcolumn, hline, htype, hvalue]
  simp only [List.append_assoc, List.cons_append, List.nil_append]

section Lines

variable {x : List Char} {ts : List Token}

/-- The lines of a place give its tokens; the next line ends two blocks. -/
theorem reads_place {p : Position} (hx : BeginsToken x)
    (h : Reads ⟨x, 2, [6, 4, 2, 0], true⟩ (.blockEnd :: .blockEnd :: ts)) :
    Reads ⟨' ' :: placeLines p x, 1, [0], true⟩
      (.blockMapping :: (entryTokens "loc" (placeTokens p) ++ ts)) := by
  have hloc : IsWord "loc".toList := by decide
  have hstart : IsWord "start".toList := by decide
  have hcolumn : IsWord "column".toList := by decide
  have hline : IsWord "line".toList := by decide
  -- each of the first three words stands deeper than the one before, and begins a mapping
  refine Yaml.Lexer.reads_key hloc rfl (.blanks 1 hloc.beginsToken 1 [0] true) (by decide) ?_
  refine Yaml.Lexer.reads_key hstart rfl (.line 4 hstart.beginsToken _ _ false) (by decide) ?_
  refine Yaml.reads_bare hcolumn (isBare_ordinalYaml _) (.line 6 hcolumn.beginsToken _ _ false) (by decide)
    (by decide) hline.beginsToken ?_
  refine Yaml.reads_bare hline (isBare_ordinalYaml _) (.blanks 0 hline.beginsToken 6 _ true) (by decide)
    (by decide) hx ?_
  exact h

theorem beginsToken_kindTextLines (k : Comment.Kind) (t x : List Char) : BeginsToken (kindTextLines k t x) :=
  IsWord.beginsToken (show IsWord "type".toList by decide)

/-- The lines of a kind and a text. Two blocks end before them. -/
theorem reads_kind_text {k : Comment.Kind} {t : List Char} (hx : BeginsToken x)
    (hdivider : ∀ d : Yaml.Cursor, d.rest = x → d.atDivider = false)
    (h : ∀ p, Skips p ⟨x, 0, [2, 0], true⟩ → Reads p ts) :
    Reads ⟨kindTextLines k t x, 2, [6, 4, 2, 0], true⟩
      (.blockEnd :: .blockEnd :: (entryTokens "type" [.scalar k.word.toList true]
        ++ (entryTokens "value" (textTokens t) ++ ts))) := by
  have htype : IsWord "type".toList := by decide
  have hvalue : IsWord "value".toList := by decide
  refine Yaml.reads_bare htype (isBare_word k) (.blanks 0 htype.beginsToken 2 _ true) (by decide) (by decide)
    hvalue.beginsToken ?_
  refine Yaml.Lexer.reads_key hvalue rfl (.blanks 0 hvalue.beginsToken 2 _ true) (by decide) ?_
  exact Yaml.reads_text (.blanks 1 (Yaml.beginsToken_text 9 t _) _ _ false) (by decide) (by decide)
    (by decide) (by decide) hx hdivider h

/-- A record, whatever the blocks that end before its dash. -/
theorem reads_record {p : Stance} {blocks : List Nat} {c : Comment}
    (hskip : Skips p ⟨recordYaml c ++ x, 0, blocks, true⟩)
    (hblocks : Yaml.Lexer.opened 0 (Yaml.Lexer.upTo (0 : Nat) blocks) = [0]) (hx : BeginsToken x)
    (hdivider : ∀ d : Yaml.Cursor, d.rest = x → d.atDivider = false)
    (h : ∀ p, Skips p ⟨x, 0, [2, 0], true⟩ → Reads p (.blockEnd :: ts)) :
    Reads p (Yaml.Lexer.closing (0 : Nat) blocks
      ++ Yaml.Lexer.opening .blockSequence 0 (Yaml.Lexer.upTo (0 : Nat) blocks) ++ [.blockEntry]
      ++ (recordTokens c ++ ts)) := by
  rw [recordYaml_append] at hskip
  refine Yaml.Lexer.reads_entry hskip ?_
  rw [hblocks]
  exact reads_place (beginsToken_kindTextLines _ _ _) (reads_kind_text hx hdivider h)

end Lines

/-- Another record, or the end, follows a record. -/
theorem flatMap_recordYaml_cases (cs : List Comment) :
    cs.flatMap recordYaml = [] ∨ ∃ y, cs.flatMap recordYaml = '-' :: ' ' :: y := by
  cases cs with
  | nil => exact .inl rfl
  | cons c cs => exact .inr ⟨_, recordYaml_append c _⟩

theorem beginsToken_flatMap_recordYaml (cs : List Comment) : BeginsToken (cs.flatMap recordYaml) := by
  obtain h | ⟨y, h⟩ := flatMap_recordYaml_cases cs
  · rw [h]
    exact ⟨fun _ hch => (by cases hch), by simp⟩
  · rw [h]
    exact ⟨.cons (by decide) _, by simp⟩

theorem atDivider_flatMap_recordYaml (cs : List Comment) (d : Yaml.Cursor)
    (hd : d.rest = cs.flatMap recordYaml) : d.atDivider = false := by
  obtain h | ⟨y, h⟩ := flatMap_recordYaml_cases cs
  · refine Yaml.Cursor.atDivider_eq_false fun ch hch => ?_
    rw [hd, h] at hch
    cases hch
  · rw [h] at hd
    rw [Yaml.Cursor.atDivider, Yaml.Cursor.divides_of_dash hd, Yaml.Cursor.divides_of_dash hd]
    rfl

/-- The records behind a first one, whose block is still to end. -/
theorem reads_items (cs : List Comment) {p : Stance}
    (hskip : Skips p ⟨cs.flatMap recordYaml, 0, [2, 0], true⟩) :
    Reads p (.blockEnd :: (itemTokens cs ++ [.streamEnd])) := by
  induction cs generalizing p with
  | nil => exact Yaml.Lexer.reads_end hskip
  | cons c cs ih =>
    -- the dash ends the mapping of the record before, and its sequence goes on
    rw [itemTokens, List.cons_append, List.append_assoc]
    exact reads_record hskip rfl (beginsToken_flatMap_recordYaml cs) (atDivider_flatMap_recordYaml cs)
      fun _ => ih

/-- **The tokens of a dump.** -/
theorem reads_records (c : Comment) (cs : List Comment) :
    Reads ⟨(c :: cs).flatMap recordYaml, 0, [], true⟩
      (.blockSequence :: (itemTokens (c :: cs) ++ [.streamEnd])) := by
  -- no block is open yet, so that the first dash begins the sequence
  have hskip := Skips.blanks 0 (beginsToken_flatMap_recordYaml (c :: cs)) 0 [] true
  rw [itemTokens, List.cons_append, List.append_assoc]
  exact reads_record hskip rfl (beginsToken_flatMap_recordYaml cs) (atDivider_flatMap_recordYaml cs)
    fun _ => reads_items cs

/-! ## From the tokens to the data -/

/-- A place with its entries in the order of their names. -/
def sortedPlace (p : Position) : Value :=
  .map [(.str "start", .map [(.str "column", p.column.toValue), (.str "line", p.line.toValue)])]

/-- A record with its entries in the order of their names. -/
def sortedRecord (c : Comment) : Value :=
  .map [(.str "loc", sortedPlace c.location), (.str "type", .str c.kind.word), (.str "value", .str c.text)]

/-- The comment with the text that comes back. -/
def restored (c : Comment) : Comment := { c with text := String.ofList (Yaml.recovered c.text.toList) }

theorem spellsEntries_word {h : Nat} {w : String} {v : Value} {kvs : List (Value × Value)}
    {ts rest : List Token} (hw : Yaml.Tag.ofPlain w.toList = .str) (value : Spells h v ts)
    (entries : SpellsEntries h kvs rest) : SpellsEntries h ((.str w, v) :: kvs) (entryTokens w ts ++ rest) := by
  have hcons := SpellsEntries.cons hw value entries
  rw [String.ofList_toList] at hcons
  exact hcons

theorem spells_place {h : Nat} {p : Position} (hp : p.isWritable = true) :
    Spells (h + 2) (sortedPlace p) (placeTokens p) := by
  obtain ⟨hline, hcolumn⟩ := Bool.and_eq_true_iff.mp hp
  have hstart : Spells (h + 1) (.map [(.str "column", p.column.toValue), (.str "line", p.line.toValue)])
      (positionTokens p) :=
    .map (spellsEntries_word (by decide +kernel) (spells_ordinal hcolumn)
      (spellsEntries_word (by decide +kernel) (spells_ordinal hline) .nil)) (by simp [Value.sameKey])
  exact .map (spellsEntries_word (by decide +kernel) hstart .nil) (by simp)

theorem spells_record {h : Nat} {c : Comment} (hc : c.location.isWritable = true) :
    Spells (h + 3) (sortedRecord (restored c)) (recordTokens c) :=
  .map (spellsEntries_word (by decide +kernel) (spells_place hc)
    (spellsEntries_word (by decide +kernel) (spells_word c.kind)
    (spellsEntries_word (by decide +kernel) (spells_text c.text.toList) .nil))) (by simp [Value.sameKey])

theorem spells_items {h : Nat} {cs : List Comment} (hcs : ∀ c ∈ cs, c.location.isWritable = true) :
    SpellsItems (h + 3) ((cs.map restored).map sortedRecord) (itemTokens cs) := by
  induction cs with
  | nil => exact .nil
  | cons c cs ih =>
    obtain ⟨hc, hcs⟩ := List.forall_mem_cons.mp hcs
    exact .cons (spells_record hc) (ih hcs)

/-! ## From the data to the comments -/

theorem comment_sortedRecord (index : Int) (c : Comment) : comment index (sortedRecord c) = .ok c := by
  unfold comment sortedRecord sortedPlace
  simp [Value.entries?, Value.unfold, textOf, kindOf, placeOf, Value.field?, Value.sameKey, bind, Except.bind,
    pure, Except.pure]

/-! ## The whole dump -/

theorem all_recordYaml (c : Comment) : (recordYaml c).all Yaml.isAllowed = true := by
  have hbare : ∀ t, Yaml.IsBare t → t.all Yaml.isAllowed = true := fun t ht =>
    List.all_eq_true.mpr fun ch hch => Yaml.isAllowed_of_toNat (ht.toNat ch hch).1 (ht.toNat ch hch).2
  have hcolumn : ("- loc:\n    start:\n      column: ".toList).all Yaml.isAllowed = true := by decide +kernel
  have hline : ("\n      line: ".toList).all Yaml.isAllowed = true := by decide +kernel
  have htype : ("\n  type: ".toList).all Yaml.isAllowed = true := by decide +kernel
  have hvalue : ("\n  value: ".toList).all Yaml.isAllowed = true := by decide +kernel
  have hend : ['\n'].all Yaml.isAllowed = true := by decide
  unfold recordYaml
  simp only [List.all_append, hcolumn, hline, htype, hvalue, hend, Yaml.all_text,
    hbare _ (isBare_ordinalYaml _), hbare _ (isBare_word _), Bool.and_self]

theorem length_recordTokens (c : Comment) : (recordTokens c).length = 28 := rfl

theorem length_itemTokens (cs : List Comment) : (itemTokens cs).length = 29 * cs.length + 1 := by
  induction cs with
  | nil => rfl
  | cons c cs ih =>
    rw [itemTokens, List.length_cons, List.length_append, length_recordTokens, ih, List.length_cons]
    omega

theorem le_length_recordYaml (c : Comment) : 32 ≤ (recordYaml c).length := by
  have hlength : "- loc:\n    start:\n      column: ".toList.length = 32 := by decide +kernel
  unfold recordYaml
  simp only [List.length_append, hlength]
  omega

theorem length_flatMap_recordYaml (cs : List Comment) : 32 * cs.length ≤ (cs.flatMap recordYaml).length := by
  induction cs with
  | nil => exact Nat.zero_le _
  | cons c cs ih =>
    have hc := le_length_recordYaml c
    rw [List.flatMap_cons, List.length_append, List.length_cons]
    omega

/-- A record makes nodes for its mappings and its scalars. -/
theorem countP_recordTokens (c : Comment) : (recordTokens c).countP Token.makesNode = 13 := rfl

/-- The records of writable comments are read as their data. -/
theorem read_records {cs : List Comment} (hne : cs ≠ []) (hcs : ∀ c ∈ cs, c.location.isWritable = true) :
    Yaml.read (String.ofList (cs.flatMap recordYaml)) = .ok (.list ((cs.map restored).map sortedRecord)) := by
  obtain ⟨c, cs, rfl⟩ := List.exists_cons_of_ne_nil hne
  have hallowed : ((c :: cs).flatMap recordYaml).all Yaml.isAllowed = true := by
    rw [List.all_flatMap, List.all_eq_true]
    exact fun c _ => all_recordYaml c
  have hmark : ((c :: cs).flatMap recordYaml).head? ≠ some '\uFEFF' := by
    rw [List.flatMap_cons, recordYaml_append, List.head?_cons]
    decide
  have hspells : Spells 4 (.list (((c :: cs).map restored).map sortedRecord))
      (.blockSequence :: itemTokens (c :: cs)) := .seq (spells_items hcs)
  rw [Yaml.read, String.toList_ofList]
  refine Yaml.readChars_of_reads hallowed hmark hspells (reads_records c cs) ?_ (by decide) ?_
  · -- a record has more characters than tokens
    have hchars := length_flatMap_recordYaml (c :: cs)
    rw [List.length_cons, length_itemTokens]
    omega
  · rw [List.countP_cons, itemTokens, List.countP_cons, List.countP_append, countP_recordTokens]
    omega

/-- **Writable comments are read back**, all but some texts unchanged. -/
theorem ofYaml_toYaml_restored {cs : List Comment} (hcs : ∀ c ∈ cs, c.location.isWritable = true) :
    ∃ text, toYaml cs = .ok text ∧ ofYaml text = .ok (cs.map restored) := by
  refine ⟨_, if_pos (List.all_eq_true.mpr hcs), ?_⟩
  by_cases hne : cs = []
  · subst hne
    decide +kernel
  · rw [if_neg (by simpa using hne), ofYaml, read_records hne hcs]
    show (commentsFrom 0 _).mapError ReadFault.ofDump = _
    rw [commentsFrom_map comment_sortedRecord]
    rfl

theorem isWritable_of_toYaml {cs : List Comment} {text : String} (h : toYaml cs = .ok text) :
    ∀ c ∈ cs, c.location.isWritable = true := by
  unfold toYaml writable at h
  split at h
  · next hall => exact List.all_eq_true.mp hall
  · cases h

theorem restored_eq_self_iff (c : Comment) :
    restored c = c ↔ ¬('\u0085' ∈ c.text.toList ∧ Yaml.Writer.isSingleQuotable c.text.toList = true) := by
  rw [← Yaml.recovered_eq_self_iff]
  constructor
  · intro h
    have htext := congrArg (fun c => c.text.toList) h
    simpa [restored] using htext
  · intro h
    rw [restored, h, String.ofList_toList]

theorem map_restored_eq_self_iff (cs : List Comment) : cs.map restored = cs ↔ ∀ c ∈ cs, restored c = c := by
  have h := List.map_inj_left (l := cs) (f := restored) (g := id)
  rwa [List.map_id] at h

/-- **The round trip.** Comments are read back from their YAML dump exactly if their numbers can be written
and no text with a next-line character is written in single quotes. -/
theorem ofYaml_toYaml_iff (cs : List Comment) :
    (∃ text, toYaml cs = .ok text ∧ ofYaml text = .ok cs) ↔
      ∀ c ∈ cs, c.location.isWritable = true ∧
        ¬('\u0085' ∈ c.text.toList ∧ Yaml.Writer.isSingleQuotable c.text.toList = true) := by
  simp only [← restored_eq_self_iff]
  constructor
  · rintro ⟨text, hwritten, hread⟩
    have hcs := isWritable_of_toYaml hwritten
    obtain ⟨text', hwritten', hread'⟩ := ofYaml_toYaml_restored hcs
    obtain rfl : text = text' := Except.ok.inj (hwritten.symm.trans hwritten')
    have hsame : cs.map restored = cs := Except.ok.inj (hread'.symm.trans hread)
    exact fun c hc => ⟨hcs c hc, (map_restored_eq_self_iff cs).mp hsame c hc⟩
  · intro h
    obtain ⟨text, hwritten, hread⟩ := ofYaml_toYaml_restored fun c hc => (h c hc).1
    rw [(map_restored_eq_self_iff cs).mpr fun c hc => (h c hc).2] at hread
    exact ⟨text, hwritten, hread⟩

/-- A next-line character between two letters comes back as a blank. -/
theorem nextLine_read_as_blank :
    let c : Comment := ⟨"a\u0085b", .unknown, .line⟩
    let text := "- loc:\n    start:\n      column: 0\n      line: 0\n  type: Line\n  value: 'a\u0085    b'\n"
    toYaml [c] = .ok text ∧ ofYaml text = .ok [{ c with text := "a b" }] ∧ { c with text := "a b" } ≠ c := by
  decide +kernel

end CommentStyle.Dump
