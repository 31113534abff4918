import CommentStyle.Proofs.Yaml.FlowGrammar
import CommentStyle.Proofs.Yaml.JsonTokens
import CommentStyle.Proofs.Yaml.LexicalFaults

/-!
# Texts of JSON read as YAML

A text of JSON is a text of YAML if it has none of the obstacles, is not nested too deep, and has only
characters that YAML allows. Then it says in YAML what its strings and words mean there; otherwise it is
refused.

* **`yamlSense`** — how YAML understands the leaves of a source. **`Source.depth`** — how deep it is nested.
* **`Document.fitsYaml`** — there is no obstacle.
* **`readChars_document`** — the text is read if and only if it fits, and as its source says in that sense.
-/

namespace CommentStyle.Json

open Yaml (Token Flow FlowItems FlowEntries Broken BrokenItems BrokenEntries comma)

/-- How YAML understands strings and words. -/
def yamlSense : Sense where
  text := Yaml.foldedText []
  bare := Yaml.wordValue

mutual

/-- How many arrays and objects are inside each other. -/
def Source.depth : Source → Nat
  | .text _ | .bare _ => 0
  | .emptyList _ | .emptyMap _ => 1
  | .list is => is.depth + 1
  | .map ms => ms.depth + 1

def Items.depth : Items → Nat
  | .last _ item _ => item.depth
  | .cons _ item _ more => max item.depth more.depth

def Members.depth : Members → Nat
  | .last _ value _ => value.depth
  | .cons _ value _ more => max value.depth more.depth

end

/-- Nothing keeps the text from being YAML. -/
def Document.fitsYaml (d : Document) : Bool :=
  d.chars.all Yaml.isAllowed && (d.parts.all fun p => p.isClean && p.isSimple) &&
    decide (d.source.depth ≤ Yaml.nestingLimit)

/-! ## Leaves that mean the same -/

/-- A character that both take for the same: no line break of YAML's own, and no half of a character. -/
def Piece.isCommon : Piece → Bool
  | .plain c _ => !Yaml.isBreak c
  | .short .. => true
  | .hex _ _ _ _ u _ => !isHighSurrogate u

def Part.isCommon : Part → Bool
  | gap _ => true
  | text ps => ps.all Piece.isCommon
  | word w => Yaml.isCommon w
  | name ps _ => ps.all Piece.isCommon

theorem foldRun_of_forall {run : List Char} (hrun : ∀ c ∈ run, Yaml.isBreak c = false) :
    Yaml.foldRun run = run := by
  have hnone : run.filter Yaml.isBreak = [] := List.filter_eq_nil_iff.mpr fun c hc => by simp [hrun c hc]
  rw [Yaml.foldRun, hnone]

theorem isBreak_unitChar {p : Piece} (hp : p.isCommon = true) (hsoft : Yaml.isSoft p = true) :
    Yaml.isBreak (unitChar p.unit) = false := by
  cases p with
  | plain c fits =>
    rw [Piece.unit, unitChar_toNat]
    simpa [Piece.isCommon] using hp
  | short => cases hsoft
  | hex => cases hsoft

/-- Nothing folds without a line break. -/
theorem foldedText_of_isCommon {ps : List Piece} (hps : ps.all Piece.isCommon = true) {run : List Char}
    (hrun : ∀ c ∈ run, Yaml.isBreak c = false) :
    Yaml.foldedText run ps = run ++ ps.map fun p => unitChar p.unit := by
  induction ps generalizing run with
  | nil => rw [Yaml.foldedText, foldRun_of_forall hrun, List.map_nil, List.append_nil]
  | cons p ps ih =>
    rw [List.all_cons, Bool.and_eq_true] at hps
    rw [Yaml.foldedText]
    split
    · next hsoft =>
      rw [ih hps.2]
      · simp
      · intro c hc
        rcases List.mem_append.mp hc with hc | hc
        · exact hrun c hc
        · rw [List.mem_singleton.mp hc]
          exact isBreak_unitChar hps.1 hsoft
    · rw [foldRun_of_forall hrun, ih hps.2 (by simp)]
      simp

/-- Without a high surrogate each unit is a character. -/
theorem charsOfUnits_of_forall {us : List Nat} (hus : ∀ u ∈ us, isHighSurrogate u = false) :
    charsOfUnits us = us.map unitChar := by
  fun_induction charsOfUnits us with
  | case1 => rfl
  | case2 u => rfl
  | case3 u v rest hpair ih => simp [hus u List.mem_cons_self] at hpair
  | case4 u v rest hpair ih =>
    rw [ih fun w hw => hus w (List.mem_cons_of_mem u hw)]
    rfl

theorem isHighSurrogate_unit {p : Piece} (hp : p.isCommon = true) : isHighSurrogate p.unit = false := by
  cases p with
  | plain c fits => exact isHighSurrogate_toNat c
  | short letter stands fits => exact isHighSurrogate_toNat stands
  | hex a b c d u fits =>
    rw [Piece.isCommon, Bool.not_eq_true'] at hp
    exact hp

theorem text_yamlSense {ps : List Piece} (hps : ps.all Piece.isCommon = true) :
    yamlSense.text ps = sense.text ps := by
  have hunits : ∀ u ∈ ps.map Piece.unit, isHighSurrogate u = false := by
    intro u hu
    obtain ⟨p, hp, rfl⟩ := List.mem_map.mp hu
    exact isHighSurrogate_unit (List.all_eq_true.mp hps p hp)
  calc yamlSense.text ps = ps.map (unitChar ∘ Piece.unit) := foldedText_of_isCommon hps (by simp)
    _ = (ps.map Piece.unit).map unitChar := List.map_map.symm
    _ = sense.text ps := (charsOfUnits_of_forall hunits).symm

mutual

/-- If all leaves mean the same, so does the source. -/
theorem Source.value_yamlSense (src : Source) (hcommon : src.parts.all Part.isCommon = true) :
    src.value yamlSense = src.value sense := by
  match src with
  | .text ps =>
    simp only [Source.parts, List.all_cons, List.all_nil, Bool.and_true] at hcommon
    rw [Source.value, Source.value, text_yamlSense hcommon]
  | .bare w =>
    simp only [Source.parts, List.all_cons, List.all_nil, Bool.and_true] at hcommon
    exact if_pos hcommon
  | .emptyList blanks => rfl
  | .list is => rw [Source.value, Source.value, is.values_yamlSense (by rwa [Source.parts] at hcommon)]
  | .emptyMap blanks => rfl
  | .map ms => rw [Source.value, Source.value, ms.entries_yamlSense (by rwa [Source.parts] at hcommon)]

theorem Items.values_yamlSense (is : Items) (hcommon : is.parts.all Part.isCommon = true) :
    is.values yamlSense = is.values sense := by
  match is with
  | .last before item after =>
    simp only [Items.parts, List.all_cons, List.all_append, Bool.and_eq_true] at hcommon
    rw [Items.values, Items.values, item.value_yamlSense hcommon.2.1]
  | .cons before item after more =>
    simp only [Items.parts, List.all_cons, List.all_append, Bool.and_eq_true] at hcommon
    rw [Items.values, Items.values, item.value_yamlSense hcommon.2.1, more.values_yamlSense hcommon.2.2.2]

theorem Members.entries_yamlSense (ms : Members) (hcommon : ms.parts.all Part.isCommon = true) :
    ms.entries yamlSense = ms.entries sense := by
  match ms with
  | .last name value after =>
    simp only [Members.parts, Name.parts, List.all_cons, List.all_append, Bool.and_eq_true] at hcommon
    rw [Members.entries, Members.entries, text_yamlSense hcommon.1.2.1, value.value_yamlSense hcommon.2.1]
  | .cons name value after more =>
    simp only [Members.parts, Name.parts, List.all_cons, List.all_append, Bool.and_eq_true] at hcommon
    rw [Members.entries, Members.entries, text_yamlSense hcommon.1.2.1, value.value_yamlSense hcommon.2.1,
      more.entries_yamlSense hcommon.2.2.2]

end

/-! ## The grammar of the tokens -/

/-- A name that is simple has its mark, and one that is not lacks it. -/
theorem Name.tokens_of_isSimple {n : Name} {simple : Bool} (h : (Part.name n.pieces n.behind).isSimple = simple)
    (ts : List Token) :
    n.tokens ++ ts =
      (if simple then [.key] else []) ++ .scalar (yamlSense.text n.pieces) false :: .value :: ts := by
  rw [Name.tokens, h, List.append_assoc]
  rfl

mutual

/-- With simple names the tokens are a flow collection that says what the source says. -/
theorem Source.flow (src : Source) (hsimple : src.parts.all Part.isSimple = true) {h : Nat}
    (hh : src.depth ≤ h) : Flow h (src.value yamlSense) src.tokens := by
  match src with
  | .text ps => exact .leaf fun _ => rfl
  | .bare w => exact .leaf (Yaml.content_word w)
  | .emptyList blanks =>
    obtain ⟨h, rfl⟩ := Nat.exists_eq_add_one_of_ne_zero (Nat.ne_of_gt hh)
    exact .seq .nil
  | .list is =>
    rw [Source.parts] at hsimple
    obtain ⟨h, rfl⟩ := Nat.exists_eq_add_one_of_ne_zero (Nat.ne_of_gt (Nat.zero_lt_of_lt hh))
    exact .seq (is.flow hsimple true (Nat.le_of_succ_le_succ hh))
  | .emptyMap blanks =>
    obtain ⟨h, rfl⟩ := Nat.exists_eq_add_one_of_ne_zero (Nat.ne_of_gt hh)
    exact .map .nil
  | .map ms =>
    rw [Source.parts] at hsimple
    obtain ⟨h, rfl⟩ := Nat.exists_eq_add_one_of_ne_zero (Nat.ne_of_gt (Nat.zero_lt_of_lt hh))
    exact .map (ms.flow hsimple true (Nat.le_of_succ_le_succ hh))

theorem Items.flow (is : Items) (hsimple : is.parts.all Part.isSimple = true) {h : Nat} (first : Bool)
    (hh : is.depth ≤ h) : FlowItems first h (is.values yamlSense) (comma first ++ is.tokens) := by
  match is with
  | .last before item after =>
    simp only [Items.parts, List.all_cons, List.all_append, Bool.and_eq_true] at hsimple
    exact .cons (item.flow hsimple.2.1 hh) .nil
  | .cons before item after more =>
    simp only [Items.parts, List.all_cons, List.all_append, Bool.and_eq_true] at hsimple
    obtain ⟨hitem, hmore⟩ := Nat.max_le.mp hh
    exact .cons (item.flow hsimple.2.1 hitem) (more.flow hsimple.2.2.2 false hmore)

theorem Members.flow (ms : Members) (hsimple : ms.parts.all Part.isSimple = true) {h : Nat} (first : Bool)
    (hh : ms.depth ≤ h) : FlowEntries first h (ms.entries yamlSense) (comma first ++ ms.tokens) := by
  match ms with
  | .last name value after =>
    simp only [Members.parts, Name.parts, List.all_cons, List.all_append, List.all_nil,
      Bool.and_eq_true] at hsimple
    rw [Members.tokens, Name.tokens_of_isSimple hsimple.1.2.1]
    exact .cons (value.flow hsimple.2.1 hh) .nil
  | .cons name value after more =>
    simp only [Members.parts, Name.parts, List.all_cons, List.all_append, List.all_nil,
      Bool.and_eq_true] at hsimple
    obtain ⟨hvalue, hmore⟩ := Nat.max_le.mp hh
    rw [Members.tokens, Name.tokens_of_isSimple hsimple.1.2.1]
    exact .cons (value.flow hsimple.2.1 hvalue) (more.flow hsimple.2.2.2 false hmore)

end

mutual

/-- Every level begins with a token of its own. -/
theorem Source.depth_le (src : Source) : src.depth ≤ src.tokens.countP Token.makesNode := by
  match src with
  | .text ps => exact Nat.zero_le _
  | .bare w => exact Nat.zero_le _
  | .emptyList blanks => exact le_rfl
  | .list is =>
    rw [Source.tokens, List.countP_cons_of_pos rfl]
    exact Nat.succ_le_succ is.depth_le
  | .emptyMap blanks => exact le_rfl
  | .map ms =>
    rw [Source.tokens, List.countP_cons_of_pos rfl]
    exact Nat.succ_le_succ ms.depth_le

theorem Items.depth_le (is : Items) : is.depth ≤ is.tokens.countP Token.makesNode := by
  match is with
  | .last before item after =>
    have hitem := item.depth_le
    rw [Items.depth, Items.tokens, List.countP_append]
    omega
  | .cons before item after more =>
    have hitem := item.depth_le
    have hmore := more.depth_le
    rw [Items.depth, Items.tokens, List.countP_append, List.countP_cons_of_neg (by decide)]
    omega

theorem Members.depth_le (ms : Members) : ms.depth ≤ ms.tokens.countP Token.makesNode := by
  match ms with
  | .last name value after =>
    have hvalue := value.depth_le
    rw [Members.depth, Members.tokens, List.countP_append, List.countP_append]
    omega
  | .cons name value after more =>
    have hvalue := value.depth_le
    have hmore := more.depth_le
    rw [Members.depth, Members.tokens, List.countP_append, List.countP_append,
      List.countP_cons_of_neg (by decide)]
    omega

end

theorem Name.all_isSimple_parts (n : Name) :
    n.parts.all Part.isSimple = (Part.name n.pieces n.behind).isSimple := by
  rw [Name.parts, List.all_cons, List.all_cons, List.all_cons, List.all_nil, Bool.and_true]
  exact Bool.and_true _

variable {room : Nat}

theorem broken_of_name {n : Name} (hname : (Part.name n.pieces n.behind).isSimple = false) (first : Bool)
    (rest : List Token) :
    ∃ ts more, comma first ++ (n.tokens ++ rest) = ts ++ more ∧ BrokenEntries first room ts := by
  refine ⟨comma first ++ [.scalar (yamlSense.text n.pieces) false, .value], rest, ?_, .unmarked⟩
  rw [Name.tokens_of_isSimple hname]
  exact (List.append_assoc (comma first) [.scalar (yamlSense.text n.pieces) false, .value] rest).symm

theorem broken_of_value {n : Name} (hname : (Part.name n.pieces n.behind).isSimple = true) (first : Bool)
    {ts more : List Token} (hbroken : Broken room ts) (rest : List Token) :
    ∃ ts' more', comma first ++ (n.tokens ++ ((ts ++ more) ++ rest)) = ts' ++ more' ∧
      BrokenEntries first room ts' := by
  refine ⟨comma first ++ .key :: .scalar (yamlSense.text n.pieces) false :: .value :: ts, more ++ rest, ?_,
    .here hbroken⟩
  rw [Name.tokens_of_isSimple hname, List.append_assoc ts]
  exact (List.append_assoc (comma first) (.key :: .scalar (yamlSense.text n.pieces) false :: .value :: ts) _).symm

/-- All names are simple, and there is room for what is nested. -/
def Source.FitsIn (room : Nat) (src : Source) : Prop :=
  src.parts.all Part.isSimple = true ∧ src.depth ≤ room

def Items.FitsIn (room : Nat) (is : Items) : Prop := is.parts.all Part.isSimple = true ∧ is.depth ≤ room

def Members.FitsIn (room : Nat) (ms : Members) : Prop := ms.parts.all Part.isSimple = true ∧ ms.depth ≤ room

theorem Items.fitsIn_last {before after : Blanks} {item : Source} :
    (Items.last before item after).FitsIn room ↔ item.FitsIn room := by
  simp [Items.FitsIn, Source.FitsIn, Items.parts, Items.depth, Part.isSimple]

theorem Items.fitsIn_cons {before after : Blanks} {item : Source} {more : Items} :
    (Items.cons before item after more).FitsIn room ↔ item.FitsIn room ∧ more.FitsIn room := by
  simp only [Items.FitsIn, Source.FitsIn, Items.parts, Items.depth, List.all_cons, List.all_append, Part.isSimple,
    Bool.true_and, Bool.and_eq_true, Nat.max_le]
  tauto

theorem Members.fitsIn_last {name : Name} {value : Source} {after : Blanks} :
    (Members.last name value after).FitsIn room ↔
      (Part.name name.pieces name.behind).isSimple = true ∧ value.FitsIn room := by
  simp only [Members.FitsIn, Source.FitsIn, Members.parts, Members.depth, List.all_append,
    Name.all_isSimple_parts, List.all_cons, List.all_nil, Part.isSimple, Bool.and_true, Bool.and_eq_true]
  tauto

theorem Members.fitsIn_cons {name : Name} {value : Source} {after : Blanks} {more : Members} :
    (Members.cons name value after more).FitsIn room ↔
      (Part.name name.pieces name.behind).isSimple = true ∧ value.FitsIn room ∧ more.FitsIn room := by
  simp only [Members.FitsIn, Source.FitsIn, Members.parts, Members.depth, List.all_append,
    Name.all_isSimple_parts, List.all_cons, Part.isSimple, Bool.true_and, Bool.and_eq_true, Nat.max_le]
  tauto

mutual

/-- A name that is not simple leaves the tokens without a mark somewhere, and nesting without room. -/
theorem Source.broken (src : Source) {room : Nat} (hunfit : ¬ src.FitsIn room) :
    ∃ ts more, src.tokens = ts ++ more ∧ Broken room ts := by
  match src, room with
  | .text ps, _ => exact absurd ⟨rfl, Nat.zero_le _⟩ hunfit
  | .bare w, _ => exact absurd ⟨rfl, Nat.zero_le _⟩ hunfit
  | .emptyList blanks, 0 => exact ⟨[.flowSequence], _, rfl, .noList⟩
  | .emptyList blanks, room + 1 => exact absurd ⟨rfl, Nat.succ_pos _⟩ hunfit
  | .list is, 0 => exact ⟨[.flowSequence], _, rfl, .noList⟩
  | .list is, room + 1 =>
    have hitems : ¬ is.FitsIn room := fun h => hunfit ⟨h.1, Nat.succ_le_succ h.2⟩
    obtain ⟨ts, more, htokens, hbroken⟩ := is.broken hitems true
    exact ⟨.flowSequence :: ts, more, congrArg (Token.flowSequence :: ·) htokens, .seq hbroken⟩
  | .emptyMap blanks, 0 => exact ⟨[.flowMapping], _, rfl, .noMap⟩
  | .emptyMap blanks, room + 1 => exact absurd ⟨rfl, Nat.succ_pos _⟩ hunfit
  | .map ms, 0 => exact ⟨[.flowMapping], _, rfl, .noMap⟩
  | .map ms, room + 1 =>
    have hmembers : ¬ ms.FitsIn room := fun h => hunfit ⟨h.1, Nat.succ_le_succ h.2⟩
    obtain ⟨ts, more, htokens, hbroken⟩ := ms.broken hmembers true
    exact ⟨.flowMapping :: ts, more, congrArg (Token.flowMapping :: ·) htokens, .map hbroken⟩

theorem Items.broken (is : Items) {room : Nat} (hunfit : ¬ is.FitsIn room) (first : Bool) :
    ∃ ts more, comma first ++ is.tokens = ts ++ more ∧ BrokenItems first room ts := by
  match is with
  | .last before item after =>
    obtain ⟨ts, more, htokens, hbroken⟩ := item.broken (mt Items.fitsIn_last.mpr hunfit)
    exact ⟨_, more ++ [.flowSequenceEnd], by simp [Items.tokens, htokens], .here hbroken⟩
  | .cons before item after more =>
    by_cases hitem : item.FitsIn room
    · -- the item is whole, so it is among the items behind it that something is missing
      have hmore : ¬ more.FitsIn room := fun h => hunfit (Items.fitsIn_cons.mpr ⟨hitem, h⟩)
      obtain ⟨ts, rest, htokens, hbroken⟩ := more.broken hmore false
      refine ⟨_, rest, ?_, .later (item.flow hitem.1 hitem.2) hbroken⟩
      rw [List.append_assoc, List.append_assoc, ← htokens]
      rfl
    · obtain ⟨ts, rest, htokens, hbroken⟩ := item.broken hitem
      exact ⟨_, rest ++ .flowEntry :: more.tokens, by simp [Items.tokens, htokens], .here hbroken⟩

theorem Members.broken (ms : Members) {room : Nat} (hunfit : ¬ ms.FitsIn room) (first : Bool) :
    ∃ ts more, comma first ++ ms.tokens = ts ++ more ∧ BrokenEntries first room ts := by
  match ms with
  | .last name value after =>
    rw [Members.tokens]
    cases hname : (Part.name name.pieces name.behind).isSimple with
    | false => exact broken_of_name hname first _
    | true =>
      have hvalue : ¬ value.FitsIn room := fun h => hunfit (Members.fitsIn_last.mpr ⟨hname, h⟩)
      obtain ⟨ts, more, htokens, hbroken⟩ := value.broken hvalue
      rw [htokens]
      exact broken_of_value hname first hbroken _
  | .cons name value after more =>
    rw [Members.tokens]
    cases hname : (Part.name name.pieces name.behind).isSimple with
    | false => exact broken_of_name hname first _
    | true =>
      by_cases hvalue : value.FitsIn room
      · have hmore : ¬ more.FitsIn room := fun h => hunfit (Members.fitsIn_cons.mpr ⟨hname, hvalue, h⟩)
        obtain ⟨ts, rest, htokens, hbroken⟩ := more.broken hmore false
        refine ⟨comma first ++
            .key :: .scalar (yamlSense.text name.pieces) false :: .value :: (value.tokens ++ ts),
          rest, ?_, .later (value.flow hvalue.1 hvalue.2) hbroken⟩
        rw [Name.tokens_of_isSimple hname, List.append_assoc, List.cons_append, List.cons_append,
          List.cons_append, List.append_assoc, ← htokens]
        rfl
      · obtain ⟨ts, more, htokens, hbroken⟩ := value.broken hvalue
        rw [htokens]
        exact broken_of_value hname first hbroken _

end

/-! ## Lengths -/

theorem Name.length_tokens_le (n : Name) : n.tokens.length ≤ n.chars.length := by
  rw [Name.tokens, Name.chars]
  split <;> simp only [List.length_append, List.length_cons, List.length_nil] <;> omega

mutual

/-- Every token has a character of its own. -/
theorem Source.length_tokens_le (src : Source) : src.tokens.length ≤ src.chars.length := by
  match src with
  | .text ps => simp [Source.tokens, Source.chars]
  | .bare w =>
    obtain ⟨c, rest, hchars, -⟩ := Yaml.Lexer.exists_chars_eq_cons_source (.bare w)
    simp [Source.tokens, hchars]
  | .emptyList blanks => simp [Source.tokens, Source.chars]
  | .list is =>
    have his := is.length_tokens_le
    simpa [Source.tokens, Source.chars] using his
  | .emptyMap blanks => simp [Source.tokens, Source.chars]
  | .map ms =>
    have hms := ms.length_tokens_le
    simpa [Source.tokens, Source.chars] using hms

theorem Items.length_tokens_le (is : Items) : is.tokens.length ≤ is.chars.length + 1 := by
  match is with
  | .last before item after =>
    have hitem := item.length_tokens_le
    simp only [Items.tokens, Items.chars, List.length_append, List.length_cons, List.length_nil]
    omega
  | .cons before item after more =>
    have hitem := item.length_tokens_le
    have hmore := more.length_tokens_le
    simp only [Items.tokens, Items.chars, List.length_append, List.length_cons]
    omega

theorem Members.length_tokens_le (ms : Members) : ms.tokens.length ≤ ms.chars.length + 1 := by
  match ms with
  | .last name value after =>
    have hname := name.length_tokens_le
    have hvalue := value.length_tokens_le
    simp only [Members.tokens, Members.chars, List.length_append, List.length_cons, List.length_nil]
    omega
  | .cons name value after more =>
    have hname := name.length_tokens_le
    have hvalue := value.length_tokens_le
    have hmore := more.length_tokens_le
    simp only [Members.tokens, Members.chars, List.length_append, List.length_cons]
    omega

end

theorem Document.length_tokens_le (d : Document) : d.source.tokens.length ≤ d.chars.length := by
  have h := d.source.length_tokens_le
  simp only [Document.chars, List.length_append]
  omega

/-! ## Reading -/

theorem all_isClean_isSimple (ps : List Part) :
    (ps.all fun p => p.isClean && p.isSimple) = (ps.all Part.isClean && ps.all Part.isSimple) := by
  rw [Bool.eq_iff_iff]
  simp only [List.all_eq_true, Bool.and_eq_true]
  exact forall₂_and

theorem Document.all_isSimple_parts (d : Document) :
    d.parts.all Part.isSimple = d.source.parts.all Part.isSimple := by
  rw [Document.parts, List.all_cons, List.all_append]
  exact Bool.and_true _

theorem readChars_of_fitsYaml {d : Document} (hreturn : '\r' ∉ d.chars) (hfits : d.fitsYaml = true) :
    Yaml.readChars d.chars = .ok (d.source.value yamlSense) := by
  rw [Document.fitsYaml, all_isClean_isSimple, Document.all_isSimple_parts] at hfits
  simp only [Bool.and_eq_true, decide_eq_true_iff] at hfits
  obtain ⟨⟨hallowed, hclean, hsimple⟩, hdepth⟩ := hfits
  have hlength := d.length_tokens_le
  exact Yaml.readChars_of_flow hallowed (d.source.flow hsimple le_rfl) (Yaml.Lexer.yields_document hreturn hclean)
    (by omega) hdepth d.source.depth_le

/-- A text with an obstacle is refused: by its characters, by the lexer, or for want of a mark or of room. -/
theorem exists_error_of_unfit {d : Document} (hreturn : '\r' ∉ d.chars) (hunfit : d.fitsYaml = false) :
    ∃ e, Yaml.readChars d.chars = .error e := by
  rw [Document.fitsYaml, all_isClean_isSimple, Document.all_isSimple_parts] at hunfit
  cases hallowed : d.chars.all Yaml.isAllowed with
  | false => exact ⟨.malformed, by rw [Yaml.readChars, Yaml.Document.ofChars, hallowed]; rfl⟩
  | true =>
    rw [hallowed, Bool.true_and] at hunfit
    cases hclean : d.parts.all Part.isClean with
    | false => exact Yaml.readChars_of_breaks (Yaml.Lexer.breaks_document hreturn hclean)
    | true =>
      have hnot : ¬ d.source.FitsIn Yaml.nestingLimit := by
        rintro ⟨hsimple, hdepth⟩
        simp [hclean, hsimple, hdepth] at hunfit
      obtain ⟨ts, more, htokens, hbroken⟩ := d.source.broken hnot
      have hyields := Yaml.Lexer.yields_document hreturn hclean
      have hlength := d.length_tokens_le
      rw [htokens, List.append_assoc] at hyields
      rw [htokens, List.length_append] at hlength
      exact Yaml.readChars_of_broken hbroken hyields (by omega)

/-- **What YAML makes of a text of JSON.** -/
theorem readChars_document {d : Document} (hreturn : '\r' ∉ d.chars) (v : Value) :
    Yaml.readChars d.chars = .ok v ↔ d.fitsYaml = true ∧ d.source.value yamlSense = v := by
  cases hfits : d.fitsYaml with
  | true => rw [readChars_of_fitsYaml hreturn hfits, Except.ok.injEq, and_iff_right rfl]
  | false =>
    obtain ⟨e, he⟩ := exists_error_of_unfit hreturn hfits
    rw [he]
    exact ⟨nofun, fun h => nomatch h.1⟩

end CommentStyle.Json
