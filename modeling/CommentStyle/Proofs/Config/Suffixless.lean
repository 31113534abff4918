import CommentStyle.Proofs.CommandLine.LoadFaults
import CommentStyle.Proofs.Json.RoundTrip
import CommentStyle.Proofs.Yaml.JsonText

/-!
# JSON in a configuration file without a suffix

Only a file named as JSON is read as JSON; under any other name the same text is read as YAML. Most texts of
JSON give the same options either way, but not all do. Some are no YAML at all, for a tab between two tokens or
for a name too far from its colon, or have more nesting than YAML has room for. Others say something else there,
such as a number with an exponent but without a point, which is a text.

* **`exists_pairs`**, **`options_mapOf`** — the options of an object are its members, a later one replacing the
  value of an earlier one. So equal options come from equal objects (`value_eq_of_options`).
* **`load_json_iff`**, **`load_yaml_iff`** — loading is reading and taking the options.
* **`load_suffixless_iff`** — the headline; **`tab_and_exponent_need_suffix`** has two files on which the names
  differ.
-/

namespace CommentStyle

/-- No carriage return is left when line ends are unified. -/
theorem Text.return_notMem_unifyLineEnds (cs : List Char) : '\r' ∉ unifyLineEnds cs := by
  fun_induction unifyLineEnds cs with
  | case1 rest ih => simpa using ih
  | case2 rest _ ih => simpa using ih
  | case3 c rest _ hc ih =>
    rw [List.mem_cons, not_or]
    exact ⟨fun h => hc h.symm, ih⟩
  | case4 => simp

theorem Files.return_notMem_text {fs : Files} {path : Path} {text : String} (h : fs.text path = .ok text) :
    '\r' ∉ text.toList := by
  unfold Files.text at h
  split at h
  · cases h
  split at h
  · cases h
  split at h
  · cases h
  · cases h
    rw [String.toList_ofList]
    exact Text.return_notMem_unifyLineEnds _

namespace Config

open Json (Document Members Sense member)

/-! ## The options of an object -/

/-- The entries of an object are values under names. -/
theorem exists_pairs (sense : Sense) (ms : Members) :
    ∃ ps : List (String × Value), ms.entries sense = ps.map member := by
  cases ms with
  | last name value after =>
    exact ⟨[(String.ofList (sense.text name.pieces), value.value sense)], by rw [Members.entries]; rfl⟩
  | cons name value after more =>
    obtain ⟨ps, hps⟩ := exists_pairs sense more
    exact ⟨(String.ofList (sense.text name.pieces), value.value sense) :: ps, by rw [Members.entries, hps]; rfl⟩

theorem insertEntry_member (name : String) (v : Value) (os : Options) :
    Value.insertEntry (.str name) v (os.map member) = (os.insert name v).map member := by
  induction os with
  | nil => rfl
  | cons o os ih =>
    obtain ⟨n, w⟩ := o
    have hsame : (Value.str n).sameKey (.str name) = decide (n = name) := rfl
    rw [List.map_cons, member, Value.insertEntry, hsame, Options.insert]
    by_cases hn : n = name
    · simp [hn, member]
    · simp [hn, ih, member]

/-- An object holds its members as options do. -/
theorem mapOf_member (ps : List (String × Value)) :
    Value.mapOf (ps.map member) = (Options.ofPairs ps).map member := by
  suffices hfold : ∀ os : Options, (ps.map member).foldl (fun es e => Value.insertEntry e.1 e.2 es) (os.map member)
      = (ps.foldl (fun os p => Options.insert p.1 p.2 os) os).map member from hfold []
  induction ps with
  | nil => exact fun _ => rfl
  | cons p ps ih =>
    intro os
    rw [List.map_cons, List.foldl_cons, List.foldl_cons, Json.member_fst, Json.member_snd, insertEntry_member, ih]

theorem named_member (ps : List (String × Value)) : named (ps.map member) = .ok ps := by
  induction ps with
  | nil => rfl
  | cons p ps ih =>
    rw [List.map_cons, member, named, ih]
    rfl

theorem member_injective : Function.Injective (member (α := Value)) := by
  rintro ⟨n, v⟩ ⟨n', v'⟩ h
  cases h
  rfl

/-- Options stay as they are if no name comes twice. -/
theorem ofPairs_of_nodup {os : Options} (hnames : (os.map Prod.fst).Nodup) : Options.ofPairs os = os := by
  refine (List.map_injective_iff.mpr member_injective) ?_
  rw [← mapOf_member, Json.mapOf_of_nodup hnames]

theorem options_mapOf (path : Path) (ps : List (String × Value)) :
    options path (.map (Value.mapOf (ps.map member))) = .ok (Options.ofPairs ps) := by
  rw [mapOf_member]
  unfold options
  simp only [Value.unfold, named_member, ofPairs_of_nodup (CommandLine.nodup_ofPairs ps)]

/-- The path is only named in faults. -/
theorem options_congr {path : Path} {v : Value} {os : Options} (h : options path v = .ok os) (path' : Path) :
    options path' v = .ok os := by
  unfold options at h ⊢
  split at h
  · exact h
  · split at h
    · exact h
    · cases h
  · cases h

/-- Only one value of a source gives these options. -/
theorem value_eq_of_options (src : Json.Source) {path path' : Path} {os : Options}
    (h : options path (src.value Json.sense) = .ok os) (h' : options path' (src.value Json.yamlSense) = .ok os) :
    src.value Json.yamlSense = src.value Json.sense := by
  match src with
  | .text ps => cases h
  | .bare w =>
    cases w with
    | null => rfl
    | bool b => cases h
    | nan => cases h
    | infinite negative => cases h
    | number n =>
      have hvalue : (Json.Source.bare (.number n)).value Json.sense = n.value := rfl
      rw [hvalue, Json.Numeral.value] at h
      split at h <;> cases h
  | .emptyList blanks => cases h
  | .list is => cases h
  | .emptyMap blanks => rfl
  | .map ms =>
    -- the options are the entries of the object, so they tell it apart from any other
    obtain ⟨ps, hps⟩ := exists_pairs Json.sense ms
    obtain ⟨ps', hps'⟩ := exists_pairs Json.yamlSense ms
    rw [Json.Source.value, hps, options_mapOf] at h
    rw [Json.Source.value, hps', options_mapOf] at h'
    rw [Json.Source.value, Json.Source.value, hps, hps', mapOf_member, mapOf_member, Except.ok.inj h,
      Except.ok.inj h']

/-! ## Loading -/

/-- Loading is reading and taking the options. -/
theorem load_json_iff {fs : Files} {path : Path} {text : String} (hformat : path.format = ".json")
    (htext : fs.text path = .ok text) (os : Options) :
    load fs path = .ok os ↔ ∃ v, Json.read text = .ok v ∧ options path v = .ok os := by
  simp only [load, htext, data, if_pos hformat]
  cases hread : Json.read text with
  | ok v => simp
  | error f => cases f <;> simp

theorem load_yaml_iff {fs : Files} {path : Path} {text : String} (hformat : path.format ≠ ".json")
    (htext : fs.text path = .ok text) (os : Options) :
    load fs path = .ok os ↔ ∃ v, Yaml.readChars text.toList = .ok v ∧ options path v = .ok os := by
  simp only [load, htext, data, if_neg hformat, Yaml.read]
  cases hread : Yaml.readChars text.toList with
  | ok v => simp
  | error f => cases f <;> simp

/-! ## Some texts -/

/-- One text in two files, named with and without the suffix. -/
def twice (text : String) : Files :=
  { entries := [([".commentlintrc.json"], .file (text.toList.flatMap String.utf8EncodeChar)),
      ([".commentlintrc"], .file (text.toList.flatMap String.utf8EncodeChar))] }

section Documents

open Json

def gap (cs : List Char) (h : cs.all isBlank = true := by decide) : Blanks := ⟨cs, List.all_eq_true.mp h⟩

def one : Numeral where
  negative := false
  digits := ['1']
  part := []
  power := []
  digits_ne_nil := by decide
  isDigit_digits := List.forall_mem_singleton.mpr rfl
  leading := by decide
  isFraction := .absent
  isExponent := .absent
  short := by decide

def thousand : Numeral :=
  { one with
    power := ['e', '3']
    isExponent := .digits (.inl rfl) (.inl rfl) (List.cons_ne_nil '3' []) (List.forall_mem_singleton.mpr rfl)
    short := by decide }

/-- An object with a number that has an exponent but no point. -/
def exponential : Document where
  before := gap []
  source := .map (.last ⟨gap [], [.plain 'a' (by decide)], gap [], gap [' ']⟩ (.bare (.number thousand)) (gap []))
  after := gap []

/-- An object with a list and with a name that comes twice. -/
def nested : Document where
  before := gap []
  source := .map <|
    .cons ⟨gap [], [.plain 'a' (by decide)], gap [], gap [' ']⟩ (.bare (.number one)) (gap []) <|
    .cons ⟨gap [' '], [.plain 'b' (by decide)], gap [' '], gap ['\n']⟩
      (.list (.last (gap []) (.text [.hex '0' '0' 'e' '9' 0xE9 rfl]) (gap []))) (gap []) <|
    .last ⟨gap [' '], [.plain 'a' (by decide)], gap [], gap [' ']⟩ (.bare .null) (gap [])
  after := gap []

-- with these the reader can be run by `simp`
attribute [local simp] Json.read document value items members memberName Json.string stringUnits unit? hexValue?
  charsOfUnits unitChar isHighSurrogate isLowSurrogate skipBlanks isBlank bareValue afterWord? number wholeDigits
  fraction exponent Json.isDigit tooDeep Value.mapOf Value.insertEntry NumberFault.digitLimit Number.ofDigits
  Number.signed Except.bind Except.map Except.mapError

theorem read_nested : Json.read "\x7b\"a\": 1, \"b\" :\n[\"\\u00e9\"], \"a\": null\x7d"
    = .ok (.map [(.str "a", .null), (.str "b", .list [.str "é"])]) := by
  simp [bind]
  rfl

theorem read_tab : Json.read "\x7b\"a\":\t1\x7d" = .ok (.map [(.str "a", .int 1)]) := by
  simp [bind]

theorem read_exponent : Json.read "\x7b\"a\": 1e3\x7d" = .ok (.map [(.str "a", .float (.ofInt 1000))]) := by
  have hthousand : Number.real? ['1', 'e', '3'] = .ok (.ofInt 1000) := by decide +kernel
  simp [bind, hthousand]

end Documents

/-! ## The headline -/

/-- **What a file without the suffix makes of JSON.** A text that gives options in a file named as JSON is a
document of JSON. In a file with another name it gives the same options if and only if nothing in it keeps it
from being YAML, and what it says there is the same. So it is if it fits and all its strings and words mean the
same. If it does not fit, it is refused. -/
theorem load_suffixless_iff {fs fs' : Files} {json other : Path} {text : String} {os : Options}
    (hjson : json.format = ".json") (hother : other.format ≠ ".json") (htext : fs.text json = .ok text)
    (hsame : fs'.text other = .ok text) (hload : load fs json = .ok os) :
    ∃ d : Document, d.chars = text.toList ∧ options json (d.source.value Json.sense) = .ok os ∧
      (load fs' other = .ok os ↔
        d.fitsYaml = true ∧ d.source.value Json.yamlSense = d.source.value Json.sense) ∧
      (d.fitsYaml = true → d.parts.all Json.Part.isCommon = true → load fs' other = .ok os) ∧
      (d.fitsYaml = false → ∃ f, load fs' other = .error f) := by
  obtain ⟨v, hread, hoptions⟩ := (load_json_iff hjson htext os).mp hload
  obtain ⟨d, hchars, hvalue⟩ := Json.exists_document_of_read hread
  have hreturn : '\r' ∉ d.chars := hchars ▸ Files.return_notMem_text hsame
  subst hvalue
  have hagree : load fs' other = .ok os ↔
      d.fitsYaml = true ∧ d.source.value Json.yamlSense = d.source.value Json.sense := by
    rw [load_yaml_iff hother hsame, ← hchars]
    constructor
    · rintro ⟨w, hw, hoptions'⟩
      obtain ⟨hfits, rfl⟩ := (Json.readChars_document hreturn w).mp hw
      exact ⟨hfits, value_eq_of_options d.source hoptions hoptions'⟩
    · rintro ⟨hfits, heq⟩
      exact ⟨_, (Json.readChars_document hreturn _).mpr ⟨hfits, heq⟩, options_congr hoptions other⟩
  refine ⟨d, hchars, hoptions, hagree, fun hfits hcommon => ?_, fun hunfit => ?_⟩
  · have hsource : d.source.parts.all Json.Part.isCommon = true := by
      simp only [Document.parts, List.all_cons, List.all_append, Bool.and_eq_true] at hcommon
      exact hcommon.2.1
    exact hagree.mpr ⟨hfits, d.source.value_yamlSense hsource⟩
  · cases hother' : load fs' other with
    | error f => exact ⟨f, rfl⟩
    | ok os' =>
      obtain ⟨w, hw, -⟩ := (load_yaml_iff hother hsame os').mp hother'
      rw [← hchars, Json.readChars_document hreturn, hunfit] at hw
      cases hw.1

/-- A list, an escape, a line break and a name that comes twice do no harm. -/
theorem load_suffixless_iff_nested :
    let text := "\x7b\"a\": 1, \"b\" :\n[\"\\u00e9\"], \"a\": null\x7d"
    let json := Path.ofString ".commentlintrc.json"
    let other := Path.ofString ".commentlintrc"
    let os : Options := [("a", .null), ("b", .list [.str "é"])]
    json.format = ".json" ∧ other.format ≠ ".json" ∧ (twice text).text json = .ok text ∧
      (twice text).text other = .ok text ∧ load (twice text) json = .ok os ∧ load (twice text) other = .ok os ∧
      ∃ d : Document, d.chars = text.toList ∧ d.fitsYaml = true ∧
        d.source.value Json.yamlSense = d.source.value Json.sense := by
  intro text json other os
  have hjson : json.format = ".json" := by decide +kernel
  have hother : other.format ≠ ".json" := by decide +kernel
  have htext : (twice text).text json = .ok text := by decide +kernel
  have hsame : (twice text).text other = .ok text := by decide +kernel
  have hchars : nested.chars = text.toList := by decide +kernel
  have hmeans : nested.source.value Json.yamlSense = .map (os.map member) :=
    nested.source.value_yamlSense (by decide +kernel)
  have hread : Yaml.readChars text.toList = .ok (.map (os.map member)) := by
    rw [← hchars, Json.readChars_document (by decide +kernel)]
    exact ⟨by decide +kernel, hmeans⟩
  have hnames : (os.map Prod.fst).Nodup := by decide
  have hoptions : ∀ path, options path (.map (os.map member)) = .ok os := fun path => by
    rw [← Json.mapOf_of_nodup hnames, options_mapOf, ofPairs_of_nodup hnames]
  have hload : load (twice text) json = .ok os :=
    (load_json_iff hjson htext os).mpr ⟨_, read_nested, hoptions json⟩
  have hload' : load (twice text) other = .ok os :=
    (load_yaml_iff hother hsame os).mpr ⟨_, hread, hoptions other⟩
  obtain ⟨d, hd, -, hagree, -⟩ := load_suffixless_iff hjson hother htext hsame hload
  exact ⟨hjson, hother, htext, hsame, hload, hload', d, hd, hagree.mp hload'⟩

/-- A tab behind a colon, and an exponent without a point: as JSON both files are read, without the suffix the
first one is refused, and the second one has a text in place of the number. -/
theorem tab_and_exponent_need_suffix :
    let json := Path.ofString ".commentlintrc.json"
    let other := Path.ofString ".commentlintrc"
    let tab := "\x7b\"a\":\t1\x7d"
    let exponent := "\x7b\"a\": 1e3\x7d"
    (load (twice tab) json = .ok [("a", .int 1)] ∧ load (twice tab) other = .error (.notYaml other tab)) ∧
      load (twice exponent) json = .ok [("a", .float (.ofInt 1000))] ∧
      load (twice exponent) other = .ok [("a", .str "1e3")] := by
  intro json other tab exponent
  have hjson : json.format = ".json" := by decide +kernel
  have hother : other.format ≠ ".json" := by decide +kernel
  have hoptions : ∀ path v, options path (.map [(.str "a", v)]) = .ok [("a", v)] := fun path v =>
    options_mapOf path [("a", v)]
  have hsame : (twice tab).text other = .ok tab := by decide +kernel
  have hrefused : Yaml.read tab = .error .malformed := by
    have hfault : (Yaml.read tab).map (fun _ => ()) = .error .malformed := by decide +kernel
    cases hread : Yaml.read tab with
    | ok v =>
      rw [hread] at hfault
      cases hfault
    | error f =>
      rw [hread] at hfault
      cases hfault
      rfl
  have hexponent : Yaml.readChars exponent.toList = .ok (.map [(.str "a", .str "1e3")]) := by
    have hchars : exponential.chars = exponent.toList := by decide +kernel
    rw [← hchars, Json.readChars_document (by decide +kernel)]
    exact ⟨by decide +kernel, rfl⟩
  refine ⟨⟨?_, ?_⟩, ?_, ?_⟩
  · exact (load_json_iff hjson (by decide +kernel) _).mpr ⟨_, read_tab, hoptions json _⟩
  · simp only [load, hsame, data, if_neg hother, hrefused]
  · exact (load_json_iff hjson (by decide +kernel) _).mpr ⟨_, read_exponent, hoptions json _⟩
  · exact (load_yaml_iff hother (by decide +kernel) _).mpr ⟨_, hexponent, hoptions other _⟩

end Config

end CommentStyle
