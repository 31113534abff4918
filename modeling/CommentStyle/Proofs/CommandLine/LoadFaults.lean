import CommentStyle.Proofs.CommandLine.Verdict
import CommentStyle.Proofs.Dump.Grammar
import CommentStyle.Proofs.Json.Limits
import CommentStyle.Proofs.Text.Utf8
import CommentStyle.Proofs.Yaml.Hindrances

/-!
# Which faults loading a file can end with

The lint command goes on after a dump that it cannot load, and ends with its own status for a configuration
that it cannot load, as long as the fault is of the kind it handles. Each stage of loading has faults of
another kind: octets that are no UTF-8, a limit of the JSON reader, something in a YAML text that makes no value,
a value that has no text. This module says exactly when none of these arises.

* **`FailsOnly`** — all faults of a computation are of a kind.
* **`Spells`** — what the octets of a file say, by the encoding and not by the decoder.
* **`failsOnly_loading`** — the two loaders begin alike: a name, then octets, then a text. This is settled
  once, for any condition on the text.
* **`Unhindered`** — nothing in a YAML text of what can keep it from making data does so.
* **`failsOnly_ofJson`**, **`failsOnly_ofYaml`**, **`failsOnly_options`** — the conditions on the text.
* **`lintFile_unloaded`**, **`exit_lintLogged_unset`** — what the handlers do with a fault.
* **`load_faults_handled_iff`** — the headline; **`stray_octet_unhandled`** is a file that breaks it.
-/

namespace CommentStyle

/-- Every fault of the computation is of the kind. -/
def FailsOnly {ε α : Type} (kind : ε → Bool) (x : Except ε α) : Prop := ∀ e, x = .error e → kind e = true

namespace FailsOnly

variable {ε α : Type} {kind : ε → Bool}

@[simp] theorem ok (a : α) : FailsOnly kind (.ok a) := fun _ h => (by cases h)

@[simp] theorem error_iff (e : ε) : FailsOnly kind (.error e : Except ε α) ↔ kind e = true :=
  ⟨fun h => h e rfl, fun h _ heq => Except.error.inj heq ▸ h⟩

theorem mapError_iff {ε' : Type} (g : ε' → ε) (x : Except ε' α) :
    FailsOnly kind (x.mapError g) ↔ FailsOnly (fun e => kind (g e)) x := by
  cases x with
  | ok a => exact ⟨fun _ => ok a, fun _ => ok a⟩
  | error e => simp [Except.mapError]

end FailsOnly

namespace CommandLine

/-! ## From a name to a text -/

/-- The octets are the text in UTF-8, up to the line ends, which all read as line feeds. -/
def Spells (octets : List UInt8) (text : String) : Prop :=
  ∃ cs : List Char, octets = cs.flatMap String.utf8EncodeChar ∧ text = String.ofList (Text.unifyLineEnds cs)

theorem text_eq_ok_iff {fs : Files} {path : Path} {octets : List UInt8} {text : String}
    (hnull : hasNull path.text = false) (hoctets : fs.octets path = .ok octets) :
    fs.text path = .ok text ↔ Spells octets text := by
  unfold Files.text
  rw [hnull, if_neg Bool.false_ne_true, hoctets]
  simp only
  constructor
  · intro h
    cases hdecode : Text.Utf8.decode octets with
    | error f =>
      rw [hdecode] at h
      cases h
    | ok cs =>
      rw [hdecode] at h
      exact ⟨cs, Text.Utf8.decode_eq_ok_iff.mp hdecode, (Except.ok.inj h).symm⟩
  · rintro ⟨cs, hcs, rfl⟩
    rw [Text.Utf8.decode_eq_ok_iff.mpr hcs]

/-- **How the loaders begin.** Whatever is then asked of the text, a loader that passes file faults on as
handled, and the two other faults of a path as unhandled, fails only in handled ways if the name is one a file
can have and the octets of the file spell a text that meets the condition. -/
theorem failsOnly_loading {ε α : Type} {kind : ε → Bool} {x : Except ε α} {fs : Files} {path : Path}
    {Fits : String → Prop} (hnull : fs.text path = .error .nullName → ¬ FailsOnly kind x)
    (hfile : ∀ f p, fs.text path = .error (.file f p) → FailsOnly kind x)
    (hencoding : ∀ f, fs.text path = .error (.encoding f) → ¬ FailsOnly kind x)
    (htext : ∀ text, fs.text path = .ok text → (FailsOnly kind x ↔ Fits text)) :
    FailsOnly kind x ↔ hasNull path.text = false ∧
      ∀ octets, fs.octets path = .ok octets → ∃ text, Spells octets text ∧ Fits text := by
  cases hname : hasNull path.text with
  | true =>
    have hfault : fs.text path = .error .nullName := by rw [Files.text, hname, if_pos rfl]
    exact ⟨fun h => absurd h (hnull hfault), fun h => absurd h.1 (by simp)⟩
  | false =>
    cases hoctets : fs.octets path with
    | error f =>
      have hfault : fs.text path = .error (.file f path) := by
        rw [Files.text, hname, if_neg Bool.false_ne_true, hoctets]
      exact ⟨fun _ => ⟨rfl, fun octets h => by cases h⟩, fun _ => hfile f path hfault⟩
    | ok octets =>
      -- there is a file, so that nothing but its octets can keep it from having a text
      have hspells : ∀ text, fs.text path = .ok text ↔ Spells octets text := fun text =>
        text_eq_ok_iff hname hoctets
      constructor
      · intro hx
        refine ⟨rfl, fun _ heq => ?_⟩
        cases heq
        cases hread : fs.text path with
        | ok text => exact ⟨text, (hspells text).mp hread, (htext text hread).mp hx⟩
        | error f =>
          cases f with
          | nullName => exact absurd hx (hnull hread)
          | encoding f => exact absurd hx (hencoding f hread)
          | file f p =>
            rw [Files.text, hname, if_neg Bool.false_ne_true, hoctets] at hread
            simp only at hread
            split at hread <;> cases hread
      · rintro ⟨-, h⟩
        obtain ⟨text, hspelt, hfits⟩ := h octets rfl
        exact (htext text ((hspells text).mpr hspelt)).mpr hfits

/-! ## Dumps -/

/-- The fault is one of a dump. -/
def isDump : ReadFault → Bool
  | .dump _ => true
  | .json _ | .yaml _ | .unshown _ => false

theorem isReported_read (f : ReadFault) : isReported (.read f) = isDump f := by cases f <;> rfl

/-- What is wrong with data as a dump can be told: no kind that has to be told is without a text. -/
def KindHasText (v : Value) : Prop := ¬ Dump.BlamesKind v fun kind => ∃ f, kind.shown = .error f

theorem kindHasText_iff (v : Value) : KindHasText v ↔ ∀ f, Dump.ofValue v ≠ .error (.unshown f) := by
  simp only [KindHasText, Dump.blamesKind_exists_iff, ← Dump.ofValue_eq_unshown_iff, not_exists, ne_eq]

theorem failsOnly_ofValue (v : Value) : FailsOnly isDump (Dump.ofValue v) ↔ KindHasText v := by
  rw [kindHasText_iff]
  constructor
  · intro hfails f hf
    exact absurd (hfails _ hf) Bool.false_ne_true
  · intro htold e he
    obtain ⟨f, rfl, -⟩ := ((Dump.ofValue_decides v).eq_error_iff e).mp he
    cases f with
    | unshownKind f => exact absurd he (htold f)
    | _ => rfl

/-- In JSON data, where all numbers can be written, this is a matter of nesting. -/
theorem kindHasText_of_read {text : String} {v : Value} (h : Json.read text = .ok v) :
    KindHasText v ↔ ¬ Dump.BlamesKind v Value.TooDeep := by
  simp only [KindHasText, Dump.blamesKind_exists_iff, Dump.blamesKind_shown_iff (Json.writable_of_read h),
    exists_eq_left]

theorem failsOnly_ofJson (text : String) :
    FailsOnly isDump (Dump.ofJson text) ↔
      Json.read text = Json.read text .none ∧ ∀ v, Json.read text = .ok v → ¬ Dump.BlamesKind v Value.TooDeep := by
  rw [← Json.read_faults_iff]
  unfold Dump.ofJson
  cases hread : Json.read text with
  | ok v => simpa using (failsOnly_ofValue v).trans (kindHasText_of_read hread)
  | error f => cases f <;> simp [isDump, Json.Fault.isMalformed]

/-- Nothing that can keep the text from making data ends its reading: no escape beyond the last code point and no
version too long, no nesting and no chain of merges beyond all bounds, no scalar without its value. -/
def Unhindered (text : String) : Prop := ∀ f, Yaml.Hinders text.toList f → Yaml.read text ≠ .error (.unmade f)

/-- The text is refused as YAML for its form, or makes data. -/
theorem unhindered_iff (text : String) : Unhindered text ↔ ∀ f, Yaml.read text = .error f → f = .malformed := by
  constructor
  · intro h f hf
    cases f with
    | malformed => rfl
    | unmade f => exact absurd hf (h f (Yaml.hinders_of_readChars hf))
  · intro h f _ hf
    cases h _ hf

theorem failsOnly_ofYaml (text : String) :
    FailsOnly isDump (Dump.ofYaml text) ↔ Unhindered text ∧ ∀ v, Yaml.read text = .ok v → KindHasText v := by
  rw [unhindered_iff]
  unfold Dump.ofYaml
  cases hread : Yaml.read text with
  | ok v => simpa using failsOnly_ofValue v
  | error f => cases f <;> simp [isDump]

/-- What a text must be for its dump to load or to fail in a reported way. -/
def FitsDump (path : Path) (text : String) : Prop :=
  if Dump.isYaml path then Unhindered text ∧ ∀ v, Yaml.read text = .ok v → KindHasText v
  else Json.read text = Json.read text .none ∧ ∀ v, Json.read text = .ok v → ¬ Dump.BlamesKind v Value.TooDeep

theorem failsOnly_ofText (path : Path) (text : String) :
    FailsOnly isDump (Dump.ofText path text) ↔ FitsDump path text := by
  unfold Dump.ofText FitsDump
  split
  · exact failsOnly_ofYaml text
  · exact failsOnly_ofJson text

theorem failsOnly_dump (fs : Files) (path : Path) :
    FailsOnly isReported (Dump.load fs path) ↔ hasNull path.text = false ∧
      ∀ octets, fs.octets path = .ok octets → ∃ text, Spells octets text ∧ FitsDump path text := by
  apply failsOnly_loading
  · intro h
    simp [Dump.load, h, isReported]
  · intro f p h
    simp [Dump.load, h, isReported]
  · intro f h
    simp [Dump.load, h, isReported]
  · intro text h
    simp only [Dump.load, h, FailsOnly.mapError_iff, isReported_read]
    exact failsOnly_ofText path text

/-! ## Configurations -/

theorem exists_named_iff (es : List (Value × Value)) :
    (∃ pairs, Config.named es = .ok pairs) ↔ ∀ e ∈ es, ∃ w, e.1.word = .ok w := by
  induction es with
  | nil => simp [Config.named]
  | cons e rest ih =>
    obtain ⟨key, value⟩ := e
    rw [List.forall_mem_cons, ← ih, Config.named]
    cases hword : key.word with
    | error f => simp [bind, Except.bind]
    | ok w =>
      cases Config.named rest with
      | error f => simp [bind, Except.bind]
      | ok pairs => simp [bind, Except.bind, pure, Except.pure]

/-- Every key of the mapping, if the data are one, has a word. -/
def KeysHaveWords (v : Value) : Prop := ∀ es, v.entries? = some es → ∀ e ∈ es, ∃ w, e.1.word = .ok w

theorem failsOnly_options (path : Path) (v : Value) :
    FailsOnly Config.Fault.isConfiguration (Config.options path v) ↔ KeysHaveWords v := by
  unfold Config.options KeysHaveWords Value.entries?
  cases hunfold : v.unfold with
  | map es =>
    simp only [Option.some.injEq, forall_eq']
    rw [← exists_named_iff]
    cases Config.named es with
    | ok pairs => simp
    | error f => simp [Config.Fault.isConfiguration]
  | _ => simp [Config.Fault.isConfiguration]

theorem keysHaveWords_of_read {text : String} {v : Value} (h : Json.read text = .ok v) : KeysHaveWords v := by
  intro es hes e he
  obtain ⟨name, hname⟩ := Json.str_of_read h hes e he
  exact ⟨name, by rw [hname]; rfl⟩

/-- What a text must be for its configuration to load or to fail as one. -/
def FitsConfig (path : Path) (text : String) : Prop :=
  if path.format = ".json" then Json.read text = Json.read text .none
  else Unhindered text ∧ ∀ v, Yaml.read text = .ok v → KeysHaveWords v

theorem failsOnly_config (fs : Files) (path : Path) :
    FailsOnly Config.Fault.isConfiguration (Config.load fs path) ↔ hasNull path.text = false ∧
      ∀ octets, fs.octets path = .ok octets → ∃ text, Spells octets text ∧ FitsConfig path text := by
  apply failsOnly_loading
  · intro h
    simp [Config.load, h, Config.Fault.isConfiguration]
  · intro f p h
    simp [Config.load, h, Config.Fault.isConfiguration]
  · intro f h
    simp [Config.load, h, Config.Fault.isConfiguration]
  · intro text h
    simp only [Config.load, h, Config.data, FitsConfig]
    by_cases hjson : path.format = ".json"
    · simp only [if_pos hjson]
      rw [← Json.read_faults_iff]
      cases hread : Json.read text with
      | ok v =>
        -- the keys of JSON data are texts, so that each has a word
        have hwords := (failsOnly_options path v).mpr (keysHaveWords_of_read hread)
        simpa using hwords
      | error f => cases f <;> simp [Config.Fault.isConfiguration, Json.Fault.isMalformed]
    · simp only [if_neg hjson, unhindered_iff]
      cases hread : Yaml.read text with
      | ok v => simpa using failsOnly_options path v
      | error f => cases f <;> simp [Config.Fault.isConfiguration]

theorem keys_insert (name : String) (value : Value) (options : Options) :
    (options.insert name value).map Prod.fst
      = if name ∈ options.map Prod.fst then options.map Prod.fst else options.map Prod.fst ++ [name] := by
  induction options with
  | nil => rfl
  | cons first rest ih =>
    rw [Options.insert]
    by_cases hsame : first.1 = name
    · simp [hsame]
    · have hother : name ≠ first.1 := fun h => hsame h.symm
      simp only [hsame, if_false, List.map_cons, ih, List.mem_cons, hother, false_or]
      split <;> rfl

theorem nodup_ofPairs (pairs : List (String × Value)) : ((Options.ofPairs pairs).map Prod.fst).Nodup := by
  unfold Options.ofPairs
  refine List.foldlRecOn pairs _ (motive := fun options : Options => (options.map Prod.fst).Nodup)
    List.nodup_nil fun options h pair _ => ?_
  rw [keys_insert]
  exact nodup_concat_of_new h pair.1

/-- The options of a file have one value for each name. -/
theorem nodup_load {fs : Files} {path : Path} {options : Options}
    (h : Config.load fs path = .ok options) : (options.map Prod.fst).Nodup := by
  unfold Config.load at h
  split at h
  · cases h
  · cases h
  · cases h
  · split at h
    · cases h
    · unfold Config.options at h
      split at h
      · cases h
        exact List.nodup_nil
      · split at h
        · cases h
          exact nodup_ofPairs _
        · cases h
      · cases h

/-! ## What the handlers do -/

section Handlers

variable {env : Environment}

/-- A file whose dump does not load counts as failed, and the run goes on, if the fault is reported and what
is to be printed about it can be. -/
theorem lintFile_unloaded {name : String} {f : LoadFault}
    (hload : Dump.load env.files (Path.ofString name) = .error f) (l : Linter) (format : Format) (p : Progress) :
    (∃ text, lintFile env l format p name = .ok (p.fail text)) ↔
      isReported f = true ∧ ∀ markup, unloadedMarkup env.explain name f = some markup →
        ∃ text, Console.print markup = .ok text := by
  unfold lintFile
  rw [hload]
  simp only
  cases hmarkup : unloadedMarkup env.explain name f with
  | none =>
    have hreported := (unloadedMarkup_eq_none_iff env.explain name f).mp hmarkup
    simp [hreported]
  | some markup =>
    have hreported : isReported f = true := by
      rw [← Bool.not_eq_false, ← unloadedMarkup_eq_none_iff env.explain name f, hmarkup]
      exact Option.some_ne_none markup
    simp only [hreported, true_and, Option.some.injEq, forall_eq']
    cases Console.print markup with
    | error m => simp
    | ok text => simp

/-- A run whose configuration does not load ends with status 2 if the fault is one of a configuration and
what is to be printed about it can be. -/
theorem exit_lintLogged_unset {path : Path} {f : Config.Fault} {call : LintCall}
    (hpath : configPath env.files call.config = .ok (some path)) (hload : Config.load env.files path = .error f)
    (reg : Registry) (log : List LogRecord) :
    (lintLogged env reg call log).exit = 2 ↔
      f.isConfiguration = true ∧
        ∃ text, Console.print ("[red]Configuration error:[/red] " ++ f.message env.explain) = .ok text := by
  have hlinter : linter env.files reg call.config = .error (.config f) := by
    rw [linter, configOptions, hpath]
    simp only [hload, Except.map]
  unfold lintLogged
  rw [hlinter]
  simp only [unsettled, SettingFault.text]
  change _ ↔ (SettingFault.config f).isConfiguration = true ∧ _
  by_cases hconfig : (SettingFault.config f).isConfiguration = true
  · rw [if_pos hconfig]
    cases Console.print ("[red]Configuration error:[/red] " ++ f.message env.explain) with
    | ok text => simp [hconfig]
    | error m => simp
  · rw [if_neg hconfig]
    simp [hconfig]

end Handlers

/-! ## The contract -/

/-- **When loading a file fails only in ways that the lint command handles.** A dump loads or is reported, and a
configuration loads or is refused as one, exactly if no file name with a null is asked for and the octets of the
file, if there is one, are UTF-8 of a text that fits: as JSON it stays within the limits of reading, as YAML nothing
in it keeps it from making data, and a kind or a key that has to be told has a text. What keeps a YAML text from
making data can be pointed at, so that a text without such a thing fits. Options have one value for each name. Of
the faults that do arise, those of the handled kind are turned into a failed file and into status 2, if only the
message about them can be printed, and the others never are. -/
theorem load_faults_handled_iff (env : Environment) (path : Path) :
    (FailsOnly isReported (Dump.load env.files path) ↔ hasNull path.text = false ∧
      ∀ octets, env.files.octets path = .ok octets → ∃ text, Spells octets text ∧ FitsDump path text) ∧
    (FailsOnly Config.Fault.isConfiguration (Config.load env.files path) ↔ hasNull path.text = false ∧
      ∀ octets, env.files.octets path = .ok octets → ∃ text, Spells octets text ∧ FitsConfig path text) ∧
    (∀ text f, Yaml.read text = .error (.unmade f) → Yaml.Hinders text.toList f) ∧
    (∀ options, Config.load env.files path = .ok options → (options.map Prod.fst).Nodup) ∧
    (∀ name f l format p, Path.ofString name = path → Dump.load env.files path = .error f →
      ((∃ text, lintFile env l format p name = .ok (p.fail text)) ↔
        isReported f = true ∧ ∀ markup, unloadedMarkup env.explain name f = some markup →
          ∃ text, Console.print markup = .ok text)) ∧
    ∀ call f reg log, configPath env.files call.config = .ok (some path) → Config.load env.files path = .error f →
      ((lintLogged env reg call log).exit = 2 ↔
        f.isConfiguration = true ∧
          ∃ text, Console.print ("[red]Configuration error:[/red] " ++ f.message env.explain) = .ok text) := by
  refine ⟨failsOnly_dump env.files path, failsOnly_config env.files path, fun text f => Yaml.hinders_of_readChars,
    fun options => nodup_load, ?_, ?_⟩
  · rintro name f l format p rfl hload
    exact lintFile_unloaded hload l format p
  · intro call f reg log hpath hload
    exact exit_lintLogged_unset hpath hload reg log

/-- A file of one octet that begins no character ends both loaders with a fault of the encoding, which no
handler takes: neither does the run go on after the dump, nor does it end with status 2. -/
theorem stray_octet_unhandled :
    let env : Environment := { files := { entries := [(["a.json"], .file [0xFF])] } }
    let fault : Text.Utf8.Fault := ⟨0xFF, 0, 1, .start⟩
    let call : LintCall := { files := [], config := some "a.json" }
    Dump.load env.files (Path.ofString "a.json") = .error (.text (.encoding fault)) ∧
      Config.load env.files (Path.ofString "a.json") = .error (.encoding fault) ∧
      (finish .json (lintFiles env ⟨[]⟩ .json {} ["a.json"])).escaped = some (.load (.text (.encoding fault))) ∧
      (lintLogged env .builtin call []).exit = 1 := by
  intro env fault call
  have htext : env.files.text (Path.ofString "a.json") = .error (.encoding fault) := by decide +kernel
  refine ⟨?_, ?_, ?_, ?_⟩
  · rw [Dump.load, htext]
  · rw [Config.load, htext]
  · decide +kernel
  · decide +kernel

end CommandLine

end CommentStyle
