import CommentStyle.CommandLine.Run
import CommentStyle.Proofs.Dump.RoundTrip
import Mathlib.Control.Monad.Basic
import Mathlib.Data.List.Induction
import Mathlib.Tactic.ByContra

/-!
# The verdict of a lint run

A run of `lint` threads three accumulators through its files: whether one could not be loaded, how many
diagnostics there are, and the report, which has one place for each path however often the path is given.
This module says what they come to, and with them the exit status and the JSON report of the whole program:

* **`Unloaded`**, **`Linted`** — what can become of one path, by the files and the linter alone.
* **`lintFile_cases`** — the one step: a path that a run gets past is unloaded or linted, and the
  accumulators change accordingly.
* **`Accounts`**, **`Accounts.lintFile`**, **`accounts_lintFiles`** — the invariant of the loop, kept by the
  step and so, by induction on the paths still to come, by the run.
* **`storable_reportData`** — a report whose places can be written is within what JSON takes.
* **`run_lint_verdict`** — the headline: exit status and report of a run from which no fault escapes.
-/

namespace CommentStyle.CommandLine

/-! ## One path -/

/-- The faults of a dump that a run reports and goes on after: the file cannot be opened, or what it holds
is no dump. -/
def isReported : LoadFault → Bool
  | .text (.file _ _) | .read (.dump _) => true
  | .text .nullName | .text (.encoding _) | .read (.json _) | .read (.yaml _) | .read (.unshown _) => false

/-- The dump of a path fails to load, in a way that the run reports. -/
def Unloaded (fs : Files) (path : String) : Prop :=
  ∃ f, Dump.load fs (Path.ofString path) = .error f ∧ isReported f = true

/-- The dump of a path loads, and these are its diagnostics. -/
def Linted (fs : Files) (l : Linter) (path : String) (ds : List Diagnostic) : Prop :=
  ∃ cs, Dump.load fs (Path.ofString path) = .ok cs ∧ l.lint cs = .ok ds

/-- The dump of a path loads. -/
def loads (fs : Files) (path : String) : Bool := (Dump.load fs (Path.ofString path)).toBool

theorem Linted.loads {fs : Files} {l : Linter} {path : String} {ds : List Diagnostic}
    (h : Linted fs l path ds) : loads fs path = true := by
  obtain ⟨cs, hload, -⟩ := h
  rw [CommandLine.loads, hload]
  rfl

theorem Unloaded.loads {fs : Files} {path : String} (h : Unloaded fs path) :
    loads fs path = false := by
  obtain ⟨f, hload, -⟩ := h
  rw [CommandLine.loads, hload]
  rfl

/-- A path has one list of diagnostics. -/
theorem Linted.unique {fs : Files} {l : Linter} {path : String} {ds es : List Diagnostic}
    (hds : Linted fs l path ds) (hes : Linted fs l path es) : ds = es := by
  obtain ⟨cs, hload, hlint⟩ := hds
  obtain ⟨cs', hload', hlint'⟩ := hes
  rw [hload] at hload'
  cases hload'
  rw [hlint] at hlint'
  exact Except.ok.inj hlint'

/-- The run has something to print about exactly the faults that it reports. -/
theorem unloadedMarkup_eq_none_iff (explain : String → String) (path : String) (f : LoadFault) :
    unloadedMarkup explain path f = none ↔ isReported f = false := by
  unfold unloadedMarkup
  split <;> simp [isReported]

/-- **One step of the run.** A path that the run gets past is either unloaded, and then only the flag is
raised, or linted, and then its diagnostics are counted and reported. -/
theorem lintFile_cases {env : Environment} {l : Linter} {format : Format} {p q : Progress} {path : String}
    (hstep : lintFile env l format p path = .ok q) :
    (Unloaded env.files path ∧ q.failed = true ∧ q.total = p.total ∧ q.report = p.report ∧ q.out = p.out) ∨
      ∃ ds, Linted env.files l path ds ∧ q.failed = p.failed ∧ q.total = p.total + ds.length
        ∧ q.report = Progress.insertReport path ds p.report ∧ (format = .json → q.out = p.out) := by
  unfold lintFile at hstep
  cases hload : Dump.load env.files (Path.ofString path) with
  | error f =>
    rw [hload] at hstep
    simp only at hstep
    cases hmarkup : unloadedMarkup env.explain path f with
    | none => simp [hmarkup] at hstep
    | some markup =>
      have hreported : isReported f = true := by
        rw [← Bool.not_eq_false, ← unloadedMarkup_eq_none_iff env.explain path f, hmarkup]
        exact Option.some_ne_none markup
      rw [hmarkup] at hstep
      simp only at hstep
      cases hprint : Console.print markup with
      | error m => simp [hprint] at hstep
      | ok text =>
        rw [hprint] at hstep
        cases hstep
        exact Or.inl ⟨⟨f, hload, hreported⟩, rfl, rfl, rfl, rfl⟩
  | ok cs =>
    rw [hload] at hstep
    simp only at hstep
    cases hlint : l.lint cs with
    | error m => simp [hlint] at hstep
    | ok ds =>
      rw [hlint] at hstep
      refine Or.inr ⟨ds, ⟨cs, hload, hlint⟩, ?_⟩
      cases format with
      | json =>
        cases hstep
        exact ⟨rfl, rfl, rfl, fun _ => rfl⟩
      | table =>
        simp only at hstep
        split at hstep
        · -- the table is printed, which touches no accumulator
          split at hstep
          · exact absurd hstep (by simp)
          · cases hstep
            exact ⟨rfl, rfl, rfl, fun h => absurd h (by decide)⟩
        · exact absurd hstep (by simp)

/-! ## The report -/

theorem mem_insertReport {path : String} {ds : List Diagnostic}
    {report : List (String × List Diagnostic)} {e : String × List Diagnostic}
    (he : e ∈ Progress.insertReport path ds report) : e = (path, ds) ∨ e ∈ report := by
  induction report with
  | nil => exact Or.inl (List.mem_singleton.mp he)
  | cons first rest ih =>
    rw [Progress.insertReport] at he
    split at he
    · next hsame =>
      rcases List.mem_cons.mp he with rfl | hrest
      · exact Or.inl (by rw [hsame])
      · exact Or.inr (List.mem_cons_of_mem _ hrest)
    · rcases List.mem_cons.mp he with rfl | hrest
      · exact Or.inr List.mem_cons_self
      · exact (ih hrest).imp_right (List.mem_cons_of_mem _)

/-- A path already reported keeps its place; a new one goes to the end. -/
theorem keys_insertReport (path : String) (ds : List Diagnostic)
    (report : List (String × List Diagnostic)) :
    (Progress.insertReport path ds report).map Prod.fst
      = if path ∈ report.map Prod.fst then report.map Prod.fst else report.map Prod.fst ++ [path] := by
  induction report with
  | nil => rfl
  | cons first rest ih =>
    rw [Progress.insertReport]
    by_cases hsame : first.1 = path
    · simp [hsame]
    · have hother : path ≠ first.1 := fun h => hsame h.symm
      simp only [hsame, if_false, List.map_cons, ih, List.mem_cons, hother, false_or]
      split <;> rfl

/-- The last of some paths is a first occurrence only if it is not among the others. -/
theorem eraseDups_concat (paths : List String) (path : String) :
    (paths ++ [path]).eraseDups
      = if path ∈ paths.eraseDups then paths.eraseDups else paths.eraseDups ++ [path] := by
  rw [List.eraseDups_append]
  by_cases hmem : path ∈ paths
  · simp [List.removeAll, hmem]
  · simp [List.removeAll, hmem, List.eraseDups_cons]

/-- Names stay different when one is added that is not yet among them. -/
theorem nodup_concat_of_new {names : List String} (h : names.Nodup) (name : String) :
    (if name ∈ names then names else names ++ [name]).Nodup := by
  split
  · exact h
  · next hnew =>
    refine List.nodup_append.mpr ⟨h, by simp, fun a ha b hb => ?_⟩
    rw [List.mem_singleton.mp hb]
    rintro rfl
    exact hnew ha

theorem nodup_eraseDups (paths : List String) : paths.eraseDups.Nodup := by
  induction paths using List.reverseRecOn with
  | nil => simp
  | append_singleton paths path ih =>
    rw [eraseDups_concat]
    exact nodup_concat_of_new ih path

/-! ## The loop over the paths -/

/-- What the accumulators hold once some paths were gone through. -/
structure Accounts (fs : Files) (l : Linter) (paths : List String) (p : Progress) : Prop where
  failed : p.failed = true ↔ ∃ path ∈ paths, Unloaded fs path
  total : 0 < p.total ↔ ∃ path ∈ paths, ∃ ds, Linted fs l path ds ∧ ds ≠ []
  keys : p.report.map Prod.fst = (paths.filter (loads fs)).eraseDups
  entries : ∀ e ∈ p.report, Linted fs l e.1 e.2
  settled : ∀ path ∈ paths, Unloaded fs path ∨ ∃ ds, Linted fs l path ds

namespace Accounts

variable {env : Environment} {l : Linter} {format : Format}

theorem start (fs : Files) (log : List LogRecord) : Accounts fs l [] { log } where
  failed := by simp
  total := by simp
  keys := rfl
  entries := by simp
  settled := by simp

/-- The step keeps the account. -/
theorem lintFile {paths : List String} {p q : Progress} {path : String} (h : Accounts env.files l paths p)
    (hstep : lintFile env l format p path = .ok q) : Accounts env.files l (paths ++ [path]) q := by
  rcases lintFile_cases hstep with ⟨hpath, hfailed, htotal, hreport, -⟩ |
    ⟨ds, hpath, hfailed, htotal, hreport, -⟩
  · -- an unloaded path has no diagnostics and no place in the report
    have hnone : ∀ ds, ¬ Linted env.files l path ds := fun ds hds => by
      have := hds.loads
      rw [hpath.loads] at this
      exact absurd this (by decide)
    refine ⟨?_, ?_, ?_, ?_, ?_⟩
    · exact ⟨fun _ => ⟨path, by simp, hpath⟩, fun _ => hfailed⟩
    · rw [htotal, h.total]
      simp [or_and_right, exists_or, hnone]
    · rw [hreport, h.keys, List.filter_append]
      simp [hpath.loads]
    · rw [hreport]
      exact h.entries
    · intro x hx
      rcases List.mem_append.mp hx with hx | hx
      · exact h.settled x hx
      · rw [List.mem_singleton.mp hx]
        exact Or.inl hpath
  · -- a linted path is in the report, at the place of its first occurrence
    have hloads := hpath.loads
    have hloaded : ¬ Unloaded env.files path := fun hun => by
      rw [hun.loads] at hloads
      exact absurd hloads (by decide)
    refine ⟨?_, ?_, ?_, ?_, ?_⟩
    · rw [hfailed, h.failed]
      simp [or_and_right, exists_or, hloaded]
    · -- the count grows exactly when this path has diagnostics
      have hself : (∃ es, Linted env.files l path es ∧ es ≠ []) ↔ 0 < ds.length := by
        rw [List.length_pos_iff]
        exact ⟨fun ⟨es, hes, hne⟩ => hpath.unique hes ▸ hne, fun hne => ⟨ds, hpath, hne⟩⟩
      have hgrown : 0 < q.total ↔ 0 < p.total ∨ 0 < ds.length := by omega
      rw [hgrown, h.total, ← hself]
      simp [or_and_right, exists_or]
    · rw [hreport, keys_insertReport, h.keys, List.filter_append,
        show [path].filter (loads env.files) = [path] by simp [hloads], eraseDups_concat]
    · intro e he
      rw [hreport] at he
      rcases mem_insertReport he with rfl | he
      · exact hpath
      · exact h.entries e he
    · intro x hx
      rcases List.mem_append.mp hx with hx | hx
      · exact h.settled x hx
      · rw [List.mem_singleton.mp hx]
        exact Or.inr ⟨ds, hpath⟩

end Accounts

/-- **The run keeps the account**, by induction on the paths still to come. -/
theorem accounts_lintFiles {env : Environment} {l : Linter} {format : Format} {p q : Progress}
    {done paths : List String} (h : Accounts env.files l done p)
    (hrun : lintFiles env l format p paths = .ok q) : Accounts env.files l (done ++ paths) q := by
  induction paths generalizing p done with
  | nil =>
    rw [lintFiles] at hrun
    cases hrun
    rwa [List.append_nil]
  | cons path rest ih =>
    rw [lintFiles] at hrun
    cases hstep : CommandLine.lintFile env l format p path with
    | error e => simp [hstep] at hrun
    | ok p' =>
      rw [hstep] at hrun
      have hrest := ih (h.lintFile hstep) hrun
      rwa [List.append_assoc, List.singleton_append] at hrest

/-- With a JSON report nothing is printed before the end. -/
theorem out_lintFiles_json {env : Environment} {l : Linter} {p q : Progress} {paths : List String}
    (hrun : lintFiles env l .json p paths = .ok q) : q.out = p.out := by
  induction paths generalizing p with
  | nil =>
    rw [lintFiles] at hrun
    cases hrun
    rfl
  | cons path rest ih =>
    rw [lintFiles] at hrun
    cases hstep : lintFile env l .json p path with
    | error e => simp [hstep] at hrun
    | ok p' =>
      rw [hstep] at hrun
      rw [ih hrun]
      rcases lintFile_cases hstep with ⟨-, -, -, -, hout⟩ | ⟨ds, -, -, -, -, hout⟩
      · exact hout
      · exact hout rfl

/-! ## The report as JSON -/

theorem storable_diagnosticData {room : Nat} {d : Diagnostic} (hd : d.location.isWritable = true) :
    Json.Storable (room + 1) (diagnosticData d) := by
  obtain ⟨hline, hcolumn⟩ := Bool.and_eq_true_iff.mp hd
  refine .map [("severity", .str d.severity.name), ("code", .str d.code), ("message", .str d.message),
    ("line", d.location.line.toValue), ("column", d.location.column.toValue), ("rule", .str d.rule)]
    (show ["severity", "code", "message", "line", "column", "rule"].Nodup by decide) ?_
  simp [Json.Storable.str, Dump.storable_toValue hline, Dump.storable_toValue hcolumn]

/-- A report whose places can be written, and which names no path twice, can be stored. -/
theorem storable_reportData {report : List (String × List Diagnostic)}
    (hnames : (report.map Prod.fst).Nodup) (hplaces : ∀ e ∈ report, writable e.2 = true) :
    Json.Storable 990 (reportData report) := by
  have hmembers : reportData report
      = .map ((report.map fun e => (e.1, Value.list (e.2.map diagnosticData))).map Json.member) := by
    simp [reportData, Json.member, Function.comp_def]
  rw [hmembers]
  refine .map _ (by simpa [Function.comp_def] using hnames) fun m hm => ?_
  obtain ⟨e, he, rfl⟩ := List.mem_map.mp hm
  refine .list fun x hx => ?_
  obtain ⟨d, hd, rfl⟩ := List.mem_map.mp hx
  exact storable_diagnosticData (List.all_eq_true.mp (hplaces e he) d hd)

/-! ## From the arguments to the files -/

/-- What a linting comes to when no fault escapes: no linter can be set up from the configuration, or the
files are gone through to the end and everything in the report can be written. -/
inductive Concludes (env : Environment) (reg : Registry) (call : LintCall) (o : Outcome) : Prop where
  | unset {f : SettingFault} (hsetting : linter env.files reg call.config = .error f)
      (hconfig : f.isConfiguration = true) (hexit : o.exit = 2)
  | finished {l : Linter} {log : List LogRecord} {q : Progress}
      (hsetting : linter env.files reg call.config = .ok l)
      (hrun : lintFiles env l call.format { log } call.files = .ok q)
      (hplaces : ∀ e ∈ q.report, writable e.2 = true)
      (hexit : o.exit = status q) (hout : o.out = q.out ++ closing call.format q)

/-- What a run over the files comes to when no fault escapes. -/
theorem exists_of_escaped_finish {env : Environment} {l : Linter} {format : Format} {log : List LogRecord}
    {paths : List String}
    (hquiet : (finish format (lintFiles env l format { log } paths)).escaped = none) :
    ∃ q, lintFiles env l format { log } paths = .ok q ∧ (∀ e ∈ q.report, writable e.2 = true) ∧
      finish format (lintFiles env l format { log } paths)
        = { exit := status q, out := q.out ++ closing format q, err := q.err, log := q.log } := by
  cases hrun : lintFiles env l format { log } paths with
  | error e => simp [hrun, finish, broken] at hquiet
  | ok q =>
    rw [hrun, finish] at hquiet
    by_cases hplaces : (q.report.all fun e => writable e.2) = true
    · exact ⟨q, rfl, List.all_eq_true.mp hplaces, by rw [finish, if_pos hplaces]⟩
    · rw [if_neg hplaces] at hquiet
      exact absurd hquiet (Option.some_ne_none _)

theorem concludes_lintLogged {env : Environment} {reg : Registry} {call : LintCall} {log : List LogRecord}
    (hquiet : (lintLogged env reg call log).escaped = none) :
    Concludes env reg call (lintLogged env reg call log) := by
  unfold lintLogged at hquiet ⊢
  cases hsetting : linter env.files reg call.config with
  | error f =>
    simp only [hsetting, unsettled] at hquiet ⊢
    by_cases hconfig : f.isConfiguration = true
    · -- there is a message and it is printed, or the fault in it would have escaped
      rw [if_pos hconfig] at hquiet ⊢
      cases htext : f.text env.explain with
      | error raised => simp [htext] at hquiet
      | ok text =>
        simp only [htext] at hquiet ⊢
        cases hprint : Console.print ("[red]Configuration error:[/red] " ++ text) with
        | error m => simp [hprint] at hquiet
        | ok text => exact .unset hsetting hconfig rfl
    · rw [if_neg hconfig] at hquiet
      exact absurd hquiet (by simp)
  | ok l =>
    simp only [hsetting] at hquiet ⊢
    obtain ⟨q, hrun, hplaces, hend⟩ := exists_of_escaped_finish hquiet
    rw [hend]
    exact .finished hsetting hrun hplaces rfl rfl

theorem concludes_lintWith {env : Environment} {reg : Registry} {call : LintCall}
    (hquiet : (lintWith env reg call).escaped = none) :
    Concludes env reg call (lintWith env reg call) := by
  unfold lintWith at hquiet ⊢
  by_cases hverbose : call.verbose = true
  · rw [if_pos hverbose] at hquiet ⊢
    cases hshown : unshownOption env.files reg call.config with
    | some f => simp [hshown] at hquiet
    | none =>
      simp only [hshown] at hquiet ⊢
      exact concludes_lintLogged hquiet
  · rw [if_neg hverbose] at hquiet ⊢
    exact concludes_lintLogged hquiet

/-- The rules a run has: the built-in ones and those of the installed packages. -/
def installed (env : Environment) : Registry := (Registry.builtin.load ruleGroup env.entryPoints).registry

theorem concludes_runLint {env : Environment} {call : LintCall}
    (hquiet : (runLint env call).escaped = none) :
    Concludes env (installed env) call (runLint env call) := by
  unfold runLint at hquiet ⊢
  cases hloaded : (Registry.builtin.load ruleGroup env.entryPoints).fault with
  | some m => simp [hloaded] at hquiet
  | none =>
    simp only [hloaded] at hquiet ⊢
    -- only the log differs from that of the linting itself
    cases concludes_lintWith hquiet with
    | unset hsetting hconfig hexit => exact .unset hsetting hconfig hexit
    | finished hsetting hrun hplaces hexit hout => exact .finished hsetting hrun hplaces hexit hout

/-- What is kept of the log is all that being verbose decides. -/
theorem exists_outcome_logged (verbose : Bool) (o : Outcome) :
    ∃ log, (logged verbose o).outcome = { o with log := log } := by
  cases verbose with
  | true => exact ⟨o.log, rfl⟩
  | false => exact ⟨o.log.filter LogRecord.isNotable, rfl⟩

/-- The program runs `lint` when its arguments ask for that; being verbose changes the log only. -/
theorem exists_outcome_run (env : Environment) (host : Host) {args : List String} {r : Request}
    {call : LintCall} (hrequest : request args = .ok r)
    (hparse : r.command.parse r.args = .ok (.lint call)) :
    ∃ log, (run env host args).outcome
      = { runLint env { call with verbose := r.verbose || call.verbose } with log := log } := by
  have hargs : args ≠ [] := by
    rintro rfl
    have hmissing : request [] = .error (.fault .missingCommand) := rfl
    rw [hmissing] at hrequest
    exact absurd hrequest (by simp)
  unfold run
  rw [if_neg hargs, hrequest]
  simp only [hparse, Call.within, runCall]
  exact exists_outcome_logged _ _

theorem concludes_run {env : Environment} {host : Host} {args : List String} {r : Request}
    {call : LintCall} (hrequest : request args = .ok r)
    (hparse : r.command.parse r.args = .ok (.lint call))
    (hquiet : (run env host args).outcome.escaped = none) :
    Concludes env (installed env) call (run env host args).outcome := by
  obtain ⟨log, hrun⟩ := exists_outcome_run env host hrequest hparse
  rw [hrun] at hquiet ⊢
  cases concludes_runLint hquiet with
  | unset hsetting hconfig hexit => exact .unset hsetting hconfig hexit
  | finished hsetting hrun hplaces hexit hout => exact .finished hsetting hrun hplaces hexit hout

/-! ## The verdict -/

theorem status_eq_one_iff (p : Progress) : status p = 1 ↔ p.failed = true ∨ 0 < p.total := by
  unfold status
  split <;> simp_all

theorem status_eq_zero_iff (p : Progress) : status p = 0 ↔ ¬ (p.failed = true ∨ 0 < p.total) := by
  unfold status
  split <;> simp_all

theorem status_ne_two (p : Progress) : status p ≠ 2 := by
  unfold status
  split <;> decide

/-- Nothing failed and nothing was found exactly when every path is in the report, with nothing under
it. -/
theorem Accounts.clean_iff {fs : Files} {l : Linter} {paths : List String} {q : Progress}
    (h : Accounts fs l paths q) :
    ¬ (q.failed = true ∨ 0 < q.total) ↔
      (∀ path ∈ paths, path ∈ q.report.map Prod.fst) ∧ ∀ e ∈ q.report, e.2 = [] := by
  have hkey : ∀ path, path ∈ q.report.map Prod.fst ↔ path ∈ paths ∧ loads fs path = true := by
    intro path
    rw [h.keys]
    simp
  rw [h.failed, h.total]
  constructor
  · intro hclean
    rw [not_or] at hclean
    refine ⟨fun path hpath => ?_, fun e he => ?_⟩
    · rcases h.settled path hpath with hun | ⟨ds, hds⟩
      · exact absurd ⟨path, hpath, hun⟩ hclean.1
      · exact (hkey path).mpr ⟨hpath, hds.loads⟩
    · have hpath : e.1 ∈ paths := ((hkey e.1).mp (List.mem_map_of_mem he)).1
      -- what is under a key was found in its file
      by_contra hne
      exact hclean.2 ⟨e.1, hpath, e.2, h.entries e he, hne⟩
  · rintro ⟨hall, hempty⟩ (⟨path, hpath, hun⟩ | ⟨path, hpath, ds, hds, hne⟩)
    · have hloads := ((hkey path).mp (hall path hpath)).2
      rw [hun.loads] at hloads
      exact absurd hloads (by decide)
    · obtain ⟨e, he, rfl⟩ := List.mem_map.mp (hall path hpath)
      rw [hds.unique (h.entries e he)] at hne
      exact hne (hempty e he)

/-- **The verdict of a run.** Let the arguments ask for a linting, and let no fault escape. The status is 2
exactly when the configuration is at fault, in its file or in what it asks of the rules. Otherwise a linter
is set up, and the status is 1 exactly when some path fails to load or has diagnostics, and 0 in all other
cases. With a JSON report the output is then one JSON text, and reads as a mapping that has the paths that
load as its keys, each once and in the order of first occurrence, with the data of their diagnostics as
values; so the status is 0 exactly when every path is a key and every value is empty. -/
theorem run_lint_verdict (env : Environment) (host : Host) (args : List String) (r : Request)
    (call : LintCall) (hrequest : request args = .ok r)
    (hparse : r.command.parse r.args = .ok (.lint call))
    (hquiet : (run env host args).outcome.escaped = none) :
    let o := (run env host args).outcome
    (o.exit = 2 ↔ ∃ f, linter env.files (installed env) call.config = .error f
        ∧ f.isConfiguration = true) ∧
      (o.exit ≠ 2 → ∃ l, linter env.files (installed env) call.config = .ok l ∧
        (o.exit = 1 ↔ (∃ path ∈ call.files, Unloaded env.files path)
          ∨ ∃ path ∈ call.files, ∃ ds, Linted env.files l path ds ∧ ds ≠ []) ∧
        (o.exit = 0 ∨ o.exit = 1) ∧
        (call.format = .json → ∃ report : List (String × List Diagnostic),
          Json.read o.out = .ok (.map (report.map fun e =>
            (.str e.1, .list (e.2.map diagnosticData)))) ∧
          report.map Prod.fst = (call.files.filter (loads env.files)).eraseDups ∧
          (∀ e ∈ report, Linted env.files l e.1 e.2) ∧
          (o.exit = 0 ↔ (∀ path ∈ call.files, path ∈ report.map Prod.fst)
            ∧ ∀ e ∈ report, e.2 = []))) := by
  intro o
  cases concludes_run hrequest hparse hquiet with
  | @unset f hsetting hconfig hexit =>
    exact ⟨⟨fun _ => ⟨f, hsetting, hconfig⟩, fun _ => hexit⟩, fun hne => absurd hexit hne⟩
  | @finished l log q hsetting hrun hplaces hexit hout =>
    have haccounts : Accounts env.files l call.files q := accounts_lintFiles (.start env.files log) hrun
    refine ⟨⟨fun h => ?_, fun ⟨f, hf, _⟩ => ?_⟩, fun _ => ⟨l, hsetting, ?_, ?_, fun hjson => ?_⟩⟩
    · exact absurd (hexit ▸ h) (status_ne_two q)
    · rw [hsetting] at hf
      exact absurd hf (by simp)
    · rw [show o.exit = status q from hexit, status_eq_one_iff, haccounts.failed, haccounts.total]
    · rw [show o.exit = status q from hexit, status_eq_zero_iff, status_eq_one_iff]
      exact (Classical.em _).symm
    · -- the report can be stored, and nothing else is printed
      have hnames : (q.report.map Prod.fst).Nodup := by
        rw [haccounts.keys]
        exact nodup_eraseDups _
      have htext : o.out = Json.render (.lines 2) (reportData q.report) ++ "\n" := by
        rw [show o.out = q.out ++ closing call.format q from hout]
        rw [hjson] at hrun ⊢
        rw [out_lintFiles_json hrun]
        exact String.empty_append
      refine ⟨q.report, ?_, haccounts.keys, haccounts.entries, ?_⟩
      · rw [htext]
        exact Json.read_render_line (storable_reportData hnames hplaces) (.lines 2)
      · rw [show o.exit = status q from hexit, status_eq_zero_iff, haccounts.clean_iff]

/-- A run over a dump with a finding, a path that leads nowhere and the first path once more: the second
fails, and the report has one entry. -/
theorem run_lint_verdict_repeated_path :
    let dump := "[\x7b\"value\": \"say \\\"hi\\\"\", \"loc\": \x7b\"start\": \x7b\"line\": true\x7d\x7d\x7d]"
    let octets := dump.toList.map fun c => c.toNat.toUInt8
    let env : Environment := { files := { entries := [(["ä"], .file octets)] } }
    let args := ["lint", "ä", "--format=JSON", "gone", "ä"]
    let call : LintCall := { files := ["ä", "gone", "ä"], format := .json }
    let o := (run env ⟨"", ""⟩ args).outcome
    request args = .ok ⟨false, .lint, args.tail⟩ ∧ Command.lint.parse args.tail = .ok (.lint call) ∧
      o.escaped = none ∧ o.exit ≠ 2 ∧
        ∃ l, linter env.files (installed env) none = .ok l ∧
          (o.exit = 1 ↔ (∃ path ∈ call.files, Unloaded env.files path)
            ∨ ∃ path ∈ call.files, ∃ ds, Linted env.files l path ds ∧ ds ≠ []) ∧
          ∃ report : List (String × List Diagnostic),
            Json.read o.out = .ok (.map (report.map fun e =>
              (.str e.1, .list (e.2.map diagnosticData)))) ∧
            report.map Prod.fst = (call.files.filter (loads env.files)).eraseDups := by
  intro dump octets env args call o
  have hrequest : request args = .ok ⟨false, .lint, args.tail⟩ := rfl
  have hparse : Command.lint.parse args.tail = .ok (.lint call) := by decide +kernel
  have hquiet : o.escaped = none := by decide +kernel
  have hexit : o.exit ≠ 2 := by decide +kernel
  obtain ⟨l, hl, hone, -, hjson⟩ :=
    (run_lint_verdict env ⟨"", ""⟩ args _ call hrequest hparse hquiet).2 hexit
  obtain ⟨report, hread, hkeys, -, -⟩ := hjson rfl
  exact ⟨hrequest, hparse, hquiet, hexit, l, hl, hone, report, hread, hkeys⟩

end CommentStyle.CommandLine
