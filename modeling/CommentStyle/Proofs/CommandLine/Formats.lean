import CommentStyle.Proofs.CommandLine.Verdict
import CommentStyle.Proofs.Console.Markup

/-!
# The verdict and the format of the report

A run of `lint` gives a table for each file or one JSON text, and should come to the same verdict either way.
The two ways part at each linted file: a table run prints the path and the texts of the diagnostics as markup,
a JSON run keeps them as data. This module says exactly when that makes a difference.

* **`Shows`**, **`fileText_ok_iff`** — what a table run prints of a file can be printed, said by the path, the
  codes and the messages; severities and places never stand in the way.
* **`Passes`**, **`lintFile_ok_iff`**, **`lintFiles_ok_iff`** — a run gets past a path or not whatever it has
  gathered so far, so that it gets to the end exactly when it gets past every path.
* **`passes_table_iff`** — the formats compared at one path.
* **`total_lintFiles`** — where no path is given twice, as many diagnostics are counted as are reported.
* **`SameVerdict`**, **`sameVerdict_finish_iff`** — the formats compared over all files.
* **`formats_agree_iff`** — the headline; **`unmatched_tag_splits_formats`** is a path on which they differ.
-/

namespace CommentStyle.CommandLine

open CommentStyle.Console (WellMarked wellMarked_of_notMem)

/-! ## What is printed of a file -/

/-- What a table run prints of a linted file is well marked: the line about a clean file, which has the path
in it, or the title of the table, which ends in the path, with the code and the message of each diagnostic. -/
def Shows (path : String) (ds : List Diagnostic) : Prop :=
  if ds = [] then WellMarked ("[green]OK[/green] " ++ path ++ " — no lint issues found")
  else WellMarked ("Lint: " ++ path) ∧ ∀ d ∈ ds, WellMarked d.code ∧ WellMarked d.message

theorem wellMarked_severity (s : Severity) :
    WellMarked ("[" ++ severityStyle s ++ "]" ++ s.name ++ "[/" ++ severityStyle s ++ "]") := by
  cases s <;> decide +kernel

theorem bracket_notMem_ordinal (o : Ordinal) : '[' ∉ o.text.toList := by
  cases o with
  | flag b => cases b <;> decide
  | number n =>
    show '[' ∉ (toString n).toList
    rw [Json.toList_toString, List.mem_append, not_or]
    constructor
    · split <;> decide
    · exact fun h => absurd (Json.isDigit_of_mem_toDigits h) (by decide)

theorem wellMarked_location (p : Position) : WellMarked p.text := by
  refine wellMarked_of_notMem ?_
  show '[' ∉ (p.line.text ++ ":" ++ p.column.text).toList
  rw [String.toList_append, String.toList_append, List.mem_append, List.mem_append, not_or, not_or]
  exact ⟨⟨bracket_notMem_ordinal p.line, by decide⟩, bracket_notMem_ordinal p.column⟩

/-- A table of diagnostics needs only its title and their codes and messages to be well marked. -/
theorem print_diagnosticTable_ok_iff (path : String) (ds : List Diagnostic) :
    (∃ text, (diagnosticTable path ds).print = .ok text) ↔
      WellMarked ("Lint: " ++ path) ∧ ∀ d ∈ ds, WellMarked d.code ∧ WellMarked d.message := by
  have hnames : WellMarked "Severity" ∧ WellMarked "Code" ∧ WellMarked "Location" ∧ WellMarked "Message" := by
    decide +kernel
  rw [Console.Table.print_ok_iff, Console.Table.layAll_ok_iff, and_comm]
  refine and_congr_right fun _ => ?_
  simp only [diagnosticTable, List.zipIdx_cons, List.zipIdx_nil, List.forall_mem_cons, List.forall_mem_map,
    hnames, true_and, cellsOf, List.getD_cons_zero, List.getD_cons_succ, Nat.zero_add, Nat.reduceAdd]
  constructor
  · rintro ⟨-, hcodes, -, hmessages, -⟩ d hd
    exact ⟨hcodes d hd, hmessages d hd⟩
  · intro h
    exact ⟨fun d _ => wellMarked_severity d.severity, fun d hd => (h d hd).1,
      fun d _ => wellMarked_location d.location, fun d hd => (h d hd).2, by simp⟩

theorem fileText_ok_iff (path : String) (ds : List Diagnostic) :
    (∃ text, fileText path ds = .ok text) ↔ Shows path ds := by
  unfold fileText Shows
  cases ds with
  | nil => exact Console.print_ok_iff _
  | cons d ds => exact print_diagnosticTable_ok_iff path (d :: ds)

/-- A path without an opening bracket does not disturb the line about a clean file. -/
theorem wellMarked_clean {path : String} (hpath : '[' ∉ path.toList) :
    WellMarked ("[green]OK[/green] " ++ path ++ " — no lint issues found") := by
  let rest := path.toList ++ " — no lint issues found".toList
  have hrest : '[' ∉ rest := by
    rw [List.mem_append, not_or]
    exact ⟨hpath, by decide⟩
  have hmarkup : ("[green]OK[/green] " ++ path ++ " — no lint issues found").toList
      = "[green]OK[/green] ".toList ++ rest := by
    rw [String.toList_append, String.toList_append, List.append_assoc]
  have hpieces : Console.Markup.pieces 0 0 0 ("[green]OK[/green] ".toList ++ rest)
      = .tag "green".toList 0 :: .char 'O' :: .char 'K' :: .tag "/green".toList 9 :: .char ' '
        :: Console.Markup.pieces 18 0 0 rest := rfl
  have hchars : ∀ p ∈ Console.Markup.pieces 18 0 0 rest, ∃ c, p = .char c := fun _ hpiece =>
    Console.Markup.char_of_mem_pieces hrest hpiece
  obtain ⟨text, htext⟩ := Console.Markup.exists_print_of_char hchars []
  have hopen : Console.styleName (Console.Markup.tagName "green".toList) = .ok "green".toList := by
    decide +kernel
  have hclose : Console.styleName (Text.trim "green".toList) = .ok "green".toList := by decide +kernel
  have hprint : Console.Markup.print [] (Console.Markup.pieces 0 0 0 ("[green]OK[/green] ".toList ++ rest))
      = .ok ("OK ".toList ++ text) := by
    rw [hpieces, Console.Markup.print_open (by intro written h; cases h) hopen, Console.Markup.print,
      Console.Markup.print, Console.Markup.print_close rfl (by decide) hclose rfl, Console.Markup.print, htext]
    rfl
  have hstyle : Console.Markup.styleOf "green".toList = .ok "green".toList := by decide +kernel
  have hstyles : Console.Markup.checkStyles (Console.Markup.pieces 0 0 0 ("[green]OK[/green] ".toList ++ rest))
      = .ok () := by
    rw [hpieces, Console.Markup.checkStyles, hstyle]
    change Console.Markup.checkStyles (Console.Markup.pieces 18 0 0 rest) = _
    exact Console.Markup.checkStyles_of_char hchars
  exact ⟨_, by simp only [Console.plain, hmarkup, hprint, hstyles]; rfl⟩

theorem shows_of_notMem {path : String} {ds : List Diagnostic} (hpath : '[' ∉ path.toList)
    (hds : ∀ d ∈ ds, '[' ∉ d.code.toList ∧ '[' ∉ d.message.toList) : Shows path ds := by
  unfold Shows
  split
  · exact wellMarked_clean hpath
  · refine ⟨wellMarked_of_notMem ?_, fun d hd => ?_⟩
    · rw [String.toList_append, List.mem_append, not_or]
      exact ⟨by decide, hpath⟩
    · exact ⟨wellMarked_of_notMem (hds d hd).1, wellMarked_of_notMem (hds d hd).2⟩

/-! ## Which paths a run gets past -/

/-- The run gets past the path: its dump does not load and that can be reported, or it is linted and, where
tables are asked for, its diagnostics can be printed. -/
def Passes (env : Environment) (l : Linter) (format : Format) (path : String) : Prop :=
  (∃ f markup, Dump.load env.files (Path.ofString path) = .error f ∧ unloadedMarkup env.explain path f = some markup
      ∧ WellMarked markup) ∨
    ∃ ds, Linted env.files l path ds ∧ (format = .table → writable ds = true ∧ Shows path ds)

section Loop

variable (env : Environment) (l : Linter)

/-- **One path.** Whether the run gets past it does not depend on what it has gathered so far. -/
theorem lintFile_ok_iff (format : Format) (p : Progress) (path : String) :
    (∃ q, lintFile env l format p path = .ok q) ↔ Passes env l format path := by
  unfold lintFile Passes Linted
  cases hload : Dump.load env.files (Path.ofString path) with
  | error f =>
    cases hmarkup : unloadedMarkup env.explain path f with
    | none => simp [hmarkup]
    | some markup =>
      have hprint := Console.print_ok_iff markup
      cases hresult : Console.print markup with
      | error m =>
        have hunmarked : ¬ WellMarked markup := by rw [← hprint, hresult]; simp
        simp [hmarkup, hresult, hunmarked]
      | ok text =>
        have hmarked : WellMarked markup := hprint.mp ⟨text, hresult⟩
        simp [hmarkup, hresult, hmarked]
  | ok cs =>
    cases hlint : l.lint cs with
    | error m => simp [hlint]
    | ok ds =>
      cases format with
      | json => simp [hlint]
      | table =>
        -- the numbers of all places are written first, then the texts are read as markup
        by_cases hplaces : writable ds = true
        · have hfile := fileText_ok_iff path ds
          cases hresult : fileText path ds with
          | error m =>
            have hhidden : ¬ Shows path ds := by rw [← hfile, hresult]; simp
            simp [hlint, hplaces, hresult, hhidden]
          | ok text =>
            have hshown : Shows path ds := hfile.mp ⟨text, hresult⟩
            simp [hlint, hplaces, hresult, hshown]
        · simp [hlint, hplaces]

/-- **All paths**, by induction: the run gets to the end exactly when it gets past each of them. -/
theorem lintFiles_ok_iff (format : Format) (p : Progress) (paths : List String) :
    (∃ q, lintFiles env l format p paths = .ok q) ↔ ∀ path ∈ paths, Passes env l format path := by
  induction paths generalizing p with
  | nil => simp [lintFiles]
  | cons path rest ih =>
    have hone := lintFile_ok_iff env l format p path
    rw [lintFiles, List.forall_mem_cons]
    cases hstep : lintFile env l format p path with
    | error e =>
      have hstopped : ¬ Passes env l format path := by rw [← hone, hstep]; simp
      simp [hstopped]
    | ok q =>
      have hpassed : Passes env l format path := hone.mp ⟨q, hstep⟩
      rw [and_iff_right hpassed]
      exact ih q

end Loop

section Compared

variable {fs : Files} {env : Environment} {l : Linter}

/-- **The formats at one path.** A table run gets past a path exactly when a JSON run does and, if the path is
linted, its diagnostics can be written and shown. -/
theorem passes_table_iff (path : String) :
    Passes env l .table path ↔ Passes env l .json path ∧
      ∀ ds, Linted env.files l path ds → writable ds = true ∧ Shows path ds := by
  unfold Passes
  constructor
  · rintro (⟨f, markup, hload, hfault⟩ | ⟨ds, hds, htable⟩)
    · refine ⟨Or.inl ⟨f, markup, hload, hfault⟩, fun ds hds => ?_⟩
      obtain ⟨cs, hloaded, -⟩ := hds
      rw [hload] at hloaded
      exact absurd hloaded (by simp)
    · refine ⟨Or.inr ⟨ds, hds, fun h => absurd h (by decide)⟩, fun es hes => ?_⟩
      rw [← hds.unique hes]
      exact htable rfl
  · rintro ⟨hfault | ⟨ds, hds, -⟩, hall⟩
    · exact Or.inl hfault
    · exact Or.inr ⟨ds, hds, fun _ => hall ds hds⟩

/-! ## What is reported -/

theorem insertReport_of_notMem {path : String} {report : List (String × List Diagnostic)}
    (hpath : path ∉ report.map Prod.fst) (ds : List Diagnostic) :
    Progress.insertReport path ds report = report ++ [(path, ds)] := by
  induction report with
  | nil => rfl
  | cons first rest ih =>
    rw [List.map_cons, List.mem_cons, not_or] at hpath
    rw [Progress.insertReport, if_neg (Ne.symm hpath.1), ih hpath.2, List.cons_append]

/-- **The count and the report.** As long as every path is new, each step adds as much to the count as to the
report. -/
theorem total_lintFiles {format : Format} {p q : Progress} {paths : List String} (hdistinct : paths.Nodup)
    (hnew : ∀ path ∈ paths, path ∉ p.report.map Prod.fst)
    (hp : p.total = (p.report.flatMap Prod.snd).length)
    (hrun : lintFiles env l format p paths = .ok q) : q.total = (q.report.flatMap Prod.snd).length := by
  induction paths generalizing p with
  | nil =>
    rw [lintFiles] at hrun
    cases hrun
    exact hp
  | cons path rest ih =>
    obtain ⟨hpath, hrest⟩ := List.nodup_cons.mp hdistinct
    obtain ⟨hfirst, hlater⟩ := List.forall_mem_cons.mp hnew
    rw [lintFiles] at hrun
    cases hstep : lintFile env l format p path with
    | error e => simp [hstep] at hrun
    | ok p' =>
      rw [hstep] at hrun
      rcases lintFile_cases hstep with ⟨-, -, htotal, hreport, -⟩ | ⟨ds, -, -, htotal, hreport, -⟩
      · refine ih hrest ?_ ?_ hrun
        · rwa [hreport]
        · rw [htotal, hreport, hp]
      · -- a path linted again would be counted twice and reported once
        rw [insertReport_of_notMem hfirst] at hreport
        refine ih hrest (fun x hx => ?_) ?_ hrun
        · rw [hreport, List.map_append, List.mem_append, not_or]
          refine ⟨hlater x hx, fun hmem => hpath ?_⟩
          rw [← show x = path from List.mem_singleton.mp hmem]
          exact hx
        · rw [htotal, hreport, hp, List.flatMap_append, List.length_append, List.flatMap_singleton]

/-- The reports of two runs over the same paths are the same. -/
theorem report_unique {report other : List (String × List Diagnostic)}
    (hkeys : report.map Prod.fst = other.map Prod.fst) (h : ∀ e ∈ report, Linted fs l e.1 e.2)
    (hother : ∀ e ∈ other, Linted fs l e.1 e.2) : report = other := by
  induction report generalizing other with
  | nil => exact (List.map_eq_nil_iff.mp hkeys.symm).symm
  | cons e report ih =>
    cases other with
    | nil => simp at hkeys
    | cons e' other =>
      obtain ⟨hkey, hrest⟩ := List.cons.inj hkeys
      obtain ⟨he, hreport⟩ := List.forall_mem_cons.mp h
      obtain ⟨he', hother⟩ := List.forall_mem_cons.mp hother
      have hsame : e = e' := Prod.ext hkey (he.unique (hkey ▸ he'))
      rw [hsame, ih hrest hreport hother]

theorem Accounts.status_eq {paths : List String} {p q : Progress} (hp : Accounts fs l paths p)
    (hq : Accounts fs l paths q) : status p = status q := by
  have hfails : (p.failed = true ∨ 0 < p.total) ↔ (q.failed = true ∨ 0 < q.total) := by
    rw [hp.failed, hp.total, hq.failed, hq.total]
  unfold status
  simp only [hfails]

/-- Everything in the report can be written exactly when the diagnostics of every linted path can. -/
theorem Accounts.writable_iff {paths : List String} {q : Progress} (h : Accounts fs l paths q) :
    (∀ e ∈ q.report, writable e.2 = true) ↔
      ∀ path ∈ paths, ∀ ds, Linted fs l path ds → writable ds = true := by
  have hkey : ∀ path, path ∈ q.report.map Prod.fst ↔ path ∈ paths ∧ loads fs path = true := fun path => by
    rw [h.keys]
    simp
  constructor
  · intro hreport path hpath ds hds
    obtain ⟨e, he, rfl⟩ := List.mem_map.mp ((hkey path).mpr ⟨hpath, hds.loads⟩)
    rw [hds.unique (h.entries e he)]
    exact hreport e he
  · intro hpaths e he
    exact hpaths e.1 ((hkey e.1).mp (List.mem_map_of_mem he)).1 e.2 (h.entries e he)

end Compared

/-! ## The formats over all files -/

section Finish

variable {env : Environment} {l : Linter} {format : Format} {log : List LogRecord} {paths : List String}

/-- **When no fault escapes** from a run over the files: when it gets past every path and can write what it has
found. -/
theorem escaped_finish_iff :
    (finish format (lintFiles env l format { log } paths)).escaped = none ↔
      ∀ path ∈ paths, Passes env l format path ∧ ∀ ds, Linted env.files l path ds → writable ds = true := by
  have hends := lintFiles_ok_iff env l format { log } paths
  constructor
  · intro hquiet
    obtain ⟨q, hrun, hplaces, -⟩ := exists_of_escaped_finish hquiet
    have haccounts : Accounts env.files l paths q := accounts_lintFiles (.start env.files log) hrun
    intro path hpath
    exact ⟨hends.mp ⟨q, hrun⟩ path hpath, haccounts.writable_iff.mp hplaces path hpath⟩
  · -- the numbers are judged once more at the end, over the whole report
    intro h
    obtain ⟨q, hrun⟩ := hends.mpr fun path hpath => (h path hpath).1
    have haccounts : Accounts env.files l paths q := accounts_lintFiles (.start env.files log) hrun
    have hplaces := haccounts.writable_iff.mpr fun path hpath => (h path hpath).2
    rw [hrun, finish, if_pos (List.all_eq_true.mpr hplaces)]

theorem exit_finish_of_escaped {s : Stage} (hescaped : (finish format s).escaped ≠ none) :
    (finish format s).exit = 1 := by
  unfold finish at hescaped ⊢
  split at hescaped
  · rfl
  · split at hescaped
    · exact absurd rfl hescaped
    · next hplaces => rw [if_neg hplaces]; rfl

/-- No fault escapes from a table run exactly when none escapes from the JSON run and everything the table run
has to print of linted files can be shown. -/
theorem escaped_table_iff :
    (finish .table (lintFiles env l .table { log } paths)).escaped = none ↔
      (finish .json (lintFiles env l .json { log } paths)).escaped = none ∧
        ∀ path ∈ paths, ∀ ds, Linted env.files l path ds → Shows path ds := by
  rw [escaped_finish_iff, escaped_finish_iff, ← forall₂_and]
  refine forall₂_congr fun path _ => ?_
  rw [passes_table_iff]
  constructor
  · rintro ⟨⟨hjson, hall⟩, hplaces⟩
    exact ⟨⟨hjson, hplaces⟩, fun ds hds => (hall ds hds).2⟩
  · rintro ⟨⟨hjson, hplaces⟩, hshows⟩
    exact ⟨⟨hjson, fun ds hds => ⟨hplaces ds hds, hshows ds hds⟩⟩, hplaces⟩

/-- **One path.** Where a JSON run gets past it and its diagnostics can be written, nothing but their markup
stops a table run. -/
theorem lintFile_table_error {p q : Progress} {path : String} {e : Escape}
    (hstep : lintFile env l .table p path = .error (e, q)) (hpasses : Passes env l .json path)
    (hplaces : ∀ ds, Linted env.files l path ds → writable ds = true) : ∃ f, e = .markup f := by
  obtain ⟨q', hjson⟩ := (lintFile_ok_iff env l .json p path).mpr hpasses
  unfold lintFile at hstep hjson
  cases hload : Dump.load env.files (Path.ofString path) with
  | error f =>
    -- a dump that does not load is reported in the same words for both formats
    rw [hload] at hstep hjson
    exact absurd (hstep.symm.trans hjson) (by simp)
  | ok cs =>
    cases hlint : l.lint cs with
    | error m => simp [hload, hlint] at hjson
    | ok ds =>
      have hwritable := hplaces ds ⟨cs, hload, hlint⟩
      cases htext : fileText path ds with
      | error m =>
        simp only [hload, hlint, hwritable, htext, if_true, Except.error.injEq, Prod.mk.injEq] at hstep
        exact ⟨m, hstep.1.symm⟩
      | ok text => simp [hload, hlint, hwritable, htext] at hstep

/-- **All paths**, by induction on them. -/
theorem lintFiles_table_error {p q : Progress} {e : Escape}
    (hrun : lintFiles env l .table p paths = .error (e, q))
    (hjson : ∀ path ∈ paths, Passes env l .json path ∧ ∀ ds, Linted env.files l path ds → writable ds = true) :
    ∃ f, e = .markup f := by
  induction paths generalizing p with
  | nil => simp [lintFiles] at hrun
  | cons path rest ih =>
    obtain ⟨⟨hpasses, hplaces⟩, hrest⟩ := List.forall_mem_cons.mp hjson
    rw [lintFiles] at hrun
    cases hstep : lintFile env l .table p path with
    | error stopped =>
      rw [hstep] at hrun
      cases hrun
      exact lintFile_table_error hstep hpasses hplaces
    | ok p' =>
      rw [hstep] at hrun
      exact ih hrun hrest

/-- What escapes from a table run alone is a fault in the markup. -/
theorem markup_of_escaped_table
    (htable : (finish .table (lintFiles env l .table { log } paths)).escaped ≠ none)
    (hjson : (finish .json (lintFiles env l .json { log } paths)).escaped = none) :
    ∃ f, (finish .table (lintFiles env l .table { log } paths)).escaped = some (.markup f) := by
  have hall := escaped_finish_iff.mp hjson
  cases hrun : lintFiles env l .table { log } paths with
  | error stopped =>
    obtain ⟨f, hf⟩ := lintFiles_table_error hrun hall
    exact ⟨f, congrArg some hf⟩
  | ok q =>
    refine absurd (escaped_finish_iff.mpr fun path hpath => ⟨?_, (hall path hpath).2⟩) htable
    exact (lintFiles_ok_iff env l .table { log } paths).mp ⟨q, hrun⟩ path hpath

end Finish

/-- **The same verdict** in a table run and a JSON run: the same status; a fault escapes from both or from
none; and, where both go through the files, the table run ends with the number of diagnostics that the JSON
report has. -/
structure SameVerdict (t j : Outcome) : Prop where
  exit : t.exit = j.exit
  escaped : t.escaped = none ↔ j.escaped = none
  counted : t.escaped = none → j.escaped = none → t.exit ≠ 2 →
    ∃ (printed : String) (report : List (String × List Diagnostic)),
      t.out = printed ++ ("\n" ++ toString (report.flatMap Prod.snd).length ++ " lint finding(s)\n") ∧
      Json.read j.out = .ok (.map (report.map fun e => (.str e.1, .list (e.2.map diagnosticData))))

/-- The log has no part in the verdict. -/
theorem sameVerdict_log_iff {t j : Outcome} {log log' : List LogRecord} :
    SameVerdict { t with log := log } { j with log := log' } ↔ SameVerdict t j :=
  ⟨fun h => ⟨h.exit, h.escaped, h.counted⟩, fun h => ⟨h.exit, h.escaped, h.counted⟩⟩

section Verdicts

variable {env : Environment} {l : Linter} {log : List LogRecord} {paths : List String}

/-- Two runs over different paths from which no fault escapes come to the same verdict: they account for the
same files, and have the same report. -/
theorem sameVerdict_of_quiet (hdistinct : paths.Nodup)
    (htable : (finish .table (lintFiles env l .table { log } paths)).escaped = none)
    (hjson : (finish .json (lintFiles env l .json { log } paths)).escaped = none) :
    SameVerdict (finish .table (lintFiles env l .table { log } paths))
      (finish .json (lintFiles env l .json { log } paths)) := by
  obtain ⟨p, hp, -, hpend⟩ := exists_of_escaped_finish htable
  obtain ⟨q, hq, hplaces, hqend⟩ := exists_of_escaped_finish hjson
  have hpaccounts : Accounts env.files l paths p := accounts_lintFiles (.start env.files log) hp
  have hqaccounts : Accounts env.files l paths q := accounts_lintFiles (.start env.files log) hq
  have hreport : p.report = q.report :=
    report_unique (hpaccounts.keys.trans hqaccounts.keys.symm) hpaccounts.entries hqaccounts.entries
  refine ⟨?_, iff_of_true htable hjson, fun _ _ _ => ⟨p.out, q.report, ?_, ?_⟩⟩
  · rw [hpend, hqend]
    exact hpaccounts.status_eq hqaccounts
  · -- the table run counts, the JSON run reports; only for different paths is that the same number
    rw [hpend, ← hreport, ← total_lintFiles hdistinct (by simp) rfl hp]
    rfl
  · have htext : q.out ++ closing .json q = Json.render (.lines 2) (reportData q.report) ++ "\n" := by
      rw [out_lintFiles_json hq]
      exact String.empty_append
    have hnames : (q.report.map Prod.fst).Nodup := by
      rw [hqaccounts.keys]
      exact nodup_eraseDups _
    rw [hqend, htext]
    exact Json.read_render_line (storable_reportData hnames hplaces) (.lines 2)

/-- **The formats over all files.** They come to the same verdict unless the JSON run goes through and there is
something that the table run cannot show. -/
theorem sameVerdict_finish_iff (hdistinct : paths.Nodup) :
    SameVerdict (finish .table (lintFiles env l .table { log } paths))
        (finish .json (lintFiles env l .json { log } paths)) ↔
      ((finish .json (lintFiles env l .json { log } paths)).escaped = none →
        ∀ path ∈ paths, ∀ ds, Linted env.files l path ds → Shows path ds) := by
  constructor
  · intro hsame hjson
    exact (escaped_table_iff.mp (hsame.escaped.mpr hjson)).2
  · intro hshows
    by_cases hjson : (finish .json (lintFiles env l .json { log } paths)).escaped = none
    · exact sameVerdict_of_quiet hdistinct (escaped_table_iff.mpr ⟨hjson, hshows hjson⟩) hjson
    · have htable : (finish .table (lintFiles env l .table { log } paths)).escaped ≠ none :=
        fun h => hjson (escaped_table_iff.mp h).1
      refine ⟨?_, iff_of_false htable hjson, fun h => absurd h htable⟩
      rw [exit_finish_of_escaped htable, exit_finish_of_escaped hjson]

end Verdicts

/-! ## From the arguments to the files -/

/-- The arguments ask for this linting. -/
def Asks (args : List String) (call : LintCall) : Prop :=
  ∃ r c, request args = .ok r ∧ r.command.parse r.args = .ok (.lint c) ∧
    call = { c with verbose := r.verbose || c.verbose }

theorem Asks.exists_outcome {args : List String} {call : LintCall} (h : Asks args call) (env : Environment)
    (host : Host) : ∃ log, (run env host args).outcome = { runLint env call with log := log } := by
  obtain ⟨r, c, hrequest, hparse, rfl⟩ := h
  exact exists_outcome_run env host hrequest hparse

/-- How a linting depends on the format it is asked for in, its log aside: not at all, or, once a linter is set
up, in how the files are gone through. -/
inductive ReadsFormat (env : Environment) (reg : Registry) (call : LintCall) (outcome : Format → Outcome) : Prop where
  | early {o : Outcome} (hsame : ∀ format, ∃ log', outcome format = { o with log := log' })
      (hunset : o.escaped = none → o.exit = 2 ∧ ∀ l, linter env.files reg call.config ≠ .ok l)
  | late {l : Linter} (log : List LogRecord) (hsetting : linter env.files reg call.config = .ok l)
      (hfiles : ∀ format, ∃ log', outcome format
        = { finish format (lintFiles env l format { log } call.files) with log := log' })

theorem readsFormat_lintLogged (env : Environment) (reg : Registry) (call : LintCall) (log : List LogRecord) :
    ReadsFormat env reg call fun format => lintLogged env reg { call with format := format } log := by
  cases hsetting : linter env.files reg call.config with
  | error f =>
    have hrun : ∀ format, lintLogged env reg { call with format := format } log = unsettled env f log := by
      intro format
      simp only [lintLogged, hsetting]
    refine .early (o := unsettled env f log) (fun format => ⟨(unsettled env f log).log, hrun format⟩) fun hquiet => ?_
    -- the status is that of any run without a linter from which no fault escapes
    rw [← hrun call.format] at hquiet ⊢
    cases concludes_lintLogged hquiet with
    | unset _ _ hexit => exact ⟨hexit, by simp [hsetting]⟩
    | finished hset => exact absurd (hset.symm.trans hsetting) (by simp)
  | ok l =>
    refine .late log hsetting fun format => ?_
    simp only [lintLogged, hsetting]
    exact ⟨_, rfl⟩

theorem readsFormat_lintWith (env : Environment) (reg : Registry) (call : LintCall) :
    ReadsFormat env reg call fun format => lintWith env reg { call with format := format } := by
  unfold lintWith
  by_cases hverbose : call.verbose = true
  · simp only [hverbose, if_true]
    cases hshown : unshownOption env.files reg call.config with
    | some f =>
      exact .early (o := { exit := 1, escaped := some (.unshown f) }) (fun _ => ⟨_, rfl⟩)
        fun h => absurd h (by simp)
    | none => exact readsFormat_lintLogged env reg call (linterLog env.files reg call.config)
  · simp only [hverbose]
    exact readsFormat_lintLogged env reg call []

/-- What adds to the log, and does nothing else, does not change how the format is read. -/
theorem ReadsFormat.of_log {env : Environment} {reg : Registry} {call : LintCall} {outcome outcome' : Format → Outcome}
    (h : ReadsFormat env reg call outcome)
    (hlog : ∀ format, ∃ log', outcome' format = { outcome format with log := log' }) :
    ReadsFormat env reg call outcome' := by
  cases h with
  | early hsame hunset =>
    refine .early (fun format => ?_) hunset
    obtain ⟨log', hlog⟩ := hlog format
    obtain ⟨_, hsame⟩ := hsame format
    exact ⟨log', by rw [hlog, hsame]⟩
  | late log hsetting hfiles =>
    refine .late log hsetting fun format => ?_
    obtain ⟨log', hlog⟩ := hlog format
    obtain ⟨_, hfiles⟩ := hfiles format
    exact ⟨log', by rw [hlog, hfiles]⟩

theorem readsFormat_runLint (env : Environment) (call : LintCall) :
    ReadsFormat env (installed env) call fun format => runLint env { call with format := format } := by
  unfold runLint
  cases hloaded : (Registry.builtin.load ruleGroup env.entryPoints).fault with
  | some b =>
    refine .early (o := { exit := 1, escaped := some (.breach b) }) (fun format => ?_)
      fun h => absurd h (by simp)
    simp only [hloaded]
    exact ⟨_, rfl⟩
  | none =>
    refine (readsFormat_lintWith env (installed env) call).of_log fun format => ?_
    simp only [hloaded]
    exact ⟨_, rfl⟩

section BothFormats

variable {env : Environment} {reg : Registry} {call : LintCall} {outcome : Format → Outcome}

/-- **One linting in both formats**, however far it gets. -/
theorem ReadsFormat.sameVerdict_iff (h : ReadsFormat env reg call outcome)
    (hdistinct : call.files.Nodup) :
    SameVerdict (outcome .table) (outcome .json) ↔
      ((outcome .json).escaped = none → ∀ l, linter env.files reg call.config = .ok l →
        ∀ path ∈ call.files, ∀ ds, Linted env.files l path ds → Shows path ds) := by
  cases h with
  | @early o hsame hunset =>
    obtain ⟨_, htable⟩ := hsame .table
    obtain ⟨_, hjson⟩ := hsame .json
    rw [htable, hjson]
    refine iff_of_true ⟨rfl, Iff.rfl, fun hquiet _ hexit => ?_⟩ fun hquiet l hl => ?_
    · exact absurd (hunset hquiet).1 hexit
    · exact absurd hl ((hunset hquiet).2 l)
  | @late l log hsetting hfiles =>
    obtain ⟨_, htable⟩ := hfiles .table
    obtain ⟨_, hjson⟩ := hfiles .json
    rw [htable, hjson]
    rw [sameVerdict_log_iff, sameVerdict_finish_iff hdistinct]
    -- there is one linter, so that it can be quantified over or named
    refine imp_congr_right fun _ => ⟨fun hshows l' hl' => ?_, fun hshows => hshows l hsetting⟩
    rw [hsetting] at hl'
    cases hl'
    exact hshows

/-- Where the verdicts differ, the JSON run goes through, and a fault in the markup ends the table run. -/
theorem ReadsFormat.markup_of_not_sameVerdict (h : ReadsFormat env reg call outcome)
    (hdistinct : call.files.Nodup) (hdiffer : ¬ SameVerdict (outcome .table) (outcome .json)) :
    (outcome .json).escaped = none ∧ (outcome .table).exit = 1 ∧
      ∃ f, (outcome .table).escaped = some (.markup f) := by
  have hiff := h.sameVerdict_iff hdistinct
  have hjson : (outcome .json).escaped = none := by
    by_contra hescaped
    exact hdiffer (hiff.mpr fun hquiet => absurd hquiet hescaped)
  refine ⟨hjson, ?_⟩
  cases h with
  | early hsame hunset =>
    -- without a linter there is nothing to show
    obtain ⟨_, hjsame⟩ := hsame .json
    rw [hjsame] at hjson
    exact absurd (hiff.mpr fun _ l hl => absurd hl ((hunset hjson).2 l)) hdiffer
  | @late l log _ hfiles =>
    obtain ⟨_, htfiles⟩ := hfiles .table
    obtain ⟨_, hjfiles⟩ := hfiles .json
    rw [htfiles, hjfiles, sameVerdict_log_iff] at hdiffer
    rw [hjfiles] at hjson
    rw [htfiles]
    have htable : (finish .table (lintFiles env l .table { log } call.files)).escaped ≠ none :=
      fun hquiet => hdiffer (sameVerdict_of_quiet hdistinct hquiet hjson)
    exact ⟨exit_finish_of_escaped htable, markup_of_escaped_table htable hjson⟩

end BothFormats

/-- **The format and the verdict.** Let the same linting of different paths be asked for in both formats. The
runs come to the same verdict exactly when everything can be shown that the table run has to print of the
linted files, or a fault escapes from the JSON run too. If they do not, the JSON run goes through and a fault
in the markup ends the table run with status 1. That takes an opening bracket in a path, a code or a message:
without one, the verdict is always the same. -/
theorem formats_agree_iff (env : Environment) (host : Host) (call : LintCall) (args : Format → List String)
    (hargs : ∀ format, Asks (args format) { call with format := format }) (hdistinct : call.files.Nodup) :
    let t := (run env host (args .table)).outcome
    let j := (run env host (args .json)).outcome
    (SameVerdict t j ↔ (j.escaped = none → ∀ l, linter env.files (installed env) call.config = .ok l →
        ∀ path ∈ call.files, ∀ ds, Linted env.files l path ds → Shows path ds)) ∧
      (¬ SameVerdict t j → j.escaped = none ∧ t.exit = 1 ∧ ∃ f, t.escaped = some (.markup f)) ∧
      ((∀ l, linter env.files (installed env) call.config = .ok l → ∀ path ∈ call.files,
          '[' ∉ path.toList ∧ ∀ ds, Linted env.files l path ds →
            ∀ d ∈ ds, '[' ∉ d.code.toList ∧ '[' ∉ d.message.toList) → SameVerdict t j) := by
  intro t j
  have hreads : ReadsFormat env (installed env) call fun format => (run env host (args format)).outcome :=
    (readsFormat_runLint env call).of_log fun format => (hargs format).exists_outcome env host
  have hiff := hreads.sameVerdict_iff hdistinct
  refine ⟨hiff, hreads.markup_of_not_sameVerdict hdistinct, fun hplain => hiff.mpr ?_⟩
  intro _ l hl path hpath ds hds
  obtain ⟨hname, htexts⟩ := hplain l hl path hpath
  exact shows_of_notMem hname (htexts ds hds)

/-- A path with brackets that make no tag, whose dump has a finding, and a path that leads nowhere. -/
theorem formats_agree_iff_harmless_brackets :
    let dump := "[\x7b\"value\": \"say \\\"hi\\\"\", \"loc\": \x7b\"start\": \x7b\"line\": true\x7d\x7d\x7d]"
    let octets := dump.toList.map fun c => c.toNat.toUInt8
    let env : Environment := { files := { entries := [(["ä[0]"], .file octets)] } }
    let call : LintCall := { files := ["ä[0]", "gone"] }
    let args : Format → List String := fun format =>
      ["lint", "ä[0]", "--format", if format = .json then "JSON" else "table", "gone"]
    let t := (run env ⟨"", ""⟩ (args .table)).outcome
    let j := (run env ⟨"", ""⟩ (args .json)).outcome
    (∀ format, Asks (args format) { call with format := format }) ∧ call.files.Nodup ∧
      (t.exit = 1 ∧ t.escaped = none) ∧ SameVerdict t j := by
  intro dump octets env call args t j
  have hargs : ∀ format, Asks (args format) { call with format := format } := by
    intro format
    refine ⟨⟨false, .lint, (args format).tail⟩, { call with format := format }, rfl, ?_, rfl⟩
    cases format <;> decide +kernel
  have hdistinct : call.files.Nodup := by decide
  have htable : t.exit = 1 ∧ t.escaped = none := by decide +kernel
  refine ⟨hargs, hdistinct, htable, ?_⟩
  by_contra hdiffer
  obtain ⟨-, -, f, hf⟩ := (formats_agree_iff env ⟨"", ""⟩ call args hargs hdistinct).2.1 hdiffer
  exact absurd (htable.2.symm.trans hf) (by simp)

/-- An empty dump under a name that ends in a tag which closes nothing: the JSON run ends with status 0, and the
table run breaks off. -/
theorem unmatched_tag_splits_formats :
    let env : Environment := { files := { entries := [(["[", "x].json"], .file [91, 93])] } }
    let call : LintCall := { files := ["[/x].json"] }
    let args : Format → List String := fun format =>
      ["lint", "[/x].json", "--format", if format = .json then "json" else "table"]
    let t := (run env ⟨"", ""⟩ (args .table)).outcome
    let j := (run env ⟨"", ""⟩ (args .json)).outcome
    (∀ format, Asks (args format) { call with format := format }) ∧ call.files.Nodup ∧
      (t.exit = 1 ∧ t.escaped ≠ none) ∧ (j.exit = 0 ∧ j.escaped = none) ∧ ¬ SameVerdict t j := by
  intro env call args t j
  have hargs : ∀ format, Asks (args format) { call with format := format } := by
    intro format
    refine ⟨⟨false, .lint, (args format).tail⟩, { call with format := format }, rfl, ?_, rfl⟩
    cases format <;> decide +kernel
  have htable : t.exit = 1 ∧ t.escaped ≠ none := by decide +kernel
  have hjson : j.exit = 0 ∧ j.escaped = none := by decide +kernel
  refine ⟨hargs, by decide, htable, hjson, fun hsame => ?_⟩
  exact htable.2 (hsame.escaped.mpr hjson.2)

end CommentStyle.CommandLine
