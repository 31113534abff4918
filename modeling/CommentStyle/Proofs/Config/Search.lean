import CommentStyle.Config
import CommentStyle.Proofs.Outcome
import Mathlib.Control.Monad.Basic
import Mathlib.Data.List.Induction
import Mathlib.Data.List.Infix

/-!
# The nearest configuration file

The search for a configuration file goes up from a place, directory by directory, and in each directory through the
accepted names. So there are two orders, and distance counts before names: what the search comes to is the first
accepted name of the nearest directory that has one. The directories above a place are the prefixes of its
components. But the search has to look at all that comes before its answer, and there are places that it cannot look
at. There it breaks off.

* **`Finds`** — the answer of the search, said without going anywhere: a file that comes first in both orders, or
  nothing because no directory above has any.
* **`Barred`** — a place that cannot be looked at: its path or a component is too long, or a directory on the way is
  closed. Nothing is barred from an **`Ordinary`** start.
* **`Before`** — the two orders as one. The candidates of the search are sorted by it (`pairwise_candidates`), so what
  comes first in their list comes first in that order (`exists_split_iff`).
* **`firstFile_decides`** — the search in a list; **`Searchable`**, **`BreaksOff`** — the same for the candidates.
* **`Unnoticed`** — changes to a file tree that a search does not see; **`Finds.of_unnoticed`** — they leave its
  answer as it is.
* **`search_finds_nearest`** — the headline; **`search_ends_before_file`** has searches that break off with a file in
  reach.
-/

namespace CommentStyle.Config

open CommentStyle.Path (Place)

/-! ## The answer -/

/-- No accepted name is that of a regular file in the directory. -/
def HasNone (fs : Files) (directory : Place) : Prop := ∀ name ∈ fileNames, fs.isFile (directory ++ [name]) = false

/-- The name is the first accepted one that is that of a regular file in the directory. -/
structure IsFirst (fs : Files) (directory : Place) (name : String) : Prop where
  accepted : name ∈ fileNames
  isFile : fs.isFile (directory ++ [name]) = true
  first : ∀ n ∈ fileNames, fileNames.idxOf n < fileNames.idxOf name → fs.isFile (directory ++ [n]) = false

/-- What a search upwards from a place comes to. -/
inductive Finds (fs : Files) (place : Place) : Option Place → Prop
  | nearest {directory : Place} {name : String} (above : directory <+: place) (held : IsFirst fs directory name)
      (nearer : ∀ d, d <+: place → directory <+: d → d ≠ directory → HasNone fs d) :
      Finds fs place (some (directory ++ [name]))
  | nowhere (empty : ∀ d, d <+: place → HasNone fs d) : Finds fs place none

/-! ## Places that cannot be looked at -/

/-- From one place the components lead to another, through directories that are there and may be searched. -/
inductive Leads (fs : Files) : Place → List String → Place → Prop
  | here {place : Place} : Leads fs place [] place
  | step {place target : Place} {part : String} {rest : List String}
      (directory : fs.entry? place = some .directory) (opened : place ∉ fs.closed)
      (short : part.utf8ByteSize ≤ Files.partLimit) (onward : Leads fs (Path.enter place part) rest target) :
      Leads fs place (part :: rest) target

/-- What keeps from looking for a component in a directory. -/
inductive Bars (fs : Files) (directory : Place) (part : String) : FileFault → Prop
  | closed (h : directory ∈ fs.closed) : Bars fs directory part .denied
  | long (opened : directory ∉ fs.closed) (h : Files.partLimit < part.utf8ByteSize) :
      Bars fs directory part .nameTooLong

/-- The components lead to a directory in which one cannot look for the next of them. -/
def StopsAt (fs : Files) (place : Place) (parts : List String) (f : FileFault) : Prop :=
  ∃ before part after directory, parts = before ++ part :: after ∧ Leads fs place before directory ∧
    fs.entry? directory = some .directory ∧ Bars fs directory part f

/-- The place cannot be looked at. -/
inductive Barred (fs : Files) (place : Place) : FileFault → Prop
  | longPath (long : Files.pathLimit < (Path.ofPlace place).text.utf8ByteSize) : Barred fs place .nameTooLong
  | onTheWay {f : FileFault} (short : (Path.ofPlace place).text.utf8ByteSize ≤ Files.pathLimit)
      (stops : StopsAt fs [] place f) : Barred fs place f

theorem stopsAt_cons_iff {fs : Files} {place : Place} {part : String} {rest : List String} {f : FileFault} :
    StopsAt fs place (part :: rest) f ↔ fs.entry? place = some .directory ∧ (Bars fs place part f ∨
      place ∉ fs.closed ∧ part.utf8ByteSize ≤ Files.partLimit ∧ StopsAt fs (Path.enter place part) rest f) := by
  constructor
  · rintro ⟨before, stop, after, directory, heq, hway, hdirectory, hbars⟩
    cases hway with
    | here =>
      obtain ⟨rfl, rfl⟩ := List.cons.inj heq
      exact ⟨hdirectory, .inl hbars⟩
    | step there opened short onward =>
      obtain ⟨rfl, rfl⟩ := List.cons.inj heq
      exact ⟨there, .inr ⟨opened, short, _, stop, after, directory, rfl, onward, hdirectory, hbars⟩⟩
  · rintro ⟨there, hbars | ⟨opened, short, before, stop, after, directory, rfl, hway, hdirectory, hbars⟩⟩
    · exact ⟨[], part, rest, place, rfl, .here, there, hbars⟩
    · exact ⟨part :: before, stop, after, directory, rfl, .step there opened short hway, hdirectory, hbars⟩

theorem follow_eq_error_iff {fs : Files} {f : FileFault} (hf : f = .nameTooLong ∨ f = .denied) (place : Place)
    (parts : List String) : fs.follow place parts = .error f ↔ StopsAt fs place parts f := by
  induction parts generalizing place with
  | nil => simp [Files.follow, StopsAt]
  | cons part rest ih =>
    have hother : f ≠ .missing ∧ f ≠ .notDirectory := by rcases hf with rfl | rfl <;> decide
    rw [stopsAt_cons_iff, ← ih, Files.follow]
    cases hentry : fs.entry? place with
    | none => simpa using Ne.symm hother.1
    | some entry =>
      cases entry with
      | file octets => simpa using Ne.symm hother.2
      | directory =>
        simp only [List.contains_iff_mem, true_and]
        by_cases hclosed : place ∈ fs.closed
        · rw [if_pos hclosed, Except.error.injEq]
          constructor
          · rintro rfl
            exact .inl (.closed hclosed)
          · rintro (hbars | ⟨hopened, -⟩)
            · cases hbars with
              | closed => rfl
              | long hopened => exact absurd hclosed hopened
            · exact absurd hclosed hopened
        · rw [if_neg hclosed]
          by_cases hlong : Files.partLimit < part.utf8ByteSize
          · rw [if_pos hlong, Except.error.injEq]
            constructor
            · rintro rfl
              exact .inl (.long hclosed hlong)
            · rintro (hbars | ⟨-, hshort, -⟩)
              · cases hbars with
                | closed h => exact absurd h hclosed
                | long => rfl
              · exact absurd hlong (Nat.not_lt.mpr hshort)
          · rw [if_neg hlong]
            have hfree : ¬ Bars fs place part f := by
              rintro (h | ⟨-, h⟩)
              · exact hclosed h
              · exact hlong h
            simp [hfree, hclosed, Nat.not_lt.mp hlong]

theorem barred?_eq_some_iff {fs : Files} {place : Place} {f : FileFault} :
    fs.barred? place = some f ↔ Barred fs place f := by
  have hreach : fs.barred? place = some f ↔
      (f = .nameTooLong ∨ f = .denied) ∧ fs.reach (Path.ofPlace place) = .error f := by
    unfold Files.barred?
    cases fs.reach (Path.ofPlace place) with
    | ok target => simp
    | error g => cases g <;> cases f <;> simp
  rw [hreach, Files.reach]
  by_cases hlong : Files.pathLimit < (Path.ofPlace place).text.utf8ByteSize
  · rw [if_pos hlong, Except.error.injEq]
    constructor
    · rintro ⟨-, rfl⟩
      exact .longPath hlong
    · intro h
      cases h with
      | longPath => exact ⟨.inl rfl, rfl⟩
      | onTheWay short => exact absurd hlong (Nat.not_lt.mpr short)
  · rw [if_neg hlong]
    have hplace : (Path.ofPlace place).origin fs.workingDirectory = [] := rfl
    constructor
    · rintro ⟨hf, hfollow⟩
      exact .onTheWay (Nat.not_lt.mp hlong) ((follow_eq_error_iff hf _ _).mp (hplace ▸ hfollow))
    · intro h
      cases h with
      | longPath long => exact absurd long hlong
      | onTheWay _ stops =>
        have hf : f = .nameTooLong ∨ f = .denied := by
          obtain ⟨_, _, _, _, -, -, -, hbars⟩ := stops
          cases hbars with
          | closed => exact .inr rfl
          | long => exact .inl rfl
        exact ⟨hf, (follow_eq_error_iff hf _ _).mpr stops⟩

theorem barred?_eq_none_iff {fs : Files} {place : Place} : fs.barred? place = none ↔ ∀ f, ¬ Barred fs place f := by
  rw [Option.eq_none_iff_forall_ne_some]
  exact forall_congr' fun f => not_congr barred?_eq_some_iff

/-! ## The order of the search -/

/-- One of the accepted names in a directory at or above the start. -/
inductive IsCandidate (start : Place) : Place → Prop
  | intro {directory : Place} {name : String} (above : directory <+: start) (accepted : name ∈ fileNames) :
      IsCandidate start (directory ++ [name])

/-- A place comes before another: its directory is nearer, or is the same and its name is the earlier one. -/
def Before (p q : Place) : Prop :=
  (q.dropLast <+: p.dropLast ∧ q.dropLast ≠ p.dropLast) ∨
    p.dropLast = q.dropLast ∧ fileNames.idxOf (p.getLastD "") < fileNames.idxOf (q.getLastD "")

theorem before_concat_iff {d e : Place} {m n : String} :
    Before (d ++ [m]) (e ++ [n]) ↔ (e <+: d ∧ e ≠ d) ∨ d = e ∧ fileNames.idxOf m < fileNames.idxOf n := by
  simp [Before]

theorem Before.asymm {p q : Place} (h : Before p q) : ¬ Before q p := by
  rintro (⟨hup, hne⟩ | ⟨heq, hlt⟩)
  · rcases h with ⟨hup', -⟩ | ⟨heq, -⟩
    · exact hne (hup.eq_of_length_le hup'.length_le)
    · exact hne heq
  · rcases h with ⟨-, hne⟩ | ⟨-, hlt'⟩
    · exact hne heq
    · exact absurd hlt (Nat.not_lt.mpr (Nat.le_of_lt hlt'))

theorem ancestors_concat (place : Place) (part : String) :
    ancestors (place ++ [part]) = (place ++ [part]) :: ancestors place := by
  rw [ancestors, List.length_append, List.length_singleton, upwards, if_neg (by simp), List.dropLast_concat]
  rfl

/-- The names of one directory, and then those farther up. -/
theorem candidates_concat (place : Place) (part : String) :
    candidates (place ++ [part]) =
      (fileNames.map fun name => (place ++ [part]) ++ [name]) ++ candidates place := by
  rw [candidates, ancestors_concat, List.flatMap_cons]
  rfl

theorem mem_ancestors_iff {place d : Place} : d ∈ ancestors place ↔ d <+: place := by
  induction place using List.reverseRecOn with
  | nil =>
    have hancestors : ancestors [] = [[]] := rfl
    rw [hancestors, List.mem_singleton, List.prefix_nil]
  | append_singleton place part ih => rw [ancestors_concat, List.mem_cons, ih, List.prefix_concat_iff]

theorem mem_candidates_iff {start p : Place} : p ∈ candidates start ↔ IsCandidate start p := by
  simp only [candidates, List.mem_flatMap, List.mem_map, mem_ancestors_iff]
  constructor
  · rintro ⟨d, hd, name, hname, rfl⟩
    exact .intro hd hname
  · rintro ⟨hd, hname⟩
    exact ⟨_, hd, _, hname, rfl⟩

/-- The names of one directory, in their order. -/
theorem pairwise_names (d : Place) : (fileNames.map fun name => d ++ [name]).Pairwise Before := by
  have hnames : fileNames.Pairwise fun m n => fileNames.idxOf m < fileNames.idxOf n := by decide
  rw [List.pairwise_map]
  exact hnames.imp fun hlt => before_concat_iff.mpr (.inr ⟨rfl, hlt⟩)

/-- **The candidates are in order.** -/
theorem pairwise_candidates (start : Place) : (candidates start).Pairwise Before := by
  induction start using List.reverseRecOn with
  | nil =>
    have hcandidates : candidates [] = fileNames.map fun name => [] ++ [name] := rfl
    rw [hcandidates]
    exact pairwise_names []
  | append_singleton place part ih =>
    rw [candidates_concat, List.pairwise_append]
    refine ⟨pairwise_names _, ih, fun p hp q hq => ?_⟩
    obtain ⟨name, -, rfl⟩ := List.mem_map.mp hp
    obtain ⟨above, -⟩ := mem_candidates_iff.mp hq
    refine before_concat_iff.mpr (.inl ⟨above.trans (List.prefix_append place [part]), ?_⟩)
    rintro rfl
    have hlength := above.length_le
    rw [List.length_append, List.length_singleton] at hlength
    omega

/-- In a sorted list, what stands in front of an element is what comes before it. -/
theorem exists_split_iff {cs : List Place} (hcs : cs.Pairwise Before) {p : Place} {P : Place → Prop} :
    (∃ front back, cs = front ++ p :: back ∧ ∀ q ∈ front, P q) ↔
      p ∈ cs ∧ ∀ q ∈ cs, Before q p → P q := by
  constructor
  · rintro ⟨front, back, rfl, hfront⟩
    refine ⟨by simp, fun q hq hbefore => ?_⟩
    rcases List.mem_append.mp hq with hq | hq
    · exact hfront q hq
    · -- neither the element itself nor what stands behind it comes before it
      have hback := (List.pairwise_cons.mp (List.pairwise_append.mp hcs).2.1).1
      rcases List.mem_cons.mp hq with rfl | hq
      · exact absurd hbefore hbefore.asymm
      · exact absurd hbefore (hback q hq).asymm
  · rintro ⟨hp, hbefore⟩
    obtain ⟨front, back, rfl⟩ := List.append_of_mem hp
    refine ⟨front, back, rfl, fun q hq => hbefore q (List.mem_append_left _ hq) ?_⟩
    exact (List.pairwise_append.mp hcs).2.2 q hq p List.mem_cons_self

/-! ## The search in a list -/

/-- The place was looked at, and is no file. -/
def Passed (fs : Files) (place : Place) : Prop := fs.barred? place = none ∧ fs.isFile place = false

/-- What comes of a list of places. -/
inductive Comes (fs : Files) (cs : List Place) : Option Place → Prop
  | found {p : Place} {front back : List Place} (split : cs = front ++ p :: back) (passed : ∀ q ∈ front, Passed fs q)
      (told : fs.barred? p = none) (isFile : fs.isFile p = true) : Comes fs cs (some p)
  | nothing (passed : ∀ q ∈ cs, Passed fs q) : Comes fs cs none

theorem firstFile_append {fs : Files} {front : List Place} (hfront : ∀ q ∈ front, Passed fs q) (cs : List Place) :
    firstFile fs (front ++ cs) = firstFile fs cs := by
  induction front with
  | nil => rfl
  | cons q front ih =>
    obtain ⟨⟨htold, hfile⟩, hfront⟩ := List.forall_mem_cons.mp hfront
    simpa [firstFile, htold, hfile] using ih hfront

theorem firstFile_decides (fs : Files) (cs : List Place) :
    Decides (firstFile fs cs) (Comes fs cs) fun e => ∃ f p front back, e = .unsearchable f p ∧
      cs = front ++ p :: back ∧ (∀ q ∈ front, Passed fs q) ∧ fs.barred? p = some f := by
  refine .of_total ?_ ?_ ?_
  · rintro _ (⟨rfl, passed, told, isFile⟩ | passed)
    · rw [firstFile_append passed, firstFile, told, isFile]
      rfl
    · rw [← List.append_nil cs, firstFile_append passed]
      rfl
  · rintro _ ⟨f, p, front, back, rfl, rfl, passed, hbarred⟩
    rw [firstFile_append passed, firstFile, hbarred]
  · induction cs with
    | nil => exact .inl ⟨none, .nothing (by simp)⟩
    | cons p cs ih =>
      cases hbarred : fs.barred? p with
      | some f => exact .inr ⟨_, f, p, [], cs, rfl, rfl, by simp, hbarred⟩
      | none =>
        cases hfile : fs.isFile p with
        | true => exact .inl ⟨some p, .found (List.nil_append _).symm (by simp) hbarred hfile⟩
        | false =>
          have hpassed : ∀ {front : List Place}, (∀ q ∈ front, Passed fs q) → ∀ q ∈ p :: front, Passed fs q :=
            fun h => List.forall_mem_cons.mpr ⟨⟨hbarred, hfile⟩, h⟩
          rcases ih with ⟨found, hcomes⟩ | ⟨e, f, q, front, back, he, rfl, passed, hbarred'⟩
          · cases hcomes with
            | @found q front back split passed told isFile =>
              have hsplit : p :: cs = (p :: front) ++ q :: back := by rw [split, List.cons_append]
              exact .inl ⟨some q, .found hsplit (hpassed passed) told isFile⟩
            | nothing passed => exact .inl ⟨none, .nothing (hpassed passed)⟩
          · exact .inr ⟨e, f, q, p :: front, back, he, rfl, hpassed passed, hbarred'⟩

/-! ## The search among the candidates -/

/-- All candidates that come no later than the answer can be looked at. -/
def Searchable (fs : Files) (start : Place) (found : Option Place) : Prop :=
  ∀ q, IsCandidate start q → (∀ p ∈ found, q = p ∨ Before q p) → ∀ f, ¬ Barred fs q f

/-- The candidate cannot be looked at, and all before it were, without finding a file. -/
structure BreaksOff (fs : Files) (start place : Place) (f : FileFault) : Prop where
  candidate : IsCandidate start place
  barred : Barred fs place f
  before : ∀ q, IsCandidate start q → Before q place → (∀ g, ¬ Barred fs q g) ∧ fs.isFile q = false

theorem finds_some_iff {fs : Files} {start p : Place} :
    Finds fs start (some p) ↔ IsCandidate start p ∧ fs.isFile p = true ∧
      ∀ q, IsCandidate start q → Before q p → fs.isFile q = false := by
  constructor
  · intro h
    cases h with
    | nearest above held nearer =>
      refine ⟨.intro above held.accepted, held.isFile, ?_⟩
      rintro _ ⟨hd, hname⟩ hbefore
      rcases before_concat_iff.mp hbefore with ⟨hup, hne⟩ | ⟨rfl, hlt⟩
      · exact nearer _ hd hup (Ne.symm hne) _ hname
      · exact held.first _ hname hlt
  · rintro ⟨⟨above, accepted⟩, hfile, hbefore⟩
    refine .nearest above ⟨accepted, hfile, fun n hn hlt => ?_⟩ fun d hd hup hne n hn => ?_
    · exact hbefore _ (.intro above hn) (before_concat_iff.mpr (.inr ⟨rfl, hlt⟩))
    · exact hbefore _ (.intro hd hn) (before_concat_iff.mpr (.inl ⟨hup, Ne.symm hne⟩))

theorem finds_none_iff {fs : Files} {start : Place} :
    Finds fs start none ↔ ∀ q, IsCandidate start q → fs.isFile q = false := by
  constructor
  · intro h
    cases h with
    | nowhere empty =>
      rintro _ ⟨hd, hname⟩
      exact empty _ hd _ hname
  · exact fun h => .nowhere fun d hd name hname => h _ (.intro hd hname)

theorem comes_candidates_iff {fs : Files} {start : Place} {found : Option Place} :
    Comes fs (candidates start) found ↔ Finds fs start found ∧ Searchable fs start found := by
  cases found with
  | none =>
    rw [finds_none_iff]
    constructor
    · intro h
      cases h with
      | nothing passed =>
        refine ⟨fun q hq => (passed q (mem_candidates_iff.mpr hq)).2, fun q hq _ => ?_⟩
        exact barred?_eq_none_iff.mp (passed q (mem_candidates_iff.mpr hq)).1
    · rintro ⟨hfiles, htold⟩
      refine .nothing fun q hq => ⟨barred?_eq_none_iff.mpr ?_, hfiles q (mem_candidates_iff.mp hq)⟩
      exact htold q (mem_candidates_iff.mp hq) nofun
  | some p =>
    rw [finds_some_iff]
    constructor
    · intro h
      cases h with
      | @found _ front back split passed told isFile =>
        obtain ⟨hmem, hbefore⟩ := (exists_split_iff (pairwise_candidates start)).mp ⟨front, back, split, passed⟩
        refine ⟨⟨mem_candidates_iff.mp hmem, isFile, fun q hq h => ?_⟩, fun q hq hup => ?_⟩
        · exact (hbefore q (mem_candidates_iff.mpr hq) h).2
        · rcases hup p rfl with rfl | h
          · exact barred?_eq_none_iff.mp told
          · exact barred?_eq_none_iff.mp (hbefore q (mem_candidates_iff.mpr hq) h).1
    · rintro ⟨⟨hp, hfile, hbefore⟩, htold⟩
      have hpassed : ∀ q ∈ candidates start, Before q p → Passed fs q := by
        intro q hq h
        have hq := mem_candidates_iff.mp hq
        refine ⟨barred?_eq_none_iff.mpr (htold q hq ?_), hbefore q hq h⟩
        rintro _ ⟨⟩
        exact .inr h
      obtain ⟨front, back, split, passed⟩ :=
        (exists_split_iff (pairwise_candidates start)).mpr ⟨mem_candidates_iff.mpr hp, hpassed⟩
      refine .found split passed (barred?_eq_none_iff.mpr (htold p hp ?_)) hfile
      rintro _ ⟨⟩
      exact .inl rfl

theorem exists_breaksOff_iff {fs : Files} {start : Place} {e : Fault} :
    (∃ f p front back, e = .unsearchable f p ∧ candidates start = front ++ p :: back ∧
      (∀ q ∈ front, Passed fs q) ∧ fs.barred? p = some f) ↔
      ∃ f p, e = .unsearchable f p ∧ BreaksOff fs start p f := by
  have hsplit : ∀ p, (∃ front back, candidates start = front ++ p :: back ∧ ∀ q ∈ front, Passed fs q) ↔
      IsCandidate start p ∧ ∀ q, IsCandidate start q → Before q p →
        (∀ g, ¬ Barred fs q g) ∧ fs.isFile q = false := by
    intro p
    rw [exists_split_iff (pairwise_candidates start)]
    simp only [mem_candidates_iff, Passed, barred?_eq_none_iff]
  constructor
  · rintro ⟨f, p, front, back, he, split, passed, hbarred⟩
    obtain ⟨hp, hbefore⟩ := (hsplit p).mp ⟨front, back, split, passed⟩
    exact ⟨f, p, he, hp, barred?_eq_some_iff.mp hbarred, hbefore⟩
  · rintro ⟨f, p, he, hp, hbarred, hbefore⟩
    obtain ⟨front, back, split, passed⟩ := (hsplit p).mpr ⟨hp, hbefore⟩
    exact ⟨f, p, front, back, he, split, passed, barred?_eq_some_iff.mpr hbarred⟩

/-! ## Where nothing is barred -/

/-- Nothing is closed, and no component or path on the way is too long. -/
structure Ordinary (fs : Files) (start : Place) : Prop where
  opened : fs.closed = []
  parts : ∀ part ∈ start, part.utf8ByteSize ≤ Files.partLimit
  path : ∀ name ∈ fileNames, (Path.ofPlace start).text.utf8ByteSize + 1 + name.utf8ByteSize ≤ Files.pathLimit

theorem utf8ByteSize_ofPlace (place : Place) :
    (Path.ofPlace place).text.utf8ByteSize = 1 + ("/".intercalate place).utf8ByteSize := by
  have htext : (Path.ofPlace place).text = "/" ++ "/".intercalate place := by simp [Path.text, Path.ofPlace]
  rw [htext, String.utf8ByteSize_append]
  rfl

/-- The path of a candidate is hardly longer than that of the start. -/
theorem utf8ByteSize_candidate_le {start d : Place} (hd : d <+: start) (name : String) :
    (Path.ofPlace (d ++ [name])).text.utf8ByteSize ≤
      (Path.ofPlace start).text.utf8ByteSize + 1 + name.utf8ByteSize := by
  obtain ⟨rest, rfl⟩ := hd
  rw [utf8ByteSize_ofPlace, utf8ByteSize_ofPlace]
  by_cases hne : d = []
  · subst hne
    rw [List.nil_append, String.intercalate_singleton]
    omega
  · have hcandidate : ("/".intercalate (d ++ [name])).utf8ByteSize
        = ("/".intercalate d).utf8ByteSize + 1 + name.utf8ByteSize := by
      rw [String.intercalate_append_of_ne_nil hne (by simp), String.intercalate_singleton,
        String.utf8ByteSize_append, String.utf8ByteSize_append]
      rfl
    have hstart : ("/".intercalate d).utf8ByteSize ≤ ("/".intercalate (d ++ rest)).utf8ByteSize := by
      by_cases hrest : rest = []
      · rw [hrest, List.append_nil]
      · rw [String.intercalate_append_of_ne_nil hne hrest, String.utf8ByteSize_append,
          String.utf8ByteSize_append]
        omega
    omega

/-- From an ordinary start everything can be looked at. -/
theorem Ordinary.searchable {fs : Files} {start : Place} (h : Ordinary fs start) (found : Option Place) :
    Searchable fs start found := by
  rintro _ (@⟨d, name, hd, hname⟩) - f hbarred
  cases hbarred with
  | longPath long =>
    have hle := utf8ByteSize_candidate_le hd name
    have hshort := h.path name hname
    omega
  | onTheWay _ stops =>
    obtain ⟨before, part, after, directory, heq, -, -, hbars⟩ := stops
    cases hbars with
    | closed hclosed => simp [h.opened] at hclosed
    | long _ long =>
      have hnames : ∀ name ∈ fileNames, name.utf8ByteSize ≤ Files.partLimit := by decide
      have hpart : part ∈ d ++ [name] := heq ▸ List.mem_append_right before List.mem_cons_self
      rcases List.mem_append.mp hpart with hpart | hpart
      · exact absurd long (Nat.not_lt.mpr (h.parts part (hd.subset hpart)))
      · rw [List.mem_singleton.mp hpart] at long
        exact absurd long (Nat.not_lt.mpr (hnames _ hname))

/-! ## Changes that are not noticed -/

/-- A place of one tree is another's, as far as a search that came to an answer can tell: either both or neither have a
regular file there and it can be looked at as before, so that directories with an accepted name may come and go; or it
is no place that the search looks at; or it is one behind the answer, farther up or with a later name. -/
inductive Unnoticed (fs fs' : Files) (start : Place) (found : Option Place) (place : Place) : Prop
  | kept (same : fs'.isFile place = fs.isFile place) (told : ∀ f, Barred fs' place f → Barred fs place f)
  | outside (off : ∀ d, d <+: start → ∀ name ∈ fileNames, place ≠ d ++ [name])
  | farther {directory d : Place} {first name : String} (answer : found = some (directory ++ [first]))
      (above : d <+: directory) (ne : d ≠ directory) (is : place = d ++ [name])
  | later {directory : Place} {first name : String} (answer : found = some (directory ++ [first]))
      (behind : fileNames.idxOf first < fileNames.idxOf name) (is : place = directory ++ [name])

/-- A candidate that comes no later than the answer is kept. -/
theorem Unnoticed.of_candidate {fs fs' : Files} {start q : Place} {found : Option Place}
    (h : Unnoticed fs fs' start found q) (hq : IsCandidate start q) (hup : ∀ p ∈ found, q = p ∨ Before q p) :
    fs'.isFile q = fs.isFile q ∧ ∀ f, Barred fs' q f → Barred fs q f := by
  -- what is behind the answer is neither the answer nor before it
  have hbehind : ∀ p, found = some p → ¬ Before p q := by
    rintro p rfl hbefore
    rcases hup p rfl with rfl | h
    · exact hbefore.asymm hbefore
    · exact h.asymm hbefore
  cases h with
  | kept same told => exact ⟨same, told⟩
  | outside off =>
    obtain ⟨hd, hname⟩ := hq
    exact absurd rfl (off _ hd _ hname)
  | farther answer above ne is =>
    exact absurd (is ▸ before_concat_iff.mpr (.inl ⟨above, ne⟩)) (hbehind _ answer)
  | later answer behind is =>
    exact absurd (is ▸ before_concat_iff.mpr (.inr ⟨rfl, behind⟩)) (hbehind _ answer)

theorem Finds.of_unnoticed {fs fs' : Files} {start : Place} {found : Option Place} (h : Finds fs start found)
    (hchanges : ∀ place, Unnoticed fs fs' start found place) : Finds fs' start found := by
  cases found with
  | none =>
    rw [finds_none_iff] at h ⊢
    intro q hq
    rw [((hchanges q).of_candidate hq nofun).1, h q hq]
  | some p =>
    rw [finds_some_iff] at h ⊢
    obtain ⟨hp, hfile, hbefore⟩ := h
    have hkept : ∀ q, IsCandidate start q → q = p ∨ Before q p → fs'.isFile q = fs.isFile q := by
      intro q hq hup
      refine ((hchanges q).of_candidate hq ?_).1
      rintro _ ⟨⟩
      exact hup
    exact ⟨hp, (hkept p hp (.inl rfl)).trans hfile, fun q hq h => (hkept q hq (.inr h)).trans (hbefore q hq h)⟩

theorem Searchable.of_unnoticed {fs fs' : Files} {start : Place} {found : Option Place}
    (h : Searchable fs start found) (hchanges : ∀ place, Unnoticed fs fs' start found place) :
    Searchable fs' start found := fun q hq hup f hbarred =>
  h q hq hup f (((hchanges q).of_candidate hq hup).2 f hbarred)

/-! ## The search -/

theorem search_decides (fs : Files) (start : Option Path) :
    Decides (search fs start)
      (fun found => (∀ path ∈ start, hasNull path.text = false) ∧ Finds fs (startPlace fs start) found ∧
        Searchable fs (startPlace fs start) found)
      (fun e => (e = .nullName ∧ ∃ path ∈ start, hasNull path.text = true) ∨
        (∀ path ∈ start, hasNull path.text = false) ∧
          ∃ f p, e = .unsearchable f p ∧ BreaksOff fs (startPlace fs start) p f) := by
  by_cases hnull : (start.any fun path => hasNull path.text) = true
  · have hexists : ∃ path ∈ start, hasNull path.text = true := (Option.any_eq_true _ _).mp hnull
    have hnot : ¬ ∀ path ∈ start, hasNull path.text = false := by
      intro hforall
      obtain ⟨path, hpath, hin⟩ := hexists
      rw [hforall path hpath] at hin
      exact absurd hin Bool.false_ne_true
    refine .of_total (fun found hfound => absurd hfound.1 hnot) ?_ (.inr ⟨_, .inl ⟨rfl, hexists⟩⟩)
    rintro e (⟨rfl, -⟩ | ⟨hforall, -⟩)
    · rw [search, if_pos hnull]
    · exact absurd hforall hnot
  · have hforall : ∀ path ∈ start, hasNull path.text = false := by
      intro path hpath
      rw [Option.mem_def.mp hpath, Option.any_some] at hnull
      exact Bool.eq_false_iff.mpr hnull
    have hnot : ¬ ∃ path ∈ start, hasNull path.text = true := by
      rintro ⟨path, hpath, hin⟩
      rw [hforall path hpath] at hin
      exact absurd hin Bool.false_ne_true
    have hlist := firstFile_decides fs (candidates (startPlace fs start))
    rw [search, if_neg hnull]
    refine ⟨fun found => ?_, fun e => ?_⟩
    · rw [hlist.eq_ok_iff, comes_candidates_iff, and_iff_right hforall]
    · rw [hlist.eq_error_iff, exists_breaksOff_iff, and_iff_right hforall, or_iff_right fun h => hnot h.2]

/-- **The search finds the nearest configuration file, if it can look at all that comes before.** It comes to the first
accepted name in the nearest directory, from the resolved start up to the root, in which one is a regular file; or to
nothing, if there is none in any of these. It fails exactly when the start is no path at all, by a null character, or
when a candidate that comes no later than the answer cannot be looked at. From an ordinary start this does not happen.
And whatever changes in the file tree elsewhere does not change the answer: farther up, under later names in the same
directory, outside of the directories above the start, or where no regular file comes or goes. -/
theorem search_finds_nearest (fs : Files) (start : Option Path) :
    Decides (search fs start)
        (fun found => (∀ path ∈ start, hasNull path.text = false) ∧ Finds fs (startPlace fs start) found ∧
          Searchable fs (startPlace fs start) found)
        (fun e => (e = .nullName ∧ ∃ path ∈ start, hasNull path.text = true) ∨
          (∀ path ∈ start, hasNull path.text = false) ∧
            ∃ f p, e = .unsearchable f p ∧ BreaksOff fs (startPlace fs start) p f) ∧
      ((∀ path ∈ start, hasNull path.text = false) → Ordinary fs (startPlace fs start) →
        ∃ found, search fs start = .ok found ∧
          ∀ answer, Finds fs (startPlace fs start) answer ↔ answer = found) ∧
      ∀ found, search fs start = .ok found → ∀ fs' : Files, fs'.workingDirectory = fs.workingDirectory →
        (∀ place, Unnoticed fs fs' (startPlace fs start) found place) → search fs' start = .ok found := by
  refine ⟨search_decides fs start, fun hpath hordinary => ?_, fun found hfound fs' hsame hchanges => ?_⟩
  · cases hsearch : search fs start with
    | ok found =>
      refine ⟨found, rfl, fun answer => ⟨fun hanswer => ?_, ?_⟩⟩
      · have hok := ((search_decides fs start).eq_ok_iff answer).mpr ⟨hpath, hanswer, hordinary.searchable answer⟩
        exact Except.ok.inj (hok.symm.trans hsearch)
      · rintro rfl
        exact (((search_decides fs start).eq_ok_iff answer).mp hsearch).2.1
    | error e =>
      rcases ((search_decides fs start).eq_error_iff e).mp hsearch with ⟨-, path, hin, hnull⟩ | ⟨-, f, p, -, hbreaks⟩
      · rw [hpath path hin] at hnull
        exact absurd hnull Bool.false_ne_true
      · exact absurd hbreaks.barred (hordinary.searchable none p hbreaks.candidate nofun f)
  · obtain ⟨hpath, hfinds, hsearchable⟩ := ((search_decides fs start).eq_ok_iff found).mp hfound
    have hstart : startPlace fs' start = startPlace fs start := by
      unfold startPlace
      rw [hsame]
    rw [(search_decides fs' start).eq_ok_iff, hstart]
    exact ⟨hpath, hfinds.of_unnoticed hchanges, hsearchable.of_unnoticed hchanges⟩

/-- A search from a directory that does not exist, past one that is named like a configuration file. The other tree
has that directory besides, lacks the file at the root, and has files under a later name and off the way. -/
theorem search_finds_nearest_among_changes :
    let fs : Files :=
      { entries := [(["a", ".commentlintrc.json"], .file []), ([".commentlintrc"], .file [])]
        workingDirectory := ["a", "c"] }
    let fs' : Files :=
      { entries := [(["a", ".commentlintrc"], .directory), (["a", ".commentlintrc.json"], .file []),
          (["a", ".commentlintrc.yml"], .file []), (["b", ".commentlintrc"], .file [])]
        workingDirectory := ["a", "c"] }
    let start := some (Path.ofString ".././x")
    let found := some ["a", ".commentlintrc.json"]
    startPlace fs start = ["a", "x"] ∧ search fs start = .ok found ∧
      (∀ place, Unnoticed fs fs' (startPlace fs start) found place) ∧ search fs' start = .ok found := by
  intro fs fs' start found
  have hplace : startPlace fs start = ["a", "x"] := by decide +kernel
  have hfound : search fs start = .ok found := by decide +kernel
  have htold : ∀ q ∈ candidates ["a", "x"], fs'.barred? q = none := by decide +kernel
  have hfiles : ∀ q ∈ candidates ["a", "x"], q = [] ++ [".commentlintrc"] ∨ q = ["a"] ++ [".commentlintrc.yml"] ∨
      fs'.isFile q = fs.isFile q := by decide +kernel
  have hchanges : ∀ place, Unnoticed fs fs' (startPlace fs start) found place := by
    intro place
    rw [hplace]
    have hdivided : found = some (["a"] ++ [".commentlintrc.json"]) := rfl
    by_cases hcandidate : place ∈ candidates ["a", "x"]
    · rcases hfiles place hcandidate with hfarther | hlater | hsame
      · exact .farther hdivided (by decide) (by decide) hfarther
      · exact .later hdivided (by decide) hlater
      · exact .kept hsame fun f h => absurd h (barred?_eq_none_iff.mp (htold place hcandidate) f)
    · refine .outside fun d hd name hname heq => hcandidate ?_
      rw [heq]
      exact mem_candidates_iff.mpr (.intro hd hname)
  exact ⟨hplace, hfound, hchanges, (search_finds_nearest fs start).2.2 found hfound fs' rfl hchanges⟩

/-- A file lies in the working directory, but a name that is too long, or a directory that is closed, is looked at
before it. -/
theorem search_ends_before_file :
    let fs : Files := { entries := [(["w", ".commentlintrc"], .file []), (["w", "x"], .directory)]
                        workingDirectory := ["w"], closed := [["w", "x"]] }
    let name := String.ofList (List.replicate 256 'a')
    let found := some ["w", ".commentlintrc"]
    (Finds fs ["w", name] found ∧ search fs (some ⟨"", [name]⟩) =
        .error (.unsearchable .nameTooLong ["w", name, ".commentlintrc"])) ∧
      Finds fs ["w", "x"] found ∧ search fs (some ⟨"", ["x"]⟩) =
        .error (.unsearchable .denied ["w", "x", ".commentlintrc"]) := by
  intro fs name found
  have hfinds : ∀ part, part = name ∨ part = "x" → Finds fs ["w", part] found := by
    intro part hpart
    refine .nearest (List.prefix_append ["w"] [part]) ⟨by decide, by decide, by decide⟩ fun d hd hup hne => ?_
    have hd : d = ["w", part] := by
      rcases List.prefix_concat_iff.mp (show d <+: ["w"] ++ [part] from hd) with hd | hd
      · exact hd
      · exact absurd (hd.eq_of_length_le hup.length_le) hne
    subst hd
    unfold HasNone
    rcases hpart with rfl | rfl
    · decide +kernel
    · decide +kernel
  exact ⟨⟨hfinds name (.inl rfl), by decide +kernel⟩, hfinds "x" (.inr rfl), by decide +kernel⟩

end CommentStyle.Config
