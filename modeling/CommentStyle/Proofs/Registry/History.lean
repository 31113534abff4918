import CommentStyle.Registry
import Mathlib.Data.List.Induction
import Mathlib.Logic.Function.Basic

/-!
# A registry and the calls made on it

What a registry holds is fixed by the calls made on it so far. A call makes changes, each of which adds a
rule under a name or removes a name; a refused call makes none, and loading entry-points may make many.

* **`Call`**, **`Call.run`** — the calls that may change a registry, with the fault each may end in.
* **`Change`**, **`Call.changes`**, **`history`** — the changes that the calls of a sequence make.
* **`find?_run`** — the one step: the rules under all names after a call are those before, with the changes
  of the call played on them. Loading is a loop, so this is an induction on the entry-points.
* **`find?_after`**, **`foldl_play`** — a whole sequence of calls, and what the changes come to under one
  name: only the last one counts.
* **`registerAs_cases`**, **`registerAs_outcomes`** — the ways a registration can go, in the order in which
  it is judged.
* **`after_calls_obeys_history`** — the headline. It also says where a call that fails has changed something
  all the same: a loading that breaks off at an entry-point keeps what it has registered before, and it
  breaks off where something that is no rule cannot even be shown.
-/

namespace CommentStyle

/-- The candidate is a rule, to be registered as such. -/
def Candidate.IsRule (c : Candidate) : Prop := ∃ rule, c = .rule rule

/-- The candidate can be put into the words of a message, unless the attempt to do so ends like a refusal, with a
type error. -/
def Candidate.CanBeShown (c : Candidate) : Prop := ∀ b, c.shown = .error b → b.isTypeError = true

/-- The fault is one of what was offered, rather than of the state of the registry. -/
def RegistryFault.IsOfCandidate : RegistryFault → Prop
  | notRule _ _ | mistold _ | unnamed _ => True
  | unshown _ | taken _ _ | absent _ _ => False

namespace Registry

/-! ## Calls -/

/-- A call that may change a registry. -/
inductive Call where
  | register (c : Candidate)
  | registerAs (name : String) (c : Candidate)
  | deregister (name : String)
  | load (group : String) (es : List EntryPoint)

/-- Why a call fails: it is refused, or broken off by what cannot be shown. -/
inductive CallFault where
  | refused (f : RegistryFault)
  | broken (b : Breach)

/-- The registry after an attempt that either gives a new one or is refused and leaves the old one. -/
def attempt (r : Registry) : Except RegistryFault Registry → Registry × Option CallFault
  | .ok r' => (r', none)
  | .error f => (r, some (.refused f))

/-- The registry after a call, and the fault that the call ends in. -/
def Call.run (r : Registry) : Call → Registry × Option CallFault
  | register c => r.attempt (r.register c)
  | registerAs name c => r.attempt (r.registerAs name c)
  | deregister name => r.attempt (r.deregister name)
  | load group es => ((r.load group es).registry, (r.load group es).fault.map .broken)

/-- The registry after a sequence of calls, whether they fail or not. -/
def after (r : Registry) (calls : List Call) : Registry := calls.foldl (fun r call => (call.run r).1) r

/-! ## Changes -/

inductive Change where
  | added (name : String) (rule : Rule)
  | removed (name : String)

def Change.name : Change → String
  | added name _ | removed name => name

/-- The change that a registration makes, if it succeeds. -/
def registration (r : Registry) (name : String) (c : Candidate) : List Change :=
  match c, r.registerAs name c with
  | .rule rule, .ok _ => [.added name rule]
  | _, _ => []

/-- The change that one entry-point makes. -/
def entryChanges (r : Registry) (e : EntryPoint) : List Change :=
  match e.load with
  | .ok c => r.registration e.name c
  | .error _ => []

/-- The changes that loading makes, up to the entry-point that breaks it off, if one does. -/
def loadChanges (r : Registry) (group : String) : List EntryPoint → List Change
  | [] => []
  | e :: es =>
    if e.group = group then
      r.entryChanges e ++
        match (r.loadOne group e).fault with
        | some _ => []
        | none => loadChanges (r.loadOne group e).registry group es
    else loadChanges r group es

/-- The change that taking a name away makes, if it succeeds. -/
def deregistration (r : Registry) (name : String) : List Change :=
  match r.deregister name with
  | .ok _ => [.removed name]
  | .error _ => []

/-- The changes that a call makes, in order. -/
def Call.changes (r : Registry) : Call → List Change
  | register c => r.registration c.optionName c
  | registerAs name c => r.registration name c
  | deregister name => r.deregistration name
  | load group es => r.loadChanges group es

/-- The changes that a sequence of calls makes. -/
def history (r : Registry) : List Call → List Change
  | [] => []
  | call :: rest => call.changes r ++ history (call.run r).1 rest

/-- The last change made under a name. -/
def lastChange (name : String) (changes : List Change) : Option Change :=
  (changes.filter fun change => change.name = name).getLast?

/-! ## Playing changes -/

/-- The rules under all names after a change. -/
def play (rules : String → Option Rule) : Change → String → Option Rule
  | .added name rule => Function.update rules name (some rule)
  | .removed name => Function.update rules name none

/-- Under one name only the last change made there counts. -/
theorem foldl_play (rules : String → Option Rule) (changes : List Change) (n : String) :
    changes.foldl play rules n =
      match lastChange n changes with
      | some (.added _ rule) => some rule
      | some (.removed _) => none
      | none => rules n := by
  induction changes using List.reverseRecOn with
  | nil => rfl
  | append_singleton changes change ih =>
    rw [List.foldl_append, List.foldl_cons, List.foldl_nil]
    by_cases hname : change.name = n
    · -- the new change is the last one under this name
      have hlast : lastChange n (changes ++ [change]) = some change := by
        simp [lastChange, List.filter_append, hname]
      rw [hlast]
      cases change with
      | added name rule => subst hname; exact Function.update_self ..
      | removed name => subst hname; exact Function.update_self ..
    · have hlast : lastChange n (changes ++ [change]) = lastChange n changes := by
        simp [lastChange, List.filter_append, hname]
      rw [hlast, ← ih]
      cases change with
      | added name rule => exact Function.update_of_ne (fun h => hname h.symm) ..
      | removed name => exact Function.update_of_ne (fun h => hname h.symm) ..

/-! ## One registration -/

theorem contains_eq_false_iff (r : Registry) (name : String) :
    r.contains name = false ↔ r.find? name = none := by
  rw [contains, Option.isSome_eq_false_iff, Option.isNone_iff_eq_none]

/-- What is no rule is refused for what it is, or cannot even be shown. -/
theorem refusal_cases (c : Candidate) (name : String) :
    (c.CanBeShown ∧ (c.refusal name).IsOfCandidate) ∨ ¬ c.CanBeShown ∧ ∃ b, c.refusal name = .unshown b := by
  unfold Candidate.CanBeShown Candidate.refusal
  cases c.shown with
  | ok shown => exact .inl ⟨by simp, trivial⟩
  | error b =>
    by_cases htype : b.isTypeError = true
    · exact .inl ⟨by simpa using htype, by simp only [htype, if_true]; trivial⟩
    · exact .inr ⟨by simpa using htype, b, by simp only [htype]; rfl⟩

/-- **The ways a registration can go**, in the order in which it is judged: what is no rule is refused, or
cannot even be shown; a rule needs a name, and the name must be free. -/
theorem registerAs_cases (r : Registry) (name : String) (c : Candidate) :
    (∃ rule, c = .rule rule ∧ name ≠ "" ∧ r.find? name = none
        ∧ r.registerAs name c = .ok { r with entries := r.entries ++ [(name, rule)] }) ∨
      (∃ rule, c = .rule rule ∧ name ≠ "" ∧ r.find? name ≠ none
        ∧ r.registerAs name c = .error (.taken name r.name)) ∨
      (∃ rule, c = .rule rule ∧ name = "" ∧ r.registerAs name c = .error (.unnamed rule.name)) ∨
      (∃ f, ¬ c.IsRule ∧ c.CanBeShown ∧ f.IsOfCandidate ∧ r.registerAs name c = .error f) ∨
      ∃ b, ¬ c.IsRule ∧ ¬ c.CanBeShown ∧ r.registerAs name c = .error (.unshown b) := by
  by_cases hrule : c.IsRule
  · obtain ⟨rule, rfl⟩ := hrule
    by_cases hname : name = ""
    · exact Or.inr (Or.inr (Or.inl ⟨rule, rfl, hname, by rw [registerAs, if_pos hname]⟩))
    · by_cases hfree : r.find? name = none
      · have hcontains := (contains_eq_false_iff r name).mpr hfree
        exact Or.inl ⟨rule, rfl, hname, hfree, by simp [registerAs, hname, hcontains]⟩
      · have hcontains : r.contains name = true := by
          rw [← Bool.not_eq_false, contains_eq_false_iff]
          exact hfree
        exact Or.inr (Or.inl ⟨rule, rfl, hname, hfree, by simp [registerAs, hname, hcontains]⟩)
  · have hreg : r.registerAs name c = .error (c.refusal name) := by
      cases c with
      | rule rule => exact absurd ⟨rule, rfl⟩ hrule
      | made rule => rfl
      | thing shown option => rfl
    rcases refusal_cases c name with ⟨hcan, hof⟩ | ⟨hcan, b, hb⟩
    · exact Or.inr (Or.inr (Or.inr (Or.inl ⟨_, hrule, hcan, hof, hreg⟩)))
    · rw [hb] at hreg
      exact Or.inr (Or.inr (Or.inr (Or.inr ⟨b, hrule, hcan, hreg⟩)))

/-- Exactly when a registration goes each of these ways. -/
theorem registerAs_outcomes (r : Registry) (n : String) (c : Candidate) :
    ((∃ r', r.registerAs n c = .ok r') ↔ c.IsRule ∧ n ≠ "" ∧ r.find? n = none) ∧
      (r.registerAs n c = .error (.taken n r.name) ↔ c.IsRule ∧ n ≠ "" ∧ r.find? n ≠ none) ∧
      ((∃ f, r.registerAs n c = .error f ∧ f.IsOfCandidate) ↔
        c.IsRule ∧ n = "" ∨ ¬ c.IsRule ∧ c.CanBeShown) ∧
      ((∃ m, r.registerAs n c = .error (.unshown m)) ↔ ¬ c.IsRule ∧ ¬ c.CanBeShown) := by
  rcases registerAs_cases r n c with ⟨rule, rfl, hne, hfree, hreg⟩ | ⟨rule, rfl, hne, htaken, hreg⟩ |
    ⟨rule, rfl, hempty, hreg⟩ | ⟨f, hrule, hshown, hf, hreg⟩ | ⟨b, hrule, hshown, hreg⟩
  · have hrule : (Candidate.rule rule).IsRule := ⟨rule, rfl⟩
    simp [hreg, hrule, hne, hfree]
  · have hrule : (Candidate.rule rule).IsRule := ⟨rule, rfl⟩
    simp [hreg, hrule, hne, htaken, RegistryFault.IsOfCandidate]
  · have hrule : (Candidate.rule rule).IsRule := ⟨rule, rfl⟩
    subst hempty
    simp [hreg, hrule, RegistryFault.IsOfCandidate]
  · have htaken : f ≠ .taken n r.name := by
      rintro rfl
      exact hf
    have hunshown : ∀ b, f ≠ .unshown b := by
      rintro b rfl
      exact hf
    simp [hreg, hrule, hshown, hf, htaken, hunshown]
  · simp [hreg, hrule, hshown, RegistryFault.IsOfCandidate]

/-- A rule put at the end is found under its name, which was free. -/
theorem find?_concat {r : Registry} {name : String} (rule : Rule) (hfree : r.find? name = none) :
    ({ r with entries := r.entries ++ [(name, rule)] } : Registry).find?
      = Function.update r.find? name (some rule) := by
  funext n
  show (r.entries ++ [(name, rule)]).lookup n = _
  rw [List.lookup_append]
  by_cases hn : n = name
  · subst hn
    rw [show r.entries.lookup n = none from hfree, Function.update_self]
    simp
  · rw [Function.update_of_ne hn]
    have hbeq : (n == name) = false := by simpa using hn
    simp [List.lookup_cons, hbeq, find?]

/-- What is registered under another name stays there. -/
theorem find?_concat_of_some {r : Registry} {name n : String} {rule : Rule} (hn : r.find? n = some rule)
    (added : Rule) (hfree : r.find? name = none) :
    ({ r with entries := r.entries ++ [(name, added)] } : Registry).find? n = some rule := by
  have hne : n ≠ name := by
    rintro rfl
    rw [hfree] at hn
    exact absurd hn (by simp)
  rw [find?_concat added hfree, Function.update_of_ne hne, hn]

/-- A registration adds its rule under a free name, or is refused and changes nothing. -/
theorem registration_cases (r : Registry) (name : String) (c : Candidate) :
    (∃ rule, r.find? name = none ∧ r.registration name c = [.added name rule]
        ∧ r.registerAs name c = .ok { r with entries := r.entries ++ [(name, rule)] }) ∨
      ∃ f, r.registration name c = [] ∧ r.registerAs name c = .error f := by
  have hrefused : ∀ f, r.registerAs name c = .error f → r.registration name c = [] := by
    intro f hf
    unfold registration
    rw [hf]
    cases c <;> rfl
  rcases registerAs_cases r name c with ⟨rule, rfl, -, hfree, hreg⟩ | ⟨rule, -, -, -, hreg⟩ |
    ⟨rule, -, -, hreg⟩ | ⟨f, -, -, -, hreg⟩ | ⟨b, -, -, hreg⟩
  · refine Or.inl ⟨rule, hfree, ?_, hreg⟩
    unfold registration
    rw [hreg]
  all_goals exact Or.inr ⟨_, hrefused _ hreg, hreg⟩

/-- A registration changes a registry by what it adds. -/
theorem find?_attempt_registerAs (r : Registry) (name : String) (c : Candidate) :
    (r.attempt (r.registerAs name c)).1.find? = (r.registration name c).foldl play r.find? := by
  rcases registration_cases r name c with ⟨rule, hfree, hchange, hreg⟩ | ⟨f, hchange, hreg⟩
  · rw [hreg, hchange]
    exact find?_concat rule hfree
  · rw [hreg, hchange]
    rfl

/-- Without the entries of a name, nothing is found under it, and all else as before. -/
theorem lookup_filter_ne (entries : List (String × Rule)) (name n : String) :
    (entries.filter fun e => e.1 ≠ name).lookup n = if n = name then none else entries.lookup n := by
  induction entries with
  | nil => simp
  | cons e rest ih =>
    obtain ⟨k, rule⟩ := e
    by_cases hk : k = name
    · rw [List.filter_cons_of_neg (by simpa using hk), ih]
      by_cases hn : n = name
      · rw [if_pos hn, if_pos hn]
      · have hbeq : (n == k) = false := by simpa [hk] using hn
        rw [if_neg hn, if_neg hn, List.lookup_cons, hbeq]
    · rw [List.filter_cons_of_pos (by simpa using hk), List.lookup_cons, List.lookup_cons, ih]
      by_cases hn : n = name
      · have hbeq : (n == k) = false := by simpa [hn] using fun h : name = k => hk h.symm
        simp only [hbeq, if_pos hn]
      · simp only [if_neg hn]

theorem find?_attempt_deregister (r : Registry) (name : String) :
    (r.attempt (r.deregister name)).1.find? = (r.deregistration name).foldl play r.find? := by
  unfold deregistration deregister
  by_cases hcontains : r.contains name = true
  · rw [if_pos hcontains]
    funext n
    show (r.entries.filter fun e => e.1 ≠ name).lookup n = Function.update r.find? name none n
    rw [lookup_filter_ne, Function.update_apply]
    rfl
  · rw [if_neg hcontains]
    rfl

/-! ## Loading -/

/-- What one entry-point does: it adds its rule, or it changes nothing. -/
theorem loadOne_cases (r : Registry) (group : String) (e : EntryPoint) :
    (∃ rule, r.find? e.name = none ∧ r.entryChanges e = [.added e.name rule]
        ∧ (r.loadOne group e).registry = { r with entries := r.entries ++ [(e.name, rule)] }
        ∧ (r.loadOne group e).fault = none) ∨
      r.entryChanges e = [] ∧ (r.loadOne group e).registry = r := by
  unfold loadOne entryChanges
  cases hload : e.load with
  | error f =>
    refine Or.inr ⟨rfl, ?_⟩
    cases r.contains e.name <;> rfl
  | ok c =>
    rcases registration_cases r e.name c with ⟨rule, hfree, hchange, hreg⟩ | ⟨f, hchange, hreg⟩
    · have hcontains := (contains_eq_false_iff r e.name).mpr hfree
      refine Or.inl ⟨rule, hfree, hchange, ?_, ?_⟩ <;> simp [hcontains, hreg]
    · -- a name that is taken is not even tried; else the registration is refused
      refine Or.inr ⟨hchange, ?_⟩
      cases r.contains e.name with
      | true => rfl
      | false =>
        simp only [Bool.false_eq_true, if_false, hreg]
        cases f <;> rfl

theorem find?_loadOne (r : Registry) (group : String) (e : EntryPoint) :
    (r.loadOne group e).registry.find? = (r.entryChanges e).foldl play r.find? := by
  rcases loadOne_cases r group e with ⟨rule, hfree, hchange, hreg, -⟩ | ⟨hchange, hreg⟩
  · rw [hreg, hchange]
    exact find?_concat rule hfree
  · rw [hreg, hchange]
    rfl

theorem load_of_group_ne {e : EntryPoint} {group : String} (hgroup : e.group ≠ group) (r : Registry)
    (es : List EntryPoint) : r.load group (e :: es) = r.load group es := by
  rw [load, if_neg hgroup]

theorem load_of_fault {r : Registry} {e : EntryPoint} {group : String} {b : Breach}
    (hgroup : e.group = group) (hfault : (r.loadOne group e).fault = some b) (es : List EntryPoint) :
    r.load group (e :: es) = r.loadOne group e := by
  rw [load, if_pos hgroup]
  simp only [hfault]

theorem registry_load_of_no_fault {r : Registry} {e : EntryPoint} {group : String}
    (hgroup : e.group = group) (hfault : (r.loadOne group e).fault = none) (es : List EntryPoint) :
    (r.load group (e :: es)).registry = ((r.loadOne group e).registry.load group es).registry := by
  rw [load, if_pos hgroup]
  simp only [hfault]

/-- **Loading changes a registry by what its entry-points add**, by induction on these. -/
theorem find?_load (r : Registry) (group : String) (es : List EntryPoint) :
    (r.load group es).registry.find? = (r.loadChanges group es).foldl play r.find? := by
  induction es generalizing r with
  | nil => rfl
  | cons e es ih =>
    rw [loadChanges]
    by_cases hgroup : e.group = group
    · rw [if_pos hgroup, List.foldl_append, ← find?_loadOne r group e]
      cases hfault : (r.loadOne group e).fault with
      | some m =>
        rw [load_of_fault hgroup hfault]
        rfl
      | none =>
        rw [registry_load_of_no_fault hgroup hfault]
        exact ih _
    · rw [if_neg hgroup, load_of_group_ne hgroup]
      exact ih r

/-! ## Calls and sequences of calls -/

/-- **One call.** The rules under all names are those before with the changes of the call played on
them. -/
theorem find?_run (r : Registry) (call : Call) :
    (call.run r).1.find? = (call.changes r).foldl play r.find? := by
  cases call with
  | register c => exact find?_attempt_registerAs r c.optionName c
  | registerAs name c => exact find?_attempt_registerAs r name c
  | deregister name => exact find?_attempt_deregister r name
  | load group es => exact find?_load r group es

theorem find?_after (r : Registry) (calls : List Call) :
    (r.after calls).find? = (r.history calls).foldl play r.find? := by
  induction calls generalizing r with
  | nil => rfl
  | cons call rest ih =>
    rw [history, List.foldl_append, ← find?_run]
    exact ih (call.run r).1

/-- Loading never takes a rule away or puts another in its place. -/
theorem find?_load_of_some {r : Registry} {n : String} {rule : Rule} (hn : r.find? n = some rule)
    (group : String) (es : List EntryPoint) : (r.load group es).registry.find? n = some rule := by
  induction es generalizing r with
  | nil => exact hn
  | cons e es ih =>
    by_cases hgroup : e.group = group
    · have hone : (r.loadOne group e).registry.find? n = some rule := by
        rcases loadOne_cases r group e with ⟨added, hfree, -, hreg, -⟩ | ⟨-, hreg⟩
        · rw [hreg, find?_concat_of_some hn added hfree]
        · rw [hreg, hn]
      cases hfault : (r.loadOne group e).fault with
      | some m => rwa [load_of_fault hgroup hfault]
      | none =>
        rw [registry_load_of_no_fault hgroup hfault]
        exact ih hone
    · rw [load_of_group_ne hgroup]
      exact ih hn

/-- A loading that adds anything is seen in the registry. -/
theorem find?_load_ne {r : Registry} {group : String} {es : List EntryPoint}
    (hchanges : r.loadChanges group es ≠ []) : (r.load group es).registry.find? ≠ r.find? := by
  induction es generalizing r with
  | nil => exact absurd rfl hchanges
  | cons e es ih =>
    rw [loadChanges] at hchanges
    by_cases hgroup : e.group = group
    · rw [if_pos hgroup] at hchanges
      rcases loadOne_cases r group e with ⟨added, hfree, hchange, hreg, hfault⟩ | ⟨hchange, hreg⟩
      · -- this entry-point adds a rule under a free name, and the rest of the loading keeps it
        have hfound : (r.loadOne group e).registry.find? e.name = some added := by
          rw [hreg, find?_concat added hfree, Function.update_self]
        have hkept := find?_load_of_some hfound group es
        rw [registry_load_of_no_fault hgroup hfault]
        intro hsame
        rw [hsame, hfree] at hkept
        exact absurd hkept (by simp)
      · rw [hchange, List.nil_append] at hchanges
        cases hfault : (r.loadOne group e).fault with
        | some m =>
          rw [hfault] at hchanges
          exact absurd rfl hchanges
        | none =>
          rw [hfault, hreg] at hchanges
          rw [registry_load_of_no_fault hgroup hfault, hreg]
          exact ih hchanges
    · rw [if_neg hgroup] at hchanges
      rw [load_of_group_ne hgroup]
      exact ih hchanges

/-- No call but the one that takes a name away changes what is registered under the name. -/
theorem find?_run_of_some {r : Registry} {n : String} {rule : Rule} (hn : r.find? n = some rule)
    {call : Call} (hcall : call ≠ .deregister n) : (call.run r).1.find? n = some rule := by
  have hregister : ∀ name c, (r.attempt (r.registerAs name c)).1.find? n = some rule := by
    intro name c
    rcases registration_cases r name c with ⟨added, hfree, -, hreg⟩ | ⟨f, -, hreg⟩
    · rw [hreg]
      exact find?_concat_of_some hn added hfree
    · rw [hreg]
      exact hn
  cases call with
  | register c => exact hregister c.optionName c
  | registerAs name c => exact hregister name c
  | deregister name =>
    have hne : n ≠ name := fun h => hcall (by rw [h])
    rw [find?_run, Call.changes]
    unfold deregistration
    cases r.deregister name with
    | ok r' => exact (Function.update_of_ne hne ..).trans hn
    | error f => exact hn
  | load group es => exact find?_load_of_some hn group es

/-- A refused call changes nothing. -/
theorem run_attempt_of_fault {r : Registry} {x : Except RegistryFault Registry} {f : CallFault}
    (hfault : (r.attempt x).2 = some f) : (r.attempt x).1 = r := by
  cases x with
  | ok r' => exact absurd hfault (by simp [attempt])
  | error e => rfl

/-- A call that fails leaves the rules as they were exactly when it has made no change before. -/
theorem find?_run_of_fault {r : Registry} {call : Call} {f : CallFault}
    (hfault : (call.run r).2 = some f) :
    (call.run r).1.find? = r.find? ↔ call.changes r = [] := by
  constructor
  · intro hsame
    cases call with
    | load group es =>
      -- loading may fail after it has added rules, and these stay
      by_contra hchanges
      exact find?_load_ne hchanges hsame
    | register c =>
      rcases registration_cases r c.optionName c with ⟨rule, -, -, hreg⟩ | ⟨-, hchange, -⟩
      · rw [Call.run, register, hreg] at hfault
        exact absurd hfault (by simp [attempt])
      · exact hchange
    | registerAs name c =>
      rcases registration_cases r name c with ⟨rule, -, -, hreg⟩ | ⟨-, hchange, -⟩
      · rw [Call.run, hreg] at hfault
        exact absurd hfault (by simp [attempt])
      · exact hchange
    | deregister name =>
      rw [Call.run] at hfault
      rw [Call.changes, deregistration]
      cases hderegister : r.deregister name with
      | ok r' =>
        rw [hderegister] at hfault
        exact absurd hfault (by simp [attempt])
      | error e => rfl
  · intro hchanges
    rw [find?_run, hchanges]
    rfl

theorem name_loadOne (r : Registry) (group : String) (e : EntryPoint) :
    (r.loadOne group e).registry.name = r.name := by
  rcases loadOne_cases r group e with ⟨rule, -, -, hreg, -⟩ | ⟨-, hreg⟩ <;> rw [hreg]

theorem name_load (r : Registry) (group : String) (es : List EntryPoint) :
    (r.load group es).registry.name = r.name := by
  induction es generalizing r with
  | nil => rfl
  | cons e es ih =>
    by_cases hgroup : e.group = group
    · cases hfault : (r.loadOne group e).fault with
      | some m => rw [load_of_fault hgroup hfault, name_loadOne]
      | none => rw [registry_load_of_no_fault hgroup hfault, ih, name_loadOne]
    · rw [load_of_group_ne hgroup, ih]

theorem name_run (r : Registry) (call : Call) : (call.run r).1.name = r.name := by
  have hregister : ∀ name c, (r.attempt (r.registerAs name c)).1.name = r.name := by
    intro name c
    rcases registration_cases r name c with ⟨rule, -, -, hreg⟩ | ⟨f, -, hreg⟩ <;> rw [hreg] <;> rfl
  cases call with
  | register c => exact hregister c.optionName c
  | registerAs name c => exact hregister name c
  | deregister name =>
    rw [Call.run, deregister]
    split <;> rfl
  | load group es => exact name_load r group es

theorem name_after (r : Registry) (calls : List Call) : (r.after calls).name = r.name := by
  induction calls generalizing r with
  | nil => rfl
  | cons call rest ih => exact (ih (call.run r).1).trans (name_run r call)

/-! ## What the calls come to -/

theorem get_eq_ok_iff (r : Registry) (n : String) (rule : Rule) :
    r.get n = .ok rule ↔ r.find? n = some rule := by
  unfold get
  cases r.find? n <;> simp

/-- After calls on an empty registry, a rule is found under a name exactly when the last change there has
added it. -/
theorem find?_after_empty (name : String) (calls : List Call) (n : String) (rule : Rule) :
    (({ name } : Registry).after calls).find? n = some rule
      ↔ lastChange n (({ name } : Registry).history calls) = some (.added n rule) := by
  rw [find?_after, foldl_play]
  have hname : ∀ change, lastChange n (({ name } : Registry).history calls) = some change →
      change.name = n := fun change hchange => by
    have hmem := List.mem_of_getLast? hchange
    simpa using (List.mem_filter.mp hmem).2
  cases hlast : lastChange n (({ name } : Registry).history calls) with
  | none => simp [find?]
  | some change =>
    cases change with
    | added k added =>
      have hk : k = n := hname _ hlast
      simp [hk]
    | removed k => simp

/-- **A registry and its history.** In every state that calls on an empty registry lead to:

* a name gives a rule exactly when the last change made under the name has added that rule, and is reported
  as absent otherwise;
* no call puts another rule under a name that has one;
* a call that fails leaves all names as they were exactly when it has made no change by then, as is always
  so but for a loading that breaks off;
* a registration succeeds exactly when a rule is offered under a name that is not empty and free, is refused
  for the name being taken exactly when all but the last is so, and is refused for what was offered exactly
  when that is a rule without a name, or no rule and can be shown; what cannot be shown breaks it off. -/
theorem after_calls_obeys_history (name : String) (calls : List Call) :
    let r := ({ name } : Registry).after calls
    let last (n : String) := lastChange n (({ name } : Registry).history calls)
    (∀ n rule, r.get n = .ok rule ↔ last n = some (.added n rule)) ∧
      (∀ n, (∀ rule, last n ≠ some (.added n rule)) → r.get n = .error (.absent n name)) ∧
      (∀ (call : Call) n rule, r.get n = .ok rule → call ≠ .deregister n →
        (call.run r).1.get n = .ok rule) ∧
      (∀ (call : Call) f, (call.run r).2 = some f →
        ((call.run r).1.find? = r.find? ↔ call.changes r = []) ∧
          ((∀ group es, call ≠ .load group es) → (call.run r).1 = r)) ∧
      ∀ n c,
        ((∃ r', r.registerAs n c = .ok r') ↔ c.IsRule ∧ n ≠ "" ∧ r.find? n = none) ∧
        (r.registerAs n c = .error (.taken n name) ↔ c.IsRule ∧ n ≠ "" ∧ r.find? n ≠ none) ∧
        ((∃ f, r.registerAs n c = .error f ∧ f.IsOfCandidate) ↔
          c.IsRule ∧ n = "" ∨ ¬ c.IsRule ∧ c.CanBeShown) ∧
        ((∃ m, r.registerAs n c = .error (.unshown m)) ↔ ¬ c.IsRule ∧ ¬ c.CanBeShown) := by
  intro r last
  have hname : r.name = name := name_after _ calls
  refine ⟨fun n rule => ?_, fun n hlast => ?_, fun call n rule hn hcall => ?_, fun call f hfault => ?_,
    fun n c => ?_⟩
  · rw [get_eq_ok_iff, find?_after_empty]
  · have hnone : r.find? n = none := by
      rw [Option.eq_none_iff_forall_ne_some]
      intro rule hrule
      exact hlast rule ((find?_after_empty name calls n rule).mp hrule)
    rw [get, hnone, hname]
  · rw [get_eq_ok_iff] at hn ⊢
    exact find?_run_of_some hn hcall
  · refine ⟨find?_run_of_fault hfault, fun hload => ?_⟩
    cases call with
    | register c => exact run_attempt_of_fault hfault
    | registerAs k c => exact run_attempt_of_fault hfault
    | deregister k => exact run_attempt_of_fault hfault
    | load group es => exact absurd rfl (hload group es)
  · rw [← hname]
    exact registerAs_outcomes r n c

/-- A rule without an option name, set up for a run, is no rule to register and cannot be shown: offered on
its own it is not refused as such, and loaded as an entry-point it breaks the loading off, which keeps the
rule that it has registered before. -/
theorem unshown_breaks_loading_off :
    let plain := Rule.scripted "Plain" {}
    let r : Registry := { name := "r" }
    let call := Call.load ruleGroup [{ name := "a", load := .ok (.rule plain) },
      { name := "b", load := .ok (.made plain) }]
    (∀ shown, r.registerAs "b" (.made plain) ≠ .error (.notRule shown "b")) ∧
      (∃ f, (call.run r).2 = some f) ∧ r.find? "a" = none
      ∧ (call.run r).1.find? "a" = some plain := by
  intro plain r call
  refine ⟨fun shown h => ?_, ⟨_, rfl⟩, rfl, rfl⟩
  have hunshown : r.registerAs "b" (.made plain)
      = .error (.unshown (.lacking { rule := "Plain", lacking := "option_name" })) := rfl
  rw [hunshown] at h
  exact absurd h (by simp)

end Registry

end CommentStyle
