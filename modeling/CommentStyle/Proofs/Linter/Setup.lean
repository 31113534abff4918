import CommentStyle.Linter
import CommentStyle.Proofs.Outcome

/-!
# Setting up a linter

A linter goes through its options in order, sets up a rule for each that has a value, and stops at the first
that gives none. What can become of one option is said once, by two relations; the loop adds nothing but the
order.

* **`SetsUp`** — the option gives a rule: the one registered under its name, which defines both phases and
  takes the value. **`Refused`** — why an option with a value gives none. **`configure_decides`**: setting up
  one option is settled by these two.
* **`given`**, **`FirstRefused`** — the options that have a value, and the fault of the first that gives no
  rule.
* **`rulesOf_decides`** — the loop, by induction on the options: a rule for each option that has a value, in
  order, or the fault of the first that gives none. An option without a value is not even looked up.
* **`names_of_forall₂`** — the option names of the rules are the names they are registered under, where each is
  registered under its own.
* **`ofOptions_outcome`** — the headline.
-/

namespace CommentStyle

/-- No value at all, which leaves an option unset. -/
def Value.isNull : Value → Bool
  | .null => true
  | _ => false

theorem Value.isNull_iff (v : Value) : v.isNull = true ↔ v = .null := by
  cases v <;> simp [isNull]

namespace Linter

/-! ## One option -/

/-- The option sets up the rule: it is registered under the option's name, lacks no phase, and takes the
option's value. -/
structure SetsUp (reg : Registry) (o : String × Value) (rule : Rule) : Prop where
  registered : reg.find? o.1 = some rule
  complete : rule.missing = []
  accepted : rule.configure o.2 = .ok ()

/-- Why an option that has a value sets up no rule. What the making or the configuring of the rule ends with
is passed on as it is. -/
inductive Refused (reg : Registry) (o : String × Value) : SetupFault → Prop where
  | unsupported (hnone : reg.find? o.1 = none) : Refused reg o (.unsupported o.1)
  | incomplete {rule : Rule} {f : SetupFault} (hrule : reg.find? o.1 = some rule)
      (hmissing : rule.missing ≠ []) (hmake : rule.make = .error f) : Refused reg o f
  | rejected {rule : Rule} {f : Failure} (hrule : reg.find? o.1 = some rule)
      (hcomplete : rule.missing = []) (hconfigure : rule.configure o.2 = .error f) :
      Refused reg o (.failed f)

theorem make_of_complete {rule : Rule} (h : rule.missing = []) : rule.make = .ok rule := by
  rw [Rule.make, if_pos h]

theorem make_of_missing {rule : Rule} (h : rule.missing ≠ []) :
    rule.make = .error (.incomplete rule.name (rule.missing.mergeSort (· ≤ ·))) := by
  rw [Rule.make, if_neg h]

theorem configure_decides (reg : Registry) (o : String × Value) :
    Decides (configure reg o.1 o.2) (SetsUp reg o) (Refused reg o) := by
  refine .of_total (fun rule hrule => ?_) (fun f hf => ?_) ?_
  · simp only [configure, hrule.registered, make_of_complete hrule.complete, hrule.accepted]
  · cases hf with
    | unsupported hnone => simp only [configure, hnone]
    | incomplete hrule _ hmake => simp only [configure, hrule, hmake]
    | rejected hrule hcomplete hconfigure =>
      simp only [configure, hrule, make_of_complete hcomplete, hconfigure]
  · cases hrule : reg.find? o.1 with
    | none => exact .inr ⟨_, .unsupported hrule⟩
    | some rule =>
      by_cases hcomplete : rule.missing = []
      · cases hconfigure : rule.configure o.2 with
        | ok _ => exact .inl ⟨rule, hrule, hcomplete, hconfigure⟩
        | error f => exact .inr ⟨_, .rejected hrule hcomplete hconfigure⟩
      · exact .inr ⟨_, .incomplete hrule hcomplete (make_of_missing hcomplete)⟩

/-! ## All options -/

/-- The options that have a value. -/
def given (options : Options) : Options := options.filter fun o => !o.2.isNull

/-- The first option that has a value and sets up no rule is refused with the fault. -/
def FirstRefused (reg : Registry) (options : Options) (f : SetupFault) : Prop :=
  ∃ before o behind, options = before ++ o :: behind ∧
    (∀ p ∈ before, p.2 ≠ .null → ∃ rule, SetsUp reg p rule) ∧ o.2 ≠ .null ∧ Refused reg o f

theorem given_cons_of_null {o : String × Value} (h : o.2 = .null) (options : Options) :
    given (o :: options) = given options :=
  List.filter_cons_of_neg (by simp [h, Value.isNull])

theorem given_cons_of_ne_null {o : String × Value} (h : o.2 ≠ .null) (options : Options) :
    given (o :: options) = o :: given options :=
  List.filter_cons_of_pos (by simpa [← Value.isNull_iff] using h)

theorem mem_given {o : String × Value} {options : Options} :
    o ∈ given options ↔ o ∈ options ∧ o.2 ≠ .null := by
  simp [given, ← Value.isNull_iff]

/-- Where an option does not stop the setup, the first refused one is among the rest. -/
theorem firstRefused_cons_iff {reg : Registry} {o : String × Value} {options : Options} {f : SetupFault} :
    FirstRefused reg (o :: options) f ↔
      (o.2 ≠ .null ∧ Refused reg o f) ∨
        ((o.2 ≠ .null → ∃ rule, SetsUp reg o rule) ∧ FirstRefused reg options f) := by
  constructor
  · rintro ⟨before, p, behind, heq, hbefore, hp, hrefused⟩
    cases before with
    | nil =>
      obtain ⟨rfl, rfl⟩ := List.cons.inj heq
      exact .inl ⟨hp, hrefused⟩
    | cons first before =>
      obtain ⟨rfl, rfl⟩ := List.cons.inj heq
      obtain ⟨ho, hbefore⟩ := List.forall_mem_cons.mp hbefore
      exact .inr ⟨ho, before, p, behind, rfl, hbefore, hp, hrefused⟩
  · rintro (⟨ho, hrefused⟩ | ⟨ho, before, p, behind, rfl, hbefore, hp, hrefused⟩)
    · exact ⟨[], o, options, rfl, by simp, ho, hrefused⟩
    · exact ⟨o :: before, p, behind, rfl, List.forall_mem_cons.mpr ⟨ho, hbefore⟩, hp, hrefused⟩

/-- **The loop over the options.** -/
theorem rulesOf_decides (reg : Registry) (options : Options) :
    Decides (rulesOf reg options) (List.Forall₂ (SetsUp reg) (given options))
      (FirstRefused reg options) := by
  induction options with
  | nil =>
    refine .of_total ?_ ?_ (.inl ⟨[], .nil⟩)
    · rintro rules ⟨⟩
      rfl
    · rintro f ⟨before, o, behind, heq, -⟩
      simp at heq
  | cons o options ih =>
    by_cases hnull : o.2 = .null
    · -- nothing is asked of the registry, and both relations pass over the option as well
      have hskip : rulesOf reg (o :: options) = rulesOf reg options := by
        obtain ⟨name, value⟩ := o
        cases hnull
        rfl
      constructor
      · rw [hskip, given_cons_of_null hnull]
        exact ih.eq_ok_iff
      · intro f
        rw [hskip, firstRefused_cons_iff, ih.eq_error_iff]
        simp [hnull]
    · have hown := configure_decides reg o
      have hstep : rulesOf reg (o :: options) = (do
          let rule ← configure reg o.1 o.2
          let rules ← rulesOf reg options
          return rule :: rules) := by
        obtain ⟨name, value⟩ := o
        rw [rulesOf]
        · cases configure reg name value with
          | error f => rfl
          | ok rule => cases rulesOf reg options <;> rfl
        · exact hnull
      rw [given_cons_of_ne_null hnull, hstep]
      refine .of_total ?_ ?_ ?_
      · rintro rules (_ | ⟨hrule, hrules⟩)
        rw [(hown.eq_ok_iff _).mpr hrule, (ih.eq_ok_iff _).mpr hrules]
        rfl
      · intro f hf
        rcases firstRefused_cons_iff.mp hf with ⟨-, hrefused⟩ | ⟨hset, hrest⟩
        · rw [(hown.eq_error_iff _).mpr hrefused]
          rfl
        · obtain ⟨rule, hrule⟩ := hset hnull
          rw [(hown.eq_ok_iff _).mpr hrule, (ih.eq_error_iff _).mpr hrest]
          rfl
      · rcases hown.total with ⟨rule, hrule⟩ | ⟨f, hrefused⟩
        · rcases ih.total with ⟨rules, hrules⟩ | ⟨f, hrest⟩
          · exact .inl ⟨rule :: rules, .cons hrule hrules⟩
          · exact .inr ⟨f, firstRefused_cons_iff.mpr (.inr ⟨fun _ => ⟨rule, hrule⟩, hrest⟩)⟩
        · exact .inr ⟨f, firstRefused_cons_iff.mpr (.inl ⟨hnull, hrefused⟩)⟩

theorem ofOptions_decides (reg : Registry) (options : Options) :
    Decides (ofOptions reg (some options))
      (fun l => List.Forall₂ (SetsUp reg) (given options) l.rules) (FirstRefused reg options) := by
  have hrules := rulesOf_decides reg options
  show Decides ((rulesOf reg options).map Linter.mk) _ _
  refine .of_total (fun l hl => ?_) (fun f hf => ?_) ?_
  · rw [(hrules.eq_ok_iff l.rules).mpr hl]
    rfl
  · rw [(hrules.eq_error_iff f).mpr hf]
    rfl
  · rcases hrules.total with ⟨rules, h⟩ | ⟨f, h⟩
    · exact .inl ⟨⟨rules⟩, h⟩
    · exact .inr ⟨f, h⟩

/-- There are rules for all the options exactly when there is one for each. -/
theorem exists_forall₂_setsUp_iff (reg : Registry) (options : Options) :
    (∃ rules, List.Forall₂ (SetsUp reg) options rules) ↔ ∀ o ∈ options, ∃ rule, SetsUp reg o rule := by
  induction options with
  | nil => exact ⟨fun _ => by simp, fun _ => ⟨[], .nil⟩⟩
  | cons o options ih =>
    rw [List.forall_mem_cons, ← ih]
    constructor
    · rintro ⟨_, _ | ⟨hrule, hrules⟩⟩
      exact ⟨⟨_, hrule⟩, ⟨_, hrules⟩⟩
    · rintro ⟨⟨rule, hrule⟩, ⟨rules, hrules⟩⟩
      exact ⟨rule :: rules, .cons hrule hrules⟩

/-! ## All rules on -/

theorem given_allOn (reg : Registry) : given (allOn reg) = allOn reg := by
  unfold given allOn
  rw [List.filter_eq_self]
  intro o ho
  obtain ⟨n, -, rfl⟩ := List.mem_map.mp ho
  rfl

/-- Rules set up from names they are registered under have these for option names, if each is registered
under its own. -/
theorem names_of_forall₂ {reg : Registry} {names : List String} {rules : List Rule}
    (hown : ∀ n rule, reg.find? n = some rule → rule.optionName = some n)
    (hrules : List.Forall₂ (SetsUp reg) (names.map fun n => (n, .bool true)) rules) :
    (Linter.mk rules).names = .ok names := by
  refine mapM_eq_ok (List.Forall₂.flip ?_)
  rw [List.forall₂_map_left_iff] at hrules
  refine hrules.imp fun n rule hrule => ?_
  show rule.requiredName = .ok n
  rw [Rule.requiredName, hown n rule hrule.registered]

/-- **What becomes of a linter's options.** Setting up a linter succeeds exactly when every option that has a
value names a registered rule that lacks no phase and takes the value; there is then one rule for each of
these options, in their order, whatever the names of the options without a value. Otherwise it ends with the
fault of the first option that has a value and gives no rule. Without options it is set up as with every
registered name, in the order of the listing, set to true; and if each rule is registered under its own option
name, the option names of its rules are the listing. -/
theorem ofOptions_outcome (reg : Registry) (options : Options) :
    ((∃ l, ofOptions reg (some options) = .ok l) ↔
        ∀ o ∈ options, o.2 ≠ .null → ∃ rule, SetsUp reg o rule) ∧
      (∀ l, ofOptions reg (some options) = .ok l ↔
        List.Forall₂ (SetsUp reg) (given options) l.rules) ∧
      (∀ f, ofOptions reg (some options) = .error f ↔
        ∃ before o behind, options = before ++ o :: behind ∧
          (∀ p ∈ before, p.2 ≠ .null → ∃ rule, SetsUp reg p rule) ∧ o.2 ≠ .null ∧ Refused reg o f) ∧
      (∀ name, (SetupFault.unsupported name).message = "Unsupported rule: " ++ name ∧
        (SetupFault.unsupported name).isConfiguration = true) ∧
      ofOptions reg none = ofOptions reg (some (reg.names.map fun n => (n, .bool true))) ∧
      ((∀ n rule, reg.find? n = some rule → rule.optionName = some n) →
        ∀ l, ofOptions reg none = .ok l → l.names = .ok reg.names) := by
  have hdecides := ofOptions_decides reg options
  refine ⟨?_, hdecides.eq_ok_iff, hdecides.eq_error_iff, fun name => ⟨rfl, rfl⟩, rfl, fun hown l hl => ?_⟩
  · have hgiven : (∀ o ∈ options, o.2 ≠ .null → ∃ rule, SetsUp reg o rule) ↔
        ∀ o ∈ given options, ∃ rule, SetsUp reg o rule := by
      simp only [mem_given, and_imp]
    rw [hgiven, ← exists_forall₂_setsUp_iff]
    constructor
    · rintro ⟨l, hl⟩
      exact ⟨l.rules, (hdecides.eq_ok_iff l).mp hl⟩
    · rintro ⟨rules, hrules⟩
      exact ⟨⟨rules⟩, (hdecides.eq_ok_iff ⟨rules⟩).mpr hrules⟩
  · have hrules := ((ofOptions_decides reg (allOn reg)).eq_ok_iff l).mp hl
    rw [given_allOn] at hrules
    exact names_of_forall₂ hown hrules

/-- Two rules under their own names, registered in the other order than they are listed in: with all of them on
they are set up in the order of the listing. An unknown name stops the setup, though not where it has no value,
and before a later option is refused. -/
theorem ofOptions_outcome_two_rules :
    let plain : Rule := { Rule.scripted "Plain" {} with optionName := some "plain" }
    let reg : Registry := { name := "r", entries := [(Rule.capitalizedOption, .capitalized), ("plain", plain)] }
    (∀ n rule, reg.find? n = some rule → rule.optionName = some n) ∧
      reg.names = ["plain", Rule.capitalizedOption] ∧
      (∃ l, ofOptions reg none = .ok l ∧ l.names = .ok reg.names) ∧
      ofOptions reg (some [("x", .null), ("plain", .int 0), ("y", .bool true),
        (Rule.capitalizedOption, .bool false)]) = .error (.unsupported "y") := by
  intro plain reg
  have hown : ∀ n rule, reg.find? n = some rule → rule.optionName = some n := by
    intro n rule hrule
    simp only [reg, Registry.find?, List.lookup_cons, List.lookup_nil] at hrule
    split at hrule
    · next heq =>
      cases hrule
      rw [beq_iff_eq.mp heq]
      rfl
    · split at hrule
      · next heq =>
        cases hrule
        rw [beq_iff_eq.mp heq]
      · exact absurd hrule (by simp)
  have hnames : reg.names = ["plain", Rule.capitalizedOption] := by
    show [Rule.capitalizedOption, "plain"].mergeSort (· ≤ ·) = _
    rw [List.mergeSort]
    simp [Rule.capitalizedOption]
  have hplain : ∀ v, SetsUp reg ("plain", v) plain := fun v => ⟨rfl, rfl, rfl⟩
  refine ⟨hown, hnames, ?_, ?_⟩
  · obtain ⟨hok, -, -, -, hall, hlisted⟩ :=
      ofOptions_outcome reg (reg.names.map fun n => (n, .bool true))
    have hset : ∀ o ∈ reg.names.map fun n => (n, Value.bool true), o.2 ≠ .null →
        ∃ rule, SetsUp reg o rule := by
      rw [hnames]
      simp only [List.map_cons, List.map_nil, List.forall_mem_cons]
      exact ⟨fun _ => ⟨plain, hplain _⟩, fun _ => ⟨.capitalized, rfl, rfl, rfl⟩, by simp⟩
    obtain ⟨l, hl⟩ := hok.mpr hset
    rw [← hall] at hl
    exact ⟨l, hl, hlisted hown l hl⟩
  · refine ((ofOptions_outcome reg _).2.2.1 _).mpr
      ⟨[("x", .null), ("plain", .int 0)], ("y", .bool true), _, rfl, ?_, by simp, .unsupported rfl⟩
    simp only [List.forall_mem_cons]
    exact ⟨by simp, fun _ => ⟨plain, hplain _⟩, by simp⟩

end Linter

end CommentStyle
