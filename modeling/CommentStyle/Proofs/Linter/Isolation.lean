import CommentStyle.Proofs.Linter.Run

/-!
# One rule does not disturb the others

Take a rule out of a linter, and of a run's result exactly the diagnostics of that rule go; the others stay as
they are and in their order, even where a rule fails halfway or reports at the same places as others. The one
thing by which a rule can disturb the others is a failure that has no text: it breaks the run off. A
diagnostic does not say which of the rules it is from (two rules may contribute equal ones), so that the
statement needs the result with marks.

* **`Traces cs rules marked`** — the result of a run with, beside each diagnostic, the place of its rule in the
  run, said by what each rule contributes and by the order of the result. **`Traces.unique`**: there is only one.
* **`eq_of_filter_key`** — lists in the order of a key are equal if they are so for each value of the key.
  This is what stability means for the sort, and **`filter_sortedBy`** follows from it: sorting commutes with
  leaving some elements out.
* **`mark`**, **`traces_sortedBy`** — the contributions with marks, in the order of the run, and sorted.
* **`lint_without_rule`** — the headline.
-/

namespace CommentStyle

/-! ## Lists in the order of a key -/

section Ordered

variable {α β : Type} [LinearOrder β] {key : α → β}

/-- Two lists in the order of a key that agree on the elements of each key agree altogether: both begin with
the first element of the least key. -/
theorem eq_of_filter_key {xs ys : List α} (hxs : xs.Pairwise fun a b => key a ≤ key b)
    (hys : ys.Pairwise fun a b => key a ≤ key b)
    (hfilter : ∀ k, xs.filter (fun a => key a = k) = ys.filter fun a => key a = k) : xs = ys := by
  induction xs generalizing ys with
  | nil =>
    cases ys with
    | nil => rfl
    | cons y ys => simpa using hfilter (key y)
  | cons x xs ih =>
    have hx := List.pairwise_cons.mp hxs
    cases ys with
    | nil => simpa using hfilter (key x)
    | cons y ys =>
      have hy := List.pairwise_cons.mp hys
      have hmem : ∀ a, a ∈ x :: xs ↔ a ∈ y :: ys := fun a => by
        have := congrArg (a ∈ ·) (hfilter (key a))
        simpa using this
      -- each head has the least key of both lists, so the heads have the same key
      have hkey : key x = key y := by
        refine le_antisymm ?_ ?_
        · rcases List.mem_cons.mp ((hmem y).mpr List.mem_cons_self) with rfl | hmem
          · exact le_rfl
          · exact hx.1 y hmem
        · rcases List.mem_cons.mp ((hmem x).mp List.mem_cons_self) with rfl | hmem
          · exact le_rfl
          · exact hy.1 x hmem
      have hheads := hfilter (key x)
      rw [List.filter_cons_of_pos (by simp), List.filter_cons_of_pos (by simp [hkey])] at hheads
      obtain ⟨rfl, -⟩ := List.cons.inj hheads
      refine congrArg (x :: ·) (ih hx.2 hy.2 fun k => ?_)
      have hk := hfilter k
      by_cases hxk : key x = k
      · rw [List.filter_cons_of_pos (by simpa using hxk), List.filter_cons_of_pos (by simpa using hxk)] at hk
        exact (List.cons.inj hk).2
      · rwa [List.filter_cons_of_neg (by simpa using hxk), List.filter_cons_of_neg (by simpa using hxk)] at hk

/-- A list in the order of a key in which the elements of each key are in some order is in the order of
both. -/
theorem pairwise_key_and {xs : List α} {R : α → α → Prop} (hxs : xs.Pairwise fun a b => key a ≤ key b)
    (hsame : ∀ k, (xs.filter fun a => key a = k).Pairwise R) :
    xs.Pairwise fun a b => key a < key b ∨ key a = key b ∧ R a b := by
  rw [List.pairwise_iff_forall_sublist] at hxs ⊢
  intro a b hsub
  rcases (hxs hsub).lt_or_eq with hlt | heq
  · exact Or.inl hlt
  · refine Or.inr ⟨heq, ?_⟩
    have hfiltered := hsub.filter fun x => key x = key b
    rw [List.filter_cons_of_pos (by simpa using heq), List.filter_cons_of_pos (by simp),
      List.filter_nil] at hfiltered
    exact List.pairwise_iff_forall_sublist.mp (hsame (key b)) hfiltered

end Ordered

namespace Linter

/-- Sorting and leaving some elements out can be done in either order. -/
theorem filter_sortedBy {α : Type} (place : α → Position) (p : α → Bool) (xs : List α) :
    (sortedBy place xs).filter p = sortedBy place (xs.filter p) := by
  refine eq_of_filter_key ((pairwise_sortedBy place xs).filter p) (pairwise_sortedBy place _) fun k => ?_
  rw [filter_key_sortedBy, List.filter_comm, filter_key_sortedBy, List.filter_comm]

/-! ## The result with marks -/

/-- **The result of a run with its marks.** Beside each diagnostic stands the place in the run of the rule it
is from. The result is ordered by place and, at one place, by rule; and what has the mark of a rule is what
the rule contributes, at each place in the order in which it was reported. -/
structure Traces (cs : List Comment) (rules : List Rule) (marked : List (Nat × Diagnostic)) : Prop where
  ordered : marked.Pairwise fun a b => a.2.location.key < b.2.location.key
    ∨ a.2.location.key = b.2.location.key ∧ a.1 ≤ b.1
  ruled : ∀ m ∈ marked, m.1 < rules.length
  contributed : ∀ i r, rules[i]? = some r → ∃ block, Contributes cs r block ∧ ∀ k,
    ((marked.filter fun m => m.2.location.key = k).filter fun m => m.1 = i).map Prod.snd
      = block.filter fun d => d.location.key = k

theorem Contributes.unique {cs : List Comment} {r : Rule} {ds es : List Diagnostic}
    (hds : Contributes cs r ds) (hes : Contributes cs r es) : ds = es :=
  Except.ok.inj ((contribution_of_contributes hds).symm.trans (contribution_of_contributes hes))

/-- With one mark on all of them, diagnostics are known without their marks. -/
theorem eq_of_map_snd {xs ys : List (Nat × Diagnostic)} (i : Nat) (hxs : ∀ m ∈ xs, m.1 = i)
    (hys : ∀ m ∈ ys, m.1 = i) (h : xs.map Prod.snd = ys.map Prod.snd) : xs = ys := by
  have hback : ∀ {zs : List (Nat × Diagnostic)}, (∀ m ∈ zs, m.1 = i) →
      zs = (zs.map Prod.snd).map fun d => (i, d) := fun hzs => by
    rw [List.map_map]
    exact (List.map_id' _).symm.trans (List.map_congr_left fun m hm => Prod.ext (hzs m hm) rfl)
  rw [hback hxs, hback hys, h]

/-- The marks of a result are fixed: its elements of one place and one mark are given by what the rule
contributes, and they stand in the order of place and mark. -/
theorem Traces.unique {cs : List Comment} {rules : List Rule} {marked other : List (Nat × Diagnostic)}
    (h : Traces cs rules marked) (hother : Traces cs rules other) : marked = other := by
  let both (m : Nat × Diagnostic) : (ℤ ×ₗ ℤ) ×ₗ ℕ := toLex (m.2.location.key, m.1)
  have hboth : ∀ {xs}, Traces cs rules xs → xs.Pairwise fun a b => both a ≤ both b := fun hxs =>
    hxs.ordered.imp fun {a b} hab => Prod.Lex.toLex_le_toLex.mpr hab
  refine eq_of_filter_key (hboth h) (hboth hother) fun pair => ?_
  obtain ⟨k, i, rfl⟩ : ∃ k i, pair = toLex (k, i) := ⟨(ofLex pair).1, (ofLex pair).2, rfl⟩
  have hsplit : ∀ xs : List (Nat × Diagnostic), xs.filter (fun m => both m = toLex (k, i))
      = (xs.filter fun m => m.2.location.key = k).filter fun m => m.1 = i := fun xs => by
    rw [List.filter_filter]
    refine List.filter_congr fun m _ => ?_
    simp [both, and_comm]
  rw [hsplit, hsplit]
  cases hrule : rules[i]? with
  | some r =>
    obtain ⟨block, hblock, hmine⟩ := h.contributed i r hrule
    obtain ⟨block', hblock', hmine'⟩ := hother.contributed i r hrule
    cases hblock.unique hblock'
    refine eq_of_map_snd i ?_ ?_ ((hmine k).trans (hmine' k).symm)
    · exact fun m hm => of_decide_eq_true (List.mem_filter.mp hm).2
    · exact fun m hm => of_decide_eq_true (List.mem_filter.mp hm).2
  | none =>
    -- no rule stands there, so nothing has the mark
    have hnone : ∀ {xs}, Traces cs rules xs →
        ((xs.filter fun m => m.2.location.key = k).filter fun m => m.1 = i) = [] := fun hxs => by
      rw [List.filter_eq_nil_iff]
      intro m hm hi
      have hlt := hxs.ruled m (List.mem_filter.mp hm).1
      rw [of_decide_eq_true hi] at hlt
      exact absurd (List.getElem?_eq_none_iff.mp hrule) (Nat.not_le.mpr hlt)
    rw [hnone h, hnone hother]

/-! ## The contributions with marks -/

/-- Contributions in the order of the run, each diagnostic with the place of its rule. -/
def mark (first : Nat) : List (List Diagnostic) → List (Nat × Diagnostic)
  | [] => []
  | block :: blocks => block.map (fun d => (first, d)) ++ mark (first + 1) blocks

theorem map_mark (first : Nat) (blocks : List (List Diagnostic)) :
    (mark first blocks).map Prod.snd = blocks.flatten := by
  induction blocks generalizing first with
  | nil => rfl
  | cons block blocks ih => simp [mark, ih, Function.comp_def]

theorem mark_append (first : Nat) (xs ys : List (List Diagnostic)) :
    mark first (xs ++ ys) = mark first xs ++ mark (first + xs.length) ys := by
  induction xs generalizing first with
  | nil => rfl
  | cons block xs ih =>
    rw [List.cons_append, mark, mark, ih, List.append_assoc, List.length_cons, Nat.add_assoc,
      Nat.add_comm 1]

theorem bounds_of_mem_mark {first : Nat} {blocks : List (List Diagnostic)} {m : Nat × Diagnostic}
    (hm : m ∈ mark first blocks) : first ≤ m.1 ∧ m.1 < first + blocks.length := by
  induction blocks generalizing first with
  | nil => exact absurd hm List.not_mem_nil
  | cons block blocks ih =>
    rw [mark, List.mem_append] at hm
    rw [List.length_cons]
    rcases hm with hown | hrest
    · obtain ⟨d, -, rfl⟩ := List.mem_map.mp hown
      exact ⟨le_rfl, by show first < _; omega⟩
    · have := ih hrest
      omega

/-- Marks increase along the run. -/
theorem pairwise_mark (first : Nat) (blocks : List (List Diagnostic)) :
    (mark first blocks).Pairwise fun a b => a.1 ≤ b.1 := by
  induction blocks generalizing first with
  | nil => exact .nil
  | cons block blocks ih =>
    rw [mark, List.pairwise_append]
    refine ⟨?_, ih (first + 1), fun a ha b hb => ?_⟩
    · rw [List.pairwise_map]
      exact List.pairwise_of_forall fun _ _ => le_rfl
    · obtain ⟨d, -, rfl⟩ := List.mem_map.mp ha
      have := bounds_of_mem_mark hb
      show first ≤ b.1
      omega

/-- What has a mark is the contribution at that place. -/
theorem filter_mark (first : Nat) {i : Nat} {blocks : List (List Diagnostic)} {block : List Diagnostic}
    (hblock : blocks[i]? = some block) :
    (mark first blocks).filter (fun m => m.1 = first + i) = block.map fun d => (first + i, d) := by
  induction blocks generalizing first i with
  | nil => simp at hblock
  | cons head blocks ih =>
    rw [mark, List.filter_append]
    cases i with
    | zero =>
      cases Option.some.inj hblock
      have hothers : (mark (first + 1) blocks).filter (fun m => m.1 = first + 0) = [] := by
        rw [List.filter_eq_nil_iff]
        intro m hm
        have := bounds_of_mem_mark hm
        simp only [decide_eq_true_eq]
        omega
      rw [hothers, List.append_nil, List.filter_eq_self.mpr (by simp)]
      rfl
    | succ i =>
      have hhead : (head.map fun d => (first, d)).filter (fun m => m.1 = first + (i + 1)) = [] := by
        simp
      have hrest := ih (first + 1) (show blocks[i]? = some block from hblock)
      rw [hhead, List.nil_append, show first + (i + 1) = first + 1 + i by omega, hrest]

/-- A mark that none of the contributions has takes nothing away. -/
theorem filter_ne_eq_self {first n : Nat} {blocks : List (List Diagnostic)}
    (houtside : n < first ∨ first + blocks.length ≤ n) :
    (mark first blocks).filter (fun m => m.1 ≠ n) = mark first blocks := by
  rw [List.filter_eq_self]
  intro m hm
  have := bounds_of_mem_mark hm
  simp only [decide_eq_true_eq]
  omega

/-- What does not have the mark of a contribution stands before or behind it. -/
theorem filter_ne_mark (front back : List (List Diagnostic)) (own : List Diagnostic) :
    (mark 0 (front ++ [own] ++ back)).filter (fun m => m.1 ≠ front.length)
      = mark 0 front ++ mark (front.length + 1) back := by
  have hown : (mark front.length [own]).filter (fun m => m.1 ≠ front.length) = [] := by
    simp [mark]
  rw [mark_append, mark_append, Nat.zero_add, Nat.zero_add, List.length_append, List.length_singleton,
    List.filter_append, List.filter_append, filter_ne_eq_self (by omega), hown,
    filter_ne_eq_self (by omega), List.append_nil]

/-- **The contributions with marks, sorted, are the result with its marks.** -/
theorem traces_sortedBy {cs : List Comment} {rules : List Rule} {blocks : List (List Diagnostic)}
    (hblocks : List.Forall₂ (Contributes cs) rules blocks) :
    Traces cs rules (sortedBy (fun m => m.2.location) (mark 0 blocks)) := by
  constructor
  · -- the sort leaves what has one place in the order of the run, along which marks increase
    refine pairwise_key_and (pairwise_sortedBy _ _) fun k => ?_
    rw [filter_key_sortedBy]
    exact (pairwise_mark 0 blocks).filter _
  · intro m hm
    have hbounds := bounds_of_mem_mark ((List.mergeSort_perm _ _).mem_iff.mp hm)
    rw [hblocks.length_eq]
    omega
  · intro i r hr
    obtain ⟨hlength, heach⟩ := List.forall₂_iff_get.mp hblocks
    obtain ⟨hi, rfl⟩ := List.getElem?_eq_some_iff.mp hr
    have hi' : i < blocks.length := hlength ▸ hi
    refine ⟨blocks.get ⟨i, hi'⟩, heach i hi hi', fun k => ?_⟩
    have hmine := filter_mark 0 (List.getElem?_eq_getElem hi')
    rw [Nat.zero_add] at hmine
    rw [filter_key_sortedBy, List.filter_comm, hmine, List.filter_map, List.map_map]
    exact List.map_id _

/-! ## A rule taken out -/

/-- The result of a run is its result with marks, without the marks. -/
theorem lint_of_contributes {cs : List Comment} {rules : List Rule} {blocks : List (List Diagnostic)}
    (hblocks : List.Forall₂ (Contributes cs) rules blocks) {marked : List (Nat × Diagnostic)}
    (hmarked : marked.map Prod.snd = blocks.flatten) :
    lint ⟨rules⟩ cs = .ok ((sortedBy (fun m => m.2.location) marked).map Prod.snd) := by
  have hsorted : (sortedBy (fun m => m.2.location) marked).map Prod.snd = sorted (marked.map Prod.snd) :=
    List.map_mergeSort fun _ _ _ _ => rfl
  rw [hsorted, hmarked, lint, gather_of_contributes hblocks]
  rfl

/-- A rule that contributes does not matter for where a run breaks off. -/
theorem firstBreak_without_rule {cs : List Comment} {before after : List Rule} {r : Rule}
    (hr : ∃ ds, Contributes cs r ds) (b : Breach) :
    FirstBreak cs (before ++ [r] ++ after) b ↔ FirstBreak cs (before ++ after) b := by
  rw [List.append_assoc, List.singleton_append]
  induction before with
  | nil =>
    have hnot : ¬ Breaks cs r b := fun hb =>
      not_or.mpr (not_lacking_and_not_untold_iff.mpr hr) (exists_breaks_iff.mp ⟨b, hb⟩)
    rw [List.nil_append, List.nil_append, firstBreak_cons_iff, or_iff_right hnot, and_iff_right hr]
  | cons q before ih => rw [List.cons_append, List.cons_append, firstBreak_cons_iff, firstBreak_cons_iff, ih]

/-- Among rules that have their names and codes, one that cannot be told breaks the run off, there or earlier. -/
theorem exists_firstBreak_of_untold {cs : List Comment} (before after : List Rule) {r : Rule}
    {fs : List Finding} {failure raised : Failure} (hcomplete : ¬ Lacking r)
    (hcheck : r.check cs = (fs, some failure)) (htext : failure.text = .error raised) :
    ∃ b, FirstBreak cs (before ++ [r] ++ after) b ∧
      ((∀ q ∈ before, ¬ Lacking q ∧ ¬ Untold cs q) → b = .failed raised) := by
  have hbreaks : Breaks cs r (.failed raised) := by
    rw [Lacking, not_or, ← ne_eq, ← ne_eq, Option.ne_none_iff_exists', Option.ne_none_iff_exists'] at hcomplete
    obtain ⟨⟨name, hname⟩, code, hcode⟩ := hcomplete
    exact .untold hname hcode hcheck htext
  by_cases hbefore : ∀ q ∈ before, ¬ Lacking q ∧ ¬ Untold cs q
  · exact ⟨_, ⟨before, r, after, by simp, hbefore, hbreaks⟩, fun _ => rfl⟩
  · obtain ⟨b, hb⟩ := exists_firstBreak_iff.mpr ⟨r, List.mem_append_left after (List.mem_append_right before
      List.mem_cons_self), exists_breaks_iff.mp ⟨_, hbreaks⟩⟩
    exact ⟨b, hb, fun h => absurd h hbefore⟩

/-- **A rule can be taken out.** Let all rules have an option name and a code, whatever their checks do.

If the check of a rule does not fail, or its failure has a text, then the linter with the rule and the one without
it break off with the same fault or both come to a result. The result with the rule has exactly one marking by
rules; without the diagnostics that carry the mark of that rule it is, in the same order, the other result.

If the check of a rule fails without a text, the linter with the rule comes to no result. -/
theorem lint_without_rule (before after : List Rule) (r : Rule) (cs : List Comment)
    (hcomplete : ∀ q ∈ before ++ [r] ++ after, ¬ Lacking q) :
    (¬ Untold cs r →
      (∀ b, lint ⟨before ++ [r] ++ after⟩ cs = .error b ↔ lint ⟨before ++ after⟩ cs = .error b) ∧
      ∀ ds, lint ⟨before ++ after⟩ cs = .ok ds → ∃ marked, Traces cs (before ++ [r] ++ after) marked ∧
        (∀ other, Traces cs (before ++ [r] ++ after) other → other = marked) ∧
        lint ⟨before ++ [r] ++ after⟩ cs = .ok (marked.map Prod.snd) ∧
        ds = (marked.filter fun m => m.1 ≠ before.length).map Prod.snd) ∧
    ∀ fs failure raised, r.check cs = (fs, some failure) → failure.text = .error raised →
      ∃ b, lint ⟨before ++ [r] ++ after⟩ cs = .error b ∧
        ((∀ q ∈ before, ¬ Untold cs q) → b = .failed raised) := by
  refine ⟨fun htold => ⟨fun b => ?_, fun ds hds => ?_⟩, fun fs failure raised hcheck htext => ?_⟩
  · have hr : ∃ ds, Contributes cs r ds :=
      not_lacking_and_not_untold_iff.mp ⟨hcomplete r (by simp), htold⟩
    rw [lint_eq_error_iff, lint_eq_error_iff]
    exact firstBreak_without_rule hr b
  · -- the other rules contribute, since the run without the rule comes to a result
    have hothers : ∀ q ∈ before ++ after, ¬ Untold cs q := fun q hq huntold => by
      obtain ⟨b, hb⟩ := exists_firstBreak_iff.mpr ⟨q, hq, .inr huntold⟩
      rw [← lint_eq_error_iff ⟨before ++ after⟩, hds] at hb
      cases hb
    obtain ⟨front, hfront⟩ : ∃ blocks, List.Forall₂ (Contributes cs) before blocks :=
      exists_contributes fun q hq => ⟨hcomplete q (by simp [hq]), hothers q (by simp [hq])⟩
    obtain ⟨back, hback⟩ : ∃ blocks, List.Forall₂ (Contributes cs) after blocks :=
      exists_contributes fun q hq => ⟨hcomplete q (by simp [hq]), hothers q (by simp [hq])⟩
    obtain ⟨own, hown⟩ := not_lacking_and_not_untold_iff.mp ⟨hcomplete r (by simp), htold⟩
    have hall : List.Forall₂ (Contributes cs) (before ++ [r] ++ after) (front ++ [own] ++ back) :=
      List.rel_append (List.rel_append hfront (.cons hown .nil)) hback
    have htraces := traces_sortedBy hall
    refine ⟨_, htraces, fun other hother => hother.unique htraces,
      lint_of_contributes hall (map_mark 0 _), ?_⟩
    -- what is left are the contributions before and behind the rule, in their order
    rw [filter_sortedBy, hfront.length_eq, filter_ne_mark]
    have hwithout := lint_of_contributes (List.rel_append hfront hback)
      (show (mark 0 front ++ mark (front.length + 1) back).map Prod.snd = (front ++ back).flatten by
        rw [List.map_append, map_mark, map_mark, List.flatten_append])
    exact Except.ok.inj (hds.symm.trans hwithout)
  · obtain ⟨b, hb, hfirst⟩ :=
      exists_firstBreak_of_untold before after (hcomplete r (by simp)) hcheck htext
    exact ⟨b, (lint_eq_error_iff _ cs b).mpr hb, fun hbefore =>
      hfirst fun q hq => ⟨hcomplete q (by simp [hq]), hbefore q hq⟩⟩

/-- The rule taken out fails after it has reported; the two others contribute equal diagnostics, at places
that all count as the same line. -/
theorem lint_without_rule_of_failed_check :
    let failing : Rule :=
      { Rule.capitalized with check := fun cs => (scan cs, some (.lookup "key")) }
    let rules := [Rule.capitalized] ++ [failing] ++ [Rule.capitalized]
    let cs : List Comment := [⟨"b", .unknown, .line⟩, ⟨"a", ⟨.flag false, .number (-3)⟩, .block⟩]
    (∀ q ∈ rules, ¬ Lacking q) ∧ ¬ Untold cs failing ∧
      ∃ ds marked, lint ⟨[Rule.capitalized] ++ [Rule.capitalized]⟩ cs = .ok ds ∧ Traces cs rules marked ∧
        lint ⟨rules⟩ cs = .ok (marked.map Prod.snd) ∧
        ds = (marked.filter fun m => m.1 ≠ 1).map Prod.snd := by
  intro failing rules cs
  have hcomplete : ∀ q ∈ rules, ¬ Lacking q := by
    simp [rules, failing, Lacking, Rule.capitalized]
  have htold : ¬ Untold cs failing := by
    simp [failing, Untold, Failure.text]
  obtain ⟨ds, hds⟩ : ∃ ds, lint ⟨[Rule.capitalized] ++ [Rule.capitalized]⟩ cs = .ok ds := ⟨_, rfl⟩
  obtain ⟨marked, htraces, -, hwith, hwithout⟩ :=
    ((lint_without_rule [Rule.capitalized] [Rule.capitalized] failing cs hcomplete).1 htold).2 ds hds
  exact ⟨hcomplete, htold, ds, marked, hds, htraces, hwith, hwithout⟩

/-- With a rule whose failure cannot be told, the diagnostics of the other rules are lost. -/
theorem lint_lost_by_untold :
    let cs : List Comment := [⟨"b", .unknown, .line⟩]
    (∀ q ∈ [Rule.capitalized] ++ [lookingUpLongNumber] ++ [], ¬ Lacking q) ∧
      (∃ b, lint ⟨[.capitalized] ++ [lookingUpLongNumber] ++ []⟩ cs = .error b) ∧
      lint ⟨[.capitalized] ++ []⟩ cs = .ok
        [{ severity := .error, code := "CMT001", message := capitalizationMessage, location := .unknown,
           rule := Rule.capitalizedOption }] := by
  intro cs
  have hcomplete : ∀ q ∈ [Rule.capitalized] ++ [lookingUpLongNumber] ++ [], ¬ Lacking q := by
    simp [Lacking, lookingUpLongNumber, Rule.capitalized]
  exact ⟨hcomplete, ⟨_, rfl⟩, by decide +kernel⟩

end Linter

end CommentStyle
