import CommentStyle.Proofs.Yaml.JsonStrings
import CommentStyle.Proofs.Yaml.JsonWords

/-!
# The tokens of JSON

A source of JSON is a flow collection, so the tokens that the lexer of YAML makes of it can be told from the
source. There are three obstacles. A tab is no blank between tokens. A string may look as if a document ended
in it. And a name is only a key if its colon is on the same line and not too far behind.

* **`Part`** — what a source is made of, brackets apart: gaps, strings, words, and names with the gap behind
  them. **`Part.isClean`**, **`Part.isSimple`** — where an obstacle is.
* **`Source.tokens`** — the tokens of a source. A name that is too far from its colon lacks the mark of a key.
* **`Leads`** — steps lead to such a spot, or to a fault.
* **`yields_document`**, **`breaks_document`** — the tokens of a clean text come out, and those of another do
  not.
-/

namespace CommentStyle.Json

open Yaml (Token isBreak hasDivider foldedText)

/-! ## Obstacles -/

/-- A part of a source. -/
inductive Part where
  | gap (blanks : Blanks)
  | text (pieces : List Piece)
  | word (w : Bare)
  | name (pieces : List Piece) (behind : Blanks)

namespace Part

/-- There is no tab between tokens, and no line divides documents. -/
def isClean : Part → Bool
  | gap blanks => !blanks.1.contains '\t'
  | text ps => !hasDivider (rawChars ps)
  | word _ => true
  | name ps behind => !hasDivider (rawChars ps) && !behind.1.contains '\t'

/-- A name is on one line with its colon, and not too far before it. -/
def isSimple : Part → Bool
  | name ps behind =>
    !(rawChars ps ++ behind.1).any isBreak && (rawChars ps).length + behind.1.length + 2 ≤ 1024
  | _ => true

end Part

def Name.parts (n : Name) : List Part := [.gap n.before, .name n.pieces n.behind, .gap n.after]

mutual

def Source.parts : Source → List Part
  | .text ps => [.text ps]
  | .bare w => [.word w]
  | .emptyList blanks => [.gap blanks]
  | .list is => is.parts
  | .emptyMap blanks => [.gap blanks]
  | .map ms => ms.parts

def Items.parts : Items → List Part
  | .last before item after => .gap before :: (item.parts ++ [.gap after])
  | .cons before item after more => .gap before :: (item.parts ++ .gap after :: more.parts)

def Members.parts : Members → List Part
  | .last name value after => name.parts ++ (value.parts ++ [.gap after])
  | .cons name value after more => name.parts ++ (value.parts ++ .gap after :: more.parts)

end

def Document.parts (d : Document) : List Part := .gap d.before :: (d.source.parts ++ [.gap d.after])

/-! ## Tokens -/

/-- The colon makes a key of a name, unless it is too far behind. -/
def Name.tokens (n : Name) : List Token :=
  (if (Part.name n.pieces n.behind).isSimple then [.key] else []) ++
    [.scalar (foldedText [] n.pieces) false, .value]

mutual

def Source.tokens : Source → List Token
  | .text ps => [.scalar (foldedText [] ps) false]
  | .bare w => [.scalar w.chars true]
  | .emptyList _ => [.flowSequence, .flowSequenceEnd]
  | .list is => .flowSequence :: is.tokens
  | .emptyMap _ => [.flowMapping, .flowMappingEnd]
  | .map ms => .flowMapping :: ms.tokens

/-- The tokens up to the bracket. -/
def Items.tokens : Items → List Token
  | .last _ item _ => item.tokens ++ [.flowSequenceEnd]
  | .cons _ item _ more => item.tokens ++ .flowEntry :: more.tokens

/-- The tokens up to the brace. -/
def Members.tokens : Members → List Token
  | .last name value _ => name.tokens ++ (value.tokens ++ [.flowMappingEnd])
  | .cons name value _ more => name.tokens ++ (value.tokens ++ .flowEntry :: more.tokens)

end

end CommentStyle.Json

namespace CommentStyle.Yaml.Lexer

open Json (Blanks Name Source Items Members Part rawChars)

variable {s s' : Spot} {x y : List Char} {outer : List (Option PendingKey)} {ts : List Token}

/-! ## Steps to a spot or to a fault -/

/-- Steps lead to a spot like this, or, if not all is clean, to a fault. -/
def Leads (clean : Bool) (s : Spot) (P : Spot → Prop) : Prop :=
  if clean then ∃ s', Relation.ReflTransGen Goes s s' ∧ P s' else Stops s

theorem Stops.of_steps (h : Relation.ReflTransGen Goes s s') (hstops : Stops s') : Stops s := by
  induction h using Relation.ReflTransGen.head_induction_on with
  | refl => exact hstops
  | head hgoes _ ih => exact .step hgoes ih

theorem Run.of_steps (h : Relation.ReflTransGen Goes s s') (hrun : Run s' ts) : Run s ts := by
  induction h using Relation.ReflTransGen.head_induction_on with
  | refl => exact hrun
  | head hgoes _ ih => exact .step hgoes ih

variable {a b : Bool} {P Q : Spot → Prop}

theorem Leads.bind (h : Leads a s P) (hmore : ∀ s', P s' → Leads b s' Q) : Leads (a && b) s Q := by
  cases a with
  | false => exact h
  | true =>
    obtain ⟨s', hsteps, hs'⟩ := h
    have hlast := hmore s' hs'
    cases b with
    | false => exact hlast.of_steps hsteps
    | true =>
      obtain ⟨s'', hsteps', hs''⟩ := hlast
      exact ⟨s'', hsteps.trans hsteps', hs''⟩

theorem Leads.of_goes (h : Goes s s') (hs' : P s') : Leads true s P := ⟨s', .single h, hs'⟩

/-- What a spot faces: the text, the levels around the innermost one, and the tokens so far. -/
structure Faces (s : Spot) (x : List Char) (outer : List (Option PendingKey)) (ts : List Token) : Prop where
  rest : s.cursor.rest = x
  keys : ∃ top, s.keys = top :: outer
  tokens : s.tokens = ts
  noReturn : '\r' ∉ x
  unfinished : Token.streamEnd ∉ ts

/-- What is faced further on in the text. -/
theorem Faces.past {blanks w : List Char} {n : Nat} {inner : List (Option PendingKey)} {ts' : List Token}
    (h : Faces s (blanks ++ (w ++ y)) inner ts) (hcursor : s'.cursor = (s.cursor.skip blanks.length).skip n)
    (hn : n = w.length) (hkeys : ∃ top, s'.keys = top :: outer) (htokens : s'.tokens = ts')
    (hunfinished : Token.streamEnd ∉ ts') : Faces s' y outer ts' where
  rest := by rw [hcursor, hn, Cursor.rest_skip, Cursor.rest_skip, h.rest, List.drop_left, List.drop_left]
  keys := hkeys
  tokens := htokens
  noReturn := fun hmem => h.noReturn (List.mem_append_right blanks (List.mem_append_right w hmem))
  unfinished := hunfinished

/-- What is faced behind a token. -/
theorem Faces.behind {blanks w : List Char} {n : Nat} {inner : List (Option PendingKey)} {t : Token}
    (h : Faces s (blanks ++ (w ++ y)) inner ts) (hcursor : s'.cursor = (s.cursor.skip blanks.length).skip n)
    (hn : n = w.length) (hkeys : ∃ top, s'.keys = top :: outer) (htokens : s'.tokens = s.tokens ++ [t])
    (ht : t ≠ .streamEnd) : Faces s' y outer (ts ++ [t]) :=
  h.past hcursor hn hkeys (by rw [htokens, h.tokens]) fun hmem =>
    (List.mem_append.mp hmem).elim h.unfinished fun hlast => ht (List.mem_singleton.mp hlast).symm

/-! ## Gaps -/

theorem isGap_of_isBlank {bs : List Char} (hbs : ∀ c ∈ bs, Json.isBlank c = true) (hreturn : '\r' ∉ bs)
    (htab : '\t' ∉ bs) : IsGap bs := by
  intro c hc
  have hblank := hbs c hc
  simp only [Json.isBlank, Bool.or_eq_true, beq_iff_eq] at hblank
  rcases hblank with ((rfl | rfl) | rfl) | rfl
  · exact .inl rfl
  · exact absurd hc htab
  · exact .inr rfl
  · exact absurd hc hreturn

/-- Blanks are a gap up to the first tab. -/
theorem exists_gap (blanks : Blanks) (hreturn : '\r' ∉ blanks.1) :
    ∃ gap more, blanks.1 = gap ++ more ∧ IsGap gap ∧ (∀ c ∈ more.head?, c = '\t') ∧
      ('\t' ∈ blanks.1 → ∃ rest, more = '\t' :: rest) := by
  obtain ⟨gap, more, hblanks, hgap, hmore⟩ := exists_span (fun c => c != '\t') blanks.1
  have hclean : '\t' ∉ gap := fun h => by simpa using hgap _ h
  have hhead : ∀ c ∈ more.head?, c = '\t' := fun c hc => by simpa using hmore c hc
  have hmem : ∀ c ∈ gap, c ∈ blanks.1 := fun c hc => by
    rw [hblanks]
    exact List.mem_append_left more hc
  refine ⟨gap, more, hblanks, ?_, hhead, fun htab => ?_⟩
  · exact isGap_of_isBlank (fun c hc => blanks.2 c (hmem c hc)) (fun h => hreturn (hmem _ h)) hclean
  · rw [hblanks] at htab
    obtain ⟨c, rest, rfl⟩ := List.exists_cons_of_ne_nil
      (List.ne_nil_of_mem ((List.mem_append.mp htab).resolve_left hclean))
    exact ⟨rest, by rw [hhead c rfl]⟩

/-- A tab in a gap is a fault; over any other gap the way is free. -/
theorem Leads.gap {blanks : Blanks} (h : Faces s (blanks.1 ++ x) outer ts) (hmore : IsGap blanks.1 → Leads a s P) :
    Leads ((Part.gap blanks).isClean && a) s P := by
  have hreturn : '\r' ∉ blanks.1 := fun hmem => h.noReturn (List.mem_append_left x hmem)
  by_cases htab : '\t' ∈ blanks.1
  · have hdirty : (Part.gap blanks).isClean = false := by simpa [Part.isClean] using htab
    obtain ⟨gap, more, hblanks, hgap, -, hrest⟩ := exists_gap blanks hreturn
    obtain ⟨rest, rfl⟩ := hrest htab
    rw [hdirty]
    refine stops_tab (h.tokens ▸ h.unfinished) (x := rest ++ x) hgap ?_
    rw [h.rest, hblanks, List.append_assoc]
    rfl
  · have hclean : (Part.gap blanks).isClean = true := by simpa [Part.isClean] using htab
    rw [hclean]
    exact hmore (isGap_of_isBlank blanks.2 hreturn htab)

/-! ## Leaves -/

/-- A string is one scalar, if it is clean. It is a pending key if there may be one. -/
theorem leads_string {blanks : List Char} {ps : List Json.Piece} {top : Option PendingKey} (hgap : IsGap blanks)
    (h : Faces s (blanks ++ ('"' :: (rawChars ps ++ ['"']) ++ y)) outer ts) (hkeys : s.keys = top :: outer)
    (hallowed : outer ≠ [] ∨ s.keyAllowed = true) :
    Leads (Part.text ps).isClean s fun s' =>
      s'.keys = (s.behind blanks.length s.keyAllowed).saved top :: outer ∧
      s'.cursor = (s.cursor.skip blanks.length).skip ((rawChars ps).length + 2) ∧
      Faces s' y outer (ts ++ [.scalar (foldedText [] ps) false]) := by
  have hreads := readsAs_pieces y ps [] (by simp)
  have hsame : rawChars ps ++ '"' :: y = (rawChars ps ++ ['"']) ++ y := by simp
  rw [List.nil_append] at hreads
  cases hdivider : hasDivider (rawChars ps) with
  | true =>
    have hdirty : (Part.text ps).isClean = false := by rw [Part.isClean, hdivider]; rfl
    rw [hdirty]
    exact stops_quoted (h.tokens ▸ h.unfinished) hgap (by rw [h.rest, hsame]; rfl) hkeys (hreads.fails hdivider)
  | false =>
    have hclean : (Part.text ps).isClean = true := by rw [Part.isClean, hdivider]; rfl
    have hquotes := hreads.quotes hdivider
    rw [hsame] at hquotes
    have hgoes := goes_quoted hgap h.rest hquotes hkeys hallowed
    rw [List.length_append, List.length_singleton] at hgoes
    rw [hclean]
    exact .of_goes hgoes ⟨rfl, rfl, h.behind rfl (by simp) ⟨_, rfl⟩ rfl Token.noConfusion⟩

/-- A word is one scalar. The blanks behind it do not belong to it, be there tabs among them or not. -/
theorem leads_word {blanks : List Char} {w : Json.Bare} {after : Blanks} (hgap : IsGap blanks)
    (h : Faces s (blanks ++ (w.chars ++ (after.1 ++ x))) outer ts)
    (hx : EndsLiteral (decide (outer ≠ [])) x) (hallowed : outer ≠ [] ∨ s.keyAllowed = true) :
    Leads true s fun s' => Faces s' (after.1 ++ x) outer (ts ++ [.scalar w.chars true]) := by
  obtain ⟨top, hkeys⟩ := h.keys
  have hreturn : '\r' ∉ after.1 := fun hmem => h.noReturn (by simp [hmem])
  -- the gap goes up to the first tab, and a tab ends a word too
  obtain ⟨gap, more, hafter, hgap', hmore, -⟩ := exists_gap after hreturn
  have hends : EndsLiteral (decide (outer ≠ [])) (more ++ x) := by
    cases more with
    | nil => exact hx
    | cons c more => exact fun ch hch => .inl (hmore ch hch)
  have hrest : s.cursor.rest = blanks ++ (w.chars ++ (gap ++ (more ++ x))) := by
    rw [h.rest, hafter, List.append_assoc gap]
  exact .of_goes (goes_plain (isLiteral_word w) hgap hgap' hrest hkeys hends hallowed)
    (h.behind rfl rfl ⟨_, rfl⟩ rfl Token.noConfusion)

/-! ## Names -/

/-- Whether a name is too far behind can be told from its length and its lines. -/
theorem isStale_name {c : Cursor} {ps : List Json.Piece} {behind : Blanks} {k : PendingKey}
    (hc : c.rest = '"' :: (rawChars ps ++ ['"']) ++ (behind.1 ++ x)) (hreturn : '\r' ∉ c.rest)
    (hline : k.line = c.line) (hindex : k.index = c.index) :
    isStale ((c.skip ((rawChars ps).length + 2)).skip behind.1.length) k = !(Part.name ps behind).isSimple := by
  have hrest : c.rest = ('"' :: (rawChars ps ++ ['"']) ++ behind.1) ++ x := by rw [hc, List.append_assoc]
  have hlength : ('"' :: (rawChars ps ++ ['"']) ++ behind.1).length
      = (rawChars ps).length + 2 + behind.1.length := by
    simp only [List.length_append, List.length_cons, List.length_nil]
  -- without carriage returns every break is one line further
  obtain ⟨hindex', hline'⟩ := Cursor.skip_index_line hrest fun h =>
    hreturn (by rw [hrest]; exact List.mem_append_left x h)
  have hlines : ('"' :: (rawChars ps ++ ['"']) ++ behind.1).countP isBreak
      = (rawChars ps ++ behind.1).countP isBreak := by
    simp [List.countP_append, isBreak]
  rw [hlength, Cursor.skip_add] at hindex' hline'
  rw [hlines] at hline'
  have hbreak : decide (k.line ≠ c.line + (rawChars ps ++ behind.1).countP isBreak)
      = (rawChars ps ++ behind.1).any isBreak := by
    rw [Bool.eq_iff_iff, decide_eq_true_iff, List.any_eq_true, hline, ← List.countP_pos_iff]
    omega
  have hfar : decide (c.index + ((rawChars ps).length + 2 + behind.1.length) - k.index > 1024)
      = !decide ((rawChars ps).length + behind.1.length + 2 ≤ 1024) := by
    rw [Bool.eq_iff_iff, Bool.not_eq_true', decide_eq_true_iff, decide_eq_false_iff_not, hindex]
    omega
  rw [isStale, hindex', hline', hbreak, hfar, Part.isSimple, Bool.not_and, Bool.not_not]

/-- A name with its colon. -/
theorem leads_name {n : Name} (h : Faces s (n.chars ++ y) outer ts) (houter : outer ≠ [])
    (hallowed : s.keyAllowed = true) :
    Leads ((Part.gap n.before).isClean && (Part.name n.pieces n.behind).isClean) s
      fun s' => Faces s' (n.after.1 ++ y) outer (ts ++ n.tokens) := by
  have hchars : n.chars ++ y = n.before.1 ++
      ('"' :: (rawChars n.pieces ++ ['"']) ++ (n.behind.1 ++ ([':'] ++ (n.after.1 ++ y)))) := by
    simp [Name.chars]
  have hparts : (Part.name n.pieces n.behind).isClean
      = ((Part.text n.pieces).isClean && ((Part.gap n.behind).isClean && true)) := by
    rw [Bool.and_true]
    rfl
  rw [hchars] at h
  rw [hparts]
  obtain ⟨top, hkeys⟩ := h.keys
  refine .gap h fun hgap => (leads_string hgap h hkeys (.inl houter)).bind ?_
  rintro s₁ ⟨hkeys₁, hcursor₁, h₁⟩
  refine .gap h₁ fun hgap₁ => ?_
  -- at the colon the name is the pending key, unless it is too far behind
  have hkey : (s.behind n.before.1.length s.keyAllowed).saved top
      = some (s.behind n.before.1.length s.keyAllowed).pending := if_pos hallowed
  have hplace : (s.cursor.skip n.before.1.length).rest =
      '"' :: (rawChars n.pieces ++ ['"']) ++ (n.behind.1 ++ ([':'] ++ (n.after.1 ++ y))) := by
    rw [Cursor.rest_skip, h.rest, List.drop_left]
  have hstale := isStale_name (k := (s.behind n.before.1.length s.keyAllowed).pending) hplace
    (fun hmem => h.noReturn (by rw [hplace] at hmem; exact List.mem_append_right _ hmem)) rfl rfl
  rw [hkey] at hkeys₁
  rw [← hcursor₁] at hstale
  rw [Name.tokens]
  cases hsimple : (Part.name n.pieces n.behind).isSimple with
  | true =>
    rw [hsimple] at hstale
    refine .of_goes (goes_colon hgap₁ h₁.rest hkeys₁ houter hstale h₁.tokens (by rw [← h.tokens]; rfl)) ?_
    refine h₁.past rfl rfl ⟨none, rfl⟩ (by simp) ?_
    simpa using h.unfinished
  | false =>
    rw [hsimple] at hstale
    have hgone : fresh (s₁.cursor.skip n.behind.1.length) (some (s.behind n.before.1.length s.keyAllowed).pending)
        = none := if_pos hstale
    refine .of_goes (goes_colon_stale hgap₁ h₁.rest hkeys₁ houter hgone) ?_
    refine h₁.past rfl rfl ⟨none, rfl⟩ (by simp [h₁.tokens]) ?_
    simpa using h.unfinished

/-! ## Marks -/

theorem leads_open {blanks : List Char} {ch : Char} {t : Token}
    (hch : ch = '[' ∧ t = .flowSequence ∨ ch = '{' ∧ t = .flowMapping) (hgap : IsGap blanks)
    (h : Faces s (blanks ++ ([ch] ++ y)) outer ts) (hallowed : outer ≠ [] ∨ s.keyAllowed = true) :
    ∃ k, Leads true s fun s' => s'.keyAllowed = true ∧ Faces s' y (k :: outer) (ts ++ [t]) := by
  obtain ⟨top, hkeys⟩ := h.keys
  refine ⟨_, .of_goes (goes_open hch hgap h.rest hkeys hallowed) ⟨rfl, h.behind rfl rfl ⟨none, rfl⟩ rfl ?_⟩⟩
  rcases hch with ⟨-, rfl⟩ | ⟨-, rfl⟩ <;> exact Token.noConfusion

theorem leads_close {blanks : Blanks} {ch : Char} {t : Token} {k : Option PendingKey}
    (hch : ch = ']' ∧ t = .flowSequenceEnd ∨ ch = '}' ∧ t = .flowMappingEnd)
    (h : Faces s (blanks.1 ++ ([ch] ++ y)) (k :: outer) ts) :
    Leads ((Part.gap blanks).isClean && true) s fun s' => Faces s' y outer (ts ++ [t]) := by
  obtain ⟨top, hkeys⟩ := h.keys
  refine .gap h fun hgap => .of_goes (goes_close hch hgap h.rest hkeys (List.cons_ne_nil k outer))
    (h.behind rfl rfl ⟨k, rfl⟩ rfl ?_)
  rcases hch with ⟨-, rfl⟩ | ⟨-, rfl⟩ <;> exact Token.noConfusion

theorem leads_comma {blanks : Blanks} {k : Option PendingKey}
    (h : Faces s (blanks.1 ++ ([','] ++ y)) (k :: outer) ts) :
    Leads ((Part.gap blanks).isClean && true) s fun s' =>
      s'.keyAllowed = true ∧ Faces s' y (k :: outer) (ts ++ [.flowEntry]) := by
  obtain ⟨top, hkeys⟩ := h.keys
  exact .gap h fun hgap => .of_goes (goes_entry hgap h.rest hkeys (List.cons_ne_nil k outer))
    ⟨rfl, h.behind rfl rfl ⟨none, rfl⟩ rfl Token.noConfusion⟩

theorem endsLiteral_mark {ch : Char} (hch : Scalar.isFlowMark ch = true) (k : Option PendingKey)
    (outer : List (Option PendingKey)) (y : List Char) :
    EndsLiteral (decide (k :: outer ≠ [])) (ch :: y) := by
  intro c hc
  cases hc
  exact .inr ⟨by simp, hch⟩

/-! ## Sources -/

theorem Leads.imp (h : Leads a s P) (hPQ : ∀ s', P s' → Q s') : Leads a s Q := by
  cases a with
  | false => exact h
  | true =>
    obtain ⟨s', hsteps, hs'⟩ := h
    exact ⟨s', hsteps, hPQ s' hs'⟩

/-- The tokens may be put together otherwise, and so may the parts. -/
theorem Leads.faces {ts' : List Token} (h : Leads a s fun s' => Faces s' y outer ts) (hclean : a = b)
    (htokens : ts = ts') : Leads b s fun s' => Faces s' y outer ts' := by
  subst hclean htokens
  exact h

mutual

/-- A value is read up to the blanks behind it. -/
theorem leads_source (src : Source) {s : Spot} {before after : Blanks} {x : List Char}
    {outer : List (Option PendingKey)} {ts : List Token}
    (h : Faces s (before.1 ++ (src.chars ++ (after.1 ++ x))) outer ts)
    (hx : EndsLiteral (decide (outer ≠ [])) x) (hallowed : outer ≠ [] ∨ s.keyAllowed = true) :
    Leads ((Part.gap before).isClean && src.parts.all Part.isClean) s
      fun s' => Faces s' (after.1 ++ x) outer (ts ++ src.tokens) := by
  refine .gap h fun hgap => ?_
  obtain ⟨top, hkeys⟩ := h.keys
  match src with
  | .text ps =>
    rw [Source.chars] at h
    rw [Source.parts, Source.tokens, List.all_cons, List.all_nil, Bool.and_true]
    exact (leads_string hgap h hkeys hallowed).imp fun _ h => h.2.2
  | .bare w => exact leads_word hgap h hx hallowed
  | .emptyList blanks =>
    have h' : Faces s (before.1 ++ (['['] ++ (blanks.1 ++ ([']'] ++ (after.1 ++ x))))) outer ts := by
      simpa [Source.chars] using h
    obtain ⟨k, hopen⟩ := leads_open (.inl ⟨rfl, rfl⟩) hgap h' hallowed
    exact (hopen.bind fun _ h => leads_close (.inl ⟨rfl, rfl⟩) h.2).faces rfl (by simp [Source.tokens])
  | .list is =>
    have h' : Faces s (before.1 ++ (['['] ++ (is.chars ++ ']' :: (after.1 ++ x)))) outer ts := by
      simpa [Source.chars] using h
    obtain ⟨k, hopen⟩ := leads_open (.inl ⟨rfl, rfl⟩) hgap h' hallowed
    exact (hopen.bind fun _ h => leads_items is h.2).faces rfl (by simp [Source.tokens])
  | .emptyMap blanks =>
    have h' : Faces s (before.1 ++ (['{'] ++ (blanks.1 ++ (['}'] ++ (after.1 ++ x))))) outer ts := by
      simpa [Source.chars] using h
    obtain ⟨k, hopen⟩ := leads_open (.inr ⟨rfl, rfl⟩) hgap h' hallowed
    exact (hopen.bind fun _ h => leads_close (.inr ⟨rfl, rfl⟩) h.2).faces rfl (by simp [Source.tokens])
  | .map ms =>
    have h' : Faces s (before.1 ++ (['{'] ++ (ms.chars ++ '}' :: (after.1 ++ x)))) outer ts := by
      simpa [Source.chars] using h
    obtain ⟨k, hopen⟩ := leads_open (.inr ⟨rfl, rfl⟩) hgap h' hallowed
    exact (hopen.bind fun _ h => leads_members ms h.2 h.1).faces rfl (by simp [Source.tokens])

theorem leads_items (is : Items) {s : Spot} {y : List Char} {k : Option PendingKey}
    {outer : List (Option PendingKey)} {ts : List Token} (h : Faces s (is.chars ++ ']' :: y) (k :: outer) ts) :
    Leads (is.parts.all Part.isClean) s fun s' => Faces s' y outer (ts ++ is.tokens) := by
  match is with
  | .last before item after =>
    have h' : Faces s (before.1 ++ (item.chars ++ (after.1 ++ ']' :: y))) (k :: outer) ts := by
      simpa [Items.chars] using h
    have hitem := leads_source item h' (endsLiteral_mark rfl k outer y) (.inl (List.cons_ne_nil k outer))
    exact (hitem.bind fun _ h => leads_close (.inl ⟨rfl, rfl⟩) h).faces
      (by simp [Items.parts, Bool.and_assoc]) (by simp [Items.tokens])
  | .cons before item after more =>
    have h' : Faces s (before.1 ++ (item.chars ++ (after.1 ++ ',' :: (more.chars ++ ']' :: y))))
        (k :: outer) ts := by
      simpa [Items.chars] using h
    have hitem := leads_source item h' (endsLiteral_mark rfl k outer _) (.inl (List.cons_ne_nil k outer))
    exact ((hitem.bind fun _ h => leads_comma h).bind fun _ h => leads_items more h.2).faces
      (by simp [Items.parts, Bool.and_assoc]) (by simp [Items.tokens])

theorem leads_members (ms : Members) {s : Spot} {y : List Char} {k : Option PendingKey}
    {outer : List (Option PendingKey)} {ts : List Token} (h : Faces s (ms.chars ++ '}' :: y) (k :: outer) ts)
    (hallowed : s.keyAllowed = true) :
    Leads (ms.parts.all Part.isClean) s fun s' => Faces s' y outer (ts ++ ms.tokens) := by
  match ms with
  | .last name value after =>
    have h' : Faces s (name.chars ++ (value.chars ++ (after.1 ++ '}' :: y))) (k :: outer) ts := by
      simpa [Members.chars] using h
    have hname := leads_name h' (List.cons_ne_nil k outer) hallowed
    have hvalue := hname.bind fun _ h =>
      leads_source value h (endsLiteral_mark rfl k outer y) (.inl (List.cons_ne_nil k outer))
    exact (hvalue.bind fun _ h => leads_close (.inr ⟨rfl, rfl⟩) h).faces
      (by simp [Members.parts, Name.parts, Bool.and_assoc]) (by simp [Members.tokens])
  | .cons name value after more =>
    have h' : Faces s (name.chars ++ (value.chars ++ (after.1 ++ ',' :: (more.chars ++ '}' :: y))))
        (k :: outer) ts := by
      simpa [Members.chars] using h
    have hname := leads_name h' (List.cons_ne_nil k outer) hallowed
    have hvalue := hname.bind fun _ h =>
      leads_source value h (endsLiteral_mark rfl k outer _) (.inl (List.cons_ne_nil k outer))
    exact ((hvalue.bind fun _ h => leads_comma h).bind fun _ h => leads_members more h.2 h.1).faces
      (by simp [Members.parts, Name.parts, Bool.and_assoc]) (by simp [Members.tokens])

end

/-! ## Texts -/

/-- Before the first token. -/
def Spot.ofChars (cs : List Char) : Spot := ⟨{ rest := cs }, true, [none], []⟩

theorem at_ofChars {cs : List Char} (hcs : cs.head? ≠ some '\uFEFF') : (ofChars cs).At (Spot.ofChars cs) := by
  have hcursor : (ofChars cs).cursor = { rest := cs } := by
    have hpeek : (({ rest := cs } : Cursor).peek == some '\uFEFF') = false := by simpa [Cursor.peek] using hcs
    simp [ofChars, hpeek]
  exact {
    cursor := ⟨[], by simp, by rw [hcursor]; rfl, by rw [hcursor]; rfl⟩
    indent := rfl
    indents := rfl
    keyAllowed := rfl
    keys := .cons (.inl rfl) .nil
    harmless := fun k hk => by simp [Spot.ofChars] at hk
    ahead := fun k hk => by simp [ofChars] at hk
    going := rfl
    taken := Nat.zero_le _
    queue := rfl
    count := rfl
    room := Nat.lt_succ_self _ }

theorem exists_chars_eq_cons_source (src : Source) : ∃ c rest, src.chars = c :: rest ∧ c ≠ '\uFEFF' := by
  match src with
  | .text ps => exact ⟨'"', _, by rw [Source.chars], by decide⟩
  | .bare w =>
    obtain ⟨sign, d, rest, hw, hsign, hd⟩ := (isLiteral_word w).begins
    rcases hsign with rfl | rfl
    · exact ⟨d, rest, by rw [Source.chars, hw]; rfl, ne_of_isAlphanum hd (by decide)⟩
    · exact ⟨'-', d :: rest, by rw [Source.chars, hw]; rfl, by decide⟩
  | .emptyList blanks => exact ⟨'[', _, by rw [Source.chars], by decide⟩
  | .list is => exact ⟨'[', _, by rw [Source.chars], by decide⟩
  | .emptyMap blanks => exact ⟨'{', _, by rw [Source.chars], by decide⟩
  | .map ms => exact ⟨'{', _, by rw [Source.chars], by decide⟩

theorem head?_document (d : Json.Document) : d.chars.head? ≠ some '\uFEFF' := by
  obtain ⟨c, rest, hchars, hc⟩ := exists_chars_eq_cons_source d.source
  rw [Json.Document.chars, hchars]
  cases hbefore : d.before.1 with
  | nil => simpa using hc
  | cons b bs =>
    have hb := d.before.2 b (by rw [hbefore]; exact List.mem_cons_self)
    rintro heq
    obtain rfl : b = '\uFEFF' := Option.some.inj heq
    exact absurd hb (by decide)

theorem leads_document (d : Json.Document) (hreturn : '\r' ∉ d.chars) :
    Leads (d.parts.all Part.isClean) (Spot.ofChars d.chars)
      fun s' => Run s' (d.source.tokens ++ [.streamEnd]) := by
  have h : Faces (Spot.ofChars d.chars) (d.before.1 ++ (d.source.chars ++ (d.after.1 ++ []))) [] [] :=
    ⟨by simp [Spot.ofChars, Json.Document.chars], ⟨none, rfl⟩, rfl,
      by simpa [Json.Document.chars] using hreturn, by simp⟩
  have hsource := leads_source d.source h (by simp [EndsLiteral]) (.inr rfl)
  have hlast : ∀ s', Faces s' (d.after.1 ++ []) [] ([] ++ d.source.tokens) →
      Leads ((Part.gap d.after).isClean && true) s' fun s' => Run s' (d.source.tokens ++ [.streamEnd]) := by
    intro s' h'
    refine .gap h' fun hgap => ⟨s', .refl, ?_⟩
    obtain ⟨top, hkeys⟩ := h'.keys
    have hrun := run_end hgap (by rw [h'.rest, List.append_nil]) hkeys
    rw [h'.tokens] at hrun
    exact hrun
  have hend := hsource.bind hlast
  simpa [Json.Document.parts, Bool.and_assoc] using hend

/-- **The tokens of a clean text come out.** -/
theorem yields_document {d : Json.Document} (hreturn : '\r' ∉ d.chars) (hclean : d.parts.all Part.isClean = true) :
    (ofChars d.chars).Yields (d.source.tokens ++ [.streamEnd]) := by
  have h := leads_document d hreturn
  rw [hclean] at h
  obtain ⟨s', hsteps, hrun⟩ := h
  exact (hrun.of_steps hsteps).yields (at_ofChars (head?_document d))

/-- **A text that is not clean breaks off.** -/
theorem breaks_document {d : Json.Document} (hreturn : '\r' ∉ d.chars)
    (hdirty : d.parts.all Part.isClean = false) : (ofChars d.chars).Breaks := by
  have h := leads_document d hreturn
  rw [hdirty] at h
  exact Stops.breaks h (at_ofChars (head?_document d))

end CommentStyle.Yaml.Lexer
