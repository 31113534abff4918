import CommentStyle.Console.Literal.Token

/-!
# Grammars

A grammar gives a pattern for each of its rules. Patterns are tried in order at a place of the tokens, and
the first that matches is taken; what a rule has matched at a place is remembered. A text that does not
match is tried once more with care: then more patterns for common mistakes are tried as well, and one that
matches says what is wrong.
-/

namespace CommentStyle.Console.Literal

/-- What a phrase is, once it is recognised. -/
inductive Phrase where
  | tuple
  | set
  | mapping
  /-- A key and its value. -/
  | pair
  /-- Entries taken from another mapping, or arguments from one. -/
  | unpacked
  | starred
  | texts
  | sum
  | signed
  | expression
  | comparison
  | conditional
  | assignment
  | function
  | yielded
  | awaited
  | generator
  | setGenerator
  | mappingGenerator
  /-- Something with attributes taken of it or arguments given to it. -/
  | applied
  | attribute
  | call
  | keyword
deriving DecidableEq, Repr

/-- What was recognised. -/
inductive Tree where
  | leaf (t : Token)
  | node (phrase : Phrase) (parts : List Tree)
deriving Repr

/-- A pattern of tokens, over rules named by `ρ`. -/
inductive Pattern (ρ : Type) where
  /-- A token that becomes part of the tree. -/
  | leaf (accepts : Token → Bool)
  /-- A token that does not. -/
  | mark (accepts : Token → Bool)
  | rule (r : ρ)
  | all (ps : List (Pattern ρ))
  | first (ps : List (Pattern ρ))
  | opt (p : Pattern ρ)
  | many (p : Pattern ρ)
  /-- The pattern is here, or is not, and nothing is consumed. -/
  | ahead (p : Pattern ρ)
  | notAhead (p : Pattern ρ)
  | node (phrase : Phrase) (p : Pattern ρ)
  /-- What is recognised is at fault for a reason, or is not. -/
  | judged (p : Pattern ρ) (judge : List Tree → Option String)
  /-- Mistakes, each with its reason by what was recognised and the number of brackets open. The first that
  matches decides. -/
  | mistakes (ms : List (Pattern ρ × (List Tree → Nat → Option String)))
  /-- The pattern is tried only with care. -/
  | careful (p : Pattern ρ)
  /-- The pattern is tried without care. -/
  | careless (p : Pattern ρ)

namespace Pattern

variable {ρ : Type}

/-- One or more. -/
def some (p : Pattern ρ) : Pattern ρ := all [p, many p]

/-- One or more, divided by another pattern. -/
def divided (divider p : Pattern ρ) : Pattern ρ := all [p, many (all [divider, p])]

end Pattern

/-- A grammar: the pattern of each rule, and whether what it matched is remembered whatever the care. -/
structure Grammar (ρ : Type) where
  pattern : ρ → Pattern ρ
  shared : ρ → Bool

/-- Why tokens do not match. -/
inductive Mismatch where
  /-- The text cannot be divided into tokens, or ends too early. -/
  | token (reason : List Char)
  /-- A mistake, and how many tokens had been looked at. -/
  | mistake (reason : String) (seen : Nat)
deriving DecidableEq, Repr

/-- What a rule matched at a place: the parts of a tree and the place behind them. -/
abbrev Match := Option (List Tree × Nat)

/-- How far a trial has come. -/
structure Trial (ρ : Type) where
  position : Nat := 0
  /-- The number of tokens looked at. -/
  seen : Nat := 0
  careful : Bool := false
  /-- What rules matched at each place. -/
  remembered : Array (List ((ρ × Bool) × Match))

/-- A step of a trial: the parts of a tree if the pattern matches. -/
abbrev Try (ρ : Type) := StateT (Trial ρ) (Except Mismatch)

namespace Try

variable {ρ : Type}

/-- The token at the place. -/
def look (ts : Array Token) : Try ρ Token := do
  let t ← get
  let token := ts.getD t.position default
  set { t with seen := max t.seen (t.position + 1) }
  if token.kind = .broken || token.kind = .unfinished then throw (.token token.text)
  return token

def accept (ts : Array Token) (accepts : Token → Bool) : Try ρ (Option Token) := do
  let token ← look ts
  if accepts token then
    modify fun t => { t with position := t.position + 1 }
    return some token
  else return none

def fail : Try ρ (Option (List Tree)) := return none

def mistake (reason : String) : Try ρ (Option (List Tree)) := do throw (.mistake reason (← get).seen)

/-- Goes back to a place. -/
def back (position : Nat) : Try ρ Unit := modify fun t => { t with position }

mutual

/-- Tries a pattern. One that does not match leaves the place where it was. -/
def run [DecidableEq ρ] (g : Grammar ρ) (ts : Array Token) : Nat → Pattern ρ → Try ρ (Option (List Tree))
  | 0, _ => fail
  | fuel + 1, p => do
    let start := (← get).position
    match p with
    | .leaf accepts => return (← accept ts accepts).map fun t => [.leaf t]
    | .mark accepts => return (← accept ts accepts).map fun _ => []
    | .rule r =>
      let key := (r, (← get).careful && !g.shared r)
      match ((← get).remembered.getD start []).lookup key with
      | some (some (trees, stop)) =>
        back stop
        return some trees
      | some none => fail
      | none =>
        let found ← run g ts fuel (g.pattern r)
        modify fun t => { t with remembered := t.remembered.modify start ((key, found.map (·, t.position)) :: ·) }
        return found
    | .all ps =>
      match ← runAll g ts fuel ps with
      | some trees => return some trees
      | none =>
        back start
        fail
    | .first ps => runFirst g ts fuel ps
    | .opt p => return some ((← run g ts fuel p).getD [])
    | .many p =>
      match ← run g ts fuel p with
      | none => return some []
      | some trees =>
        if (← get).position = start then return some trees
        else return (← run g ts fuel (.many p)).map (trees ++ ·)
    | .ahead p =>
      let found ← run g ts fuel p
      back start
      return found.map fun _ => []
    | .notAhead p =>
      let found ← run g ts fuel p
      back start
      return if found.isSome then none else some []
    | .node phrase p => return (← run g ts fuel p).map fun trees => [.node phrase trees]
    | .judged p judge =>
      match ← run g ts fuel p with
      | none => fail
      | some trees =>
        match judge trees with
        | some reason => mistake reason
        | none => return some trees
    | .mistakes ms => runMistakes g ts fuel ms
    | .careful p => if (← get).careful then run g ts fuel p else fail
    | .careless p =>
      let careful := (← get).careful
      modify fun t => { t with careful := false }
      let found ← run g ts fuel p
      modify fun t => { t with careful }
      return found
termination_by structural x => x

/-- One pattern behind the other. -/
def runAll [DecidableEq ρ] (g : Grammar ρ) (ts : Array Token) :
    Nat → List (Pattern ρ) → Try ρ (Option (List Tree))
  | 0, _ => fail
  | _ + 1, [] => return some []
  | fuel + 1, p :: ps => do
    match ← run g ts fuel p with
    | none => fail
    | some trees => return (← runAll g ts fuel ps).map (trees ++ ·)
termination_by structural x => x

/-- The first pattern that matches. -/
def runFirst [DecidableEq ρ] (g : Grammar ρ) (ts : Array Token) :
    Nat → List (Pattern ρ) → Try ρ (Option (List Tree))
  | 0, _ => fail
  | _ + 1, [] => fail
  | fuel + 1, p :: ps => do
    match ← run g ts fuel p with
    | some trees => return some trees
    | none => runFirst g ts fuel ps
termination_by structural x => x

/-- The first mistake that is here. -/
def runMistakes [DecidableEq ρ] (g : Grammar ρ) (ts : Array Token) :
    Nat → List (Pattern ρ × (List Tree → Nat → Option String)) → Try ρ (Option (List Tree))
  | 0, _ => fail
  | _ + 1, [] => fail
  | fuel + 1, (p, reason) :: ms => do
    let start := (← get).position
    match ← run g ts fuel p with
    | none => runMistakes g ts fuel ms
    | some trees =>
      let level := (ts.getD ((← get).position - 1) default).level
      back start
      match reason trees level with
      | some reason => mistake reason
      | none => fail
termination_by structural x => x

end

end Try

namespace Grammar

variable {ρ : Type}

/-- Matches tokens with a rule: the parts of the tree, if they match, and the number of tokens looked at. -/
def parse [DecidableEq ρ] (g : Grammar ρ) (start : ρ) (careful : Bool) (ts : Array Token) :
    Except Mismatch (Option (List Tree) × Nat) := do
  let trial : Trial ρ := { careful, remembered := Array.replicate (ts.size + 1) [] }
  let (trees, t) ← StateT.run (Try.run g ts (256 * (ts.size + 1)) (.rule start)) trial
  return (trees, t.seen)

/-- What is wrong with tokens, known for a reason and by the tokens looked at. A text that cannot be divided
into tokens is at fault in that above all; a bracket left open on an earlier line is the next likely cause. -/
def blame (ts : Array Token) (reason : String) (seen : Nat) : String :=
  let last := ts.getD (ts.size - 1) default
  let looked := ts.getD (seen - 1) default
  if last.kind = .broken then String.ofList last.text
  else if last.kind = .unfinished && last.line < looked.line then String.ofList last.text
  else reason

/-- The tree of tokens, or why there is none. -/
def read [DecidableEq ρ] (g : Grammar ρ) (start : ρ) (ts : Array Token) : Except String (List Tree) :=
  let mismatch : Mismatch → Except String (List Tree)
    | .token reason => .error (String.ofList reason)
    | .mistake reason seen =>
      .error (if (ts.getD (seen - 1) default).last then reason else blame ts reason seen)
  match g.parse start false ts with
  | .error m => mismatch m
  | .ok (some trees, _) => .ok trees
  | .ok (none, seen) =>
    match g.parse start true ts with
    | .error m => mismatch m
    | .ok (_, seenWithCare) =>
      match (ts.getD (seen - 1) default).kind with
      | .indent => .error "unexpected indent"
      | .dedent => .error "unexpected unindent"
      | _ => .error (blame ts "invalid syntax" (max seen seenWithCare))

end Grammar

end CommentStyle.Console.Literal
