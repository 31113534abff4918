import CommentStyle.Console.Literal.Expression
import CommentStyle.Number.Binary64

/-!
# Constants

An expression is a literal if it is made of constants alone: numbers, texts, truth values, tuples, sets and
mappings. What a literal holds does not matter here, only whether it can be made: the items of a set and
the keys of a mapping must not be sets or mappings, nor tuples that hold one.
-/

namespace CommentStyle.Console.Literal

/-- Why an expression is no literal. -/
inductive ConstantFault where
  /-- An item or key cannot be one, for the kind it is of. -/
  | unhashable (kind : String)
  /-- A mapping is to take over the entries of another. -/
  | unpacked
  /-- A whole number is beyond the numbers with a fraction. -/
  | hugeNumber
  /-- The expression is to be computed. -/
  | computed
deriving DecidableEq, Repr

def ConstantFault.message : ConstantFault → String
  | unhashable kind => "unhashable type: '" ++ kind ++ "'"
  | unpacked => "malformed node or string: None"
  | hugeNumber => "int too large to convert to float"
  | computed => "malformed node or string"

/-- What is known of a constant: the kind that keeps it from being a key, if one does. -/
abbrev Constant := Option String

namespace Constant

def isImaginary (t : Token) : Bool := t.isNumber && !startsWith ['0', 'x'] t.text && t.text.getLast?.any isJ

/-- The whole number that a token is. -/
def whole? (t : Token) : Option Int :=
  let digits := t.text.filter (· ≠ '_')
  match digits with
  | '0' :: c :: rest =>
    if c = 'x' || c = 'X' then (Number.whole? 16 rest).toOption
    else if c = 'o' || c = 'O' then (Number.whole? 8 rest).toOption
    else if c = 'b' || c = 'B' then (Number.whole? 2 rest).toOption
    else (Number.whole? 10 digits).toOption
  | _ => if isWholeNumber t.text then (Number.whole? 10 digits).toOption else none

def isHuge (t : Token) : Bool :=
  match (whole? t).map Binary64.ofInt with
  | some (.infinite _) => true
  | _ => false

/-- A number with a sign or none, as the first part of a sum. -/
def part? : Tree → Option Token
  | .leaf t => if t.isNumber && !isImaginary t then some t else none
  | .node .signed [.leaf _, .leaf t] => if t.isNumber && !isImaginary t then some t else none
  | _ => none

/-- A sum is a constant only of a number and an imaginary one. -/
def sum (left right : Tree) : Except ConstantFault Constant :=
  match part? left, right with
  | some t, .leaf i =>
    if isImaginary i then if isHuge t then .error .hugeNumber else .ok none else .error .computed
  | _, _ => .error .computed

def leaf (t : Token) : Except ConstantFault Constant := if t.isName then .error .computed else .ok none

/-- Texts are constants unless they are formatted. -/
def texts (parts : List Tree) : Except ConstantFault Constant :=
  if (Tree.node .texts parts).name = "literal" then .ok none else .error .computed

/-- An empty set has no other form than a call. -/
def isEmptySet : List Tree → Bool
  | [.leaf t, .node .call []] => t.word = "set"
  | _ => false

mutual

def of : Tree → Except ConstantFault Constant
  | .leaf t => leaf t
  | .node .texts parts => texts parts
  | .node .signed [.leaf _, .leaf t] => if t.isNumber then .ok none else .error .computed
  | .node .sum [left, .leaf _, right] => sum left right
  | .node .tuple parts => items parts
  | .node .set parts => do
    members parts
    return some "set"
  | .node .mapping parts => do
    entries parts
    return some "dict"
  | .node .applied parts => if isEmptySet parts then .ok (some "set") else .error .computed
  | .node _ _ => .error .computed

/-- The items of a tuple, the first that is no key making the tuple none. -/
def items : List Tree → Except ConstantFault Constant
  | [] => .ok none
  | t :: ts => do
    let first ← of t
    let rest ← items ts
    return first.or rest

/-- The items of a set. -/
def members : List Tree → Except ConstantFault Unit
  | [] => .ok ()
  | t :: ts => do
    match ← of t with
    | some kind => throw (.unhashable kind)
    | none => members ts

/-- The entries of a mapping. -/
def entries : List Tree → Except ConstantFault Unit
  | [] => .ok ()
  | .node .pair [key, value] :: ts => do
    let key ← of key
    let _ ← of value
    match key with
    | some kind => throw (.unhashable kind)
    | none => entries ts
  | _ :: _ => .error .unpacked

end

end Constant

/-- Why a text is no literal. -/
inductive Fault where
  /-- It is no expression. -/
  | notExpression (reason : String)
  | constant (f : ConstantFault)
  | null
deriving DecidableEq, Repr

/-- Checks that a text is a literal. -/
def check (text : List Char) : Except Fault Unit :=
  if text.contains '\x00' then .error .null
  else
    match expression text with
    | .error reason => .error (.notExpression reason)
    | .ok [tree] =>
      match Constant.of tree with
      | .ok _ => .ok ()
      | .error f => .error (.constant f)
    | .ok _ => .error (.constant .computed)

end CommentStyle.Console.Literal
