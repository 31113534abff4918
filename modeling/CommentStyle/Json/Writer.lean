import CommentStyle.Value

/-!
# Writing JSON

Texts are written as they are, save for the quote, the backslash and the controls. On one line, items are
divided by a comma and a blank; spread over lines, each item stands on its own line, indented by its depth.
-/

namespace CommentStyle.Json

def escape (c : Char) : List Char :=
  if c == '"' || c == '\\' then ['\\', c]
  else if c == '\n' then ['\\', 'n']
  else if c == '\r' then ['\\', 'r']
  else if c == '\t' then ['\\', 't']
  else if c == '\x08' then ['\\', 'b']
  else if c == '\x0c' then ['\\', 'f']
  else if c.toNat < 0x20 then '\\' :: 'u' :: Text.hex 4 c.toNat
  else [c]

def writeString (s : String) : List Char := '"' :: s.toList.flatMap escape ++ ['"']

/-- A value that JSON has no form for, as a text. -/
def writeWord (v : Value) : List Char := writeString (v.word.toOption.getD "")

/-- One line, or lines indented by so many blanks for each level. -/
inductive Layout where
  | oneLine
  | lines (indent : Nat)
deriving DecidableEq, Repr

namespace Layout

/-- Lines for any given indent; a negative one counts as none. -/
def ofIndent : Option Int → Layout
  | none => oneLine
  | some n => lines n.toNat

/-- What stands before an item at a depth. -/
def lead (l : Layout) (depth : Nat) : List Char :=
  match l with
  | oneLine => []
  | lines indent => '\n' :: List.replicate (indent * depth) ' '

/-- What stands between two items at a depth. -/
def divider (l : Layout) (depth : Nat) : List Char :=
  match l with
  | oneLine => [',', ' ']
  | lines _ => ',' :: l.lead depth

end Layout

def writeFloat : Binary64 → List Char
  | .nan => ['N', 'a', 'N']
  | .infinite s => (if s then "-Infinity" else "Infinity").toList
  | x => x.text.toList

mutual

/-- A value whose items, if it has any, stand at depth `depth + 1`. -/
def write (l : Layout) (depth : Nat) : Value → List Char
  | .null => ['n', 'u', 'l', 'l']
  | .bool b => if b then ['t', 'r', 'u', 'e'] else ['f', 'a', 'l', 's', 'e']
  | .int n => (toString n).toList
  | .float x => writeFloat x
  | .str s => writeString s
  | .list [] => ['[', ']']
  | .list (x :: xs) =>
    '[' :: l.lead (depth + 1) ++ writeItems l (depth + 1) (x :: xs) ++ l.lead depth ++ [']']
  | .map [] => ['{', '}']
  | .map (e :: es) =>
    '{' :: l.lead (depth + 1) ++ writeMembers l (depth + 1) (e :: es) ++ l.lead depth ++ ['}']
  | v => writeWord v

def writeItems (l : Layout) (depth : Nat) : List Value → List Char
  | [] => []
  | [x] => write l depth x
  | x :: y :: xs => write l depth x ++ l.divider depth ++ writeItems l depth (y :: xs)

def writeMembers (l : Layout) (depth : Nat) : List (Value × Value) → List Char
  | [] => []
  | [(k, v)] => writeWord k ++ [':', ' '] ++ write l depth v
  | (k, v) :: e :: es =>
    writeWord k ++ [':', ' '] ++ write l depth v ++ l.divider depth
      ++ writeMembers l depth (e :: es)

end

def render (l : Layout) (v : Value) : String := String.ofList (write l 0 v)

end CommentStyle.Json
