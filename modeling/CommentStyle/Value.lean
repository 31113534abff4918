import CommentStyle.Calendar
import CommentStyle.Number.Shortest
import CommentStyle.Number.Word

/-!
# Plain data

What a JSON or YAML text says, before it is read as comments or options: the scalars of both formats,
lists, mappings that keep the order of their entries, and the few further kinds YAML knows. Collections
that YAML makes part of themselves are knotted: their contents stand once, under numbers, and refer to each
other by these.
-/

namespace CommentStyle

inductive Value where
  | null
  | bool (b : Bool)
  | int (n : Int)
  | float (x : Binary64)
  /-- Not a number, made in one place of a text and equal to none made elsewhere. -/
  | ownNan (place : Nat)
  | str (s : String)
  | octets (os : List UInt8)
  | date (d : Date)
  | moment (m : Moment)
  | list (xs : List Value)
  | pair (first second : Value)
  | map (entries : List (Value × Value))
  | set (xs : List Value)
  /-- Inside a knot, the collection with that number. -/
  | link (n : Nat)
  /-- The collection with that number, the contents of all that hang together being given. -/
  | knot (parts : List (Nat × Value)) (n : Nat)
deriving Repr

/-- Why a value has no text. -/
inductive ShowFault where
  | number (f : NumberFault)
  | tooDeep
deriving DecidableEq, Repr

def ShowFault.message : ShowFault → String
  | number f => f.message
  | tooDeep => "maximum recursion depth exceeded while getting the repr of an object"

namespace Value

/-! ## Knots -/

/-- A link, seen from outside of its knot. -/
def tie (parts : List (Nat × Value)) : Value → Value
  | link n => knot parts n
  | v => v

/-- As `tie`, also for the two halves of a pair. -/
def tieItem (parts : List (Nat × Value)) : Value → Value
  | pair a b => pair (tie parts a) (tie parts b)
  | v => tie parts v

/-- A knotted collection as the collection it is, whose items may be knotted; all else stays. -/
def unfold : Value → Value
  | knot parts n =>
    match parts.lookup n with
    | some (list xs) => list (xs.map (tieItem parts))
    | some (map es) => map (es.map fun e => (e.1, tie parts e.2))
    | _ => null
  | v => v

/-- The word that messages use for a value's kind. -/
def kindName (v : Value) : String :=
  match v.unfold with
  | null | link _ | knot _ _ => "NoneType"
  | bool _ => "bool"
  | int _ => "int"
  | float _ | ownNan _ => "float"
  | str _ => "str"
  | octets _ => "bytes"
  | date _ => "date"
  | moment _ => "datetime"
  | list _ => "list"
  | pair _ _ => "tuple"
  | map _ => "dict"
  | set _ => "set"

/-- The entries of a mapping. -/
def entries? (v : Value) : Option (List (Value × Value)) :=
  match v.unfold with
  | map es => some es
  | _ => none

/-- The items of a list or a pair. -/
def items? (v : Value) : Option (List Value) :=
  match v.unfold with
  | list xs => some xs
  | pair a b => some [a, b]
  | _ => none

/-! ## Keys

Numbers are one key when they are equal as numbers, whatever their kinds; a truth value counts as 0 or 1.
What is not a number is the same key as itself alone. -/

/-- A value as a whole number, where it is one exactly. -/
def wholeKey? : Value → Option Int
  | bool b => some (if b then 1 else 0)
  | int n => some n
  | _ => none

/-- Two values are the same key of a mapping. Collections are never keys. -/
def sameKey (a b : Value) : Bool :=
  match a, b with
  | null, null => true
  | str s, str t => s == t
  | octets s, octets t => s == t
  | date s, date t => s == t
  | moment s, moment t => s.same t
  | float .nan, float .nan => true
  | ownNan m, ownNan n => m == n
  | float x, float y => x.sameNumber y
  | float x, other => match other.wholeKey? with
    | some n => x.equalsInt n
    | none => false
  | other, float x => match other.wholeKey? with
    | some n => x.equalsInt n
    | none => false
  | a, b => match a.wholeKey?, b.wholeKey? with
    | some m, some n => m == n
    | _, _ => false

/-- The entry is put under its key: a key already there keeps its place and spelling and takes the new
value, a new key goes to the end. -/
def insertEntry {α : Type} (key : Value) (value : α) : List (Value × α) → List (Value × α)
  | [] => [(key, value)]
  | (k, v) :: rest => if k.sameKey key then (k, value) :: rest else (k, v) :: insertEntry key value rest

/-- The entries in order, later ones replacing the values of earlier ones with the same key. -/
def mapOf {α : Type} (entries : List (Value × α)) : List (Value × α) :=
  entries.foldl (fun es e => insertEntry e.1 e.2 es) []

/-- The entry of a mapping under a word. -/
def field? (name : String) : List (Value × Value) → Option Value
  | [] => none
  | (k, v) :: rest => if k.sameKey (str name) then some v else field? name rest

/-! ## Showing values

A whole number may be too long to be shown, and then so is all that holds it. Values inside values are shown
inside each other, and there is no room for arbitrarily many. -/

/-- A text, or why there is none. -/
abbrev Shown := Except ShowFault String

/-- How many values are shown inside each other. The host allows a thousand nested calls, some of which have
begun where a value is shown. -/
def showLimit : Nat := 985

/-- A collection of a knot: whether it is a mapping, and its text by the room there is and by the texts of
those it links to. -/
structure Part where
  isMap : Bool
  text : Nat → (Nat → Nat → Shown) → Shown

/-- The text of a collection of a knot; one that it is inside of is left out. -/
def shownPart (parts : List (Nat × Part)) : Nat → List Nat → Nat → Nat → Shown
  | 0, _, _, _ => .ok ""
  | fuel + 1, around, n, room =>
    match parts.lookup n with
    | none => .ok ""
    | some part =>
      if around.contains n then .ok (if part.isMap then "\x7b...\x7d" else "[...]")
      else part.text room (shownPart parts fuel (n :: around))

mutual

/-- The text of a value by the room there is and by the texts of the collections it links to. -/
def shownBy : Value → Nat → (Nat → Nat → Shown) → Shown
  | _, 0, _ => .error .tooDeep
  | null, _ + 1, _ => .ok "None"
  | bool b, _ + 1, _ => .ok (if b then "True" else "False")
  | int n, _ + 1, _ => (Number.written n).mapError .number
  | float x, _ + 1, _ => .ok x.text
  | ownNan _, _ + 1, _ => .ok Binary64.nan.text
  | str s, _ + 1, _ => .ok (Text.quoted s)
  | octets os, _ + 1, _ => .ok (Text.quotedOctets os)
  | date d, _ + 1, _ => .ok d.shown
  | moment m, _ + 1, _ => .ok m.shown
  | list xs, room + 1, links => do return "[" ++ (← shownItems xs room links) ++ "]"
  | pair a b, room + 1, links => do
    return "(" ++ (← shownBy a room links) ++ ", " ++ (← shownBy b room links) ++ ")"
  | map es, room + 1, links => do return "\x7b" ++ (← shownEntries es room links) ++ "\x7d"
  | set [], _ + 1, _ => .ok "set()"
  | set (x :: xs), room + 1, links => do return "\x7b" ++ (← shownItems (x :: xs) room links) ++ "\x7d"
  | link n, room + 1, links => links n (room + 1)
  | knot parts n, room + 1, _ => shownPart (shownParts parts) (parts.length + 1) [] n (room + 1)

def shownItems : List Value → Nat → (Nat → Nat → Shown) → Shown
  | [], _, _ => .ok ""
  | [x], room, links => shownBy x room links
  | x :: y :: xs, room, links => do
    return (← shownBy x room links) ++ ", " ++ (← shownItems (y :: xs) room links)

def shownEntries : List (Value × Value) → Nat → (Nat → Nat → Shown) → Shown
  | [], _, _ => .ok ""
  | [(k, v)], room, links => do return (← shownBy k room links) ++ ": " ++ (← shownBy v room links)
  | (k, v) :: e :: es, room, links => do
    return (← shownBy k room links) ++ ": " ++ (← shownBy v room links) ++ ", "
      ++ (← shownEntries (e :: es) room links)

def shownParts : List (Nat × Value) → List (Nat × Part)
  | [] => []
  | (n, v) :: rest => (n, ⟨v matches map _, shownBy v⟩) :: shownParts rest

end

/-- The form in which a value appears inside a message. -/
def shown (v : Value) : Shown := shownBy v showLimit fun _ _ => .ok ""

/-- A value as a word: texts and dates as they read, all else as shown. -/
def word : Value → Shown
  | str s => .ok s
  | date d => .ok d.text
  | moment m => .ok (m.textWith " ")
  | v => v.shown

end Value

end CommentStyle
