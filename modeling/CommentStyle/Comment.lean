import CommentStyle.Number.Word

/-!
# Comments and where they stand

A comment is the text between its delimiters, the place where it starts, and whether it is a line or a
block comment. Dumps are allowed to hold a truth value in place of a line or column: it counts as 0 or 1
when places are compared, and is written back as the truth value it was.
-/

namespace CommentStyle

/-- A line or column number. -/
inductive Ordinal where
  | number (n : Int)
  | flag (b : Bool)
deriving DecidableEq, Repr

namespace Ordinal

def toInt : Ordinal → Int
  | number n => n
  | flag b => if b then 1 else 0

def text : Ordinal → String
  | number n => toString n
  | flag b => if b then "True" else "False"

/-- Has few enough digits to be written. -/
def isWritable : Ordinal → Bool
  | number n => Number.isWritable n
  | flag _ => true

end Ordinal

/-- Start of a comment: line from 1, column from 0. -/
structure Position where
  line : Ordinal
  column : Ordinal
deriving DecidableEq, Repr

namespace Position

/-- Stands in where a dump gives no place. -/
def unknown : Position := ⟨.number 0, .number 0⟩

def text (p : Position) : String := p.line.text ++ ":" ++ p.column.text

def isWritable (p : Position) : Bool := p.line.isWritable && p.column.isWritable

/-- The form in which a position appears inside a shown comment. -/
def shown (p : Position) : String := "Position(" ++ p.text ++ ")"

/-- Line first, then column. -/
def precedes (p q : Position) : Bool :=
  p.line.toInt < q.line.toInt || (p.line.toInt == q.line.toInt && p.column.toInt ≤ q.column.toInt)

theorem precedes_iff (p q : Position) :
    p.precedes q ↔ p.line.toInt < q.line.toInt ∨
      (p.line.toInt = q.line.toInt ∧ p.column.toInt ≤ q.column.toInt) := by
  simp [precedes]

theorem precedes_trans (p q r : Position) (hpq : p.precedes q) (hqr : q.precedes r) :
    p.precedes r := by
  rw [precedes_iff] at *
  omega

theorem precedes_total (p q : Position) : (p.precedes q || q.precedes p) = true := by
  rw [Bool.or_eq_true, precedes_iff, precedes_iff]
  omega

end Position

/-- The two forms of a comment. -/
inductive Comment.Kind where
  | line
  | block
deriving DecidableEq, Repr

namespace Comment.Kind

/-- The word that names the kind in a dump. -/
def word : Kind → String
  | line => "Line"
  | block => "Block"

def label : Kind → String
  | line => "LINE"
  | block => "BLOCK"

def ofWord? (w : String) : Option Kind :=
  if w = "Line" then some line else if w = "Block" then some block else none

@[simp] theorem ofWord?_word (k : Kind) : ofWord? k.word = some k := by cases k <;> rfl

end Comment.Kind

/-- One comment of a source file. -/
structure Comment where
  text : String
  location : Position := Position.unknown
  kind : Comment.Kind := .line
deriving DecidableEq, Repr

/-- The form in which a comment appears inside a message. -/
def Comment.shown (c : Comment) : String :=
  "Comment(text=" ++ Text.quoted c.text ++ ", location=" ++ c.location.shown
    ++ ", kind=<CommentKind." ++ c.kind.label ++ ": " ++ Text.quoted c.kind.word ++ ">)"

end CommentStyle
