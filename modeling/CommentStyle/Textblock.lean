import CommentStyle.Finding
import CommentStyle.Text.Letters

/-!
# Beginnings and textblocks

How a comment begins is decided by its first character that carries meaning: the white space of scripts
(byte order mark included) and the asterisk are decoration, wherever they stand. That character is no letter,
an uppercase letter, or some other letter; the last group takes in scripts without case as well as titlecase
and modifier letters.

A textblock is a run of comments that begin with a letter, opened by one that begins with an uppercase
letter. Inside it lowercase beginnings are fine; a comment that begins with something else closes it.
Outside it a comment that begins with any other letter than an uppercase one is a violation.
-/

namespace CommentStyle

/-! ## Letters -/

def isLetter (c : Char) : Bool := Text.letterPoints.hasChar c

def isUppercase (c : Char) : Bool := Text.uppercasePoints.hasChar c

inductive LetterClass where
  | notLetter
  | lowercase
  | uppercase
deriving DecidableEq, Repr

namespace LetterClass

def ofChar (c : Char) : LetterClass :=
  if !isLetter c then notLetter else if isUppercase c then uppercase else lowercase

/-- Only a text of exactly one character has a letter class of its own. -/
def ofText (text : String) : LetterClass :=
  match text.toList with
  | [c] => ofChar c
  | _ => notLetter

end LetterClass

/-! ## Decoration -/

def isDecoration (c : Char) : Bool :=
  ('\t' ≤ c && c ≤ '\r') || c == ' ' || c == '*' || c == '\u00A0' || c == '\u1680'
    || ('\u2000' ≤ c && c ≤ '\u200A') || c == '\u2028' || c == '\u2029' || c == '\u202F'
    || c == '\u205F' || c == '\u3000' || c == '\uFEFF'

/-- The text without any decoration character. -/
def stripDecoration (text : String) : String :=
  String.ofList (text.toList.filter fun c => !isDecoration c)

/-- How the first meaningful character of a text counts; a text of decoration only has no letter. -/
def firstClass (text : String) : LetterClass :=
  match text.toList.find? fun c => !isDecoration c with
  | some c => .ofChar c
  | none => .notLetter

/-! ## Textblocks -/

/-- Whether the comments read so far left a textblock open. -/
inductive Textblock where
  | unknown
  | opened
  | closed
deriving DecidableEq, Repr

def capitalizationMessage : String :=
  "Comments must start with an uppercase letter, unless it is part of a textblock"

namespace Textblock

/-- What a comment beginning with the given class leaves behind. -/
def next (state : Textblock) (first : LetterClass) : Textblock :=
  match first with
  | .notLetter => closed
  | .uppercase => opened
  | .lowercase => if state = opened then opened else closed

/-- A comment beginning with the given class is at fault. -/
def atFault (state : Textblock) (first : LetterClass) : Bool :=
  first = .lowercase && state ≠ opened

/-- One comment: the state after it and its violation, if it is at fault. -/
def step (state : Textblock) (c : Comment) : Textblock × Option Finding :=
  let first := firstClass c.text
  (state.next first,
    if state.atFault first then some ⟨capitalizationMessage, c.location⟩ else none)

/-- The steps over a sequence of comments, the state carried along. -/
def steps (state : Textblock) : List Comment → List (Textblock × Option Finding)
  | [] => []
  | c :: cs => let s := state.step c; s :: steps s.1 cs

/-- The state after a sequence of comments. -/
def after (state : Textblock) (cs : List Comment) : Textblock :=
  cs.foldl (fun s c => (s.step c).1) state

/-- The violations of a sequence of comments that begins in the given state. -/
def violations (state : Textblock) : List Comment → List Finding
  | [] => []
  | c :: cs => (state.step c).2.toList ++ violations (state.step c).1 cs

end Textblock

/-- The violations of one file's comments, in the order of the comments. -/
def scan (cs : List Comment) : List Finding := Textblock.violations .unknown cs

end CommentStyle
