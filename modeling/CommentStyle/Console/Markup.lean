import CommentStyle.Console.Handler
import CommentStyle.Console.Style

/-!
# Console markup

Text for the console may hold style tags in brackets, such as `[red]` and its end `[/red]`. A console
without colours prints none of them, yet they have to match: an end tag needs an open tag of its name, and
a handler that ends must be well written. A style must not have a colour whose parts are no numbers. A bracket
that begins no tag is text; backslashes before a tag escape each other and, when one is left over, the tag.
-/

namespace CommentStyle.Console

open CommentStyle.Text (trim)

/-- Why a text is not marked up properly. -/
inductive MarkupFault where
  /-- An end tag, as written, without a tag of its name to end. -/
  | unmatched (tag : String) (position : Nat)
  | nothingOpen (position : Nat)
  | handler (f : HandlerFault)
  /-- A part of a colour is no number. -/
  | number (f : NumberFault)
deriving DecidableEq, Repr

def MarkupFault.message : MarkupFault → String
  | unmatched tag position =>
    "closing tag '" ++ tag ++ "' at position " ++ toString position ++ " doesn't match any open tag"
  | nothingOpen position =>
    "closing tag '[/]' at position " ++ toString position ++ " has nothing to close"
  | handler f => f.message
  | number f => f.message

namespace Markup

/-- A part of a marked up text: a printed character, or what stands between the brackets of a tag. -/
inductive Piece where
  | char (c : Char)
  | tag (body : List Char) (position : Nat)
deriving DecidableEq, Repr

def beginsTag (c : Char) : Bool := ('a' ≤ c && c ≤ 'z') || c == '#' || c == '/' || c == '@'

/-- What stands between the brackets of a tag, the opening bracket having been read. -/
def body? : List Char → Option (List Char)
  | [] => none
  | c :: rest =>
    let more := rest.takeWhile fun c => c ≠ '[' && c ≠ ']'
    if beginsTag c && (rest.drop more.length).head? = some ']' then some (c :: more) else none

def backslashes (n : Nat) : List Piece := List.replicate n (.char '\\')

/-- The pieces of a text, `held` backslashes having been read and `skip` characters being part of the last
tag. -/
def pieces (position held skip : Nat) : List Char → List Piece
  | [] => backslashes held
  | c :: rest =>
    if 0 < skip then pieces (position + 1) 0 (skip - 1) rest
    else if c = '\\' then pieces (position + 1) (held + 1) 0 rest
    else if c = '[' then
      match body? rest with
      | none => backslashes (held - 1) ++ .char c :: pieces (position + 1) 0 0 rest
      | some body =>
        let printed := if held % 2 = 1 then (c :: body ++ [']']).map Piece.char else [.tag body position]
        backslashes (held / 2) ++ printed ++ pieces (position + 1) 0 (body.length + 1) rest
    else backslashes held ++ .char c :: pieces (position + 1) 0 0 rest

/-- A tag that has been opened: the name of its style, and what stands behind its equals sign. -/
structure Opened where
  name : List Char
  parameters : List Char

/-- A tag that ends checks what it handles. -/
def Opened.close (o : Opened) : Except MarkupFault Unit :=
  if o.name.head? = some '@' ∧ o.parameters ≠ [] then (Handler.check o.parameters).mapError .handler
  else .ok ()

/-- The name of a tag ends before an equals sign. -/
def tagName (body : List Char) : List Char := body.takeWhile (· ≠ '=')

/-- Prints the pieces, the open tags being given, the last opened first. -/
def print (opened : List Opened) : List Piece → Except MarkupFault (List Char)
  | [] => .ok []
  | .char c :: rest => (print opened rest).map (c :: ·)
  | .tag body position :: rest =>
    match tagName body with
    | '/' :: name => do
      let name := trim name
      if name = [] then
        match opened with
        | [] => throw (.nothingOpen position)
        | o :: opened => do
          o.close
          print opened rest
      else
        let name ← (styleName name).mapError .number
        match opened.find? (·.name = name) with
        | some o => do
          o.close
          print (opened.eraseP (·.name = name)) rest
        | none => throw (.unmatched (String.ofList ('[' :: body ++ [']'])) position)
    | name => do
      let name ← (styleName name).mapError .number
      print ({ name, parameters := body.drop ((tagName body).length + 1) } :: opened) rest

/-- The style that a tag asks for: its name, with what stands behind its equals sign. -/
def styleOf (body : List Char) : Except NumberFault (List Char) := do
  let name ← styleName (tagName body)
  let rest := body.drop (tagName body).length
  if rest = [] then return name else styleName (name ++ ' ' :: rest.drop 1)

/-- Looks up the styles of the tags that were opened, in order. -/
def checkStyles : List Piece → Except MarkupFault Unit
  | [] => .ok ()
  | .char _ :: rest => checkStyles rest
  | .tag body _ :: rest => do
    if body.head? ≠ some '/' then
      let _ ← (styleOf body).mapError .number
    checkStyles rest

/-- Characters that would move the cursor are not printed. -/
def movesCursor (c : Char) : Bool :=
  c == '\x07' || c == '\x08' || c == '\x0b' || c == '\x0c' || c == '\r'

end Markup

/-- The text that a marked up text prints. -/
def plain (markup : String) : Except MarkupFault (List Char) := do
  let pieces := Markup.pieces 0 0 0 markup.toList
  let text ← Markup.print [] pieces
  Markup.checkStyles pieces
  return text.filter fun c => !Markup.movesCursor c

end CommentStyle.Console
