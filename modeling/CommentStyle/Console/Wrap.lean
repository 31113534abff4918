import CommentStyle.Console.Markup
import CommentStyle.Text.Digits
import CommentStyle.Text.Width

/-!
# Wrapping

Text for the console is broken into lines that fit a width, counted in terminal cells. Lines break before a
word that does not fit any more. A word that fits no line is cut, or stands on a line of its own that ends
where the width does, with a mark for what is missing.
-/

namespace CommentStyle.Console

open CommentStyle.Text (Cluster cells clusters firstCells isBlank splitAt)

/-- The columns of the console. -/
def width : Nat := 1000

/-- Joins pieces by tabs, each tab being at least one blank and filling up to a multiple of eight cells. -/
def joinTabs (column : Nat) : List (List Char) → List Char
  | [] => []
  | [last] => last
  | piece :: rest =>
    let piece := piece ++ [' ']
    let reached := column + cells piece
    let filling := (8 - reached % 8) % 8
    piece ++ List.replicate filling ' ' ++ joinTabs (reached + filling) rest

/-- Replaces tabs by blanks. -/
def expandTabs (text : List Char) : List Char := joinTabs 0 (splitAt (· = '\t') text)

/-- The words of a text with the blanks behind them; blanks at the front belong to the first. -/
def words (text : List Char) : List (List Char) :=
  let rec go (word : List Char) (ending : Bool) : List Char → List (List Char)
    | [] => if ending then [word.reverse] else []
    | c :: rest =>
      if isBlank c then go (c :: word) ending rest
      else if ending && word.head?.any isBlank then word.reverse :: go [c] true rest
      else go (c :: word) true rest
  go [] false text

/-- A text without the blanks at its end. -/
def trimEnd (text : List Char) : List Char := (text.reverse.dropWhile isBlank).reverse

/-- Cuts clusters into pieces of at most so many cells, the piece begun being given last first with its
cells. -/
def chop (width column : Nat) (piece : List Char) : List Cluster → List (List Char)
  | [] => if column = 0 then [] else [piece.reverse]
  | c :: rest =>
    if column + c.width > width then piece.reverse :: chop width c.width c.chars.reverse rest
    else chop width (column + c.width) (c.chars.reverse ++ piece) rest

/-- How lines that are too long are treated. -/
inductive Overflow where
  /-- Words that fit no line are cut. -/
  | cut
  /-- Words that fit no line end in a mark. -/
  | mark
  /-- No line is broken; what is too long ends in a mark. -/
  | unbroken
deriving DecidableEq, Repr

/-- Joins words to lines, the last line and its cells being given. -/
def fill (width : Nat) (cut : Bool) (line : List Char) (column : Nat) :
    List (List Char) → List (List Char)
  | [] => [line]
  | word :: rest =>
    let length := cells (trimEnd word)
    if column + length ≤ width then fill width cut (line ++ word) (column + cells word) rest
    else
      let before := if line = [] then [] else [line]
      if width < length ∧ cut then
        let parts := chop width 0 [] (clusters word)
        let last := parts.getLast?.getD []
        before ++ parts.dropLast ++ fill width cut last (cells last) rest
      else before ++ fill width cut word (cells word) rest

/-- Drops blanks at the end that stand beyond the width. -/
def cropEnd (width : Nat) (line : List Char) : List Char :=
  let blanks := line.length - (trimEnd line).length
  line.take (line.length - min blanks (line.length - width))

/-- A line still too long ends at the width, or in a mark there. -/
def truncate (width : Nat) (overflow : Overflow) (line : List Char) : List Char :=
  if cells line ≤ width then line
  else if overflow = .cut then firstCells width (clusters line)
  else firstCells (width - 1) (clusters line) ++ ['\u2026']

/-- The lines of one line of a text. -/
def wrapLine (width : Nat) (overflow : Overflow) (line : List Char) : List (List Char) :=
  let line := expandTabs line
  let lines :=
    if overflow = .unbroken ∨ words line = [] then [line]
    else fill width (overflow = .cut) [] 0 (words line)
  lines.map fun line => truncate width overflow (cropEnd width line)

def wrap (width : Nat) (overflow : Overflow) (text : List Char) : List (List Char) :=
  (splitAt (· = '\n') text).flatMap (wrapLine width overflow)

/-- What a marked up text prints on the console. -/
def print (markup : String) : Except MarkupFault String :=
  (plain markup).map fun text =>
    String.ofList ((wrap width .cut text).flatMap fun line => line ++ ['\n'])

end CommentStyle.Console
