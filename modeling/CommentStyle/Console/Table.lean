import CommentStyle.Console.Wrap

/-!
# Tables

A table has a title, named columns and rows of marked up cells. A column is as wide as its widest cell and
its name ask for. Where all columns together are wider than the console, the widest give way first. The
title is centred above.
-/

namespace CommentStyle.Console

open CommentStyle.Text (cells splitAt)

structure Column where
  name : String
  minWidth : Nat := 0
  /-- Cells too long for the column are broken into lines. -/
  breaks : Bool := true

structure Table where
  title : String
  columns : List Column
  rows : List (List String)
  /-- Rows are divided by lines. -/
  divided : Bool := false

namespace Table

/-! ## Widths

The width of a column includes a blank on either side of its cells. -/

def padding : Nat := 2

def endsLine (c : Char) : Bool :=
  c == '\n' || ('\x1c' ≤ c && c ≤ '\x1e') || c == '\u0085' || c == '\u2028' || c == '\u2029'

/-- The cells that a text needs. -/
def need (text : List Char) : Nat := ((splitAt endsLine text).map cells).foldl max 0

/-- The cells that columns take next to each other. -/
def sideBySide (widths : List Nat) : Nat := widths.foldl (· + ·) 0

/-- Half of an odd number goes to the even neighbour. -/
def roundHalfEven (n d : Nat) : Nat :=
  let q := n / d
  let r := 2 * (n % d)
  if r < d ∨ (r = d ∧ q % 2 = 0) then q else q + 1

/-- Takes `total` off the chosen values in equal shares, from no value more than its limit. -/
def reduce (total chosen : Nat) : List (Nat × Option Nat) → List Nat
  | [] => []
  | (value, none) :: rest => value :: reduce total chosen rest
  | (value, some limit) :: rest =>
    let share := min limit (roundHalfEven total chosen)
    (value - share) :: reduce (total - share) (chosen - 1) rest

/-- Takes `total` off those values whose limit is positive. -/
def reduceAll (total : Nat) (values : List (Nat × Nat)) : List Nat :=
  reduce total (values.countP fun v => 0 < v.2)
    (values.map fun v => (v.1, if 0 < v.2 then some v.2 else none))

/-- The widest columns that break are narrowed to the next widest, until the sum is within the limit or
nothing is left to narrow. -/
def collapse (limit : Nat) : Nat → List (Nat × Bool) → List (Nat × Bool)
  | 0, columns => columns
  | fuel + 1, columns =>
    let excess := sideBySide (columns.map Prod.fst) - limit
    let breaking := (columns.filter Prod.snd).map Prod.fst
    let widest := breaking.foldl max 0
    let second := (breaking.filter (· ≠ widest)).foldl max 0
    if excess = 0 ∨ widest = second then columns
    else
      let limits := columns.map fun c =>
        (c.1, if c.2 ∧ c.1 = widest then min excess (widest - second) else 0)
      collapse limit fuel ((reduceAll excess limits).zip (columns.map Prod.snd))

/-- The widths of columns that together stay within a limit, if need be by narrowing all of them. -/
def narrowed (limit : Nat) (columns : List (Nat × Bool)) : List Nat :=
  let collapsed := (collapse limit (sideBySide (columns.map Prod.fst) + 1) columns).map Prod.fst
  if sideBySide collapsed ≤ limit then collapsed
  else reduceAll (sideBySide collapsed - limit) (collapsed.map fun w => (w, w))

/-! ## Layout -/

/-- A column ready to be laid out: its name and its cells as printed texts, and its width. -/
structure Laid where
  column : Column
  name : List Char
  texts : List (List Char)
  width : Nat := 0

/-- The width a column takes where at most so much is left for it. -/
def Laid.widthWithin (limit : Nat) (l : Laid) : Nat :=
  if limit = 0 then 0
  else
    let asked := if limit ≤ padding then limit else (need l.name :: l.texts.map need).foldl max 0 + padding
    let least := if l.column.minWidth = 0 then 0 else l.column.minWidth + padding
    max (min limit asked) least

/-- The name of a column is printed first, then its cells downwards. -/
def lay (c : Column) (texts : List String) : Except MarkupFault Laid := do
  let name ← plain c.name
  let texts ← texts.mapM plain
  return { column := c, name, texts }

/-- The columns from the given one on. -/
def layAll (rows : List (List String)) (index : Nat) : List Column → Except MarkupFault (List Laid)
  | [] => .ok []
  | c :: cs => do
    let l ← lay c (rows.map fun row => row.getD index "")
    let ls ← layAll rows (index + 1) cs
    return l :: ls

/-- Gives each column its width; lines stand around the columns and between them. -/
def fit (ls : List Laid) : List Laid :=
  let limit := width - (ls.length + 1)
  let widths := ls.map fun l => max (l.widthWithin limit) 1
  let widths :=
    if sideBySide widths ≤ limit then widths
    else
      (ls.zip (narrowed limit (widths.zip (ls.map fun l => l.column.breaks)))).map
        fun (l, w) => l.widthWithin w
  (ls.zip widths).map fun (l, w) => { l with width := w }

/-- The width of a table. -/
def widthOf (ls : List Laid) : Nat := sideBySide (ls.map fun l => l.width + 1) + 1

def padEnd (width : Nat) (line : List Char) : List Char :=
  line ++ List.replicate (width - cells line) ' '

/-- A line between rows: a corner, dashes below each column with joints between, a corner. -/
def rule (left dash joint right : Char) (ls : List Laid) : List Char :=
  let dashes := ls.map fun l => List.replicate l.width dash
  left :: (dashes.intersperse [joint]).flatten ++ [right, '\n']

/-- The lines of a cell, as wide as its column; in a column that has no room there are none. -/
def cellLines (l : Laid) (text : List Char) : List (List Char) :=
  if l.width ≤ padding then []
  else
    let room := l.width - padding
    (wrap room (if l.column.breaks then .mark else .unbroken) text).map fun line =>
      ' ' :: padEnd room (padEnd room line) ++ [' ']

/-- One row: the cells side by side, with bars between. -/
def row (bar : Char) (ls : List Laid) (texts : List (List Char)) : List Char :=
  let wrapped := (ls.zip texts).map fun (l, text) => (l.width, cellLines l text)
  let height := (wrapped.map fun w => w.2.length).foldl max 1
  (List.range height).flatMap fun i =>
    (wrapped.flatMap fun (width, lines) => bar :: lines.getD i (List.replicate width ' '))
      ++ [bar, '\n']

/-- A line of the title in the middle of the width. -/
def centre (width : Nat) (line : List Char) : List Char :=
  let line := trimEnd line
  padEnd width (List.replicate ((width - cells line) / 2) ' ' ++ line) ++ ['\n']

def bodyRows (t : Table) (ls : List Laid) : List (List Char) :=
  (List.range t.rows.length).map fun i => row '│' ls (ls.map fun l => l.texts.getD i [])

def body (t : Table) (ls : List Laid) : List Char :=
  let divider := if t.divided then rule '├' '─' '┼' '┤' ls else []
  ((t.bodyRows ls).intersperse divider).flatten

/-- What a table prints on the console. -/
def print (t : Table) : Except MarkupFault String := do
  let ls ← fit <$> layAll t.rows 0 t.columns
  let title ← plain t.title
  let lines := (wrap (widthOf ls) .cut title).flatMap (centre (widthOf ls))
  return String.ofList (lines
    ++ rule '┏' '━' '┳' '┓' ls ++ row '┃' ls (ls.map Laid.name) ++ rule '┡' '━' '╇' '┩' ls
    ++ t.body ls ++ rule '└' '─' '┴' '┘' ls)

end Table

end CommentStyle.Console
