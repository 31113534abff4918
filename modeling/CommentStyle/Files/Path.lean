/-!
# Paths

A path is a root and the components below it; a relative path has no root. Components that are empty or a
single dot are dropped when a path is read, while those of two dots are kept until the path is resolved.
-/

namespace CommentStyle

structure Path where
  /-- The slashes in front: none, one, or exactly two, which are kept apart. -/
  root : String := ""
  parts : List String := []
deriving DecidableEq, Repr

namespace Path

/-- The pieces of a text between its slashes. -/
def pieces : List Char → List (List Char)
  | [] => [[]]
  | c :: cs =>
    if c = '/' then [] :: pieces cs
    else
      match pieces cs with
      | [] => [[c]]
      | p :: ps => (c :: p) :: ps

def rootOf (text : List Char) : String :=
  match (text.takeWhile (· = '/')).length with
  | 0 => ""
  | 2 => "//"
  | _ => "/"

def ofString (text : String) : Path where
  root := rootOf text.toList
  parts := (pieces text.toList).filterMap fun p =>
    if p = [] ∨ p = ['.'] then none else some (String.ofList p)

def text (p : Path) : String :=
  if p.root = "" ∧ p.parts = [] then "." else p.root ++ "/".intercalate p.parts

/-- The last component from its last dot on; none where that dot comes first or last. -/
def suffixOf (name : List Char) : List Char :=
  let tail := (name.reverse.takeWhile (· ≠ '.')).reverse
  if tail.length = name.length ∨ tail.length + 1 = name.length ∨ tail = [] then [] else '.' :: tail

def suffix (p : Path) : String :=
  String.ofList (suffixOf ((p.parts.getLast?.getD "").toList))

/-- The suffix without regard to case. -/
def format (p : Path) : String := p.suffix.map Char.toLower

/-- A place is the list of components that lead to it from the root. -/
abbrev Place := List String

/-- One component further; two dots lead back up, from the root to itself. -/
def enter (place : Place) (part : String) : Place :=
  if part = ".." then place.dropLast else place ++ [part]

/-- Where a path begins when it is followed in a directory. -/
def origin (p : Path) (directory : Place) : Place := if p.root = "" then directory else []

/-- The place a path names by its components alone. -/
def resolve (p : Path) (directory : Place) : Place := p.parts.foldl enter (p.origin directory)

/-- The places passed on the way, the last being where the path leads. -/
def passed (place : Place) : List String → List Place
  | [] => [place]
  | part :: rest => place :: passed (enter place part) rest

/-- An absolute path to a place. -/
def ofPlace (place : Place) : Path := { root := "/", parts := place }

end Path

end CommentStyle
