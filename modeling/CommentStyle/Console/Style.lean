import CommentStyle.Number.Word
import CommentStyle.Text.Lowercase

/-!
# Styles

A style is a row of words: attributes, of which `not` takes one away, a colour, a background colour behind
`on`, and a target behind `link`. Two rows name the same style when they set the same things, in whatever
order and spelling, so each style has one full name.
-/

namespace CommentStyle.Console

open CommentStyle.Text (isBlank lower splitAt trim)

inductive Attribute where
  | bold | dim | italic | underline | blink | blink2 | reverse | conceal | strike | underline2
  | frame | encircle | overline
deriving DecidableEq, Repr

namespace Attribute

/-- All attributes, in the order of a full name. -/
def all : List Attribute :=
  [bold, dim, italic, underline, blink, blink2, reverse, conceal, strike, underline2, frame, encircle,
    overline]

def name : Attribute → String
  | bold => "bold"
  | dim => "dim"
  | italic => "italic"
  | underline => "underline"
  | blink => "blink"
  | blink2 => "blink2"
  | reverse => "reverse"
  | conceal => "conceal"
  | strike => "strike"
  | underline2 => "underline2"
  | frame => "frame"
  | encircle => "encircle"
  | overline => "overline"

def shortName : Attribute → Option String
  | bold => some "b"
  | dim => some "d"
  | italic => some "i"
  | underline => some "u"
  | reverse => some "r"
  | conceal => some "c"
  | strike => some "s"
  | underline2 => some "uu"
  | overline => some "o"
  | _ => none

def ofWord? (word : String) : Option Attribute :=
  all.find? fun a => a.name = word || a.shortName = some word

end Attribute

/-! ## Colours -/

def colourNames : List String :=
  ["default", "black", "red", "green", "yellow", "blue", "magenta", "cyan", "white", "bright_black",
    "bright_red", "bright_green", "bright_yellow", "bright_blue", "bright_magenta", "bright_cyan",
    "bright_white", "grey0", "gray0", "navy_blue", "dark_blue", "blue3", "blue1", "dark_green",
    "deep_sky_blue4", "dodger_blue3", "dodger_blue2", "green4", "spring_green4", "turquoise4",
    "deep_sky_blue3", "dodger_blue1", "green3", "spring_green3", "dark_cyan", "light_sea_green",
    "deep_sky_blue2", "deep_sky_blue1", "spring_green2", "cyan3", "dark_turquoise", "turquoise2",
    "green1", "spring_green1", "medium_spring_green", "cyan2", "cyan1", "dark_red", "deep_pink4",
    "purple4", "purple3", "blue_violet", "orange4", "grey37", "gray37", "medium_purple4",
    "slate_blue3", "royal_blue1", "chartreuse4", "dark_sea_green4", "pale_turquoise4", "steel_blue",
    "steel_blue3", "cornflower_blue", "chartreuse3", "cadet_blue", "sky_blue3", "steel_blue1",
    "pale_green3", "sea_green3", "aquamarine3", "medium_turquoise", "chartreuse2", "sea_green2",
    "sea_green1", "aquamarine1", "dark_slate_gray2", "dark_magenta", "dark_violet", "purple",
    "light_pink4", "plum4", "medium_purple3", "slate_blue1", "yellow4", "wheat4", "grey53", "gray53",
    "light_slate_grey", "light_slate_gray", "medium_purple", "light_slate_blue", "dark_olive_green3",
    "dark_sea_green", "light_sky_blue3", "sky_blue2", "dark_sea_green3", "dark_slate_gray3",
    "sky_blue1", "chartreuse1", "light_green", "pale_green1", "dark_slate_gray1", "red3",
    "medium_violet_red", "magenta3", "dark_orange3", "indian_red", "hot_pink3", "medium_orchid3",
    "medium_orchid", "medium_purple2", "dark_goldenrod", "light_salmon3", "rosy_brown", "grey63",
    "gray63", "medium_purple1", "gold3", "dark_khaki", "navajo_white3", "grey69", "gray69",
    "light_steel_blue3", "light_steel_blue", "yellow3", "dark_sea_green2", "light_cyan3",
    "light_sky_blue1", "green_yellow", "dark_olive_green2", "dark_sea_green1", "pale_turquoise1",
    "deep_pink3", "magenta2", "hot_pink2", "orchid", "medium_orchid1", "orange3", "light_pink3",
    "pink3", "plum3", "violet", "light_goldenrod3", "tan", "misty_rose3", "thistle3", "plum2",
    "khaki3", "light_goldenrod2", "light_yellow3", "grey84", "gray84", "light_steel_blue1", "yellow2",
    "dark_olive_green1", "honeydew2", "light_cyan1", "red1", "deep_pink2", "deep_pink1", "magenta1",
    "orange_red1", "indian_red1", "hot_pink", "dark_orange", "salmon1", "light_coral",
    "pale_violet_red1", "orchid2", "orchid1", "orange1", "sandy_brown", "light_salmon1", "light_pink1",
    "pink1", "plum1", "gold1", "navajo_white1", "misty_rose1", "thistle1", "yellow1",
    "light_goldenrod1", "khaki1", "wheat1", "cornsilk1", "grey100", "gray100", "grey3", "gray3",
    "grey7", "gray7", "grey11", "gray11", "grey15", "gray15", "grey19", "gray19", "grey23", "gray23",
    "grey27", "gray27", "grey30", "gray30", "grey35", "gray35", "grey39", "gray39", "grey42", "gray42",
    "grey46", "gray46", "grey50", "gray50", "grey54", "gray54", "grey58", "gray58", "grey62", "gray62",
    "grey66", "gray66", "grey70", "gray70", "grey74", "gray74", "grey78", "gray78", "grey82", "gray82",
    "grey85", "gray85", "grey89", "gray89", "grey93", "gray93"]

/-- The text between a beginning and an end. -/
def between? (start : String) (stop : Char) (text : List Char) : Option (List Char) :=
  if start.toList.isPrefixOf text ∧ text.getLast? = some stop then
    some ((text.drop start.length).dropLast)
  else none

/-- Whether a word in small letters names a colour: by name, by six hexadecimal digits, by number, or by
its three parts, which have to be numbers. -/
def isColour (word : List Char) : Except NumberFault Bool :=
  let isDigit (c : Char) : Bool := '0' ≤ c && c ≤ '9'
  if colourNames.contains (String.ofList word) then .ok true
  else
    match word with
    | '#' :: digits =>
      .ok (digits.length = 6 ∧ digits.all fun c => isDigit c || ('a' ≤ c && c ≤ 'f'))
    | _ =>
      match between? "color(" ')' word, between? "rgb(" ')' word with
      | some digits, _ =>
        .ok (digits ≠ [] ∧ digits.length ≤ 3 ∧ digits.all isDigit
          ∧ Number.ofDigits 10 (digits.filterMap Text.digitValue?) ≤ 255)
      | none, some parts =>
        let parts := splitAt (· = ',') parts
        if parts = [[]] ∨ !(parts.all fun p => p.all fun c => (Text.digitValue? c).isSome) then .ok false
        else if parts.length ≠ 3 then .ok false
        else do
          let numbers ← parts.mapM (Number.whole? 10)
          return numbers.all (· ≤ 255)
      | none, none => .ok false

/-! ## Full names -/

structure Style where
  attributes : List (Attribute × Bool) := []
  colour : Option (List Char) := none
  background : Option (List Char) := none
  link : Option (List Char) := none

namespace Style

def set (s : Style) (a : Attribute) (on : Bool) : Style :=
  { s with attributes := (a, on) :: s.attributes }

/-- Reads words behind those already read; a word that means nothing makes the whole no style. -/
def addWords (s : Style) : List (List Char) → Except NumberFault (Option Style)
  | [] => .ok (some s)
  | first :: rest =>
    let word := lower first
    if word = "on".toList then
      match rest with
      | [] => .ok none
      | colour :: rest => do
        if ← isColour (lower colour) then addWords { s with background := some (lower colour) } rest
        else return none
    else if word = "not".toList then
      match rest with
      | [] => .ok none
      | name :: rest =>
        match Attribute.ofWord? (String.ofList name) with
        | some a => addWords (s.set a false) rest
        | none => .ok none
    else if word = "link".toList then
      match rest with
      | [] => .ok none
      | target :: rest => addWords { s with link := some target } rest
    else
      match Attribute.ofWord? (String.ofList word) with
      | some a => addWords (s.set a true) rest
      | none => do
        if ← isColour word then addWords { s with colour := some word } rest else return none

/-- What the style sets, attributes first, in a fixed order. -/
def parts (s : Style) : List (List Char) :=
  let flags := Attribute.all.filterMap fun a =>
    (s.attributes.lookup a).map fun on => if on then a.name.toList else ("not " ++ a.name).toList
  flags ++ s.colour.toList ++ (s.background.map fun c => "on ".toList ++ c).toList
    ++ (s.link.map fun l => "link ".toList ++ l).toList

def name (s : Style) : List Char :=
  if s.parts = [] then "none".toList else (s.parts.intersperse [' ']).flatten

end Style

/-- The name by which a style is known: its full name, or, of what is no style, the text without blanks
around it in small letters. -/
def styleName (text : List Char) : Except NumberFault (List Char) :=
  let text := trim text
  if text = [] ∨ text = "none".toList then .ok "none".toList
  else do
    match ← Style.addWords {} ((splitAt isBlank text).filter (· ≠ [])) with
    | some s => return s.name
    | none => return lower text

end CommentStyle.Console
