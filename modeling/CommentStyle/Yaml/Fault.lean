import CommentStyle.Calendar
import CommentStyle.Number.Word

/-!
# What can be wrong with a YAML text

Either the text is not YAML of the accepted kind, about which only its parser says more, or it is and makes no
data: a scalar does not make the value that its tag asks for, or nodes are nested beyond all bounds.
-/

namespace CommentStyle.Yaml

/-- Why a text that may well be YAML makes no data. -/
inductive Unmade where
  /-- An escape names a code point beyond the last one, perhaps beyond any machine integer. -/
  | codePoint (huge : Bool)
  | number (f : NumberFault)
  | emptyNumber
  /-- A power of sixty is beyond the numbers with a fraction. -/
  | hugeSixtieth
  | notTruthWord (text : String)
  | notTimestamp
  /-- A timestamp is written as a mapping. -/
  | mappedTimestamp
  /-- Nodes are inside each other, by being written so or by what they refer to, farther than calls are
  nested. -/
  | tooDeep
  | calendar (f : CalendarFault)
deriving DecidableEq, Repr

def Unmade.message : Unmade → String
  | codePoint huge =>
    if huge then "Python int too large to convert to C int" else "chr() arg not in range(0x110000)"
  | number f => f.message
  | emptyNumber => "string index out of range"
  | hugeSixtieth => "int too large to convert to float"
  | notTruthWord text => Text.quoted text
  | notTimestamp => "'NoneType' object has no attribute 'groupdict'"
  | mappedTimestamp => "expected string or bytes-like object, got 'list'"
  | tooDeep => "maximum recursion depth exceeded"
  | calendar f => f.message

inductive Fault where
  | malformed
  | unmade (f : Unmade)
deriving DecidableEq, Repr

/-- The room that is left one level further in. -/
def deeper : Nat → Except Fault Nat
  | 0 => .error (.unmade .tooDeep)
  | room + 1 => .ok room

/-- How many nodes may be written inside each other. The host allows a thousand nested calls, of which each
node takes two and the parser some of its own. -/
def nestingLimit : Nat := 485

/-- How many references may be followed from one node to the next, at one nested call each. -/
def chainLimit : Nat := 985

end CommentStyle.Yaml
