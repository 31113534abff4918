import CommentStyle.Yaml.Content
import CommentStyle.Yaml.Document

/-!
# Reading YAML

A text is read as one document of YAML 1.1; an empty one is null. The document is taken in whole before any
value is made, so a text that is not YAML is reported as such whatever its scalars hold. Its values are then
put together from the inside out; what cannot be, because it is part of itself, makes a knot.
-/

namespace CommentStyle.Yaml

/-- The values put together so far, by node. -/
abbrev Values := Array (Option Value)

namespace Content

/-- The value of a content, if those of its items are there. -/
def value? (values : Values) : Content → Option Value
  | leaf v => some v
  | list ns => (ns.mapM fun n => values.getD n none).map .list
  | pairs ps =>
    let pair? (p : Nat × Nat) : Option Value := do
      return .pair (← values.getD p.1 none) (← values.getD p.2 none)
    (ps.mapM pair?).map .list
  | map es =>
    let entry? (e : Value × Nat) : Option (Value × Value) := (values.getD e.2 none).map fun v => (e.1, v)
    (es.mapM entry?).map .map
  | set ks => some (.set ks)

/-- The value of a content with links to the items that are not there. -/
def linked (values : Values) (c : Content) : Value :=
  let item (n : Nat) : Value := (values.getD n none).getD (.link n)
  match c with
  | leaf v => v
  | list ns => .list (ns.map item)
  | pairs ps => .list (ps.map fun (k, v) => .pair (item k) (item v))
  | map es => .map (es.map fun (k, n) => (k, item n))
  | set ks => .set ks

end Content

/-- Puts together what can be, going through the nodes once. -/
def assembleOnce (contents : Array (Option Content)) (order : List Nat) (values : Values) : Values :=
  order.foldl (fun values n =>
    match values.getD n none, contents.getD n none with
    | none, some c =>
      match c.value? values with
      | some v => values.setIfInBounds n (some v)
      | none => values
    | _, _ => values) values

/-- The nodes that have a content and no value. -/
def unassembled (contents : Array (Option Content)) (order : List Nat) (values : Values) : List Nat :=
  order.filter fun n => (values.getD n none).isNone && (contents.getD n none).isSome

/-- Puts together all that can be: a node may be complete before one that a merge has brought into it. -/
def assemble (contents : Array (Option Content)) : Nat → List Nat → Values → Values
  | 0, _, values => values
  | fuel + 1, order, values =>
    let values := assembleOnce contents order values
    let left := unassembled contents order values
    if left.length < order.length then assemble contents fuel left values else values

/-- The value of a document. -/
def Document.value (d : Document) : Except Fault Value := do
  let contents ← d.contents
  let values := assemble contents (d.graph.size + 1) d.order (Array.replicate d.graph.size none)
  match values.getD d.root none with
  | some v => return v
  | none =>
    let left := unassembled contents d.order values
    return .knot (left.filterMap fun n => (contents.getD n none).map fun c => (n, c.linked values)) d.root

def readChars (cs : List Char) : Except Fault Value := do
  match ← Document.ofChars cs with
  | none => return .null
  | some d => d.value

def read (text : String) : Except Fault Value := readChars text.toList

end CommentStyle.Yaml
