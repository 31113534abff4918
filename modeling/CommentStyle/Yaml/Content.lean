import CommentStyle.Yaml.Merge
import CommentStyle.Yaml.ScalarValue

/-!
# The contents of nodes

Each tag makes its kind of value. Collections are made empty at first and filled level by level from the
root, so that of several faults the one reported is the least deep, and of those the first. A node makes one
value, whatever refers to it.
-/

namespace CommentStyle.Yaml

/-- What a node makes; of a collection, the nodes of its items. -/
inductive Content where
  | leaf (v : Value)
  | list (items : List Nat)
  | pairs (items : List (Nat × Nat))
  | map (entries : List (Value × Nat))
  | set (keys : List Value)

/-- What was made so far. -/
structure Making where
  graph : Graph
  contents : Array (Option Content)
  /-- The collections to be filled, last first. -/
  waiting : List Nat := []

/-- A step of the making. -/
abbrev Make := StateT Making (Except Fault)

namespace Make

def put (n : Nat) (c : Content) : Make Unit :=
  modify fun m => { m with contents := m.contents.setIfInBounds n (some c) }

/-- The text a scalar tag works on: that of a scalar, or, of a mapping, that under its `=` key, for as many
mappings in a row as there is room for. -/
def textOf (g : Graph) : Nat → Nat → Except Fault (List Char)
  | 0, _ => .error (.unmade .tooDeep)
  | room + 1, n =>
    match (g.node n).body with
    | .scalar text => .ok text
    | .map es =>
      match es.find? fun e => g.tag e.1 = .value with
      | some (_, value) => textOf g room value
      | none => .error .malformed
    | .seq _ => .error .malformed

/-- The value of a node with a scalar tag. A timestamp has to be a scalar itself. -/
def scalar (g : Graph) (n : Nat) : Except Fault Value := do
  if !(g.tag n).isScalar then throw .malformed
  let text ← textOf g chainLimit n
  if g.tag n = .timestamp && (g.node n).isMap then throw (.unmade .mappedTimestamp)
  Scalar.content n (g.tag n) text

/-- An empty collection, to be filled later. -/
def collection (n : Nat) (c : Content) : Make Unit := do
  put n c
  modify fun m => { m with waiting := n :: m.waiting }

/-- Makes what a node stands for, unless it is made already. -/
def node (n : Nat) : Make Unit := do
  let m ← get
  match m.contents.getD n none with
  | some _ => return ()
  | none =>
    match m.graph.tag n with
    | .seq => collection n (.list [])
    | .omap | .pairs => collection n (.pairs [])
    | .map => collection n (.map [])
    | .set => collection n (.set [])
    | _ => put n (.leaf (← scalar m.graph n))

/-- A node as a key: a collection is none. -/
def key (n : Nat) : Make Value := do
  node n
  match (← get).contents.getD n none with
  | some (.leaf v) => return v
  | _ => throw .malformed

/-- The entries of a mapping, merged; a repeated key takes the last value. -/
def entries (n : Nat) : Make (List (Value × Nat)) := do
  if !((← get).graph.node n).isMap then throw .malformed
  let g ← (← get).graph.flatten n
  modify fun m => { m with graph := g }
  let es ← (g.entries n).mapM fun (k, v) => do
    let k ← key k
    node v
    return (k, v)
  return Value.mapOf es

/-- The one entry of a mapping that stands for a pair. -/
def pair (n : Nat) : Make (Nat × Nat) := do
  match ((← get).graph.node n).body with
  | .map [(k, v)] =>
    node k
    node v
    return (k, v)
  | _ => throw .malformed

def items (n : Nat) : Make (List Nat) := do
  match ((← get).graph.node n).body with
  | .seq ns => return ns
  | _ => throw .malformed

/-- Fills a collection. -/
def fill (n : Nat) : Make Unit := do
  match (← get).contents.getD n none with
  | some (.list _) =>
    let ns ← items n
    ns.forM node
    put n (.list ns)
  | some (.pairs _) => put n (.pairs (← (← items n).mapM pair))
  | some (.map _) => put n (.map (← entries n))
  | some (.set _) => put n (.set ((← entries n).map Prod.fst))
  | _ => return ()

/-- Fills the collections that wait, then those made by that, and so on. -/
def levels : Nat → Make Unit
  | 0 => return ()
  | fuel + 1 => do
    match (← get).waiting with
    | [] => return ()
    | ns =>
      modify fun m => { m with waiting := [] }
      ns.reverse.forM fill
      levels fuel

end Make

/-- What the nodes of a document make. -/
def Document.contents (d : Document) : Except Fault (Array (Option Content)) := do
  let start : Making := { graph := d.graph, contents := Array.replicate d.graph.size none }
  let ((), m) ← (do Make.node d.root; Make.levels (d.graph.size + 1) : Make Unit).run start
  return m.contents

end CommentStyle.Yaml
