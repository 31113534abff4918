import CommentStyle.Yaml.Tag

/-!
# The nodes of a document

A document is a graph: scalars, sequences and mappings, each with its tag, that refer to their items by
number. An alias is one more reference to the node with its anchor, so a collection may be part of itself.
-/

namespace CommentStyle.Yaml

inductive Body where
  | scalar (text : List Char)
  | seq (items : List Nat)
  | map (entries : List (Nat × Nat))
deriving DecidableEq, Repr

structure Node where
  tag : Tag
  body : Body
deriving DecidableEq, Repr

namespace Node

/-- What stands where nothing is written. -/
def empty : Node := ⟨.null, .scalar []⟩

def isMap (n : Node) : Bool :=
  match n.body with
  | .map _ => true
  | _ => false

end Node

structure Graph where
  nodes : Array Node := #[]

namespace Graph

def node (g : Graph) (n : Nat) : Node := g.nodes.getD n .empty

def tag (g : Graph) (n : Nat) : Tag := (g.node n).tag

/-- The entries of a mapping; any other node has none. -/
def entries (g : Graph) (n : Nat) : List (Nat × Nat) :=
  match (g.node n).body with
  | .map es => es
  | _ => []

def size (g : Graph) : Nat := g.nodes.size

def add (g : Graph) (n : Node) : Graph := { nodes := g.nodes.push n }

def setBody (g : Graph) (n : Nat) (body : Body) : Graph :=
  { nodes := g.nodes.modify n fun node => { node with body } }

def setTag (g : Graph) (n : Nat) (tag : Tag) : Graph :=
  { nodes := g.nodes.modify n fun node => { node with tag } }

/-- The number of items and entries of all collections. -/
def partCount (g : Graph) : Nat :=
  g.nodes.foldl (fun count node =>
    match node.body with
    | .scalar _ => count
    | .seq items => count + items.length
    | .map es => count + es.length) 0

/-! ## Changes to a graph -/

section Changes

variable {g : Graph} {n k : Nat}

theorem size_add (node : Node) : (g.add node).size = g.size + 1 := Array.size_push ..

theorem node_add_of_lt (node : Node) (hk : k < g.size) : (g.add node).node k = g.node k := by
  simp only [Graph.node, add, Array.getD_eq_getD_getElem?]
  rw [Array.getElem?_push, if_neg (show k ≠ g.nodes.size from Nat.ne_of_lt hk)]

theorem node_add_size (node : Node) : (g.add node).node g.size = node := by
  simp only [Graph.node, add, Array.getD_eq_getD_getElem?, size]
  rw [Array.getElem?_push, if_pos rfl]
  rfl

theorem size_setBody (body : Body) : (g.setBody n body).size = g.size := Array.size_modify ..

theorem node_setBody_of_ne (body : Body) (hk : k ≠ n) : (g.setBody n body).node k = g.node k := by
  simp only [Graph.node, setBody, Array.getD_eq_getD_getElem?]
  rw [Array.getElem?_modify, if_neg (Ne.symm hk)]

theorem node_setBody_self (body : Body) (hn : n < g.size) :
    (g.setBody n body).node n = { g.node n with body } := by
  simp only [Graph.node, setBody, Array.getD_eq_getD_getElem?]
  rw [Array.getElem?_modify, if_pos rfl, Array.getElem?_eq_getElem hn]
  rfl

theorem tag_setBody (body : Body) : (g.setBody n body).tag k = g.tag k := by
  simp only [tag, node, setBody, Array.getD_eq_getD_getElem?, Array.getElem?_modify]
  split
  · cases g.nodes[k]? <;> rfl
  · rfl

theorem size_setTag (tag : Tag) : (g.setTag n tag).size = g.size := Array.size_modify ..

theorem body_setTag (tag : Tag) : ((g.setTag n tag).node k).body = (g.node k).body := by
  simp only [node, setTag, Array.getD_eq_getD_getElem?, Array.getElem?_modify]
  split
  · cases g.nodes[k]? <;> rfl
  · rfl

theorem tag_setTag (tag : Tag) :
    (g.setTag n tag).tag k = g.tag k ∨ n = k ∧ (g.setTag n tag).tag k = tag := by
  simp only [Graph.tag, node, setTag, Array.getD_eq_getD_getElem?, Array.getElem?_modify]
  split
  · next hk =>
    cases g.nodes[k]? with
    | none => exact .inl rfl
    | some _ => exact .inr ⟨hk, rfl⟩
  · exact .inl rfl

end Changes

end Graph

/-- A graph with the node that everything else hangs on, and the order in which the nodes were complete:
each but for references to a node around it comes after all it refers to. -/
structure Document where
  graph : Graph
  root : Nat
  order : List Nat

end CommentStyle.Yaml
