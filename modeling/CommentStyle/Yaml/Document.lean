import CommentStyle.Yaml.Graph
import CommentStyle.Yaml.Token

/-!
# Reading a document

The tokens of a text make one document at most. The grammar looks one token ahead, so the nodes are read by
plain descent; the fuel bounds its steps. Collections are inside each other only as far as there is room.
-/

namespace CommentStyle.Yaml

/-- Where the reading of a document stands. -/
structure Reading where
  lexer : Lexer
  graph : Graph := {}
  /-- The complete nodes, last first. -/
  order : List Nat := []
  anchors : List (String × Nat) := []
  handles : List (String × String) := [("!", "!"), ("!!", Tag.commonStart)]

/-- A step of the reading. -/
abbrev Read := StateT Reading (Except Fault)

namespace Read

/-- The token ahead. -/
def peek : Read Token := do
  let r ← get
  let (t, lexer) ← r.lexer.ahead
  set { r with lexer }
  return t

def next : Read Unit := modify fun r => { r with lexer := r.lexer.next }

def bindAnchor (anchor : Option String) (n : Nat) : Read Unit :=
  match anchor with
  | some name => modify fun r => { r with anchors := (name, n) :: r.anchors }
  | none => return ()

/-- A node that is still to be completed. -/
def begin (anchor : Option String) (node : Node) : Read Nat := do
  let n := (← get).graph.size
  modify fun r => { r with graph := r.graph.add node }
  bindAnchor anchor n
  return n

def complete (n : Nat) (body : Body) : Read Nat := do
  modify fun r => { r with graph := r.graph.setBody n body, order := n :: r.order }
  return n

def scalar (anchor : Option String) (tag : Tag) (text : List Char) : Read Nat := do
  let n ← begin anchor ⟨tag, .scalar text⟩
  modify fun r => { r with order := n :: r.order }
  return n

/-- What stands where nothing is written. -/
def nothing : Read Nat := scalar none .null []

def anchored (name : String) : Read Nat := do
  match (← get).anchors.lookup name with
  | some n => return n
  | none => throw .malformed

/-! ## What may stand before a node -/

/-- An anchor and a tag, in either order. -/
structure Properties where
  anchor : Option String := none
  /-- The full name of the tag, if one is written. -/
  tag : Option String := none

namespace Properties

/-- No tag, or the mark that leaves the tag open. -/
def isOpen (p : Properties) : Bool := p.tag.all (· = "!")

def ofCollection (p : Properties) (usual : Tag) : Tag :=
  if p.isOpen then usual else Tag.ofName (p.tag.getD "")

/-- A quoted scalar is a text unless a tag says otherwise; a plain one goes by its form. -/
def ofScalar (p : Properties) (plain : Bool) (text : List Char) : Tag :=
  match p.tag with
  | none => if plain then Tag.ofPlain text else .str
  | some name => if name = "!" then Tag.ofPlain text else Tag.ofName name

end Properties

def anchorAhead : Read (Option String) := do
  match ← peek with
  | .anchor name => next; return some name
  | _ => return none

def tagAhead : Read (Option TagName) := do
  match ← peek with
  | .tag name => next; return some name
  | _ => return none

/-- The full name of a tag. -/
def fullName (name : TagName) : Read String := do
  match name.handle with
  | none => return name.suffix
  | some handle =>
    match (← get).handles.lookup handle with
    | some start => return start ++ name.suffix
    | none => throw .malformed

def properties : Read Properties := do
  let anchor ← anchorAhead
  let tag ← tagAhead
  let anchor ← if anchor.isNone && tag.isSome then anchorAhead else pure anchor
  match tag with
  | some name => return { anchor, tag := some (← fullName name) }
  | none => return { anchor }

/-- An anchor names one node only. -/
def freshAnchor (anchor : Option String) : Read Unit := do
  match anchor with
  | some name => if ((← get).anchors.lookup name).isSome then throw .malformed
  | none => return ()

/-! ## Nodes -/

mutual

/-- One node, with room for so many collections inside each other. Block collections begin only where `block`
allows them, and a block sequence without indentation of its own only where `indentless` does. -/
def node (room : Nat) (block indentless : Bool) : Nat → Read Nat
  | 0 => throw .malformed
  | fuel + 1 => do
    match ← peek with
    | .alias name => next; anchored name
    | _ =>
      let p ← properties
      let t ← peek
      freshAnchor p.anchor
      match t with
      | .scalar text plain => next; scalar p.anchor (p.ofScalar plain text) text
      | .flowSequence =>
        next
        let inner ← deeper room
        let n ← begin p.anchor ⟨p.ofCollection .seq, .seq []⟩
        complete n (.seq (← flowItems inner true fuel []))
      | .flowMapping =>
        next
        let inner ← deeper room
        let n ← begin p.anchor ⟨p.ofCollection .map, .map []⟩
        complete n (.map (← flowEntries inner true fuel []))
      | t =>
        if block && t == .blockSequence then
          next
          let inner ← deeper room
          let n ← begin p.anchor ⟨p.ofCollection .seq, .seq []⟩
          complete n (.seq (← blockItems inner fuel []))
        else if indentless && t == .blockEntry then
          let inner ← deeper room
          let n ← begin p.anchor ⟨p.ofCollection .seq, .seq []⟩
          complete n (.seq (← indentlessItems inner fuel []))
        else if block && t == .blockMapping then
          next
          let inner ← deeper room
          let n ← begin p.anchor ⟨p.ofCollection .map, .map []⟩
          complete n (.map (← blockEntries inner fuel []))
        else if p.anchor.isSome || p.tag.isSome then
          scalar p.anchor (if p.isOpen then .null else p.ofScalar false []) []
        else throw .malformed
termination_by structural fuel => fuel

/-- The items of a block sequence up to its end, those read being given last first. -/
def blockItems (room : Nat) : Nat → List Nat → Read (List Nat)
  | 0, _ => throw .malformed
  | fuel + 1, items => do
    match ← peek with
    | .blockEnd => next; return items.reverse
    | .blockEntry =>
      next
      let n ← match ← peek with
        | .blockEntry | .blockEnd => nothing
        | _ => node room true false fuel
      blockItems room fuel (n :: items)
    | _ => throw .malformed
termination_by structural fuel => fuel

/-- The items of a sequence at the column of the mapping that holds it. -/
def indentlessItems (room : Nat) : Nat → List Nat → Read (List Nat)
  | 0, _ => throw .malformed
  | fuel + 1, items => do
    match ← peek with
    | .blockEntry =>
      next
      let n ← match ← peek with
        | .blockEntry | .key | .value | .blockEnd => nothing
        | _ => node room true false fuel
      indentlessItems room fuel (n :: items)
    | _ => return items.reverse
termination_by structural fuel => fuel

/-- The entries of a block mapping up to its end. -/
def blockEntries (room : Nat) : Nat → List (Nat × Nat) → Read (List (Nat × Nat))
  | 0, _ => throw .malformed
  | fuel + 1, entries => do
    match ← peek with
    | .blockEnd => next; return entries.reverse
    | .key =>
      next
      let k ← match ← peek with
        | .key | .value | .blockEnd => nothing
        | _ => node room true true fuel
      let v ← match ← peek with
        | .value => do
          next
          match ← peek with
          | .key | .value | .blockEnd => nothing
          | _ => node room true true fuel
        | _ => nothing
      blockEntries room fuel ((k, v) :: entries)
    | _ => throw .malformed
termination_by structural fuel => fuel

/-- The key and the value of a flow entry, behind the mark of the key. -/
def flowPair (room : Nat) (close : Token) : Nat → Read (Nat × Nat)
  | 0 => throw .malformed
  | fuel + 1 => do
    next
    let t ← peek
    let k ← if t == .value || t == .flowEntry || t == close then nothing else node room false false fuel
    let v ← match ← peek with
      | .value => do
        next
        let t ← peek
        if t == .flowEntry || t == close then nothing else node room false false fuel
      | _ => nothing
    return (k, v)
termination_by structural fuel => fuel

/-- The items of a flow sequence up to its bracket. A key among them makes a mapping of one entry. -/
def flowItems (room : Nat) (first : Bool) : Nat → List Nat → Read (List Nat)
  | 0, _ => throw .malformed
  | fuel + 1, items => do
    match ← peek with
    | .flowSequenceEnd => next; return items.reverse
    | t =>
      if !first then
        if t ≠ .flowEntry then throw .malformed
        next
      match ← peek with
      | .flowSequenceEnd => next; return items.reverse
      | .key =>
        let inner ← deeper room
        let n ← begin none ⟨.map, .map []⟩
        let entry ← flowPair inner .flowSequenceEnd fuel
        let n ← complete n (.map [entry])
        flowItems room false fuel (n :: items)
      | _ =>
        let n ← node room false false fuel
        flowItems room false fuel (n :: items)
termination_by structural fuel => fuel

/-- The entries of a flow mapping up to its brace; a node without a colon has no value. -/
def flowEntries (room : Nat) (first : Bool) : Nat → List (Nat × Nat) → Read (List (Nat × Nat))
  | 0, _ => throw .malformed
  | fuel + 1, entries => do
    match ← peek with
    | .flowMappingEnd => next; return entries.reverse
    | t =>
      if !first then
        if t ≠ .flowEntry then throw .malformed
        next
      match ← peek with
      | .flowMappingEnd => next; return entries.reverse
      | .key =>
        let entry ← flowPair room .flowMappingEnd fuel
        flowEntries room false fuel (entry :: entries)
      | _ =>
        let k ← node room false false fuel
        let _ ← peek
        let v ← nothing
        flowEntries room false fuel ((k, v) :: entries)
termination_by structural fuel => fuel

end

/-! ## Documents -/

/-- The directives before a document: one version at most, which must be 1, and each handle once. -/
def directives : Nat → Bool → List (String × String) → Read (List (String × String))
  | 0, _, _ => throw .malformed
  | fuel + 1, versioned, handles => do
    match ← peek with
    | .directive (.version major _) =>
      next
      if versioned || major ≠ 1 then throw .malformed
      directives fuel true handles
    | .directive (.tag handle start) =>
      next
      if (handles.lookup handle).isSome then throw .malformed
      directives fuel versioned ((handle, start) :: handles)
    | .directive .other => next; directives fuel versioned handles
    | _ => return handles

/-- Marks of a document's end are passed over. -/
def documentEnds : Nat → Read Unit
  | 0 => throw .malformed
  | fuel + 1 => do
    match ← peek with
    | .documentEnd => next; documentEnds fuel
    | _ => return ()

/-- Directives and the mark that begins a document. -/
def documentStart (fuel : Nat) : Read Unit := do
  let handles ← directives fuel false []
  match ← peek with
  | .documentStart => next; modify fun r => { r with handles := handles ++ r.handles }
  | _ => throw .malformed

/-- After the document nothing may follow but marks of its end. What follows is looked at as the beginning
of one more document. -/
def finish (fuel : Nat) : Read Unit := do
  documentEnds fuel
  match ← peek with
  | .streamEnd => return ()
  | _ => documentStart fuel; throw .malformed

/-- The one document of a stream; an empty stream has none. -/
def document (fuel : Nat) : Read (Option Nat) := do
  match ← peek with
  | .streamEnd => return none
  | .directive _ | .documentStart =>
    documentStart fuel
    let n ← match ← peek with
      | .directive _ | .documentStart | .documentEnd | .streamEnd => nothing
      | _ => node nestingLimit true false fuel
    finish fuel
    return some n
  | _ =>
    let n ← node nestingLimit true false fuel
    finish fuel
    return some n

end Read

/-- The document of a text. -/
def Document.ofChars (cs : List Char) : Except Fault (Option Document) :=
  if cs.all isAllowed then do
    let (root, r) ← (Read.document (8 * cs.length + 16)).run { lexer := .ofChars cs }
    return root.map fun root => { graph := r.graph, root, order := r.order.reverse }
  else .error .malformed

end CommentStyle.Yaml
