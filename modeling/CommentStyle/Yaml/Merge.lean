import CommentStyle.Yaml.Fault
import CommentStyle.Yaml.Graph

/-!
# Merging mappings

The key `<<` of a mapping brings in the entries of another mapping, or of a list of mappings of which the
first wins. The entries brought in come before the mapping's own and give way to them. The mapping itself is
changed, so whatever else refers to it finds it merged. On the way the key `=` becomes the text it looks
like.
-/

namespace CommentStyle.Yaml.Graph

/-- The key `=` is a text among the keys of a mapping. -/
def settle (g : Graph) (es : List (Nat × Nat)) : Graph :=
  es.foldl (fun g e => if g.tag e.1 = .value then g.setTag e.1 .str else g) g

mutual

/-- Goes on through the entries of a mapping from an index, `merged` being what was brought in and `room` how
many more mappings are merged inside each other. -/
def flattenFrom (n room : Nat) : Nat → Nat → List (Nat × Nat) → Graph → Except Fault Graph
  | 0, _, _, _ => .error .malformed
  | fuel + 1, index, merged, g =>
    let es := g.entries n
    let own := (es.drop index).takeWhile fun e => g.tag e.1 ≠ .merge
    let g := g.settle own
    let index := index + own.length
    match es[index]? with
    | none => .ok (if merged = [] then g else g.setBody n (.map (merged ++ es)))
    | some (_, value) => do
      let g := g.setBody n (.map (es.eraseIdx index))
      let (more, g) ← mergedFrom value room fuel g
      flattenFrom n room fuel index (merged ++ more) g
termination_by structural x => x

/-- The entries that a node brings in. -/
def mergedFrom (n room : Nat) : Nat → Graph → Except Fault (List (Nat × Nat) × Graph)
  | 0, _ => .error .malformed
  | fuel + 1, g =>
    match (g.node n).body with
    | .map _ => do
      let room ← deeper room
      let g ← flattenFrom n room fuel 0 [] g
      return (g.entries n, g)
    | .seq items => mergedItems items room fuel g
    | .scalar _ => .error .malformed
termination_by structural x => x

/-- The entries that a list of mappings brings in, those of the last mapping first. -/
def mergedItems (items : List Nat) (room : Nat) : Nat → Graph → Except Fault (List (Nat × Nat) × Graph)
  | 0, _ => .error .malformed
  | fuel + 1, g =>
    match items with
    | [] => .ok ([], g)
    | n :: rest =>
      if (g.node n).isMap then do
        let inner ← deeper room
        let g ← flattenFrom n inner fuel 0 [] g
        let own := g.entries n
        let (more, g) ← mergedItems rest room fuel g
        return (more ++ own, g)
      else .error .malformed
termination_by structural x => x

end

/-- A bound on the steps of a merge: each `<<` is followed once, through the items of one list at most. -/
def mergeSteps (g : Graph) : Nat := (g.partCount + 3) * (g.partCount + 3)

/-- Merges into a mapping what its entries ask for. -/
def flatten (g : Graph) (n : Nat) : Except Fault Graph :=
  let merges := (g.entries n).any fun e => g.tag e.1 = .merge
  flattenFrom n chainLimit (if merges then g.mergeSteps else 1) 0 [] g

end CommentStyle.Yaml.Graph
