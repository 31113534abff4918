/-!
# Similar words

Two words are compared by the characters they share in the same order: the longest run common to both, and
then, the same way, what stands before it and what stands behind it in either word.
-/

namespace CommentStyle.Text

/-- The number of characters in which two texts begin alike. -/
def commonStart : List Char → List Char → Nat
  | a :: as, b :: bs => if a = b then commonStart as bs + 1 else 0
  | _, _ => 0

/-- The longest run common to two texts, of several the earliest: its start in either, and its length. -/
def longestRun (a b : List Char) : Nat × Nat × Nat :=
  let starts := (List.range a.length).flatMap fun i => (List.range b.length).map fun j => (i, j)
  starts.foldl (fun best s =>
    let n := commonStart (a.drop s.1) (b.drop s.2)
    if best.2.2 < n then (s.1, s.2, n) else best) (0, 0, 0)

/-- The number of shared characters. -/
def sharedWith : Nat → List Char → List Char → Nat
  | 0, _, _ => 0
  | fuel + 1, a, b =>
    match longestRun a b with
    | (_, _, 0) => 0
    | (i, j, n + 1) =>
      sharedWith fuel (a.take i) (b.take j) + (n + 1)
        + sharedWith fuel (a.drop (i + n + 1)) (b.drop (j + n + 1))

def shared (a b : String) : Nat := sharedWith a.length a.toList b.toList

/-- The shared characters of both make up at least three fifths of the two words. -/
def similar (a b : String) : Bool := 3 * (a.length + b.length) ≤ 10 * shared a b

/-- The similar words among some, at most three. -/
def suggestions (word : String) (known : List String) : List String :=
  (known.filter (similar · word)).take 3

end CommentStyle.Text
