import StageTree.Text.Lines
import StageTree.Tree.Basic

/-!
# Looking up keys in a tree

`Node.occurrences` lists every pair of a key, in document order (the order of a pre-order
walk), with the span of the object holding it. `Node.objectAt` finds the object nearest above
the innermost node covering an offset: descending from the root, each step goes to the first
child whose span covers the offset (a pair's children are its key and its value), and the
object is the last one passed. `Node.scopeAt` reads, in that object, the one pair of a given
key: the pairs of its value when that is an object, none otherwise, and no answer unless
there is exactly one such pair. `Node.nodeAt` is that descent itself, over any visits: it gives
the visit it ends at.
-/

namespace StageTree.Tree

namespace Node

/-- A found pair: the span of the object holding it, its key and its value. -/
structure Occurrence where
  holder : Span
  key : Key
  value : Node

mutual

/-- The pairs keyed `k` in a tree, in document order. -/
def occurrences (k : Text.Str) : Node → List Occurrence
  | .object s pairs => pairOccurrences k s pairs
  | .array _ items => itemOccurrences k items
  | _ => []

/-- The pairs keyed `k` in pairs of an object spanning `s` and below them. -/
def pairOccurrences (k : Text.Str) (s : Span) : List (Key × Node) → List Occurrence
  | [] => []
  | (key, v) :: rest =>
    (if key.text == k then [⟨s, key, v⟩] else []) ++ occurrences k v ++
      pairOccurrences k s rest

/-- The pairs keyed `k` in array items and below them. -/
def itemOccurrences (k : Text.Str) : List Node → List Occurrence
  | [] => []
  | n :: rest => occurrences k n ++ itemOccurrences k rest

end

mutual

/-- The pairs of the object nearest above the innermost node covering `o`, below a node that
covers it; `outer` is the nearest object above this node. -/
def objectBelow (o : Nat) (outer : Option (List (Key × Node))) :
    Node → Option (List (Key × Node))
  | .object _ pairs => pairsBelow o pairs pairs
  | .array _ items => itemsBelow o outer items
  | _ => outer

/-- The step into the first pair of `rest` covering `o`, in an object of pairs `here`. -/
def pairsBelow (o : Nat) (here : List (Key × Node)) :
    List (Key × Node) → Option (List (Key × Node))
  | [] => some here
  | (k, v) :: rest =>
    if (pairSpan k v).contains o then
      if k.span.contains o then some here
      else if v.span.contains o then objectBelow o (some here) v
      else some here
    else pairsBelow o here rest

/-- The step into the first item covering `o`. -/
def itemsBelow (o : Nat) (outer : Option (List (Key × Node))) :
    List Node → Option (List (Key × Node))
  | [] => outer
  | n :: rest => if n.span.contains o then objectBelow o outer n else itemsBelow o outer rest

end

/-- The pairs of the object nearest above the innermost node covering `o`, if the tree covers
it and such an object exists. -/
def objectAt (root : Node) (o : Nat) : Option (List (Key × Node)) :=
  if root.span.contains o then objectBelow o none root else none

/-- The pairs of the value of the one pair keyed `name` in the object around offset `o`: none
of them when that value is no object. -/
def scopeAt (root : Node) (o : Nat) (name : Text.Str) : Option (List (Key × Node)) := do
  let pairs ← root.objectAt o
  match pairs.filter (·.1.text == name) with
  | [(_, .object _ inner)] => some inner
  | [_] => some []
  | _ => none

end Node

namespace Visit

/-- A visit's children are smaller than it. -/
theorem sizeOf_lt_of_mem_children {v c : Visit} (mem : c ∈ v.children) : sizeOf c < sizeOf v := by
  match v, mem with
  | node (.object s pairs), mem =>
    obtain ⟨⟨k, w⟩, inPairs, rfl⟩ := List.mem_map.1 mem
    have := List.sizeOf_lt_of_mem inPairs
    simp only [node.sizeOf_spec, Node.object.sizeOf_spec, pair.sizeOf_spec] at *
    simp only [Prod.mk.sizeOf_spec] at this
    omega
  | node (.array s items), mem =>
    obtain ⟨n, inItems, rfl⟩ := List.mem_map.1 mem
    have := List.sizeOf_lt_of_mem inItems
    simp only [node.sizeOf_spec, Node.array.sizeOf_spec]
    omega
  | pair k w, mem =>
    have : 0 < sizeOf k := by cases k; simp only [Key.mk.sizeOf_spec]; omega
    have : 0 < sizeOf w := by
      cases w <;> simp only [Node.object.sizeOf_spec, Node.array.sizeOf_spec,
        Node.string.sizeOf_spec, Node.number.sizeOf_spec, Node.boolean.sizeOf_spec,
        Node.null.sizeOf_spec] <;> omega
    simp only [children, List.mem_cons, List.not_mem_nil, or_false] at mem
    rcases mem with rfl | rfl
    · simp only [key.sizeOf_spec, pair.sizeOf_spec]
      omega
    · simp only [node.sizeOf_spec, pair.sizeOf_spec]
      omega

/-- The visit the descent from `v` ends at: step into the first child covering `o` while there
is one, and stop at a visit none of whose children covers `o`. -/
def descend (o : Nat) (v : Visit) : Visit :=
  match _found : v.children.find? (·.span.contains o) with
  | some c => descend o c
  | none => v
termination_by v
decreasing_by exact sizeOf_lt_of_mem_children (List.mem_of_find?_eq_some _found)

end Visit

/-- The innermost node of a tree covering the offset `o`: none when the root does not cover it,
and else the visit the descent from the root ends at. -/
def Node.nodeAt (root : Node) (o : Nat) : Option Visit :=
  if root.span.contains o then some ((Visit.node root).descend o) else none

end StageTree.Tree
