import StageTree.Json.Value
import StageTree.Text.Lines

/-!
# Outline trees

An outline node has a key, a value (none for an array wrapper), a range of the text and its
children. An array wrapper stands for an array of stages, steps or jobs until the tree is
flattened.

`Outline.flattenArrays` removes wrappers bottom-up: a node whose only child is a wrapper takes
the wrapper's children; otherwise each wrapper after the first child hands its children to the
child kept before it and goes away, and a wrapper in first place stays. Children handed over
are not flattened again. `Outline.preorder` lists nodes with their depths, each node before its
children.
-/

namespace StageTree

/-- A node of an outline tree. -/
structure Outline where
  key : String
  value : Option Text.Str
  range : Range
  isArray : Bool := false
  children : List Outline := []
deriving Inhabited

namespace Outline

/-- Children after the first kept child: a wrapper's children go to the child kept last (the
head of `kept`, which is reversed), any other child is kept. -/
def absorb : List Outline → List Outline → List Outline
  | kept, [] => kept.reverse
  | last :: kept, c :: rest =>
    if c.isArray then absorb ({ last with children := last.children ++ c.children } :: kept) rest
    else absorb (c :: last :: kept) rest
  | [], c :: rest => absorb [c] rest

/-- Flattened children in place of `cs`, which are flattened already. -/
def collapse (cs : List Outline) : List Outline :=
  match cs with
  | [w] => if w.isArray then w.children else [w]
  | [] => []
  | first :: rest => absorb [first] rest

mutual

/-- Removes array wrappers from a tree, children first. -/
def flattenArrays : Outline → Outline
  | ⟨k, v, r, a, cs⟩ => ⟨k, v, r, a, collapse (flattenEach cs)⟩

/-- Flattens each tree of a list. -/
def flattenEach : List Outline → List Outline
  | [] => []
  | o :: rest => flattenArrays o :: flattenEach rest

end

mutual

/-- A tree's nodes in pre-order, each with its depth counted from `depth`. -/
def preorderOne (depth : Nat) : Outline → List (Outline × Nat)
  | ⟨k, v, r, a, cs⟩ => (⟨k, v, r, a, cs⟩, depth) :: preorder (depth + 1) cs

/-- The nodes of a list of trees in pre-order, with depths from `depth`. -/
def preorder (depth : Nat) : List Outline → List (Outline × Nat)
  | [] => []
  | o :: rest => preorderOne depth o ++ preorder depth rest

end

/-- A position as JSON. -/
def positionJson (p : Position) : Json :=
  .obj [("line", .int p.line), ("character", .int p.character)]

/-- A range as JSON. -/
def rangeJson (r : Range) : Json :=
  .obj [("start", positionJson r.start), ("end", positionJson r.stop)]

/-- The members of a node shown alone: key, value and range. -/
def heading (o : Outline) : List (Text.Str × Json) :=
  [("key", .str o.key), ("value", match o.value with | some v => .str v | none => .null),
    ("range", rangeJson o.range)]

/-- The wrapper mark of a node, present only on wrappers. -/
def arrayMark (o : Outline) : List (Text.Str × Json) :=
  if o.isArray then [("is_array", .bool true)] else []

mutual

/-- A tree as JSON, with its children nested. -/
def toJson : Outline → Json
  | ⟨k, v, r, a, cs⟩ =>
    let o : Outline := ⟨k, v, r, a, cs⟩
    .obj (heading o ++ ([("children", .arr (toJsonEach cs))] : Json.Members) ++ arrayMark o)

/-- Trees as JSON. -/
def toJsonEach : List Outline → List Json
  | [] => []
  | o :: rest => toJson o :: toJsonEach rest

end

/-- A node of a pre-order listing as JSON, with its depth and without its children. -/
def flatJson (entry : Outline × Nat) : Json :=
  .obj (heading entry.1 ++ arrayMark entry.1 ++ ([("depth", .int entry.2)] : Json.Members))

end Outline

end StageTree
