import StageTree.Tree.Basic
import StageTree.Yaml.Graph.Compose
import StageTree.Yaml.Scalar

/-!
# From document graphs to syntax trees

A graph becomes a tree by expanding every reference into a fresh copy of the node it refers to,
with that node's spans. A reference back to a node whose copy is being built (an alias inside
its own anchor) becomes a null instead, so the expansion ends.

Expansion spends a budget shared by all documents of a stream: one unit per node made, two more
per pair. When the budget falls below zero, expansion stops. A scalar's value comes from its tag;
a value that cannot be read keeps the scalar's text, and a fault stops everything. A node's copy
is marked as being built only while it is built: the mark comes off when the copy is made and
also when expansion stops inside it.

Expansion also runs on the stack that composing runs on, where a collection nested
`Yaml.maxDepth` deep is as deep as composing goes, at two calls a level. Expanding a node inside
a sequence takes one call more than the sequence, inside a mapping two; a copy nested deeper
than those `2 * Yaml.maxDepth` calls stops the expansion, however few levels its graph has
(a chain of references can nest copies far deeper than any anchor's own text).
-/

namespace StageTree.Tree

open Yaml

/-- Why expanding a graph stopped. -/
inductive ExpandStop where
  /-- The budget fell below zero. -/
  | overBudget
  /-- A scalar's tag and text make a fault. -/
  | fault (f : Fault)
  /-- Copies nest deeper than the stack holds. -/
  | tooDeep
deriving Repr, Inhabited

/-- The state of an expansion: the budget left, and which nodes have a copy being built. -/
structure Expansion where
  remaining : Int
  building : Array Bool

/-- Expanding: a state over the budget that may stop, keeping the state it stops in. -/
abbrev ExpandM := EStateM ExpandStop Expansion

/-- Spends `n` units of the budget. -/
def spend (n : Nat) : ExpandM Unit := do
  let e ← get
  let left := e.remaining - n
  set { e with remaining := left }
  if left < 0 then throw .overBudget

/-- Marks whether the copy of node `i` is being built. -/
def setBuilding (i : Nat) (b : Bool) : ExpandM Unit :=
  modify fun e => { e with building := e.building.setIfInBounds i b }

/-- The span of a graph node. -/
def spanOf (n : GraphNode) : Span := ⟨n.start.index, n.stop.index⟩

/-- The tree node for a scalar's value. -/
def ofScalar (span : Span) : Scalar → Node
  | .null => .null span
  | .bool b => .boolean span b
  | .int i => .number span (.int i)
  | .float x => .number span (.float x)
  | .str s => .string span s

/-- The key of a pair: its span, and its text if it is a scalar. -/
def keyOf (g : Graph) (i : Nat) : Key :=
  match g.nodes[i]? with
  | some (.scalar _ value s e) => ⟨⟨s.index, e.index⟩, value⟩
  | some n => ⟨spanOf n, ""⟩
  | none => ⟨⟨0, 0⟩, ""⟩

/-- The most calls expansion may nest. -/
def maxCalls : Nat := 2 * Yaml.maxDepth

/-- Enters a node about to be made at call depth `calls`: stops when that is deeper than the
stack holds, and else spends a unit for the node. -/
def enterNode (calls : Nat) : ExpandM Unit := do
  if calls > maxCalls then throw .tooDeep
  spend 1

/-- Expands a graph node `n`, not being built already, at call depth `calls`, its members
through `child`: a mapping looks one call down before its pairs, pays two units per pair and
expands each value two calls down; a sequence expands its items one call down; a scalar's value
comes from its tag. -/
def expandNode (g : Graph) (child : Nat → Nat → ExpandM Node) (calls : Nat) :
    GraphNode → ExpandM Node
  | .mapping pairs s e => do
    if calls + 1 > maxCalls then throw .tooDeep
    let entries ← pairs.toList.mapM fun (k, v) => do
      spend 2
      return (keyOf g k, ← child (calls + 2) v)
    pure (Node.object ⟨s.index, e.index⟩ entries)
  | .sequence items s e => do
    let nodes ← items.toList.mapM (child (calls + 1))
    pure (Node.array ⟨s.index, e.index⟩ nodes)
  | .scalar tag value s e =>
    match Scalar.ofTagged tag value with
    | .ok v => pure (ofScalar ⟨s.index, e.index⟩ v)
    | .error f => throw (.fault f)

/-- Runs `m` with node `i` marked as being built, and takes the mark off after, also when `m`
stops. -/
def marking (i : Nat) (m : ExpandM Node) : ExpandM Node := do
  setBuilding i true
  try m finally setBuilding i false

/-- Expands node `i` of a graph at call depth `calls`. `fuel` bounds the depth; a graph of `n`
nodes needs `n + 1`, since a node is never expanded inside its own copy. An index that names no
node, or a node past the fuel, becomes a null, made and paid for like any other. -/
def expand (g : Graph) : (fuel : Nat) → (calls : Nat) → Nat → ExpandM Node
  | 0, calls, _ => do
    enterNode calls
    return .null ⟨0, 0⟩
  | fuel + 1, calls, i => do
    enterNode calls
    let some n := g.nodes[i]? | return .null ⟨0, 0⟩
    if (← get).building.getD i false then return .null (spanOf n)
    marking i (expandNode g (expand g fuel) calls n)

/-- The tree of a graph, spending from `remaining`; the budget left afterwards. -/
def Node.ofGraph (g : Graph) (remaining : Int) : Except ExpandStop (Node × Int) :=
  match (expand g (g.nodes.size + 1) 1 g.root).run
      { remaining, building := Array.replicate g.nodes.size false } with
  | .ok n e => .ok (n, e.remaining)
  | .error stop _ => .error stop

end StageTree.Tree
