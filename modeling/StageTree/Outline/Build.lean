import StageTree.Outline.Basic
import StageTree.Tree.Document

/-!
# The outline of a pipeline document

The outline of a document's first tree has a node for every pair keyed `stage`, `task`,
`script`, `job` or `deployment`, whose value is the display text of the pair's value and whose
range is the object holding the pair, and a wrapper for every array that is the value of a pair
keyed `stages`, `steps` or `jobs`, whose range is the array's. A node's children are the nodes
found below it before any nearer node, in document order; nothing below a `task` is shown.
These nodes hang under a root keyed `root` that spans the tree, and the wrappers are then
flattened away. There is no outline when a shown value holds an integer too long to write.

The first pass (`passOne`) makes the nodes in one pre-order walk of the tree. Beside the outline
it keeps, for every visit that has made a node, the visit's way up to the root and the path of
its node: a new node becomes the last child of the node made by the nearest visit above it that
made one, or of the root, and none is made when that node is a task's. `ofNode` describes the
same nodes by recursion on the tree.
-/

namespace StageTree

open StageTree.Tree

namespace Outline

/-- The keys of pairs shown in an outline. -/
def shownKeys : List String := ["stage", "task", "script", "job", "deployment"]

/-- The keys of pairs whose array value is shown as a wrapper. -/
def wrappedKeys : List String := ["stages", "steps", "jobs"]

mutual

/-- The outline nodes of a tree that is no pair's value; none when a shown value cannot be
written. -/
def ofNode (t : LineTable) : Node → Option (List Outline)
  | .object s pairs => ofPairs t s pairs
  | .array _ items => ofItems t items
  | _ => some []

/-- The outline nodes of the value of a pair keyed `key`. -/
def ofValue (t : LineTable) (key : String) : Node → Option (List Outline)
  | .object s pairs => ofPairs t s pairs
  | .array s items =>
    if wrappedKeys.contains key then
      (fun children =>
        [{ key, value := none, range := t.rangeOf s.start s.stop, isArray := true, children }])
        <$> ofItems t items
    else ofItems t items
  | _ => some []

/-- The outline nodes of the pairs of an object spanning `s`. -/
def ofPairs (t : LineTable) (s : Span) : List (Key × Node) → Option (List Outline)
  | [] => some []
  | (k, v) :: rest => do
    let here ←
      if shownKeys.contains k.text.toString then
        if v.value.writable then
          (fun children =>
            [{ key := k.text.toString, value := some v.value.display,
               range := t.rangeOf s.start s.stop, children }]) <$>
            (if k.text.toString == "task" then some [] else ofValue t k.text.toString v)
        else none
      else ofValue t k.text.toString v
    (here ++ ·) <$> ofPairs t s rest

/-- The outline nodes of array items. -/
def ofItems (t : LineTable) : List Node → Option (List Outline)
  | [] => some []
  | n :: rest => do
    let here ← ofNode t n
    (here ++ ·) <$> ofItems t rest

end

/-- The name of an outline's root, its key and value. -/
def rootName : String := "root"

/-- The node at a path below an outline, each index picking a child; none when there is none. -/
def atPath (o : Outline) : List Nat → Option Outline
  | [] => some o
  | i :: path => o.children[i]?.bind (·.atPath path)

/-- The outline with `n` added as the last child of the node at a path; the same outline when
there is no node there. -/
def hang (o : Outline) : List Nat → Outline → Outline
  | [], n => { o with children := o.children ++ [n] }
  | i :: path, n => { o with children := o.children.modify i (·.hang path n) }

/-- The first pass part-way through its walk: the outline built so far, and the visits that have
made a node, each by its way up with the path of its node, in the order they made them. -/
structure Pass where
  /-- The outline built so far, from its root. -/
  root : Outline
  /-- The ways up of the visits that made nodes, with their nodes' paths. -/
  made : List (List Nat × List Nat)

namespace Pass

/-- The path of the node made by the visit whose way up is `way` or, when it made none, by the
nearest visit above it that made one. -/
def madeOnWay (s : Pass) : List Nat → Option (List Nat)
  | [] => s.made.lookup []
  | i :: up => (s.made.lookup (i :: up)).or (s.madeOnWay up)

/-- The path of the node made by the nearest visit above the visit whose way up is `way` that
made one; none when no visit above it did. -/
def nearest (s : Pass) : List Nat → Option (List Nat)
  | [] => none
  | _ :: up => s.madeOnWay up

/-- Adds the node `made` for a located visit as the last child of the node of the nearest visit
above it that made one, or of the root when none did, and records the visit's way up with the
new node's path; adds nothing when that node is a task's. None when the node could not be made. -/
def add (s : Pass) (l : Located) (made : Option Outline) : Option Pass :=
  let parent := s.nearest l.way
  if ((parent.bind s.root.atPath).map (·.key == "task")).getD false then some s
  else
    let path := parent.getD []
    let index := ((s.root.atPath path).map (·.children.length)).getD 0
    made.map fun o => ⟨s.root.hang path o, s.made ++ [(l.way, path ++ [index])]⟩

/-- The first pass before its walk: the root spanning the tree alone, and no visit has made a
node. -/
def start (t : LineTable) (root : Node) : Pass :=
  ⟨{ key := rootName, value := some (rootName : Text.Str),
     range := t.rangeOf root.span.start root.span.stop }, []⟩

end Pass

/-- One visit of the first pass. A pair keyed `stage`, `task`, `script`, `job` or `deployment`
makes a node with its key, its value's display text (none when an integer in it is too long to
write) and the range of the object holding it; an array that is the value of a pair keyed
`stages`, `steps` or `jobs` makes a wrapper with the pair's key and its own range. Nothing else
makes a node. -/
def passStep (t : LineTable) (s : Pass) (l : Located) : Option Pass :=
  match l.visit, l.above with
  | .pair k v, _ =>
    if shownKeys.contains k.text.toString then
      s.add l (if v.value.writable then
        some { key := k.text.toString, value := some v.value.display,
               range := t.rangeOf l.holderSpan.start l.holderSpan.stop }
        else none)
    else some s
  | .node (.array sp _), .pair k _ :: _ =>
    if wrappedKeys.contains k.text.toString then
      s.add l (some { key := k.text.toString, value := none, range := t.rangeOf sp.start sp.stop,
                      isArray := true })
    else some s
  | _, _ => some s

/-- The outline of a tree before flattening, by the first pass: each visit of the walk in turn;
none when a shown value cannot be written. -/
def passOne (t : LineTable) (root : Node) : Option Outline :=
  Pass.root <$> (Visit.nodeLocated [] [] root).foldlM (passStep t) (Pass.start t root)

/-- The outline of a stream's first document, with the text's line table; none when the value
of a shown pair holds an integer too long to write. -/
def build (t : LineTable) (d : Document) : Option Outline :=
  match d.first with
  | none => some { key := rootName, value := some (rootName : Text.Str), range := ⟨⟨0, 0⟩, ⟨0, 0⟩⟩ }
  | some root => flattenArrays <$> passOne t root

end Outline

end StageTree
