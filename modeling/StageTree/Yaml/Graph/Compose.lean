import StageTree.Text.Quoted
import StageTree.Yaml.Error
import StageTree.Yaml.Event
import StageTree.Yaml.Graph
import StageTree.Yaml.Resolve

/-!
# Composing events into document graphs

`Graph.compose` reads the events of a stream one by one and builds one graph per document. A
scalar or a collection's start adds a node and, if it carries an anchor, names it by the anchor
from then on, so an alias inside the collection refers to the collection itself. An alias adds
no node: it is the anchored node once more. A scalar without a tag, or with the tag `!`, gets
the tag its text implies. Anchors belong to one document.

Composing stops at an alias to an unknown anchor, at an anchor named twice in one document, and at
a node nested deeper than `maxDepth` collections. `Graph.compose` gives the documents completed
before it stopped, and why it stopped; `stop` is why the events end early, if they do.
-/

namespace StageTree.Yaml

/-- The deepest nesting of collections composing follows. -/
def maxDepth : Nat := 450

/-- A collection being filled: its node, whether it is a mapping, its items or pairs so far, and
in a mapping the key waiting for its value. The node's place holds an empty collection until
it is closed. -/
structure OpenCollection where
  node : Nat
  isMapping : Bool
  items : Array Nat := #[]
  pairs : Array (Nat × Nat) := #[]
  pendingKey : Option Nat := none
deriving Repr, Inhabited

/-- The state of composing: the current document's nodes, anchors and open collections, its
root once known, and the documents completed. -/
structure Composer where
  nodes : Array GraphNode := #[]
  anchors : List (String × Nat) := []
  stack : List OpenCollection := []
  root : Option Nat := none
  documents : Array Graph := #[]
deriving Inhabited

namespace Composer

/-- Puts a finished node where it belongs: as the root, a sequence's next item, a mapping's key
or that key's value. -/
def attach (c : Composer) (id : Nat) : Composer :=
  match c.stack with
  | [] => { c with root := some id }
  | top :: rest =>
    if top.isMapping then
      match top.pendingKey with
      | none => { c with stack := { top with pendingKey := some id } :: rest }
      | some k =>
        { c with stack := { top with pairs := top.pairs.push (k, id), pendingKey := none } :: rest }
    else { c with stack := { top with items := top.items.push id } :: rest }

/-- Checks a new node's depth and anchor. -/
def enter (c : Composer) (anchor : Option String) (at_ : Mark) : Except Error Unit := do
  if c.stack.length + 1 > maxDepth then throw .tooDeep
  if let some a := anchor then
    if let some first := c.anchors.lookup a then
      let firstMark := (c.nodes[first]?.map GraphNode.start).getD Mark.origin
      throw (.malformed (some ("found duplicate anchor " ++ Text.quote a ++ "; first occurrence"))
        (some firstMark) "second occurrence" at_)

/-- Adds a node, naming it by its anchor if it has one. -/
def addNode (c : Composer) (anchor : Option String) (n : GraphNode) : Composer × Nat :=
  let id := c.nodes.size
  let anchors := match anchor with
    | some a => (a, id) :: c.anchors
    | none => c.anchors
  ({ c with nodes := c.nodes.push n, anchors }, id)

/-- Closes the innermost open collection at the end mark `stop`. -/
def close (c : Composer) (stop : Mark) : Composer :=
  match c.stack with
  | [] => c
  | top :: rest =>
    let start := (c.nodes[top.node]?.map GraphNode.start).getD Mark.origin
    let node := if top.isMapping then GraphNode.mapping top.pairs start stop
      else GraphNode.sequence top.items start stop
    attach { c with nodes := c.nodes.setIfInBounds top.node node, stack := rest } top.node

/-- The tag a node ends up with: its own, or the one its text implies. -/
def tagOf (tag : Option String) (value : Text.Str) (implicit : Bool × Bool) : String :=
  match tag with
  | some t => if t == "!" then Resolve.scalarTag value.toString implicit.1 else t
  | none => Resolve.scalarTag value.toString implicit.1

/-- Takes one event; `true` once the stream has ended. -/
def step (c : Composer) (e : Event) : Except Error (Composer × Bool) := do
  match e.kind with
  | .streamStart => return (c, false)
  | .documentStart _ =>
    return ({ c with nodes := #[], anchors := [], stack := [], root := none }, false)
  | .documentEnd _ =>
    return ({ c with documents := c.documents.push ⟨c.nodes, c.root.getD 0⟩ }, false)
  | .streamEnd => return (c, true)
  | .reference a =>
    c.enter none e.start
    match c.anchors.lookup a with
    | some id => return (c.attach id, false)
    | none => throw (.malformed none none ("found undefined alias " ++ Text.quote a) e.start)
  | .scalar anchor tag implicit value =>
    c.enter anchor e.start
    let (c, id) := c.addNode anchor (.scalar (tagOf tag value implicit) value e.start e.stop)
    return (c.attach id, false)
  | .sequenceStart anchor _ _ _ =>
    c.enter anchor e.start
    let (c, id) := c.addNode anchor (.sequence #[] e.start e.start)
    return ({ c with stack := { node := id, isMapping := false } :: c.stack }, false)
  | .mappingStart anchor _ _ _ =>
    c.enter anchor e.start
    let (c, id) := c.addNode anchor (.mapping #[] e.start e.start)
    return ({ c with stack := { node := id, isMapping := true } :: c.stack }, false)
  | .sequenceEnd => return (c.close e.stop, false)
  | .mappingEnd => return (c.close e.stop, false)

/-- Takes events until the stream ends or composing stops. -/
def run (c : Composer) (stop : Option Error) : List Event → Array Graph × Option Error
  | [] => (c.documents, stop)
  | e :: rest =>
    let done := c.documents
    match c.step e with
    | .error err => (done, some err)
    | .ok (c', true) => (c'.documents, none)
    | .ok (c', false) => run c' stop rest

end Composer

/-- The graphs of a stream's documents, in order, and why composing stopped short of the
stream's end, if it did. -/
def Graph.compose (events : List Event) (stop : Option Error) : List Graph × Option Error :=
  let (documents, err) := Composer.run {} stop events
  (documents.toList, err)

end StageTree.Yaml
