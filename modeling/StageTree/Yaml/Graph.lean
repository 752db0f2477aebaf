import StageTree.Text.Str
import StageTree.Yaml.Mark

/-!
# The node graph of a YAML document

A document is a graph of nodes: scalars with their resolved tag and text, sequences of nodes and
mappings of key-value pairs of nodes. Nodes live in an array and collections refer to their
members by index, so an alias is one more reference to its anchored node, and a reference from
inside a collection to the collection itself makes a cycle.
-/

namespace StageTree.Yaml

/-- One node of a document graph, with the marks where it starts and ends. -/
inductive GraphNode where
  | scalar (tag : String) (value : Text.Str) (start stop : Mark)
  | sequence (items : Array Nat) (start stop : Mark)
  | mapping (pairs : Array (Nat × Nat)) (start stop : Mark)
deriving Repr, Inhabited

namespace GraphNode

/-- The mark where a node starts. -/
def start : GraphNode → Mark
  | scalar _ _ s _ => s
  | sequence _ s _ => s
  | mapping _ s _ => s

/-- The mark where a node ends. -/
def stop : GraphNode → Mark
  | scalar _ _ _ e => e
  | sequence _ _ e => e
  | mapping _ _ e => e

end GraphNode

/-- A document graph: its nodes and the index of its root. -/
structure Graph where
  nodes : Array GraphNode
  root : Nat
deriving Repr, Inhabited

end StageTree.Yaml
