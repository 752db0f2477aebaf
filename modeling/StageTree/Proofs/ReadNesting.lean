import Mathlib
import StageTree.Proofs.ScanOrder
import StageTree.Proofs.ComposeSpans
import StageTree.Proofs.Reading
import StageTree.Proofs.Descent

/-!
# Trees read from texts without aliases are nested

Each stage of reading keeps the order of the text. The scanner hands out tokens in order
(`scan_inOrder`), the parser turns them into events in order (`parse_inOrder`), composing events
none of which is an alias builds graphs that nest (`compose_nests`), and unfolding a nesting graph
gives a nested tree (`unfoldAt_nested`). So every document read from a text without aliases is
nested (`read_nested`): each node's span lies inside its parent's, and the spans of two siblings
share no offset.

In a nested tree the search for the node at an offset, which steps into the first child covering
it, ends at the innermost node covering the offset (`nodeAt_innermost`); so it does in the first
document of every such text (`first_document_nodeAt_innermost`).
-/

namespace StageTree.Tree

open Yaml

/-- Every document a read keeps is the tree of one of the graphs composed from the text. -/
theorem read_documents_unfold {text : String} {limit : Int} {d : Document}
    (read : Document.read text limit = .ok d) :
    ∀ t ∈ d.documents, ∃ g ∈ (Document.graphs text).1, Node.unfold g = .ok t := by
  have expanded := expandAll_keeps (Document.buffer text) limit (Document.graphs text).2
    (Document.graphs text).1 limit #[]
  have same : Document.read text limit = expandAll (Document.buffer text) limit
      (Document.graphs text).2 (Document.graphs text).1 limit #[] := rfl
  rw [← same, read] at expanded
  obtain ⟨kept, documents, keeps⟩ := expanded
  intro t mem
  rw [documents, Array.toList_empty, List.nil_append] at mem
  have made : Except.ok t ∈ ((Document.graphs text).1.take kept.length).map Node.unfold := by
    rw [keeps.unfolds]
    exact List.mem_map_of_mem mem
  obtain ⟨g, taken, unfolds⟩ := List.mem_map.1 made
  exact ⟨g, List.mem_of_mem_take taken, unfolds⟩

/-- The graphs composed from a text without aliases nest. -/
theorem graphs_nest {text : String} (plain : ∀ t ∈ (Token.scan text).1, t.kind.cls ≠ .reference) :
    ∀ g ∈ (Document.graphs text).1, g.Nests :=
  compose_nests (parse_inOrder (scan_inOrder text) _) (parse_plain plain _) _

/-- Every document read from a text without aliases is nested: each node's span lies inside its
parent's, and the spans of two siblings share no offset. -/
theorem read_nested {text : String} {limit : Int} {d : Document}
    (plain : ∀ t ∈ (Token.scan text).1, t.kind.cls ≠ .reference)
    (read : Document.read text limit = .ok d) : ∀ t ∈ d.documents, t.Nested := by
  intro t mem
  obtain ⟨g, composed, made⟩ := read_documents_unfold read t mem
  rw [unfold_eq_unfoldAt] at made
  exact (unfoldAt_nested (graphs_nest plain g composed) ∅ g.root t made).1

/-- In the first document read from a text without aliases, every node lies inside its parent
and siblings are apart; the search for the node at an offset finds none exactly when the root
does not cover the offset, and otherwise finds a node of the tree covering it below every other
node covering it. -/
theorem first_document_nodeAt_innermost {text : String} {limit : Int} {d : Document} {root : Node}
    (plain : ∀ t ∈ (Token.scan text).1, t.kind.cls ≠ .reference)
    (read : Document.read text limit = .ok d) (first : d.first = some root) :
    root.Nested ∧ ∀ o, (root.nodeAt o = none ↔ root.span.contains o = false) ∧
      ∀ w, root.nodeAt o = some w → ∃ p, (Visit.node root).subtreeAt p = some w ∧
        w.span.contains o ∧
          ∀ q c, (Visit.node root).subtreeAt q = some c → c.span.contains o → q <+: p := by
  have nested : root.Nested := read_nested plain read root (List.mem_of_mem_head? first)
  exact ⟨nested, nodeAt_innermost nested⟩

/-- The first document of `[[], {}]`, a flow sequence holding an empty sequence and an empty
mapping, spans the whole text, and the search for the node at an offset finds the innermost node
covering it. -/
theorem flow_collections_nodeAt_innermost :
    let root := ((Document.read "[[], {}]" 100).toOption.bind Document.first).getD default
    root.span = ⟨0, 8⟩ ∧ root.Nested ∧ ∀ o, (root.nodeAt o = none ↔ root.span.contains o = false) ∧
      ∀ w, root.nodeAt o = some w → ∃ p, (Visit.node root).subtreeAt p = some w ∧
        w.span.contains o ∧
          ∀ q c, (Visit.node root).subtreeAt q = some c → c.span.contains o → q <+: p := by
  have kept : ((Document.read "[[], {}]" 100).toOption.bind Document.first).isSome = true := by
    decide +kernel
  obtain ⟨d, read, first⟩ := read_bind_getD kept
  dsimp only
  exact ⟨by decide +kernel, first_document_nodeAt_innermost (by decide +kernel) read first⟩

end StageTree.Tree
