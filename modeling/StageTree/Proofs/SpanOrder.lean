import Mathlib
import StageTree.Proofs.Scope
import StageTree.Proofs.Unfolding

/-!
# Spans in the order of the text

Items that each span a stretch of the text stand in order (`InOrder`) when each starts no later
than it stops and stops no later than any later one starts. Spans lie in order inside a span
(`Span.Holds`) when, besides, each lies inside it. Tokens, events, the members of a collection
and the members of a collection still being read are all kept in order this way.

A document graph nests (`Graph.Nests`) when the members of each of its collections (a
sequence's items; a mapping's keys and values, in turn) lie in order inside the collection's
span. Unfolding such a graph gives a nested tree: a pair spans from its key to its value, so
the pairs of an object lie in order inside it too, and each key lies before its value. A null
standing for a node on the way down has no children, so no node needs to be unfolded only once.

Main statement: `unfoldAt_nested`.
-/

namespace StageTree.Tree

open Yaml Visit

/-- Items stand in the order of the text: each item's span starts no later than it stops, and
stops no later than any later item's starts. -/
def InOrder {α : Type} (span : α → Span) (l : List α) : Prop :=
  (∀ a ∈ l, (span a).start ≤ (span a).stop) ∧ l.Pairwise fun a b => (span a).stop ≤ (span b).start

section InOrder

variable {α : Type} {span : α → Span}

@[simp]
theorem inOrder_nil : InOrder span [] := ⟨by simp, List.Pairwise.nil⟩

theorem inOrder_cons {a : α} {l : List α} :
    InOrder span (a :: l) ↔
      (span a).start ≤ (span a).stop ∧ (∀ b ∈ l, (span a).stop ≤ (span b).start) ∧ InOrder span l := by
  simp only [InOrder, List.forall_mem_cons, List.pairwise_cons]
  tauto

theorem inOrder_append {l m : List α} :
    InOrder span (l ++ m) ↔
      InOrder span l ∧ InOrder span m ∧ ∀ a ∈ l, ∀ b ∈ m, (span a).stop ≤ (span b).start := by
  simp only [InOrder, List.forall_mem_append, List.pairwise_append]
  tauto

theorem InOrder.sublist {l m : List α} (ordered : InOrder span m) (sub : List.Sublist l m) :
    InOrder span l :=
  ⟨fun a mem => ordered.1 a (sub.subset mem), ordered.2.sublist sub⟩

end InOrder

namespace Span

/-- Spans lie in order inside `outer`, which starts no later than it stops. -/
structure Holds (outer : Span) (spans : List Span) : Prop where
  ordered : outer.start ≤ outer.stop
  inside : ∀ s ∈ spans, outer.start ≤ s.start ∧ s.stop ≤ outer.stop
  inOrder : InOrder id spans

theorem holds_nil {outer : Span} (ordered : outer.start ≤ outer.stop) : outer.Holds [] :=
  ⟨ordered, by simp, inOrder_nil⟩

/-- Spans in order inside a span lie inside any span reaching further on. -/
theorem Holds.extend {start stop stop' : Nat} {spans : List Span} (holds : Holds ⟨start, stop⟩ spans)
    (le : stop ≤ stop') : Holds ⟨start, stop'⟩ spans :=
  ⟨by have := holds.ordered; dsimp only at *; omega,
    fun s mem => by have := holds.inside s mem; dsimp only at *; omega, holds.inOrder⟩

/-- A span starting no earlier than the end of the spans in order inside `⟨start, stop⟩`, and
stopping no later than `stop'`, follows them in order inside `⟨start, stop'⟩`. -/
theorem Holds.snoc {start stop stop' : Nat} {spans : List Span} {s : Span}
    (holds : Holds ⟨start, stop⟩ spans) (after : stop ≤ s.start) (ordered : s.start ≤ s.stop)
    (before : s.stop ≤ stop') : Holds ⟨start, stop'⟩ (spans ++ [s]) := by
  have first := holds.ordered
  dsimp only at first
  refine ⟨by dsimp only; omega, fun t mem => ?_, inOrder_append.2 ⟨holds.inOrder, ?_, ?_⟩⟩
  · rcases List.mem_append.1 mem with old | new
    · have := holds.inside t old
      dsimp only at *
      omega
    · rw [List.mem_singleton.1 new]
      dsimp only
      omega
  · exact inOrder_cons.2 ⟨ordered, by simp, inOrder_nil⟩
  · intro t old u new
    rw [List.mem_singleton.1 new]
    have := holds.inside t old
    simp only [id_eq] at *
    omega

theorem Holds.sublist {outer : Span} {spans spans' : List Span} (holds : outer.Holds spans)
    (sub : List.Sublist spans' spans) : outer.Holds spans' :=
  ⟨holds.ordered, fun s mem => holds.inside s (sub.subset mem), holds.inOrder.sublist sub⟩

end Span

/-! ## Nested trees from spans in order -/

theorem pairsPreorder_fits {entries : List (Key × Node)}
    (pairs : ∀ e ∈ entries, (pair e.1 e.2).Fits) (values : ∀ e ∈ entries, e.2.Nested) :
    ∀ w ∈ pairsPreorder entries, w.Fits := by
  induction entries with
  | nil => simp [pairsPreorder]
  | cons e rest ih =>
    rw [pairsPreorder_fits_cons]
    exact ⟨pairs e List.mem_cons_self, values e List.mem_cons_self,
      ih (fun e' mem => pairs e' (List.mem_cons_of_mem _ mem))
        (fun e' mem => values e' (List.mem_cons_of_mem _ mem))⟩

theorem itemsPreorder_fits {items : List Node} (each : ∀ n ∈ items, n.Nested) :
    ∀ w ∈ itemsPreorder items, w.Fits := by
  induction items with
  | nil => simp [itemsPreorder]
  | cons n rest ih =>
    rw [itemsPreorder_fits_cons]
    exact ⟨each n List.mem_cons_self, ih fun n' mem => each n' (List.mem_cons_of_mem _ mem)⟩

/-- An object is nested when the spans of its keys and values, in turn, lie in order inside its
span and its values are nested: each pair then spans from its key to its value, inside the
object and apart from the other pairs. -/
theorem nested_object_of_holds {s : Span} {entries : List (Key × Node)}
    (holds : s.Holds (entries.flatMap fun e => [e.1.span, e.2.span]))
    (values : ∀ e ∈ entries, e.2.Nested) : (Node.object s entries).Nested := by
  obtain ⟨_, inside, each, ordered⟩ := holds
  simp only [List.mem_flatMap, List.mem_cons, List.not_mem_nil, or_false] at inside
  simp only [List.mem_flatMap, List.mem_cons, List.not_mem_nil, or_false, id] at each
  rw [List.pairwise_flatMap] at ordered
  refine Node.nested_object.2 ⟨fits_object.2 ⟨fun e mem => ?_, ?_⟩,
    pairsPreorder_fits (fun e mem => ?_) values⟩
  · -- a pair starts with its key and stops with its value, both inside the object
    have key := inside e.1.span ⟨e, mem, .inl rfl⟩
    have value := inside e.2.span ⟨e, mem, .inr rfl⟩
    simp only [Span.Inside, pairSpan]
    omega
  · -- an earlier pair's value stops before a later pair's key starts
    refine ordered.2.imp fun {a b} before => ?_
    have := before a.2.span (by simp) b.1.span (by simp)
    simp only [Span.Apart, pairSpan, id_eq] at this ⊢
    omega
  · -- within a pair, the key stops before the value starts
    have inPair := (ordered.1 e mem)
    simp only [List.pairwise_cons, List.mem_singleton, forall_eq, List.not_mem_nil, id] at inPair
    have key := each e.1.span ⟨e, mem, .inl rfl⟩
    have value := each e.2.span ⟨e, mem, .inr rfl⟩
    rw [fits_pair]
    simp only [Span.Inside, Span.Apart, pairSpan]
    omega

/-- An array is nested when the spans of its items lie in order inside its span and its items
are nested. -/
theorem nested_array_of_holds {s : Span} {items : List Node}
    (holds : s.Holds (items.map Node.span)) (each : ∀ n ∈ items, n.Nested) :
    (Node.array s items).Nested := by
  obtain ⟨_, inside, -, ordered⟩ := holds
  refine Node.nested_array.2 ⟨fits_array.2 ⟨fun n mem => ?_, ?_⟩, itemsPreorder_fits each⟩
  · have := inside n.span (List.mem_map_of_mem mem)
    simp only [Span.Inside]
    omega
  · exact (List.pairwise_map.1 ordered).imp fun before => by simp only [Span.Apart, id] at *; omega

/-- A scalar's tree node has no children and the scalar's span. -/
theorem ofScalar_nested (s : Span) (v : Scalar) : (ofScalar s v).Nested ∧ (ofScalar s v).span = s := by
  cases v <;> simp [ofScalar, Node.Nested, nodePreorder, Fits, children, Node.span]

theorem null_nested (s : Span) : (Node.null s).Nested := by
  simp [Node.Nested, nodePreorder, Fits, children]

end StageTree.Tree

namespace StageTree.Yaml

/-- The span of a token's marks. -/
def Token.span (t : Token) : Tree.Span := ⟨t.start.index, t.stop.index⟩

/-- The span of an event's marks. -/
def Event.span (e : Event) : Tree.Span := ⟨e.start.index, e.stop.index⟩

/-- The members of a graph node, in order: a sequence's items; a mapping's keys and values, in
turn. -/
def GraphNode.members : GraphNode → List Nat
  | .scalar .. => []
  | .sequence items _ _ => items.toList
  | .mapping pairs _ _ => pairs.toList.flatMap fun (k, v) => [k, v]

/-- The span of node `i` of an array of graph nodes, or nothing when there is no such node. -/
def spanAt (nodes : Array GraphNode) (i : Nat) : Tree.Span := (nodes[i]?.map Tree.spanOf).getD ⟨0, 0⟩

/-- A graph nests when the members of each of its nodes lie in order inside the node's span. -/
def Graph.Nests (g : Graph) : Prop :=
  ∀ n ∈ g.nodes, (Tree.spanOf n).Holds (n.members.map (spanAt g.nodes))

end StageTree.Yaml

namespace StageTree.Tree

open Yaml

/-- A key has the span of the node it is. -/
theorem keyOf_span (g : Graph) (k : Nat) : (keyOf g k).span = spanAt g.nodes k := by
  unfold keyOf spanAt
  split <;> rename_i found <;> simp [found, spanOf, GraphNode.start, GraphNode.stop]

section Members

variable {g : Graph} {child : Nat → Except Fault Node}

/-- What `child` makes of every member of a graph is nested, with the member's span. -/
def Unfolds (g : Graph) (child : Nat → Except Fault Node) : Prop :=
  ∀ j t, child j = .ok t → t.Nested ∧ t.span = spanAt g.nodes j

/-- Pairs made from a mapping's pairs have nested values, and the spans of their keys and values
are those of the mapping's keys and values. -/
theorem mapM_pairs_unfold (unfolds : Unfolds g child) : ∀ {pairs : List (Nat × Nat)}
    {entries : List (Key × Node)},
    pairs.mapM (fun (k, v) => (keyOf g k, ·) <$> child v) = .ok entries →
    (∀ e ∈ entries, e.2.Nested) ∧
      entries.flatMap (fun e => [e.1.span, e.2.span]) =
        (pairs.flatMap fun (k, v) => [k, v]).map (spanAt g.nodes)
  | [], entries, made => by
    rw [List.mapM_nil] at made
    cases made
    simp
  | (k, v) :: rest, entries, made => by
    obtain ⟨e, es, head, tail, rfl⟩ := mapM_cons_eq_ok made
    obtain ⟨t, value, rfl⟩ := map_eq_ok head
    obtain ⟨nested, span⟩ := unfolds v t value
    obtain ⟨restNested, restSpans⟩ := mapM_pairs_unfold unfolds tail
    refine ⟨List.forall_mem_cons.2 ⟨nested, restNested⟩, ?_⟩
    simp [restSpans, span, keyOf_span]

/-- Items made from a sequence's items are nested, with the spans of the sequence's items. -/
theorem mapM_items_unfold (unfolds : Unfolds g child) : ∀ {items : List Nat} {ts : List Node},
    items.mapM child = .ok ts → (∀ t ∈ ts, t.Nested) ∧ ts.map Node.span = items.map (spanAt g.nodes)
  | [], ts, made => by
    rw [List.mapM_nil] at made
    cases made
    simp
  | i :: rest, ts, made => by
    obtain ⟨t, ts', head, tail, rfl⟩ := mapM_cons_eq_ok made
    obtain ⟨nested, span⟩ := unfolds i t head
    obtain ⟨restNested, restSpans⟩ := mapM_items_unfold unfolds tail
    exact ⟨List.forall_mem_cons.2 ⟨nested, restNested⟩, by simp [restSpans, span]⟩

/-- A graph node whose members lie in order inside it, its members made nested with their own
spans, copies to a nested tree with its span. -/
theorem copyNode_nested (unfolds : Unfolds g child) {n : GraphNode}
    (holds : (spanOf n).Holds (n.members.map (spanAt g.nodes))) {t : Node}
    (made : copyNode g child n = .ok t) : t.Nested ∧ t.span = spanOf n := by
  cases n with
  | mapping pairs s e =>
    obtain ⟨entries, run, rfl⟩ := map_eq_ok made
    obtain ⟨values, spans⟩ := mapM_pairs_unfold unfolds run
    refine ⟨nested_object_of_holds ?_ values, rfl⟩
    rw [spans]
    exact holds
  | sequence items s e =>
    obtain ⟨ts, run, rfl⟩ := map_eq_ok made
    obtain ⟨each, spans⟩ := mapM_items_unfold unfolds run
    refine ⟨nested_array_of_holds ?_ each, rfl⟩
    rw [spans]
    exact holds
  | scalar tag value s e =>
    obtain ⟨v, -, rfl⟩ := map_eq_ok made
    exact ofScalar_nested _ v

end Members

/-- Unfolding a node of a nesting graph gives a nested tree with the node's span: whatever is on
the path, since a node on it unfolds to a null with the node's span and no children. -/
theorem unfoldAt_nested {g : Graph} (nests : g.Nests) (path : Finset Nat) :
    Unfolds g (unfoldAt g path) := by
  intro i
  induction path, i using unfoldAt.induct g with
  | case1 path i inside on =>
    intro t made
    rw [unfoldAt_of_mem (Array.getElem?_eq_getElem inside) on] at made
    cases made
    exact ⟨null_nested _, by simp [spanAt, Array.getElem?_eq_getElem inside, Node.span]⟩
  | case2 path i inside off ih =>
    intro t made
    rw [unfoldAt_of_not_mem (Array.getElem?_eq_getElem inside) off] at made
    have spans := copyNode_nested ih (nests _ (Array.getElem_mem inside)) made
    exact ⟨spans.1, by simp [spans.2, spanAt, Array.getElem?_eq_getElem inside]⟩
  | case3 path i outside =>
    intro t made
    rw [unfoldAt_of_none (Array.getElem?_eq_none (Nat.le_of_not_lt outside))] at made
    cases made
    exact ⟨null_nested _, by simp [spanAt, Array.getElem?_eq_none (Nat.le_of_not_lt outside),
      Node.span]⟩

end StageTree.Tree
