import StageTree.Proofs.Expansion

/-!
# Expansion builds the unfolding of a graph

The tree a node of a graph stands for is told without fuel (`unfoldAt`): while the nodes of a
path are having their copies built, a node on the path is a null carrying that node's own marks,
and any other node is made as its kind says, each of its members the tree that member stands
for with the node added to the path. A mapping's keys are not unfolded: a key is its scalar's
text, or empty. An alias is one more reference to its anchored node, so it unfolds to a fresh
copy with the anchor's marks, unless the anchor is on the path.

Expansion keeps the path as marks in an array with one entry per node (`Marks`). The fuel it is
given at the root is enough (`copy_eq_unfoldAt`): each step down marks one more of the graph's
nodes, and a marked node is not entered.

Main statement: `expand_unfolds`. Expanding a node ends with the tree it stands for whenever that
tree nests no deeper than the stack holds and costs no more than was left. Every way it ends
answers to that tree as `Costs` says, and every way it ends, with a tree or stopped for the
budget, for nesting or with a fault, leaves the marks as they were before.
-/

namespace StageTree.Tree

open Yaml

/-- Marking one more node of the graph, not on the path, leaves fewer nodes off the path. -/
theorem card_sdiff_insert_lt {size i : Nat} {path : Finset Nat} (inside : i < size)
    (off : i ∉ path) :
    (Finset.range size \ insert i path).card < (Finset.range size \ path).card := by
  have mem : i ∈ Finset.range size \ path :=
    Finset.mem_sdiff.2 ⟨Finset.mem_range.2 inside, off⟩
  rw [Finset.sdiff_insert]
  exact Finset.card_erase_lt_of_mem mem

/-- The tree node `i` of a graph stands for while the nodes of `path` are having their copies
built: a null with the node's marks when the node is on the path, and else the node as its kind
says, each member the tree it stands for with the node added to the path. An index that names
no node is a null. -/
def unfoldAt (g : Graph) (path : Finset Nat) (i : Nat) : Except Fault Node :=
  if inside : i < g.nodes.size then
    if i ∈ path then .ok (.null (spanOf g.nodes[i]))
    else copyNode g (fun j => unfoldAt g (insert i path) j) g.nodes[i]
  else .ok (.null ⟨0, 0⟩)
termination_by (Finset.range g.nodes.size \ path).card
decreasing_by exact card_sdiff_insert_lt inside ‹i ∉ path›

theorem unfoldAt_of_none {g : Graph} {path : Finset Nat} {i : Nat} (node : g.nodes[i]? = none) :
    unfoldAt g path i = .ok (.null ⟨0, 0⟩) := by
  rw [unfoldAt, dif_neg (by simpa using node)]

theorem unfoldAt_of_mem {g : Graph} {path : Finset Nat} {i : Nat} {n : GraphNode}
    (node : g.nodes[i]? = some n) (on : i ∈ path) :
    unfoldAt g path i = .ok (.null (spanOf n)) := by
  obtain ⟨inside, rfl⟩ := Array.getElem?_eq_some_iff.1 node
  rw [unfoldAt, dif_pos inside, if_pos on]

theorem unfoldAt_of_not_mem {g : Graph} {path : Finset Nat} {i : Nat} {n : GraphNode}
    (node : g.nodes[i]? = some n) (off : i ∉ path) :
    unfoldAt g path i = copyNode g (unfoldAt g (insert i path)) n := by
  obtain ⟨inside, rfl⟩ := Array.getElem?_eq_some_iff.1 node
  rw [unfoldAt, dif_pos inside, if_neg off]

/-- The marks `b` of an expansion hold the path: one entry per node of the graph, set exactly for
the nodes on the path. -/
structure Marks (g : Graph) (b : Array Bool) (path : Finset Nat) : Prop where
  size : b.size = g.nodes.size
  mem : ∀ j < g.nodes.size, b.getD j false = true ↔ j ∈ path

/-- No node is marked before expansion starts from the root. -/
theorem Marks.replicate (g : Graph) : Marks g (Array.replicate g.nodes.size false) ∅ :=
  ⟨Array.size_replicate, fun j _ => by rw [replicate_unmarked]; simp⟩

/-- Marking a node of the graph puts it on the path. -/
theorem Marks.insert {g : Graph} {b : Array Bool} {path : Finset Nat} (marks : Marks g b path)
    {i : Nat} (inside : i < g.nodes.size) :
    Marks g (b.setIfInBounds i true) (insert i path) := by
  refine ⟨by rw [Array.size_setIfInBounds, marks.size], fun j below => ?_⟩
  rw [Finset.mem_insert, Array.getD_eq_getD_getElem?, Array.getElem?_setIfInBounds]
  by_cases same : i = j
  · subst same
    rw [if_pos rfl, if_pos (by rw [marks.size]; exact inside)]
    simp
  · rw [if_neg same, ← Array.getD_eq_getD_getElem?, marks.mem j below]
    constructor
    · exact Or.inr
    · rintro (rfl | on)
      · exact absurd rfl same
      · exact on

/-- With fuel past the number of nodes off the path, copying node `i` gives the tree it stands
for: each step down marks one more node, so the fuel never runs out before a marked node or a
scalar is met. -/
theorem copy_eq_unfoldAt (g : Graph) : ∀ (fuel : Nat) {b : Array Bool} {path : Finset Nat},
    Marks g b path → (Finset.range g.nodes.size \ path).card < fuel →
    ∀ i, copy g fuel b i = unfoldAt g path i
  | 0, _, _, _, enough, _ => absurd enough (Nat.not_lt_zero _)
  | fuel + 1, b, path, marks, enough, i => by
    cases node : g.nodes[i]? with
    | none =>
      rw [unfoldAt_of_none node, copy, node]
    | some n =>
      have inside : i < g.nodes.size := (Array.getElem?_eq_some_iff.1 node).1
      by_cases on : i ∈ path
      · have marked : b.getD i false = true := (marks.mem i inside).2 on
        rw [unfoldAt_of_mem node on, copy, node]
        dsimp only
        rw [if_pos marked]
      · -- one more node marked, and one unit of fuel spent
        have unmarked : b.getD i false = false :=
          Bool.eq_false_iff.2 fun marked => on ((marks.mem i inside).1 marked)
        have fewer := card_sdiff_insert_lt inside on
        rw [unfoldAt_of_not_mem node on, copy_of_unmarked node unmarked]
        congr 1
        funext j
        exact copy_eq_unfoldAt g fuel (marks.insert inside) (by omega) j

/-- The tree a graph copies to from its root is the tree its root stands for with nothing on the
path. -/
theorem unfold_eq_unfoldAt (g : Graph) : Node.unfold g = unfoldAt g ∅ g.root :=
  copy_eq_unfoldAt g (g.nodes.size + 1) (Marks.replicate g) (by simp) g.root

/-- Expanding node `i` of a graph while the nodes of `path` have their copies being built, with
fuel past the number of nodes off the path, answers to the tree the node stands for. It ends
with that tree, paying its size, whenever the tree nests no deeper than the stack holds and
costs no more than was left; every way it ends is as `Costs` says of that tree; and however it
ends, with the tree or stopped, the marks of the nodes being built are as they were. -/
theorem expand_unfolds (g : Graph) {b : Array Bool} {path : Finset Nat} (marks : Marks g b path)
    {fuel : Nat} (enough : (Finset.range g.nodes.size \ path).card < fuel) (calls i : Nat)
    (r : Int) :
    (∀ t, unfoldAt g path i = .ok t → calls + t.reach ≤ maxCalls → (t.size : Int) ≤ r →
      (expand g fuel calls i).run ⟨r, b⟩ = .ok t ⟨r - t.size, b⟩) ∧
    Costs Node.size (fun t => calls + t.reach ≤ maxCalls) ⟨r, b⟩ (unfoldAt g path i)
      ((expand g fuel calls i).run ⟨r, b⟩) ∧
    (after ((expand g fuel calls i).run ⟨r, b⟩)).building = b := by
  have costs := expand_costs g fuel calls i r b
  rw [copy_eq_unfoldAt g fuel marks enough i] at costs
  refine ⟨fun t made fit within => ?_, costs, costs.building⟩
  rw [made] at costs
  exact costs.eq_ok fit within

/-- The graph `a: &x\n  b: *x\n` composes to: a mapping of the key `a` to the anchored mapping
`x`, whose key `b` refers back to `x` itself. -/
def selfAlias : Graph :=
  ⟨#[.mapping #[(1, 2)] ⟨0, 0, 0⟩ ⟨14, 2, 0⟩,
    .scalar Resolve.strTag (Text.Str.ofString "a") ⟨0, 0, 0⟩ ⟨1, 0, 1⟩,
    .mapping #[(3, 2)] ⟨3, 0, 3⟩ ⟨14, 2, 0⟩,
    .scalar Resolve.strTag (Text.Str.ofString "b") ⟨8, 1, 2⟩ ⟨9, 1, 3⟩], 0⟩

/-- Expanding `a: &x\n  b: *x\n` from its root with nothing marked and 100 units answers to the
tree its root stands for, with the marks left unset. -/
theorem expand_unfolds_selfAlias :
    Marks selfAlias (Array.replicate selfAlias.nodes.size false) ∅ ∧
    (Finset.range selfAlias.nodes.size \ ∅).card < selfAlias.nodes.size + 1 ∧
    ((∀ t, unfoldAt selfAlias ∅ 0 = .ok t → 1 + t.reach ≤ maxCalls → (t.size : Int) ≤ 100 →
      (expand selfAlias (selfAlias.nodes.size + 1) 1 0).run
          ⟨100, Array.replicate selfAlias.nodes.size false⟩ =
        .ok t ⟨100 - t.size, Array.replicate selfAlias.nodes.size false⟩) ∧
    Costs Node.size (fun t => 1 + t.reach ≤ maxCalls)
      ⟨100, Array.replicate selfAlias.nodes.size false⟩ (unfoldAt selfAlias ∅ 0)
      ((expand selfAlias (selfAlias.nodes.size + 1) 1 0).run
        ⟨100, Array.replicate selfAlias.nodes.size false⟩) ∧
    (after ((expand selfAlias (selfAlias.nodes.size + 1) 1 0).run
        ⟨100, Array.replicate selfAlias.nodes.size false⟩)).building =
      Array.replicate selfAlias.nodes.size false) :=
  ⟨Marks.replicate selfAlias, by simp,
    expand_unfolds selfAlias (Marks.replicate selfAlias) (by simp) 1 0 100⟩

end StageTree.Tree
