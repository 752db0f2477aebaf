import Mathlib
import StageTree.Proofs.Walk

/-!
# Addresses of the visits of a tree

A visit's place in its tree is its address: the indices of the children taken on the way down to
it from the top. Two visits of one tree can be equal as values (an alias copied next to its
anchor, two equal scalars), so it is the address, not the visit, that tells the nodes of a tree
apart. `Visit.addresses` lists a subtree's addresses in pre-order.

Main statement: `Visit.walk_visits_subtree_in_preorder`. The stack walk of a visit is the
recursive pre-order over its children (`Visit.walk_eq_cons`), and its visits are, in order, the
visits at the subtree's addresses: every node of the subtree comes once, and after the nodes
above it.
-/

namespace StageTree.Tree

namespace Visit

/-- A visit's subtree has one visit more than its children's subtrees together. -/
theorem count_eq (v : Visit) : v.count = (v.children.map count).sum + 1 := by
  rw [count, preorder_eq_cons, List.length_cons, List.length_flatMap]
  rfl

theorem count_lt_of_mem {v c : Visit} (mem : c ∈ v.children) : c.count < v.count := by
  have le := List.le_sum_of_mem (List.mem_map_of_mem (f := count) mem)
  rw [count_eq v]
  omega

/-- The walk of a visit is the visit, then the walks of its children in turn. -/
theorem walk_eq_cons (v : Visit) : v.walk = v :: v.children.flatMap walk := by
  have same : walk = preorder := funext walk_eq_preorder
  rw [same, preorder_eq_cons]

/-- The visit at an address below a visit: each index of the address picks a child, from the top
down. -/
def subtreeAt (v : Visit) : List Nat → Option Visit
  | [] => some v
  | i :: rest => v.children[i]?.bind fun c => c.subtreeAt rest

@[simp] theorem subtreeAt_nil (v : Visit) : v.subtreeAt [] = some v := rfl

@[simp] theorem subtreeAt_cons (v : Visit) (i : Nat) (rest : List Nat) :
    v.subtreeAt (i :: rest) = v.children[i]?.bind fun c => c.subtreeAt rest := rfl

end Visit

/-- The addresses of siblings' subtrees, in order, each put under its sibling's index. -/
def indexed (ass : List (List (List Nat))) : List (List Nat) :=
  ass.zipIdx.flatMap fun x => x.1.map (x.2 :: ·)

theorem indexed_map {α : Type} (f : α → List (List Nat)) (l : List α) :
    indexed (l.map f) = l.zipIdx.flatMap fun x => (f x.1).map (x.2 :: ·) := by
  rw [indexed, List.zipIdx_map, List.flatMap_map]
  rfl

theorem mem_indexed {ass : List (List (List Nat))} {p : List Nat} :
    p ∈ indexed ass ↔ ∃ i q as, p = i :: q ∧ ass[i]? = some as ∧ q ∈ as := by
  simp only [indexed, List.mem_flatMap, List.mem_map, List.mem_zipIdx_iff_getElem?]
  constructor
  · rintro ⟨⟨as, i⟩, found, q, mem, rfl⟩
    exact ⟨i, q, as, rfl, found, mem⟩
  · rintro ⟨i, q, as, rfl, found, mem⟩
    exact ⟨(as, i), found, q, mem, rfl⟩

/-- Sibling subtrees whose addresses are each listed once are, under their indices, listed once. -/
theorem nodup_indexed {ass : List (List (List Nat))} (each : ∀ as ∈ ass, as.Nodup) :
    (indexed ass).Nodup := by
  rw [indexed, List.nodup_flatMap]
  refine ⟨fun x mem => (each x.1 ?_).map List.cons_injective, ?_⟩
  · rw [List.fst_eq_of_mem_zipIdx mem]
    exact List.getElem_mem _
  · -- two siblings have different indices, so no address lies under both
    have apart : (ass.zipIdx.map Prod.snd).Nodup := by
      rw [List.zipIdx_map_snd]
      exact List.nodup_range'
    refine (List.pairwise_map.1 apart).imp fun {x y} differ => ?_
    simp only [Function.onFun, List.disjoint_left, List.mem_map]
    rintro _ ⟨q, -, rfl⟩ ⟨q', -, same⟩
    exact differ (List.cons.inj same).1.symm

/-- The addresses under one sibling, in order, are part of the siblings' addresses. -/
theorem sublist_indexed {ass : List (List (List Nat))} {i : Nat} {as : List (List Nat)}
    (found : ass[i]? = some as) : List.Sublist (as.map (i :: ·)) (indexed ass) := by
  rw [indexed, List.flatMap_def]
  apply List.sublist_flatten_of_mem
  exact List.mem_map_of_mem (f := fun x : List (List Nat) × Nat => x.1.map (x.2 :: ·))
    (List.mem_zipIdx_iff_getElem? (x := (as, i)).2 found)

namespace Visit

/-- The addresses of a visit's subtree in pre-order: its own, empty, then those of its children's
subtrees in turn, each under the child's index. -/
def addresses (v : Visit) : List (List Nat) :=
  [] :: indexed (v.children.attach.map fun c => addresses c.1)
termination_by v.count
decreasing_by exact count_lt_of_mem c.2

theorem addresses_eq (v : Visit) : v.addresses = [] :: indexed (v.children.map addresses) := by
  rw [addresses, List.attach_map_val]

/-- A non-empty address of a subtree is a child's index, then an address of that child's
subtree. -/
theorem cons_mem_addresses {v : Visit} {i : Nat} {q : List Nat} :
    i :: q ∈ v.addresses ↔ ∃ c, v.children[i]? = some c ∧ q ∈ c.addresses := by
  rw [addresses_eq, List.mem_cons, mem_indexed]
  simp only [reduceCtorEq, false_or, List.cons.injEq, List.getElem?_map, Option.map_eq_some_iff]
  constructor
  · rintro ⟨_, _, _, ⟨rfl, rfl⟩, ⟨c, found, rfl⟩, mem⟩
    exact ⟨c, found, mem⟩
  · rintro ⟨c, found, mem⟩
    exact ⟨i, q, c.addresses, ⟨rfl, rfl⟩, ⟨c, found, rfl⟩, mem⟩

/-- The addresses listed for a subtree are exactly those that lead to a visit of it. -/
theorem mem_addresses {v : Visit} {p : List Nat} : p ∈ v.addresses ↔ (v.subtreeAt p).isSome := by
  induction p generalizing v with
  | nil => simp [addresses_eq]
  | cons i q ih =>
    rw [cons_mem_addresses, subtreeAt_cons]
    cases v.children[i]? with
    | none => simp
    | some c => simp [ih]

/-- Each address of a subtree is listed once. -/
theorem nodup_addresses (v : Visit) : v.addresses.Nodup := by
  induction v using addresses.induct with
  | case1 v ih =>
    rw [addresses_eq, List.nodup_cons]
    refine ⟨fun mem => ?_, nodup_indexed ?_⟩
    · obtain ⟨_, _, _, nonempty, -⟩ := mem_indexed.1 mem
      exact List.cons_ne_nil _ _ nonempty.symm
    · intro as mem
      obtain ⟨c, child, rfl⟩ := List.mem_map.1 mem
      exact ih ⟨c, child⟩

/-- The visits at a subtree's addresses, in order, are its walk. -/
theorem map_subtreeAt_addresses (v : Visit) : v.addresses.map v.subtreeAt = v.walk.map some := by
  induction v using addresses.induct with
  | case1 v ih =>
    rw [addresses_eq, walk_eq_cons, List.map_cons, List.map_cons, subtreeAt_nil, indexed_map,
      List.map_flatMap, List.map_flatMap]
    congr 1
    -- under the child at index `i`, the address `i :: q` leads where `q` leads from the child
    have under : ∀ x ∈ v.children.zipIdx,
        ((x.1.addresses).map (x.2 :: ·)).map v.subtreeAt = (x.1.walk).map some := by
      intro x mem
      have found : v.children[x.2]? = some x.1 := List.mem_zipIdx_iff_getElem?.1 mem
      have child : x.1 ∈ v.children := List.mem_of_getElem? found
      rw [List.map_map, ← ih ⟨x.1, child⟩]
      congr 1
      funext q
      simp [found]
    rw [List.flatMap_congr under, ← List.flatMap_map Prod.fst (fun c : Visit => c.walk.map some),
      List.zipIdx_map_fst]

/-- An address of a subtree comes after the address of every visit above it. -/
theorem sublist_addresses_of_prefix {v : Visit} {p q : List Nat} (mem : p ∈ v.addresses)
    (above : q <+: p) (proper : q ≠ p) : List.Sublist [q, p] v.addresses := by
  induction q generalizing v p with
  | nil =>
    -- the root's address is listed first, and `p` among the rest
    rw [addresses_eq] at mem ⊢
    have rest : p ∈ indexed (v.children.map addresses) := by
      rcases List.mem_cons.1 mem with same | rest
      · exact absurd same.symm proper
      · exact rest
    exact (List.singleton_sublist.2 rest).cons_cons []
  | cons i q ih =>
    obtain ⟨tail, rfl⟩ := above
    obtain ⟨c, found, inChild⟩ := cons_mem_addresses.1 mem
    have below := ih inChild (List.prefix_append q tail) (fun same => proper (congrArg (i :: ·) same))
    have block : List.Sublist ((c.addresses).map (i :: ·)) (indexed (v.children.map addresses)) :=
      sublist_indexed (by rw [List.getElem?_map, found]; rfl)
    rw [addresses_eq]
    exact ((below.map (i :: ·)).trans block).cons []

/-- The walk of a visit is its subtree in pre-order, taken child by child: the visit, then the
walks of its children in turn. Its visits are, in order, those at the addresses
`Visit.addresses` lists, so every node of the subtree is visited: each address is listed once,
all that lead to a visit of the subtree are, and every address comes after the addresses of the
visits above it. -/
theorem walk_visits_subtree_in_preorder (v : Visit) :
    v.walk = v :: v.children.flatMap walk ∧
    v.addresses.map v.subtreeAt = v.walk.map some ∧
    v.addresses.Nodup ∧
    (∀ p, p ∈ v.addresses ↔ (v.subtreeAt p).isSome) ∧
    ∀ p ∈ v.addresses, ∀ q, q <+: p → q ≠ p → List.Sublist [q, p] v.addresses :=
  ⟨walk_eq_cons v, map_subtreeAt_addresses v, nodup_addresses v, fun _ => mem_addresses,
    fun _ mem _ above proper => sublist_addresses_of_prefix mem above proper⟩

end Visit

end StageTree.Tree
