import StageTree.Proofs.Blocks
import StageTree.Tree.Basic

/-!
# Walks of syntax trees

The stack walk of a tree yields its visits in pre-order: the stack always holds, nearest first,
the subtrees still to visit, and fuel enough for all of them lets the walk finish
(`Visit.walk_eq_preorder`).

A walk yields bare visits. A visit placed in its tree also carries the visits above it, nearest
first, which is what tells a pair's holder, an array's key or a pair below a `task`:
`Visit.placed` lists a subtree's visits so, in the order of the walk (`Visit.placed_visits`).
In that list every visit's own subtree stands right after it as a block (`Visit.placed_blocks`),
so the descendants of an entry are the entries that follow it within the length of its block.
-/

namespace StageTree.Tree

/-- A visit together with the visits above it in its tree, nearest first. -/
structure Placed where
  /-- The visit itself. -/
  visit : Visit
  /-- The visits above it, its parent first. -/
  above : List Visit

namespace Visit

/-- The visits of pairs in pre-order are each pair, its key and its value's subtree. -/
theorem pairsPreorder_eq (pairs : List (Key × Node)) :
    pairsPreorder pairs = pairs.flatMap fun (k, v) => pair k v :: key k :: nodePreorder v := by
  induction pairs with
  | nil => rfl
  | cons kv rest ih =>
    obtain ⟨k, v⟩ := kv
    simp [pairsPreorder, ih]

/-- The visits of items in pre-order are the items' subtrees in turn. -/
theorem itemsPreorder_eq (items : List Node) : itemsPreorder items = items.flatMap nodePreorder := by
  induction items with
  | nil => rfl
  | cons n rest ih => simp [itemsPreorder, ih]

/-- A visit's subtree in pre-order is the visit, then its children's subtrees in turn. -/
theorem preorder_eq_cons (v : Visit) : v.preorder = v :: v.children.flatMap preorder := by
  cases v with
  | node n =>
    cases n with
    | object s pairs =>
      simp [preorder, nodePreorder, children, pairsPreorder_eq, List.flatMap_map]
    | array s items =>
      simp [preorder, nodePreorder, children, itemsPreorder_eq, List.flatMap_map]
    | string => rfl
    | number => rfl
    | boolean => rfl
    | null => rfl
  | pair k v => simp [preorder, children]
  | key k => rfl

/-- With fuel for every visit still due, the stack walk yields the subtrees of the stack in
order: the stack is the list of subtrees pending, its top first. -/
theorem walkStack_eq (fuel : Nat) (stack : List Visit)
    (enough : (stack.flatMap preorder).length ≤ fuel) :
    walkStack fuel stack = stack.flatMap preorder := by
  induction fuel generalizing stack with
  | zero =>
    have empty : stack.flatMap preorder = [] := List.eq_nil_of_length_eq_zero (by omega)
    rw [empty]
    rfl
  | succ fuel ih =>
    cases stack with
    | nil => rfl
    | cons v rest =>
      have unfolded : (v :: rest).flatMap preorder = v :: (v.children ++ rest).flatMap preorder := by
        rw [List.flatMap_cons, preorder_eq_cons, List.flatMap_append]
        rfl
      rw [unfolded] at enough ⊢
      rw [walkStack, ih _ (by simp only [List.length_cons] at enough; omega)]

/-- The walk of a visit is its subtree in pre-order. -/
theorem walk_eq_preorder (v : Visit) : v.walk = v.preorder := by
  have single : [v].flatMap preorder = v.preorder := by simp
  rw [walk, walkStack_eq _ _ (by rw [single, count]; omega), single]

mutual

/-- A node's subtree placed under the visits `above`, in pre-order. -/
def nodePlaced (above : List Visit) : Node → List Placed
  | .object s pairs =>
    ⟨node (.object s pairs), above⟩ :: pairsPlaced (node (.object s pairs) :: above) pairs
  | .array s items =>
    ⟨node (.array s items), above⟩ :: itemsPlaced (node (.array s items) :: above) items
  | n => [⟨node n, above⟩]

/-- The subtrees of pairs placed under the visits `above`: each pair, its key and its value's
subtree, all below the pair. -/
def pairsPlaced (above : List Visit) : List (Key × Node) → List Placed
  | [] => []
  | (k, v) :: rest =>
    ⟨pair k v, above⟩ :: ⟨key k, pair k v :: above⟩ :: nodePlaced (pair k v :: above) v ++
      pairsPlaced above rest

/-- The subtrees of items placed under the visits `above`. -/
def itemsPlaced (above : List Visit) : List Node → List Placed
  | [] => []
  | n :: rest => nodePlaced above n ++ itemsPlaced above rest

end

/-- A visit's subtree placed under the visits `above`, in the order of the walk. -/
def placed (above : List Visit) : Visit → List Placed
  | node n => nodePlaced above n
  | pair k v => ⟨pair k v, above⟩ :: ⟨key k, pair k v :: above⟩ :: nodePlaced (pair k v :: above) v
  | key k => [⟨key k, above⟩]

mutual

/-- Placing a node's subtree keeps its visits. -/
theorem nodePlaced_visits : ∀ (above : List Visit) (n : Node),
    (nodePlaced above n).map Placed.visit = nodePreorder n
  | above, .object s pairs => by
    simp only [nodePlaced, nodePreorder, List.map_cons, pairsPlaced_visits]
  | above, .array s items => by
    simp only [nodePlaced, nodePreorder, List.map_cons, itemsPlaced_visits]
  | _, .string _ _ => rfl
  | _, .number _ _ => rfl
  | _, .boolean _ _ => rfl
  | _, .null _ => rfl

/-- Placing the subtrees of pairs keeps their visits. -/
theorem pairsPlaced_visits : ∀ (above : List Visit) (pairs : List (Key × Node)),
    (pairsPlaced above pairs).map Placed.visit = pairsPreorder pairs
  | _, [] => rfl
  | above, (k, v) :: rest => by
    simp only [pairsPlaced, pairsPreorder, List.map_cons, List.map_append, nodePlaced_visits,
      pairsPlaced_visits]

/-- Placing the subtrees of items keeps their visits. -/
theorem itemsPlaced_visits : ∀ (above : List Visit) (items : List Node),
    (itemsPlaced above items).map Placed.visit = itemsPreorder items
  | _, [] => rfl
  | above, n :: rest => by
    simp only [itemsPlaced, itemsPreorder, List.map_append, nodePlaced_visits, itemsPlaced_visits]

end

/-- The placed subtree of a visit holds the visits of its walk, in order. -/
theorem placed_visits (above : List Visit) (v : Visit) :
    (placed above v).map Placed.visit = v.walk := by
  rw [walk_eq_preorder]
  cases v with
  | node n => exact nodePlaced_visits above n
  | pair k v => simp [placed, preorder, nodePlaced_visits]
  | key k => rfl

/-- A placed subtree has one entry for each visit of the subtree. -/
theorem length_placed (above : List Visit) (v : Visit) : (placed above v).length = v.count := by
  rw [count, ← walk_eq_preorder, ← placed_visits, List.length_map]

end Visit

namespace Placed

/-- The placed subtree of an entry: the entry, then everything below it. -/
def block (p : Placed) : List Placed := Visit.placed p.above p.visit

end Placed

namespace Visit

mutual

/-- In a placed node subtree every entry's block follows it. -/
theorem nodePlaced_closed : ∀ (above : List Visit) (n : Node),
    BlocksClosed Placed.block (nodePlaced above n)
  | above, .object s pairs =>
    BlocksClosed.cons (List.prefix_refl _)
      (pairsPlaced_closed (node (.object s pairs) :: above) pairs)
  | above, .array s items =>
    BlocksClosed.cons (List.prefix_refl _)
      (itemsPlaced_closed (node (.array s items) :: above) items)
  | _, .string _ _ => BlocksClosed.cons (List.prefix_refl _) BlocksClosed.nil
  | _, .number _ _ => BlocksClosed.cons (List.prefix_refl _) BlocksClosed.nil
  | _, .boolean _ _ => BlocksClosed.cons (List.prefix_refl _) BlocksClosed.nil
  | _, .null _ => BlocksClosed.cons (List.prefix_refl _) BlocksClosed.nil

/-- In placed pair subtrees every entry's block follows it. -/
theorem pairsPlaced_closed : ∀ (above : List Visit) (pairs : List (Key × Node)),
    BlocksClosed Placed.block (pairsPlaced above pairs)
  | _, [] => BlocksClosed.nil
  | above, (k, v) :: rest => by
    have value := nodePlaced_closed (pair k v :: above) v
    have keyed : BlocksClosed Placed.block
        (⟨key k, pair k v :: above⟩ :: nodePlaced (pair k v :: above) v) :=
      BlocksClosed.cons ⟨_, rfl⟩ value
    have whole := BlocksClosed.cons (p := ⟨pair k v, above⟩) (List.prefix_refl _) keyed
    exact whole.append (pairsPlaced_closed above rest)

/-- In placed item subtrees every entry's block follows it. -/
theorem itemsPlaced_closed : ∀ (above : List Visit) (items : List Node),
    BlocksClosed Placed.block (itemsPlaced above items)
  | _, [] => BlocksClosed.nil
  | above, n :: rest => (nodePlaced_closed above n).append (itemsPlaced_closed above rest)

end

/-- In a placed subtree every entry's block follows it, so the entries below an entry are those
within its block's length after it. -/
theorem placed_blocks (above : List Visit) (v : Visit) :
    BlocksClosed Placed.block (placed above v) := by
  cases v with
  | node n => exact nodePlaced_closed above n
  | pair k v =>
    exact BlocksClosed.cons (List.prefix_refl _)
      (BlocksClosed.cons ⟨_, rfl⟩ (nodePlaced_closed (pair k v :: above) v))
  | key k => exact BlocksClosed.cons (List.prefix_refl _) BlocksClosed.nil

end Visit

end StageTree.Tree
