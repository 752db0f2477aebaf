import Mathlib.Data.List.Forall2
import StageTree.Outline.Basic
import StageTree.Proofs.Blocks

/-!
# What flattening keeps

`Outline.flattenArrays` takes wrappers out of a tree, children first. Which nodes it keeps is
decided by each node's place among its siblings before anything moves: a wrapper goes unless it
is the first of several children (`Outline.keepsAt`). `Outline.marked` lists the nodes below a
root in pre-order, each marked so, and `Outline.kept` lists the ones marked kept; only wrappers
are marked to go (`Outline.marked_dropped`).

Main statement: `Outline.flattenArrays_keeps`, that the nodes below the flattened root are, in
pre-order, the kept nodes, each showing the same key, value, range and wrapper mark, and each
with at least as many nodes below it as it had kept nodes below it. A wrapper's children handed
to the sibling kept before it only add to that sibling's subtree, and they keep their own. By
positions (`Outline.flattenArrays_encloses`): a kept node that was below a kept node is below
it after flattening.
-/

namespace StageTree.Outline

open List (Forall₂)

/-- What a node shows of itself, without its children: key, value, range and wrapper mark. -/
structure Head where
  key : String
  value : Option Text.Str
  range : Range
  isArray : Bool

/-- The head of a node. -/
def head (o : Outline) : Head := ⟨o.key, o.value, o.range, o.isArray⟩

mutual

/-- A tree's nodes in pre-order, each with its subtree. -/
def nodes : Outline → List Outline
  | ⟨k, v, r, a, cs⟩ => ⟨k, v, r, a, cs⟩ :: nodesOf cs

/-- The nodes of trees in pre-order. -/
def nodesOf : List Outline → List Outline
  | [] => []
  | o :: rest => nodes o ++ nodesOf rest

end

/-- A tree's nodes are its root, then the nodes of its children. -/
theorem nodes_eq (o : Outline) : nodes o = o :: nodesOf o.children := by
  cases o; rfl

@[simp] theorem nodesOf_nil : nodesOf [] = [] := rfl

@[simp] theorem nodesOf_cons (o : Outline) (rest : List Outline) :
    nodesOf (o :: rest) = o :: nodesOf o.children ++ nodesOf rest := by
  rw [nodesOf, nodes_eq, List.cons_append]

@[simp] theorem nodesOf_append (l m : List Outline) : nodesOf (l ++ m) = nodesOf l ++ nodesOf m := by
  induction l with
  | nil => rfl
  | cons o rest ih => simp [ih]

mutual

/-- The pre-order listing of a tree, depths aside, is its nodes. -/
theorem preorderOne_fst : ∀ (depth : Nat) (o : Outline),
    (preorderOne depth o).map Prod.fst = nodes o
  | depth, ⟨k, v, r, a, cs⟩ => by
    simp only [preorderOne, nodes, List.map_cons, preorder_fst]

/-- The pre-order listing of trees, depths aside, is their nodes. -/
theorem preorder_fst : ∀ (depth : Nat) (cs : List Outline),
    (preorder depth cs).map Prod.fst = nodesOf cs
  | _, [] => rfl
  | depth, o :: rest => by
    simp only [preorder, List.map_append, preorderOne_fst, preorder_fst, nodesOf]

end

/-- Flattening keeps a node's head. -/
@[simp] theorem head_flattenArrays (o : Outline) : (flattenArrays o).head = o.head := by
  cases o; rfl

/-- Flattening a node flattens its children, then collapses them. -/
theorem children_flattenArrays (o : Outline) :
    (flattenArrays o).children = collapse (flattenEach o.children) := by
  cases o; rfl

/-- Flattening trees one by one is mapping flattening over them. -/
theorem flattenEach_eq_map (cs : List Outline) : flattenEach cs = cs.map flattenArrays := by
  induction cs with
  | nil => rfl
  | cons o rest ih => rw [flattenEach, ih, List.map_cons]

/-- Whether flattening keeps a node standing at place `i` among `m` children: anything but a
wrapper, and a wrapper only as the first of several. -/
def keepsAt (m i : Nat) (c : Outline) : Bool := !c.isArray || (i == 0 && m != 1)

mutual

/-- The nodes below a tree's root in pre-order, each marked with whether flattening keeps it. -/
def marked : Outline → List (Outline × Bool)
  | ⟨_, _, _, _, cs⟩ => markedAmong cs.length 0 cs

/-- The nodes of trees standing at places `i`, `i + 1`, … among `m` children, marked. -/
def markedAmong (m i : Nat) : List Outline → List (Outline × Bool)
  | [] => []
  | c :: rest => (c, keepsAt m i c) :: marked c ++ markedAmong m (i + 1) rest

end

/-- The nodes below a tree's root that flattening keeps, in pre-order. -/
def kept (o : Outline) : List Outline := ((marked o).filter Prod.snd).map Prod.fst

theorem marked_eq (o : Outline) : marked o = markedAmong o.children.length 0 o.children := by
  cases o; rfl

mutual

/-- Marking lists the nodes below the root. -/
theorem marked_fst : ∀ o : Outline, (marked o).map Prod.fst = nodesOf o.children
  | ⟨_, _, _, _, cs⟩ => markedAmong_fst cs.length 0 cs

/-- Marking lists the nodes of the trees. -/
theorem markedAmong_fst : ∀ (m i : Nat) (cs : List Outline),
    (markedAmong m i cs).map Prod.fst = nodesOf cs
  | _, _, [] => rfl
  | m, i, c :: rest => by
    simp only [markedAmong, List.map_cons, List.map_append, marked_fst, markedAmong_fst,
      nodesOf_cons]

end

mutual

/-- Only wrappers are marked to go. -/
theorem marked_dropped : ∀ o : Outline, ∀ x ∈ marked o, x.2 = false → x.1.isArray = true
  | ⟨_, _, _, _, cs⟩ => markedAmong_dropped cs.length 0 cs

/-- Only wrappers among trees are marked to go. -/
theorem markedAmong_dropped : ∀ (m i : Nat) (cs : List Outline),
    ∀ x ∈ markedAmong m i cs, x.2 = false → x.1.isArray = true
  | _, _, [] => fun _ h => absurd h List.not_mem_nil
  | m, i, c :: rest => by
    intro x hx goes
    simp only [markedAmong, List.cons_append, List.mem_cons, List.mem_append] at hx
    rcases hx with rfl | inside | later
    · simp only [keepsAt, Bool.or_eq_false_iff, Bool.not_eq_false'] at goes
      exact goes.1
    · exact marked_dropped c x inside goes
    · exact markedAmong_dropped m (i + 1) rest x later goes

end

/-- The kept nodes among trees are each kept tree with its kept nodes, and the kept nodes of
each dropped tree. -/
theorem markedAmong_kept_cons (m i : Nat) (c : Outline) (rest : List Outline) :
    ((markedAmong m i (c :: rest)).filter Prod.snd).map Prod.fst =
      (if keepsAt m i c then c :: kept c else kept c) ++
        ((markedAmong m (i + 1) rest).filter Prod.snd).map Prod.fst := by
  by_cases keeps : keepsAt m i c = true
  · simp [markedAmong, List.filter_append, kept, keeps]
  · simp [markedAmong, List.filter_append, kept, keeps]

/-- A flattened node stands for a node before flattening: it shows the same head and has at
least as many nodes below it as the node had kept nodes below it. -/
def Keeps (after before : Outline) : Prop :=
  after.head = before.head ∧ (kept before).length ≤ (nodesOf after.children).length

/-- Each tree flattened, its nodes below the root standing for the kept ones. -/
abbrev FlattensWell (c : Outline) : Prop := Forall₂ Keeps (nodesOf (flattenArrays c).children) (kept c)

/-- Handing the children of wrappers after a kept node to the node kept before them: the
absorbing node `last` stands for `before` with the nodes `below` under it, the nodes of the
collected `done` stand for `first`, and the result stands for all of these followed by the
kept nodes of the later trees. -/
theorem absorb_keeps (m : Nat) : ∀ (later : List Outline) (i : Nat), 0 < i →
    (∀ c ∈ later, FlattensWell c) →
    ∀ (last : Outline) (done : List Outline) (before : Outline) (below first : List Outline),
    Forall₂ Keeps (nodesOf done.reverse) first → last.head = before.head →
    (kept before).length ≤ (nodesOf last.children).length →
    Forall₂ Keeps (nodesOf last.children) below →
    Forall₂ Keeps (nodesOf (absorb (last :: done) (later.map flattenArrays)))
      (first ++ before :: below ++ ((markedAmong m i later).filter Prod.snd).map Prod.fst)
  | [], _, _, _, last, done, before, below, first, done_keeps, same, enough, below_keeps => by
    have ends : absorb (last :: done) [] = done.reverse ++ [last] := by
      simp [absorb]
    simp only [List.map_nil, ends, nodesOf_append, nodesOf_cons, nodesOf_nil, List.append_nil,
      markedAmong, List.filter_nil]
    exact List.rel_append done_keeps (List.Forall₂.cons ⟨same, enough⟩ below_keeps)
  | c :: rest, i, positive, well, last, done, before, below, first, done_keeps, same, enough,
      below_keeps => by
    have wellC : FlattensWell c := well c (List.mem_cons_self ..)
    have wellRest : ∀ x ∈ rest, FlattensWell x := fun x h => well x (List.mem_cons_of_mem _ h)
    have flag : (flattenArrays c).isArray = c.isArray := congrArg Head.isArray (head_flattenArrays c)
    rw [markedAmong_kept_cons]
    by_cases wrapper : c.isArray = true
    · -- a later wrapper: its children go to `last`, and its kept nodes follow `below`
      have drops : keepsAt m i c = false := by simp [keepsAt, wrapper]; omega
      have step : absorb (last :: done) ((c :: rest).map flattenArrays) =
          absorb ({ last with children := last.children ++ (flattenArrays c).children } :: done)
            (rest.map flattenArrays) := by
        simp [absorb, flag, wrapper]
      rw [step, drops, if_neg (by decide)]
      have grown := absorb_keeps m rest (i + 1) (by omega) wellRest
        { last with children := last.children ++ (flattenArrays c).children } done before
        (below ++ kept c) first done_keeps same
        (by simp only [nodesOf_append, List.length_append]; omega)
        (by simp only [nodesOf_append]; exact List.rel_append below_keeps wellC)
      simpa only [List.cons_append, List.append_assoc] using grown
    · -- a kept node: it is the next to absorb
      have stays : keepsAt m i c = true := by simp [keepsAt, wrapper]
      have step : absorb (last :: done) ((c :: rest).map flattenArrays) =
          absorb (flattenArrays c :: last :: done) (rest.map flattenArrays) := by
        simp [absorb, flag, wrapper]
      rw [step, stays, if_pos rfl]
      have lastKeeps : Forall₂ Keeps (nodesOf (last :: done).reverse) (first ++ before :: below) := by
        simp only [List.reverse_cons, nodesOf_append, nodesOf_cons, nodesOf_nil, List.append_nil]
        exact List.rel_append done_keeps (List.Forall₂.cons ⟨same, enough⟩ below_keeps)
      have next := absorb_keeps m rest (i + 1) (by omega) wellRest (flattenArrays c)
        (last :: done) c (kept c) (first ++ before :: below) lastKeeps
        (head_flattenArrays c) (Nat.le_of_eq wellC.length_eq.symm) wellC
      simpa only [List.cons_append, List.append_assoc] using next

/-- Collapsing flattened children stands for the kept nodes among the children. -/
theorem collapse_keeps (cs : List Outline) (well : ∀ c ∈ cs, FlattensWell c) :
    Forall₂ Keeps (nodesOf (collapse (cs.map flattenArrays)))
      (((markedAmong cs.length 0 cs).filter Prod.snd).map Prod.fst) := by
  match cs, well with
  | [], _ => exact List.Forall₂.nil
  | [w], well =>
    have wellW : FlattensWell w := well w (List.mem_singleton_self _)
    have flag : (flattenArrays w).isArray = w.isArray := congrArg Head.isArray (head_flattenArrays w)
    rw [markedAmong_kept_cons, List.length_singleton]
    by_cases wrapper : w.isArray = true
    · -- a lone wrapper gives way to its children
      have goes : keepsAt 1 0 w = false := by simp [keepsAt, wrapper]
      simpa [collapse, flag, wrapper, goes, markedAmong] using wellW
    · have stays : keepsAt 1 0 w = true := by simp [keepsAt, wrapper]
      simp only [collapse, List.map_cons, List.map_nil, flag, wrapper, stays, if_true,
        Bool.false_eq_true, if_false, nodesOf_cons, nodesOf_nil, List.append_nil, markedAmong,
        List.filter_nil, List.map_nil]
      exact List.Forall₂.cons ⟨head_flattenArrays w, Nat.le_of_eq wellW.length_eq.symm⟩ wellW
  | first :: c :: rest, well =>
    -- the first child is kept whatever it is, and the others are absorbed into it
    have wellFirst : FlattensWell first := well first (List.mem_cons_self ..)
    have wellLater : ∀ x ∈ c :: rest, FlattensWell x := fun x h => well x (List.mem_cons_of_mem _ h)
    have stays : keepsAt (rest.length + 2) 0 first = true := by simp [keepsAt]
    have start : collapse ((first :: c :: rest).map flattenArrays) =
        absorb [flattenArrays first] ((c :: rest).map flattenArrays) := rfl
    rw [start, List.length_cons, List.length_cons, markedAmong_kept_cons, stays, if_pos rfl]
    have all := absorb_keeps (rest.length + 1 + 1) (c :: rest) 1 (by omega) wellLater
      (flattenArrays first) [] first (kept first) [] List.Forall₂.nil (head_flattenArrays first)
      (Nat.le_of_eq wellFirst.length_eq.symm) wellFirst
    simpa using all

mutual

/-- Flattening keeps the kept nodes: the nodes below the flattened root stand, in pre-order,
for the kept nodes below the root. -/
theorem flattenArrays_keeps : ∀ o : Outline, FlattensWell o
  | ⟨k, v, r, a, cs⟩ => by
    have collapsed := collapse_keeps cs (flattenArrays_keeps_each cs)
    simpa only [FlattensWell, children_flattenArrays, flattenEach_eq_map, kept, marked_eq]
      using collapsed

/-- Flattening keeps the kept nodes of every tree of a list. -/
theorem flattenArrays_keeps_each : ∀ cs : List Outline, ∀ c ∈ cs, FlattensWell c
  | [] => fun _ h => absurd h List.not_mem_nil
  | c :: rest => List.forall_mem_cons.2 ⟨flattenArrays_keeps c, flattenArrays_keeps_each rest⟩

end

/-- After flattening, the nodes below the root show, in pre-order, the heads of the kept nodes. -/
theorem preorder_heads_flattenArrays (o : Outline) :
    (preorder 0 (flattenArrays o).children).map (·.1.head) = (kept o).map head := by
  have heads := List.forall₂_map_left_iff.2
    (List.forall₂_map_right_iff.2 ((flattenArrays_keeps o).imp fun _ _ k => k.1))
  rw [List.forall₂_eq_eq_eq] at heads
  rw [← heads, ← preorder_fst 0, List.map_map]
  rfl

mutual

/-- The marked nodes below a root list each node's marked subtree right after it. -/
theorem marked_blocks : ∀ o : Outline,
    BlocksClosed (fun x : Outline × Bool => x :: marked x.1) (marked o)
  | ⟨_, _, _, _, cs⟩ => markedAmong_blocks cs.length 0 cs

/-- The marked nodes of trees list each node's marked subtree right after it. -/
theorem markedAmong_blocks : ∀ (m i : Nat) (cs : List Outline),
    BlocksClosed (fun x : Outline × Bool => x :: marked x.1) (markedAmong m i cs)
  | _, _, [] => BlocksClosed.nil
  | m, i, c :: rest => by
    exact (BlocksClosed.cons (List.prefix_refl _) (marked_blocks c)).append
      (markedAmong_blocks m (i + 1) rest)

end

/-- Flattening keeps a kept node below a kept node: counted by places among the kept nodes,
the later one lies in the subtree of the earlier one after flattening. -/
theorem flattenArrays_encloses (o : Outline) {i j : Nat} (hi : i < (marked o).length)
    (hj : j < (marked o).length) (keptI : (marked o)[i].2 = true)
    (keptJ : (marked o)[j].2 = true) (before : i < j)
    (inside : j < i + (nodes (marked o)[i].1).length) :
    ∃ h : ((marked o).take i).countP Prod.snd < (nodesOf (flattenArrays o).children).length,
      ((marked o).take i).countP Prod.snd < ((marked o).take j).countP Prod.snd ∧
      ((marked o).take j).countP Prod.snd < ((marked o).take i).countP Prod.snd +
        (nodes (nodesOf (flattenArrays o).children)[((marked o).take i).countP Prod.snd]).length := by
  have blockLength : ((marked o)[i] :: marked (marked o)[i].1).length =
      (nodes (marked o)[i].1).length := by
    rw [nodes_eq, List.length_cons, List.length_cons, ← marked_fst, List.length_map]
  have bound := (marked_blocks o).countP_take_succ_le Prod.snd hi (Nat.le_of_lt before)
    (by rw [blockLength]; exact inside)
  have throughJ : ((marked o).take (j + 1)).countP Prod.snd =
      ((marked o).take j).countP Prod.snd + 1 := by
    rw [List.take_succ_eq_append_getElem hj, List.countP_append]; simp [keptJ]
  have afterI : ((marked o).take i).countP Prod.snd + 1 ≤ ((marked o).take j).countP Prod.snd := by
    have grows := (List.take_sublist_take_left (l := marked o) before).countP_le (p := Prod.snd)
    rw [List.take_succ_eq_append_getElem hi, List.countP_append] at grows
    simpa [keptI] using grows
  have keptBelow : ((marked o).take j).countP Prod.snd ≤
      ((marked o).take i).countP Prod.snd + (kept (marked o)[i].1).length := by
    rw [List.countP_cons, keptI, if_pos rfl, throughJ] at bound
    simp only [kept, List.length_map, ← List.countP_eq_length_filter]
    omega
  -- the node at that place among the kept nodes is the node at `i`
  obtain ⟨inFilter, same⟩ := getElem_filter_countP hi keptI
  have inKept : ((marked o).take i).countP Prod.snd < (kept o).length := by
    simpa [kept] using inFilter
  have keptAt : (kept o)[((marked o).take i).countP Prod.snd] = (marked o)[i].1 := by
    simp [kept, same]
  have wellO := flattenArrays_keeps o
  have inAfter : ((marked o).take i).countP Prod.snd < (nodesOf (flattenArrays o).children).length := by
    rw [wellO.length_eq]; exact inKept
  have keeps := wellO.get inAfter inKept
  simp only [List.get_eq_getElem, keptAt] at keeps
  refine ⟨inAfter, by omega, ?_⟩
  rw [nodes_eq, List.length_cons]
  have enough := keeps.2
  omega

end StageTree.Outline
