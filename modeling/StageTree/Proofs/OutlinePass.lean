import Mathlib
import StageTree.Proofs.OutlineWalk

/-!
# The first pass of the outline

The first pass (`Outline.passOne`) walks a tree once in pre-order, each visit located by its way
up to the root (`Tree.Visit.nodeLocated`). Beside the outline built so far it keeps a side map
from the visits that have made a node, by their ways up, to their nodes' paths: a new node
becomes the last child of the node made by the nearest visit above it in the map, or of the
root, and none is made when that node is a task's.

The located walk lists the visits of the stack walk (`Tree.Visit.nodeLocated_visits`), each
before every visit below it (`Tree.Visit.nodeLocated_ordered`). A subtree's visits are a block
of it. Run over a block from a state that is ready for it (nothing on or below the subtree's way
is in the map yet, and the node its nodes go under is no task's), the pass hangs there exactly
the nodes `ofNode` gives and records exactly the block's shown visits (`nodeLocated_runs`);
below a task it changes nothing (`still_below_task`).

So the first pass builds `ofNode`'s nodes under the root (`passOne_eq`), and its map ends up
holding the shown visits of the walk in the walk's order: no visit below a task, and every visit
after the visits above it (`passOne_records`). The outline of a document therefore follows the
walk of its first tree (`build_follows_walk`).
-/

namespace StageTree

namespace Outline

/-- The outline with the nodes `cs` added in turn as the last children of the node at a path. -/
def hangAll (o : Outline) (path : List Nat) (cs : List Outline) : Outline :=
  cs.foldl (fun o c => o.hang path c) o

/-- Hanging two runs of nodes is hanging one after the other. -/
theorem hangAll_append (o : Outline) (path : List Nat) (cs ds : List Outline) :
    o.hangAll path (cs ++ ds) = (o.hangAll path cs).hangAll path ds :=
  List.foldl_append ..

/-- Nodes hung at the root's path follow the root's children. -/
theorem hangAll_root (o : Outline) (cs : List Outline) :
    o.hangAll [] cs = { o with children := o.children ++ cs } := by
  induction cs generalizing o with
  | nil => cases o; simp [hangAll]
  | cons c cs ih =>
    rw [hangAll, List.foldl_cons, ← hangAll, ih, hang]
    simp

/-- The node at the path where a node is hung gains it as its last child. -/
theorem atPath_hang_self {o p : Outline} {path : List Nat} (n : Outline)
    (found : o.atPath path = some p) :
    (o.hang path n).atPath path = some { p with children := p.children ++ [n] } := by
  induction path generalizing o with
  | nil =>
    obtain rfl := Option.some.inj found
    rfl
  | cons i path ih =>
    obtain ⟨c, child, below⟩ := Option.bind_eq_some_iff.1 found
    simp only [hang, atPath, List.getElem?_modify_eq, child, Option.map_eq_map, Option.map_some,
      Option.bind_some]
    exact ih below

/-- A node hung at a path is found below it, after the children the node there had. -/
theorem atPath_hang_last {o p : Outline} {path : List Nat} (n : Outline)
    (found : o.atPath path = some p) :
    (o.hang path n).atPath (path ++ [p.children.length]) = some n := by
  induction path generalizing o with
  | nil =>
    obtain rfl := Option.some.inj found
    simp [hang, atPath]
  | cons i path ih =>
    obtain ⟨c, child, below⟩ := Option.bind_eq_some_iff.1 found
    simp only [hang, List.cons_append, atPath, List.getElem?_modify_eq, child, Option.map_eq_map,
      Option.map_some, Option.bind_some]
    exact ih below

/-- A node hung below a node just hung becomes that node's last child. -/
theorem hang_hang_last {o p : Outline} {path : List Nat} (n c : Outline)
    (found : o.atPath path = some p) :
    (o.hang path n).hang (path ++ [p.children.length]) c =
      o.hang path { n with children := n.children ++ [c] } := by
  induction path generalizing o with
  | nil =>
    obtain rfl := Option.some.inj found
    have last : o.children.length < (o.children ++ [n]).length := by simp
    simp [hang, List.modify_eq_take_cons_drop last]
  | cons i path ih =>
    obtain ⟨d, child, below⟩ := Option.bind_eq_some_iff.1 found
    obtain ⟨inside, atI⟩ := List.getElem?_eq_some_iff.1 child
    simp only [hang, List.cons_append, List.modify_modify_eq]
    rw [List.modify_eq_take_cons_drop inside, List.modify_eq_take_cons_drop inside, atI,
      Function.comp_apply, ih below]

/-- Nodes hung below a node just hung become that node's last children. -/
theorem hang_hangAll_last {o p : Outline} {path : List Nat} (n : Outline) (cs : List Outline)
    (found : o.atPath path = some p) :
    (o.hang path n).hangAll (path ++ [p.children.length]) cs =
      o.hang path { n with children := n.children ++ cs } := by
  induction cs generalizing n with
  | nil => cases n; simp [hangAll]
  | cons c cs ih =>
    rw [hangAll, List.foldl_cons, ← hangAll, hang_hang_last n c found, ih]
    simp

/-- The node at the path where nodes are hung gains them as its last children. -/
theorem atPath_hangAll_self {o p : Outline} {path : List Nat} (cs : List Outline)
    (found : o.atPath path = some p) :
    (o.hangAll path cs).atPath path = some { p with children := p.children ++ cs } := by
  induction cs generalizing o p with
  | nil => cases p; simpa [hangAll] using found
  | cons c cs ih =>
    rw [hangAll, List.foldl_cons, ← hangAll, ih (atPath_hang_self c found)]
    simp

end Outline

namespace Tree

/-- A located visit without its way up. -/
def Located.toPlaced (l : Located) : Placed := ⟨l.visit, l.above⟩

/-- Two children of one visit lie apart: a way up through one of them never lies on a way up
through the other. -/
theorem not_suffix_of_siblings {way a b : List Nat} {i j : Nat} (ne : i ≠ j)
    (ha : (i :: way) <:+ a) (hb : (j :: way) <:+ b) : ¬ b <:+ a := by
  intro onA
  have both := List.suffix_of_suffix_length_le (hb.trans onA) ha (by simp)
  exact ne (List.cons.inj (both.eq_of_length (by simp))).1.symm

/-- A way up through a way longer than `a` never lies on `a`. -/
theorem not_suffix_of_longer {a b c : List Nat} (longer : a.length < c.length) (hb : c <:+ b) :
    ¬ b <:+ a :=
  fun onA => absurd (hb.trans onA).length_le (by omega)

namespace Visit

mutual

/-- Locating a node's subtree places it. -/
theorem nodeLocated_placed : ∀ (way : List Nat) (above : List Visit) (n : Node),
    (nodeLocated way above n).map Located.toPlaced = nodePlaced above n
  | way, above, .object s pairs => by
    simp only [nodeLocated, nodePlaced, List.map_cons, pairsLocated_placed, Located.toPlaced]
  | way, above, .array s items => by
    simp only [nodeLocated, nodePlaced, List.map_cons, itemsLocated_placed, Located.toPlaced]
  | _, _, .string _ _ => rfl
  | _, _, .number _ _ => rfl
  | _, _, .boolean _ _ => rfl
  | _, _, .null _ => rfl

/-- Locating the subtrees of pairs places them. -/
theorem pairsLocated_placed : ∀ (way : List Nat) (above : List Visit) (i : Nat)
    (pairs : List (Key × Node)), (pairsLocated way above i pairs).map Located.toPlaced =
      pairsPlaced above pairs
  | _, _, _, [] => rfl
  | way, above, i, (k, v) :: rest => by
    simp only [pairsLocated, pairsPlaced, List.map_cons, List.map_append, nodeLocated_placed,
      pairsLocated_placed, Located.toPlaced]

/-- Locating the subtrees of items places them. -/
theorem itemsLocated_placed : ∀ (way : List Nat) (above : List Visit) (i : Nat)
    (items : List Node), (itemsLocated way above i items).map Located.toPlaced =
      itemsPlaced above items
  | _, _, _, [] => rfl
  | way, above, i, n :: rest => by
    simp only [itemsLocated, itemsPlaced, List.map_append, nodeLocated_placed, itemsLocated_placed]

end

/-- The located walk of a tree holds the visits of the stack walk, in order. -/
theorem nodeLocated_visits (way : List Nat) (above : List Visit) (n : Node) :
    (nodeLocated way above n).map Located.visit = (node n).walk := by
  have placed : (nodeLocated way above n).map Located.visit =
      ((nodeLocated way above n).map Located.toPlaced).map Placed.visit := by
    rw [List.map_map]
    rfl
  rw [placed, nodeLocated_placed, nodePlaced_visits, walk_eq_preorder]
  rfl

mutual

/-- Every way up in a located node subtree passes through the node's. -/
theorem nodeLocated_way : ∀ (way : List Nat) (above : List Visit) (n : Node),
    ∀ l ∈ nodeLocated way above n, way <:+ l.way
  | way, above, .object s pairs, l, mem => by
    rcases List.mem_cons.1 mem with rfl | inner
    · exact List.suffix_refl _
    · obtain ⟨j, -, through⟩ := pairsLocated_way way _ 0 pairs l inner
      exact (List.suffix_cons j way).trans through
  | way, above, .array s items, l, mem => by
    rcases List.mem_cons.1 mem with rfl | inner
    · exact List.suffix_refl _
    · obtain ⟨j, -, through⟩ := itemsLocated_way way _ 0 items l inner
      exact (List.suffix_cons j way).trans through
  | _, _, .string _ _, l, mem => by obtain rfl := List.mem_singleton.1 mem; exact List.suffix_refl _
  | _, _, .number _ _, l, mem => by obtain rfl := List.mem_singleton.1 mem; exact List.suffix_refl _
  | _, _, .boolean _ _, l, mem => by obtain rfl := List.mem_singleton.1 mem; exact List.suffix_refl _
  | _, _, .null _, l, mem => by obtain rfl := List.mem_singleton.1 mem; exact List.suffix_refl _

/-- Every way up in located pair subtrees passes through one of the pairs', the `i`-th or a
later one. -/
theorem pairsLocated_way : ∀ (way : List Nat) (above : List Visit) (i : Nat)
    (pairs : List (Key × Node)), ∀ l ∈ pairsLocated way above i pairs,
      ∃ j, i ≤ j ∧ (j :: way) <:+ l.way
  | _, _, _, [], _, mem => absurd mem List.not_mem_nil
  | way, above, i, (k, v) :: rest, l, mem => by
    simp only [pairsLocated, List.cons_append, List.mem_cons, List.mem_append] at mem
    rcases mem with rfl | rfl | value | later
    · exact ⟨i, Nat.le_refl i, List.suffix_refl _⟩
    · exact ⟨i, Nat.le_refl i, List.suffix_cons _ _⟩
    · exact ⟨i, Nat.le_refl i, (List.suffix_cons 1 _).trans (nodeLocated_way _ _ v l value)⟩
    · obtain ⟨j, le, through⟩ := pairsLocated_way way above (i + 1) rest l later
      exact ⟨j, by omega, through⟩

/-- Every way up in located item subtrees passes through one of the items', the `i`-th or a
later one. -/
theorem itemsLocated_way : ∀ (way : List Nat) (above : List Visit) (i : Nat) (items : List Node),
    ∀ l ∈ itemsLocated way above i items, ∃ j, i ≤ j ∧ (j :: way) <:+ l.way
  | _, _, _, [], _, mem => absurd mem List.not_mem_nil
  | way, above, i, n :: rest, l, mem => by
    rcases List.mem_append.1 mem with first | later
    · exact ⟨i, Nat.le_refl i, nodeLocated_way (i :: way) above n l first⟩
    · obtain ⟨j, le, through⟩ := itemsLocated_way way above (i + 1) rest l later
      exact ⟨j, by omega, through⟩

end

mutual

/-- In a located node subtree no visit lies above, or is, a visit listed before it: the walk
takes every visit before the visits below it. -/
theorem nodeLocated_ordered : ∀ (way : List Nat) (above : List Visit) (n : Node),
    ((nodeLocated way above n).map Located.way).Pairwise fun a b => ¬ b <:+ a
  | way, above, .object s pairs => by
    rw [nodeLocated, List.map_cons, List.pairwise_cons]
    refine ⟨fun b mem => ?_, pairsLocated_ordered way _ 0 pairs⟩
    obtain ⟨l, inner, rfl⟩ := List.mem_map.1 mem
    obtain ⟨j, -, through⟩ := pairsLocated_way way _ 0 pairs l inner
    exact not_suffix_of_longer (by simp) through
  | way, above, .array s items => by
    rw [nodeLocated, List.map_cons, List.pairwise_cons]
    refine ⟨fun b mem => ?_, itemsLocated_ordered way _ 0 items⟩
    obtain ⟨l, inner, rfl⟩ := List.mem_map.1 mem
    obtain ⟨j, -, through⟩ := itemsLocated_way way _ 0 items l inner
    exact not_suffix_of_longer (by simp) through
  | _, _, .string _ _ => List.pairwise_singleton _ _
  | _, _, .number _ _ => List.pairwise_singleton _ _
  | _, _, .boolean _ _ => List.pairwise_singleton _ _
  | _, _, .null _ => List.pairwise_singleton _ _

/-- In located pair subtrees no visit lies above, or is, a visit listed before it. -/
theorem pairsLocated_ordered : ∀ (way : List Nat) (above : List Visit) (i : Nat)
    (pairs : List (Key × Node)),
    ((pairsLocated way above i pairs).map Located.way).Pairwise fun a b => ¬ b <:+ a
  | _, _, _, [] => List.Pairwise.nil
  | way, above, i, (k, v) :: rest => by
    have valueWays := nodeLocated_way (1 :: i :: way) (pair k v :: above) v
    -- the first pair's block: the pair, its key and its value's subtree, all through the pair
    have inBlock : ∀ a ∈ (⟨pair k v, i :: way, above⟩ :: ⟨key k, 0 :: i :: way, pair k v :: above⟩ ::
        nodeLocated (1 :: i :: way) (pair k v :: above) v).map Located.way, (i :: way) <:+ a := by
      intro a mem
      simp only [List.map_cons, List.mem_cons, List.mem_map] at mem
      rcases mem with rfl | rfl | ⟨l, value, rfl⟩
      · exact List.suffix_refl _
      · exact List.suffix_cons _ _
      · exact (List.suffix_cons 1 _).trans (valueWays l value)
    have block : ((⟨pair k v, i :: way, above⟩ :: ⟨key k, 0 :: i :: way, pair k v :: above⟩ ::
        nodeLocated (1 :: i :: way) (pair k v :: above) v).map Located.way).Pairwise
          fun a b => ¬ b <:+ a := by
      rw [List.map_cons, List.map_cons, List.pairwise_cons, List.pairwise_cons]
      refine ⟨fun b mem => ?_, fun b mem => ?_, nodeLocated_ordered _ _ v⟩
      · rcases List.mem_cons.1 mem with rfl | value
        · exact not_suffix_of_longer (by simp) (List.suffix_refl _)
        · obtain ⟨l, inner, rfl⟩ := List.mem_map.1 value
          exact not_suffix_of_longer (by simp) (valueWays l inner)
      · obtain ⟨l, inner, rfl⟩ := List.mem_map.1 mem
        exact not_suffix_of_siblings (i := 0) (j := 1) (by decide) (List.suffix_refl _)
          (valueWays l inner)
    rw [pairsLocated, List.map_append, List.pairwise_append]
    refine ⟨block, pairsLocated_ordered way above (i + 1) rest, fun a ina b inb => ?_⟩
    obtain ⟨l, later, rfl⟩ := List.mem_map.1 inb
    obtain ⟨j, le, through⟩ := pairsLocated_way way above (i + 1) rest l later
    exact not_suffix_of_siblings (by omega) (inBlock a ina) through

/-- In located item subtrees no visit lies above, or is, a visit listed before it. -/
theorem itemsLocated_ordered : ∀ (way : List Nat) (above : List Visit) (i : Nat)
    (items : List Node),
    ((itemsLocated way above i items).map Located.way).Pairwise fun a b => ¬ b <:+ a
  | _, _, _, [] => List.Pairwise.nil
  | way, above, i, n :: rest => by
    rw [itemsLocated, List.map_append, List.pairwise_append]
    refine ⟨nodeLocated_ordered _ _ n, itemsLocated_ordered way above (i + 1) rest,
      fun a ina b inb => ?_⟩
    obtain ⟨la, first, rfl⟩ := List.mem_map.1 ina
    obtain ⟨lb, later, rfl⟩ := List.mem_map.1 inb
    obtain ⟨j, le, through⟩ := itemsLocated_way way above (i + 1) rest lb later
    exact not_suffix_of_siblings (by omega) (nodeLocated_way _ _ n la first) through

end

/-- Nothing in a located subtree below a pair keyed `task` is shown. -/
theorem nodeLocated_hidden {above : List Visit} (belowTask : above.any isTask = true)
    (way : List Nat) (n : Node) : ∀ l ∈ nodeLocated way above n, l.toPlaced.shown = false :=
  fun l mem => nodePlaced_hidden belowTask n l.toPlaced
    (nodeLocated_placed way above n ▸ List.mem_map_of_mem mem)

end Visit

end Tree

namespace Outline

open StageTree.Tree (Placed Visit Key Node Located not_suffix_of_longer not_suffix_of_siblings)

namespace Pass

/-- The map gives nothing for a way on or below which nothing is recorded. -/
theorem lookup_of_fresh {made : List (List Nat × List Nat)} {way : List Nat}
    (fresh : ∀ e ∈ made, ¬ way <:+ e.1) : made.lookup way = none :=
  List.lookup_eq_none_iff.2 fun e mem => bne_iff_ne.2 fun same => fresh e mem (same ▸ List.suffix_refl _)

/-- Entries none of which lies on a way up leave what the map gives on it as it was. -/
theorem madeOnWay_append_of_apart {root root' : Outline} {made extra : List (List Nat × List Nat)}
    {up : List Nat} (apart : ∀ e ∈ extra, ¬ e.1 <:+ up) :
    (⟨root', made ++ extra⟩ : Pass).madeOnWay up = (⟨root, made⟩ : Pass).madeOnWay up := by
  have missing : ∀ w, w <:+ up → extra.lookup w = none := fun w onUp =>
    List.lookup_eq_none_iff.2 fun e mem => bne_iff_ne.2 fun same => apart e mem (same ▸ onUp)
  induction up with
  | nil => rw [madeOnWay, madeOnWay, List.lookup_append, missing [] (List.suffix_refl _), Option.or_none]
  | cons i up ih =>
    rw [madeOnWay, madeOnWay, List.lookup_append, missing _ (List.suffix_refl _), Option.or_none,
      ih (fun e mem onUp => apart e mem (onUp.trans (List.suffix_cons i up)))
        (fun w onUp => missing w (onUp.trans (List.suffix_cons i up)))]

/-- A way just recorded gives its own node's path. -/
theorem madeOnWay_of_last {root : Outline} {made : List (List Nat × List Nat)} {way path : List Nat}
    (fresh : made.lookup way = none) :
    (⟨root, made ++ [(way, path)]⟩ : Pass).madeOnWay way = some path := by
  have found : (made ++ [(way, path)]).lookup way = some path := by
    rw [List.lookup_append, fresh, Option.none_or, List.lookup_singleton, if_pos (beq_self_eq_true way)]
  cases way with
  | nil => exact found
  | cons i up => rw [madeOnWay, found, Option.some_or]

/-- With nothing recorded on or below a way, every way through it gets what the visits above it
give. -/
theorem madeOnWay_through {s : Pass} {way : List Nat} (fresh : ∀ e ∈ s.made, ¬ way <:+ e.1) :
    ∀ x : List Nat, s.madeOnWay (x ++ way) = s.nearest way
  | [] => by
    cases way with
    | nil => exact lookup_of_fresh fresh
    | cons i up => rw [List.nil_append, madeOnWay, lookup_of_fresh fresh, Option.none_or]; rfl
  | c :: x => by
    have below : ∀ e ∈ s.made, ¬ (c :: (x ++ way)) <:+ e.1 := fun e mem onE =>
      fresh e mem ((List.suffix_append (c :: x) way).trans onE)
    rw [List.cons_append, madeOnWay, lookup_of_fresh below, Option.none_or]
    exact madeOnWay_through fresh x

/-- With nothing recorded on or below a way, every visit through it has the same nearest node
above it. -/
theorem nearest_through {s : Pass} {way : List Nat} (fresh : ∀ e ∈ s.made, ¬ way <:+ e.1) :
    ∀ x : List Nat, s.nearest (x ++ way) = s.nearest way
  | [] => rfl
  | _ :: x => madeOnWay_through fresh x

/-- When the node at `path`, the nearest made above a visit, is no task's, adding a node hangs it
last there and records the visit's way with the new node's path. -/
theorem add_of_slot {s : Pass} {visit : Visit} {way : List Nat} {above : List Visit}
    {path : List Nat} {o : Outline} (slot : (s.nearest way).getD [] = path)
    (found : s.root.atPath path = some o) (notTask : o.key ≠ "task") (made : Option Outline) :
    s.add ⟨visit, way, above⟩ made = made.map fun n =>
      ⟨s.root.hang path n, s.made ++ [(way, path ++ [o.children.length])]⟩ := by
  have open_ : (((s.nearest way).bind s.root.atPath).map (·.key == "task")).getD false = false := by
    cases near : s.nearest way with
    | none => rfl
    | some q =>
      rw [near, Option.getD_some] at slot
      simp [slot, found, notTask]
  simp only [add, open_, Bool.false_eq_true, if_false, slot, found, Option.map_some, Option.getD_some]

/-- Below a task's node, adding changes nothing. -/
theorem add_below_task {s : Pass} {l : Located} {o : Outline}
    (task : (s.nearest l.way).bind s.root.atPath = some o) (key : o.key = "task")
    (made : Option Outline) : s.add l made = some s := by
  simp [add, task, key]

/-- A state ready for the visits on and below a way, whose nodes go to the node at `path`:
nothing on or below the way is recorded, `path` is the path of the nearest node made above it
(the root's when there is none), and that node is no task's. -/
structure Ready (s : Pass) (way path : List Nat) : Prop where
  /-- Nothing on or below the way is recorded. -/
  fresh : ∀ e ∈ s.made, ¬ way <:+ e.1
  /-- The nodes go to the nearest node made above the way, or to the root. -/
  slot : (s.nearest way).getD [] = path
  /-- That node is there and is no task's. -/
  open_ : ∃ o, s.root.atPath path = some o ∧ o.key ≠ "task"

namespace Ready

variable {s : Pass} {way path : List Nat}

/-- A state ready for a visit is ready for its children, whose nodes go to the same place. -/
theorem children (ready : Ready s way path) (j : Nat) : Ready s (j :: way) path where
  fresh e mem below := ready.fresh e mem ((List.suffix_cons j way).trans below)
  slot := (congrArg (·.getD []) (madeOnWay_through ready.fresh [])).trans ready.slot
  open_ := ready.open_

/-- Once a visit has recorded its way, nothing is recorded on or below the ways of its
children. -/
theorem fresh_below_made (ready : Ready s way path) (root : Outline) (q : List Nat) (j : Nat) :
    ∀ e ∈ (⟨root, s.made ++ [(way, q)]⟩ : Pass).made, ¬ (j :: way) <:+ e.1 := by
  intro e mem below
  rcases List.mem_append.1 mem with old | new
  · exact ready.fresh e old ((List.suffix_cons j way).trans below)
  · obtain rfl := List.mem_singleton.1 new
    exact not_suffix_of_longer (by simp) (List.suffix_refl _) below

/-- Once a visit has recorded its way, the nearest node above each of its children is its own. -/
theorem nearest_below_made (ready : Ready s way path) (root : Outline) (q : List Nat) (j : Nat) :
    (⟨root, s.made ++ [(way, q)]⟩ : Pass).nearest (j :: way) = some q :=
  madeOnWay_of_last (lookup_of_fresh ready.fresh)

/-- Once a visit has made a node, its children are ready to hang theirs below that node. -/
theorem below_made (ready : Ready s way path) {o n : Outline} (found : s.root.atPath path = some o)
    (notTask : n.key ≠ "task") (j : Nat) :
    Ready ⟨s.root.hang path n, s.made ++ [(way, path ++ [o.children.length])]⟩ (j :: way)
      (path ++ [o.children.length]) where
  fresh := ready.fresh_below_made _ _ j
  slot := by rw [ready.nearest_below_made]; rfl
  open_ := ⟨n, atPath_hang_last n found, notTask⟩

/-- A later sibling stays ready once the nodes of an earlier one are hung and its visits
recorded. -/
theorem after_sibling {j : Nat} (ready : Ready s (j :: way) path) {i : Nat} (ne : i ≠ j)
    {extra : List (List Nat × List Nat)} (through : ∀ e ∈ extra, (i :: way) <:+ e.1)
    (cs : List Outline) : Ready ⟨s.root.hangAll path cs, s.made ++ extra⟩ (j :: way) path where
  fresh e mem below := by
    rcases List.mem_append.1 mem with old | new
    · exact ready.fresh e old below
    · exact not_suffix_of_siblings ne (through e new) (List.suffix_refl _) below
  slot := by
    rw [← ready.slot]
    exact congrArg (·.getD [])
      (madeOnWay_append_of_apart fun e mem (onWay : e.1 <:+ way) =>
        not_suffix_of_longer (by simp) (through e mem) onWay)
  open_ := by
    obtain ⟨o, found, notTask⟩ := ready.open_
    exact ⟨_, atPath_hangAll_self cs found, notTask⟩

end Ready

/-- The first pass is ready for a whole tree before its walk. -/
theorem start_ready (t : LineTable) (root : Node) : Ready (start t root) [] [] where
  fresh _ mem := absurd mem List.not_mem_nil
  slot := rfl
  open_ := ⟨_, rfl, show rootName ≠ "task" by decide⟩

end Pass

open Pass (Ready)

variable {t : LineTable}

/-- A step adds a node only through `Pass.add`: where adding changes nothing, neither does the
step. -/
theorem passStep_of_add_same {s : Pass} {l : Located} (same : ∀ made, s.add l made = some s) :
    passStep t s l = some s := by
  unfold passStep
  split <;> (try split) <;> first | exact same _ | rfl

/-- A node that is no pair's value makes no node. -/
theorem passStep_of_not_value {s : Pass} {way : List Nat} {above : List Visit} (n : Node)
    (notValue : ∀ k v rest, above ≠ .pair k v :: rest) : passStep t s ⟨.node n, way, above⟩ = some s := by
  cases above with
  | nil => cases n <;> rfl
  | cons a rest =>
    cases a with
    | pair k v => exact absurd rfl (notValue k v rest)
    | node _ => cases n <;> rfl
    | key _ => cases n <;> rfl

/-- A pair of an object spanning `sp` whose key is shown, visited from a state whose nearest node
above it is the node at `path`, no task's, makes a node last there with the pair's key, its
value's display text and the object's range, and records its way; it stops the pass when the
value cannot be written. -/
theorem passStep_shown_pair {s : Pass} {k : Key} {v : Node} {way path : List Nat}
    {sp : Tree.Span} {all : List (Key × Node)} {above : List Visit} {o : Outline}
    (slot : (s.nearest way).getD [] = path) (found : s.root.atPath path = some o)
    (notTask : o.key ≠ "task") (shownKey : k.isOneOf shownKeys = true) :
    passStep t s ⟨.pair k v, way, .node (.object sp all) :: above⟩ =
      (if v.value.writable then
        some { key := k.text.toString, value := some v.value.display,
               range := t.rangeOf sp.start sp.stop }
        else none).map fun n => ⟨s.root.hang path n, s.made ++ [(way, path ++ [o.children.length])]⟩ := by
  simp only [passStep, contains_shownKeys, shownKey, if_true]
  rw [Pass.add_of_slot slot found notTask]
  rfl

/-- A pair whose key is not shown makes no node. -/
theorem passStep_hidden_pair {s : Pass} {k : Key} {v : Node} {way : List Nat}
    {above : List Visit} (notShown : k.isOneOf shownKeys = false) :
    passStep t s ⟨.pair k v, way, above⟩ = some s := by
  simp only [passStep, contains_shownKeys, notShown, Bool.false_eq_true, if_false]

/-- The array value of a pair keyed `stages`, `steps` or `jobs`, visited from a state whose
nearest node above it is the node at `path`, no task's, makes a wrapper last there with the
pair's key and the array's range, and records its way. -/
theorem passStep_wrapped_array {s : Pass} {k : Key} {v : Node} {sp : Tree.Span}
    {items : List Node} {way path : List Nat} {above : List Visit} {o : Outline}
    (slot : (s.nearest way).getD [] = path) (found : s.root.atPath path = some o)
    (notTask : o.key ≠ "task") (wrapped : k.isOneOf wrappedKeys = true) :
    passStep t s ⟨.node (.array sp items), way, .pair k v :: above⟩ =
      some ⟨s.root.hang path
          { key := k.text.toString, value := none, range := t.rangeOf sp.start sp.stop,
            isArray := true },
        s.made ++ [(way, path ++ [o.children.length])]⟩ := by
  simp only [passStep, contains_wrappedKeys, wrapped, if_true]
  rw [Pass.add_of_slot slot found notTask]
  rfl

/-- The array value of a pair keyed otherwise makes no node. -/
theorem passStep_unwrapped_array {s : Pass} {k : Key} {v : Node} {sp : Tree.Span}
    {items : List Node} {way : List Nat} {above : List Visit}
    (notWrapped : k.isOneOf wrappedKeys = false) :
    passStep t s ⟨.node (.array sp items), way, .pair k v :: above⟩ = some s := by
  simp only [passStep, contains_wrappedKeys, notWrapped, Bool.false_eq_true, if_false]

/-- Below a task's node the first pass changes nothing: the nearest node made above every visit
of the subtree is the task's. -/
theorem still_below_task {s : Pass} {way : List Nat} {o : Outline}
    (fresh : ∀ e ∈ s.made, ¬ way <:+ e.1) (task : (s.nearest way).bind s.root.atPath = some o)
    (key : o.key = "task") (above : List Visit) (n : Node) :
    ∀ l ∈ Visit.nodeLocated way above n, passStep t s l = some s := by
  intro l mem
  obtain ⟨x, through⟩ := Visit.nodeLocated_way way above n l mem
  refine passStep_of_add_same fun made => Pass.add_below_task ?_ key made
  rw [← through, Pass.nearest_through fresh x]
  exact task

variable (t)

/-- What the first pass does from the state `s` over the visits `ls`, whose nodes are `r` (none
when one cannot be made): it hangs the nodes last below the node at `path`, and records the ways
of the shown visits of `ls`, in order. -/
def Runs (s : Pass) (path : List Nat) (ls : List Located) (r : Option (List Outline)) : Prop :=
  ∃ extra : List (List Nat × List Nat),
    extra.map Prod.fst = (ls.filter (·.toPlaced.shown)).map Located.way ∧
    ls.foldlM (passStep t) s = (fun cs => (⟨s.root.hangAll path cs, s.made ++ extra⟩ : Pass)) <$> r

variable {t}

namespace Runs

/-- No visits, no nodes. -/
theorem nil (s : Pass) (path : List Nat) : Runs t s path [] (some []) :=
  ⟨[], rfl, by cases s; simp [hangAll]⟩

/-- The ways recorded over visits are ways of those visits. -/
theorem mem_ways {ls : List Located} {extra : List (List Nat × List Nat)}
    (recorded : extra.map Prod.fst = (ls.filter (·.toPlaced.shown)).map Located.way) :
    ∀ e ∈ extra, ∃ l ∈ ls, l.way = e.1 := by
  intro e mem
  have listed : e.1 ∈ (ls.filter (·.toPlaced.shown)).map Located.way :=
    recorded ▸ List.mem_map_of_mem mem
  obtain ⟨l, kept, same⟩ := List.mem_map.1 listed
  exact ⟨l, List.mem_of_mem_filter kept, same⟩

/-- A visit that changes nothing and is not shown adds nothing. -/
theorem cons_hidden {s : Pass} {path : List Nat} {ls : List Located} {r : Option (List Outline)}
    (l : Located) (still : passStep t s l = some s) (hidden : l.toPlaced.shown = false)
    (run : Runs t s path ls r) : Runs t s path (l :: ls) r := by
  obtain ⟨extra, recorded, folds⟩ := run
  refine ⟨extra, ?_, ?_⟩
  · rw [List.filter_cons_of_neg (by simp [hidden])]
    exact recorded
  · rw [List.foldlM_cons, still]
    exact folds

/-- Visits none of which changes anything or is shown add nothing. -/
theorem of_still {s : Pass} {path : List Nat} {ls : List Located}
    (still : ∀ l ∈ ls, passStep t s l = some s) (hidden : ∀ l ∈ ls, l.toPlaced.shown = false) :
    Runs t s path ls (some []) := by
  induction ls with
  | nil => exact nil s path
  | cons l ls ih =>
    exact cons_hidden l (still l (List.mem_cons_self ..)) (hidden l (List.mem_cons_self ..))
      (ih (fun l' mem => still l' (List.mem_cons_of_mem _ mem))
        fun l' mem => hidden l' (List.mem_cons_of_mem _ mem))

/-- A visit whose node cannot be made stops the pass. -/
theorem cons_fails {s : Pass} {path : List Nat} (l : Located) (ls : List Located)
    (fails : passStep t s l = none) : Runs t s path (l :: ls) none := by
  refine ⟨((l :: ls).filter (·.toPlaced.shown)).map fun l => (l.way, []), ?_, ?_⟩
  · rw [List.map_map]
    rfl
  · rw [List.foldlM_cons, fails]
    rfl

/-- A shown visit that makes the node `n` last below the node at `path` holds, as `n`'s children,
the nodes of the visits after it, which go below `n`. -/
theorem cons_made {s : Pass} {path : List Nat} {o : Outline} {ls : List Located}
    {r : Option (List Outline)} (l : Located) (n : Outline) (found : s.root.atPath path = some o)
    (childless : n.children = [])
    (makes : passStep t s l =
      some ⟨s.root.hang path n, s.made ++ [(l.way, path ++ [o.children.length])]⟩)
    (shown : l.toPlaced.shown = true)
    (inner : Runs t ⟨s.root.hang path n, s.made ++ [(l.way, path ++ [o.children.length])]⟩
      (path ++ [o.children.length]) ls r) :
    Runs t s path (l :: ls) ((fun cs => [{ n with children := cs }]) <$> r) := by
  obtain ⟨extra, recorded, folds⟩ := inner
  refine ⟨(l.way, path ++ [o.children.length]) :: extra, ?_, ?_⟩
  · rw [List.filter_cons_of_pos (by simp [shown]), List.map_cons, List.map_cons, recorded]
  · rw [List.foldlM_cons, makes]
    show ls.foldlM (passStep t) _ = _
    rw [folds]
    cases r with
    | none => rfl
    | some cs =>
      simp only [Option.map_eq_map, Option.map_some, Option.some.injEq]
      rw [hang_hangAll_last n cs found, childless, List.nil_append, List.append_assoc]
      rfl

/-- The nodes of two runs of visits, the second run from the state the first leaves. -/
theorem append {s : Pass} {path : List Nat} {ls ls' : List Located} {r r' : Option (List Outline)}
    (first : Runs t s path ls r)
    (next : ∀ cs extra, r = some cs →
      extra.map Prod.fst = (ls.filter (·.toPlaced.shown)).map Located.way →
        Runs t ⟨s.root.hangAll path cs, s.made ++ extra⟩ path ls' r') :
    Runs t s path (ls ++ ls') (r >>= fun cs => (cs ++ ·) <$> r') := by
  obtain ⟨extra, recorded, folds⟩ := first
  cases r with
  | none =>
    refine ⟨((ls ++ ls').filter (·.toPlaced.shown)).map fun l => (l.way, []), ?_, ?_⟩
    · rw [List.map_map]
      rfl
    · rw [List.foldlM_append, folds]
      rfl
  | some cs =>
    obtain ⟨extra', recorded', folds'⟩ := next cs extra rfl recorded
    refine ⟨extra ++ extra', ?_, ?_⟩
    · rw [List.map_append, recorded, recorded', List.filter_append, List.map_append]
    · rw [List.foldlM_append, folds]
      show ls'.foldlM (passStep t) _ = _
      rw [folds']
      cases r' with
      | none => rfl
      | some cs' =>
        simp only [Option.map_eq_map, Option.map_some, Option.bind_eq_bind, Option.bind_some,
          Option.some.injEq]
        rw [hangAll_append, List.append_assoc]

end Runs

/-- A key that is not `task` is written as a text other than `task`. -/
theorem toString_ne_task {k : Key} (notTask : k.isOneOf ["task"] = false) :
    k.text.toString ≠ "task" := by
  intro same
  rw [← toString_beq_task, same] at notTask
  exact absurd notTask (by decide)

/-- The nodes of an object's pairs: the first pair's, then the later pairs'. -/
theorem ofPairs_cons (sp : Tree.Span) (k : Key) (v : Node) (rest : List (Key × Node)) :
    ofPairs t sp ((k, v) :: rest) =
      (if shownKeys.contains k.text.toString then
        if v.value.writable then
          (fun children =>
            [{ key := k.text.toString, value := some v.value.display,
               range := t.rangeOf sp.start sp.stop, children }]) <$>
            (if k.text.toString == "task" then some [] else ofValue t k.text.toString v)
        else none
      else ofValue t k.text.toString v) >>= fun here => (here ++ ·) <$> ofPairs t sp rest := by
  rw [ofPairs]
  split <;> (try split) <;> rfl

variable (t)

mutual

/-- Over the located subtree of a node that is no pair's value, below visits none of which is a
task, the first pass from a ready state hangs `ofNode`'s nodes and records the shown visits. -/
theorem nodeLocated_runs : ∀ (way : List Nat) (above : List Visit) (n : Node) (s : Pass)
    (path : List Nat), above.any Visit.isTask = false → (∀ k v rest, above ≠ .pair k v :: rest) →
    Ready s way path → Runs t s path (Visit.nodeLocated way above n) (ofNode t n)
  | way, above, .object sp pairs, s, path, free, _, ready => by
    rw [Visit.nodeLocated, ofNode]
    exact Runs.cons_hidden _ rfl (Placed.shown_object ..)
      (pairsLocated_runs way above sp pairs 0 pairs s path free fun j _ => ready.children j)
  | way, above, .array sp items, s, path, free, notValue, ready => by
    rw [Visit.nodeLocated, ofNode]
    exact Runs.cons_hidden _ (passStep_of_not_value _ notValue)
      (Placed.shown_node_of_not_value _ notValue)
      (itemsLocated_runs way above sp items 0 items s path free fun j _ => ready.children j)
  | _, _, .string _ _, s, path, _, notValue, _ => Runs.cons_hidden _ (passStep_of_not_value _ notValue)
      (Placed.shown_node_of_not_value _ notValue) (Runs.nil s path)
  | _, _, .number _ _, s, path, _, notValue, _ => Runs.cons_hidden _ (passStep_of_not_value _ notValue)
      (Placed.shown_node_of_not_value _ notValue) (Runs.nil s path)
  | _, _, .boolean _ _, s, path, _, notValue, _ => Runs.cons_hidden _ (passStep_of_not_value _ notValue)
      (Placed.shown_node_of_not_value _ notValue) (Runs.nil s path)
  | _, _, .null _, s, path, _, notValue, _ => Runs.cons_hidden _ (passStep_of_not_value _ notValue)
      (Placed.shown_node_of_not_value _ notValue) (Runs.nil s path)

/-- Over the located subtree of the value of a pair not keyed `task`, below visits none of which
is a task, the first pass from a ready state hangs `ofValue`'s nodes and records the shown
visits. -/
theorem valueLocated_runs : ∀ (way : List Nat) (above : List Visit) (k : Key) (v : Node) (s : Pass)
    (path : List Nat), above.any Visit.isTask = false → k.isOneOf ["task"] = false →
    Ready s way path →
    Runs t s path (Visit.nodeLocated way (.pair k v :: above) v) (ofValue t k.text.toString v)
  | way, above, k, .object sp pairs, s, path, free, notTask, ready => by
    rw [Visit.nodeLocated, ofValue]
    exact Runs.cons_hidden _ rfl (Placed.shown_object ..)
      (pairsLocated_runs way (.pair k (.object sp pairs) :: above) sp pairs 0 pairs s path
        (by simp [Visit.isTask, free, notTask]) fun j _ => ready.children j)
  | way, above, k, .array sp items, s, path, free, notTask, ready => by
    have inside : (Visit.pair k (.array sp items) :: above).any Visit.isTask = false := by
      simp [Visit.isTask, free, notTask]
    rw [Visit.nodeLocated, ofValue, contains_wrappedKeys]
    by_cases wrapped : k.isOneOf wrappedKeys = true
    · -- the array makes a wrapper, which holds the nodes of its items
      rw [if_pos wrapped]
      obtain ⟨o, found, notTaskHere⟩ := ready.open_
      exact Runs.cons_made _ _ found rfl
        (passStep_wrapped_array ready.slot found notTaskHere wrapped)
        (by simp [Located.toPlaced, Placed.shown, free, notTask, Visit.isTask, wrapped])
        (itemsLocated_runs way (.pair k (.array sp items) :: above) sp items 0 items _ _ inside
          fun j _ => ready.below_made found (toString_ne_task notTask) j)
    · rw [if_neg wrapped]
      exact Runs.cons_hidden _ (passStep_unwrapped_array (Bool.eq_false_iff.2 wrapped))
        (by simp [Located.toPlaced, Placed.shown, free, notTask, Visit.isTask, wrapped])
        (itemsLocated_runs way (.pair k (.array sp items) :: above) sp items 0 items s path inside
          fun j _ => ready.children j)
  | _, _, _, .string _ _, s, path, _, _, _ =>
    Runs.cons_hidden _ rfl (by simp [Located.toPlaced, Placed.shown]) (Runs.nil s path)
  | _, _, _, .number _ _, s, path, _, _, _ =>
    Runs.cons_hidden _ rfl (by simp [Located.toPlaced, Placed.shown]) (Runs.nil s path)
  | _, _, _, .boolean _ _, s, path, _, _, _ =>
    Runs.cons_hidden _ rfl (by simp [Located.toPlaced, Placed.shown]) (Runs.nil s path)
  | _, _, _, .null _, s, path, _, _, _ =>
    Runs.cons_hidden _ rfl (by simp [Located.toPlaced, Placed.shown]) (Runs.nil s path)

/-- Over the located subtrees of the pairs of an object, below visits none of which is a task,
the first pass from a state ready for each pair hangs `ofPairs`'s nodes and records the shown
visits. -/
theorem pairsLocated_runs : ∀ (way : List Nat) (above : List Visit) (sp : Tree.Span)
    (all : List (Key × Node)) (i : Nat) (pairs : List (Key × Node)) (s : Pass) (path : List Nat),
    above.any Visit.isTask = false → (∀ j, i ≤ j → Ready s (j :: way) path) →
    Runs t s path (Visit.pairsLocated way (.node (.object sp all) :: above) i pairs)
      (ofPairs t sp pairs)
  | _, _, _, _, _, [], s, path, _, _ => Runs.nil s path
  | way, above, sp, all, i, (k, v) :: rest, s, path, free, ready => by
    have inside : (Visit.node (.object sp all) :: above).any Visit.isTask = false := by
      simp [Visit.isTask, free]
    have here := ready i (Nat.le_refl i)
    have keyHidden := Placed.shown_key k (.pair k v :: .node (.object sp all) :: above)
    rw [Visit.pairsLocated, ofPairs_cons]
    refine Runs.append ?_ ?_
    · rw [contains_shownKeys]
      by_cases shownKey : k.isOneOf shownKeys = true
      · have pairShown : (⟨.pair k v, i :: way, .node (.object sp all) :: above⟩ : Located).toPlaced.shown =
            true := by
          simp [Located.toPlaced, Placed.shown, inside, shownKey]
        obtain ⟨o, found, notTaskHere⟩ := here.open_
        have step : passStep t s ⟨.pair k v, i :: way, .node (.object sp all) :: above⟩ = _ :=
          passStep_shown_pair here.slot found notTaskHere shownKey
        rw [if_pos shownKey]
        by_cases writes : v.value.writable = true
        · let node : Outline :=
            { key := k.text.toString, value := some v.value.display,
              range := t.rangeOf sp.start sp.stop }
          have makes : passStep t s ⟨.pair k v, i :: way, .node (.object sp all) :: above⟩ =
              some ⟨s.root.hang path node, s.made ++ [(i :: way, path ++ [o.children.length])]⟩ := by
            rw [step, if_pos writes]
            rfl
          rw [if_pos writes, toString_beq_task]
          by_cases task : k.isOneOf ["task"] = true
          · -- a task's node holds nothing: below it every visit's nearest node is the task's
            rw [if_pos task]
            have named : k.text.toString = "task" := by
              rw [← beq_iff_eq, toString_beq_task, task]
            have still := still_below_task (t := t) (here.fresh_below_made (s.root.hang path node) _ 1)
              (by rw [here.nearest_below_made]; exact atPath_hang_last node found) named
              (.pair k v :: .node (.object sp all) :: above) v
            exact Runs.cons_made _ _ found rfl makes pairShown (Runs.cons_hidden _ rfl keyHidden
              (Runs.of_still still (Visit.nodeLocated_hidden (by simp [Visit.isTask, task]) _ v)))
          · rw [if_neg task]
            exact Runs.cons_made _ _ found rfl makes pairShown (Runs.cons_hidden _ rfl keyHidden
              (valueLocated_runs (1 :: i :: way) (.node (.object sp all) :: above) k v _ _ inside
                (Bool.eq_false_iff.2 task)
                (here.below_made found (toString_ne_task (Bool.eq_false_iff.2 task)) 1)))
        · rw [if_neg writes]
          refine Runs.cons_fails _ _ ?_
          rw [step, if_neg writes]
          rfl
      · -- a pair that is not shown: only the nodes of its value, which go where the pair's would
        have notTask : k.isOneOf ["task"] = false :=
          Bool.eq_false_iff.2 fun task => shownKey (isOneOf_shownKeys_of_task task)
        rw [if_neg shownKey]
        exact Runs.cons_hidden _ (passStep_hidden_pair (Bool.eq_false_iff.2 shownKey))
          (by simp [Located.toPlaced, Placed.shown, Bool.eq_false_iff.2 shownKey])
          (Runs.cons_hidden _ rfl keyHidden
            (valueLocated_runs (1 :: i :: way) (.node (.object sp all) :: above) k v s path inside
              notTask (here.children 1)))
    · -- the later pairs hang their nodes after the first pair's
      intro cs extra _ recorded
      refine pairsLocated_runs way above sp all (i + 1) rest _ path free fun j le => ?_
      refine (ready j (by omega)).after_sibling (i := i) (by omega) (fun e mem => ?_) cs
      obtain ⟨l, inBlock, same⟩ := Runs.mem_ways recorded e mem
      rw [← same]
      rcases List.mem_cons.1 inBlock with rfl | inBlock
      · exact List.suffix_refl _
      rcases List.mem_cons.1 inBlock with rfl | value
      · exact List.suffix_cons _ _
      · exact (List.suffix_cons 1 _).trans (Visit.nodeLocated_way _ _ v l value)

/-- Over the located subtrees of the items of an array, below visits none of which is a task,
the first pass from a state ready for each item hangs `ofItems`'s nodes and records the shown
visits. -/
theorem itemsLocated_runs : ∀ (way : List Nat) (above : List Visit) (sp : Tree.Span)
    (all : List Node)
    (i : Nat) (items : List Node) (s : Pass) (path : List Nat),
    above.any Visit.isTask = false → (∀ j, i ≤ j → Ready s (j :: way) path) →
    Runs t s path (Visit.itemsLocated way (.node (.array sp all) :: above) i items) (ofItems t items)
  | _, _, _, _, _, [], s, path, _, _ => Runs.nil s path
  | way, above, sp, all, i, n :: rest, s, path, free, ready => by
    rw [Visit.itemsLocated, ofItems]
    refine Runs.append (nodeLocated_runs (i :: way) _ n s path (by simp [Visit.isTask, free])
      (fun _ _ _ => by simp) (ready i (Nat.le_refl i))) ?_
    -- the later items hang their nodes after the first item's
    intro cs extra _ recorded
    refine itemsLocated_runs way above sp all (i + 1) rest _ path free fun j le => ?_
    refine (ready j (by omega)).after_sibling (i := i) (by omega) (fun e mem => ?_) cs
    obtain ⟨l, first, same⟩ := Runs.mem_ways recorded e mem
    exact same ▸ Visit.nodeLocated_way _ _ n l first

end

/-- The first pass over a whole tree, from its start, hangs `ofNode`'s nodes under the root. -/
theorem start_runs (root : Node) :
    Runs t (Pass.start t root) [] (Visit.nodeLocated [] [] root) (ofNode t root) :=
  nodeLocated_runs t [] [] root (Pass.start t root) [] rfl
    (fun _ _ _ => (List.cons_ne_nil _ _).symm) (Pass.start_ready t root)

/-- The first pass builds, under the root spanning the tree, exactly the nodes `ofNode` gives; so
it makes an outline exactly when every shown pair's value can be written. -/
theorem passOne_eq (root : Node) :
    passOne t root = (fun children =>
      ({ key := rootName, value := some (rootName : Text.Str),
         range := t.rangeOf root.span.start root.span.stop, children } : Outline)) <$> ofNode t root := by
  obtain ⟨extra, -, folds⟩ := start_runs t root
  rw [passOne, folds]
  cases ofNode t root with
  | none => rfl
  | some cs =>
    simp only [Option.map_eq_map, Option.map_some]
    rw [hangAll_root]
    rfl

/-- The side map of a finished first pass holds the ways up of the shown visits of the walk, in
the walk's order. So a visit below a pair keyed `task` is never recorded, and no visit is
recorded before a visit above it, or twice. -/
theorem passOne_records (root : Node) {s : Pass}
    (ran : (Visit.nodeLocated [] [] root).foldlM (passStep t) (Pass.start t root) = some s) :
    s.made.map Prod.fst =
        ((Visit.nodeLocated [] [] root).filter (·.toPlaced.shown)).map Located.way ∧
      (∀ l ∈ Visit.nodeLocated [] [] root, l.way ∈ s.made.map Prod.fst →
        l.above.any Visit.isTask = false) ∧
      (s.made.map Prod.fst).Pairwise fun a b => ¬ b <:+ a := by
  obtain ⟨extra, recorded, folds⟩ := start_runs t root
  have made : s.made = extra := by
    rw [folds] at ran
    cases built : ofNode t root with
    | none => rw [built] at ran; exact absurd ran (by simp)
    | some cs =>
      rw [built] at ran
      rw [← Option.some.inj ran]
      exact List.nil_append extra
  have ordered := Visit.nodeLocated_ordered [] [] root
  -- ways up tell the visits of the walk apart
  have distinct : ((Visit.nodeLocated [] [] root).map Located.way).Nodup :=
    ordered.imp fun {a b} (apart : ¬ b <:+ a) (same : a = b) => apart (same ▸ List.suffix_refl a)
  rw [made, recorded]
  refine ⟨rfl, fun l inWalk listed => ?_, ordered.sublist (List.filter_sublist.map _)⟩
  obtain ⟨l', kept, same⟩ := List.mem_map.1 listed
  obtain ⟨inWalk', shows⟩ := List.mem_filter.1 kept
  obtain rfl := List.inj_on_of_nodup_map distinct inWalk' inWalk same
  exact Bool.eq_false_iff.2 fun below =>
    Bool.false_ne_true ((Placed.shown_of_below_task below).symm.trans shows)

variable {t}

/-- The outline of a document whose first tree is `root`: the root node over the nodes of the
tree, flattened. -/
theorem build_cons (root : Node) (rest : List Node) (errors : List String) :
    build t ⟨root :: rest, errors⟩ = (fun children => flattenArrays
      { key := rootName, value := some (rootName : Text.Str),
        range := t.rangeOf root.span.start root.span.stop, children }) <$> ofNode t root := by
  show flattenArrays <$> passOne t root = _
  rw [passOne_eq]
  cases ofNode t root <;> rfl

/-- An outline of a document follows the walk of its first tree: the nodes below its root show,
in pre-order, the heads of the shown visits of the walk, with some wrappers left out and every
pair kept, and a kept visit in the subtree of another has its node in the other's subtree. -/
theorem follows_of_build {root : Node} {rest : List Node} {errors : List String} {o : Outline}
    (built : build t ⟨root :: rest, errors⟩ = some o) :
    ∃ kept : List (Placed × Nat), kept.Sublist (Tree.shownIn ((Visit.node root).placed [])) ∧
      (∀ e ∈ Tree.shownIn ((Visit.node root).placed []), e ∉ kept → e.1.visit.isPair = false) ∧
      (preorder 0 o.children).map (·.1.head) = kept.map (·.1.head t) ∧
      ∀ a b (ha : a < kept.length) (hb : b < kept.length), kept[a].2 < kept[b].2 →
        kept[b].2 < kept[a].2 + kept[a].1.visit.count → Within (preorder 0 o.children) a b := by
  have finds := ofNode_root_found (t := t) root
  rw [build_cons] at built
  cases outcome : ofNode t root with
  | none => rw [outcome] at built; exact absurd built (by simp)
  | some found =>
    rw [outcome] at built finds
    obtain rfl := Option.some.inj built
    exact flattenArrays_follows (Visit.placed_blocks [] (.node root)) finds _ _ _

/-- The outline of a document follows the walk of its first tree. It exists exactly when every
shown pair's value can be written. Its nodes below the root show, in pre-order, the heads of the
shown visits of the walk in order, with some wrappers left out and every pair kept; and a kept
visit in the subtree of another kept visit has its node in the subtree of the other's node. -/
theorem build_follows_walk (root : Node) (rest : List Node) (errors : List String) :
    let shown := Tree.shownIn ((Visit.node root).placed [])
    ((build t ⟨root :: rest, errors⟩).isSome ↔ ∀ e ∈ shown, e.1.writable = true) ∧
    ∀ o, build t ⟨root :: rest, errors⟩ = some o →
      ∃ kept : List (Placed × Nat), kept.Sublist shown ∧
        (∀ e ∈ shown, e ∉ kept → e.1.visit.isPair = false) ∧
        (preorder 0 o.children).map (·.1.head) = kept.map (·.1.head t) ∧
        ∀ a b (ha : a < kept.length) (hb : b < kept.length), kept[a].2 < kept[b].2 →
          kept[b].2 < kept[a].2 + kept[a].1.visit.count → Within (preorder 0 o.children) a b := by
  intro shown
  have finds := ofNode_root_found (t := t) root
  -- a shown visit is one of the walk's shown entries
  have entry : ∀ e ∈ shown, e.1 ∈ (Visit.node root).placed [] ∧ e.1.shown = true :=
    fun e mem => List.mem_filter.1 (Tree.shownIn_fst _ ▸ List.mem_map_of_mem mem)
  refine ⟨?_, fun o built => follows_of_build built⟩
  rw [build_cons]
  cases outcome : ofNode t root with
  | none =>
    rw [outcome] at finds
    obtain ⟨p, mem, shows, cannot⟩ := finds
    obtain ⟨e, inShown, rfl⟩ : ∃ e ∈ shown, e.1 = p :=
      List.mem_map.1 (Tree.shownIn_fst _ ▸ List.mem_filter.2 ⟨mem, shows⟩)
    refine ⟨fun made => absurd made Bool.false_ne_true, fun all => ?_⟩
    rw [all e inShown] at cannot
    exact absurd cannot.symm Bool.false_ne_true
  | some found =>
    rw [outcome] at finds
    exact ⟨fun _ e mem => finds.1 e.1 (entry e mem).1 (entry e mem).2, fun _ => rfl⟩

end Outline

end StageTree
