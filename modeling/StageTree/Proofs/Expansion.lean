import Mathlib
import StageTree.Proofs.Walk
import StageTree.Tree.Convert

/-!
# Expansion spends its budget on the tree it copies

Expanding a graph's node copies it into a tree while it spends a budget and watches how deep its
calls nest. Without either, the same expansion is `copy`: a reference back to a node whose copy
is being built becomes a null, and a scalar that makes a fault stops it with that fault. A copy
costs a unit per node and two more per pair, the number of visits a walk of it makes
(`Node.size`), and it nests `Node.reach` calls below the call that starts it.

Main statement: `expand_costs`. Expanding a node ends with its copy exactly when the copy nests
no deeper than the stack holds and costs no more than the budget left; the budget then drops by
the copy's size. Otherwise expansion stops: for the budget only when the copy costs more than
was left, for nesting only when the copy nests too deep, and with a fault only when that fault
stops the copy (`Costs`). Either way the marks of nodes being built are as they were.
`ofGraph_costs` says the same of a whole graph from its root.
-/

namespace StageTree.Tree

open Yaml

/-- The tree a graph node `n`, not being built already, copies to, its members through `child`:
a mapping's pairs with their keys, a sequence's items, a scalar's value from its tag. -/
def copyNode (g : Graph) (child : Nat → Except Fault Node) : GraphNode → Except Fault Node
  | .mapping pairs s e =>
    (pairs.toList.mapM fun (k, v) => (keyOf g k, ·) <$> child v).map
      (Node.object ⟨s.index, e.index⟩)
  | .sequence items s e => (items.toList.mapM child).map (Node.array ⟨s.index, e.index⟩)
  | .scalar tag value s e => (Scalar.ofTagged tag value).map (ofScalar ⟨s.index, e.index⟩)

/-- The tree node `i` of a graph copies to with no budget and no bound on nesting: a reference
back to a node whose copy is being built (marked in `building`) is a null, and a scalar's fault
stops the copy. `fuel` bounds the depth as in expansion. -/
def copy (g : Graph) : (fuel : Nat) → Array Bool → Nat → Except Fault Node
  | 0, _, _ => .ok (.null ⟨0, 0⟩)
  | fuel + 1, building, i =>
    match g.nodes[i]? with
    | none => .ok (.null ⟨0, 0⟩)
    | some n =>
      if building.getD i false then .ok (.null (spanOf n))
      else copyNode g (copy g fuel (building.setIfInBounds i true)) n

namespace Node

/-- The tree a graph copies to from its root, with no node marked as being built. -/
def unfold (g : Graph) : Except Fault Node :=
  copy g (g.nodes.size + 1) (Array.replicate g.nodes.size false) g.root

/-- The size of a tree as a walk counts it: a unit per node, and per pair two more, for the pair
and its key. -/
def size (n : Node) : Nat := (Visit.node n).count

mutual

/-- How many calls below the one expanding it a tree nests: an object looks one call down before
its pairs and expands their values two calls down, an array its items one call down. -/
def reach : Node → Nat
  | object _ pairs => max 1 (pairsReach pairs)
  | array _ items => itemsReach items
  | _ => 0

/-- How many calls below an object's own the values of its pairs nest. -/
def pairsReach : List (Key × Node) → Nat
  | [] => 0
  | (_, v) :: rest => max (2 + reach v) (pairsReach rest)

/-- How many calls below an array's own its items nest. -/
def itemsReach : List Node → Nat
  | [] => 0
  | n :: rest => max (1 + reach n) (itemsReach rest)

end

/-- A tree's size is the length of its pre-order walk. -/
theorem size_eq (n : Node) : n.size = (Visit.nodePreorder n).length := rfl

@[simp]
theorem size_object (s : Span) (pairs : List (Key × Node)) :
    (object s pairs).size = 1 + (pairs.map fun p => 2 + p.2.size).sum := by
  rw [size_eq, Visit.nodePreorder, List.length_cons, Visit.pairsPreorder_eq, List.length_flatMap,
    Nat.add_comm]
  congr 2
  apply List.map_congr_left
  intro p _
  simp only [List.length_cons, size_eq]
  omega

@[simp]
theorem size_array (s : Span) (items : List Node) :
    (array s items).size = 1 + (items.map size).sum := by
  rw [size_eq, Visit.nodePreorder, List.length_cons, Visit.itemsPreorder_eq, List.length_flatMap,
    Nat.add_comm]
  rfl

@[simp] theorem size_null (s : Span) : (null s).size = 1 := rfl

/-- Every tree has at least its root. -/
theorem one_le_size (n : Node) : 1 ≤ n.size := by
  rw [size, Visit.count, Visit.preorder_eq_cons, List.length_cons]
  omega

@[simp] theorem reach_object (s : Span) (pairs : List (Key × Node)) :
    (object s pairs).reach = max 1 (pairsReach pairs) := by
  rw [reach]

@[simp] theorem reach_array (s : Span) (items : List Node) :
    (array s items).reach = itemsReach items := by
  rw [reach]

@[simp] theorem reach_null (s : Span) : (null s).reach = 0 := rfl

/-- The values of pairs nest within `m` calls when each does. -/
theorem pairsReach_le {m : Nat} {pairs : List (Key × Node)} :
    pairsReach pairs ≤ m ↔ ∀ p ∈ pairs, 2 + p.2.reach ≤ m := by
  induction pairs with
  | nil => simp [pairsReach]
  | cons p rest ih =>
    obtain ⟨k, v⟩ := p
    rw [pairsReach, Nat.max_le, ih, List.forall_mem_cons]

/-- Items nest within `m` calls when each does. -/
theorem itemsReach_le {m : Nat} {items : List Node} :
    itemsReach items ≤ m ↔ ∀ n ∈ items, 1 + n.reach ≤ m := by
  induction items with
  | nil => simp [itemsReach]
  | cons n rest ih => rw [itemsReach, Nat.max_le, ih, List.forall_mem_cons]

/-- An object fits below `calls` when the call that looks at its pairs does and each value fits two
calls down. -/
theorem object_fits_iff {calls m : Nat} (s : Span) (pairs : List (Key × Node)) :
    calls + (object s pairs).reach ≤ m ↔ calls + 1 ≤ m ∧ ∀ p ∈ pairs, calls + 2 + p.2.reach ≤ m := by
  rw [reach_object]
  constructor
  · intro fit
    have look := Nat.le_max_left 1 (pairsReach pairs)
    have values := Nat.le_max_right 1 (pairsReach pairs)
    refine ⟨by omega, fun p mem => ?_⟩
    have := pairsReach_le.1 (Nat.le_refl _) p mem
    omega
  · rintro ⟨look, each⟩
    have below : pairsReach pairs ≤ m - calls :=
      pairsReach_le.2 fun p mem => by have := each p mem; omega
    have := Nat.max_le.2 ⟨show 1 ≤ m - calls by omega, below⟩
    omega

/-- An array fits below `calls` when `calls` itself does and each item fits one call down. -/
theorem array_fits_iff {calls m : Nat} (s : Span) (items : List Node) :
    calls + (array s items).reach ≤ m ↔ calls ≤ m ∧ ∀ n ∈ items, calls + 1 + n.reach ≤ m := by
  rw [reach_array]
  constructor
  · intro fit
    refine ⟨by omega, fun n mem => ?_⟩
    have := itemsReach_le.1 (Nat.le_refl _) n mem
    omega
  · rintro ⟨shallow, each⟩
    have : itemsReach items ≤ m - calls :=
      itemsReach_le.2 fun n mem => by have := each n mem; omega
    omega

end Node

/-- A node not being built copies as its kind says, marked while its members are copied. -/
theorem copy_of_unmarked {g : Graph} {fuel i : Nat} {b : Array Bool} {n : GraphNode}
    (node : g.nodes[i]? = some n) (unmarked : b.getD i false = false) :
    copy g (fuel + 1) b i = copyNode g (copy g fuel (b.setIfInBounds i true)) n := by
  rw [copy, node]
  dsimp only
  rw [unmarked, if_neg Bool.false_ne_true]

/-- No node is marked before expansion starts. -/
theorem replicate_unmarked (size i : Nat) : (Array.replicate size false).getD i false = false := by
  rw [Array.getD_eq_getD_getElem?, Array.getElem?_replicate]
  split <;> rfl

/-! ## Running the steps of expansion -/

/-- Paying `n` units takes them off what is left, and stops when that leaves less than
nothing. -/
theorem run_spend (n : Nat) (e : Expansion) :
    (spend n).run e =
      if e.remaining - n < 0 then .error .overBudget ⟨e.remaining - n, e.building⟩
      else .ok () ⟨e.remaining - n, e.building⟩ := by
  simp only [spend, EStateM.run, bind, EStateM.bind, get, getThe, MonadStateOf.get, EStateM.get,
    set, MonadStateOf.set, EStateM.set, throw, throwThe, MonadExceptOf.throw, pure]
  split <;> rfl

/-- Entering a node stops, with nothing changed, when it lies deeper than the stack holds, and
else pays a unit. -/
theorem run_enterNode_bind {α : Type} (calls : Nat) (m : ExpandM α) (e : Expansion) :
    (enterNode calls >>= fun _ => m).run e =
      if calls > maxCalls then .error .tooDeep e else (spend 1 >>= fun _ => m).run e := by
  rw [enterNode]
  split <;> rfl

theorem run_setBuilding (i : Nat) (mark : Bool) (e : Expansion) :
    (setBuilding i mark).run e = .ok () ⟨e.remaining, e.building.setIfInBounds i mark⟩ := rfl

/-- Reading the state hands it to what follows. -/
theorem run_get_bind {α : Type} (f : Expansion → ExpandM α) (e : Expansion) :
    (get >>= f).run e = (f e).run e := rfl

/-- A step that ends with a value, mapped, ends with the mapped value in the same state. -/
theorem run_map_ok {α β : Type} {f : α → β} {m : ExpandM α} {e s : Expansion} {a : α}
    (made : m.run e = .ok a s) : (f <$> m).run e = .ok (f a) s := by
  simp only [EStateM.run] at made
  simp only [EStateM.run, Functor.map, EStateM.map, made]

/-- A step that stops, mapped, stops the same way in the same state. -/
theorem run_map_error {α β : Type} {f : α → β} {m : ExpandM α} {e s : Expansion}
    {stop : ExpandStop} (stopped : m.run e = .error stop s) : (f <$> m).run e = .error stop s := by
  simp only [EStateM.run] at stopped
  simp only [EStateM.run, Functor.map, EStateM.map, stopped]

/-- A step that ends with a value hands it and its state to what follows. -/
theorem run_bind_ok {α β : Type} {m : ExpandM α} {f : α → ExpandM β} {e s : Expansion} {a : α}
    (made : m.run e = .ok a s) : (m >>= f).run e = (f a).run s := by
  rw [EStateM.run_bind, made]

/-- A step that stops stops what follows it, in the state it stopped in. -/
theorem run_bind_error {α β : Type} {m : ExpandM α} {f : α → ExpandM β} {e s : Expansion}
    {stop : ExpandStop} (stopped : m.run e = .error stop s) : (m >>= f).run e = .error stop s := by
  rw [EStateM.run_bind, stopped]

/-- Marking around a step that ends with a tree: the mark comes off after. -/
theorem run_marking_ok {i : Nat} {m : ExpandM Node} {e s : Expansion} {t : Node}
    (made : m.run ⟨e.remaining, e.building.setIfInBounds i true⟩ = .ok t s) :
    (marking i m).run e = .ok t ⟨s.remaining, s.building.setIfInBounds i false⟩ := by
  simp only [EStateM.run] at made
  simp only [marking, EStateM.run, bind, EStateM.bind, tryFinally, tryFinally', setBuilding,
    modify, modifyGet, MonadStateOf.modifyGet, EStateM.modifyGet, Functor.map, EStateM.map, made]

/-- Marking around a step that stops: the mark comes off on the way out. -/
theorem run_marking_error {i : Nat} {m : ExpandM Node} {e s : Expansion} {stop : ExpandStop}
    (stopped : m.run ⟨e.remaining, e.building.setIfInBounds i true⟩ = .error stop s) :
    (marking i m).run e = .error stop ⟨s.remaining, s.building.setIfInBounds i false⟩ := by
  simp only [EStateM.run] at stopped
  simp only [marking, EStateM.run, bind, EStateM.bind, tryFinally, tryFinally', setBuilding,
    modify, modifyGet, MonadStateOf.modifyGet, EStateM.modifyGet, Functor.map, EStateM.map,
    stopped]

/-- Marking a node that was not marked and taking the mark off again leaves the marks as they
were. -/
theorem setIfInBounds_unmark {b : Array Bool} {i : Nat} (unmarked : b.getD i false = false) :
    (b.setIfInBounds i true).setIfInBounds i false = b := by
  rw [Array.setIfInBounds_setIfInBounds]
  apply Array.ext_getElem?
  intro j
  rw [Array.getElem?_setIfInBounds]
  by_cases same : i = j
  · subst same
    rw [Array.getD_eq_getD_getElem?] at unmarked
    by_cases inside : i < b.size
    · rw [if_pos rfl, if_pos inside, Array.getElem?_eq_getElem inside]
      rw [Array.getElem?_eq_getElem inside, Option.getD_some] at unmarked
      rw [unmarked]
    · rw [if_pos rfl, if_neg inside, Array.getElem?_eq_none (by omega)]
  · rw [if_neg same]

/-- Running steps over a list whose first step ends with a value runs the rest from where it
left, the value put first. -/
theorem run_mapM_cons_ok {α γ : Type} {step : γ → ExpandM α} {x : γ} {xs : List γ}
    {e s : Expansion} {a : α} (made : (step x).run e = .ok a s) :
    ((x :: xs).mapM step).run e = ((a :: ·) <$> xs.mapM step).run s := by
  rw [List.mapM_cons, run_bind_ok made, bind_pure_comp]

/-- Running steps over a list whose first step stops stops there. -/
theorem run_mapM_cons_error {α γ : Type} {step : γ → ExpandM α} {x : γ} {xs : List γ}
    {e s : Expansion} {stop : ExpandStop} (stopped : (step x).run e = .error stop s) :
    ((x :: xs).mapM step).run e = .error stop s := by
  rw [List.mapM_cons, run_bind_error stopped]

theorem ok_bind {ε α β : Type} (a : α) (f : α → Except ε β) : (Except.ok a >>= f) = f a := rfl

theorem error_bind {ε α β : Type} (x : ε) (f : α → Except ε β) :
    (Except.error x >>= f) = .error x := rfl

/-- A value mapped in `Except` is a value only when the one it maps is. -/
theorem map_eq_ok {ε α β : Type} {f : α → β} {c : Except ε α} {b : β} (made : f <$> c = .ok b) :
    ∃ a, c = .ok a ∧ f a = b := by
  cases c with
  | ok a =>
    cases made
    exact ⟨a, rfl, rfl⟩
  | error _ => cases made

/-- A list run through `mapM` in `Except` gives a list only when its head and its tail do. -/
theorem mapM_cons_eq_ok {γ α ε : Type} {f : γ → Except ε α} {x : γ} {xs : List γ} {l : List α}
    (made : (x :: xs).mapM f = .ok l) :
    ∃ a as, f x = .ok a ∧ xs.mapM f = .ok as ∧ l = a :: as := by
  rw [List.mapM_cons] at made
  cases head : f x with
  | error _ => simp [head, bind, Except.bind] at made
  | ok a =>
    cases tail : xs.mapM f with
    | error _ => simp [head, tail, bind, Except.bind] at made
    | ok as =>
      simp only [head, tail, bind, Except.bind, pure, Except.pure, Except.ok.injEq] at made
      exact ⟨a, as, rfl, rfl, made.symm⟩

/-! ## What a step of expansion costs -/

section Costs

variable {α β γ : Type}

/-- How a step of expansion from `e` may end, against the value `c` it makes with no budget and
no bound on nesting, where a value costs `size` units and `fits` says it nests no deeper than
the stack holds. It ends with that value only when the value fits and costs no more than was
left, and then the cost is paid. It stops for the budget only when the value costs more than was
left, for nesting only when the value does not fit, and with a fault only when that fault stops
the copy. However it ends, the marks of nodes being built are as they were. -/
def Costs (size : α → Nat) (fits : α → Prop) (e : Expansion) (c : Except Fault α) :
    EStateM.Result ExpandStop Expansion α → Prop
  | .ok a after => c = .ok a ∧ fits a ∧ (size a : Int) ≤ e.remaining ∧
      after = ⟨e.remaining - size a, e.building⟩
  | .error .overBudget after => after.building = e.building ∧ ∀ a, c = .ok a → e.remaining < size a
  | .error .tooDeep after => after.building = e.building ∧ ∀ a, c = .ok a → ¬fits a
  | .error (.fault f) after => after.building = e.building ∧ c = .error f

/-- The state a step of expansion ends in, with a value or stopped. -/
def after : EStateM.Result ExpandStop Expansion α → Expansion
  | .ok _ s => s
  | .error _ s => s

variable {size : α → Nat} {fits : α → Prop} {e : Expansion} {c : Except Fault α}
  {r : EStateM.Result ExpandStop Expansion α}

/-- However a step that keeps to `Costs` ends, it leaves the marks as they were. -/
theorem Costs.building (costs : Costs size fits e c r) : (after r).building = e.building := by
  match r, costs with
  | .ok _ _, ⟨_, _, _, rfl⟩ => rfl
  | .error .overBudget _, ⟨same, _⟩ => exact same
  | .error .tooDeep _, ⟨same, _⟩ => exact same
  | .error (.fault _) _, ⟨same, _⟩ => exact same

/-- A step whose value fits and costs no more than was left ends with that value. -/
theorem Costs.eq_ok {a : α} (costs : Costs size fits e (.ok a) r) (fit : fits a)
    (within : (size a : Int) ≤ e.remaining) :
    r = .ok a ⟨e.remaining - size a, e.building⟩ := by
  match r, costs with
  | .ok _ _, ⟨made, _, _, rfl⟩ =>
    cases made
    rfl
  | .error .overBudget _, ⟨_, overrun⟩ => exact absurd (overrun a rfl) (by omega)
  | .error .tooDeep _, ⟨_, deep⟩ => exact absurd fit (deep a rfl)
  | .error (.fault _) _, ⟨_, faulted⟩ => cases faulted

/-- A step whose value costs no more than was left but does not fit stops for nesting. -/
theorem Costs.eq_tooDeep {a : α} (costs : Costs size fits e (.ok a) r) (deep : ¬fits a)
    (within : (size a : Int) ≤ e.remaining) : ∃ s, r = .error .tooDeep s := by
  match r, costs with
  | .ok _ _, ⟨made, fit, _, _⟩ =>
    cases made
    exact absurd fit deep
  | .error .overBudget _, ⟨_, overrun⟩ => exact absurd (overrun a rfl) (by omega)
  | .error .tooDeep s, _ => exact ⟨s, rfl⟩
  | .error (.fault _) _, ⟨_, faulted⟩ => cases faulted

/-- Renaming a step's values keeps its costs when the renaming keeps each value's size and fit. -/
theorem Costs.map {sizeB : β → Nat} {fitsB : β → Prop} (f : α → β)
    (sized : ∀ a, sizeB (f a) = size a) (fitted : ∀ a, fitsB (f a) ↔ fits a) {m : ExpandM α}
    {from_ : Expansion} (costs : Costs size fits e c (m.run from_)) :
    Costs sizeB fitsB e (f <$> c) ((f <$> m).run from_) := by
  revert costs
  cases ran : m.run from_ with
  | ok a _ =>
    rw [run_map_ok ran]
    rintro ⟨made, fit, within, rfl⟩
    subst made
    exact ⟨rfl, (fitted a).2 fit, by rw [sized]; exact within, by rw [sized]⟩
  | error stop _ =>
    rw [run_map_error ran]
    cases stop with
    | overBudget =>
      rintro ⟨same, overrun⟩
      refine ⟨same, fun b made => ?_⟩
      obtain ⟨a, rfl, rfl⟩ := map_eq_ok made
      rw [sized]
      exact overrun a rfl
    | tooDeep =>
      rintro ⟨same, deep⟩
      refine ⟨same, fun b made => ?_⟩
      obtain ⟨a, rfl, rfl⟩ := map_eq_ok made
      rw [fitted]
      exact deep a rfl
    | fault _ =>
      rintro ⟨same, faulted⟩
      subst faulted
      exact ⟨same, rfl⟩

/-- Paying `k` units before a step adds `k` to what each of its values costs. -/
theorem costs_spend {m : ExpandM α} (k : Nat) (e : Expansion)
    (rest : 0 ≤ e.remaining - k →
      Costs size fits ⟨e.remaining - k, e.building⟩ c (m.run ⟨e.remaining - k, e.building⟩)) :
    Costs (fun a => k + size a) fits e c ((spend k >>= fun _ => m).run e) := by
  rw [EStateM.run_bind, run_spend]
  by_cases short : e.remaining - k < 0
  · rw [if_pos short]
    refine ⟨rfl, fun a _ => ?_⟩
    dsimp only
    omega
  · rw [if_neg short]
    have costs := rest (by omega)
    show Costs (fun a => k + size a) fits e c (m.run ⟨e.remaining - k, e.building⟩)
    revert costs
    cases m.run ⟨e.remaining - k, e.building⟩ with
    | ok a _ =>
      rintro ⟨made, fit, within, rfl⟩
      dsimp only at within
      refine ⟨made, fit, by dsimp only; omega, ?_⟩
      congr 1
      dsimp only
      omega
    | error stop _ =>
      cases stop with
      | overBudget =>
        rintro ⟨same, overrun⟩
        refine ⟨same, fun a made => ?_⟩
        have := overrun a made
        dsimp only at this ⊢
        omega
      | tooDeep => exact id
      | fault f => exact id

/-- A fitting value, put before the values of a step run from what was left, adds its
own units to theirs. -/
theorem Costs.cons {a : α} {cs : Except Fault (List α)} {ms : ExpandM (List α)} (fit : fits a)
    (tail : Costs (fun as => (as.map size).sum) (fun as => ∀ x ∈ as, fits x)
      ⟨e.remaining - size a, e.building⟩ cs (ms.run ⟨e.remaining - size a, e.building⟩)) :
    Costs (fun as => (as.map size).sum) (fun as => ∀ x ∈ as, fits x) e ((a :: ·) <$> cs)
      (((a :: ·) <$> ms).run ⟨e.remaining - size a, e.building⟩) := by
  revert tail
  cases ran : ms.run ⟨e.remaining - size a, e.building⟩ with
  | ok as _ =>
    rw [run_map_ok ran]
    rintro ⟨made, fitAll, withinAll, rfl⟩
    subst made
    dsimp only at withinAll
    refine ⟨rfl, List.forall_mem_cons.2 ⟨fit, fitAll⟩, ?_, ?_⟩
    · simp only [List.map_cons, List.sum_cons]
      omega
    · simp only [List.map_cons, List.sum_cons, Expansion.mk.injEq, and_true]
      omega
  | error stop _ =>
    rw [run_map_error ran]
    cases stop with
    | overBudget =>
      rintro ⟨same, overrun⟩
      refine ⟨same, fun l made => ?_⟩
      obtain ⟨as, rest, rfl⟩ := map_eq_ok made
      have := overrun as rest
      dsimp only at this
      simp only [List.map_cons, List.sum_cons]
      omega
    | tooDeep =>
      rintro ⟨same, deep⟩
      refine ⟨same, fun l made fitAll => ?_⟩
      obtain ⟨as, rest, rfl⟩ := map_eq_ok made
      exact deep as rest fun x mem => fitAll x (List.mem_cons_of_mem a mem)
    | fault _ =>
      rintro ⟨same, faulted⟩
      subst faulted
      exact ⟨same, rfl⟩

/-- Steps that each keep to `Costs` from any budget left, with the same marks, keep to it when
run one after another: their values' units add up, and all of them must fit. -/
theorem costs_mapM {step : γ → ExpandM α} {copyOf : γ → Except Fault α} {b : Array Bool} :
    ∀ {xs : List γ}, (∀ x ∈ xs, ∀ r : Int, 0 ≤ r →
      Costs size fits ⟨r, b⟩ (copyOf x) ((step x).run ⟨r, b⟩)) →
    ∀ r : Int, 0 ≤ r → Costs (fun as => (as.map size).sum) (fun as => ∀ a ∈ as, fits a) ⟨r, b⟩
      (xs.mapM copyOf) ((xs.mapM step).run ⟨r, b⟩)
  | [], _, r, nonneg => ⟨rfl, by simp, by simpa using nonneg, by simp⟩
  | x :: xs, each, r, nonneg => by
    have head := each x List.mem_cons_self r nonneg
    have rest := costs_mapM fun y (mem : y ∈ xs) => each y (List.mem_cons_of_mem x mem)
    have copies : (x :: xs).mapM copyOf =
        (copyOf x >>= fun a => xs.mapM copyOf >>= fun as => pure (a :: as)) := List.mapM_cons
    revert head
    cases ran : (step x).run ⟨r, b⟩ with
    | ok a _ =>
      rintro ⟨made, fit, within, rfl⟩
      -- the rest runs from what the first step left
      rw [run_mapM_cons_ok ran, copies, made, ok_bind, bind_pure_comp]
      exact Costs.cons fit (rest _ (by omega))
    | error stop _ =>
      rw [run_mapM_cons_error ran]
      cases stop with
      | overBudget =>
        rintro ⟨same, costs⟩
        refine ⟨same, fun l made => ?_⟩
        obtain ⟨a, as, first, -, rfl⟩ := mapM_cons_eq_ok made
        have := costs a first
        dsimp only at this
        simp only [List.map_cons, List.sum_cons]
        omega
      | tooDeep =>
        rintro ⟨same, costs⟩
        refine ⟨same, fun l made fitAll => ?_⟩
        obtain ⟨a, as, first, -, rfl⟩ := mapM_cons_eq_ok made
        exact costs a first (fitAll a List.mem_cons_self)
      | fault f =>
        rintro ⟨same, costs⟩
        refine ⟨same, ?_⟩
        rw [copies, costs]
        rfl

end Costs

/-! ## Expanding a node -/

@[simp] theorem size_ofScalar (span : Span) (v : Scalar) : (ofScalar span v).size = 1 := by
  cases v <;> rfl

@[simp] theorem reach_ofScalar (span : Span) (v : Scalar) : (ofScalar span v).reach = 0 := by
  cases v <;> rfl

/-- A null made at a depth the stack holds, from what is left, costs nothing past its unit. -/
theorem costs_null (span : Span) {calls : Nat} {r : Int} (b : Array Bool)
    (shallow : calls ≤ maxCalls) (nonneg : 0 ≤ r) :
    Costs (fun t => t.size - 1) (fun t => calls + t.reach ≤ maxCalls) ⟨r, b⟩ (.ok (.null span))
      ((pure (.null span) : ExpandM Node).run ⟨r, b⟩) :=
  ⟨rfl, by simpa using shallow, by simpa using nonneg, by simp⟩

/-- Entering a node checks its depth and pays its unit; what follows pays the rest. -/
theorem costs_enterNode {m : ExpandM Node} {c : Except Fault Node} {calls : Nat} {r : Int}
    {b : Array Bool}
    (rest : calls ≤ maxCalls → 0 ≤ r - 1 →
      Costs (fun t => t.size - 1) (fun t => calls + t.reach ≤ maxCalls) ⟨r - 1, b⟩ c
        (m.run ⟨r - 1, b⟩)) :
    Costs Node.size (fun t => calls + t.reach ≤ maxCalls) ⟨r, b⟩ c
      ((enterNode calls >>= fun _ => m).run ⟨r, b⟩) := by
  rw [run_enterNode_bind]
  by_cases deep : calls > maxCalls
  · rw [if_pos deep]
    refine ⟨rfl, fun t _ fit => ?_⟩
    omega
  · rw [if_neg deep]
    have paid : Costs (fun t : Node => 1 + (t.size - 1)) (fun t => calls + t.reach ≤ maxCalls)
        ⟨r, b⟩ c ((spend 1 >>= fun _ => m).run ⟨r, b⟩) :=
      costs_spend 1 ⟨r, b⟩ fun nonneg => rest (by omega) nonneg
    have whole : (fun t : Node => 1 + (t.size - 1)) = Node.size :=
      funext fun t => by have := t.one_le_size; omega
    rw [whole] at paid
    exact paid

/-- Marking a node that was not marked around a step keeps the step's costs: the mark comes off
again, whether the step ends with a tree or stops. -/
theorem costs_marking {m : ExpandM Node} {size : Node → Nat} {fits : Node → Prop}
    {c : Except Fault Node} {i : Nat} {r : Int} {b : Array Bool}
    (unmarked : b.getD i false = false)
    (inner : Costs size fits ⟨r, b.setIfInBounds i true⟩ c (m.run ⟨r, b.setIfInBounds i true⟩)) :
    Costs size fits ⟨r, b⟩ c ((marking i m).run ⟨r, b⟩) := by
  have back := setIfInBounds_unmark unmarked
  revert inner
  cases ran : m.run ⟨r, b.setIfInBounds i true⟩ with
  | ok t s =>
    rw [run_marking_ok ran]
    rintro ⟨made, fit, within, rfl⟩
    exact ⟨made, fit, within, by rw [back]⟩
  | error stop s =>
    rw [run_marking_error ran]
    cases stop with
    | overBudget =>
      rintro ⟨same, overrun⟩
      exact ⟨by dsimp only at same ⊢; rw [same, back], overrun⟩
    | tooDeep =>
      rintro ⟨same, deep⟩
      exact ⟨by dsimp only at same ⊢; rw [same, back], deep⟩
    | fault _ =>
      rintro ⟨same, faulted⟩
      exact ⟨by dsimp only at same ⊢; rw [same, back], faulted⟩

/-- Expanding a node's members keeps to `Costs`, past the node's own unit, when expanding each
member does at its depth: an object's pairs cost two units each and its values their own, an
array's items their own, and a scalar nothing more. -/
theorem costs_expandNode (g : Graph) {child : Nat → Nat → ExpandM Node}
    {copyChild : Nat → Except Fault Node} {b : Array Bool} {calls : Nat}
    (each : ∀ (depth v : Nat) (r : Int), 0 ≤ r →
      Costs Node.size (fun t => depth + t.reach ≤ maxCalls) ⟨r, b⟩ (copyChild v)
        ((child depth v).run ⟨r, b⟩))
    (shallow : calls ≤ maxCalls) (n : GraphNode) (r : Int) (nonneg : 0 ≤ r) :
    Costs (fun t => t.size - 1) (fun t => calls + t.reach ≤ maxCalls) ⟨r, b⟩
      (copyNode g copyChild n) ((expandNode g child calls n).run ⟨r, b⟩) := by
  cases n with
  | mapping pairs s e =>
    rw [expandNode, copyNode]
    by_cases deep : calls + 1 > maxCalls
    · -- an object looks one call down before any of its pairs
      rw [if_pos deep]
      refine ⟨rfl, fun t made fit => ?_⟩
      obtain ⟨l, -, rfl⟩ := map_eq_ok made
      have look := ((Node.object_fits_iff _ l).1 fit).1
      omega
    · rw [if_neg deep]
      dsimp only
      rw [bind_pure_comp]
      refine Costs.map _ (fun l => ?_) (fun l => ?_)
        (@costs_mapM _ _ (fun q : Key × Node => 2 + q.2.size)
          (fun q => calls + 2 + q.2.reach ≤ maxCalls) _ _ _ _ (fun p _ r' nonneg' => ?_) r nonneg)
      · rw [Node.size_object]
        omega
      · rw [Node.object_fits_iff]
        exact ⟨And.right, fun each => ⟨by omega, each⟩⟩
      · -- a pair pays two units, then its value is expanded two calls down
        obtain ⟨k, v⟩ := p
        show Costs _ _ _ ((keyOf g k, ·) <$> copyChild v)
          ((spend 2 >>= fun _ => child (calls + 2) v >>= fun t => pure (keyOf g k, t)).run _)
        refine costs_spend 2 _ fun paid => ?_
        rw [bind_pure_comp]
        exact Costs.map _ (fun _ => rfl) (fun _ => Iff.rfl) (each (calls + 2) v _ paid)
  | sequence items s e =>
    rw [expandNode, copyNode, bind_pure_comp]
    refine Costs.map _ (fun l => ?_) (fun l => ?_)
      (@costs_mapM _ _ Node.size (fun t => calls + 1 + t.reach ≤ maxCalls) _ _ _ _
        (fun v _ r' nonneg' => each (calls + 1) v r' nonneg') r nonneg)
    · rw [Node.size_array]
      omega
    · rw [Node.array_fits_iff]
      exact ⟨And.right, fun each => ⟨shallow, each⟩⟩
  | scalar tag value s e =>
    rw [expandNode, copyNode]
    cases Scalar.ofTagged tag value with
    | ok v =>
      refine ⟨rfl, ?_, ?_, ?_⟩
      · simpa using shallow
      · simpa using nonneg
      · simp
    | error f => exact ⟨rfl, rfl⟩

/-- Expanding node `i` of a graph at call depth `calls` from `r` units with the marks `b` keeps to
`Costs` against the node's copy: it ends with the copy when the copy nests no deeper than the
stack holds and costs no more than was left, each way it stops answers to the copy, and every
way it ends leaves the marks as they were. -/
theorem expand_costs (g : Graph) : ∀ (fuel calls i : Nat) (r : Int) (b : Array Bool),
    Costs Node.size (fun t => calls + t.reach ≤ maxCalls) ⟨r, b⟩ (copy g fuel b i)
      ((expand g fuel calls i).run ⟨r, b⟩)
  | 0, calls, i, r, b => by
    rw [expand, copy]
    exact costs_enterNode fun shallow nonneg => costs_null _ b shallow nonneg
  | fuel + 1, calls, i, r, b => by
    rw [expand]
    refine costs_enterNode fun shallow nonneg => ?_
    rw [copy]
    cases g.nodes[i]? with
    | none => exact costs_null _ b shallow nonneg
    | some n =>
      dsimp only
      rw [run_get_bind]
      dsimp only
      by_cases marked : b.getD i false = true
      · -- a reference back to a node being built is a null
        rw [if_pos marked, if_pos marked]
        exact costs_null _ b shallow nonneg
      · rw [if_neg marked, if_neg marked]
        have unmarked : b.getD i false = false := by simpa using marked
        exact costs_marking unmarked (costs_expandNode g
          (fun depth v r' _ => expand_costs g fuel depth v r' _) shallow n (r - 1) nonneg)

/-- Reading a whole graph from its root, at the first call and with no node marked, from `r`
units: it gives the tree the graph unfolds to, and what is left, when that tree nests no deeper
than the stack holds and costs at most `r`; it stops for the budget only when the tree costs
more, for nesting only when the tree nests too deep, and with a fault only when that fault stops
the unfolding. -/
theorem ofGraph_costs (g : Graph) (r : Int) :
    match Node.ofGraph g r with
    | .ok (t, left) => Node.unfold g = .ok t ∧ 1 + t.reach ≤ maxCalls ∧ (t.size : Int) ≤ r ∧
        left = r - t.size
    | .error .overBudget => ∀ t, Node.unfold g = .ok t → r < t.size
    | .error .tooDeep => ∀ t, Node.unfold g = .ok t → maxCalls < 1 + t.reach
    | .error (.fault f) => Node.unfold g = .error f := by
  have costs := expand_costs g (g.nodes.size + 1) 1 g.root r (Array.replicate g.nodes.size false)
  rw [Node.ofGraph]
  revert costs
  cases (expand g (g.nodes.size + 1) 1 g.root).run ⟨r, Array.replicate g.nodes.size false⟩ with
  | ok t after =>
    rintro ⟨made, fit, within, rfl⟩
    exact ⟨made, fit, within, rfl⟩
  | error stop _ =>
    cases stop with
    | overBudget => exact fun costs => costs.2
    | tooDeep => exact fun costs t made => Nat.lt_of_not_le (costs.2 t made)
    | fault f => exact fun costs => costs.2

end StageTree.Tree
