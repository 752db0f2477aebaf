import Mathlib
import StageTree.Proofs.SpanOrder

/-!
# Composing events in order builds nesting graphs

Composing reads events one by one. A scalar is a node with the scalar's span; a collection is a
node that starts where its start event starts and, once its end event comes, stops where that
event stops; each finished node becomes the next member of the collection being filled. When
the events stand in the order of the text and none is an alias, the members of every collection
therefore lie in order inside it, so every graph composed nests.

While a document is read, the collections not yet closed form a stack. The invariant
(`Composes`) is that every node made nests; that the members of each open collection lie in order
from its start up to the start of the collection opened inside it, or, for the innermost, up to
the end of the last event; and that no member of anything is an open collection, whose node is
only a placeholder until it is closed. An alias would break the order: it makes the anchored
node, which lies earlier in the text, the next member once more.

Main statement: `compose_nests`.
-/

namespace StageTree.Yaml

open StageTree.Tree

namespace OpenCollection

/-- The members of a collection being filled, in order: a sequence's items; a mapping's keys and
values, in turn, then the key waiting for its value. -/
def members (e : OpenCollection) : List Nat :=
  if e.isMapping then e.pairs.toList.flatMap (fun (k, v) => [k, v]) ++ e.pendingKey.toList
  else e.items.toList

/-- A collection being filled with one more member: a sequence's next item, a mapping's next
key, or the value of the key waiting. -/
def add (e : OpenCollection) (id : Nat) : OpenCollection :=
  if e.isMapping then
    match e.pendingKey with
    | none => { e with pendingKey := some id }
    | some k => { e with pairs := e.pairs.push (k, id), pendingKey := none }
  else { e with items := e.items.push id }

@[simp]
theorem add_node (e : OpenCollection) (id : Nat) : (e.add id).node = e.node := by
  unfold add
  split
  · split <;> rfl
  · rfl

/-- Adding a member puts it after the others. -/
theorem members_add (e : OpenCollection) (id : Nat) : (e.add id).members = e.members ++ [id] := by
  unfold add members
  split
  · rename_i mapping
    split <;> rename_i pending <;> simp [mapping, pending]
  · simp

end OpenCollection

/-! ## Spans of an array of nodes as it changes -/

theorem spanAt_push {nodes : Array GraphNode} {n : GraphNode} {j : Nat} (lt : j < nodes.size) :
    spanAt (nodes.push n) j = spanAt nodes j := by
  simp [spanAt, Array.getElem?_push, Nat.ne_of_lt lt]

theorem spanAt_push_size (nodes : Array GraphNode) (n : GraphNode) :
    spanAt (nodes.push n) nodes.size = spanOf n := by
  simp [spanAt]

theorem spanAt_set_of_ne {nodes : Array GraphNode} {i j : Nat} (n : GraphNode) (ne : i ≠ j) :
    spanAt (nodes.setIfInBounds i n) j = spanAt nodes j := by
  simp [spanAt, Array.getElem?_setIfInBounds_ne ne]

theorem spanAt_set_self {nodes : Array GraphNode} {i : Nat} (n : GraphNode) (lt : i < nodes.size) :
    spanAt (nodes.setIfInBounds i n) i = spanOf n := by
  simp [spanAt, Array.getElem?_setIfInBounds_self_of_lt lt]

theorem spanAt_of_lt {nodes : Array GraphNode} {i : Nat} (lt : i < nodes.size) :
    spanAt nodes i = spanOf nodes[i] := by
  simp [spanAt, Array.getElem?_eq_getElem lt]

namespace Composer

/-- The nodes of the collections being filled, innermost first. -/
def openNodes (c : Composer) : List Nat := c.stack.map (·.node)

/-- The members of the open collections lie in order: those of the innermost from its start up
to `bound`, those of each other from its start up to the start of the one opened inside it. -/
def Chained (nodes : Array GraphNode) : List OpenCollection → Nat → Prop
  | [], _ => True
  | e :: rest, bound =>
    Span.Holds ⟨(spanAt nodes e.node).start, bound⟩ (e.members.map (spanAt nodes)) ∧
      Chained nodes rest (spanAt nodes e.node).start

/-- Chained collections stay chained when the spans of their nodes and members stay. -/
theorem Chained.congr {nodes nodes' : Array GraphNode} : ∀ {stack : List OpenCollection}
    {bound : Nat}, (∀ e ∈ stack, spanAt nodes' e.node = spanAt nodes e.node ∧
      ∀ j ∈ e.members, spanAt nodes' j = spanAt nodes j) →
    Chained nodes stack bound → Chained nodes' stack bound
  | [], _, _, _ => trivial
  | e :: rest, bound, same, ⟨holds, chained⟩ => by
    obtain ⟨node, members⟩ := same e List.mem_cons_self
    have spans : e.members.map (spanAt nodes') = e.members.map (spanAt nodes) :=
      List.map_congr_left members
    refine ⟨?_, ?_⟩
    · rw [node, spans]
      exact holds
    · rw [node]
      exact Chained.congr (fun e' mem => same e' (List.mem_cons_of_mem _ mem)) chained

/-- Chained collections stay chained when the innermost may reach further on. -/
theorem Chained.extend {nodes : Array GraphNode} {bound bound' : Nat} (le : bound ≤ bound') :
    ∀ {stack : List OpenCollection}, Chained nodes stack bound → Chained nodes stack bound'
  | [], _ => trivial
  | _ :: _, ⟨holds, chained⟩ => ⟨holds.extend le, chained⟩

/-- A member spanning `s`, after `bound` where the innermost collection's members end, becomes
its last member; the members then end at the end of `s`. -/
theorem Chained.add {nodes : Array GraphNode} {top : OpenCollection} {rest : List OpenCollection}
    {bound id : Nat} (chained : Chained nodes (top :: rest) bound)
    (after : bound ≤ (spanAt nodes id).start) (ordered : (spanAt nodes id).start ≤ (spanAt nodes id).stop) :
    Chained nodes (top.add id :: rest) (spanAt nodes id).stop := by
  obtain ⟨holds, below⟩ := chained
  refine ⟨?_, by rw [OpenCollection.add_node]; exact below⟩
  rw [OpenCollection.add_node, OpenCollection.members_add, List.map_append, List.map_singleton]
  exact holds.snoc after ordered (Nat.le_refl _)

/-- The invariant of composing, up to the end `bound` of the last event: every node nests, the
open collections are chained, every member is a node and no member is an open collection, and
every document completed nests. -/
structure Composes (c : Composer) (bound : Nat) : Prop where
  nest : ∀ n ∈ c.nodes, (spanOf n).Holds (n.members.map (spanAt c.nodes))
  membersValid : ∀ n ∈ c.nodes, ∀ j ∈ n.members, j < c.nodes.size
  openValid : ∀ e ∈ c.stack, e.node < c.nodes.size ∧ ∀ j ∈ e.members, j < c.nodes.size
  membersClosed : ∀ n ∈ c.nodes, ∀ j ∈ n.members, j ∉ c.openNodes
  openClosed : ∀ e ∈ c.stack, ∀ j ∈ e.members, j ∉ c.openNodes
  distinct : c.openNodes.Nodup
  chained : Chained c.nodes c.stack bound
  documents : ∀ g ∈ c.documents, g.Nests

/-- Nothing is read at the start. -/
theorem composes_empty : Composes {} 0 where
  nest := by simp
  membersValid := by simp
  openValid := by simp
  membersClosed := by simp
  openClosed := by simp
  distinct := by simp [openNodes]
  chained := trivial
  documents := by simp

variable {c : Composer} {bound : Nat}

/-- Later events may start further on. -/
theorem Composes.extend (composes : Composes c bound) {bound' : Nat} (le : bound ≤ bound') :
    Composes c bound' :=
  { composes with chained := composes.chained.extend le }

/-- A new document starts with no nodes. -/
theorem Composes.reset (composes : Composes c bound) (bound' : Nat) :
    Composes { c with nodes := #[], anchors := [], stack := [], root := none } bound' where
  nest := by simp
  membersValid := by simp
  openValid := by simp
  membersClosed := by simp
  openClosed := by simp
  distinct := by simp [openNodes]
  chained := trivial
  documents := composes.documents

/-- A completed document nests. -/
theorem Composes.endDocument (composes : Composes c bound) (root : Nat) :
    Composes { c with documents := c.documents.push ⟨c.nodes, root⟩ } bound :=
  { composes with
    documents := by
      intro g mem
      rcases Array.mem_push.1 mem with old | rfl
      · exact composes.documents g old
      · exact composes.nest }

/-! ## Adding, attaching and closing nodes -/

@[simp] theorem addNode_nodes (a : Option String) (n : GraphNode) :
    (c.addNode a n).1.nodes = c.nodes.push n := rfl

@[simp] theorem addNode_id (a : Option String) (n : GraphNode) : (c.addNode a n).2 = c.nodes.size :=
  rfl

@[simp] theorem addNode_stack (a : Option String) (n : GraphNode) :
    (c.addNode a n).1.stack = c.stack := rfl

@[simp] theorem addNode_documents (a : Option String) (n : GraphNode) :
    (c.addNode a n).1.documents = c.documents := rfl

@[simp] theorem attach_nodes (id : Nat) : (c.attach id).nodes = c.nodes := by
  unfold attach
  split
  · rfl
  · split
    · split <;> rfl
    · rfl

@[simp] theorem attach_documents (id : Nat) : (c.attach id).documents = c.documents := by
  unfold attach
  split
  · rfl
  · split
    · split <;> rfl
    · rfl

theorem attach_stack_nil (id : Nat) (empty : c.stack = []) : (c.attach id).stack = [] := by
  simp [attach, empty]

theorem attach_stack_cons (id : Nat) {top : OpenCollection} {rest : List OpenCollection}
    (stack : c.stack = top :: rest) : (c.attach id).stack = top.add id :: rest := by
  unfold attach OpenCollection.add
  rw [stack]
  dsimp only
  by_cases mapping : top.isMapping = true
  · rw [if_pos mapping, if_pos mapping]
    cases top.pendingKey <;> rfl
  · rw [if_neg mapping, if_neg mapping]

/-- The members of the nodes of an array, all below its size, keep their spans when a node is
pushed. -/
theorem Composes.push (composes : Composes c bound) (a : Option String) {n : GraphNode}
    (leaf : n.members = []) (ordered : (spanOf n).start ≤ (spanOf n).stop) :
    Composes (c.addNode a n).1 bound := by
  have same : ∀ j, j < c.nodes.size → spanAt (c.nodes.push n) j = spanAt c.nodes j :=
    fun j lt => spanAt_push lt
  refine ⟨fun m mem => ?_, fun m mem j inM => ?_, fun e mem => ?_, fun m mem j inM => ?_,
    composes.openClosed, composes.distinct, ?_, composes.documents⟩
  · simp only [addNode_nodes, Array.mem_push] at mem ⊢
    rcases mem with old | rfl
    · rw [List.map_congr_left fun j inM => same j (composes.membersValid m old j inM)]
      exact composes.nest m old
    · rw [leaf]
      exact Span.holds_nil ordered
  · simp only [addNode_nodes, Array.mem_push, Array.size_push] at mem ⊢
    rcases mem with old | rfl
    · exact Nat.lt_succ_of_lt (composes.membersValid m old j inM)
    · simp [leaf] at inM
  · obtain ⟨lt, members⟩ := composes.openValid e mem
    exact ⟨by simp; omega, fun j inE => by have := members j inE; simp; omega⟩
  · simp only [addNode_nodes, Array.mem_push] at mem
    rcases mem with old | rfl
    · exact composes.membersClosed m old j inM
    · simp [leaf] at inM
  · refine Chained.congr (fun e mem => ?_) composes.chained
    obtain ⟨lt, members⟩ := composes.openValid e mem
    exact ⟨same _ lt, fun j inE => same j (members j inE)⟩

theorem openNodes_attach (id : Nat) : (c.attach id).openNodes = c.openNodes := by
  cases stack : c.stack with
  | nil => simp [openNodes, attach_stack_nil id stack, stack]
  | cons top rest => simp [openNodes, attach_stack_cons id stack, stack]

/-- A finished node, starting no earlier than `bound`, becomes the next member of the innermost
open collection (or the root); the members then end where it ends. -/
theorem Composes.attach (composes : Composes c bound) (id : Nat) (lt : id < c.nodes.size)
    (closed : id ∉ c.openNodes) (after : bound ≤ (spanAt c.nodes id).start)
    (ordered : (spanAt c.nodes id).start ≤ (spanAt c.nodes id).stop) :
    Composes (c.attach id) (spanAt c.nodes id).stop := by
  cases stack : c.stack with
  | nil =>
    have empty := attach_stack_nil id stack
    refine ⟨?_, ?_, by simp [empty], ?_, by simp [empty], by simp [openNodes, empty], ?_, ?_⟩
    · simpa using composes.nest
    · simpa using composes.membersValid
    · simpa [openNodes_attach] using composes.membersClosed
    · simp only [attach_nodes, empty]
      trivial
    · simpa using composes.documents
  | cons top rest =>
    have pushed := attach_stack_cons id stack
    have openSame := openNodes_attach (c := c) id
    refine ⟨by simpa using composes.nest, by simpa using composes.membersValid, ?_,
      by simpa [openSame] using composes.membersClosed, ?_, by rw [openSame]; exact composes.distinct,
      ?_, by simpa using composes.documents⟩
    · rw [pushed, attach_nodes]
      intro e mem
      rcases List.mem_cons.1 mem with rfl | below
      · obtain ⟨nodeLt, members⟩ := composes.openValid top (by simp [stack])
        refine ⟨by simpa using nodeLt, fun j inE => ?_⟩
        rw [OpenCollection.members_add, List.mem_append, List.mem_singleton] at inE
        rcases inE with old | rfl
        · exact members j old
        · exact lt
      · exact composes.openValid e (by simp [stack, below])
    · rw [pushed, openSame]
      intro e mem j inE
      rcases List.mem_cons.1 mem with rfl | below
      · rw [OpenCollection.members_add, List.mem_append, List.mem_singleton] at inE
        rcases inE with old | rfl
        · exact composes.openClosed top (by simp [stack]) j old
        · exact closed
      · exact composes.openClosed e (by simp [stack, below]) j inE
    · have chained := composes.chained
      rw [stack] at chained
      rw [pushed, attach_nodes]
      exact chained.add after ordered

/-- A new collection, starting no earlier than `bound`, opens inside the innermost open one;
its node is a placeholder with no members until it closes. -/
theorem Composes.enter (composes : Composes c bound) (a : Option String) {n : GraphNode}
    (placeholder : n.members = []) (empty : (spanOf n).start = (spanOf n).stop)
    (after : bound ≤ (spanOf n).start) (mapping : Bool) {stop : Nat}
    (ordered : (spanOf n).start ≤ stop) :
    Composes { (c.addNode a n).1 with
      stack := { node := (c.addNode a n).2, isMapping := mapping } :: (c.addNode a n).1.stack }
      stop := by
  have pushed := composes.push a placeholder (Nat.le_of_eq empty)
  have fresh : ∀ j ∈ c.openNodes, j < c.nodes.size := by
    intro j mem
    obtain ⟨e, inStack, rfl⟩ := List.mem_map.1 mem
    exact (composes.openValid e inStack).1
  have noMembers : ∀ id, ({ node := id, isMapping := mapping } : OpenCollection).members = [] := by
    intro id
    unfold OpenCollection.members
    split <;> rfl
  refine ⟨pushed.nest, pushed.membersValid, fun e mem => ?_, fun m mem j inM => ?_,
    fun e mem j inE => ?_, ?_, ?_, pushed.documents⟩
  · rcases List.mem_cons.1 mem with rfl | old
    · simp [noMembers]
    · exact pushed.openValid e old
  · -- the members of earlier nodes are earlier nodes, none of them the new one
    simp only [addNode_nodes, Array.mem_push] at mem
    simp only [openNodes, addNode_id, addNode_stack, List.map_cons, List.mem_cons, not_or]
    rcases mem with old | rfl
    · exact ⟨Nat.ne_of_lt (composes.membersValid m old j inM),
        composes.membersClosed m old j inM⟩
    · simp [placeholder] at inM
  · simp only [openNodes, addNode_id, addNode_stack, List.map_cons, List.mem_cons, not_or]
    rcases List.mem_cons.1 mem with rfl | old
    · simp [noMembers] at inE
    · exact ⟨Nat.ne_of_lt ((composes.openValid e old).2 j inE), composes.openClosed e old j inE⟩
  · simp only [openNodes, addNode_id, addNode_stack, List.map_cons, List.nodup_cons]
    exact ⟨fun mem => Nat.lt_irrefl _ (fresh _ mem), composes.distinct⟩
  · have top : spanAt (c.addNode a n).1.nodes (c.addNode a n).2 = spanOf n := spanAt_push_size _ _
    refine ⟨?_, ?_⟩
    · dsimp only
      rw [noMembers, top]
      exact Span.holds_nil ordered
    · dsimp only
      rw [top]
      exact pushed.chained.extend after

/-- The members of a closing collection are among those it was filled with. -/
theorem closed_members_sublist (top : OpenCollection) (start stop : Mark) :
    List.Sublist (if top.isMapping then GraphNode.mapping top.pairs start stop
      else GraphNode.sequence top.items start stop).members top.members := by
  unfold OpenCollection.members
  split
  · exact List.sublist_append_left _ _
  · exact List.Sublist.refl _

/-- Closing the innermost collection at `stop`, no earlier than `bound`, makes its node, which
then lies in order inside the collection around it. -/
theorem Composes.close (composes : Composes c bound) {stop : Mark} (after : bound ≤ stop.index) :
    Composes (c.close stop) stop.index := by
  cases stack : c.stack with
  | nil =>
    have same : c.close stop = c := by simp [Composer.close, stack]
    rw [same]
    exact composes.extend after
  | cons top rest =>
    obtain ⟨lt, topMembers⟩ := composes.openValid top (by simp [stack])
    have chained := composes.chained
    rw [stack] at chained
    obtain ⟨holds, restChained⟩ := chained
    have distinct := composes.distinct
    simp only [openNodes, stack, List.map_cons, List.nodup_cons] at distinct
    -- no member of anything is the collection being closed
    have memberNe : ∀ n ∈ c.nodes, ∀ j ∈ n.members, top.node ≠ j := fun n mem j inN same =>
      composes.membersClosed n mem j inN (by simp [openNodes, stack, same])
    have openNe : ∀ e ∈ c.stack, ∀ j ∈ e.members, top.node ≠ j := fun e mem j inE same =>
      composes.openClosed e mem j inE (by simp [openNodes, stack, same])
    have topNe : ∀ j ∈ top.members, top.node ≠ j := openNe top (by simp [stack])
    set start := (c.nodes[top.node]?.map GraphNode.start).getD Mark.origin with startDef
    have startIndex : (spanAt c.nodes top.node).start = start.index := by
      simp [spanAt_of_lt lt, startDef, Array.getElem?_eq_getElem lt, spanOf]
    set node := if top.isMapping then GraphNode.mapping top.pairs start stop
      else GraphNode.sequence top.items start stop with nodeDef
    have nodeSpan : spanOf node = ⟨start.index, stop.index⟩ := by
      rw [nodeDef]
      split <;> rfl
    set c1 : Composer := { c with nodes := c.nodes.setIfInBounds top.node node, stack := rest }
      with c1Def
    have closeEq : c.close stop = c1.attach top.node := by
      simp only [Composer.close, stack, c1Def, nodeDef, startDef]
    have spanSame : ∀ j, top.node ≠ j → spanAt c1.nodes j = spanAt c.nodes j :=
      fun j ne => spanAt_set_of_ne node ne
    have topSpan : spanAt c1.nodes top.node = ⟨start.index, stop.index⟩ := by
      rw [spanAt_set_self node lt, nodeSpan]
    have ordered : start.index ≤ stop.index := by
      have := holds.ordered
      dsimp only at this
      omega
    have inStack : ∀ e ∈ rest, e ∈ c.stack := fun e mem => by
      rw [stack]
      exact List.mem_cons_of_mem _ mem
    have composes1 : Composes c1 start.index := by
      refine ⟨fun m mem => ?_, fun m mem j inM => ?_, fun e mem => ?_, fun m mem j inM => ?_,
        fun e mem j inE => ?_, distinct.2, ?_, composes.documents⟩
      · rcases Array.mem_or_eq_of_mem_setIfInBounds mem with old | rfl
        · rw [List.map_congr_left fun j inM => spanSame j (memberNe m old j inM)]
          exact composes.nest m old
        · -- the collection's members, in order from its start up to `stop`
          have sub := closed_members_sublist top start stop
          rw [List.map_congr_left fun j inM => spanSame j (topNe j (sub.subset inM)), nodeSpan]
          rw [startIndex] at holds
          exact (holds.extend after).sublist (sub.map _)
      · rw [Array.size_setIfInBounds]
        rcases Array.mem_or_eq_of_mem_setIfInBounds mem with old | rfl
        · exact composes.membersValid m old j inM
        · exact topMembers j ((closed_members_sublist top start stop).subset inM)
      · exact ⟨by rw [Array.size_setIfInBounds]; exact (composes.openValid e (inStack e mem)).1,
          fun j inE => by
            rw [Array.size_setIfInBounds]
            exact (composes.openValid e (inStack e mem)).2 j inE⟩
      · have fewer : j ∉ c.openNodes → j ∉ c1.openNodes := fun notOpen isOpen =>
          notOpen (by simp only [openNodes, stack, List.map_cons, List.mem_cons]; exact .inr isOpen)
        rcases Array.mem_or_eq_of_mem_setIfInBounds mem with old | rfl
        · exact fewer (composes.membersClosed m old j inM)
        · exact fewer (composes.openClosed top (by simp [stack]) j
            ((closed_members_sublist top start stop).subset inM))
      · intro isOpen
        exact composes.openClosed e (inStack e mem) j inE
          (by simp only [openNodes, stack, List.map_cons, List.mem_cons]; exact .inr isOpen)
      · rw [← startIndex]
        refine Chained.congr (fun e mem => ⟨spanSame _ ?_, fun j inE => spanSame j ?_⟩) restChained
        · exact fun same => distinct.1 (List.mem_map.2 ⟨e, mem, same.symm⟩)
        · exact openNe e (inStack e mem) j inE
    rw [closeEq]
    have attached := composes1.attach top.node (by rw [Array.size_setIfInBounds]; exact lt)
      distinct.1 (by rw [topSpan]) (by rw [topSpan]; exact ordered)
    rw [topSpan] at attached
    exact attached

/-! ## Composing event by event -/

/-- A node's checks that pass leave what follows them to give the result. -/
theorem ok_of_enter_bind {β : Type} {a : Option String} {m : Mark} {k : Unit → Except Error β}
    {r : β} (ok : (c.enter a m >>= k) = .ok r) : k () = .ok r := by
  cases entered : c.enter a m with
  | error err =>
    rw [entered] at ok
    cases ok
  | ok u =>
    rw [entered] at ok
    exact ok

/-- An event that starts no earlier than `bound` and is no alias keeps the invariant, up to the
event's end. -/
theorem Composes.step (composes : Composes c bound) {e : Event} (after : bound ≤ e.start.index)
    (ordered : e.start.index ≤ e.stop.index) (plain : ∀ a, e.kind ≠ .reference a)
    {c' : Composer} {fin : Bool} (stepped : c.step e = .ok (c', fin)) :
    Composes c' e.stop.index := by
  unfold Composer.step at stepped
  cases kind : e.kind with
  | streamStart =>
    simp only [kind, pure, Except.pure, Except.ok.injEq, Prod.mk.injEq] at stepped
    rw [← stepped.1]
    exact composes.extend (Nat.le_trans after ordered)
  | streamEnd =>
    simp only [kind, pure, Except.pure, Except.ok.injEq, Prod.mk.injEq] at stepped
    rw [← stepped.1]
    exact composes.extend (Nat.le_trans after ordered)
  | documentStart explicit =>
    simp only [kind, pure, Except.pure, Except.ok.injEq, Prod.mk.injEq] at stepped
    rw [← stepped.1]
    exact composes.reset _
  | documentEnd explicit =>
    simp only [kind, pure, Except.pure, Except.ok.injEq, Prod.mk.injEq] at stepped
    rw [← stepped.1]
    exact (composes.endDocument _).extend (Nat.le_trans after ordered)
  | reference a => exact absurd kind (plain a)
  | scalar anchor tag implicit value =>
    simp only [kind] at stepped
    have made := ok_of_enter_bind stepped
    simp only [pure, Except.pure, Except.ok.injEq, Prod.mk.injEq] at made
    rw [← made.1]
    -- the scalar is a finished node with the event's span
    set n := GraphNode.scalar (tagOf tag value implicit) value e.start e.stop
    have pushed := composes.push anchor (n := n) rfl ordered
    have span : spanAt (c.addNode anchor n).1.nodes (c.addNode anchor n).2 =
        ⟨e.start.index, e.stop.index⟩ := spanAt_push_size _ _
    have fresh : (c.addNode anchor n).2 ∉ (c.addNode anchor n).1.openNodes := fun mem => by
      obtain ⟨o, inStack, same⟩ := List.mem_map.1 mem
      have := (composes.openValid o inStack).1
      rw [addNode_id] at same
      omega
    have attached := pushed.attach (c.addNode anchor n).2 (by simp) fresh
      (by rw [span]; exact after) (by rw [span]; exact ordered)
    rw [span] at attached
    exact attached
  | sequenceStart anchor tag implicit flow =>
    simp only [kind] at stepped
    have made := ok_of_enter_bind stepped
    simp only [pure, Except.pure, Except.ok.injEq, Prod.mk.injEq] at made
    rw [← made.1]
    exact composes.enter anchor (n := .sequence #[] e.start e.start) rfl rfl after false ordered
  | mappingStart anchor tag implicit flow =>
    simp only [kind] at stepped
    have made := ok_of_enter_bind stepped
    simp only [pure, Except.pure, Except.ok.injEq, Prod.mk.injEq] at made
    rw [← made.1]
    exact composes.enter anchor (n := .mapping #[] e.start e.start) rfl rfl after true ordered
  | sequenceEnd =>
    simp only [kind, pure, Except.pure, Except.ok.injEq, Prod.mk.injEq] at stepped
    rw [← stepped.1]
    exact composes.close (Nat.le_trans after ordered)
  | mappingEnd =>
    simp only [kind, pure, Except.pure, Except.ok.injEq, Prod.mk.injEq] at stepped
    rw [← stepped.1]
    exact composes.close (Nat.le_trans after ordered)

/-- Composing events in order, none of them an alias, from a state that keeps the invariant,
completes only documents that nest. -/
theorem run_nests (stop : Option Error) : ∀ {events : List Event} {c : Composer} {bound : Nat},
    Composes c bound → (∀ e ∈ events, bound ≤ e.start.index) → InOrder Event.span events →
    (∀ e ∈ events, ∀ a, e.kind ≠ .reference a) → ∀ g ∈ (c.run stop events).1, g.Nests
  | [], c, _, composes, _, _, _ => by simpa [run] using composes.documents
  | e :: rest, c, bound, composes, after, ordered, plain => by
    obtain ⟨first, later, restOrdered⟩ := inOrder_cons.1 ordered
    rw [run]
    split
    · exact composes.documents
    · rename_i c' stepped
      exact (composes.step (after e List.mem_cons_self) first (plain e List.mem_cons_self)
        stepped).documents
    · rename_i c' stepped
      exact run_nests stop (composes.step (after e List.mem_cons_self) first
        (plain e List.mem_cons_self) stepped) later restOrdered
        (fun e' mem => plain e' (List.mem_cons_of_mem _ mem))

end Composer

/-- Events in the order of the text, none of them an alias, compose into graphs that nest. -/
theorem compose_nests {events : List Event} (ordered : Tree.InOrder Event.span events)
    (plain : ∀ e ∈ events, ∀ a, e.kind ≠ .reference a) (stop : Option Error) :
    ∀ g ∈ (Graph.compose events stop).1, g.Nests := by
  intro g mem
  exact Composer.run_nests stop Composer.composes_empty (fun _ _ => Nat.zero_le _) ordered plain g
    (Array.mem_toList_iff.1 mem)

end StageTree.Yaml
