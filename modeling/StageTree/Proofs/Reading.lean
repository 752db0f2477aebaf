import StageTree.Proofs.Expansion
import StageTree.Tree.Document

/-!
# Reading a stream keeps the documents that fit

Reading a stream unfolds its documents' graphs in order under one budget of nodes shared by all
of them (`Tree.expandAll`). A document kept is the tree its graph unfolds to, whose size is what
a walk of it counts. The documents kept are a leading run of the stream whose trees nest no
deeper than the stack holds and together cost no more than the budget (`Keeps`). The first
document past the run is what stopped the reading: it records the budget's message only if that
document's tree would pass the budget, and the nesting's only if that tree nests too deep. A tree
can do both, and then the nesting may be met first. With no document past the run, the messages
say why composing stopped, if it did.

Main statement: `read_keeps_fitting_documents`. A read that fails does so with a fault that one
of the stream's graphs or the composer's stop makes.
-/

namespace StageTree.Tree

open Yaml

/-- What reading the graphs `gs` of a stream, cut short by `stop`, under a budget of `limit`
nodes with `left` still unspent, keeps and records: the trees of a leading run of the graphs,
each unfolded without a fault and nesting no deeper than the stack holds, together costing no
more than was left (so nothing is kept from less than nothing). With no graph after the run the
messages are the stop's, if there is one. With a graph after it there is one message: the
budget's, only if that graph's tree would pass the budget, or the nesting's, only if that tree
nests too deep. -/
structure Keeps (buf : Array Char) (limit left : Int) (gs : List Graph) (stop : Option Error)
    (kept : List Node) (errors : List String) : Prop where
  unfolds : (gs.take kept.length).map Node.unfold = kept.map .ok
  shallow : ∀ t ∈ kept, 1 + t.reach ≤ maxCalls
  within : kept = [] ∨ ((kept.map Node.size).sum : Int) ≤ left
  stops : match gs.drop kept.length with
    | [] => errors = (stop.map (·.message buf)).toList
    | g :: _ =>
      (errors = [overBudgetMessage limit] ∧
          ∀ t, Node.unfold g = .ok t → left < (kept.map Node.size).sum + t.size) ∨
        (errors = [Error.tooDeep.message buf] ∧
          ∀ t, Node.unfold g = .ok t → maxCalls < 1 + t.reach)

variable {buf : Array Char} {limit left : Int} {stop : Option Error} {errors : List String}

/-- A graph whose tree fits what was left, kept before what the rest of the stream keeps from
what that tree leaves. -/
theorem Keeps.cons {g : Graph} {rest : List Graph} {t : Node} {kept : List Node}
    (made : Node.unfold g = .ok t) (fit : 1 + t.reach ≤ maxCalls) (within : (t.size : Int) ≤ left)
    (keeps : Keeps buf limit (left - t.size) rest stop kept errors) :
    Keeps buf limit left (g :: rest) stop (t :: kept) errors := by
  obtain ⟨unfolds, shallow, withinRest, stops⟩ := keeps
  refine ⟨?_, ?_, .inr ?_, ?_⟩
  · rw [List.length_cons, List.take_succ_cons, List.map_cons, unfolds, made, List.map_cons]
  · exact List.forall_mem_cons.2 ⟨fit, shallow⟩
  · rw [List.map_cons, List.sum_cons]
    rcases withinRest with rfl | withinRest
    · simpa using within
    · omega
  · rw [List.length_cons, List.drop_succ_cons]
    -- the budget the next graph would pass is the same, counted from before this tree
    revert stops
    cases rest.drop kept.length with
    | nil => exact id
    | cons next _ =>
      rintro (⟨budget, overrun⟩ | deep)
      · refine .inl ⟨budget, fun u made => ?_⟩
        have := overrun u made
        rw [List.map_cons, List.sum_cons]
        omega
      · exact .inr deep

/-- Reading graphs in order after the trees `acc`, from `left` units of a budget of `limit`,
either fails with a fault that one of the graphs or the stop makes, or gives the trees `acc`
followed by what `Keeps` says the graphs keep, with the messages it says. -/
theorem expandAll_keeps (buf : Array Char) (limit : Int) (stop : Option Error) :
    ∀ (gs : List Graph) (left : Int) (acc : Array Node),
    match expandAll buf limit stop gs left acc with
    | .ok d => ∃ kept, d.documents = acc.toList ++ kept ∧ Keeps buf limit left gs stop kept d.errors
    | .error f => (∃ g ∈ gs, Node.unfold g = .error f) ∨ stop = some (.fault f)
  | [], left, acc => by
    -- with no graph left, the stop is all there is to record
    have nothing : Keeps buf limit left [] stop [] (stop.map (·.message buf)).toList :=
      ⟨rfl, by simp, .inl rfl, rfl⟩
    cases stop with
    | none => exact ⟨[], by simp, nothing⟩
    | some e =>
      cases e with
      | fault f => exact .inr rfl
      | _ => exact ⟨[], by simp, nothing⟩
  | g :: rest, left, acc => by
    have read := ofGraph_costs g left
    rw [expandAll]
    revert read
    cases Node.ofGraph g left with
    | ok p =>
      obtain ⟨t, after⟩ := p
      rintro ⟨made, fit, within, rfl⟩
      dsimp only
      -- the rest of the stream is read from what this tree left
      have next := expandAll_keeps buf limit stop rest (left - t.size) (acc.push t)
      revert next
      cases expandAll buf limit stop rest (left - t.size) (acc.push t) with
      | ok d =>
        rintro ⟨kept, documents, keeps⟩
        refine ⟨t :: kept, by rw [documents]; simp, keeps.cons made fit within⟩
      | error f =>
        rintro (⟨bad, mem, faulted⟩ | stopped)
        · exact .inl ⟨bad, List.mem_cons_of_mem g mem, faulted⟩
        · exact .inr stopped
    | error stop' =>
      cases stop' with
      | overBudget =>
        intro overrun
        exact ⟨[], by simp, ⟨rfl, by simp, .inl rfl, .inl ⟨rfl, by simpa using overrun⟩⟩⟩
      | tooDeep =>
        intro deep
        exact ⟨[], by simp, ⟨rfl, by simp, .inl rfl, .inr ⟨rfl, deep⟩⟩⟩
      | fault f =>
        intro faulted
        exact .inl ⟨g, List.mem_cons_self, faulted⟩

/-- Reading a text under a budget of `limit` nodes keeps, of the documents it composes, the trees
of a leading run that unfold without a fault, nest no deeper than the stack holds and together
cost no more than the budget; past that run it records either why composing stopped, or one
message for the next document: the budget's, only if its tree would pass the budget, or the
nesting's, only if its tree nests too deep. A read fails only with a fault that one of the
documents or the composer's stop makes. -/
theorem read_keeps_fitting_documents (text : String) (limit : Int) :
    let graphs := (Document.graphs text).1
    let stop := (Document.graphs text).2
    match Document.read text limit with
    | .ok d => Keeps (Document.buffer text) limit limit graphs stop d.documents d.errors
    | .error f => (∃ g ∈ graphs, Node.unfold g = .error f) ∨ stop = some (.fault f) := by
  intro graphs stop
  have read := expandAll_keeps (Document.buffer text) limit stop graphs limit #[]
  have same : Document.read text limit =
      expandAll (Document.buffer text) limit stop graphs limit #[] := rfl
  rw [same]
  revert read
  cases expandAll (Document.buffer text) limit stop graphs limit #[] with
  | ok d =>
    rintro ⟨kept, documents, keeps⟩
    dsimp only
    rw [documents]
    simpa using keeps
  | error f => exact id

/-- Reading a graph ends as expanding it from its root does. -/
theorem ofGraph_of_run {g : Graph} {r : Int} {stop' : ExpandStop} {s : Expansion}
    (run : (expand g (g.nodes.size + 1) 1 g.root).run ⟨r, Array.replicate g.nodes.size false⟩ =
      .error stop' s) :
    Node.ofGraph g r = .error stop' := by
  rw [Node.ofGraph, run]

/-- A graph whose reading stops for nesting ends the reading of the stream: what came before is
kept, with the nesting's message. -/
theorem expandAll_of_tooDeep {g : Graph} {rest : List Graph} {acc : Array Node}
    (deep : Node.ofGraph g left = .error .tooDeep) :
    expandAll buf limit stop (g :: rest) left acc = .ok ⟨acc.toList, [Error.tooDeep.message buf]⟩ := by
  rw [expandAll, deep]

/-! ## Alias chains: nesting met before the budget -/

/-- The member of node `j` of `aliasChains`: the next sequence down its chain, or at the foot of
a chain the head of the chain before it. -/
def chainNext (j : Nat) : Nat :=
  if j = 571 then 1 else if j = 856 then 287 else if j = 1141 then 572 else j + 1

/-- Node `j` of the graph of the stream whose items are `&a` over the scalar `0`, `&b` over `*a`,
`&c` over `*b` and `&d` over `*c`, each inside 285 brackets, then `*c` once more: the top
sequence, then each chain's sequences in turn, the scalar after the first chain. Its marks are
left at the origin. -/
def chainNode (j : Nat) : GraphNode :=
  if j = 0 then .sequence #[1, 287, 572, 857, 572] Mark.origin Mark.origin
  else if j = 286 then .scalar Resolve.intTag (Text.Str.ofString "0") Mark.origin Mark.origin
  else .sequence #[chainNext j] Mark.origin Mark.origin

/-- Four chains of 285 one-item sequences under a top sequence, each chain ending in the one
before it. -/
def aliasChains : Graph := ⟨(Array.range 1142).map chainNode, 0⟩

/-- How many sequences lie from node `j` of `aliasChains` down to its scalar. -/
def chainDepth (j : Nat) : Nat :=
  if j ≤ 286 then 286 - j else if j ≤ 571 then 857 - j else if j ≤ 856 then 1427 - j
  else 1997 - j

/-- The tree the scalar of `aliasChains` copies to. -/
def chainLeaf : Node := .number ⟨0, 0⟩ (.int 0)

/-- A tree inside `k` one-item arrays. -/
def nested : Nat → Node → Node
  | 0, t => t
  | k + 1, t => .array ⟨0, 0⟩ [nested k t]

theorem size_nested (k : Nat) (t : Node) : (nested k t).size = k + t.size := by
  induction k with
  | zero => simp [nested]
  | succ k ih =>
    simp only [nested, Node.size_array, List.map_cons, List.map_nil, List.sum_cons,
      List.sum_nil, ih]
    omega

theorem reach_nested (k : Nat) (t : Node) : (nested k t).reach = k + t.reach := by
  induction k with
  | zero => simp [nested]
  | succ k ih =>
    simp only [nested, Node.reach_array, Node.itemsReach, ih]
    omega

theorem getElem?_aliasChains {j : Nat} (h : j < 1142) :
    aliasChains.nodes[j]? = some (chainNode j) := by
  simp [aliasChains, h]

theorem chainNode_top :
    chainNode 0 = .sequence #[1, 287, 572, 857, 572] Mark.origin Mark.origin := rfl

theorem chainNode_leaf :
    chainNode 286 = .scalar Resolve.intTag (Text.Str.ofString "0") Mark.origin Mark.origin := rfl

theorem chainNode_chain {j : Nat} (top : j ≠ 0) (leaf : j ≠ 286) :
    chainNode j = .sequence #[chainNext j] Mark.origin Mark.origin := by
  rw [chainNode, if_neg top, if_neg leaf]

/-- Down a chain the depth drops by one at each sequence, and the chains stay in the graph. -/
theorem chainDepth_next {j : Nat} (low : 1 ≤ j) (high : j ≤ 1141) (notLeaf : j ≠ 286) :
    chainDepth (chainNext j) + 1 = chainDepth j ∧ 1 ≤ chainNext j ∧ chainNext j ≤ 1141 := by
  unfold chainDepth chainNext
  split_ifs <;> omega

/-- A chain node copies, when no node of its depth or below is marked, to that many arrays
nested over the scalar. -/
theorem copy_chain : ∀ (d fuel j : Nat) (b : Array Bool), 1 ≤ j → j ≤ 1141 →
    chainDepth j = d → d < fuel →
    (∀ k, 1 ≤ k → k ≤ 1141 → chainDepth k ≤ d → b.getD k false = false) →
    copy aliasChains fuel b j = .ok (nested d chainLeaf)
  | d, 0, _, _, _, _, _, short, _ => absurd short (Nat.not_lt_zero d)
  | 0, fuel + 1, j, b, low, high, depth, _, unmarked => by
    -- depth zero is the scalar
    have leaf : j = 286 := by
      unfold chainDepth at depth
      split_ifs at depth <;> omega
    subst leaf
    have free := unmarked 286 (by decide) (by decide) (Nat.le_of_eq depth)
    rw [copy_of_unmarked (getElem?_aliasChains (by decide)) free, chainNode_leaf, copyNode]
    have value : Scalar.ofTagged Resolve.intTag (Text.Str.ofString "0") = .ok (.int 0) := rfl
    rw [value]
    rfl
  | d + 1, fuel + 1, j, b, low, high, depth, short, unmarked => by
    have notLeaf : j ≠ 286 := by
      rintro rfl
      simp [chainDepth] at depth
    obtain ⟨down, nextLow, nextHigh⟩ := chainDepth_next low high notLeaf
    -- marking this node leaves every node below it unmarked
    have below : ∀ k, 1 ≤ k → k ≤ 1141 → chainDepth k ≤ d →
        (b.setIfInBounds j true).getD k false = false := by
      intro k kLow kHigh kDepth
      have other : j ≠ k := by
        rintro rfl
        omega
      rw [Array.getD_eq_getD_getElem?, Array.getElem?_setIfInBounds, if_neg other,
        ← Array.getD_eq_getD_getElem?]
      exact unmarked k kLow kHigh (by omega)
    have inner := copy_chain d fuel (chainNext j) (b.setIfInBounds j true) nextLow nextHigh
      (by omega) (by omega) below
    rw [copy_of_unmarked (getElem?_aliasChains (by omega)) (unmarked j low high (by omega)),
      chainNode_chain (by omega) notLeaf, copyNode]
    simp only [List.mapM_cons, List.mapM_nil, inner]
    rfl

theorem size_aliasChains : aliasChains.nodes.size = 1142 := by
  simp [aliasChains]

/-- The marks while the top sequence of `aliasChains` is built: the top alone. -/
theorem chains_unmarked {k : Nat} (low : 1 ≤ k) :
    ((Array.replicate 1142 false).setIfInBounds 0 true).getD k false = false := by
  rw [Array.getD_eq_getD_getElem?, Array.getElem?_setIfInBounds, if_neg (by omega),
    ← Array.getD_eq_getD_getElem?, replicate_unmarked]

/-- Below the top sequence, a chain node copies to its depth's nesting over the scalar. -/
theorem copy_chain_below_top {j d : Nat} (low : 1 ≤ j) (high : j ≤ 1141) (depth : chainDepth j = d) :
    copy aliasChains 1142 ((Array.replicate 1142 false).setIfInBounds 0 true) j =
      .ok (nested d chainLeaf) :=
  copy_chain d 1142 j _ low high depth (by unfold chainDepth at depth; split_ifs at depth <;> omega)
    fun _ kLow _ _ => chains_unmarked kLow

/-- The tree `aliasChains` unfolds to: the four chains nested over the scalar, and the third
once more. -/
theorem unfold_aliasChains : Node.unfold aliasChains = .ok (.array ⟨0, 0⟩
    [nested 285 chainLeaf, nested 570 chainLeaf, nested 855 chainLeaf, nested 1140 chainLeaf,
      nested 855 chainLeaf]) := by
  have root : aliasChains.root = 0 := rfl
  have a := copy_chain_below_top (j := 1) (d := 285) (by decide) (by decide) (by decide)
  have b := copy_chain_below_top (j := 287) (d := 570) (by decide) (by decide) (by decide)
  have c := copy_chain_below_top (j := 572) (d := 855) (by decide) (by decide) (by decide)
  have d := copy_chain_below_top (j := 857) (d := 1140) (by decide) (by decide) (by decide)
  rw [Node.unfold, size_aliasChains, root,
    copy_of_unmarked (getElem?_aliasChains (by decide)) (replicate_unmarked 1142 0), chainNode_top,
    copyNode]
  simp only [List.mapM_cons, List.mapM_nil, a, b, c, d]
  rfl

/-- The marks while the top sequence of `aliasChains` is built. -/
abbrev topMarked : Array Bool := (Array.replicate 1142 false).setIfInBounds 0 true

/-- A chain below the top sequence of `aliasChains` that nests within the stack, expanded two
calls down from units enough for all of it, ends with its nesting and pays for it. -/
theorem expand_chain_fits {j d : Nat} {r : Int} (low : 1 ≤ j) (high : j ≤ 1141)
    (depth : chainDepth j = d) (paid : (d : Int) + 1 ≤ r) (fit : 2 + d ≤ maxCalls) :
    (expand aliasChains 1142 2 j).run ⟨r, topMarked⟩ =
      .ok (nested d chainLeaf) ⟨r - ((d + 1 : Nat) : Int), topMarked⟩ := by
  have costs := expand_costs aliasChains 1142 2 j r topMarked
  rw [copy_chain_below_top low high depth] at costs
  have size : (nested d chainLeaf).size = d + 1 := by rw [size_nested]; rfl
  have reach : (nested d chainLeaf).reach = d := by rw [reach_nested]; rfl
  have within : ((nested d chainLeaf).size : Int) ≤ (⟨r, topMarked⟩ : Expansion).remaining := by
    rw [size]
    dsimp only
    omega
  rw [costs.eq_ok (by rw [reach]; exact fit) within, size]

/-- A chain below the top sequence of `aliasChains` that nests deeper than the stack holds,
expanded two calls down from units enough for all of it, stops for nesting. -/
theorem expand_chain_deep {j d : Nat} {r : Int} (low : 1 ≤ j) (high : j ≤ 1141)
    (depth : chainDepth j = d) (paid : (d : Int) + 1 ≤ r) (deep : maxCalls < 2 + d) :
    ∃ s, (expand aliasChains 1142 2 j).run ⟨r, topMarked⟩ = .error .tooDeep s := by
  have costs := expand_costs aliasChains 1142 2 j r topMarked
  rw [copy_chain_below_top low high depth] at costs
  have size : (nested d chainLeaf).size = d + 1 := by rw [size_nested]; rfl
  have reach : (nested d chainLeaf).reach = d := by rw [reach_nested]; rfl
  have within : ((nested d chainLeaf).size : Int) ≤ (⟨r, topMarked⟩ : Expansion).remaining := by
    rw [size]
    dsimp only
    omega
  exact costs.eq_tooDeep (by rw [reach]; omega) within

/-- Expanding `aliasChains` from 3000 units stops for nesting: the first three chains nest
within the stack and cost 1713 units, and the fourth, whose 1141 nodes the 1286 units left
would pay for, nests 1140 calls below the top sequence's items. -/
theorem expand_aliasChains :
    ∃ s, (expand aliasChains 1143 1 0).run ⟨3000, Array.replicate 1142 false⟩ = .error .tooDeep s := by
  -- the first three chains fit and the fourth nests too deep, with the budget left for it
  have first := expand_chain_fits (j := 1) (d := 285) (r := 2999) (by decide) (by decide)
    (by decide) (by omega) (by decide)
  have second := expand_chain_fits (j := 287) (d := 570) (r := 2713) (by decide) (by decide)
    (by decide) (by omega) (by decide)
  have third := expand_chain_fits (j := 572) (d := 855) (r := 2142) (by decide) (by decide)
    (by decide) (by omega) (by decide)
  obtain ⟨s, fourth⟩ := expand_chain_deep (j := 857) (d := 1140) (r := 1286) (by decide)
    (by decide) (by decide) (by omega) (by decide)
  have items : ([1, 287, 572, 857, 572].mapM (expand aliasChains 1142 2)).run ⟨2999, topMarked⟩ =
      .error .tooDeep s := by
    rw [run_mapM_cons_ok first]
    apply run_map_error
    rw [show (2999 : Int) - ((285 + 1 : Nat) : Int) = 2713 by omega, run_mapM_cons_ok second]
    apply run_map_error
    rw [show (2713 : Int) - ((570 + 1 : Nat) : Int) = 2142 by omega, run_mapM_cons_ok third]
    apply run_map_error
    rw [show (2142 : Int) - ((855 + 1 : Nat) : Int) = 1286 by omega]
    exact run_mapM_cons_error fourth
  have top : (expandNode aliasChains (expand aliasChains 1142) 1 (chainNode 0)).run
      ⟨2999, topMarked⟩ = .error .tooDeep s := by
    rw [chainNode_top, expandNode, bind_pure_comp]
    exact run_map_error items
  -- the top sequence: entered, paid for, found unmarked and marked around its items
  refine ⟨⟨s.remaining, s.building.setIfInBounds 0 false⟩, ?_⟩
  rw [expand, run_enterNode_bind, if_neg (by decide), EStateM.run_bind, run_spend,
    if_neg (by decide)]
  dsimp only
  rw [getElem?_aliasChains (by decide)]
  dsimp only
  rw [run_get_bind]
  dsimp only
  rw [replicate_unmarked, if_neg Bool.false_ne_true, show (3000 : Int) - ((1 : Nat) : Int) = 2999 by omega]
  exact run_marking_error top

/-- Under a budget of 3000 nodes, reading the stream of `aliasChains` keeps nothing and records
the nesting's message, though the one document's tree has more nodes than the budget: its fourth
chain nests too deep before the budget runs out, so the budget's message is not the one given. -/
theorem aliasChains_nesting_before_budget :
    (∃ t, Node.unfold aliasChains = .ok t ∧ 3000 < t.size) ∧
      expandAll #[] 3000 none [aliasChains] 3000 #[] =
        .ok ⟨[], ["Document is nested too deeply to parse"]⟩ := by
  refine ⟨⟨_, unfold_aliasChains, ?_⟩, ?_⟩
  · simp only [Node.size_array, List.map_cons, List.map_nil, List.sum_cons, List.sum_nil,
      size_nested]
    decide
  · -- through lemmas on any graph: reducing the expansion of this one outright is far too large
    have root : aliasChains.root = 0 := rfl
    obtain ⟨s, run⟩ : ∃ s, (expand aliasChains (aliasChains.nodes.size + 1) 1
        aliasChains.root).run ⟨3000, Array.replicate aliasChains.nodes.size false⟩ =
          .error .tooDeep s := by
      rw [size_aliasChains, root]
      exact expand_aliasChains
    exact expandAll_of_tooDeep (ofGraph_of_run run)

end StageTree.Tree
