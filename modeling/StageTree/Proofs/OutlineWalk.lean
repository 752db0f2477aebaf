import StageTree.Outline.Build
import StageTree.Proofs.Flatten
import StageTree.Proofs.Walk

/-!
# The outline follows the walk

An outline shows some visits of its document's tree: a pair keyed `stage`, `task`, `script`,
`job` or `deployment`, and an array that is the value of a pair keyed `stages`, `steps` or
`jobs`, as a wrapper; nothing below a pair keyed `task` (`Tree.Placed.shown`). Each shows a head
(`Tree.Placed.head`): a pair its key, its value's display text and the range of the object
holding it, a wrapper its pair's key and its own range.

Before flattening, the outline nodes below the root stand one for one, in pre-order, for the
shown visits of the walk, each with as many nodes below it as there are shown visits below the
visit (`Outline.ofNode_found`). Flattening then drops some wrappers and keeps the rest in order
(`Outline.flattenArrays_keeps`).

Main statements: `Outline.ofNode_root_found` and `Outline.flattenArrays_follows`. Since the first
pass builds exactly the nodes of `Outline.ofNode`, they give `Outline.build_follows_walk`: the
outline exists exactly when every shown pair's value can be written; its nodes below the root are
then, in pre-order, the heads of the shown visits of the walk with some wrappers left out, and a
kept visit below a kept visit in the tree has its node below the other's node in the outline.
-/

namespace StageTree

open List (Forall₂)

namespace Text.Str

/-- A code point written as a character other than U+FFFD is that character. -/
theorem char_toChar {c : Code} (notHalf : c.toChar ≠ '�') : Code.char c.toChar = c := by
  cases c with
  | char _ => rfl
  | half _ => exact absurd rfl notHalf

/-- A text written as a `String` without U+FFFD is the text of that `String`: only a half is
written as U+FFFD, and a character as itself. -/
theorem toString_eq_iff {s : Str} {w : String} (clean : '�' ∉ w.toList) :
    s.toString = w ↔ s = ofString w := by
  constructor
  · intro written
    have codes : s.toList.map Code.toChar = w.toList := by
      rw [← written, toString, String.toList_ofList]
    have chars : ∀ c ∈ s.toList, Code.char c.toChar = c := fun c mem =>
      char_toChar fun half => clean (codes ▸ List.mem_map.2 ⟨c, mem, half⟩)
    have same : w.toList.map Code.char = s.toList := by
      rw [← codes, List.map_map]
      exact (List.map_congr_left chars).trans (List.map_id _)
    cases s
    simp [ofString, same, toList]
  · rintro rfl
    exact toString_ofString w

end Text.Str

namespace Tree

/-- Whether a key's text is one of the words. -/
def Key.isOneOf (k : Key) (words : List String) : Bool :=
  (words.map Text.Str.ofString).contains k.text

/-- Tested against words without U+FFFD, a key's text is one of them exactly when its text
written as a `String` is. -/
theorem Key.isOneOf_eq (k : Key) {words : List String} (clean : ∀ w ∈ words, '�' ∉ w.toList) :
    k.isOneOf words = words.contains k.text.toString := by
  induction words with
  | nil => rfl
  | cons w rest ih =>
    have cleanW : '�' ∉ w.toList := clean w (List.mem_cons_self ..)
    have cleanRest : ∀ x ∈ rest, '�' ∉ x.toList := fun x h => clean x (List.mem_cons_of_mem _ h)
    simp only [isOneOf, List.map_cons, List.contains_cons] at ih ⊢
    rw [ih cleanRest]
    congr 1
    rw [Bool.eq_iff_iff, beq_iff_eq, beq_iff_eq, Text.Str.toString_eq_iff cleanW]

/-- Whether a visit is a pair. -/
def Visit.isPair : Visit → Bool
  | .pair _ _ => true
  | _ => false

/-- Whether a visit is a pair keyed `task`. -/
def Visit.isTask : Visit → Bool
  | .pair k _ => k.isOneOf ["task"]
  | _ => false

namespace Placed

/-- Whether an outline shows a placed visit: a pair keyed `stage`, `task`, `script`, `job` or
`deployment`, or an array that is the value of a pair keyed `stages`, `steps` or `jobs`; and
nothing below a pair keyed `task`. -/
def shown (p : Placed) : Bool :=
  !p.above.any Visit.isTask &&
    match p.visit, p.above with
    | .pair k _, _ => k.isOneOf Outline.shownKeys
    | .node (.array _ _), .pair k _ :: _ => k.isOneOf Outline.wrappedKeys
    | _, _ => false

/-- What an outline shows of a shown visit: a pair its key, its value's display text and the
range of the object holding it; an array its pair's key and its own range, as a wrapper. -/
def head (t : LineTable) (p : Placed) : Outline.Head :=
  match p.visit, p.above with
  | .pair k v, .node holder :: _ =>
    ⟨k.text.toString, some v.value.display, t.rangeOf holder.span.start holder.span.stop, false⟩
  | .node n, .pair k _ :: _ => ⟨k.text.toString, none, t.rangeOf n.span.start n.span.stop, true⟩
  | _, _ => ⟨"", none, t.rangeOf 0 0, false⟩

/-- Whether a visit's value can be written: a pair's value holds no integer too long to write. -/
def writable (p : Placed) : Bool :=
  match p.visit with
  | .pair _ v => v.value.writable
  | _ => true

/-- The shown visits below a placed visit, in the order of the walk. -/
def shownBelow (p : Placed) : List Placed := p.block.tail.filter shown

/-- A key is never shown. -/
@[simp] theorem shown_key (k : Key) (above : List Visit) : (⟨.key k, above⟩ : Placed).shown = false := by
  simp [shown]

/-- A node that is no pair's value is never shown. -/
theorem shown_node_of_not_value (n : Node) {above : List Visit}
    (notValue : ∀ k v rest, above ≠ .pair k v :: rest) : (⟨.node n, above⟩ : Placed).shown = false := by
  cases above with
  | nil => cases n <;> rfl
  | cons v rest =>
    cases v with
    | pair k v => exact absurd rfl (notValue k v rest)
    | node _ => cases n <;> simp [shown]
    | key _ => cases n <;> simp [shown]

/-- An object is never shown. -/
@[simp] theorem shown_object (s : Span) (pairs : List (Key × Node)) (above : List Visit) :
    (⟨.node (.object s pairs), above⟩ : Placed).shown = false := by
  simp [shown]

/-- Nothing below a pair keyed `task` is shown. -/
theorem shown_of_below_task {p : Placed} (belowTask : p.above.any Visit.isTask = true) :
    p.shown = false := by
  simp [shown, belowTask]

/-- A placed subtree starts with the visit itself. -/
theorem block_eq_cons (p : Placed) : p.block = p :: p.block.tail := by
  obtain ⟨visit, above⟩ := p
  cases visit with
  | node n => cases n <;> rfl
  | pair _ _ => rfl
  | key _ => rfl

/-- A shown visit's subtree holds one shown visit more than there are below it. -/
theorem countP_block {p : Placed} (shows : p.shown = true) :
    p.block.countP shown = p.shownBelow.length + 1 := by
  rw [block_eq_cons, List.countP_cons, shows, if_pos rfl, shownBelow, List.countP_eq_length_filter]

/-- Only an array is shown as a wrapper. -/
theorem isPair_of_head_isArray {t : LineTable} {p : Placed} (wrapper : (p.head t).isArray = true) :
    p.visit.isPair = false := by
  obtain ⟨visit, above⟩ := p
  cases visit with
  | node _ => rfl
  | key _ => rfl
  | pair k v =>
    cases above with
    | nil => simp [head] at wrapper
    | cons first rest => cases first <;> simp [head] at wrapper

end Placed

/-- The shown visits of a placed walk, each with its place in the walk. -/
def shownIn (ps : List Placed) : List (Placed × Nat) := ps.zipIdx.filter fun e => e.1.shown

/-- The shown visits of a placed walk, places aside, are its shown entries. -/
theorem shownIn_fst (ps : List Placed) : (shownIn ps).map Prod.fst = ps.filter Placed.shown := by
  conv_rhs => rw [← List.zipIdx_map_fst 0 ps]
  rw [List.filter_map]
  rfl

/-- No shown visit is listed twice: each has its own place. -/
theorem nodup_shownIn (ps : List Placed) : (shownIn ps).Nodup := by
  have places : (ps.zipIdx.map Prod.snd).Nodup := by
    rw [List.zipIdx_map_snd]
    exact List.nodup_range' ..
  exact (List.Pairwise.of_map Prod.snd (fun _ _ differ same => differ (congrArg Prod.snd same))
    places).filter _

/-- The shown visit at place `r` of `shownIn` is a shown visit of the walk with its place `n`,
and `r` shown visits come before it. -/
theorem getElem_shownIn {ps : List Placed} {r : Nat} (hr : r < (shownIn ps).length) :
    ∃ n, ∃ hn : n < ps.length, (shownIn ps)[r] = (ps[n], n) ∧ ps[n].shown = true ∧
      (ps.take n).countP Placed.shown = r := by
  obtain ⟨n, hn, at_n, passes, count⟩ := exists_getElem_of_getElem_filter hr
  have hn' : n < ps.length := by simpa using hn
  have entry : ps.zipIdx[n] = (ps[n], n) := by rw [List.getElem_zipIdx, Nat.zero_add]
  have firsts : (ps.zipIdx.take n).map Prod.fst = ps.take n := by
    rw [List.map_take, List.zipIdx_map_fst]
  refine ⟨n, hn', ?_, ?_, ?_⟩
  · exact at_n.symm.trans entry
  · simpa [entry] using passes
  · rw [← firsts, List.countP_map]
    exact count

/-- A shown visit inside the subtree of a shown visit comes after it among the shown visits,
no further on than the shown visits below the first. -/
theorem shownIn_encloses {ps : List Placed} (closed : BlocksClosed Placed.block ps) {ra rb : Nat}
    (ha : ra < (shownIn ps).length) (hb : rb < (shownIn ps).length)
    (before : (shownIn ps)[ra].2 < (shownIn ps)[rb].2)
    (inside : (shownIn ps)[rb].2 < (shownIn ps)[ra].2 + (shownIn ps)[ra].1.visit.count) :
    ra < rb ∧ rb ≤ ra + (shownIn ps)[ra].1.shownBelow.length := by
  obtain ⟨na, hna, entryA, shownA, countA⟩ := getElem_shownIn ha
  obtain ⟨nb, hnb, entryB, shownB, countB⟩ := getElem_shownIn hb
  simp only [entryA, entryB] at before inside ⊢
  have blockLength : ps[na].block.length = ps[na].visit.count := by
    rw [Placed.block, Visit.length_placed]
  have bound := closed.countP_take_succ_le Placed.shown hna (Nat.le_of_lt before)
    (by rw [blockLength]; exact inside)
  rw [Placed.countP_block shownA, List.take_succ_eq_append_getElem hnb, List.countP_append,
    countA, countB, List.countP_singleton, shownB, if_pos rfl] at bound
  have later := countP_take_lt_countP_take hna before shownA
  rw [countA, countB] at later
  omega

namespace Visit

mutual

/-- Every visit of a placed node subtree has the visits `above` above it. -/
theorem nodePlaced_above : ∀ (above : List Visit) (n : Node), ∀ q ∈ nodePlaced above n,
    above <:+ q.above
  | above, .object s pairs, q, mem => by
    rcases List.mem_cons.1 mem with rfl | inner
    · exact List.suffix_refl _
    · exact (List.suffix_cons _ _).trans (pairsPlaced_above _ pairs q inner)
  | above, .array s items, q, mem => by
    rcases List.mem_cons.1 mem with rfl | inner
    · exact List.suffix_refl _
    · exact (List.suffix_cons _ _).trans (itemsPlaced_above _ items q inner)
  | _, .string _ _, q, mem => by obtain rfl := List.mem_singleton.1 mem; exact List.suffix_refl _
  | _, .number _ _, q, mem => by obtain rfl := List.mem_singleton.1 mem; exact List.suffix_refl _
  | _, .boolean _ _, q, mem => by obtain rfl := List.mem_singleton.1 mem; exact List.suffix_refl _
  | _, .null _, q, mem => by obtain rfl := List.mem_singleton.1 mem; exact List.suffix_refl _

/-- Every visit of placed pair subtrees has the visits `above` above it. -/
theorem pairsPlaced_above : ∀ (above : List Visit) (pairs : List (Key × Node)),
    ∀ q ∈ pairsPlaced above pairs, above <:+ q.above
  | _, [], _, mem => absurd mem List.not_mem_nil
  | above, (k, v) :: rest, q, mem => by
    simp only [pairsPlaced, List.cons_append, List.mem_cons, List.mem_append] at mem
    rcases mem with rfl | rfl | value | later
    · exact List.suffix_refl _
    · exact List.suffix_cons _ _
    · exact (List.suffix_cons _ _).trans (nodePlaced_above _ v q value)
    · exact pairsPlaced_above above rest q later

/-- Every visit of placed item subtrees has the visits `above` above it. -/
theorem itemsPlaced_above : ∀ (above : List Visit) (items : List Node),
    ∀ q ∈ itemsPlaced above items, above <:+ q.above
  | _, [], _, mem => absurd mem List.not_mem_nil
  | above, n :: rest, q, mem => by
    rcases List.mem_append.1 mem with first | later
    · exact nodePlaced_above above n q first
    · exact itemsPlaced_above above rest q later

end

/-- Nothing in a node subtree placed below a pair keyed `task` is shown. -/
theorem nodePlaced_hidden {above : List Visit} (belowTask : above.any isTask = true) (n : Node) :
    ∀ q ∈ nodePlaced above n, q.shown = false := by
  intro q mem
  obtain ⟨front, same⟩ := nodePlaced_above above n q mem
  apply Placed.shown_of_below_task
  rw [← same, List.any_append, belowTask, Bool.or_true]

end Visit

end Tree

namespace Outline

open StageTree.Tree (Placed Visit Key Node)

variable (t : LineTable)

/-- An outline node stands for a shown visit: it shows the visit's head, and has as many nodes
below it as there are shown visits below the visit. -/
def StandsFor (o : Outline) (p : Placed) : Prop :=
  o.head = p.head t ∧ (nodesOf o.children).length = p.shownBelow.length

/-- What the outline nodes found for placed visits say of them: none exactly when a shown
visit's value cannot be written, and else nodes standing, in pre-order, for the shown visits. -/
def Found : Option (List Outline) → List Placed → Prop
  | none, ps => ∃ p ∈ ps, p.shown = true ∧ p.writable = false
  | some found, ps => (∀ p ∈ ps, p.shown = true → p.writable = true) ∧
      Forall₂ (StandsFor t) (nodesOf found) (ps.filter Placed.shown)

variable {t}

/-- No visits, no nodes. -/
theorem Found.nil : Found t (some []) [] := ⟨fun _ mem => absurd mem List.not_mem_nil, .nil⟩

/-- The nodes found for two runs of visits, one after the other. -/
theorem Found.append {r r' : Option (List Outline)} {ps ps' : List Placed} (left : Found t r ps)
    (right : Found t r' ps') : Found t (r >>= fun found => (found ++ ·) <$> r') (ps ++ ps') := by
  cases r with
  | none =>
    obtain ⟨p, mem, shows, cannot⟩ := left
    exact ⟨p, List.mem_append_left _ mem, shows, cannot⟩
  | some found =>
    cases r' with
    | none =>
      obtain ⟨p, mem, shows, cannot⟩ := right
      exact ⟨p, List.mem_append_right _ mem, shows, cannot⟩
    | some found' =>
      obtain ⟨leftWrites, leftNodes⟩ := left
      obtain ⟨rightWrites, rightNodes⟩ := right
      show Found t (some (found ++ found')) (ps ++ ps')
      refine ⟨fun p mem => ?_, ?_⟩
      · rcases List.mem_append.1 mem with first | later
        exacts [leftWrites p first, rightWrites p later]
      · rw [nodesOf_append, List.filter_append]
        exact List.rel_append leftNodes rightNodes

/-- A visit that is not shown adds no node. -/
theorem Found.cons_hidden {r : Option (List Outline)} {ps : List Placed} (p : Placed)
    (hidden : p.shown = false) (found : Found t r ps) : Found t r (p :: ps) := by
  cases r with
  | none =>
    obtain ⟨q, mem, shows, cannot⟩ := found
    exact ⟨q, List.mem_cons_of_mem _ mem, shows, cannot⟩
  | some nodes =>
    obtain ⟨writes, standing⟩ := found
    refine ⟨fun q mem shows => ?_, ?_⟩
    · rcases List.mem_cons.1 mem with rfl | later
      · rw [hidden] at shows; exact absurd shows Bool.false_ne_true
      · exact writes q later shows
    · rw [List.filter_cons_of_neg (by rw [hidden]; exact Bool.false_ne_true)]
      exact standing

/-- Visits none of which is shown add no node. -/
theorem Found.of_hidden {ps : List Placed} (hidden : ∀ p ∈ ps, p.shown = false) :
    Found t (some []) ps := by
  induction ps with
  | nil => exact Found.nil
  | cons p rest ih =>
    exact Found.cons_hidden p (hidden p (List.mem_cons_self ..))
      (ih fun q mem => hidden q (List.mem_cons_of_mem _ mem))

/-- A shown visit whose value cannot be written leaves no outline. -/
theorem Found.unwritable {p : Placed} (ps : List Placed) (shows : p.shown = true)
    (cannot : p.writable = false) : Found t none (p :: ps) :=
  ⟨p, List.mem_cons_self .., shows, cannot⟩

/-- A shown visit whose value can be written becomes one node, with the nodes found for the
visits below it as its children. -/
theorem Found.wrap {r : Option (List Outline)} {ps : List Placed} (found : Found t r ps)
    (p : Placed) (mk : List Outline → Outline) (shows : p.shown = true)
    (writes : p.writable = true) (heads : ∀ cs, (mk cs).head = p.head t)
    (children : ∀ cs, (mk cs).children = cs) (below : p.shownBelow = ps.filter Placed.shown) :
    Found t ((fun cs => [mk cs]) <$> r) (p :: ps) := by
  cases r with
  | none =>
    obtain ⟨q, mem, shows', cannot⟩ := found
    exact ⟨q, List.mem_cons_of_mem _ mem, shows', cannot⟩
  | some cs =>
    obtain ⟨writesAll, standing⟩ := found
    show Found t (some [mk cs]) (p :: ps)
    refine ⟨fun q mem => ?_, ?_⟩
    · rcases List.mem_cons.1 mem with rfl | later
      · exact fun _ => writes
      · exact writesAll q later
    · rw [List.filter_cons_of_pos shows, nodesOf_cons, children, nodesOf_nil, List.append_nil]
      exact Forall₂.cons ⟨heads cs, by rw [below, children, standing.length_eq]⟩ standing

/-- A key tested against the shown keys as a `String` is tested as a text. -/
theorem contains_shownKeys (k : Key) : shownKeys.contains k.text.toString = k.isOneOf shownKeys :=
  (k.isOneOf_eq (by decide)).symm

/-- A key tested against the wrapped keys as a `String` is tested as a text. -/
theorem contains_wrappedKeys (k : Key) :
    wrappedKeys.contains k.text.toString = k.isOneOf wrappedKeys :=
  (k.isOneOf_eq (by decide)).symm

/-- A key tested against `task` as a `String` is tested as a text. -/
theorem toString_beq_task (k : Key) : (k.text.toString == "task") = k.isOneOf ["task"] := by
  rw [k.isOneOf_eq (by decide), List.contains_cons, List.contains_nil, Bool.or_false]

/-- A key that is `task` is shown. -/
theorem isOneOf_shownKeys_of_task {k : Key} (task : k.isOneOf ["task"] = true) :
    k.isOneOf shownKeys = true := by
  rw [← contains_shownKeys]
  rw [← toString_beq_task, beq_iff_eq] at task
  rw [task]
  decide

variable (t)

mutual

/-- The outline nodes of a tree that is no pair's value, placed below visits with no `task`
among them, are found for its placed visits. -/
theorem ofNode_found : ∀ (above : List Visit) (n : Node), above.any Visit.isTask = false →
    (⟨.node n, above⟩ : Placed).shown = false → Found t (ofNode t n) (Visit.nodePlaced above n)
  | above, .object s pairs, free, hidden => by
    rw [ofNode, Visit.nodePlaced]
    exact Found.cons_hidden _ hidden (ofPairs_found above (.object s pairs) pairs free)
  | above, .array s items, free, hidden => by
    rw [ofNode, Visit.nodePlaced]
    exact Found.cons_hidden _ hidden (ofItems_found above (.array s items) items free)
  | _, .string _ _, _, hidden => Found.cons_hidden _ hidden Found.nil
  | _, .number _ _, _, hidden => Found.cons_hidden _ hidden Found.nil
  | _, .boolean _ _, _, hidden => Found.cons_hidden _ hidden Found.nil
  | _, .null _, _, hidden => Found.cons_hidden _ hidden Found.nil

/-- The outline nodes of the value of a pair not keyed `task`, placed below visits with no
`task` among them, are found for the value's placed visits. -/
theorem ofValue_found : ∀ (above : List Visit) (k : Key) (v : Node), above.any Visit.isTask = false →
    k.isOneOf ["task"] = false →
    Found t (ofValue t k.text.toString v) (Visit.nodePlaced (.pair k v :: above) v)
  | above, k, .object s pairs, free, notTask => by
    rw [ofValue, Visit.nodePlaced]
    exact Found.cons_hidden _ (Placed.shown_object ..)
      (ofPairs_found (.pair k (.object s pairs) :: above) (.object s pairs) pairs
        (by simp [Visit.isTask, free, notTask]))
  | above, k, .array s items, free, notTask => by
    have inner := ofItems_found (.pair k (.array s items) :: above) (.array s items) items
      (by simp [Visit.isTask, free, notTask])
    rw [ofValue, Visit.nodePlaced, contains_wrappedKeys]
    by_cases wrapped : k.isOneOf wrappedKeys = true
    · -- the array is shown as a wrapper holding the nodes of its items
      rw [if_pos wrapped]
      exact inner.wrap _ _ (by simp [Placed.shown, free, notTask, Visit.isTask, wrapped]) rfl
        (fun _ => rfl) (fun _ => rfl) rfl
    · rw [if_neg wrapped]
      exact Found.cons_hidden _ (by simp [Placed.shown, free, notTask, Visit.isTask, wrapped]) inner
  | _, _, .string _ _, _, _ => Found.cons_hidden _ (by simp [Placed.shown]) Found.nil
  | _, _, .number _ _, _, _ => Found.cons_hidden _ (by simp [Placed.shown]) Found.nil
  | _, _, .boolean _ _, _, _ => Found.cons_hidden _ (by simp [Placed.shown]) Found.nil
  | _, _, .null _, _, _ => Found.cons_hidden _ (by simp [Placed.shown]) Found.nil

/-- The outline nodes of the pairs of an object, placed below visits with no `task` among
them, are found for the pairs' placed visits. -/
theorem ofPairs_found : ∀ (above : List Visit) (holder : Node) (pairs : List (Key × Node)),
    above.any Visit.isTask = false →
    Found t (ofPairs t holder.span pairs) (Visit.pairsPlaced (.node holder :: above) pairs)
  | _, _, [], _ => Found.nil
  | above, holder, (k, v) :: rest, free => by
    have inside : (Visit.node holder :: above).any Visit.isTask = false := by
      simp [Visit.isTask, free]
    have keyHidden := Placed.shown_key k (.pair k v :: .node holder :: above)
    have later := ofPairs_found above holder rest free
    rw [ofPairs, Visit.pairsPlaced, contains_shownKeys]
    by_cases shownKey : k.isOneOf shownKeys = true
    · have pairShown : (⟨.pair k v, .node holder :: above⟩ : Placed).shown = true := by
        simp [Placed.shown, inside, shownKey]
      rw [if_pos shownKey]
      by_cases writes : v.value.writable = true
      · rw [if_pos writes, toString_beq_task]
        by_cases task : k.isOneOf ["task"] = true
        · -- a task shows no node below it
          rw [if_pos task]
          have below : ∀ q ∈ Visit.nodePlaced (.pair k v :: .node holder :: above) v,
              q.shown = false :=
            Visit.nodePlaced_hidden (by simp [Visit.isTask, task]) v
          exact Found.append ((Found.cons_hidden _ keyHidden (Found.of_hidden below)).wrap _ _
            pairShown writes (fun _ => rfl) (fun _ => rfl) rfl) later
        · rw [if_neg task]
          have value := ofValue_found (.node holder :: above) k v inside
            (Bool.eq_false_iff.2 task)
          exact Found.append ((Found.cons_hidden _ keyHidden value).wrap _ _ pairShown writes
            (fun _ => rfl) (fun _ => rfl) rfl) later
      · rw [if_neg writes]
        exact Found.append (Found.unwritable _ pairShown (Bool.eq_false_iff.2 writes)) later
    · -- a pair not shown: only the nodes of its value
      have notTask : k.isOneOf ["task"] = false :=
        Bool.eq_false_iff.2 fun task => shownKey (isOneOf_shownKeys_of_task task)
      rw [if_neg shownKey]
      exact Found.append (Found.cons_hidden _ (by simp [Placed.shown, Bool.eq_false_iff.2 shownKey])
        (Found.cons_hidden _ keyHidden (ofValue_found (.node holder :: above) k v inside notTask)))
        later

/-- The outline nodes of array items, placed below visits with no `task` among them, are found
for the items' placed visits. -/
theorem ofItems_found : ∀ (above : List Visit) (holder : Node) (items : List Node),
    above.any Visit.isTask = false →
    Found t (ofItems t items) (Visit.itemsPlaced (.node holder :: above) items)
  | _, _, [], _ => Found.nil
  | above, holder, n :: rest, free => by
    rw [ofItems, Visit.itemsPlaced]
    exact Found.append
      (ofNode_found (.node holder :: above) n (by simp [Visit.isTask, free])
        (Placed.shown_node_of_not_value n fun _ _ _ => by simp))
      (ofItems_found above holder rest free)

end

variable {t}

/-- In a pre-order listing of outline nodes, the node at place `b` lies in the subtree of the
node at place `a`, which fills the places after `a` up to the subtree's size. -/
def Within (listing : List (Outline × Nat)) (a b : Nat) : Prop :=
  ∃ h : a < listing.length, a < b ∧ b < a + (nodes listing[a].1).length

/-- Places among the nodes of trees are places in their pre-order listing. -/
theorem within_preorder {cs : List Outline} {a b : Nat} (ha : a < (nodesOf cs).length)
    (before : a < b) (inside : b < a + (nodes (nodesOf cs)[a]).length) :
    Within (preorder 0 cs) a b := by
  have lengths : (preorder 0 cs).length = (nodesOf cs).length := by
    rw [← preorder_fst 0 cs, List.length_map]
  have hp : a < (preorder 0 cs).length := lengths ▸ ha
  have same : (preorder 0 cs)[a].1 = (nodesOf cs)[a] := by
    simp [← preorder_fst 0 cs]
  exact ⟨hp, before, by rw [same]; exact inside⟩

/-- Flattening the nodes found for a placed walk, below any root: the nodes below the root show,
in pre-order, the heads of the shown visits with some wrappers left out, and a kept visit in
the subtree of a kept visit has its node in the subtree of the other's node. -/
theorem flattenArrays_follows {ps : List Placed} (closed : BlocksClosed Placed.block ps)
    {found : List Outline} (finds : Found t (some found) ps) (key : String)
    (value : Option Text.Str) (range : Range) :
    let o := flattenArrays ⟨key, value, range, false, found⟩
    ∃ kept : List (Placed × Nat), kept.Sublist (Tree.shownIn ps) ∧
      (∀ e ∈ Tree.shownIn ps, e ∉ kept → e.1.visit.isPair = false) ∧
      (preorder 0 o.children).map (·.1.head) = kept.map (·.1.head t) ∧
      ∀ a b (ha : a < kept.length) (hb : b < kept.length), kept[a].2 < kept[b].2 →
        kept[b].2 < kept[a].2 + kept[a].1.visit.count → Within (preorder 0 o.children) a b := by
  intro o
  let root : Outline := ⟨key, value, range, false, found⟩
  -- the marked nodes below the root stand, place by place, for the shown visits
  have standing : Forall₂ (fun m e => StandsFor t m.1 e.1) (marked root) (Tree.shownIn ps) := by
    have nodes := finds.2
    rw [← Tree.shownIn_fst] at nodes
    rw [← marked_fst root] at nodes
    exact List.forall₂_map_left_iff.1 (List.forall₂_map_right_iff.1 nodes)
  have lengths : (Tree.shownIn ps).length = (marked root).length := standing.length_eq.symm
  set kept := (((Tree.shownIn ps).zip (marked root)).filter fun z => z.2.2).map Prod.fst
    with picks
  refine ⟨kept, ?sublist, ?dropped, ?heads, ?encloses⟩
  case sublist =>
    have whole : ((Tree.shownIn ps).zip (marked root)).map Prod.fst = Tree.shownIn ps :=
      List.map_fst_zip (Nat.le_of_eq lengths)
    exact whole ▸ List.filter_sublist.map Prod.fst
  case dropped =>
    -- a visit left out is one whose node flattening drops, and only wrappers are dropped
    intro e mem notKept
    obtain ⟨r, hr, rfl⟩ := List.getElem_of_mem mem
    have hm : r < (marked root).length := lengths ▸ hr
    have hz : r < ((Tree.shownIn ps).zip (marked root)).length := by simp; omega
    have goes : (marked root)[r].2 = false := by
      rw [← Bool.not_eq_true]
      intro stays
      apply notKept
      have inFilter : ((Tree.shownIn ps).zip (marked root))[r] ∈
          ((Tree.shownIn ps).zip (marked root)).filter fun z => z.2.2 :=
        List.mem_filter.2 ⟨List.getElem_mem hz, by simpa [List.getElem_zip] using stays⟩
      exact List.mem_map.2 ⟨_, inFilter, by rw [List.getElem_zip]⟩
    have wrapper := marked_dropped root (marked root)[r] (List.getElem_mem hm) goes
    have stands := standing.get hm hr
    simp only [List.get_eq_getElem] at stands
    apply Placed.isPair_of_head_isArray (t := t)
    rw [← stands.1]
    exact wrapper
  case heads =>
    calc (preorder 0 o.children).map (·.1.head)
        = (Outline.kept root).map head := preorder_heads_flattenArrays root
      _ = kept.map (·.1.head t) := by
        rw [Outline.kept, List.map_map, picks, List.map_map]
        exact (map_filter_zip_of_forall₂ standing Prod.snd (fun e => e.1.head t)
          (fun m => m.1.head) fun _ _ s => s.1.symm).symm
  case encloses =>
    intro a b ha hb before inside
    obtain ⟨ra, hra, hma, atA, keptA, countA⟩ := exists_getElem_picked Prod.snd lengths picks ha
    obtain ⟨rb, hrb, hmb, atB, keptB, countB⟩ := exists_getElem_picked Prod.snd lengths picks hb
    rw [atA, atB] at before inside
    obtain ⟨after, within⟩ := Tree.shownIn_encloses closed hra hrb before inside
    have stands := standing.get hma hra
    simp only [List.get_eq_getElem] at stands
    have below : rb < ra + (nodes (marked root)[ra].1).length := by
      rw [nodes_eq, List.length_cons, stands.2]
      omega
    obtain ⟨h, lt, encloses⟩ := flattenArrays_encloses root hma hmb keptA keptB after below
    subst countA countB
    exact within_preorder h lt encloses

/-- The outline nodes of a tree, placed from its root, are found for its placed walk. -/
theorem ofNode_root_found (root : Node) :
    Found t (ofNode t root) ((Visit.node root).placed []) :=
  ofNode_found t [] root rfl
    (Placed.shown_node_of_not_value root fun _ _ _ => (List.cons_ne_nil _ _).symm)

end Outline

end StageTree
