import StageTree.Proofs.OutlinePass
import StageTree.Report

/-!
# Occurrences of a key follow the walk

The occurrences of a key in a tree are its pairs keyed so, in the order of the walk, each with
the object holding it (`Tree.Node.occurrences_eq_placed`): an alias copy is walked as often as
it is copied, so each copy's pairs count. Reported as JSON, each shows its key, its value's
display text and the range of its holder, and the report fails exactly when one of those values
cannot be written (`Report.mapM_occurrenceJson`).

Main statement: `Report.occurrences_follow_walk`. Besides the above, for a key the outline shows,
the outline's nodes of that key that are no wrappers show, in pre-order, the same key, value and
range as the occurrences that lie below no pair keyed `task`.
-/

namespace StageTree

namespace Tree

namespace Placed

/-- The occurrence a placed visit makes of a key: a pair keyed so, with the object holding it. -/
def occurrenceOf (key : Text.Str) (p : Placed) : Option Node.Occurrence :=
  match p.visit, p.above with
  | .pair k v, .node holder :: _ => if k.text == key then some ⟨holder.span, k, v⟩ else none
  | _, _ => none

/-- A shown visit that is no pair is a wrapper. -/
theorem head_isArray_of_shown {t : LineTable} {p : Placed} (shows : p.shown = true)
    (notPair : p.visit.isPair = false) : (p.head t).isArray = true := by
  obtain ⟨visit, above⟩ := p
  cases visit with
  | pair _ _ => simp [Visit.isPair] at notPair
  | key k => simp at shows
  | node n =>
    cases n with
    | array s items =>
      cases above with
      | nil => simp [shown] at shows
      | cons first rest => cases first <;> simp [shown, head] at shows ⊢
    | object => simp at shows
    | string => simp [shown] at shows
    | number => simp [shown] at shows
    | boolean => simp [shown] at shows
    | null => simp [shown] at shows

/-- For a key the outline shows, a placed visit makes a node of that key that is no wrapper
exactly when it makes an occurrence of the key below no pair keyed `task`, and both show the
same key, value and range. -/
theorem shown_keyed_eq (t : LineTable) {w : String} (hw : w ∈ Outline.shownKeys) (p : Placed) :
    (if (!(p.head t).isArray && (p.head t).key == w) && p.shown then
        some ((p.head t).key, (p.head t).value, (p.head t).range) else none) =
      if p.above.any Visit.isTask then none else
        (p.occurrenceOf (Text.Str.ofString w)).map fun oc =>
          (oc.key.text.toString, some oc.value.value.display, t.rangeOf oc.holder.start oc.holder.stop) := by
  have clean : '�' ∉ w.toList := by revert w; decide
  have named : w ≠ "" := by rintro rfl; revert hw; decide
  obtain ⟨visit, above⟩ := p
  cases visit with
  | key k => simp [shown, occurrenceOf]
  | node n =>
    by_cases shows : (⟨.node n, above⟩ : Placed).shown = true
    · have wrapper := head_isArray_of_shown (t := t) shows rfl
      simp [wrapper, occurrenceOf]
    · simp [shows, occurrenceOf]
  | pair k v =>
    cases above with
    | nil => simp [head, occurrenceOf, Ne.symm named]
    | cons first rest =>
      cases first with
      | pair _ _ => simp [head, occurrenceOf, Ne.symm named]
      | key _ => simp [head, occurrenceOf, Ne.symm named]
      | node holder =>
        by_cases keyed : k.text = Text.Str.ofString w
        · have listed : k.isOneOf Outline.shownKeys = true := by
            simp only [Key.isOneOf, keyed, List.contains_iff_mem, List.mem_map]
            exact ⟨w, hw, rfl⟩
          by_cases task : rest.any Visit.isTask = true
          · simp [shown, head, task, Visit.isTask]
          · simp [shown, head, occurrenceOf, task, Visit.isTask, listed, keyed,
              Text.Str.toString_ofString]
        · have differs : (k.text.toString == w) = false := by
            rw [beq_eq_false_iff_ne, ne_eq, Text.Str.toString_eq_iff clean]
            exact keyed
          simp [shown, head, occurrenceOf, differs, keyed]

end Placed

namespace Node

variable (key : Text.Str)

mutual

/-- The occurrences of a key below a tree are the occurrences its placed visits make. -/
theorem occurrences_eq_placed : ∀ (above : List Visit) (n : Node),
    n.occurrences key = (Visit.nodePlaced above n).filterMap (·.occurrenceOf key)
  | above, .object s pairs => by
    rw [occurrences, Visit.nodePlaced, List.filterMap_cons_none rfl]
    exact pairOccurrences_eq_placed above (.object s pairs) pairs
  | above, .array s items => by
    rw [occurrences, Visit.nodePlaced, List.filterMap_cons_none rfl]
    exact itemOccurrences_eq_placed _ items
  | _, .string _ _ => rfl
  | _, .number _ _ => rfl
  | _, .boolean _ _ => rfl
  | _, .null _ => rfl

/-- The occurrences of a key in pairs of an object are the occurrences their placed visits
make. -/
theorem pairOccurrences_eq_placed : ∀ (above : List Visit) (holder : Node)
    (pairs : List (Key × Node)),
    pairOccurrences key holder.span pairs =
      (Visit.pairsPlaced (.node holder :: above) pairs).filterMap (·.occurrenceOf key)
  | _, _, [] => rfl
  | above, holder, (k, v) :: rest => by
    rw [pairOccurrences, Visit.pairsPlaced, List.filterMap_append, List.filterMap_cons,
      List.filterMap_cons_none rfl, ← occurrences_eq_placed, ← pairOccurrences_eq_placed]
    by_cases keyed : (k.text == key) = true
    · simp [Placed.occurrenceOf, keyed]
    · simp [Placed.occurrenceOf, keyed]

/-- The occurrences of a key in array items are the occurrences their placed visits make. -/
theorem itemOccurrences_eq_placed : ∀ (above : List Visit) (items : List Node),
    itemOccurrences key items = (Visit.itemsPlaced above items).filterMap (·.occurrenceOf key)
  | _, [] => rfl
  | above, n :: rest => by
    rw [itemOccurrences, Visit.itemsPlaced, List.filterMap_append, ← occurrences_eq_placed,
      ← itemOccurrences_eq_placed]

end

end Node

end Tree

namespace Report

open StageTree.Tree

/-- Reporting found pairs fails exactly when one of their values cannot be written, and else
shows each one's key, value and holder's range. -/
theorem mapM_occurrenceJson (t : LineTable) (os : List Node.Occurrence) :
    os.mapM (occurrenceJson t) =
      if os.all (·.value.value.writable) then
        .ok (os.map fun o => .obj [("key", .str o.key.text), ("value", .str o.value.value.display),
          ("range", Outline.rangeJson (t.rangeOf o.holder.start o.holder.stop))])
      else .error .intTooLong := by
  induction os with
  | nil => rfl
  | cons o rest ih =>
    rw [List.mapM_cons, ih]
    by_cases writes : o.value.value.writable = true
    · by_cases restWrites : rest.all (·.value.value.writable) = true
      · simp [occurrenceJson, displayOf, writes, restWrites, bind, Except.bind, pure, Except.pure]
      · simp [occurrenceJson, displayOf, writes, restWrites, bind, Except.bind, pure, Except.pure]
    · simp [occurrenceJson, displayOf, writes, bind, Except.bind]

/-- For a key the outline shows, the outline's nodes of that key that are no wrappers show, in
pre-order, the same key, value and range as the occurrences of the key below no pair keyed
`task`. -/
theorem keyed_nodes_eq_occurrences (t : LineTable) {root : Node} {rest : List Node}
    {errors : List String} {w : String} (hw : w ∈ Outline.shownKeys) {o : Outline}
    (built : Outline.build t ⟨root :: rest, errors⟩ = some o) :
    ((Outline.preorder 0 o.children).filter fun e => !e.1.isArray && e.1.key == w).map
        (fun e => (e.1.key, e.1.value, e.1.range)) =
      ((((Visit.node root).placed []).filter fun p => !p.above.any Visit.isTask).filterMap
        (·.occurrenceOf (Text.Str.ofString w))).map fun oc =>
          (oc.key.text.toString, some oc.value.value.display,
            t.rangeOf oc.holder.start oc.holder.stop) := by
  obtain ⟨kept, sub, dropped, heads, -⟩ := Outline.follows_of_build built
  -- what the outline shows of a node, and which nodes count
  let picks : Outline.Head → Bool := fun h => !h.isArray && h.key == w
  let triple : Outline.Head → String × Option Text.Str × Range := fun h => (h.key, h.value, h.range)
  let ps := (Visit.node root).placed []
  -- every shown pair is kept, and every other shown visit is a wrapper, which is not picked
  have keptPicked : kept.filter (fun e => picks (e.1.head t)) =
      (Tree.shownIn ps).filter (fun e => picks (e.1.head t)) := by
    refine filter_eq_of_sublist sub (Tree.nodup_shownIn ps) _ fun e mem picked => ?_
    by_contra notKept
    have shows : e.1.shown = true := (List.mem_filter.1 mem).2
    have wrapper := Placed.head_isArray_of_shown (t := t) shows (dropped e mem notKept)
    simp [picks, wrapper] at picked
  calc ((Outline.preorder 0 o.children).filter fun e => !e.1.isArray && e.1.key == w).map
          (fun e => (e.1.key, e.1.value, e.1.range))
      = (((Outline.preorder 0 o.children).map (·.1.head)).filter picks).map triple := by
        rw [List.filter_map, List.map_map]
        rfl
    _ = ((kept.filter fun e => picks (e.1.head t)).map (·.1.head t)).map triple := by
        rw [heads, List.filter_map]
        rfl
    _ = (((ps.filter Placed.shown).filter fun p => picks (p.head t)).map (·.head t)).map
          triple := by
        rw [keptPicked, ← Tree.shownIn_fst, List.filter_map]
        simp only [List.map_map]
        rfl
    _ = ps.filterMap fun p => if picks (p.head t) && p.shown then some (triple (p.head t))
          else none := by
        rw [List.filter_filter, List.map_map, ← List.filterMap_eq_map, List.filterMap_filter]
        rfl
    _ = ps.filterMap fun p => if p.above.any Visit.isTask then none else
          (p.occurrenceOf (Text.Str.ofString w)).map fun oc =>
            (oc.key.text.toString, some oc.value.value.display,
              t.rangeOf oc.holder.start oc.holder.stop) := by
        congr 1
        funext p
        exact Placed.shown_keyed_eq t hw p
    _ = _ := by
        rw [List.map_filterMap, List.filterMap_filter]
        congr 1
        funext p
        cases p.above.any Visit.isTask <;> rfl

/-- The occurrences of a key in a document are its first tree's pairs keyed so, in the order of
the walk, alias copies counted as often as they are made: each is reported with its key, its
value's display text and the range of the object holding it, and the report fails exactly when
one of those values cannot be written. For a key the outline shows, the outline's nodes of that
key that are no wrappers show, in pre-order, the same key, value and range as the occurrences
below no pair keyed `task`. -/
theorem occurrences_follow_walk (t : LineTable) (root : Node) (rest : List Node)
    (errors : List String) (key : Text.Str) :
    let found := ((Visit.node root).placed []).filterMap (·.occurrenceOf key)
    (occurrences (some t) ⟨root :: rest, errors⟩ key =
        if found.all (·.value.value.writable) then
          .ok (found.map fun o => .obj [("key", .str o.key.text),
            ("value", .str o.value.value.display),
            ("range", Outline.rangeJson (t.rangeOf o.holder.start o.holder.stop))])
        else .error .intTooLong) ∧
    ∀ w ∈ Outline.shownKeys, ∀ o, Outline.build t ⟨root :: rest, errors⟩ = some o →
      ((Outline.preorder 0 o.children).filter fun e => !e.1.isArray && e.1.key == w).map
          (fun e => (e.1.key, e.1.value, e.1.range)) =
        ((((Visit.node root).placed []).filter fun p => !p.above.any Visit.isTask).filterMap
          (·.occurrenceOf (Text.Str.ofString w))).map fun oc =>
            (oc.key.text.toString, some oc.value.value.display,
              t.rangeOf oc.holder.start oc.holder.stop) := by
  intro found
  refine ⟨?_, fun w hw o built => keyed_nodes_eq_occurrences t hw built⟩
  -- the report is of the first tree's occurrences, which its placed visits make
  show (root.occurrences key).mapM (occurrenceJson t) = _
  rw [Node.occurrences_eq_placed key [] root, mapM_occurrenceJson]
  rfl

end Report

end StageTree
