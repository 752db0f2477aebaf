import StageTree.Proofs.Walk
import StageTree.Report
import StageTree.Settings

/-!
# The object around an offset

`Node.objectAt` descends from the root into the first child covering an offset and keeps the
nearest object passed. In every tree that object is one of the tree's objects and covers the
offset (`objectAt_covers`), so with no object covering the offset there is none.

Whether it is the innermost object covering the offset depends on the spans, since the descent
looks no further than the first covering child. It is when every child lies inside its parent
and siblings are apart (`Node.Nested`, `objectAt_innermost`). An alias's copy carries its
anchor's spans, which lie elsewhere in the text, and a recursive alias is a null spanning the
whole node it re-enters, so a tree with aliases need not be nested: there such a null, standing
first, hides the objects of the siblings after it.

`Report.scopeAround` answers from the pairs of that object as `Answers` says: nothing unless
exactly one pair has the key, and else a member for each key under that pair's value (none when
the value is no object) holding the display of the last pair of that key, or a failure when one
of those values holds an integer too long to write.

Main statement: `scopeAround_reads_innermost_object`.
-/

namespace StageTree.Tree

open Visit

namespace Span

/-- A span lies inside another when every offset it covers the other covers too: it covers
nothing, or it starts no earlier and stops no later. -/
def Inside (a b : Span) : Prop := a.stop ≤ a.start ∨ (b.start ≤ a.start ∧ a.stop ≤ b.stop)

/-- Two spans are apart when no offset lies in both. -/
def Apart (a b : Span) : Prop :=
  a.stop ≤ a.start ∨ b.stop ≤ b.start ∨ a.stop ≤ b.start ∨ b.stop ≤ a.start

instance (a b : Span) : Decidable (a.Inside b) := inferInstanceAs (Decidable (_ ∨ _))

instance (a b : Span) : Decidable (a.Apart b) := inferInstanceAs (Decidable (_ ∨ _))

theorem contains_iff {s : Span} {o : Nat} : s.contains o = true ↔ s.start ≤ o ∧ o < s.stop := by
  simp [contains]

theorem Inside.refl (a : Span) : a.Inside a := by
  unfold Inside
  omega

theorem Inside.trans {a b c : Span} (ab : a.Inside b) (bc : b.Inside c) : a.Inside c := by
  unfold Inside at *
  omega

theorem Inside.contains {a b : Span} (inside : a.Inside b) {o : Nat} (covers : a.contains o) :
    b.contains o := by
  rw [contains_iff] at *
  unfold Inside at inside
  omega

/-- An offset outside a span is outside every span inside it. -/
theorem Inside.not_contains {a b : Span} (inside : a.Inside b) {o : Nat}
    (outside : b.contains o = false) : a.contains o = false :=
  Bool.eq_false_iff.2 fun covers => absurd (inside.contains covers) (by simp [outside])

theorem Apart.not_contains {a b : Span} (apart : a.Apart b) {o : Nat} (covers : a.contains o) :
    b.contains o = false := by
  rw [contains_iff] at covers
  rw [Bool.eq_false_iff, ne_eq, contains_iff]
  unfold Apart at apart
  omega

end Span

namespace Visit

/-- A visit fits its children when each lies inside it and no two of them share an offset. -/
def Fits (v : Visit) : Prop :=
  (∀ c ∈ v.children, c.span.Inside v.span) ∧ v.children.Pairwise fun a b => a.span.Apart b.span

instance (v : Visit) : Decidable v.Fits := inferInstanceAs (Decidable (_ ∧ _))

@[simp]
theorem span_node (n : Node) : (node n).span = n.span := rfl

/-- Whether a visit is an object covering an offset. -/
def objectCovers (o : Nat) : Visit → Bool
  | node (.object s _) => s.contains o
  | _ => false

theorem contains_of_objectCovers {o : Nat} {w : Visit} (covers : w.objectCovers o = true) :
    w.span.contains o = true := by
  match w, covers with
  | node (.object s _), covers => exact covers

/-- A key has no children to fit. -/
@[simp]
theorem fits_key (k : Key) : (key k).Fits := by
  simp [Fits, children]

/-- A pair fits its key and value when both lie inside the pair and apart. -/
theorem fits_pair {k : Key} {v : Node} :
    (pair k v).Fits ↔
      k.span.Inside (pairSpan k v) ∧ v.span.Inside (pairSpan k v) ∧ k.span.Apart v.span := by
  simp [Fits, children, span, and_assoc]

/-- An object fits its pairs when each lies inside the object and no two share an offset. -/
theorem fits_object {s : Span} {pairs : List (Key × Node)} :
    (node (.object s pairs)).Fits ↔
      (∀ kv ∈ pairs, (pairSpan kv.1 kv.2).Inside s) ∧
        pairs.Pairwise fun a b => (pairSpan a.1 a.2).Apart (pairSpan b.1 b.2) := by
  simp only [Fits, children, List.forall_mem_map, List.pairwise_map, span, Node.span]

/-- An array fits its items when each lies inside the array and no two share an offset. -/
theorem fits_array {s : Span} {items : List Node} :
    (node (.array s items)).Fits ↔
      (∀ n ∈ items, n.span.Inside s) ∧ items.Pairwise fun a b => a.span.Apart b.span := by
  simp [Fits, children, span, Node.span, List.pairwise_map]

end Visit

/-- No object among the visits covers the offset. -/
def Uncovered (o : Nat) (vs : List Visit) : Prop := ∀ w ∈ vs, w.objectCovers o = false

@[simp]
theorem uncovered_nil {o : Nat} : Uncovered o [] := by
  simp [Uncovered]

@[simp]
theorem uncovered_cons {o : Nat} {w : Visit} {vs : List Visit} :
    Uncovered o (w :: vs) ↔ w.objectCovers o = false ∧ Uncovered o vs := by
  simp [Uncovered]

@[simp]
theorem uncovered_append {o : Nat} {vs ws : List Visit} :
    Uncovered o (vs ++ ws) ↔ Uncovered o vs ∧ Uncovered o ws := by
  simp [Uncovered, or_imp, forall_and]

/-- Visits lying inside a span that misses the offset hold no object covering it. -/
theorem uncovered_of_inside {o : Nat} {s : Span} {vs : List Visit}
    (inside : ∀ w ∈ vs, w.span.Inside s) (outside : s.contains o = false) : Uncovered o vs :=
  fun w mem => Bool.eq_false_iff.2 fun covers =>
    absurd ((inside w mem).contains (contains_of_objectCovers covers)) (by simp [outside])

namespace Node

/-- A tree is nested when every visit of its walk fits its children: children lie inside their
parents and siblings are apart. -/
def Nested (n : Node) : Prop := ∀ w ∈ nodePreorder n, w.Fits

instance (n : Node) : Decidable n.Nested := inferInstanceAs (Decidable (∀ w ∈ _, _))

theorem nested_object {s : Span} {pairs : List (Key × Node)} :
    (object s pairs).Nested ↔
      (node (.object s pairs)).Fits ∧ ∀ w ∈ pairsPreorder pairs, w.Fits := by
  simp [Nested, nodePreorder]

theorem nested_array {s : Span} {items : List Node} :
    (array s items).Nested ↔ (node (.array s items)).Fits ∧ ∀ w ∈ itemsPreorder items, w.Fits := by
  simp [Nested, nodePreorder]

end Node

theorem pairsPreorder_fits_cons {k : Key} {v : Node} {rest : List (Key × Node)} :
    (∀ w ∈ pairsPreorder ((k, v) :: rest), w.Fits) ↔
      (pair k v).Fits ∧ v.Nested ∧ ∀ w ∈ pairsPreorder rest, w.Fits := by
  simp only [pairsPreorder, List.forall_mem_cons, List.forall_mem_append, Node.Nested, fits_key,
    true_and, and_assoc]

theorem itemsPreorder_fits_cons {n : Node} {rest : List Node} :
    (∀ w ∈ itemsPreorder (n :: rest), w.Fits) ↔ n.Nested ∧ ∀ w ∈ itemsPreorder rest, w.Fits := by
  simp only [itemsPreorder, List.forall_mem_append, Node.Nested]

/-- The object of span `s` and pairs `pairs` is innermost at `o` among the visits `vs`: it is one
of them, it covers `o`, and no object below it does. -/
def Innermost (o : Nat) (vs : List Visit) (s : Span) (pairs : List (Key × Node)) : Prop :=
  node (.object s pairs) ∈ vs ∧ s.contains o ∧ Uncovered o (pairsPreorder pairs)

theorem Innermost.mono {o : Nat} {vs ws : List Visit} {s : Span} {pairs : List (Key × Node)}
    (inner : Innermost o vs s pairs) (sub : vs ⊆ ws) : Innermost o ws s pairs :=
  ⟨sub inner.1, inner.2⟩

theorem Innermost.not_uncovered {o : Nat} {vs : List Visit} {s : Span}
    {pairs : List (Key × Node)} (inner : Innermost o vs s pairs) : ¬Uncovered o vs :=
  fun bare => by simpa [objectCovers, inner.2.1] using bare _ inner.1

mutual

/-- In a nested tree every visit lies inside the root. -/
theorem nodePreorder_inside : ∀ n : Node, n.Nested → ∀ w ∈ nodePreorder n, w.span.Inside n.span
  | .object s pairs, nested => by
    obtain ⟨fits, below⟩ := Node.nested_object.1 nested
    intro w mem
    rcases List.mem_cons.1 mem with rfl | mem
    · exact Span.Inside.refl _
    · exact pairsPreorder_inside pairs s (fits_object.1 fits).1 below w mem
  | .array s items, nested => by
    obtain ⟨fits, below⟩ := Node.nested_array.1 nested
    intro w mem
    rcases List.mem_cons.1 mem with rfl | mem
    · exact Span.Inside.refl _
    · exact itemsPreorder_inside items s (fits_array.1 fits).1 below w mem
  | .string _ _, _ => by simp [nodePreorder, Span.Inside.refl]
  | .number _ _, _ => by simp [nodePreorder, Span.Inside.refl]
  | .boolean _ _, _ => by simp [nodePreorder, Span.Inside.refl]
  | .null _, _ => by simp [nodePreorder, Span.Inside.refl]

/-- The visits below pairs that fit their children lie inside any span holding the pairs. -/
theorem pairsPreorder_inside : ∀ (pairs : List (Key × Node)) (s : Span),
    (∀ kv ∈ pairs, (pairSpan kv.1 kv.2).Inside s) → (∀ w ∈ pairsPreorder pairs, w.Fits) →
    ∀ w ∈ pairsPreorder pairs, w.span.Inside s
  | [], _, _, _ => by simp [pairsPreorder]
  | (k, v) :: rest, s, inside, fits => by
    obtain ⟨pairFits, nested, restFits⟩ := pairsPreorder_fits_cons.1 fits
    obtain ⟨keyInside, valueInside, -⟩ := fits_pair.1 pairFits
    have here : (pairSpan k v).Inside s := inside (k, v) List.mem_cons_self
    intro w mem
    simp only [pairsPreorder, List.mem_cons, List.mem_append] at mem
    rcases mem with (rfl | rfl | mem) | mem
    · exact here
    · exact keyInside.trans here
    · exact ((nodePreorder_inside v nested w mem).trans valueInside).trans here
    · exact pairsPreorder_inside rest s (fun kv m => inside kv (List.mem_cons_of_mem _ m))
        restFits w mem

/-- The visits below items that fit their children lie inside any span holding the items. -/
theorem itemsPreorder_inside : ∀ (items : List Node) (s : Span),
    (∀ n ∈ items, n.span.Inside s) → (∀ w ∈ itemsPreorder items, w.Fits) →
    ∀ w ∈ itemsPreorder items, w.span.Inside s
  | [], _, _, _ => by simp [itemsPreorder]
  | n :: rest, s, inside, fits => by
    obtain ⟨nested, restFits⟩ := itemsPreorder_fits_cons.1 fits
    intro w mem
    rcases List.mem_append.1 mem with mem | mem
    · exact (nodePreorder_inside n nested w mem).trans (inside n List.mem_cons_self)
    · exact itemsPreorder_inside rest s (fun m mem => inside m (List.mem_cons_of_mem _ mem))
        restFits w mem

end

section Descent

variable {o : Nat}

/-- A nested tree missing the offset holds no object covering it. -/
theorem Node.uncovered_of_not_contains {n : Node} (nested : n.Nested)
    (outside : n.span.contains o = false) : Uncovered o (nodePreorder n) :=
  uncovered_of_inside (nodePreorder_inside n nested) outside

/-- Below pairs that fit their children and each miss the offset, no object covers it. -/
theorem uncovered_pairs : ∀ {pairs : List (Key × Node)}, (∀ w ∈ pairsPreorder pairs, w.Fits) →
    (∀ kv ∈ pairs, (pairSpan kv.1 kv.2).contains o = false) → Uncovered o (pairsPreorder pairs)
  | [], _, _ => by simp [pairsPreorder]
  | (k, v) :: rest, fits, outside => by
    obtain ⟨pairFits, nested, restFits⟩ := pairsPreorder_fits_cons.1 fits
    have value : Uncovered o (nodePreorder v) :=
      Node.uncovered_of_not_contains nested
        ((fits_pair.1 pairFits).2.1.not_contains (outside (k, v) List.mem_cons_self))
    have later : Uncovered o (pairsPreorder rest) :=
      uncovered_pairs restFits fun kv mem => outside kv (List.mem_cons_of_mem _ mem)
    simp [pairsPreorder, objectCovers, value, later]

/-- Below nested items that each miss the offset, no object covers it. -/
theorem uncovered_items : ∀ {items : List Node}, (∀ w ∈ itemsPreorder items, w.Fits) →
    (∀ n ∈ items, n.span.contains o = false) → Uncovered o (itemsPreorder items)
  | [], _, _ => by simp [itemsPreorder]
  | n :: rest, fits, outside => by
    obtain ⟨nested, restFits⟩ := itemsPreorder_fits_cons.1 fits
    have item := Node.uncovered_of_not_contains nested (outside n List.mem_cons_self)
    have later : Uncovered o (itemsPreorder rest) :=
      uncovered_items restFits fun m mem => outside m (List.mem_cons_of_mem _ mem)
    simp [itemsPreorder, item, later]

mutual

/-- In any tree, the descent from a node covering the offset ends with the object it was given
or with one of the node's objects covering the offset. -/
theorem objectBelow_found : ∀ (n : Node) (outer : Option (List (Key × Node)))
    (p : List (Key × Node)), n.span.contains o → n.objectBelow o outer = some p →
    outer = some p ∨ ∃ s, node (.object s p) ∈ nodePreorder n ∧ s.contains o
  | .object s pairs, _, p, covers, found => by
    simp only [Node.objectBelow] at found
    rcases pairsBelow_found pairs pairs p found with rfl | ⟨s', mem, covers'⟩
    · exact .inr ⟨s, List.mem_cons_self, covers⟩
    · exact .inr ⟨s', List.mem_cons_of_mem _ mem, covers'⟩
  | .array _ items, outer, p, _, found => by
    simp only [Node.objectBelow] at found
    rcases itemsBelow_found outer items p found with same | ⟨s', mem, covers'⟩
    · exact .inl same
    · exact .inr ⟨s', List.mem_cons_of_mem _ mem, covers'⟩
  | .string _ _, _, _, _, found => .inl found
  | .number _ _, _, _, _, found => .inl found
  | .boolean _ _, _, _, _, found => .inl found
  | .null _, _, _, _, found => .inl found

/-- The step into pairs ends with the object holding them or with one of their objects covering
the offset. -/
theorem pairsBelow_found : ∀ (here pairs p : List (Key × Node)),
    Node.pairsBelow o here pairs = some p →
    p = here ∨ ∃ s, node (.object s p) ∈ pairsPreorder pairs ∧ s.contains o
  | _, [], _, found => .inl (Option.some.inj found).symm
  | here, (k, v) :: rest, p, found => by
    simp only [Node.pairsBelow] at found
    split at found
    · split at found
      · exact .inl (Option.some.inj found).symm
      · split at found
        · rcases objectBelow_found v (some here) p ‹_› found with same | ⟨s, mem, covers⟩
          · exact .inl (Option.some.inj same).symm
          · exact .inr ⟨s, by simp [pairsPreorder, mem], covers⟩
        · exact .inl (Option.some.inj found).symm
    · rcases pairsBelow_found here rest p found with same | ⟨s, mem, covers⟩
      · exact .inl same
      · exact .inr ⟨s, by simp [pairsPreorder, mem], covers⟩

/-- The step into items ends with the object it was given or with one of their objects covering
the offset. -/
theorem itemsBelow_found : ∀ (outer : Option (List (Key × Node))) (items : List Node)
    (p : List (Key × Node)), Node.itemsBelow o outer items = some p →
    outer = some p ∨ ∃ s, node (.object s p) ∈ itemsPreorder items ∧ s.contains o
  | _, [], _, found => .inl found
  | outer, n :: rest, p, found => by
    simp only [Node.itemsBelow] at found
    split at found
    · rcases objectBelow_found n outer p ‹_› found with same | ⟨s, mem, covers⟩
      · exact .inl same
      · exact .inr ⟨s, List.mem_append_left _ mem, covers⟩
    · rcases itemsBelow_found outer rest p found with same | ⟨s, mem, covers⟩
      · exact .inl same
      · exact .inr ⟨s, List.mem_append_right _ mem, covers⟩

end

mutual

/-- In a nested tree, the descent from a node covering the offset ends with the innermost of the
node's objects covering it, or, when none does, with the object it was given. -/
theorem objectBelow_innermost : ∀ (n : Node) (outer : Option (List (Key × Node))), n.Nested →
    n.span.contains o →
    (n.objectBelow o outer = outer ∧ Uncovered o (nodePreorder n)) ∨
      ∃ s p, n.objectBelow o outer = some p ∧ Innermost o (nodePreorder n) s p
  | .object s pairs, _, nested, covers => by
    obtain ⟨fits, below⟩ := Node.nested_object.1 nested
    simp only [Node.objectBelow]
    rcases pairsBelow_innermost pairs pairs below (fits_object.1 fits).2 with
      ⟨same, bare⟩ | ⟨s', p, found, inner⟩
    · -- no object below covers the offset, so this one is the innermost
      exact .inr ⟨s, pairs, same, List.mem_cons_self, covers, bare⟩
    · exact .inr ⟨s', p, found, inner.mono (List.subset_cons_self _ _)⟩
  | .array _ items, outer, nested, _ => by
    obtain ⟨fits, below⟩ := Node.nested_array.1 nested
    simp only [Node.objectBelow]
    rcases itemsBelow_innermost outer items below (fits_array.1 fits).2 with
      ⟨same, bare⟩ | ⟨s', p, found, inner⟩
    · exact .inl ⟨same, by simp [nodePreorder, objectCovers, bare]⟩
    · exact .inr ⟨s', p, found, inner.mono (List.subset_cons_self _ _)⟩
  | .string _ _, _, _, _ => .inl ⟨rfl, by simp [nodePreorder, objectCovers]⟩
  | .number _ _, _, _, _ => .inl ⟨rfl, by simp [nodePreorder, objectCovers]⟩
  | .boolean _ _, _, _, _ => .inl ⟨rfl, by simp [nodePreorder, objectCovers]⟩
  | .null _, _, _, _ => .inl ⟨rfl, by simp [nodePreorder, objectCovers]⟩

/-- The step into nested pairs, no two sharing an offset, ends with the innermost of their
objects covering the offset, or, when none does, with the object holding them. -/
theorem pairsBelow_innermost : ∀ (here pairs : List (Key × Node)),
    (∀ w ∈ pairsPreorder pairs, w.Fits) →
    pairs.Pairwise (fun a b => (pairSpan a.1 a.2).Apart (pairSpan b.1 b.2)) →
    (Node.pairsBelow o here pairs = some here ∧ Uncovered o (pairsPreorder pairs)) ∨
      ∃ s p, Node.pairsBelow o here pairs = some p ∧ Innermost o (pairsPreorder pairs) s p
  | _, [], _, _ => .inl ⟨rfl, by simp [pairsPreorder]⟩
  | here, (k, v) :: rest, fits, apart => by
    obtain ⟨pairFits, nested, restFits⟩ := pairsPreorder_fits_cons.1 fits
    obtain ⟨-, valueInside, keyApart⟩ := fits_pair.1 pairFits
    obtain ⟨restApart, restPairwise⟩ := List.pairwise_cons.1 apart
    -- once a pair covers the offset, the pairs after it, apart from it, miss it
    have after (covers : (pairSpan k v).contains o) : Uncovered o (pairsPreorder rest) :=
      uncovered_pairs restFits fun kv mem => (restApart kv mem).not_contains covers
    have within (w : Visit) (mem : w ∈ nodePreorder v) : w ∈ pairsPreorder ((k, v) :: rest) := by
      simp [pairsPreorder, mem]
    simp only [Node.pairsBelow]
    by_cases onPair : (pairSpan k v).contains o
    · rw [if_pos onPair]
      by_cases onKey : k.span.contains o
      · -- on the key: the value, apart from it, misses the offset
        have value := Node.uncovered_of_not_contains nested (keyApart.not_contains onKey)
        rw [if_pos onKey]
        exact .inl ⟨rfl, by simp [pairsPreorder, objectCovers, value, after onPair]⟩
      · rw [if_neg onKey]
        by_cases onValue : v.span.contains o
        · rw [if_pos onValue]
          rcases objectBelow_innermost v (some here) nested onValue with
            ⟨same, bare⟩ | ⟨s, p, found, inner⟩
          · exact .inl ⟨same, by simp [pairsPreorder, objectCovers, bare, after onPair]⟩
          · exact .inr ⟨s, p, found, inner.mono within⟩
        · have value := Node.uncovered_of_not_contains nested (by simpa using onValue)
          rw [if_neg onValue]
          exact .inl ⟨rfl, by simp [pairsPreorder, objectCovers, value, after onPair]⟩
    · have value := Node.uncovered_of_not_contains nested
        (valueInside.not_contains (by simpa using onPair))
      rw [if_neg onPair]
      rcases pairsBelow_innermost here rest restFits restPairwise with
        ⟨same, bare⟩ | ⟨s, p, found, inner⟩
      · exact .inl ⟨same, by simp [pairsPreorder, objectCovers, value, bare]⟩
      · exact .inr ⟨s, p, found, inner.mono fun w mem => by simp [pairsPreorder, mem]⟩

/-- The step into nested items, no two sharing an offset, ends with the innermost of their
objects covering the offset, or, when none does, with the object it was given. -/
theorem itemsBelow_innermost : ∀ (outer : Option (List (Key × Node))) (items : List Node),
    (∀ w ∈ itemsPreorder items, w.Fits) → items.Pairwise (fun a b => a.span.Apart b.span) →
    (Node.itemsBelow o outer items = outer ∧ Uncovered o (itemsPreorder items)) ∨
      ∃ s p, Node.itemsBelow o outer items = some p ∧ Innermost o (itemsPreorder items) s p
  | _, [], _, _ => .inl ⟨rfl, by simp [itemsPreorder]⟩
  | outer, n :: rest, fits, apart => by
    obtain ⟨nested, restFits⟩ := itemsPreorder_fits_cons.1 fits
    obtain ⟨restApart, restPairwise⟩ := List.pairwise_cons.1 apart
    simp only [Node.itemsBelow]
    by_cases onItem : n.span.contains o
    · -- the items after one covering the offset, apart from it, miss it
      have after : Uncovered o (itemsPreorder rest) :=
        uncovered_items restFits fun m mem => (restApart m mem).not_contains onItem
      rw [if_pos onItem]
      rcases objectBelow_innermost n outer nested onItem with ⟨same, bare⟩ | ⟨s, p, found, inner⟩
      · exact .inl ⟨same, by simp [itemsPreorder, bare, after]⟩
      · exact .inr ⟨s, p, found, inner.mono (List.subset_append_left _ _)⟩
    · have item := Node.uncovered_of_not_contains nested (by simpa using onItem)
      rw [if_neg onItem]
      rcases itemsBelow_innermost outer rest restFits restPairwise with
        ⟨same, bare⟩ | ⟨s, p, found, inner⟩
      · exact .inl ⟨same, by simp [itemsPreorder, item, bare]⟩
      · exact .inr ⟨s, p, found, inner.mono (List.subset_append_right _ _)⟩

end

/-- The object read around an offset is one of the tree's objects and covers the offset. -/
theorem objectAt_covers {root : Node} {pairs : List (Key × Node)}
    (found : root.objectAt o = some pairs) :
    ∃ s, node (.object s pairs) ∈ nodePreorder root ∧ s.contains o := by
  unfold Node.objectAt at found
  split at found
  · rcases objectBelow_found root none pairs ‹_› found with nothing | inside
    · cases nothing
    · exact inside
  · cases found

/-- With no object of the tree covering the offset, there is no object around it. -/
theorem objectAt_of_uncovered {root : Node} (bare : Uncovered o (nodePreorder root)) :
    root.objectAt o = none := by
  cases found : root.objectAt o with
  | none => rfl
  | some pairs =>
    obtain ⟨s, mem, covers⟩ := objectAt_covers found
    simpa [objectCovers, covers] using bare _ mem

/-- In a nested tree the object read around an offset is the innermost object covering it, and
there is one whenever some object of the tree covers the offset. -/
theorem objectAt_innermost {root : Node} (nested : root.Nested) :
    (root.objectAt o = none ↔ Uncovered o (nodePreorder root)) ∧
      ∀ pairs, root.objectAt o = some pairs → ∃ s, Innermost o (nodePreorder root) s pairs := by
  unfold Node.objectAt
  by_cases covers : root.span.contains o
  · rw [if_pos covers]
    rcases objectBelow_innermost root none nested covers with ⟨same, bare⟩ | ⟨s, p, found, inner⟩
    · rw [same]
      exact ⟨iff_of_true rfl bare, fun _ nothing => by cases nothing⟩
    · rw [found]
      refine ⟨iff_of_false (by simp) inner.not_uncovered, fun pairs same => ⟨s, ?_⟩⟩
      cases same
      exact inner
  · rw [if_neg covers]
    exact ⟨iff_of_true rfl (Node.uncovered_of_not_contains nested (by simpa using covers)),
      fun _ nothing => by cases nothing⟩

end Descent

/-! ### The members read under a key -/

namespace Node

/-- The pairs under a value: an object's pairs, and none for any other node. -/
def members : Node → List (Key × Node)
  | object _ pairs => pairs
  | _ => []

end Node

end StageTree.Tree

namespace StageTree.Report

open StageTree.Tree

theorem lookup_cons_ite {β : Type} (k' key : Text.Str) (v' : β) (rest : List (Text.Str × β)) :
    ((k', v') :: rest).lookup key = if key = k' then some v' else rest.lookup key := by
  rw [List.lookup_cons]
  by_cases hit : key = k'
  · simp [hit]
  · simp [hit, beq_false_of_ne hit]

/-- Giving every entry of a name a new text reads back that text under the name, if it is there,
and leaves every other name's text as it was. -/
theorem lookup_map_set (acc : List (Text.Str × Text.Str)) (k v key : Text.Str) :
    (acc.map fun (k', v') => if k' == k then (k', v) else (k', v')).lookup key =
      if key = k ∧ k ∈ acc.map Prod.fst then some v else acc.lookup key := by
  induction acc with
  | nil => simp
  | cons kv rest ih =>
    obtain ⟨k', v'⟩ := kv
    rw [List.map_cons]
    dsimp only
    by_cases same : k' = k
    · -- the entry is the name's: it reads the new text
      subst same
      rw [if_pos (beq_self_eq_true k'), lookup_cons_ite, ih, lookup_cons_ite]
      by_cases hit : key = k' <;> simp [hit]
    · rw [if_neg (by simpa using same), lookup_cons_ite, ih, lookup_cons_ite]
      simp only [List.map_cons, List.mem_cons]
      by_cases hit : key = k'
      · simp [hit, same]
      · have other : k ≠ k' := Ne.symm same
        simp only [other, false_or, hit, if_false]

/-- Setting a name's text reads back that text under the name and leaves every other name's
text as it was. -/
theorem lookup_setDisplay (acc : List (Text.Str × Text.Str)) (k v key : Text.Str) :
    (setDisplay acc k v).lookup key = if key = k then some v else acc.lookup key := by
  unfold setDisplay
  have present : acc.any (·.1 == k) = true ↔ k ∈ acc.map Prod.fst := by simp
  split
  · rename_i here
    rw [lookup_map_set]
    by_cases hit : key = k <;> simp [hit, present.1 here]
  · rename_i absent
    rw [List.lookup_append, lookup_cons_ite]
    by_cases hit : key = k
    · -- the name was not there before, so it reads only the new text
      subst hit
      have before : acc.lookup key = none := by
        rw [List.lookup_eq_none_iff]
        intro p mem
        have other : p.1 ≠ key := fun same => absent (by simpa using ⟨p.2, same ▸ mem⟩)
        exact bne_iff_ne.2 (Ne.symm other)
      simp [before]
    · simp [hit]

/-- Setting a name keeps the names apart: a name already there keeps its place, a new one goes
last. -/
theorem names_setDisplay (acc : List (Text.Str × Text.Str)) (k v : Text.Str) :
    (setDisplay acc k v).map Prod.fst =
      if k ∈ acc.map Prod.fst then acc.map Prod.fst else acc.map Prod.fst ++ [k] := by
  unfold setDisplay
  have present : acc.any (·.1 == k) = true ↔ k ∈ acc.map Prod.fst := by simp
  by_cases here : k ∈ acc.map Prod.fst
  · rw [if_pos (present.2 here), if_pos here, List.map_map]
    congr 1
    funext kv
    by_cases same : kv.1 = k <;> simp [same]
  · rw [if_neg (mt present.1 here), if_neg here, List.map_append]
    rfl

theorem nodup_setDisplay {acc : List (Text.Str × Text.Str)} (apart : (acc.map Prod.fst).Nodup)
    (k v : Text.Str) : ((setDisplay acc k v).map Prod.fst).Nodup := by
  rw [names_setDisplay]
  split
  · exact apart
  · rename_i fresh
    refine List.nodup_append.2 ⟨apart, by simp, ?_⟩
    intro a mem b single
    rw [List.mem_singleton] at single
    subst single
    exact fun same => fresh (same ▸ mem)

/-- Gathering the display texts of members in order. -/
def gather (acc : List (Text.Str × Text.Str)) (members : List (Key × Node)) :
    List (Text.Str × Text.Str) :=
  members.foldl (fun acc m => setDisplay acc m.1.text m.2.value.display) acc

/-- After gathering, a name holds the display of the last member of that name, or what it held
before when no member has it. -/
theorem lookup_gather (members : List (Key × Node)) (acc : List (Text.Str × Text.Str))
    (key : Text.Str) :
    (gather acc members).lookup key =
      ((members.reverse.find? (·.1.text == key)).map (·.2.value.display)).or (acc.lookup key) := by
  induction members generalizing acc with
  | nil => simp [gather]
  | cons m rest ih =>
    have step : gather acc (m :: rest) = gather (setDisplay acc m.1.text m.2.value.display) rest :=
      rfl
    rw [step, ih, lookup_setDisplay, List.reverse_cons, List.find?_append, Option.map_or,
      Option.or_assoc]
    congr 1
    by_cases hit : key = m.1.text
    · simp [hit]
    · simp [hit, Ne.symm hit]

theorem nodup_gather (members : List (Key × Node)) {acc : List (Text.Str × Text.Str)}
    (apart : (acc.map Prod.fst).Nodup) : ((gather acc members).map Prod.fst).Nodup := by
  induction members generalizing acc with
  | nil => exact apart
  | cons m rest ih => exact ih (nodup_setDisplay apart _ _)

/-- Gathering display texts one member at a time, failing on a value that cannot be written,
fails exactly when some member's value cannot be written, and else gathers them all. -/
theorem foldlM_of_steps {f : List (Text.Str × Text.Str) → Key × Node →
      Except Raised (List (Text.Str × Text.Str))}
    (step : ∀ acc m, f acc m =
      if m.2.value.writable then .ok (setDisplay acc m.1.text m.2.value.display)
      else .error .intTooLong)
    (members : List (Key × Node)) (acc : List (Text.Str × Text.Str)) :
    members.foldlM f acc =
      if members.all (·.2.value.writable) then .ok (gather acc members) else .error .intTooLong := by
  induction members generalizing acc with
  | nil => rfl
  | cons m rest ih =>
    rw [List.foldlM_cons, step]
    by_cases writable : m.2.value.writable = true
    · simp only [writable, if_true, List.all_cons, Bool.true_and]
      exact ih _
    · simp only [writable, List.all_cons, Bool.false_and]
      rfl

end StageTree.Report

namespace StageTree.Tree

open Visit

/-- The display texts `acc` read the members: each name once, holding the display of the last
member of that name. -/
def Displays (members : List (Key × Node)) (acc : List (Text.Str × Text.Str)) : Prop :=
  (acc.map Prod.fst).Nodup ∧
    ∀ key, acc.lookup key = (members.reverse.find? (·.1.text == key)).map (·.2.value.display)

theorem displays_gather (members : List (Key × Node)) : Displays members (Report.gather [] members) :=
  ⟨Report.nodup_gather members List.nodup_nil, fun key => by simp [Report.lookup_gather]⟩

/-- What the lookup of the members under `name` answers from the pairs `pairs` of the object
around the offset: nothing unless exactly one pair is keyed `name`; else the display texts of the
members under that pair's value, or a failure when one of them cannot be written. -/
def Answers (pairs : List (Key × Node)) (name : Text.Str) :
    Except Raised (Option (List (Text.Str × Text.Str))) → Prop
  | .ok none => (pairs.filter (·.1.text == name)).length ≠ 1
  | .ok (some acc) => ∃ k v, pairs.filter (·.1.text == name) = [(k, v)] ∧
      (∀ m ∈ v.members, m.2.value.writable = true) ∧ Displays v.members acc
  | .error e => e = .intTooLong ∧ ∃ k v, pairs.filter (·.1.text == name) = [(k, v)] ∧
      ∃ m ∈ v.members, m.2.value.writable = false

section Answer

variable {root : Node} {o : Nat} {name : Text.Str} {pairs : List (Key × Node)}

theorem scopeAt_of_single {k : Key} {v : Node} (found : root.objectAt o = some pairs)
    (single : pairs.filter (·.1.text == name) = [(k, v)]) :
    root.scopeAt o name = some v.members := by
  simp only [Node.scopeAt, found, Option.bind_eq_bind, Option.bind_some, single]
  cases v <;> rfl

theorem scopeAt_of_not_single (found : root.objectAt o = some pairs)
    (several : (pairs.filter (·.1.text == name)).length ≠ 1) : root.scopeAt o name = none := by
  simp only [Node.scopeAt, found, Option.bind_eq_bind, Option.bind_some]
  split
  · rename_i keyed
    simp [keyed] at several
  · rename_i keyed
    simp [keyed] at several
  · rfl

theorem scopeAround_of_none (bare : root.objectAt o = none) :
    Report.scopeAround root o name = .ok none := by
  simp [Report.scopeAround, Node.scopeAt, bare]

/-- The answer read from the object around the offset is as `Answers` says. -/
theorem scopeAround_answers (found : root.objectAt o = some pairs) :
    Answers pairs name (Report.scopeAround root o name) := by
  by_cases single : (pairs.filter (·.1.text == name)).length = 1
  · obtain ⟨⟨k, v⟩, keyed⟩ := List.length_eq_one_iff.1 single
    simp only [Report.scopeAround, scopeAt_of_single found keyed]
    rw [Report.foldlM_of_steps]
    · by_cases writable : v.members.all (·.2.value.writable) = true
      · rw [if_pos writable]
        exact ⟨k, v, keyed, by simpa using writable, displays_gather v.members⟩
      · rw [if_neg writable]
        exact ⟨rfl, k, v, keyed, by simpa using writable⟩
    · intro acc m
      simp only [Report.displayOf]
      split <;> rfl
  · simp only [Report.scopeAround, scopeAt_of_not_single found single]
    exact single

end Answer

/-- Reading the members under `name` in the object around offset `o` of a tree. With no object of
the tree covering `o` there is no object around it, and with none around it no answer. An object
around it is always one of the tree's objects covering `o`; in a nested tree it is the innermost
one, and there is one whenever an object covers `o`. From that object the answer is as `Answers`
says: none unless exactly one of its pairs is keyed `name`, and else each name under that pair's
value holds the display of its last member, or the lookup fails on a value too long to write. -/
theorem scopeAround_reads_innermost_object (root : Node) (o : Nat) (name : Text.Str) :
    (Uncovered o (nodePreorder root) → root.objectAt o = none) ∧
    (root.objectAt o = none → Report.scopeAround root o name = .ok none) ∧
    (∀ pairs, root.objectAt o = some pairs →
      (∃ s, node (.object s pairs) ∈ nodePreorder root ∧ s.contains o) ∧
      (root.Nested → ∃ s, Innermost o (nodePreorder root) s pairs) ∧
      Answers pairs name (Report.scopeAround root o name)) ∧
    (root.Nested → (root.objectAt o = none ↔ Uncovered o (nodePreorder root))) :=
  ⟨objectAt_of_uncovered, scopeAround_of_none,
    fun _ found => ⟨objectAt_covers found, fun nested => (objectAt_innermost nested).2 _ found,
      scopeAround_answers found⟩,
    fun nested => (objectAt_innermost nested).1⟩

/-- Reading `a: 1\nc: {d: 1}\n` gives a document whose first tree is nested, and the object around
the key `d` is the flow object, innermost there, whose one pair is keyed `d`. -/
theorem flowUnderBlock_reads_flow_object :
    let d := (Document.read "a: 1\nc: {d: 1}\n" Settings.defaultMaxAstNodes).toOption.getD default
    let root := d.first.getD default
    Document.read "a: 1\nc: {d: 1}\n" Settings.defaultMaxAstNodes = .ok d ∧ d.first = some root ∧
      root.Nested ∧ ∃ pairs, root.objectAt 9 = some pairs ∧
        pairs.map (·.1.text) = [Text.Str.ofString "d"] ∧ ∃ s, Innermost 9 (nodePreorder root) s pairs := by
  intro d root
  have nested : root.Nested := by decide +kernel
  have found : root.objectAt 9 = some ((root.objectAt 9).getD []) :=
    (Option.getD_of_ne_none (by decide +kernel) []).symm
  refine ⟨read_eq_ok_getD (by decide +kernel),
    (Option.getD_of_ne_none (by decide +kernel) default).symm, nested, _, found, by decide +kernel, ?_⟩
  exact ((scopeAround_reads_innermost_object root 9 (Text.Str.ofString "d")).2.2.1 _ found).2.1 nested

end StageTree.Tree
