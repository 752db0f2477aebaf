import Mathlib
import StageTree.Proofs.Addresses
import StageTree.Proofs.Scope

/-!
# The innermost node covering an offset

`Node.nodeAt` descends from the root of a tree into the first child covering an offset, while
there is one. When the spans of the tree nest (`Node.Nested`: every child lies inside its parent
and no two siblings share an offset), at most one child of a visit covers an offset, and every
visit covering it lies inside all the visits above it. So the descent follows the one path of
visits covering the offset down to its end.

Main statement: `nodeAt_innermost`. In a nested tree there is no node at an offset exactly when
the root does not cover it, and otherwise the node found covers the offset and every visit of the
tree covering it lies on the way down to it: its address is a prefix of the node's.
-/

namespace StageTree.Tree

namespace Visit

/-- Every visit of a subtree fits its children. -/
def Nests (v : Visit) : Prop := ∀ w ∈ v.preorder, w.Fits

theorem Nests.fits {v : Visit} (nests : v.Nests) : v.Fits :=
  nests v (by rw [preorder_eq_cons]; exact List.mem_cons_self)

/-- A child of a subtree whose visits fit their children is such a subtree too. -/
theorem Nests.child {v c : Visit} (nests : v.Nests) (mem : c ∈ v.children) : c.Nests := by
  intro w below
  apply nests w
  rw [preorder_eq_cons]
  exact List.mem_cons_of_mem _ (List.mem_flatMap.2 ⟨c, mem, below⟩)

/-- In a nested subtree, the visit at any address lies inside the subtree's root. -/
theorem Nests.inside_of_subtreeAt {v c : Visit} {p : List Nat} (nests : v.Nests)
    (at_ : v.subtreeAt p = some c) : c.span.Inside v.span := by
  induction p generalizing v with
  | nil =>
    rw [subtreeAt_nil, Option.some.injEq] at at_
    subst at_
    exact Span.Inside.refl _
  | cons i q ih =>
    rw [subtreeAt_cons, Option.bind_eq_some_iff] at at_
    obtain ⟨d, child, below⟩ := at_
    have mem : d ∈ v.children := List.mem_of_getElem? child
    exact (ih (nests.child mem) below).trans (nests.fits.1 d mem)

/-- Two children of a visit that fits its children, both covering one offset, are the same. -/
theorem Fits.index_eq {v c d : Visit} {i j o : Nat} (fits : v.Fits)
    (atI : v.children[i]? = some c) (atJ : v.children[j]? = some d)
    (coversC : c.span.contains o) (coversD : d.span.contains o) : i = j := by
  by_contra differ
  obtain ⟨hi, rfl⟩ := List.getElem?_eq_some_iff.1 atI
  obtain ⟨hj, rfl⟩ := List.getElem?_eq_some_iff.1 atJ
  -- siblings at different places are apart, so they do not both cover the offset
  have apart := List.pairwise_iff_getElem.1 fits.2
  rcases Nat.lt_or_gt_of_ne differ with lt | gt
  · have := (apart i j hi hj lt).not_contains coversC
    simp [coversD] at this
  · have := (apart j i hj hi gt).not_contains coversD
    simp [coversC] at this

/-- The descent from a visit steps into the first child covering the offset, or stops. -/
theorem descend_eq (o : Nat) (v : Visit) :
    v.descend o = match v.children.find? (·.span.contains o) with
      | some c => c.descend o
      | none => v := by
  rw [descend]
  split <;> rename_i found <;> rw [found]

/-- In a nested subtree covering an offset, the descent ends at the visit of some address that
covers the offset, and every address whose visit covers the offset is a prefix of it. -/
theorem descend_innermost {o : Nat} : ∀ v : Visit, v.Nests → v.span.contains o = true →
    ∃ p, v.subtreeAt p = some (v.descend o) ∧ (v.descend o).span.contains o ∧
      ∀ q c, v.subtreeAt q = some c → c.span.contains o → q <+: p := by
  intro v
  induction v using descend.induct o with
  | case1 v c found ih =>
    intro nests covers
    -- the first child covering the offset, at index `i`
    obtain ⟨coversC, i, hi, atI, -⟩ := List.find?_eq_some_iff_getElem.1 found
    have mem : c ∈ v.children := List.mem_of_find?_eq_some found
    obtain ⟨p, atP, coversEnd, below⟩ := ih (nests.child mem) coversC
    rw [descend_eq, found]
    refine ⟨i :: p, ?_, coversEnd, fun q d atQ coversD => ?_⟩
    · rw [subtreeAt_cons, List.getElem?_eq_getElem hi, atI]
      exact atP
    · cases q with
      | nil => exact List.nil_prefix
      | cons j q' =>
        rw [subtreeAt_cons, Option.bind_eq_some_iff] at atQ
        obtain ⟨e, atJ, inside⟩ := atQ
        -- the child on the way to `d` covers the offset too, so it is the child at `i`
        have coversE : e.span.contains o :=
          ((nests.child (List.mem_of_getElem? atJ)).inside_of_subtreeAt inside).contains coversD
        have same : i = j := nests.fits.index_eq (by rw [List.getElem?_eq_getElem hi, atI])
          atJ coversC coversE
        subst same
        rw [List.getElem?_eq_getElem hi, Option.some.injEq, atI] at atJ
        subst atJ
        exact (List.prefix_cons_inj i).2 (below q' d inside coversD)
  | case2 v none_ =>
    intro nests covers
    rw [descend_eq, none_]
    refine ⟨[], subtreeAt_nil v, covers, fun q d atQ coversD => ?_⟩
    cases q with
    | nil => exact List.nil_prefix
    | cons j q' =>
      -- a child on the way down would cover the offset, and none does
      rw [subtreeAt_cons, Option.bind_eq_some_iff] at atQ
      obtain ⟨e, atJ, inside⟩ := atQ
      have mem : e ∈ v.children := List.mem_of_getElem? atJ
      have coversE : e.span.contains o :=
        ((nests.child mem).inside_of_subtreeAt inside).contains coversD
      exact absurd coversE (by simpa using List.find?_eq_none.1 none_ e mem)

end Visit

/-- In a nested tree, there is no node at an offset exactly when the root does not cover it;
otherwise the node found is at some address of the tree, covers the offset, and every visit of
the tree covering the offset is on the way down to it: its address is a prefix of the node's. -/
theorem nodeAt_innermost {root : Node} (nested : root.Nested) (o : Nat) :
    (root.nodeAt o = none ↔ root.span.contains o = false) ∧
    ∀ w, root.nodeAt o = some w → ∃ p, (Visit.node root).subtreeAt p = some w ∧
      w.span.contains o ∧ ∀ q c, (Visit.node root).subtreeAt q = some c → c.span.contains o → q <+: p := by
  refine ⟨by by_cases covers : root.span.contains o <;> simp [Node.nodeAt, covers], fun w found => ?_⟩
  by_cases covers : root.span.contains o
  · rw [Node.nodeAt, if_pos covers, Option.some.injEq] at found
    subst found
    exact Visit.descend_innermost (Visit.node root) nested covers
  · simp [Node.nodeAt, covers] at found

end StageTree.Tree
