import Mathlib.Data.List.Forall2
import Mathlib.Data.List.Perm.Subperm

/-!
# Pre-order lists and their blocks

A tree listed in pre-order puts every node's subtree right after the node, as one block of the
list. A list is *block-closed* for a block function when every entry is followed, from its own
place on, by its block. The descendants of an entry are then told by position: they are the
entries that follow it within the length of its block.

Counting the entries that pass a test is how positions move from one list to a filtered one
(a node's place among the shown nodes is the count of shown nodes before it). The main
statement here, `BlocksClosed.countP_take_succ_le`, bounds that count inside a block.
-/

namespace StageTree

variable {α : Type}

/-- Whether every entry of a list is followed, from its own place on, by its block. -/
def BlocksClosed (block : α → List α) (l : List α) : Prop :=
  ∀ i (h : i < l.length), block l[i] <+: l.drop i

namespace BlocksClosed

variable {block : α → List α}

/-- The empty list is block-closed. -/
theorem nil : BlocksClosed block [] := fun _ h => absurd h (Nat.not_lt_zero _)

/-- Block-closed lists stay so when put one after the other. -/
theorem append {l m : List α} (left : BlocksClosed block l) (right : BlocksClosed block m) :
    BlocksClosed block (l ++ m) := by
  intro i hi
  by_cases inLeft : i < l.length
  · rw [List.getElem_append_left inLeft, List.drop_append_of_le_length (by omega)]
    exact (left i inLeft).trans (List.prefix_append _ _)
  · have hm : i - l.length < m.length := by simp only [List.length_append] at hi; omega
    have dropped : (l ++ m).drop i = m.drop (i - l.length) := by
      rw [List.drop_append, List.drop_eq_nil_of_le (by omega), List.nil_append]
    rw [List.getElem_append_right (by omega), dropped]
    exact right _ hm

/-- An entry whose block starts what follows from it, followed by a block-closed list, makes a
block-closed list. -/
theorem cons {p : α} {l : List α} (start : block p <+: p :: l) (rest : BlocksClosed block l) :
    BlocksClosed block (p :: l) := by
  intro i hi
  cases i with
  | zero => rw [List.getElem_cons_zero]; exact start
  | succ j =>
    rw [List.getElem_cons_succ, List.drop_succ_cons]
    exact rest j (by simp only [List.length_cons] at hi; omega)

/-- Up to an entry at `j` inside the block of the entry at `i`, no more entries pass a test than
those before `i` and those of the block. -/
theorem countP_take_succ_le {l : List α} (closed : BlocksClosed block l) (test : α → Bool)
    {i j : Nat} (hi : i < l.length) (hij : i ≤ j) (inside : j < i + (block l[i]).length) :
    (l.take (j + 1)).countP test ≤ (l.take i).countP test + (block l[i]).countP test := by
  obtain ⟨after, split⟩ := closed i hi
  have within : j + 1 - i ≤ (block l[i]).length := by omega
  have front : l.take (j + 1) = l.take i ++ (block l[i]).take (j + 1 - i) := by
    have whole := List.take_append_drop i l
    rw [← split] at whole
    conv_lhs => rw [← whole]
    rw [List.take_append, List.take_of_length_le (by simp; omega), List.length_take,
      Nat.min_eq_left (by omega), List.take_append_of_le_length within]
  rw [front, List.countP_append]
  exact Nat.add_le_add_left (List.take_sublist _ _).countP_le _

end BlocksClosed

/-- An entry of a filtered list stands in the whole list at a place before which as many
entries pass the filter as stand before it in the filtered list. -/
theorem exists_getElem_of_getElem_filter {l : List α} {test : α → Bool} {a : Nat}
    (h : a < (l.filter test).length) :
    ∃ i, ∃ hi : i < l.length, l[i] = (l.filter test)[a] ∧ test l[i] = true ∧
      (l.take i).countP test = a := by
  induction l generalizing a with
  | nil => simp at h
  | cons x rest ih =>
    by_cases hx : test x = true
    · cases a with
      | zero => exact ⟨0, by simp, by simp [hx], hx, by simp⟩
      | succ b =>
        have hb : b < (rest.filter test).length := by
          simp only [List.filter_cons, hx, if_true, List.length_cons] at h; omega
        obtain ⟨i, hi, same, passes, count⟩ := ih hb
        refine ⟨i + 1, by simp; omega, ?_, passes, ?_⟩
        · simp only [List.getElem_cons_succ, same, List.filter_cons, hx, if_true]
        · simp [List.take_succ_cons, hx, count]
    · have hr : a < (rest.filter test).length := by
        simpa only [List.filter_cons, hx, Bool.false_eq_true, if_false] using h
      obtain ⟨i, hi, same, passes, count⟩ := ih hr
      refine ⟨i + 1, by simp; omega, ?_, passes, ?_⟩
      · simp only [List.getElem_cons_succ, same, List.filter_cons, hx, Bool.false_eq_true,
          if_false]
      · simp [List.take_succ_cons, hx, count]

/-- The entries before a passing entry that pass a test are fewer than all that pass. -/
theorem countP_take_lt {l : List α} {test : α → Bool} {i : Nat} (hi : i < l.length)
    (passes : test l[i] = true) : (l.take i).countP test < l.countP test := by
  have split : l.take (i + 1) = l.take i ++ [l[i]] := List.take_succ_eq_append_getElem hi
  have more : (l.take (i + 1)).countP test = (l.take i).countP test + 1 := by
    rw [split, List.countP_append]; simp [passes]
  have bounded := (List.take_sublist (i + 1) l).countP_le (p := test)
  omega

/-- A passing entry before place `j` is counted among the passing entries before `j`. -/
theorem countP_take_lt_countP_take {l : List α} {test : α → Bool} {i j : Nat} (hi : i < l.length)
    (before : i < j) (passes : test l[i] = true) :
    (l.take i).countP test < (l.take j).countP test := by
  have grows := (List.take_sublist_take_left (l := l) before).countP_le (p := test)
  rw [List.take_succ_eq_append_getElem hi, List.countP_append] at grows
  simp only [List.countP_singleton, passes, if_true] at grows
  omega

/-- A passing entry stands in the filtered list at the count of passing entries before it. -/
theorem getElem_filter_countP {l : List α} {test : α → Bool} {i : Nat} (hi : i < l.length)
    (passes : test l[i] = true) :
    ∃ h : (l.take i).countP test < (l.filter test).length,
      (l.filter test)[(l.take i).countP test] = l[i] := by
  refine ⟨by rw [← List.countP_eq_length_filter]; exact countP_take_lt hi passes, ?_⟩
  induction l generalizing i with
  | nil => simp at hi
  | cons x rest ih =>
    cases i with
    | zero =>
      have hx : test x = true := passes
      simp [hx]
    | succ j =>
      have hj : j < rest.length := by simp only [List.length_cons] at hi; omega
      have inner := ih hj passes
      by_cases hx : test x = true
      · simp only [List.take_succ_cons, List.countP_cons, hx, if_true, List.filter_cons,
          List.getElem_cons_succ]
        exact inner
      · simp only [List.take_succ_cons, List.countP_cons, hx, List.filter_cons,
          Bool.false_eq_true, if_false, List.getElem_cons_succ, Nat.add_zero]
        exact inner

/-- Filtering a sublist of a list without repeats gives the filtered list when every entry
that passes the filter lies in the sublist. -/
theorem filter_eq_of_sublist {K S : List α} (sub : K.Sublist S) (distinct : S.Nodup)
    (test : α → Bool) (within : ∀ e ∈ S, test e = true → e ∈ K) :
    K.filter test = S.filter test := by
  have covers : S.filter test ⊆ K.filter test := fun e mem => by
    obtain ⟨inS, passes⟩ := List.mem_filter.1 mem
    exact List.mem_filter.2 ⟨within e inS passes, passes⟩
  have shorter := (sub.filter test).length_le
  have longer := (List.Nodup.subperm (distinct.filter test) covers).length_le
  exact (sub.filter test).eq_of_length (Nat.le_antisymm shorter longer)

section Zip

variable {β γ : Type}

/-- Counting the pairs of a zip by their right parts, up to any place, counts the right list. -/
theorem countP_take_zip_snd {l : List β} {m : List α} (long : m.length ≤ l.length)
    (test : α → Bool) (r : Nat) :
    ((l.zip m).take r).countP (fun z => test z.2) = (m.take r).countP test := by
  have rights : ((l.zip m).take r).map Prod.snd = m.take r := by
    rw [List.map_take, List.map_snd_zip long]
  rw [← rights, List.countP_map]
  rfl

/-- The entries of a list picked by the marks of a list as long: the one at place `a` among them
stands in the list at a marked place `r`, before which `a` places are marked. -/
theorem exists_getElem_picked {l : List β} {m : List α} (marks : α → Bool)
    (same : l.length = m.length) {picked : List β}
    (picks : picked = ((l.zip m).filter fun z => marks z.2).map Prod.fst) {a : Nat}
    (h : a < picked.length) :
    ∃ r, ∃ hr : r < l.length, ∃ hm : r < m.length,
      picked[a] = l[r] ∧ marks m[r] = true ∧ (m.take r).countP marks = a := by
  subst picks
  rw [List.length_map] at h
  obtain ⟨r, hr, at_r, passes, count⟩ := exists_getElem_of_getElem_filter h
  have hl : r < l.length := by simp only [List.length_zip] at hr; omega
  have hm : r < m.length := by simp only [List.length_zip] at hr; omega
  refine ⟨r, hl, hm, ?_, ?_, ?_⟩
  · rw [List.getElem_map, ← at_r, List.getElem_zip]
  · simpa only [List.getElem_zip] using passes
  · rw [← countP_take_zip_snd (l := l) (Nat.le_of_eq same.symm)]
    exact count

/-- Entries picked by marks carried by a related list, seen through `g`, are the marked related
entries seen through `h`, when related entries look alike so. -/
theorem map_filter_zip_of_forall₂ {R : α → β → Prop} {xs : List α} {ys : List β}
    (related : List.Forall₂ R xs ys) (marks : α → Bool) (g : β → γ) (h : α → γ)
    (alike : ∀ x y, R x y → g y = h x) :
    ((ys.zip xs).filter fun z => marks z.2).map (fun z => g z.1) = (xs.filter marks).map h := by
  induction related with
  | nil => rfl
  | @cons x y xs ys rxy _ ih =>
    by_cases marked : marks x = true
    · simp [marked, alike x y rxy, ih]
    · simp [marked, ih]

end Zip

end StageTree
