import Mathlib
import StageTree.Proofs.Positions

/-!
# Where the lines of a text start

A line break ends at a line feed, or at a carriage return that no line feed follows, so a
`\r\n` pair is one break and ends at its `\n`. The lines of a text start at 0 and right after
each break (`LineTable.breakEnds`), in the order of the text.

Main statement: `LineTable.ofText_starts_after_breaks`. The line table of a text is 0, then the
end of every break in turn; there is one line more than there are breaks; and an offset within
the text lies on the line numbered by the breaks ending at or before it, as far into that line as
it is past the last of them (or past 0 when there is none).
-/

namespace StageTree.LineTable

/-- Whether a line break ends at index `i` of the characters `cs`: a line feed, or a carriage
return that no line feed follows. -/
def endsBreak (cs : List Char) (i : Nat) : Bool :=
  cs[i]? == some '\n' || (cs[i]? == some '\r' && cs[i + 1]? != some '\n')

/-- The offsets right after the line breaks of the characters `cs`, in order. -/
def breakEnds (cs : List Char) : List Nat :=
  ((List.range cs.length).filter (endsBreak cs)).map (· + 1)

@[simp]
theorem endsBreak_cons_succ (c : Char) (cs : List Char) (i : Nat) :
    endsBreak (c :: cs) (i + 1) = endsBreak cs i := by
  simp [endsBreak]

@[simp]
theorem breakEnds_nil : breakEnds [] = [] := rfl

/-- The breaks of a text one character longer at the front: a break ending at that character,
then the breaks of the rest, one further on. -/
theorem breakEnds_cons (c : Char) (cs : List Char) :
    breakEnds (c :: cs) =
      (if endsBreak (c :: cs) 0 then [1] else []) ++ (breakEnds cs).map (· + 1) := by
  rw [breakEnds, List.length_cons, List.range_succ_eq_map, List.filter_cons, List.filter_map]
  have shifted : (endsBreak (c :: cs) ∘ Nat.succ) = endsBreak cs := by
    funext i
    exact endsBreak_cons_succ c cs i
  rw [shifted, breakEnds]
  split <;> simp [List.map_map, Function.comp_def]

/-- Shifting offsets twice shifts them by the sum. -/
theorem map_shift (l : List Nat) (a b : Nat) : (l.map (· + a)).map (· + b) = l.map (· + (a + b)) := by
  simp [List.map_map, Function.comp_def, Nat.add_assoc]

/-- The scan of the line table from offset `i` finds the ends of the breaks, `i` further on. -/
theorem breaksFrom_eq (cs : List Char) (i : Nat) :
    breaksFrom cs i = (breakEnds cs).map (· + i) := by
  fun_induction breaksFrom cs i with
  | case1 => rfl
  | case2 rest i ih =>
    -- `\r\n`: the `\r` ends no break, the `\n` ends one
    have pair : endsBreak ('\r' :: '\n' :: rest) 0 = false := by simp [endsBreak]
    have feed : endsBreak ('\n' :: rest) 0 = true := by simp [endsBreak]
    rw [ih, breakEnds_cons, breakEnds_cons, if_neg (by simp [pair]), if_pos feed]
    simp only [List.nil_append, List.map_cons, map_shift, List.singleton_append]
    rw [show 1 + 1 + i = i + 2 by omega]
  | case3 rest i noFeed ih =>
    have lone : endsBreak ('\r' :: rest) 0 = true := by
      cases rest with
      | nil => rfl
      | cons c rest' => simpa [endsBreak] using noFeed rest'
    rw [ih, breakEnds_cons, if_pos lone]
    simp only [List.map_cons, map_shift, List.singleton_append]
    rw [show 1 + i = i + 1 by omega]
  | case4 rest i ih =>
    have feed : endsBreak ('\n' :: rest) 0 = true := by simp [endsBreak]
    rw [ih, breakEnds_cons, if_pos feed]
    simp only [List.map_cons, map_shift, List.singleton_append]
    rw [show 1 + i = i + 1 by omega]
  | case5 c rest i notPair notReturn notFeed ih =>
    have other : endsBreak (c :: rest) 0 = false := by
      have feed : c ≠ '\n' := notFeed
      have return_ : c ≠ '\r' := notReturn
      simp [endsBreak, feed, return_]
    rw [ih, breakEnds_cons, if_neg (by simp [other])]
    simp only [List.nil_append, map_shift]
    rw [show 1 + i = i + 1 by omega]

/-- The ends of the breaks rise strictly. -/
theorem breakEnds_pairwise (cs : List Char) : (breakEnds cs).Pairwise (· < ·) := by
  simpa [breaksFrom_eq] using breaksFrom_pairwise cs 0

/-- The line table of a text: 0, then the end of each break. -/
theorem starts_ofText (text : String) :
    (ofText text).starts.toList = 0 :: breakEnds text.toList := by
  simp [ofText, breaksFrom_eq]

/-! ## The breaks up to an offset -/

/-- In a rising list, the entries at or below a bound are a prefix. -/
theorem filter_le_eq_take {ends : List Nat} (rising : ends.Pairwise (· < ·)) (o : Nat) :
    ends.filter (· ≤ o) = ends.take (ends.filter (· ≤ o)).length := by
  induction ends with
  | nil => rfl
  | cons e rest ih =>
    obtain ⟨above, restRising⟩ := List.pairwise_cons.1 rising
    by_cases low : e ≤ o
    · have again := ih restRising
      simp only [List.filter_cons, low, decide_true, if_true, List.length_cons, List.take_succ_cons]
      exact congrArg (e :: ·) again
    · -- everything after an entry past the bound is past it too
      have none : rest.filter (· ≤ o) = [] :=
        List.filter_eq_nil_iff.2 fun x mem => by have := above x mem; simp; omega
      simp [low, none]

/-- In a rising list, the entries past the prefix at or below a bound are all past it. -/
theorem lt_of_not_mem_filter {ends : List Nat} (rising : ends.Pairwise (· < ·)) (o : Nat)
    {j : Nat} (past : (ends.filter (· ≤ o)).length ≤ j) (hj : j < ends.length) : o < ends[j] := by
  have prefix_ := filter_le_eq_take rising o
  by_contra low
  -- the entry at `j` would be in the prefix, which stops before `j`
  have mem : ends[j] ∈ ends.filter (· ≤ o) := List.mem_filter.2 ⟨List.getElem_mem _, by simp; omega⟩
  rw [prefix_] at mem
  obtain ⟨i, hi, same⟩ := List.getElem_of_mem mem
  rw [List.getElem_take] at same
  have hi' : i < (ends.filter (· ≤ o)).length := by
    rw [List.length_take] at hi
    omega
  have := List.pairwise_iff_getElem.1 rising i j (by omega) hj (by omega)
  omega

/-! ## Lines and positions of a text -/

/-- A text has one line more than it has breaks. -/
theorem lineCount_eq_breaks (text : String) :
    (ofText text).lineCount = (breakEnds text.toList).length + 1 := by
  simp [breaksFrom_eq]

/-- Line `l` of a text starts at 0 when it is the first, else at the end of the `l`-th break. -/
theorem lineStart_eq_breakEnds (text : String) (l : Nat) :
    (ofText text).lineStart l = (0 :: breakEnds text.toList).getD l 0 := by
  simp [lineStart_ofText, breaksFrom_eq]

section Offset

variable (text : String) (o : Nat)

/-- The line numbered by the breaks ending at or before an offset starts at the end of the last
of them, or at 0 when there is none. -/
theorem lineStart_breaks_upTo :
    (ofText text).lineStart ((breakEnds text.toList).filter (· ≤ o)).length =
      ((breakEnds text.toList).filter (· ≤ o)).getLast?.getD 0 := by
  have prefix_ := filter_le_eq_take (breakEnds_pairwise text.toList) o
  have within := List.length_filter_le (· ≤ o) (breakEnds text.toList)
  generalize (breakEnds text.toList).filter (· ≤ o) = upTo at prefix_ within ⊢
  rw [lineStart_eq_breakEnds]
  conv_rhs => rw [prefix_, List.getLast?_take]
  generalize upTo.length = k at within ⊢
  cases k with
  | zero => rfl
  | succ j => simp [List.getElem?_eq_getElem (show j < (breakEnds text.toList).length by omega)]

/-- An offset lies on the line numbered by the breaks ending at or before it. -/
theorem onLine_breaks_upTo :
    (ofText text).OnLine o ((breakEnds text.toList).filter (· ≤ o)).length := by
  have rising := breakEnds_pairwise text.toList
  have within := List.length_filter_le (· ≤ o) (breakEnds text.toList)
  refine ⟨by rw [lineCount_eq_breaks]; omega, ?_, fun more => ?_⟩
  · -- the line starts at the last break at or before the offset, or at 0
    rw [lineStart_breaks_upTo]
    cases last : ((breakEnds text.toList).filter (· ≤ o)).getLast? with
    | none => exact Nat.zero_le _
    | some e =>
      have := (List.mem_filter.1 (List.mem_of_getLast? last)).2
      simpa using this
  · -- the next line starts at the first break past the offset
    rw [lineCount_eq_breaks] at more
    rw [lineStart_eq_breakEnds, List.getD_cons_succ, List.getD_eq_getElem _ _ (by omega)]
    exact lt_of_not_mem_filter rising o (Nat.le_refl _) _

end Offset

/-- The lines of a text start at 0 and right after each line break, in order, where a break is a
line feed or a carriage return that no line feed follows, so `\r\n` is one break. The text
has one line more than it has breaks, and an offset within the text lies on the line numbered by
the breaks ending at or before it, as many characters into the line as it is past the end of the
last of them, or past 0 when there is none. -/
theorem ofText_starts_after_breaks (text : String) :
    (ofText text).starts.toList = 0 :: breakEnds text.toList ∧
    (ofText text).lineCount = (breakEnds text.toList).length + 1 ∧
    ∀ o : Nat, o ≤ text.length → (ofText text).positionAt o =
      ⟨((breakEnds text.toList).filter (· ≤ o)).length,
        o - ((breakEnds text.toList).filter (· ≤ o)).getLast?.getD 0⟩ := by
  refine ⟨starts_ofText text, lineCount_eq_breaks text, fun o inside => ?_⟩
  rw [(ofText_valid text).positionAt_of_onLine (by simpa using inside) (onLine_breaks_upTo text o),
    lineStart_breaks_upTo]

/-- In `\r\r\n\n\r` the breaks end after the lone `\r`, after the pair, after the `\n`
and after the last `\r`. -/
example : breakEnds ['\r', '\r', '\n', '\n', '\r'] = [1, 3, 4, 5] := by decide

end StageTree.LineTable
