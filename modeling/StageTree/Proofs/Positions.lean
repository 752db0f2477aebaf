import Mathlib
import StageTree.Text.Lines

/-!
# Positions and offsets

A text's line table starts at 0 and rises strictly, every start within the text
(`LineTable.ofText_valid`). On such a table each offset up to the text's end lies on exactly one
line (`LineTable.OnLine`): the line `LineTable.positionAt` names. `LineTable.offsetAt` takes that
line, and the offset's distance from the line's start, back to the offset.

Main statement: `LineTable.offsetAt_positionAt_round_trip`. An offset read as a position and back
is the offset clamped to the text. A position naming a character of its line, or the end of the
text on the last line, read as an offset and back is itself. Offsets between a `\r` and its `\n`
belong to the line the pair ends, and a text ending in a break has an empty last line whose only
position is the text's end.
-/

namespace StageTree.LineTable

/-! ## The line table of a text -/

/-- The breaks found from offset `i` lie after it and within the characters read. -/
theorem breaksFrom_bounds (cs : List Char) (i : Nat) :
    ∀ x ∈ breaksFrom cs i, i < x ∧ x ≤ i + cs.length := by
  fun_induction breaksFrom cs i with
  | case1 => simp
  | case2 rest i ih | case3 rest i _ ih | case4 rest i ih =>
    -- a break: the new start, then those found past it
    intro x mem
    rcases List.mem_cons.1 mem with rfl | later
    · simp
    · have := ih x later
      simp only [List.length_cons]
      omega
  | case5 c rest i _ _ _ ih =>
    intro x mem
    have := ih x mem
    simp only [List.length_cons]
    omega

/-- The breaks found from any offset rise strictly. -/
theorem breaksFrom_pairwise (cs : List Char) (i : Nat) :
    (breaksFrom cs i).Pairwise (· < ·) := by
  fun_induction breaksFrom cs i with
  | case1 => exact List.Pairwise.nil
  | case2 rest i ih | case3 rest i _ ih | case4 rest i ih =>
    exact List.pairwise_cons.2 ⟨fun x mem => (breaksFrom_bounds rest _ x mem).1, ih⟩
  | case5 => assumption

/-- The starts of the lines of a text: 0, then right after each break. -/
theorem lineStart_ofText (text : String) (l : Nat) :
    (ofText text).lineStart l = (0 :: breaksFrom text.toList 0).getD l 0 := by
  simp [lineStart, ofText, Array.getD_eq_getD_getElem?]

@[simp] theorem lineCount_ofText (text : String) :
    (ofText text).lineCount = (breaksFrom text.toList 0).length + 1 := by
  simp [lineCount, ofText]

@[simp] theorem length_ofText (text : String) : (ofText text).length = text.length := by
  simp [ofText, String.length_toList]

/-- What the offset reading of a table rests on: the first line starts at 0, the starts rise
strictly and none lies past the text's end. -/
structure Valid (t : LineTable) : Prop where
  nonempty : 0 < t.lineCount
  first : t.lineStart 0 = 0
  rising : ∀ {i j}, i < j → j < t.lineCount → t.lineStart i < t.lineStart j
  bounded : ∀ i, t.lineStart i ≤ t.length

/-- The line table of every text is valid. -/
theorem ofText_valid (text : String) : (ofText text).Valid := by
  have starts := List.pairwise_cons.2
    ⟨fun x mem => (breaksFrom_bounds text.toList 0 x mem).1, breaksFrom_pairwise text.toList 0⟩
  refine ⟨by simp, by simp [lineStart_ofText], ?rising, ?bounded⟩
  case rising =>
    intro i j before inside
    simp only [lineCount_ofText] at inside
    rw [lineStart_ofText, lineStart_ofText, List.getD_eq_getElem _ _ (by simp; omega),
      List.getD_eq_getElem _ _ (by simpa using inside)]
    exact List.pairwise_iff_getElem.1 starts i j _ _ before
  case bounded =>
    intro i
    rw [lineStart_ofText, length_ofText, List.getD_eq_getElem?_getD]
    cases h : (0 :: breaksFrom text.toList 0)[i]? with
    | none => simp
    | some x =>
      have mem := List.mem_of_getElem? h
      rcases List.mem_cons.1 mem with rfl | later
      · simp
      · simpa [String.length_toList] using (breaksFrom_bounds text.toList 0 x later).2

/-- Line starts do not fall along a valid table. -/
theorem Valid.mono {t : LineTable} (valid : t.Valid) {i j : Nat} (le : i ≤ j)
    (inside : j < t.lineCount) : t.lineStart i ≤ t.lineStart j := by
  rcases Nat.lt_or_eq_of_le le with lt | rfl
  · exact Nat.le_of_lt (valid.rising lt inside)
  · exact Nat.le_refl _

/-! ## Finding the line of an offset -/

/-- The line starts of a table, by index. -/
theorem lineStart_eq_getElem (t : LineTable) {i : Nat} (h : i < t.starts.size) :
    t.lineStart i = t.starts[i] := by
  simp [lineStart, Array.getD_eq_getD_getElem?, h]

/-- Counting line starts from line `i` on stops at the first start past the offset, or at the
end of the table, having passed only starts at or before it. -/
theorem startsUpTo_stops (t : LineTable) (o i : Nat) (hi : i ≤ t.lineCount) :
    i ≤ t.startsUpTo o i ∧ t.startsUpTo o i ≤ t.lineCount ∧
      (∀ j, i ≤ j → j < t.startsUpTo o i → t.lineStart j ≤ o) ∧
      (t.startsUpTo o i < t.lineCount → o < t.lineStart (t.startsUpTo o i)) := by
  fun_induction startsUpTo t o i with
  | case1 i inside passed ih =>
    -- the start of line `i` is passed; the count goes on from the next line
    obtain ⟨after, within, below, stop⟩ := ih inside
    refine ⟨by omega, within, fun j ge lt => ?_, stop⟩
    rcases Nat.lt_or_eq_of_le ge with gt | rfl
    · exact below j gt lt
    · rw [lineStart_eq_getElem t inside]; exact passed
  | case2 i inside past =>
    refine ⟨Nat.le_refl _, Nat.le_of_lt inside, fun j ge lt => absurd lt (by omega),
      fun _ => ?_⟩
    rw [lineStart_eq_getElem t inside]; omega
  | case3 i outside =>
    refine ⟨hi, Nat.le_refl _, fun j ge lt => ?_, fun lt => absurd lt (by simp [lineCount])⟩
    simp only [lineCount] at hi
    omega

/-- Offset `o` lies on line `l`: at or after the line's start, and before the next line's start
if there is a next line. -/
def OnLine (t : LineTable) (o l : Nat) : Prop :=
  l < t.lineCount ∧ t.lineStart l ≤ o ∧ (l + 1 < t.lineCount → o < t.lineStart (l + 1))

/-- An offset lies on at most one line of a valid table. -/
theorem Valid.onLine_unique {t : LineTable} (valid : t.Valid) {o l l' : Nat}
    (on : t.OnLine o l) (on' : t.OnLine o l') : l = l' := by
  -- a later line starts after the earlier line's successor, so past the offset
  have apart : ∀ {a b}, t.OnLine o a → t.OnLine o b → a < b → False := by
    intro a b onA onB lt
    have next := valid.mono (show a + 1 ≤ b by omega) onB.1
    have := onA.2.2 (by have := onB.1; omega)
    have := onB.2.1
    omega
  rcases Nat.lt_trichotomy l l' with lt | eq | gt
  · exact (apart on on' lt).elim
  · exact eq
  · exact (apart on' on gt).elim

/-- The position of an offset within the text, before the line is known. -/
theorem positionAt_natCast (t : LineTable) {o : Nat} (inside : o ≤ t.length) :
    t.positionAt o = ⟨t.startsUpTo o 0 - 1, o - t.lineStart (t.startsUpTo o 0 - 1)⟩ := by
  have clamp : (max 0 (min (o : Int) (t.length : Int))).toNat = o := by omega
  simp only [positionAt, clamp]

/-- On a valid table, the position of an offset within the text names the line the offset lies
on, and the distance from that line's start. -/
theorem Valid.onLine_positionAt {t : LineTable} (valid : t.Valid) {o : Nat}
    (inside : o ≤ t.length) :
    t.OnLine o (t.positionAt o).line ∧
      (t.positionAt o).character = o - t.lineStart (t.positionAt o).line := by
  obtain ⟨-, within, below, stop⟩ := startsUpTo_stops t o 0 (Nat.zero_le _)
  -- the first line starts at 0, so the count passes at least one start
  have passed : 0 < t.startsUpTo o 0 := by
    rcases Nat.eq_zero_or_pos (t.startsUpTo o 0) with zero | pos
    · have := stop (by rw [zero]; exact valid.nonempty)
      rw [zero, valid.first] at this
      omega
    · exact pos
  rw [positionAt_natCast t inside]
  dsimp only
  refine ⟨⟨by omega, below _ (Nat.zero_le _) (by omega), fun more => ?_⟩, rfl⟩
  rw [Nat.sub_add_cancel passed] at more ⊢
  exact stop more

/-- On a valid table, an offset within the text on line `l` is at line `l`, its distance from the
line's start along. -/
theorem Valid.positionAt_of_onLine {t : LineTable} (valid : t.Valid) {o l : Nat}
    (inside : o ≤ t.length) (on : t.OnLine o l) :
    t.positionAt o = ⟨l, o - t.lineStart l⟩ := by
  obtain ⟨onFound, character⟩ := valid.onLine_positionAt inside
  have same := valid.onLine_unique onFound on
  rw [← same, ← character]

/-- A line and a character that stays within the line, or reaches the text's end on the last
line, give the offset that far from the line's start. -/
theorem offsetAt_eq_add (t : LineTable) {l c : Nat} (line : l < t.lineCount)
    (beforeNext : l + 1 < t.lineCount → t.lineStart l + c ≤ t.lineStart (l + 1))
    (inText : t.lineStart l + c ≤ t.length) :
    t.offsetAt l c = t.lineStart l + c := by
  have notPast : ¬(l : Int) ≥ (t.lineCount : Int) := by omega
  have notBefore : ¬(l : Int) < 0 := by omega
  simp only [offsetAt, notPast, notBefore, if_false, Int.toNat_natCast]
  split
  · have := beforeNext ‹_›
    omega
  · omega

/-! ## Reading offsets as positions and back -/

/-- Reading an offset as a position clamps it to the text first. -/
theorem positionAt_clamp (t : LineTable) (o : Int) :
    t.positionAt o = t.positionAt ((max 0 (min o t.length)).toNat : Nat) := by
  have again : (max 0 (min (((max 0 (min o t.length)).toNat : Nat) : Int) t.length)).toNat =
      (max 0 (min o t.length)).toNat := by omega
  simp only [positionAt, again]

/-- On a valid table, an offset read as a position and back is the offset clamped to the text. -/
theorem Valid.offsetAt_positionAt {t : LineTable} (valid : t.Valid) (o : Int) :
    (t.offsetAt (t.positionAt o).line (t.positionAt o).character : Int) =
      min (max o 0) t.length := by
  -- reading clamps the offset first; past that, it is an offset within the text
  rw [positionAt_clamp t o]
  generalize clamped : (max 0 (min o (t.length : Int))).toNat = n
  have inside : n ≤ t.length := by omega
  obtain ⟨on, character⟩ := valid.onLine_positionAt inside
  rw [character]
  have atStart := on.2.1
  have back := offsetAt_eq_add t (c := n - t.lineStart (t.positionAt n).line) on.1
    (fun more => by have := on.2.2 more; omega) (by omega)
  rw [back]
  omega

/-- On a valid table, a position naming a character of its line, or the text's end on the last
line, read as an offset and back is itself. -/
theorem Valid.positionAt_offsetAt {t : LineTable} (valid : t.Valid) {l c : Nat}
    (line : l < t.lineCount)
    (inLine : l + 1 < t.lineCount → c < t.lineStart (l + 1) - t.lineStart l)
    (onLast : t.lineCount ≤ l + 1 → c ≤ t.length - t.lineStart l) :
    t.positionAt (t.offsetAt l c) = ⟨l, c⟩ := by
  have startInText := valid.bounded l
  -- the offset lies within the text whichever line `l` is
  have inText : t.lineStart l + c ≤ t.length := by
    by_cases more : l + 1 < t.lineCount
    · have := inLine more
      have := valid.bounded (l + 1)
      omega
    · have := onLast (by omega)
      omega
  rw [offsetAt_eq_add t line (fun more => by have := inLine more; omega) inText]
  have on : t.OnLine (t.lineStart l + c) l :=
    ⟨line, Nat.le_add_right _ _, fun more => by have := inLine more; omega⟩
  rw [valid.positionAt_of_onLine inText on, Nat.add_sub_cancel_left]

/-- The positions of a text and its offsets convert into each other. An offset read as a
position and back is the offset clamped to the text. A position on a line of the text whose
character lies before the next line's start, or, on the last line, at most at the text's end,
read as an offset and back is itself. -/
theorem offsetAt_positionAt_round_trip (text : String) :
    (∀ o : Int, ((ofText text).offsetAt ((ofText text).positionAt o).line
        ((ofText text).positionAt o).character : Int) = min (max o 0) text.length) ∧
    ∀ l c : Nat, l < (ofText text).lineCount →
      (l + 1 < (ofText text).lineCount →
        c < (ofText text).lineStart (l + 1) - (ofText text).lineStart l) →
      ((ofText text).lineCount ≤ l + 1 → c ≤ text.length - (ofText text).lineStart l) →
      (ofText text).positionAt ((ofText text).offsetAt l c) = ⟨l, c⟩ := by
  have valid := ofText_valid text
  refine ⟨fun o => ?_, fun l c line inLine onLast => ?_⟩
  · simpa using valid.offsetAt_positionAt o
  · exact valid.positionAt_offsetAt line inLine (by simpa using onLast)

/-- In `a\r\nb`, the offset between the `\r` and the `\n` is the third character of the first
line, and reads back as that position. -/
theorem round_trip_between_return_and_feed :
    0 < (ofText "a\r\nb").lineCount ∧
    (0 + 1 < (ofText "a\r\nb").lineCount →
      2 < (ofText "a\r\nb").lineStart (0 + 1) - (ofText "a\r\nb").lineStart 0) ∧
    ((ofText "a\r\nb").lineCount ≤ 0 + 1 →
      2 ≤ "a\r\nb".length - (ofText "a\r\nb").lineStart 0) ∧
    (ofText "a\r\nb").positionAt ((ofText "a\r\nb").offsetAt 0 2) = ⟨0, 2⟩ :=
  ⟨by decide, by decide, by decide,
    (offsetAt_positionAt_round_trip "a\r\nb").2 0 2 (by decide) (by decide) (by decide)⟩

end StageTree.LineTable
