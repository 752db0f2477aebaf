import Mathlib
import StageTree.Proofs.ParseOrder

/-!
# How scanning moves through the text

Every function of the scanner that reads characters moves the mark forward and changes nothing
else that the bookkeeping of tokens reads (`Moved`): not the text, the queue, the tokens handed
out, the pending simple keys, the indentation or the flow level. Whether a simple key may start
is the one thing besides the mark that reading may change.

A function that scans a token gives one that starts where the scan began and stops no later than
where the scan got to (`Spans`). All of them but a plain scalar's move on by one character at
least; a plain scalar's does when one may start at the mark (`PlainStart`), which is what
`startsPlain` checks before the scanner reads one.

Each function is read through its specification (`mvcgen`), stated for the scanner it starts
from. Characters are read through `charAt`, the character some places ahead of the mark, so that
two readings of one character are seen to agree.

Main statements: `scanDirective_spec`, `scanAnchor_spec`, `scanTag_spec`, `scanQuoted_spec`,
`scanBlock_spec` and `scanPlain_spec`.
-/

open Std.Do

set_option mvcgen.warning false

namespace StageTree.Yaml.Scanner

open Chars

/-- Postconditions of scanning. -/
abbrev Post (α : Type) := PostCond α (.arg Scanner (.except Error .pure))

/-- Reading moved the mark of `s0` on to that of `s` and changed nothing else that the
bookkeeping of tokens reads. -/
def Moved (s0 s : Scanner) : Prop :=
  s.buf = s0.buf ∧ s.flowLevel = s0.flowLevel ∧ s.queue = s0.queue ∧ s.taken = s0.taken ∧
    s.indent = s0.indent ∧ s.indents = s0.indents ∧ s.keys = s0.keys ∧ s.done = s0.done ∧
      s0.mark.index ≤ s.mark.index

/-- A mark between the mark of `s0`, where a scan began, and that of `s`, where it has got to. -/
def Between (s0 : Scanner) (m : Mark) (s : Scanner) : Prop :=
  s0.mark.index ≤ m.index ∧ m.index ≤ s.mark.index

/-- A token that starts where the scan from `s0` began and stops no later than where the scan
has got to. -/
def Spans (s0 : Scanner) (t : Token) (s : Scanner) : Prop :=
  t.start = s0.mark ∧ Between s0 t.stop s

/-- A scan from `s0` to `s` that gave `t`: the scanner moved on by one character at least, and
the token spans from where it began. -/
def Scanned (s0 : Scanner) (t : Token) (s : Scanner) : Prop :=
  Moved s0 s ∧ Spans s0 t s ∧ s0.mark.index < s.mark.index

/-- The character `k` places ahead of the mark, NUL past the end. -/
def charAt (s : Scanner) (k : Nat) : Char := s.buf.getD (s.mark.index + k) '\x00'

theorem step_index (buf : Array Char) (m : Mark) : (Mark.step buf m).index = m.index + 1 := by
  unfold Mark.step
  dsimp only
  split
  · rfl
  · split <;> rfl

theorem stepBy_index (buf : Array Char) (n : Nat) (m : Mark) :
    (Mark.stepBy buf n m).index = m.index + n := by
  induction n generalizing m with
  | zero => rfl
  | succ n ih =>
    rw [Mark.stepBy, ih, step_index]
    omega

-- The conditions left by `mvcgen` are made of these; `grind` unfolds them.
attribute [local grind =] Moved Between Spans Scanned stepBy_index

section Primitives

@[spec]
theorem peekAt_spec (k : Nat) (Q : Post Char) :
    ⦃fun s => Q.1 (charAt s k) s⦄ peekAt k ⦃Q⦄ := by
  mvcgen [peekAt, charAt]

@[spec]
theorem peek_spec (Q : Post Char) : ⦃fun s => Q.1 (charAt s 0) s⦄ peek ⦃Q⦄ := by
  mvcgen [peek, peekAt]

@[spec]
theorem here_spec (Q : Post Mark) : ⦃fun s => Q.1 s.mark s⦄ here ⦃Q⦄ := by
  mvcgen [here]

@[spec]
theorem fuel_spec (Q : Post Nat) :
    ⦃fun s => Q.1 (s.buf.size - s.mark.index + 2) s⦄ fuel ⦃Q⦄ := by
  mvcgen [fuel]

@[spec]
theorem ahead_spec (n : Nat) (Q : Post String) :
    ⦃fun s => Q.1 (String.ofList (s.buf.extract s.mark.index (s.mark.index + n)).toList) s⦄
    ahead n ⦃Q⦄ := by
  mvcgen [ahead]

@[spec]
theorem runAhead_spec (p : Char → Bool) (k : Nat) (Q : Post Nat) :
    ⦃fun s => Q.1 (runLength s.buf p (s.mark.index + k) 0) s⦄ runAhead p k ⦃Q⦄ := by
  mvcgen [runAhead]

@[spec]
theorem forward_spec (n : Nat) (Q : Post Unit) :
    ⦃fun s => Q.1 () { s with mark := Mark.stepBy s.buf n s.mark }⦄ forward n ⦃Q⦄ := by
  mvcgen [forward]

@[spec]
theorem setAllowSimpleKey_spec (b : Bool) (Q : Post Unit) :
    ⦃fun s => Q.1 () { s with allowSimpleKey := b }⦄ setAllowSimpleKey b ⦃Q⦄ := by
  mvcgen [setAllowSimpleKey]

@[spec]
theorem fail_spec {α : Type} (context : Option String) (contextMark : Option Mark)
    (problem : String) :
    ⦃⌜True⌝⦄ (fail context contextMark problem : ScanM α)
    ⦃⇓? _ _ => ⌜False⌝⦄ := by
  mvcgen [fail]

@[spec]
theorem discard_spec {α : Type} (x : ScanM α) (Q : Post Unit) :
    ⦃wp⟦x⟧ (fun _ => Q.1 (), Q.2)⦄ discard x ⦃Q⦄ := by
  simp only [discard, LawfulFunctor.map_const, Function.comp_apply]
  mvcgen

end Primitives

section Moves

@[spec]
theorem skipWhile_spec (p : Char → Bool) (s1 : Scanner) :
    ⦃fun s => ⌜s = s1⌝⦄ skipWhile p ⦃⇓? _ s => ⌜Moved s1 s⌝⦄ := by
  mvcgen [skipWhile]
  all_goals grind

@[spec]
theorem skipSpaces_spec (s1 : Scanner) :
    ⦃fun s => ⌜s = s1⌝⦄ skipSpaces ⦃⇓? _ s => ⌜Moved s1 s⌝⦄ := by
  mvcgen [skipSpaces]

@[spec]
theorem skipToBreak_spec (s1 : Scanner) :
    ⦃fun s => ⌜s = s1⌝⦄ skipToBreak ⦃⇓? _ s => ⌜Moved s1 s⌝⦄ := by
  mvcgen [skipToBreak]

-- A break read is one moved past; the scanner stays where it is when it reads none. The
-- second half also keeps this specification from being matched against a caller's
-- postcondition, which would give its starting scanner the caller's.
@[spec]
theorem lineBreak_spec (s1 : Scanner) :
    ⦃fun s => ⌜s = s1⌝⦄ lineBreak
    ⦃⇓? r s => ⌜Moved s1 s ∧ (r = "" → s = s1)⌝⦄ := by
  mvcgen [lineBreak]
  all_goals grind [Char.toString_eq_singleton, String.singleton_ne_empty]

@[spec]
theorem atDocumentMarker_spec (s1 : Scanner) :
    ⦃fun s => ⌜s = s1⌝⦄ atDocumentMarker ⦃⇓? _ s => ⌜Moved s1 s⌝⦄ := by
  mvcgen [atDocumentMarker]
  all_goals grind

@[spec]
theorem directiveName_spec (start : Mark) (s1 : Scanner) :
    ⦃fun s => ⌜s = s1⌝⦄ directiveName start ⦃⇓? _ s => ⌜Moved s1 s⌝⦄ := by
  mvcgen [directiveName]
  all_goals grind

@[spec]
theorem versionNumber_spec (start : Mark) (s1 : Scanner) :
    ⦃fun s => ⌜s = s1⌝⦄ versionNumber start ⦃⇓? _ s => ⌜Moved s1 s⌝⦄ := by
  mvcgen [versionNumber]
  all_goals grind

@[spec]
theorem versionValue_spec (start : Mark) (s1 : Scanner) :
    ⦃fun s => ⌜s = s1⌝⦄ versionValue start ⦃⇓? _ s => ⌜Moved s1 s⌝⦄ := by
  mvcgen [versionValue]
  all_goals grind

@[spec]
theorem tagHandle_spec (what : String) (start : Mark) (s1 : Scanner) :
    ⦃fun s => ⌜s = s1⌝⦄ tagHandle what start
    ⦃⇓? _ s => ⌜Moved s1 s ∧ s1.mark.index < s.mark.index⌝⦄ := by
  mvcgen [tagHandle]
  all_goals grind

@[spec]
theorem uriEscapes_spec (what : String) (start : Mark) (s1 : Scanner) :
    ⦃fun s => ⌜s = s1⌝⦄ uriEscapes what start ⦃⇓? _ s => ⌜Moved s1 s⌝⦄ := by
  mvcgen [uriEscapes] invariants
  | inv1 => ⇓? _ s => ⌜Moved s1 s⌝
  | inv2 => ⇓? _ s => ⌜Moved s1 s⌝
  all_goals grind

@[spec]
theorem tagUri_spec (what : String) (start : Mark) (s1 : Scanner) :
    ⦃fun s => ⌜s = s1⌝⦄ tagUri what start ⦃⇓? _ s => ⌜Moved s1 s⌝⦄ := by
  mvcgen [tagUri] invariants
  | inv1 => ⇓? _ s => ⌜Moved s1 s⌝
  all_goals grind

@[spec]
theorem tagDirectiveValue_spec (start : Mark) (s1 : Scanner) :
    ⦃fun s => ⌜s = s1⌝⦄ tagDirectiveValue start ⦃⇓? _ s => ⌜Moved s1 s⌝⦄ := by
  mvcgen [tagDirectiveValue]
  all_goals grind

@[spec]
theorem directiveIgnoredLine_spec (start : Mark) (s1 : Scanner) :
    ⦃fun s => ⌜s = s1⌝⦄ directiveIgnoredLine start ⦃⇓? _ s => ⌜Moved s1 s⌝⦄ := by
  mvcgen [directiveIgnoredLine]
  all_goals grind

@[spec]
theorem skipToNextToken_spec (s1 : Scanner) :
    ⦃fun s => ⌜s = s1⌝⦄ skipToNextToken ⦃⇓? _ s => ⌜Moved s1 s⌝⦄ := by
  mvcgen [skipToNextToken] invariants
  | inv1 => ⇓? _ s => ⌜Moved s1 s⌝
  | inv2 => ⇓? _ s => ⌜Moved s1 s⌝
  all_goals simp -failIfUnchanged only [id] at *
  all_goals grind

@[spec]
theorem plainSpaces_spec (s1 : Scanner) :
    ⦃fun s => ⌜s = s1⌝⦄ plainSpaces ⦃⇓? _ s => ⌜Moved s1 s⌝⦄ := by
  mvcgen [plainSpaces] invariants
  | inv1 => ⇓? _ s => ⌜Moved s1 s⌝
  all_goals grind

@[spec]
theorem quotedBreaks_spec (start : Mark) (s1 : Scanner) :
    ⦃fun s => ⌜s = s1⌝⦄ quotedBreaks start ⦃⇓? _ s => ⌜Moved s1 s⌝⦄ := by
  mvcgen [quotedBreaks] invariants
  | inv1 => ⇓? _ s => ⌜Moved s1 s⌝
  all_goals grind

@[spec]
theorem escapedCode_spec (start : Mark) (width : Nat) (s1 : Scanner) :
    ⦃fun s => ⌜s = s1⌝⦄ escapedCode start width ⦃⇓? _ s => ⌜Moved s1 s⌝⦄ := by
  mvcgen [escapedCode] invariants
  | inv1 => ⇓? _ s => ⌜Moved s1 s⌝
  all_goals grind

@[spec]
theorem quotedNonSpaces_spec (double : Bool) (start : Mark) (s1 : Scanner) :
    ⦃fun s => ⌜s = s1⌝⦄ quotedNonSpaces double start
    ⦃⇓? _ s => ⌜Moved s1 s⌝⦄ := by
  mvcgen [quotedNonSpaces] invariants
  | inv1 => ⇓? _ s => ⌜Moved s1 s⌝
  all_goals grind

@[spec]
theorem quotedSpaces_spec (start : Mark) (s1 : Scanner) :
    ⦃fun s => ⌜s = s1⌝⦄ quotedSpaces start ⦃⇓? _ s => ⌜Moved s1 s⌝⦄ := by
  mvcgen [quotedSpaces]
  all_goals grind

@[spec]
theorem indentationDigit_spec (start : Mark) (c : Char) (s1 : Scanner) :
    ⦃fun s => ⌜s = s1⌝⦄ indentationDigit start c ⦃⇓? _ s => ⌜Moved s1 s⌝⦄ := by
  mvcgen [indentationDigit]
  all_goals grind

@[spec]
theorem blockIndicators_spec (start : Mark) (s1 : Scanner) :
    ⦃fun s => ⌜s = s1⌝⦄ blockIndicators start ⦃⇓? _ s => ⌜Moved s1 s⌝⦄ := by
  mvcgen [blockIndicators]
  all_goals grind

@[spec]
theorem blockIgnoredLine_spec (start : Mark) (s1 : Scanner) :
    ⦃fun s => ⌜s = s1⌝⦄ blockIgnoredLine start ⦃⇓? _ s => ⌜Moved s1 s⌝⦄ := by
  mvcgen [blockIgnoredLine]
  all_goals grind

@[spec]
theorem blockIndentation_spec (s1 : Scanner) :
    ⦃fun s => ⌜s = s1⌝⦄ blockIndentation
    ⦃⇓? r s => ⌜Moved s1 s ∧ Between s1 r.2.2 s⌝⦄ := by
  mvcgen [blockIndentation] invariants
  | inv1 => ⇓? r s => ⌜Moved s1 s ∧ Between s1 r.2.2.2 s⌝
  all_goals grind

@[spec]
theorem skipIndentation_spec (indent : Int) (s1 : Scanner) :
    ⦃fun s => ⌜s = s1⌝⦄ skipIndentation indent ⦃⇓? _ s => ⌜Moved s1 s⌝⦄ := by
  mvcgen [skipIndentation] invariants
  | inv1 => ⇓? _ s => ⌜Moved s1 s⌝
  all_goals grind

@[spec]
theorem blockBreaks_spec (indent : Int) (s1 : Scanner) :
    ⦃fun s => ⌜s = s1⌝⦄ blockBreaks indent
    ⦃⇓? r s => ⌜Moved s1 s ∧ Between s1 r.2 s⌝⦄ := by
  mvcgen [blockBreaks] invariants
  | inv1 => ⇓? r s => ⌜Moved s1 s ∧ Between s1 r.2.2 s⌝
  all_goals grind

end Moves

section Tokens

@[spec]
theorem scanDirective_spec (s1 : Scanner) :
    ⦃fun s => ⌜s = s1⌝⦄ scanDirective 
    ⦃⇓? t s => ⌜Scanned s1 t s⌝⦄ := by
  mvcgen [scanDirective]
  all_goals grind

@[spec]
theorem scanAnchor_spec (isAlias : Bool) (s1 : Scanner) :
    ⦃fun s => ⌜s = s1⌝⦄ scanAnchor isAlias 
    ⦃⇓? t s => ⌜Scanned s1 t s⌝⦄ := by
  mvcgen [scanAnchor]
  all_goals grind

@[spec]
theorem scanTag_spec (s1 : Scanner) :
    ⦃fun s => ⌜s = s1⌝⦄ scanTag 
    ⦃⇓? t s => ⌜Scanned s1 t s⌝⦄ := by
  mvcgen [scanTag] invariants
  | inv1 => ⇓? _ s => ⌜Moved s1 s ∧ s.mark = s1.mark⌝
  all_goals grind

@[spec]
theorem scanQuoted_spec (double : Bool) (s1 : Scanner) :
    ⦃fun s => ⌜s = s1⌝⦄ scanQuoted double 
    ⦃⇓? t s => ⌜Scanned s1 t s⌝⦄ := by
  mvcgen [scanQuoted] invariants
  | inv1 => ⇓? _ s => ⌜Moved s1 s ∧ s1.mark.index < s.mark.index⌝
  all_goals grind

@[spec]
theorem scanBlock_spec (folded : Bool) (s1 : Scanner) :
    ⦃fun s => ⌜s = s1⌝⦄ scanBlock folded 
    ⦃⇓? t s => ⌜Scanned s1 t s⌝⦄ := by
  mvcgen [scanBlock] invariants
  | inv1 => ⇓? r s =>
    ⌜Moved s1 s ∧ s1.mark.index < s.mark.index ∧ Between s1 r.2.2.1 s⌝
  | inv2 => ⇓? r s =>
    ⌜Moved s1 s ∧ s1.mark.index < s.mark.index ∧ Between s1 r.2.2.1 s⌝
  all_goals grind

/-- A plain scalar may start at the mark: its first character is no blank, no comment and, in
flow context, no flow indicator, and a `:` there is followed by no blank (nor, in flow context,
by a flow indicator). The run of the scalar then takes that character at least. -/
def PlainStart (s : Scanner) : Prop :=
  charAt s 0 ≠ '#' ∧ isBlankOrEnd (charAt s 0) = false ∧
    (charAt s 0 = ':' → isBlankOrEnd (charAt s 1) = false ∧
      (s.flowLevel ≠ 0 → oneOf ",[]\x7b\x7d" (charAt s 1) = false)) ∧
    (s.flowLevel ≠ 0 → oneOf ",?[]\x7b\x7d" (charAt s 0) = false)

attribute [local grind =] PlainStart

@[spec]
theorem startsPlain_spec (s1 : Scanner) :
    ⦃fun s => ⌜s = s1⌝⦄ startsPlain
    ⦃⇓? r s => ⌜s = s1 ∧ (r = true → PlainStart s1)⌝⦄ := by
  mvcgen [startsPlain]
  rename_i s same flow
  subst same
  refine ⟨rfl, fun starts => ?_⟩
  simp only [Bool.or_eq_true, Bool.and_eq_true, Bool.not_eq_eq_eq_not, Bool.not_true,
    beq_iff_eq] at starts
  rcases starts with plain | ⟨nextOk, indicator⟩
  · -- no indicator at all: in particular none of those a plain scalar's run stops at
    simp [oneOf] at plain
    simp [PlainStart, oneOf]
    grind
  · -- an indicator that a plain scalar may start with: `-`, or `?` or `:` in block context
    rcases indicator with dash | ⟨block, question | colon⟩ <;>
      simp_all +zetaDelta [PlainStart, oneOf, isBlankOrEnd, isBreakOrEnd, isBreak]

@[spec]
theorem plainRun_spec (flow : Bool) (s1 : Scanner) :
    ⦃fun s => ⌜s = s1⌝⦄ plainRun flow
    ⦃⇓? n s => ⌜s = s1 ∧ (PlainStart s1 → flow = (s1.flowLevel != 0) → 0 < n)⌝⦄ := by
  mvcgen [plainRun] invariants
  | inv1 => ⇓? r s =>
    ⌜s = s1 ∧ (PlainStart s1 → flow = (s1.flowLevel != 0) →
      List.Cursor.prefix r.1 = [] ∧ r.2 = 0 ∨ 0 < r.2)⌝
  all_goals grind

/-- A plain scalar spans from where the scan began to its last character; where one may start,
the scan moves on. -/
@[spec]
theorem scanPlain_spec (s1 : Scanner) :
    ⦃fun s => ⌜s = s1⌝⦄ scanPlain
    ⦃⇓? t s =>
      ⌜Moved s1 s ∧ Spans s1 t s ∧ (PlainStart s1 → s1.mark.index < s.mark.index)⌝⦄ := by
  mvcgen [scanPlain] invariants
  | inv1 => ⇓? r s => ⌜Moved s1 s ∧ Between s1 r.2.1 s ∧
    (PlainStart s1 → List.Cursor.prefix r.1 = [] ∧ s = s1 ∨ s1.mark.index < s.mark.index)⌝
  all_goals grind

end Tokens

end StageTree.Yaml.Scanner
