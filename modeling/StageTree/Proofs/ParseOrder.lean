import Mathlib
import StageTree.Proofs.SpanOrder

/-!
# Events in the order of the text

Parsing tokens that stand in the order of the text gives events in that order: each event
starts no earlier than the one before it stops, and stops no earlier than it starts. Each step
of the parser reads the next tokens and gives an event built from their marks, so the order of
the tokens carries over, provided the step never gives an event that starts before the one it
gave last. Most events start at or after the next token's start. A few end at the next token's
stop without taking it (the start of a flow collection at its bracket, a one-pair mapping at its
`?`, a sequence of `-` entries at its first `-`): the parser then stands at a grammar position
whose step takes that token first (`ParseState.takesHead`), so the next event starts after it.

Without an alias among the tokens, no event is an alias: only an alias token gives one.

The grammar's functions are read through their specifications (`mvcgen`); each says what one
function does to the tokens left and what event it gives, and the step's specification is
assembled from them.

Main statements: `parse_inOrder` and `parse_plain`.
-/

open Std.Do

set_option mvcgen.warning false

namespace StageTree.Yaml

open StageTree.Tree

section Runs

-- The stock specification of `throw` in `Except` leaves universe levels open; this one fixes
-- them.
@[spec high]
theorem throw_error_spec {α : Type} {e : Error} {Q : PostCond α (.except Error .pure)} :
    @Triple (Except Error) (.except Error .pure) _ α (MonadExceptOf.throw e) (Q.2.1 e) Q := by
  simp [Triple.iff]

/-- What a run of a program over a state that may stop with an error gives, read off its
specification. -/
theorem ok_of_triple {σ α : Type} {x : StateT σ (Except Error) α} {P : σ → Prop}
    {Q : α → σ → Prop} (spec : ⦃fun p => ⌜P p⌝⦄ x ⦃⇓? a p => ⌜Q a p⌝⦄) {p p' : σ} {a : α}
    (pre : P p) (run : x.run p = .ok (a, p')) : Q a p' := by
  have h := spec p pre
  simp only [wp, PredTrans.apply_pushArg] at h
  rw [run] at h
  exact h

end Runs

/-- The grammar positions whose step takes the next token before it gives an event: the first
entry of a flow collection (the bracket is the next token), the key of a one-pair mapping in a
flow sequence (its `?`), and a sequence of `-` entries at a key's indentation when the next
token is its `-`. -/
def ParseState.takesHead : ParseState → TokenClass → Prop
  | .flowSequenceFirstEntry, _ => True
  | .flowMappingFirstKey, _ => True
  | .flowSequenceEntryMappingKey, _ => True
  | .indentlessSequenceEntry, c => c = .blockEntry
  | _, _ => False

namespace Parser

/-- Postconditions of parsing. -/
abbrev Post (α : Type) := PostCond α (.arg Parser (.except Error .pure))

/-- The next token, if any, starts at `b` or later. -/
def From (p : Parser) (b : Nat) : Prop := ∀ t ∈ p.tokens.head?, b ≤ t.start.index

/-- The parser may go on after an event that stops at `b`: its tokens stand in order, and the
next one starts at `b` or later, or stops at `b` or later and is the first thing the parser
takes. -/
def Ahead (p : Parser) (b : Nat) : Prop :=
  InOrder Token.span p.tokens ∧ ∀ t ∈ p.tokens.head?,
    b ≤ t.start.index ∨ (b ≤ t.stop.index ∧ p.state.takesHead t.kind.cls)

/-- An event given after `b`: it starts at `b` or later, stops no earlier than it starts, and
leaves the parser ahead of its stop. -/
def Emits (b : Nat) (e : Event) (p : Parser) : Prop :=
  b ≤ e.start.index ∧ e.start.index ≤ e.stop.index ∧ p.Ahead e.stop.index

/-- No token left is an alias. -/
def Plain (p : Parser) : Prop := ∀ t ∈ p.tokens, t.kind.cls ≠ .reference

/-- What a parse from `p0` that gives `e` and leaves the parser at `p` keeps: from tokens in
order, `e` is given after every bound that `ready` allows; from tokens without an alias, none
is left and `e` is no alias. -/
def Gives (ready : Nat → Prop) (p0 : Parser) (e : Event) (p : Parser) : Prop :=
  (InOrder Token.span p0.tokens → ∀ b, ready b → Emits b e p) ∧
    (p0.Plain → p.Plain ∧ ∀ a, e.kind ≠ .reference a)

/-- A node's properties fit between `b` and the next token: they start at `b` or later and stop
no later than the next token starts. Without properties both marks are the next token's start. -/
def PropsFit (b : Nat) (pr : NodeProperties) (p : Parser) : Prop :=
  ∀ t ∈ p.tokens.head?, b ≤ (pr.start.getD t.start).index ∧
    (pr.start.getD t.start).index ≤ (pr.stop.getD t.start).index ∧
      (pr.stop.getD t.start).index ≤ t.start.index

theorem start_le_stop_of_head {ts : List Token} (ordered : InOrder Token.span ts) {t : Token}
    (head : ts.head? = some t) : t.start.index ≤ t.stop.index := by
  cases ts with
  | nil => cases head
  | cons u rest =>
    cases head
    exact (inOrder_cons.1 ordered).1

-- What the conditions left by `mvcgen` are made of; `grind` unfolds them and reads the order
-- of the tokens off the list.
attribute [local grind =] From Ahead Emits Plain Gives PropsFit ParseState.takesHead Token.span
  Token.isOneOf emptyScalar Option.mem_def inOrder_cons
attribute [local grind →] start_le_stop_of_head

section Primitives

@[spec]
theorem peekToken_spec (p0 : Parser) :
    ⦃fun p => ⌜p = p0⌝⦄ peekToken ⦃⇓? t p => ⌜p = p0 ∧ p0.tokens.head? = some t⌝⦄ := by
  mvcgen [peekToken]
  all_goals simp_all

@[spec]
theorem getToken_spec (p0 : Parser) :
    ⦃fun p => ⌜p = p0⌝⦄ getToken
    ⦃⇓? t p => ⌜p0.tokens = t :: p.tokens ∧ p.state = p0.state⌝⦄ := by
  mvcgen [getToken]
  cases tokens : p0.tokens <;> simp_all +zetaDelta

@[spec]
theorem discard_getToken_spec (p0 : Parser) :
    ⦃fun p => ⌜p = p0⌝⦄ discard getToken
    ⦃⇓? _ p => ⌜∃ t, p0.tokens = t :: p.tokens ∧ p.state = p0.state⌝⦄ := by
  simp only [discard, LawfulFunctor.map_const, Function.comp_apply]
  mvcgen
  grind

@[spec]
theorem check_spec (cs : List TokenClass) (p0 : Parser) :
    ⦃fun p => ⌜p = p0⌝⦄ check cs
    ⦃⇓? b p => ⌜p = p0 ∧ ∃ t ∈ p0.tokens.head?, b = t.isOneOf cs⌝⦄ := by
  mvcgen [check]
  simp_all

@[spec]
theorem goTo_spec (s : ParseState) (Q : Post Unit) :
    ⦃fun p => Q.1 () { p with state := s }⦄ goTo s ⦃Q⦄ := by
  mvcgen [goTo]

@[spec]
theorem pushState_spec (s : ParseState) (Q : Post Unit) :
    ⦃fun p => Q.1 () { p with states := s :: p.states }⦄ pushState s ⦃Q⦄ := by
  mvcgen [pushState]

@[spec]
theorem popState_spec (Q : Post Unit) :
    ⦃fun p => Q.1 () { p with state := p.states.headD .finished, states := p.states.drop 1 }⦄
    popState ⦃Q⦄ := by
  mvcgen [popState]

@[spec]
theorem pushMark_spec (m : Mark) (Q : Post Unit) :
    ⦃fun p => Q.1 () { p with marks := m :: p.marks }⦄ pushMark m ⦃Q⦄ := by
  mvcgen [pushMark]

@[spec]
theorem popMark_spec (Q : Post Unit) :
    ⦃fun p => Q.1 () { p with marks := p.marks.drop 1 }⦄ popMark ⦃Q⦄ := by
  mvcgen [popMark]

@[spec]
theorem topMark_spec (Q : Post Mark) :
    ⦃fun p => Q.1 (p.marks.headD Mark.origin) p⦄ topMark ⦃Q⦄ := by
  mvcgen [topMark]

@[spec]
theorem failAt_spec {α : Type} (context : Option String) (contextMark : Option Mark)
    (problem : Token → String) :
    ⦃⌜True⌝⦄ (failAt context contextMark problem : ParseM α) ⦃⇓? _ _ => ⌜False⌝⦄ := by
  mvcgen [failAt]

@[spec]
theorem resolveTag_spec (start tagMark : Mark) (handle : Option String) (suffix : String)
    (p0 : Parser) :
    ⦃fun p => ⌜p = p0⌝⦄ resolveTag start tagMark handle suffix ⦃⇓? _ p => ⌜p = p0⌝⦄ := by
  mvcgen [resolveTag]

end Primitives

section Grammar

@[spec]
theorem parseProperties_spec (p0 : Parser) :
    ⦃fun p => ⌜p = p0⌝⦄ parseProperties
    ⦃⇓? pr p => ⌜(InOrder Token.span p0.tokens →
      InOrder Token.span p.tokens ∧ ∀ b, p0.From b → PropsFit b pr p) ∧ (p0.Plain → p.Plain)⌝⦄ := by
  mvcgen [parseProperties]
  all_goals grind

@[spec]
theorem parseContent_spec (block indentless : Bool) (pr : NodeProperties) (p0 : Parser) :
    ⦃fun p => ⌜p = p0⌝⦄ parseContent block indentless pr
    ⦃⇓? e p => ⌜Gives (PropsFit · pr p0) p0 e p⌝⦄ := by
  mvcgen [parseContent]
  all_goals grind

-- The grammar's states parse a node last, so the two postconditions meet; stated with its
-- bound first, this one is not taken for theirs.
@[spec]
theorem parseNode_spec (block indentless : Bool) (p0 : Parser) :
    ⦃fun p => ⌜p = p0⌝⦄ parseNode block indentless
    ⦃⇓? e p => ⌜(∀ b, p0.From b → InOrder Token.span p0.tokens → Emits b e p) ∧
      (p0.Plain → p.Plain ∧ ∀ a, e.kind ≠ .reference a)⌝⦄ := by
  mvcgen [parseNode]
  all_goals grind

@[spec]
theorem processDirectives_spec (p0 : Parser) :
    ⦃fun p => ⌜p = p0⌝⦄ processDirectives
    ⦃⇓? _ p => ⌜(InOrder Token.span p0.tokens →
      InOrder Token.span p.tokens ∧ ∀ t ∈ p0.tokens.head?, p.From t.start.index) ∧
        (p0.Plain → p.Plain)⌝⦄ := by
  mvcgen [processDirectives] invariants
  | inv1 => ⇓?⟨_, _⟩ p => ⌜(InOrder Token.span p0.tokens →
      InOrder Token.span p.tokens ∧ ∀ t ∈ p0.tokens.head?, p.From t.start.index) ∧
        (p0.Plain → p.Plain)⌝
  all_goals grind

@[spec]
theorem documentStart_spec (implied : Bool) (p0 : Parser) :
    ⦃fun p => ⌜p = p0⌝⦄ documentStart implied ⦃⇓? e p => ⌜Gives p0.From p0 e p⌝⦄ := by
  mvcgen [documentStart] invariants
  | inv1 => ⇓?⟨_, _⟩ p => ⌜(InOrder Token.span p0.tokens →
      InOrder Token.span p.tokens ∧ ∀ t ∈ p0.tokens.head?, p.From t.start.index) ∧
        (p0.Plain → p.Plain)⌝
  all_goals grind

@[spec]
theorem documentEnd_spec (p0 : Parser) :
    ⦃fun p => ⌜p = p0⌝⦄ documentEnd ⦃⇓? e p => ⌜Gives p0.From p0 e p⌝⦄ := by
  mvcgen [documentEnd]
  all_goals grind

@[spec]
theorem documentContent_spec (p0 : Parser) :
    ⦃fun p => ⌜p = p0⌝⦄ documentContent ⦃⇓? e p => ⌜Gives p0.From p0 e p⌝⦄ := by
  mvcgen [documentContent]
  all_goals grind

@[spec]
theorem blockSequenceEntry_spec (p0 : Parser) :
    ⦃fun p => ⌜p = p0⌝⦄ blockSequenceEntry ⦃⇓? e p => ⌜Gives p0.From p0 e p⌝⦄ := by
  mvcgen [blockSequenceEntry]
  all_goals grind

/-- Between the entries of a sequence of `-` entries the next token may be the `-` that an
event has already reached. -/
@[spec]
theorem indentlessSequenceEntry_spec (p0 : Parser) :
    ⦃fun p => ⌜p = p0⌝⦄ indentlessSequenceEntry
    ⦃⇓? e p => ⌜Gives (fun b => ∀ t ∈ p0.tokens.head?, b ≤ t.start.index ∨
      (b ≤ t.stop.index ∧ t.kind.cls = .blockEntry)) p0 e p⌝⦄ := by
  mvcgen [indentlessSequenceEntry]
  all_goals grind

@[spec]
theorem blockMappingKey_spec (p0 : Parser) :
    ⦃fun p => ⌜p = p0⌝⦄ blockMappingKey ⦃⇓? e p => ⌜Gives p0.From p0 e p⌝⦄ := by
  mvcgen [blockMappingKey]
  all_goals grind

@[spec]
theorem blockMappingValue_spec (p0 : Parser) :
    ⦃fun p => ⌜p = p0⌝⦄ blockMappingValue ⦃⇓? e p => ⌜Gives p0.From p0 e p⌝⦄ := by
  mvcgen [blockMappingValue]
  all_goals grind

@[spec]
theorem flowSequenceEntry_spec (first : Bool) (p0 : Parser) :
    ⦃fun p => ⌜p = p0⌝⦄ flowSequenceEntry first ⦃⇓? e p => ⌜Gives p0.From p0 e p⌝⦄ := by
  mvcgen [flowSequenceEntry]
  all_goals grind

/-- The key of a one-pair mapping comes after its `?`, which the mapping's start reached. -/
@[spec]
theorem flowSequenceEntryMappingKey_spec (p0 : Parser) :
    ⦃fun p => ⌜p = p0⌝⦄ flowSequenceEntryMappingKey
    ⦃⇓? e p => ⌜Gives (fun b => ∀ t ∈ p0.tokens.head?, b ≤ t.stop.index) p0 e p⌝⦄ := by
  mvcgen [flowSequenceEntryMappingKey]
  all_goals grind

@[spec]
theorem flowSequenceEntryMappingValue_spec (p0 : Parser) :
    ⦃fun p => ⌜p = p0⌝⦄ flowSequenceEntryMappingValue
    ⦃⇓? e p => ⌜Gives p0.From p0 e p⌝⦄ := by
  mvcgen [flowSequenceEntryMappingValue]
  all_goals grind

@[spec]
theorem flowSequenceEntryMappingEnd_spec (p0 : Parser) :
    ⦃fun p => ⌜p = p0⌝⦄ flowSequenceEntryMappingEnd ⦃⇓? e p => ⌜Gives p0.From p0 e p⌝⦄ := by
  mvcgen [flowSequenceEntryMappingEnd]
  all_goals grind

@[spec]
theorem flowMappingKey_spec (first : Bool) (p0 : Parser) :
    ⦃fun p => ⌜p = p0⌝⦄ flowMappingKey first ⦃⇓? e p => ⌜Gives p0.From p0 e p⌝⦄ := by
  mvcgen [flowMappingKey]
  all_goals grind

@[spec]
theorem flowMappingValue_spec (p0 : Parser) :
    ⦃fun p => ⌜p = p0⌝⦄ flowMappingValue ⦃⇓? e p => ⌜Gives p0.From p0 e p⌝⦄ := by
  mvcgen [flowMappingValue]
  all_goals grind

/-- A step from a parser ahead of `b` gives an event after `b` and leaves the parser ahead of
the event's stop; without an alias among the tokens, the event is none. -/
theorem step_spec (p0 : Parser) :
    ⦃fun p => ⌜p = p0⌝⦄ step ⦃⇓? r p => ⌜∀ e, r = some e → Gives p0.Ahead p0 e p⌝⦄ := by
  mvcgen [step]
  all_goals grind

end Grammar

/-- A property of the parser and the events so far that every step keeps holds of the events
`collect` gives. -/
theorem collect_invariant (I : Parser → Array Event → Prop)
    (keeps : ∀ p acc e p', I p acc → step.run p = .ok (some e, p') → I p' (acc.push e)) :
    ∀ fuel p acc, I p acc → ∃ p', I p' (collect fuel p acc).1
  | 0, p, acc, holds => ⟨p, holds⟩
  | fuel + 1, p, acc, holds => by
    rw [collect]
    split
    · exact ⟨p, holds⟩
    · exact ⟨p, holds⟩
    · rename_i e p' stepped
      exact collect_invariant I keeps fuel p' (acc.push e) (keeps p acc e p' holds stepped)

/-- The events so far stand in order and stop no later than `b`, and the parser is ahead of
`b`. -/
def Ordered (p : Parser) (acc : Array Event) : Prop :=
  ∃ b, InOrder Event.span acc.toList ∧ (∀ e ∈ acc.toList, e.stop.index ≤ b) ∧ p.Ahead b

/-- A step keeps the events in order: the new one starts after the last one stopped. -/
theorem Ordered.step {p p' : Parser} {acc : Array Event} {e : Event} (ordered : Ordered p acc)
    (stepped : step.run p = .ok (some e, p')) : Ordered p' (acc.push e) := by
  obtain ⟨b, inOrder, below, ahead⟩ := ordered
  obtain ⟨after, eOrdered, ahead'⟩ :=
    (ok_of_triple (step_spec p) rfl stepped e rfl).1 ahead.1 b ahead
  refine ⟨e.stop.index, ?_, fun x mem => ?_, ahead'⟩
  · rw [Array.toList_push, inOrder_append]
    refine ⟨inOrder, inOrder_cons.2 ⟨eOrdered, by simp, inOrder_nil⟩, fun x mem y memY => ?_⟩
    rw [List.mem_singleton] at memY
    subst memY
    have := below x mem
    simp only [Event.span]
    omega
  · rw [Array.toList_push, List.mem_append, List.mem_singleton] at mem
    rcases mem with mem | rfl
    · have := below x mem
      omega
    · exact le_refl _

/-- No token left is an alias and no event so far is one. -/
def Unaliased (p : Parser) (acc : Array Event) : Prop :=
  p.Plain ∧ ∀ e ∈ acc.toList, ∀ a, e.kind ≠ .reference a

theorem Unaliased.step {p p' : Parser} {acc : Array Event} {e : Event} (plain : Unaliased p acc)
    (stepped : step.run p = .ok (some e, p')) : Unaliased p' (acc.push e) := by
  obtain ⟨plainTokens, plainEvents⟩ := (ok_of_triple (step_spec p) rfl stepped e rfl).2 plain.1
  refine ⟨plainTokens, fun x mem => ?_⟩
  rw [Array.toList_push, List.mem_append, List.mem_singleton] at mem
  rcases mem with mem | rfl
  · exact plain.2 x mem
  · exact plainEvents

end Parser

/-- Tokens in the order of the text parse into events in that order. -/
theorem parse_inOrder {tokens : List Token} (ordered : InOrder Token.span tokens)
    (stop : Option Error) : InOrder Event.span (Event.parse tokens stop).1 := by
  obtain ⟨_, b, inOrder, -, -⟩ := Parser.collect_invariant Parser.Ordered
    (fun _ _ _ _ ordered stepped => ordered.step stepped) (4 * tokens.length + 8)
    { tokens, stop } #[] ⟨0, by simp, by simp, ordered, fun t _ => Or.inl (Nat.zero_le _)⟩
  exact inOrder

/-- Tokens without an alias parse into events without an alias. -/
theorem parse_plain {tokens : List Token} (plain : ∀ t ∈ tokens, t.kind.cls ≠ .reference)
    (stop : Option Error) : ∀ e ∈ (Event.parse tokens stop).1, ∀ a, e.kind ≠ .reference a := by
  obtain ⟨_, -, unaliased⟩ := Parser.collect_invariant Parser.Unaliased
    (fun _ _ _ _ plain stepped => plain.step stepped) (4 * tokens.length + 8)
    { tokens, stop } #[] ⟨plain, by simp⟩
  exact unaliased

end StageTree.Yaml
