import StageTree.Proofs.Reading
import StageTree.Settings

/-!
# Reading a stream fails only on a fault

Reading a stream records its failures rather than failing: malformed text, a budget spent and a
stream nested too deep each end the reading with the documents read before them kept and one
message recorded. A scalar whose text its tag cannot read is no failure at all: it stays a string
and nothing is recorded for it. What ends the reading with no result is a fault, and a fault
comes from one of two places only: the composer (an escape past the last code point, a version
number too long to read), or a scalar of a composed document whose value its tag makes a fault (a
truth value named by no word, an empty number, a timestamp that is no date, a base-60 double too
large). So reading `v: !!bool maybe` gives no result at all (`read_bool_maybe_faults`).

Main statement: `read_fails_only_on_faults`.
-/

namespace StageTree.Tree

open Yaml

/-- A graph holds a scalar whose value its tag makes the fault `f`. -/
def ScalarFaults (g : Graph) (f : Fault) : Prop :=
  ∃ tag value start stop, GraphNode.scalar tag value start stop ∈ g.nodes ∧
    Scalar.ofTagged tag value = .error f

/-- A value mapped in `Except` is a failure only when the one it maps is. -/
theorem map_eq_error {ε α β : Type} {f : α → β} {c : Except ε α} {x : ε}
    (failed : c.map f = .error x) : c = .error x := by
  cases c with
  | ok a => cases failed
  | error e =>
    cases failed
    rfl

/-- A list run through `mapM` in `Except` fails only with the failure of one of its members. -/
theorem mapM_eq_error {γ α ε : Type} {f : γ → Except ε α} {x : ε} :
    ∀ {xs : List γ}, xs.mapM f = .error x → ∃ y ∈ xs, f y = .error x
  | [], failed => by cases failed
  | y :: ys, failed => by
    cases head : f y with
    | error e =>
      simp only [List.mapM_cons, head, bind, Except.bind, Except.error.injEq] at failed
      exact ⟨y, List.mem_cons_self, failed ▸ head⟩
    | ok a =>
      cases tail : ys.mapM f with
      | error e =>
        simp only [List.mapM_cons, head, tail, bind, Except.bind, Except.error.injEq] at failed
        obtain ⟨z, mem, faulted⟩ := mapM_eq_error (failed ▸ tail)
        exact ⟨z, List.mem_cons_of_mem y mem, faulted⟩
      | ok as =>
        simp [List.mapM_cons, head, tail, bind, Except.bind, pure, Except.pure] at failed

/-- A node's copy fails only with its own scalar's fault, or with the fault of a member's copy. -/
theorem copyNode_eq_error {g : Graph} {child : Nat → Except Fault Node} {n : GraphNode}
    {f : Fault} (failed : copyNode g child n = .error f) :
    (∃ tag value start stop, n = .scalar tag value start stop ∧
        Scalar.ofTagged tag value = .error f) ∨ ∃ j, child j = .error f := by
  cases n with
  | mapping pairs s e =>
    -- a pair fails only as the copy of its value does; its key is read as text
    obtain ⟨p, -, faulted⟩ := mapM_eq_error (map_eq_error failed)
    exact .inr ⟨p.2, map_eq_error faulted⟩
  | sequence items s e =>
    obtain ⟨j, -, faulted⟩ := mapM_eq_error (map_eq_error failed)
    exact .inr ⟨j, faulted⟩
  | scalar tag value s e => exact .inl ⟨tag, value, s, e, rfl, map_eq_error failed⟩

/-- A copy fails only with the fault of a scalar of the graph: references back and nodes past
the graph copy to nulls, and each member is copied from the same graph. -/
theorem copy_eq_error {g : Graph} {f : Fault} :
    ∀ {fuel : Nat} {building : Array Bool} {i : Nat}, copy g fuel building i = .error f →
      ScalarFaults g f
  | 0, _, _, failed => by cases failed
  | fuel + 1, building, i, failed => by
    rw [copy] at failed
    cases node : g.nodes[i]? with
    | none => simp only [node] at failed; cases failed
    | some n =>
      simp only [node] at failed
      by_cases marked : building.getD i false = true
      · rw [if_pos marked] at failed
        cases failed
      · rw [if_neg marked] at failed
        rcases copyNode_eq_error failed with ⟨tag, value, start, stop, rfl, faulted⟩ | ⟨j, faulted⟩
        · exact ⟨tag, value, start, stop, Array.mem_of_getElem? node, faulted⟩
        · exact copy_eq_error faulted

/-- A graph unfolds to a failure only with the fault of one of its scalars. -/
theorem unfold_eq_error {g : Graph} {f : Fault} (failed : Node.unfold g = .error f) :
    ScalarFaults g f :=
  copy_eq_error failed

/-- What reading keeps and records, seen from the stream: the documents kept are a leading run
of the graphs; a run that stops short records one message, the budget's or the nesting's, and a
run to the end records why composing stopped, if it did. -/
theorem Keeps.records {buf : Array Char} {limit left : Int} {gs : List Graph}
    {stop : Option Error} {kept : List Node} {errors : List String}
    (keeps : Keeps buf limit left gs stop kept errors) :
    (kept.length < gs.length ∧
        (errors = [overBudgetMessage limit] ∨ errors = [Error.tooDeep.message buf])) ∨
      (kept.length = gs.length ∧ errors = (stop.map (·.message buf)).toList) := by
  have lengths : (gs.take kept.length).length = kept.length := by
    simpa using congrArg List.length keeps.unfolds
  have stops := keeps.stops
  cases rest : gs.drop kept.length with
  | nil =>
    rw [rest] at stops
    have : gs.length ≤ kept.length := List.drop_eq_nil_iff.1 rest
    exact .inr ⟨by simp at lengths; omega, stops⟩
  | cons g later =>
    rw [rest] at stops
    have : kept.length < gs.length := by
      have := congrArg List.length rest
      simp at this
      omega
    rcases stops with ⟨budget, -⟩ | ⟨deep, -⟩
    · exact .inl ⟨this, .inl budget⟩
    · exact .inl ⟨this, .inr deep⟩

/-- Reading a text under a budget of `limit` nodes gives the trees of a leading run of the
documents it composes, and records every failure it stops at: one message, the budget's or the
nesting's, when the run stops short of the last document, and else why composing stopped, if it
did. No other message is ever recorded, so a scalar whose text its tag cannot read records
nothing. The read gives no result only for a fault of a scalar of a composed document or of the
composer itself. -/
theorem read_fails_only_on_faults (text : String) (limit : Int) :
    let graphs := (Document.graphs text).1
    let stop := (Document.graphs text).2
    let buf := Document.buffer text
    match Document.read text limit with
    | .ok d => (graphs.take d.documents.length).map Node.unfold = d.documents.map .ok ∧
        ((d.documents.length < graphs.length ∧
            (d.errors = [overBudgetMessage limit] ∨ d.errors = [Error.tooDeep.message buf])) ∨
          (d.documents.length = graphs.length ∧ d.errors = (stop.map (·.message buf)).toList))
    | .error f => (∃ g ∈ graphs, ScalarFaults g f) ∨ stop = some (.fault f) := by
  intro graphs stop buf
  have read := expandAll_keeps buf limit stop graphs limit #[]
  have same : Document.read text limit = expandAll buf limit stop graphs limit #[] := rfl
  rw [same]
  revert read
  cases expandAll buf limit stop graphs limit #[] with
  | ok d =>
    rintro ⟨kept, documents, keeps⟩
    -- nothing was kept before the stream, so the documents are the run kept
    have run : d.documents = kept := by simpa using documents
    dsimp only
    rw [run]
    exact ⟨keeps.unfolds, keeps.records⟩
  | error f =>
    rintro (⟨g, mem, faulted⟩ | stopped)
    · exact .inl ⟨g, mem, unfold_eq_error faulted⟩
    · exact .inr stopped

/-- Reading `v: !!bool maybe` under the default budget gives no result: its value, tagged as a
truth value, names none, and that fault ends the reading instead of being recorded. -/
theorem read_bool_maybe_faults :
    Document.read "v: !!bool maybe\n" Settings.defaultMaxAstNodes =
      .error (.unknownTruth (Text.Str.ofString "maybe")) := by
  have unit : (Document.read "v: !!bool maybe\n" Settings.defaultMaxAstNodes).map (fun _ => ()) =
      .error (.unknownTruth (Text.Str.ofString "maybe")) := by
    decide +kernel
  exact map_eq_error unit

end StageTree.Tree
