import StageTree.Tree.Convert
import StageTree.Yaml.Event.Parse
import StageTree.Yaml.Graph.Compose
import StageTree.Yaml.Token.Scan

/-!
# Reading a YAML stream into documents

`Document.read` scans, parses and composes a stream, then expands each document's graph into a
syntax tree under a shared node budget. Documents read before a failure are kept and the failure
is recorded as a message: malformed text, a stream nested too deeply, or a budget spent. A fault
ends the reading with no result. Documents are read lazily in order, so a failure in expanding a
document hides any failure further on in the stream.
-/

namespace StageTree.Tree

open Yaml

/-- A stream read: its documents' trees in order, and the messages of the failure that stopped
the reading, if one did. -/
structure Document where
  documents : List Node
  errors : List String
deriving Inhabited

/-- The message of a spent budget of `limit` nodes. -/
def overBudgetMessage (limit : Int) : String :=
  "Document expands to more than " ++ Number.intText limit ++
    " nodes (alias expansion); parsing stopped"

/-- Expands graphs in order, from `remaining` units of a budget of `limit`, after the trees
`acc`; `stop` is why the graphs end early. -/
def expandAll (buf : Array Char) (limit : Int) (stop : Option Error) :
    List Graph → Int → Array Node → Except Fault Document
  | [], _, acc =>
    match stop with
    | none => .ok ⟨acc.toList, []⟩
    | some (.fault f) => .error f
    | some e => .ok ⟨acc.toList, [e.message buf]⟩
  | g :: rest, remaining, acc =>
    match Node.ofGraph g remaining with
    | .ok (n, left) => expandAll buf limit stop rest left (acc.push n)
    | .error .overBudget => .ok ⟨acc.toList, [overBudgetMessage limit]⟩
    | .error .tooDeep => .ok ⟨acc.toList, [Error.tooDeep.message buf]⟩
    | .error (.fault f) => .error f

/-- The text of a stream as messages mark it: its characters, then NUL. -/
def Document.buffer (text : String) : Array Char := (text.toList ++ ['\x00']).toArray

/-- The graphs of a stream's documents, in order, and why composing stopped short of the
stream's end, if it did. -/
def Document.graphs (text : String) : List Graph × Option Error :=
  let (tokens, scanStop) := Token.scan text
  let (events, parseStop) := Event.parse tokens scanStop
  Graph.compose events parseStop

/-- Reads a stream with a budget of `maxNodes` nodes. -/
def Document.read (text : String) (maxNodes : Int) : Except Fault Document :=
  let (graphs, composeStop) := Document.graphs text
  expandAll (Document.buffer text) maxNodes composeStop graphs maxNodes #[]

/-- The first document's tree, if there is one. -/
def Document.first (d : Document) : Option Node := d.documents.head?

/-- A read that a check sees go through gives the document the check sees. -/
theorem read_eq_ok_getD {text : String} {limit : Int}
    (kept : (Document.read text limit).toOption ≠ none) :
    Document.read text limit = .ok ((Document.read text limit).toOption.getD default) := by
  cases read : Document.read text limit with
  | error e => simp [read, Except.toOption] at kept
  | ok d => rfl

/-- What a check sees of a read through `f`, when it sees something: the read goes through, and
`f` gives that of the document read. -/
theorem read_bind_getD {β : Type} [Inhabited β] {text : String} {limit : Int}
    {f : Document → Option β} (kept : ((Document.read text limit).toOption.bind f).isSome = true) :
    ∃ d, Document.read text limit = .ok d ∧
      f d = some (((Document.read text limit).toOption.bind f).getD default) := by
  cases read : Document.read text limit with
  | error e => simp [read, Except.toOption] at kept
  | ok d =>
    refine ⟨d, rfl, ?_⟩
    cases seen : f d with
    | none => simp [read, Except.toOption, seen] at kept
    | some b => simp [Except.toOption, seen]

end StageTree.Tree
