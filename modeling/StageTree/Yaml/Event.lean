import StageTree.Text.Str
import StageTree.Yaml.Mark

/-!
# Events of a YAML stream

The events a token stream is parsed into: the stream's and each document's start and end,
aliases, scalars, and the starts and ends of sequences and mappings. A node's anchor and tag ride
on its first event. Each event spans two marks.
-/

namespace StageTree.Yaml

/-- What an event is. A scalar's `implicit` pair says whether its tag may be read off its text
when it is plain, and when it is quoted; a collection's says whether it had no tag or `!`. -/
inductive EventKind where
  | streamStart
  | streamEnd
  | documentStart (explicit : Bool)
  | documentEnd (explicit : Bool)
  | reference (anchor : String)
  | scalar (anchor tag : Option String) (implicit : Bool × Bool) (value : Text.Str)
  | sequenceStart (anchor tag : Option String) (implicit flow : Bool)
  | sequenceEnd
  | mappingStart (anchor tag : Option String) (implicit flow : Bool)
  | mappingEnd
deriving Repr, Inhabited

/-- An event and the marks where it starts and ends. -/
structure Event where
  kind : EventKind
  start : Mark
  stop : Mark
deriving Repr, Inhabited

end StageTree.Yaml
