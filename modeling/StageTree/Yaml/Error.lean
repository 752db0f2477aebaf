import StageTree.Number.Text
import StageTree.Text.Quoted
import StageTree.Yaml.Mark

/-!
# Why reading a YAML stream stops

Reading stops at the first of three causes: a character that YAML allows nowhere, malformed
text, or collections nested deeper than the reader follows. A few failures end the whole request
instead of the reading: they are faults. A malformed text names what was
being read (the context) and where it began, and what was found instead (the problem) and where.
The message shows the context's mark only where it differs from the problem's.
-/

namespace StageTree.Yaml

/-- A failure that reading does not recover from: the whole request fails with it. -/
inductive Fault where
  /-- A boolean tag on a text that names no truth value; the text is given. -/
  | unknownTruth (text : Text.Str)
  /-- A number tag on an empty text. -/
  | emptyNumber
  /-- A timestamp tag on a text that is no date. -/
  | noDate
  /-- A double-quoted escape names a code point past U+10FFFF. -/
  | codePointTooLarge
  /-- A base-60 double has a place value too large for a double. -/
  | placeOverflow
  /-- A version directive's number has more digits than are read; their count is given. -/
  | versionTooLong (digits : Nat)
deriving Repr, DecidableEq, Inhabited

/-- The message of a fault. -/
def Fault.message : Fault → String
  | .unknownTruth text => Text.quoteStr text
  | .emptyNumber => "string index out of range"
  | .noDate => "\x27NoneType\x27 object has no attribute \x27groupdict\x27"
  | .codePointTooLarge => "chr() arg not in range(0x110000)"
  | .placeOverflow => "int too large to convert to float"
  | .versionTooLong digits => Number.textTooLongMessage digits

/-- Why reading a YAML stream stopped. -/
inductive Error where
  /-- The stream holds a character that YAML allows nowhere: its index and its code point. -/
  | unacceptable (position code : Nat)
  /-- Malformed text: what was being read and where it began, what was found and where. -/
  | malformed (context : Option String) (contextMark : Option Mark) (problem : String)
      (problemMark : Mark)
  /-- Collections nest deeper than the reader follows. -/
  | tooDeep
  /-- A failure that no reader recovers from. -/
  | fault (f : Fault)
deriving Repr, Inhabited

namespace Error

/-- The message of a stop, with marks shown against the text `buf` (which ends in NUL). -/
def message (buf : Array Char) : Error → String
  | unacceptable position code =>
    "unacceptable character #x" ++ Text.hexPadded 4 code ++
      ": special characters are not allowed\n  in \"<unicode string>\", position " ++
      toString position
  | malformed context contextMark problem problemMark =>
    let contextLine := context.toList
    let contextMarkLine := match contextMark with
      | some m => if m.line != problemMark.line || m.column != problemMark.column
          then [m.render buf] else []
      | none => []
    "\n".intercalate (contextLine ++ contextMarkLine ++ [problem, problemMark.render buf])
  | tooDeep => "Document is nested too deeply to parse"
  | fault f => f.message

end Error

end StageTree.Yaml
