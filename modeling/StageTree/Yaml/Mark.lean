/-!
# Marks in a YAML stream

A mark names a place in the text being read: its code-point index, its line and its column, all
from zero. A line ends at a line feed, at a carriage return that no line feed follows, at next
line and at the two Unicode separators; a byte order mark takes no column.

Messages show a mark by the line it falls on, with a caret under its column. A line longer than
the window is cut to 32 characters on either side of the mark, and each cut end shows ` ... `.
-/

namespace StageTree.Yaml

/-- A place in the text: code-point index, line and column, counted from zero. -/
structure Mark where
  index : Nat
  line : Nat
  column : Nat
deriving Repr, DecidableEq, Inhabited

namespace Mark

/-- The start of the stream. -/
def origin : Mark := ⟨0, 0, 0⟩

/-- The mark after the character at `m`, in the text `buf` (which ends in NUL). -/
def step (buf : Array Char) (m : Mark) : Mark :=
  let ch := buf.getD m.index '\x00'
  if ch == '\n' || ch == '\x85' || ch == '\u2028' || ch == '\u2029' ||
      (ch == '\r' && buf.getD (m.index + 1) '\x00' != '\n') then
    ⟨m.index + 1, m.line + 1, 0⟩
  else if ch == '\uFEFF' then ⟨m.index + 1, m.line, m.column⟩
  else ⟨m.index + 1, m.line, m.column + 1⟩

/-- The mark `n` characters after `m`. -/
def stepBy (buf : Array Char) : Nat → Mark → Mark
  | 0, m => m
  | n + 1, m => stepBy buf n (step buf m)

/-- A character that ends the line a snippet shows. -/
def endsSnippet (c : Char) : Bool :=
  c == '\x00' || c == '\r' || c == '\n' || c == '\x85' || c == '\u2028' || c == '\u2029'

/-- How many characters before index `i` belong to its line, counting at most `limit`. -/
def lineBefore (buf : Array Char) (i : Nat) : (limit : Nat) → Nat
  | 0 => 0
  | limit + 1 =>
    if i == 0 then 0
    else if endsSnippet (buf.getD (i - 1) '\x00') then 0
    else lineBefore buf (i - 1) limit + 1

/-- How many characters from index `i` on belong to its line, counting at most `limit`. -/
def lineAfter (buf : Array Char) (i : Nat) : (limit : Nat) → Nat
  | 0 => 0
  | limit + 1 =>
    if i ≥ buf.size then 0
    else if endsSnippet (buf.getD i '\x00') then 0
    else lineAfter buf (i + 1) limit + 1

/-- The two lines that show a mark: four spaces and its line, cut to the window, then a caret
under the mark. -/
def snippet (buf : Array Char) (m : Mark) : String :=
  let p := m.index
  let back := lineBefore buf p 37
  let (start, head) := if back ≥ 37 then (p - 32, " ... ") else (p - back, "")
  let fwd := lineAfter buf p 37
  let (stop, tail) := if fwd ≥ 37 then (p + 32, " ... ") else (p + fwd, "")
  let line := String.ofList (buf.extract start stop).toList
  "    " ++ head ++ line ++ tail ++ "\n" ++
    String.ofList (List.replicate (4 + (p - start) + head.length) ' ') ++ "^"

/-- A mark as messages show it: the stream's name, line and column from one, then the
snippet. -/
def render (buf : Array Char) (m : Mark) : String :=
  "  in \"<unicode string>\", line " ++ toString (m.line + 1) ++ ", column " ++
    toString (m.column + 1) ++ ":\n" ++ snippet buf m

end Mark

end StageTree.Yaml
