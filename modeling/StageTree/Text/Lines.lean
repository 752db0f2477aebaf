/-!
# Lines of a text

A text's lines start at offset 0 and right after each line break, where a break is `\n`, a
lone `\r`, or the pair `\r\n` (one break, ending after the `\n`). Only these three break lines
here, so a position can differ from a YAML reader's mark on a text with other breaks.

`LineTable.positionAt` takes a code-point offset, clamped to the text, to its zero-based line
and character; `LineTable.offsetAt` takes a line and character back to an offset, clamped to
the line (a line past the end gives the text's length, a line before the start gives 0).
-/

namespace StageTree

/-- A zero-based line and character. -/
structure Position where
  line : Nat
  character : Nat
deriving Repr, DecidableEq, Inhabited

/-- A range of positions, from `start` to `stop`. -/
structure Range where
  start : Position
  stop : Position
deriving Repr, DecidableEq, Inhabited

/-- A text with the offsets at which its lines start. -/
structure LineTable where
  /-- The text's length in code points. -/
  length : Nat
  /-- The offsets of the starts of lines, rising, the first 0. -/
  starts : Array Nat
deriving Repr, Inhabited

namespace LineTable

/-- The starts of the lines after the first, of the characters `cs` from offset `i`. -/
def breaksFrom : List Char → Nat → List Nat
  | [], _ => []
  | '\r' :: '\n' :: rest, i => (i + 2) :: breaksFrom rest (i + 2)
  | '\r' :: rest, i => (i + 1) :: breaksFrom rest (i + 1)
  | '\n' :: rest, i => (i + 1) :: breaksFrom rest (i + 1)
  | _ :: rest, i => breaksFrom rest (i + 1)

/-- The line table of a text. -/
def ofText (text : String) : LineTable :=
  let cs := text.toList
  ⟨cs.length, (0 :: breaksFrom cs 0).toArray⟩

/-- The number of lines; a text ending in a break has an empty last line. -/
def lineCount (t : LineTable) : Nat := t.starts.size

/-- The start of line `l`, or 0 past the last. -/
def lineStart (t : LineTable) (l : Nat) : Nat := t.starts.getD l 0

/-- The number of line starts at or before offset `o`, counted from line `i`. -/
def startsUpTo (t : LineTable) (o : Nat) (i : Nat) : Nat :=
  if h : i < t.starts.size then
    if t.starts[i] ≤ o then startsUpTo t o (i + 1) else i
  else t.starts.size
termination_by t.starts.size - i

/-- The position of an offset, clamped to the text. -/
def positionAt (t : LineTable) (offset : Int) : Position :=
  let o := (max 0 (min offset (t.length : Int))).toNat
  let line := startsUpTo t o 0 - 1
  ⟨line, o - t.lineStart line⟩

/-- The offset of a line and character, clamped to the line. -/
def offsetAt (t : LineTable) (line character : Int) : Nat :=
  if line ≥ (t.lineCount : Int) then t.length
  else if line < 0 then 0
  else
    let l := line.toNat
    let first := t.lineStart l
    let next := if l + 1 < t.lineCount then t.lineStart (l + 1) else t.length
    (max (min ((first : Int) + character) (next : Int)) (first : Int)).toNat

/-- The range of a span of offsets. -/
def rangeOf (t : LineTable) (start stop : Nat) : Range :=
  ⟨t.positionAt start, t.positionAt stop⟩

end LineTable

/-- The lines of a text read with every line break (`\n`, `\r\n` or a lone `\r`) made a line
feed, each line keeping its line feed; the last line has none when the text does not end in a
break. -/
def universalLines (text : String) : List String :=
  let rec go : List Char → List Char → List String
    | [], [] => []
    | [], line => [String.ofList line.reverse]
    | '\r' :: '\n' :: rest, line => String.ofList ('\n' :: line).reverse :: go rest []
    | '\r' :: rest, line => String.ofList ('\n' :: line).reverse :: go rest []
    | '\n' :: rest, line => String.ofList ('\n' :: line).reverse :: go rest []
    | c :: rest, line => go rest (c :: line)
  go text.toList []

end StageTree
