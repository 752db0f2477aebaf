import StageTree.Text.Str
import StageTree.Text.Unicode.Printable

/-!
# Quoted text

The quoted form of a text, as messages show a key or a character that was found. The text is
wrapped in single quotes, unless it holds a single quote and no double quote, when double quotes
wrap it. Inside, a backslash and the chosen quote get a backslash in front; tab, line feed and
carriage return are written `\t`, `\n`, `\r`; any other character that does not print is written
as `\xhh`, `\uhhhh` or `\Uhhhhhhhh`, the shortest of the three that holds it, in lower-case hex.
-/

namespace StageTree.Text

/-- Lower-case hex digits of `n`, padded with zeros on the left to `width` digits. -/
def hexPadded (width n : Nat) : String :=
  let digits := Nat.toDigits 16 n
  String.ofList (List.replicate (width - digits.length) '0' ++ digits)

/-- The escape that stands for an unprintable character: two, four or eight hex digits. -/
def escapeCode (c : Char) : String :=
  if c.toNat < 0x100 then "\\x" ++ hexPadded 2 c.toNat
  else if c.toNat < 0x10000 then "\\u" ++ hexPadded 4 c.toNat
  else "\\U" ++ hexPadded 8 c.toNat

/-- How one character is written between quotes `q`. -/
def quoteChar (q c : Char) : String :=
  if c == '\\' then "\\\\"
  else if c == q then "\\" ++ c.toString
  else if c == '\t' then "\\t"
  else if c == '\n' then "\\n"
  else if c == '\r' then "\\r"
  else if Unicode.isPrintable c then c.toString
  else escapeCode c

/-- The quote that wraps `s`: a double quote when `s` holds a single quote and no double
quote, else a single quote. -/
def quoteFor (s : String) : Char :=
  if s.any (· == '\x27') && !s.any (· == '"') then '"' else '\x27'

/-- The quoted form of a text. -/
def quote (s : String) : String :=
  let q := quoteFor s
  q.toString ++ String.join (s.toList.map (quoteChar q)) ++ q.toString

/-- How one code point is written between quotes `q`: a half that stands alone by its
escape, as it does not print. -/
def quoteCode (q : Char) : Code → String
  | .char c => quoteChar q c
  | .half o => "\\u" ++ hexPadded 4 (0xD800 + o.val)

/-- The quoted form of a text of code points. -/
def quoteStr (s : Str) : String :=
  let q := quoteFor s.toString
  q.toString ++ String.join (s.toList.map (quoteCode q)) ++ q.toString

/-- The quoted form of one character. -/
def quoteOne (c : Char) : String := quote c.toString

end StageTree.Text
