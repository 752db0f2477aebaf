/-!
# Character classes of YAML 1.1

The classes the reader tests characters against. The stream is read with a NUL after its last
character, so NUL stands for the end of the stream in every class that ends a token.
-/

namespace StageTree.Yaml.Chars

/-- A line break: line feed, carriage return, next line, line and paragraph separator. -/
def isBreak (c : Char) : Bool :=
  c == '\n' || c == '\r' || c == '\x85' || c == '\u2028' || c == '\u2029'

/-- A line break or the end of the stream. -/
def isBreakOrEnd (c : Char) : Bool := c == '\x00' || isBreak c

/-- A space, a tab, a line break or the end of the stream. -/
def isBlankOrEnd (c : Char) : Bool := c == ' ' || c == '\t' || isBreakOrEnd c

/-- A space, a line break or the end of the stream (a tab is not among them). -/
def isSpaceOrEnd (c : Char) : Bool := c == ' ' || isBreakOrEnd c

/-- A character of an anchor, alias or directive name: an ASCII letter or digit, `-` or `_`. -/
def isWordChar (c : Char) : Bool :=
  ('0' ≤ c && c ≤ '9') || ('A' ≤ c && c ≤ 'Z') || ('a' ≤ c && c ≤ 'z') || c == '-' || c == '_'

/-- Whether `c` is one of the characters of `s`. -/
def oneOf (s : String) (c : Char) : Bool := s.toList.contains c

/-- An ASCII digit. -/
def isDigit (c : Char) : Bool := '0' ≤ c && c ≤ '9'

/-- An ASCII hex digit, either case. -/
def isHexDigit (c : Char) : Bool :=
  isDigit c || ('A' ≤ c && c ≤ 'F') || ('a' ≤ c && c ≤ 'f')

/-- A character that a tag's URI may hold as it is: an ASCII letter or digit, or one of
`-;/?:@&=+$,_.!~*'()[]%`. -/
def isUriChar (c : Char) : Bool :=
  ('0' ≤ c && c ≤ '9') || ('A' ≤ c && c ≤ 'Z') || ('a' ≤ c && c ≤ 'z') ||
    oneOf "-;/?:@&=+$,_.!~*'()[]%" c

/-- A character allowed in a stream: tab, line feed, carriage return, the printable ASCII
characters, next line, and the code points from U+00A0 on except the surrogates, U+FFFE and
U+FFFF. -/
def isAllowed (c : Char) : Bool :=
  let n := c.toNat
  n == 0x09 || n == 0x0A || n == 0x0D || (0x20 ≤ n && n ≤ 0x7E) || n == 0x85 ||
    (0xA0 ≤ n && n ≤ 0xD7FF) || (0xE000 ≤ n && n ≤ 0xFFFD) || 0x10000 ≤ n

/-- The value of a hex digit. -/
def hexValue (c : Char) : Nat :=
  if isDigit c then c.toNat - '0'.toNat
  else if 'a' ≤ c && c ≤ 'f' then c.toNat - 'a'.toNat + 10
  else c.toNat - 'A'.toNat + 10

/-- The value of a run of hex digits, most significant first. -/
def hexNumber (cs : List Char) : Nat := cs.foldl (fun acc c => acc * 16 + hexValue c) 0

end StageTree.Yaml.Chars
