import StageTree.Number.Text
import StageTree.Text.Quoted
import StageTree.Text.Str

/-!
# JSON values and their texts

A JSON value: null, a truth value, an integer, a double, a string, an array, or an object whose
members keep their order. The compact text puts nothing between tokens but `,` and `:`, writes
every character outside printable ASCII as a `\u` escape (two of them for a character beyond
U+FFFF), and writes the special doubles as `NaN`, `Infinity` and `-Infinity`. The indented text is
the same with the items and members of containers on lines of their own. The display text of a
value is the text shown for it where a string is wanted. A value holding an integer too long to
write has no text (`Json.writable`).
-/

namespace StageTree

/-- A JSON value; an object's members keep their order. Strings and keys are texts of code
points, which may hold surrogate halves. -/
inductive Json where
  | null
  | bool (b : Bool)
  | int (i : Int)
  | float (x : Float)
  | str (s : Text.Str)
  | arr (items : List Json)
  | obj (members : List (Text.Str × Json))
deriving Inhabited

namespace Json

/-- A string value of a `String`. -/
def text (s : String) : Json := .str s

/-- The members of an object. -/
abbrev Members := List (Text.Str × Json)

/-- A `\u` escape of one UTF-16 unit. -/
def unitEscape (u : Nat) : String := "\\u" ++ Text.hexPadded 4 u

/-- How a character is written inside a JSON string. -/
def escapeChar (c : Char) : String :=
  let n := c.toNat
  if c == '"' then "\\\""
  else if c == '\\' then "\\\\"
  else if c == '\n' then "\\n"
  else if c == '\r' then "\\r"
  else if c == '\t' then "\\t"
  else if n == 0x08 then "\\b"
  else if n == 0x0C then "\\f"
  else if 0x20 ≤ n && n ≤ 0x7E then c.toString
  else if n < 0x10000 then unitEscape n
  else
    let v := n - 0x10000
    unitEscape (0xD800 + v / 0x400) ++ unitEscape (0xDC00 + v % 0x400)

/-- How a code point is written inside a JSON string: a half that stands alone by its escape. -/
def escapeCode : Text.Code → String
  | .char c => escapeChar c
  | .half o => unitEscape (0xD800 + o.val)

/-- A JSON string literal. -/
def quoteString (s : Text.Str) : String :=
  "\"" ++ String.join (s.toList.map escapeCode) ++ "\""

mutual

/-- The compact text of a value. -/
def compact : Json → String
  | null => "null"
  | bool b => if b then "true" else "false"
  | int i => Number.intText i
  | float x => Number.floatTextIn .json x
  | str s => quoteString s
  | arr items => "[" ++ compactItems items ++ "]"
  | obj members => "\x7b" ++ compactMembers members ++ "\x7d"

/-- The compact texts of array items, comma-separated. -/
def compactItems : List Json → String
  | [] => ""
  | [x] => compact x
  | x :: rest => compact x ++ "," ++ compactItems rest

/-- The compact texts of object members, comma-separated. -/
def compactMembers : List (Text.Str × Json) → String
  | [] => ""
  | [(k, v)] => quoteString k ++ ":" ++ compact v
  | (k, v) :: rest => quoteString k ++ ":" ++ compact v ++ "," ++ compactMembers rest

end

mutual

/-- Whether every integer in a value has a decimal text short enough to write
(`Number.intWritable`): only then can the value's text be made. -/
def writable : Json → Bool
  | int i => Number.intWritable i
  | arr items => writableItems items
  | obj members => writableMembers members
  | _ => true

/-- Whether every integer in array items can be written. -/
def writableItems : List Json → Bool
  | [] => true
  | x :: rest => writable x && writableItems rest

/-- Whether every integer in object members' values can be written. -/
def writableMembers : List (Text.Str × Json) → Bool
  | [] => true
  | (_, v) :: rest => writable v && writableMembers rest

end

/-- The display text of a value: empty for null, `true` or `false`, a number's shortest text,
a string itself, and the compact text of an array or object. -/
def display : Json → Text.Str
  | null => ""
  | bool b => if b then "true" else "false"
  | int i => Number.intText i
  | float x => Number.floatText x
  | str s => s
  | v => compact v

/-- A line break followed by the indentation of a level. -/
def lineAt (width level : Nat) : String := "\n".pushn ' ' (width * level)

mutual

/-- The indented text of a value at a nesting level: each item of a non-empty array and each
member of a non-empty object on a line of its own, `width` spaces further in than its container,
with `: ` after a key; empty containers and all other values as in the compact text. -/
def indentedAt (width level : Nat) : Json → String
  | arr [] => "[]"
  | obj [] => "\x7b\x7d"
  | arr items => "[" ++ indentedItems width (level + 1) items ++ lineAt width level ++ "]"
  | obj members =>
    "\x7b" ++ indentedMembers width (level + 1) members ++ lineAt width level ++ "\x7d"
  | v => compact v

/-- The indented texts of array items, each on its own line. -/
def indentedItems (width level : Nat) : List Json → String
  | [] => ""
  | [x] => lineAt width level ++ indentedAt width level x
  | x :: rest =>
    lineAt width level ++ indentedAt width level x ++ "," ++ indentedItems width level rest

/-- The indented texts of object members, each on its own line. -/
def indentedMembers (width level : Nat) : List (Text.Str × Json) → String
  | [] => ""
  | [(k, v)] => lineAt width level ++ quoteString k ++ ": " ++ indentedAt width level v
  | (k, v) :: rest =>
    lineAt width level ++ quoteString k ++ ": " ++ indentedAt width level v ++ "," ++
      indentedMembers width level rest

end

/-- The indented text of a value, `width` spaces per level. -/
def indented (width : Nat) (v : Json) : String := indentedAt width 0 v

/-- The value of an object's member with a key, the last one when the key repeats; none for
anything but an object. -/
def member? (v : Json) (k : String) : Option Json :=
  match v with
  | obj members => (members.reverse.find? (·.1 == Text.Str.ofString k)).map (·.2)
  | _ => none

/-- Sets a member of an object's member list: a key already there keeps its place and takes the
new value, a new key goes last. -/
def setMember (members : List (Text.Str × Json)) (k : Text.Str) (v : Json) :
    List (Text.Str × Json) :=
  if members.any (·.1 == k) then members.map fun (k', v') => if k' == k then (k', v) else (k', v')
  else members ++ [(k, v)]

end Json

end StageTree
