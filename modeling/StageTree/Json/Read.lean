import StageTree.Json.Value
import StageTree.Number.Read
import StageTree.Text.Units

/-!
# Reading JSON text

The reader takes the JSON grammar as written: blanks (space, tab, line feed and carriage return)
between tokens, the literals `null`, `true` and `false`, numbers, strings with their escapes,
arrays and objects. A number with neither fraction nor exponent is an integer, any other the
double nearest to it. A `\u` escape gives a UTF-16 code unit, so two escaped surrogate halves in
a row make one character, and a half without its partner stays a half. An object keeps its
members in order, a repeated key included. A text with anything but blanks after its value is
refused.

Every step of the reader takes at least one character, so twice the length of the text, and one
more, is enough fuel for a whole value; `Json.read?` gives that.
-/

namespace StageTree.Json

/-- Whether a character is a blank between JSON tokens. -/
def isBlank (c : Char) : Bool := c == ' ' || c == '\t' || c == '\n' || c == '\r'

/-- The text without its leading blanks. -/
def dropBlanks (cs : List Char) : List Char := cs.dropWhile isBlank

/-- The value of a hex digit. -/
def hexDigit? (c : Char) : Option Nat :=
  if '0' ≤ c && c ≤ '9' then some (c.toNat - '0'.toNat)
  else if 'a' ≤ c && c ≤ 'f' then some (c.toNat - 'a'.toNat + 10)
  else if 'A' ≤ c && c ≤ 'F' then some (c.toNat - 'A'.toNat + 10)
  else none

/-- The code unit that four hex digits give. -/
def codeUnit? (a b c d : Char) : Option Nat := do
  let a ← hexDigit? a
  let b ← hexDigit? b
  let c ← hexDigit? c
  let d ← hexDigit? d
  return ((a * 16 + b) * 16 + c) * 16 + d

/-- The character that a one-letter escape stands for. -/
def escaped? : Char → Option Char
  | '"' => some '"'
  | '\\' => some '\\'
  | '/' => some '/'
  | 'b' => some '\x08'
  | 'f' => some '\x0C'
  | 'n' => some '\n'
  | 'r' => some '\r'
  | 't' => some '\t'
  | _ => none

/-- Reads the rest of a string after its opening quote, onto the text read so far (with a first
surrogate half still open): the string and what follows its closing quote. A control character
must be escaped. -/
def stringRest (text : Text.Str) (pending : Option Nat) :
    List Char → Option (Text.Str × List Char)
  | [] => none
  | '"' :: rest => some (Text.flushHalf text pending, rest)
  | '\\' :: 'u' :: a :: b :: c :: d :: rest =>
    match codeUnit? a b c d with
    | some code =>
      let (text, pending) := Text.pushCode text pending code
      stringRest text pending rest
    | none => none
  | '\\' :: e :: rest =>
    match escaped? e with
    | some c => stringRest ((Text.flushHalf text pending).pushChar c) none rest
    | none => none
  | c :: rest =>
    if c.toNat < 0x20 then none
    else stringRest ((Text.flushHalf text pending).pushChar c) none rest

/-- The number that a run of ASCII digits gives. -/
def digitsValue (ds : List Char) : Nat := ds.foldl (fun n c => n * 10 + (c.toNat - '0'.toNat)) 0

/-- Reads an exponent after its `e` or `E`: its sign and digits, and what follows them. -/
def exponentPart (cs : List Char) : Option (Int × List Char) :=
  let (negative, cs) := match cs with
    | '-' :: r => (true, r)
    | '+' :: r => (false, r)
    | r => (false, r)
  let (ds, rest) := cs.span Char.isDigit
  if ds.isEmpty then none
  else some (if negative then -(digitsValue ds : Int) else digitsValue ds, rest)

/-- Reads an exponent if one comes next: `e` or `E` and its part. -/
def optionalExponent : List Char → Option (Option Int × List Char)
  | e :: r =>
    if e == 'e' || e == 'E' then (exponentPart r).map fun (x, r) => (some x, r)
    else some (none, e :: r)
  | [] => some (none, [])

/-- Reads a number: an optional minus, an integer part without leading zeros, then an optional
fraction and an optional exponent. -/
def number? (cs : List Char) : Option (Json × List Char) := do
  let (negative, cs) := match cs with
    | '-' :: r => (true, r)
    | r => (false, r)
  let (whole, cs) := cs.span Char.isDigit
  if whole.isEmpty || (whole.length > 1 && whole.head? == some '0') then none
  let (fraction, cs) ← match cs with
    | '.' :: r =>
      let (f, r) := r.span Char.isDigit
      if f.isEmpty then none else some (some f, r)
    | r => some (none, r)
  let (exponent, cs) ← optionalExponent cs
  match fraction, exponent with
  | none, none =>
    let n : Int := digitsValue whole
    return (.int (if negative then -n else n), cs)
  | _, _ =>
    let f := fraction.getD []
    let mantissa := digitsValue (whole ++ f)
    let scale := exponent.getD 0 - f.length
    return (.float (Number.Decimal.toFloat ⟨negative, mantissa, scale⟩), cs)

mutual

/-- Reads one value after any blanks, and gives what follows it. -/
def readValue : Nat → List Char → Option (Json × List Char)
  | 0, _ => none
  | fuel + 1, cs =>
    match dropBlanks cs with
    | 'n' :: 'u' :: 'l' :: 'l' :: rest => some (.null, rest)
    | 't' :: 'r' :: 'u' :: 'e' :: rest => some (.bool true, rest)
    | 'f' :: 'a' :: 'l' :: 's' :: 'e' :: rest => some (.bool false, rest)
    | '"' :: rest => (stringRest default none rest).map fun (s, r) => (.str s, r)
    | '[' :: rest =>
      match dropBlanks rest with
      | ']' :: r => some (.arr [], r)
      | _ => readItems fuel [] rest
    | '{' :: rest =>
      match dropBlanks rest with
      | '}' :: r => some (.obj [], r)
      | _ => readMembers fuel [] rest
    | other => number? other

/-- Reads the items of an array after its opening bracket, onto the items read so far (last
first), up to and including the closing bracket. -/
def readItems : Nat → List Json → List Char → Option (Json × List Char)
  | 0, _, _ => none
  | fuel + 1, done, cs => do
    let (v, rest) ← readValue fuel cs
    match dropBlanks rest with
    | ',' :: r => readItems fuel (v :: done) r
    | ']' :: r => some (.arr (v :: done).reverse, r)
    | _ => none

/-- Reads the members of an object after its opening brace, onto the members read so far (last
first), up to and including the closing brace. -/
def readMembers : Nat → List (Text.Str × Json) → List Char → Option (Json × List Char)
  | 0, _, _ => none
  | fuel + 1, done, cs =>
    match dropBlanks cs with
    | '"' :: rest => do
      let (k, rest) ← stringRest default none rest
      match dropBlanks rest with
      | ':' :: rest => do
        let (v, rest) ← readValue fuel rest
        match dropBlanks rest with
        | ',' :: r => readMembers fuel ((k, v) :: done) r
        | '}' :: r => some (.obj ((k, v) :: done).reverse, r)
        | _ => none
      | _ => none
    | _ => none

end

/-- The value a JSON text holds, if it holds exactly one. -/
def read? (s : String) : Option Json :=
  let cs := s.toList
  match readValue (2 * cs.length + 1) cs with
  | some (v, rest) => if (dropBlanks rest).isEmpty then some v else none
  | none => none

end StageTree.Json
