import StageTree.Number.Read
import StageTree.Text.Case
import StageTree.Yaml.Error
import StageTree.Yaml.Resolve

/-!
# Values of tagged scalars

A scalar's tag decides the value its text stands for: null, a truth value, an integer, a double
or a string. Null takes any text. A truth value is one of `yes`, `no`, `true`, `false`, `on`,
`off` in any case; another text is a fault. Integers and doubles drop their underscores and read
a sign, then the forms of YAML 1.1: `0b…`, `0x…`, octal `0…`, base 60 and decimal for integers,
`.inf`, `.nan`, base 60 and decimal for doubles; an empty text is a fault, and a text that none of
the forms reads stays a string. A base-60 double with a place value too large for a double is a
fault. A timestamp that is no date is a fault. Any other tag keeps the
text as a string.
-/

namespace StageTree.Yaml

/-- The value a scalar stands for. -/
inductive Scalar where
  | null
  | bool (b : Bool)
  | int (i : Int)
  | float (x : Float)
  | str (s : Text.Str)
deriving Inhabited

namespace Scalar

/-- The truth value a text names, after lowering its case. -/
def truthOf (lowered : String) : Option Bool :=
  if lowered == "yes" || lowered == "true" || lowered == "on" then some true
  else if lowered == "no" || lowered == "false" || lowered == "off" then some false
  else none

/-- The text without underscores. -/
def dropUnderscores (s : String) : List Char := s.toList.filter (· != '_')

/-- A sign in front, as a factor, and the rest. -/
def takeSign (cs : List Char) : Int × List Char :=
  match cs with
  | '-' :: rest => (-1, rest)
  | '+' :: rest => (1, rest)
  | _ => (1, cs)

/-- The parts between colons. -/
def colonParts (cs : List Char) : List String := (cs.splitOn ':').map String.ofList

/-- The sum of base-60 digits given most significant first. -/
def sexagesimal (digits : List Int) : Int := digits.foldl (fun acc d => acc * 60 + d) 0

/-- The integer an integer-tagged text stands for; an unreadable text stays a string. -/
def ofIntText (text : Text.Str) : Except Fault Scalar := do
  let cs := dropUnderscores text.toString
  if cs.isEmpty then throw .emptyNumber
  let (sign, body) := takeSign cs
  let keep : Option Int → Scalar := fun
    | some v => .int (sign * v)
    | none => .str text
  match body with
  | ['0'] => return .int 0
  | '0' :: 'b' :: rest => return keep (Number.readInt 2 (String.ofList rest))
  | '0' :: 'x' :: rest => return keep (Number.readInt 16 (String.ofList rest))
  | [] => throw .emptyNumber
  | '0' :: _ => return keep (Number.readInt 8 (String.ofList body))
  | _ =>
    if body.contains ':' then
      let parts := (colonParts body).map (Number.readInt 10)
      return keep ((parts.mapM id).map sexagesimal)
    else return keep (Number.readInt 10 (String.ofList body))

/-- The double with the sign of a factor applied. -/
def signed (sign : Int) (x : Float) : Float := if sign < 0 then -x else x

/-- Whether a whole number is too large for a double: it rounds to past the largest one. -/
def overflowsDouble (n : Nat) : Bool := n ≥ Nat.pow 2 1024 - Nat.pow 2 970

/-- The double of base-60 digits given most significant first. Each digit is scaled by its
place value, a whole number that is made a double first: a fault when it is too large. -/
def sexagesimalFloat (digits : List Float) : Except Fault Float :=
  if overflowsDouble (Nat.pow 60 (digits.length - 1)) then .error .placeOverflow
  else
    let (value, _) := digits.reverse.foldl
      (fun (acc : Float × Nat) d => (acc.1 + d * Float.ofNat acc.2, acc.2 * 60)) (0.0, 1)
    .ok value

/-- The double a float-tagged text stands for; an unreadable text stays a string. -/
def ofFloatText (text : Text.Str) : Except Fault Scalar := do
  let cs := (Text.lower (String.ofList (dropUnderscores text.toString))).toList
  if cs.isEmpty then throw .emptyNumber
  let (sign, body) := takeSign cs
  let keep : Option Float → Scalar := fun
    | some x => .float (signed sign x)
    | none => .str text
  if body == ".inf".toList then return .float (signed sign (1.0 / 0.0))
  else if body == ".nan".toList then return .float (0.0 / 0.0)
  else if body.contains ':' then
    match (colonParts body).mapM Number.readFloat with
    | some digits => return .float (signed sign (← sexagesimalFloat digits))
    | none => return .str text
  else return keep (Number.readFloat (String.ofList body))

/-- Whether a text is a date with an optional time, as a timestamp tag asks. -/
def isDate (text : String) : Bool :=
  Resolve.matchesWhole (fun s =>
    match Resolve.takeDigits 4 s >>= Resolve.takeChar '-' >>= Resolve.takeOneOrTwo >>=
        Resolve.takeChar '-' >>= Resolve.takeOneOrTwo with
    | some [] => true
    | some rest => Resolve.isTimePart rest
    | none => false) text.toList

/-- The value of a scalar with tag `tag` and text `text`. -/
def ofTagged (tag : String) (text : Text.Str) : Except Fault Scalar :=
  if tag == Resolve.nullTag then .ok .null
  else if tag == Resolve.boolTag then
    let lowered := Text.lowerStr text
    match truthOf lowered.toString with
    | some b => .ok (.bool b)
    | none => .error (.unknownTruth lowered)
  else if tag == Resolve.intTag then ofIntText text
  else if tag == Resolve.floatTag then ofFloatText text
  else if tag == Resolve.timestampTag then
    if isDate text.toString then .ok (.str text) else .error .noDate
  else .ok (.str text)

end Scalar

end StageTree.Yaml
