import StageTree.Number.Text
import StageTree.Text.Blank
import StageTree.Text.Digit

/-!
# Reading numbers from text

The grammar of number literals in texts such as settings and tagged scalars. Blanks may surround
the number, a sign may lead it, and its digits may be those of any script. Single underscores may
stand between two digits (and after a base prefix). An integer in base 2, 8 or 16 may carry its
prefix `0b`, `0o` or `0x`, in either case; one in a base that is no power of two has at most
4300 digits. A decimal fraction has digits before or after its
point and an optional exponent; `inf`, `infinity` and `nan` in any case are read too.
-/

namespace StageTree.Number

open Text

/-- The value of a digit in `base`, for ASCII letters beyond nine and digits of any script. -/
def digitIn (base : Nat) (c : Char) : Option Nat :=
  let v := match digitValue? c with
    | some d => some d
    | none =>
      if 'a' ≤ c && c ≤ 'z' then some (c.toNat - 'a'.toNat + 10)
      else if 'A' ≤ c && c ≤ 'Z' then some (c.toNat - 'A'.toNat + 10)
      else none
  v.bind fun d => if d < base then some d else none

/-- Digits with single underscores between them; the value and whether the run was well
formed. A leading underscore is allowed when `leadingUnderscore` holds. -/
def digitRun (base : Nat) (leadingUnderscore : Bool) (cs : List Char) : Option Nat :=
  let rec go (acc : Nat) (seenDigit afterUnderscore : Bool) : List Char → Option Nat
    | [] => if seenDigit && !afterUnderscore then some acc else none
    | '_' :: rest =>
      if afterUnderscore || (!seenDigit && !leadingUnderscore) then none
      else go acc seenDigit true rest
    | c :: rest =>
      match digitIn base c with
      | some d => go (acc * base + d) true false rest
      | none => none
  go 0 false false cs

/-- A sign in front, if any, and the rest. -/
def splitSign (cs : List Char) : Bool × List Char :=
  match cs with
  | '-' :: rest => (true, rest)
  | '+' :: rest => (false, rest)
  | _ => (false, cs)

/-- The prefix letter of a base. -/
def prefixLetter (base : Nat) : Option Char :=
  if base == 2 then some 'b' else if base == 8 then some 'o' else if base == 16 then some 'x'
  else none

/-- Whether a base is a power of two, whose texts are read in linear time and have no limit. -/
def isBinaryBase (base : Nat) : Bool := [2, 4, 8, 16, 32].contains base

/-- Reads an integer in `base` (from 2 to 36). -/
def readInt (base : Nat) (s : String) : Option Int :=
  let (negative, body) := splitSign (trimBlanks s).toList
  if !isBinaryBase base && (body.filter (· != '_')).length > maxDigits then none else
  let value := match body, prefixLetter base with
    | '0' :: p :: rest, some letter =>
      if p.toLower == letter then digitRun base true rest else digitRun base false body
    | _, _ => digitRun base false body
  value.map fun v => if negative then -(v : Int) else v

/-- A decimal fraction read into its parts: digits as one number, the power of ten to scale it
by, and the sign. -/
structure Decimal where
  negative : Bool
  mantissa : Nat
  exponent : Int
deriving Repr

/-- What a float text stands for. -/
inductive FloatText where
  | finite (d : Decimal)
  | infinite (negative : Bool)
  | notANumber
deriving Repr

/-- The digits of a run with their count, underscores allowed between digits. -/
def fractionDigits (cs : List Char) : Option (Nat × Nat) :=
  if cs.isEmpty then some (0, 0)
  else (digitRun 10 false cs).map fun v => (v, (cs.filter (· != '_')).length)

/-- Reads a decimal fraction or a name of infinity or NaN. -/
def readFloatText (s : String) : Option FloatText :=
  let (negative, body) := splitSign (trimBlanks s).toList
  let word := String.ofList (body.map Char.toLower)
  if word == "inf" || word == "infinity" then some (.infinite negative)
  else if word == "nan" then some .notANumber
  else
    let (significand, exponentPart) := body.span fun c => c != 'e' && c != 'E'
    let (whole, fraction) := significand.span (· != '.')
    let fractionPart := fraction.drop 1
    let exponent : Option Int := match exponentPart with
      | [] => some 0
      | _ :: rest =>
        let (expNegative, expDigits) := splitSign rest
        (digitRun 10 false expDigits).map fun v => if expNegative then -(v : Int) else v
    match fractionDigits whole, fractionDigits fractionPart, exponent with
    | some (w, _), some (f, fn), some e =>
      if whole.isEmpty && fractionPart.isEmpty then none
      else some (.finite ⟨negative, w * Nat.pow 10 fn + f, e - fn⟩)
    | _, _, _ => none

/-- The double nearest to a decimal fraction, ties to even. -/
def Decimal.toFloat (d : Decimal) : Float :=
  let magnitude :=
    if d.exponent ≥ 0 then Float.ofScientific d.mantissa false d.exponent.toNat
    else Float.ofScientific d.mantissa true (-d.exponent).toNat
  if d.negative then -magnitude else magnitude

/-- Reads a float text into a double. -/
def readFloat (s : String) : Option Float :=
  (readFloatText s).map fun
    | .finite d => d.toFloat
    | .infinite negative => if negative then -(1.0 / 0.0) else 1.0 / 0.0
    | .notANumber => 0.0 / 0.0

end StageTree.Number
