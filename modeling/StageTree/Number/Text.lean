import StageTree.Number.Shortest

/-!
# The text of a number

Integers are written in decimal with a leading `-` when negative. A double is written with the
fewest significant digits that read back as it. Positional notation is used when the decimal
point falls within four places before the first digit and sixteen after it; a whole number then
keeps `.0`. Otherwise the digits are written with one before the point and an exponent of at
least two digits with its sign. Zero keeps its sign; the infinities and NaN have names, which the
record `FloatFormat` fixes along with the positional range. An integer of more than 4300
decimal digits is too long to write, as one of more digits is too long to read.
-/

namespace StageTree.Number

/-- The choices that fix how a double is written. -/
structure FloatFormat where
  /-- Positional notation for a decimal point position `decpt` (the value is `0.d₁d₂… · 10^decpt`)
  with `lowest < decpt ≤ highest`. -/
  lowest : Int
  highest : Int
  infinity : String
  notANumber : String

/-- The format of a double in messages and outlines: positional between `1e-4` and `1e16`,
`inf` and `nan` for the special values. -/
def FloatFormat.display : FloatFormat := ⟨-4, 16, "inf", "nan"⟩

/-- The format of a double inside JSON: as for display, with `Infinity` and `NaN`. -/
def FloatFormat.json : FloatFormat := ⟨-4, 16, "Infinity", "NaN"⟩

/-- The decimal digits of a natural number. -/
def natText (n : Nat) : String := String.ofList (Nat.toDigits 10 n)

/-- The decimal text of an integer. -/
def intText (i : Int) : String :=
  if i < 0 then "-" ++ natText i.natAbs else natText i.natAbs

/-- The most digits an integer's text may have when it is read in a base that is no power of
two, or written in decimal: converting more would take time quadratic in the length, so such a
text is refused. -/
def maxDigits : Nat := 4300

/-- Whether an integer's decimal text has at most `maxDigits` digits, its sign aside. -/
def intWritable (i : Int) : Bool := i.natAbs < Nat.pow 10 maxDigits

/-- The message of an integer whose decimal text would be too long to write. -/
def intTooLongMessage : String :=
  "Exceeds the limit (" ++ toString maxDigits ++ " digits) for integer string conversion; " ++
    "use sys.set_int_max_str_digits() to increase the limit"

/-- The message of a decimal text with too many digits to read, given its count of digits. -/
def textTooLongMessage (digits : Nat) : String :=
  "Exceeds the limit (" ++ toString maxDigits ++ " digits) for integer string conversion: " ++
    "value has " ++ toString digits ++ " digits; use sys.set_int_max_str_digits() to increase " ++
    "the limit"

/-- Writes digits `ds` with the decimal point at `decpt`, in the format `f`. -/
def placeDigits (f : FloatFormat) (ds : String) (decpt : Int) : String :=
  let n := (ds.length : Int)
  if f.lowest < decpt && decpt ≤ f.highest then
    if decpt ≤ 0 then
      "0." ++ String.ofList (List.replicate (-decpt).toNat '0') ++ ds
    else if decpt ≥ n then
      ds ++ String.ofList (List.replicate (decpt - n).toNat '0') ++ ".0"
    else
      String.ofList (ds.toList.take decpt.toNat) ++ "." ++
        String.ofList (ds.toList.drop decpt.toNat)
  else
    let e := decpt - 1
    let mantissa := match ds.toList with
      | [] => "0"
      | [d] => d.toString
      | d :: rest => d.toString ++ "." ++ String.ofList rest
    let expDigits := natText e.natAbs
    mantissa ++ "e" ++ (if e < 0 then "-" else "+") ++
      (if expDigits.length < 2 then "0" ++ expDigits else expDigits)

/-- The text of a double in the format `f`. -/
def floatTextIn (f : FloatFormat) (x : Float) : String :=
  let bits := x.toBits
  let negative := bits >>> 63 == 1
  let sign := if negative then "-" else ""
  let biased := ((bits >>> 52) &&& 0x7FF).toNat
  let fraction := (bits &&& 0xFFFFFFFFFFFFF).toNat
  if biased == 0x7FF then
    if fraction != 0 then f.notANumber else sign ++ f.infinity
  else if biased == 0 && fraction == 0 then sign ++ "0.0"
  else
    let (d, p) := shortest (Binary.ofBits bits)
    let (d, p) := dropTrailingZeros d p 20
    let ds := natText d
    sign ++ placeDigits f ds ((ds.length : Int) + p)

/-- The display text of a double. -/
def floatText (x : Float) : String := floatTextIn .display x

end StageTree.Number
