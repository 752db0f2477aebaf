import StageTree.Text.Str
import StageTree.Text.Unicode.Cased
import StageTree.Text.Unicode.Lower

/-!
# Letter case

Lower case of texts by the Unicode tables: each character lowers on its own, but a capital sigma
that ends a word lowers to the final `ς`. Upper case for the letters of the Latin, Greek and
Cyrillic alphabets and the few signs whose upper-case forms are ASCII letters: the dotless
small i and the long s raise to `I` and `S`, and sharp s and the Latin ligatures raise to two or
three capitals. Other characters keep their case.
-/

namespace StageTree.Text

/-- The lower-case form of one character on its own; the capital sigma lowers to `σ` here. -/
def lowerChar (c : Char) : List Char :=
  if c.toNat == 0x130 then ['i', Char.ofNat 0x307]
  else match Unicode.lowerCode c.toNat with
    | some n => [Char.ofNat n]
    | none => if c.toNat == 0x3A3 then [Char.ofNat 0x3C3] else [c]

/-- Whether a code point is case-ignorable; a half is not. -/
def Code.isCaseIgnorable : Code → Bool
  | .char c => Unicode.isCaseIgnorable c
  | .half _ => false

/-- Whether a code point that is not case-ignorable is cased; a half is not. -/
def Code.isCased : Code → Bool
  | .char c => Unicode.isCased c
  | .half _ => false

/-- Whether a capital sigma between the code points `before` (nearest first) and `after` ends a
word: past the case-ignorable ones, a cased one comes before it and none after. -/
def endsWord (before after : List Code) : Bool :=
  (match before.dropWhile Code.isCaseIgnorable with
    | c :: _ => c.isCased
    | [] => false) &&
  (match after.dropWhile Code.isCaseIgnorable with
    | c :: _ => !c.isCased
    | [] => true)

/-- The lower-case forms of code points, the ones before them given nearest first; a half stays
as it is. -/
def lowerFrom (before : List Code) : List Code → List Code
  | [] => []
  | c :: rest =>
    let lowered := match c with
      | .char ch =>
        (if ch.toNat == 0x3A3 && endsWord before rest then [Char.ofNat 0x3C2]
          else lowerChar ch).map Code.char
      | .half o => [.half o]
    lowered ++ lowerFrom (c :: before) rest

/-- The upper-case form of one character. -/
def upperChar (c : Char) : List Char :=
  let n := c.toNat
  if 'a' ≤ c && c ≤ 'z' then [Char.ofNat (n - 32)]
  else if n < 0xDF then (if n == 0xB5 then [Char.ofNat 0x39C] else [c])
  else if n == 0xDF then ['S', 'S']
  else if 0xE0 ≤ n && n ≤ 0xFE && n != 0xF7 then [Char.ofNat (n - 32)]
  else if n == 0xFF then [Char.ofNat 0x178]
  else if n == 0x131 then ['I']
  else if n == 0x17F then ['S']
  else if 0x100 ≤ n && n ≤ 0x17E then
    let evenUpper := (n ≤ 0x12F) || (0x132 ≤ n && n ≤ 0x137) || (0x14A ≤ n && n ≤ 0x177)
    let oddUpper := (0x139 ≤ n && n ≤ 0x148) || (0x179 ≤ n && n ≤ 0x17E)
    if (evenUpper && n % 2 == 1) || (oddUpper && n % 2 == 0) then [Char.ofNat (n - 1)] else [c]
  else if n == 0x3C2 then [Char.ofNat 0x3A3]
  else if 0x3B1 ≤ n && n ≤ 0x3C9 then [Char.ofNat (n - 32)]
  else if 0x430 ≤ n && n ≤ 0x44F then [Char.ofNat (n - 32)]
  else if 0x450 ≤ n && n ≤ 0x45F then [Char.ofNat (n - 80)]
  else if n == 0xFB00 then ['F', 'F']
  else if n == 0xFB01 then ['F', 'I']
  else if n == 0xFB02 then ['F', 'L']
  else if n == 0xFB03 then ['F', 'F', 'I']
  else if n == 0xFB04 then ['F', 'F', 'L']
  else if n == 0xFB05 || n == 0xFB06 then ['S', 'T']
  else [c]

/-- The lower-case form of a text of code points. -/
def lowerStr (s : Str) : Str := ⟨(lowerFrom [] s.toList).toArray⟩

/-- The lower-case form of a text. -/
def lower (s : String) : String := (lowerStr s).toString

/-- The upper-case form of a text. -/
def upper (s : String) : String := String.ofList (s.toList.flatMap upperChar)

end StageTree.Text
