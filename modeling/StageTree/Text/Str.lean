/-!
# Texts of code points

A text as documents hold it is a sequence of code points, each a character or a surrogate half
standing on its own. No `Char` is a half, but an escape in a double-quoted YAML scalar or in a
JSON string can name one, and the text keeps it as it is: two halves in a row stay two code
points unless the reader joins them. Every `String` is such a text, one without halves; a text
is written back as a `String` with each half made the replacement character U+FFFD, which
changes nothing for a text without halves.
-/

namespace StageTree.Text

/-- A code point of a text: a character, or a surrogate half on its own, given by its place
after U+D800. -/
inductive Code where
  | char (c : Char)
  | half (offset : Fin 0x800)
deriving DecidableEq, Inhabited, Repr

/-- The number of a code point. -/
def Code.toNat : Code → Nat
  | .char c => c.toNat
  | .half o => 0xD800 + o.val

/-- The code point of a number: a half for a surrogate, else the character of that number. -/
def Code.ofNat (n : Nat) : Code :=
  if h : 0xD800 ≤ n ∧ n < 0xE000 then .half ⟨n - 0xD800, by omega⟩ else .char (Char.ofNat n)

/-- The character a code point stands for in a `String`: a half stands as U+FFFD. -/
def Code.toChar : Code → Char
  | .char c => c
  | .half _ => '�'

/-- A text of code points. -/
structure Str where
  codes : Array Code
deriving DecidableEq, Inhabited, Repr

namespace Str

/-- The text of a `String`. -/
def ofString (s : String) : Str := ⟨(s.toList.map Code.char).toArray⟩

instance : Coe String Str := ⟨ofString⟩

instance : Append Str := ⟨fun a b => ⟨a.codes ++ b.codes⟩⟩

/-- The text with a code point added at its end. -/
def push (s : Str) (c : Code) : Str := ⟨s.codes.push c⟩

/-- The text with a character added at its end. -/
def pushChar (s : Str) (c : Char) : Str := s.push (.char c)

/-- Whether a text is empty. -/
def isEmpty (s : Str) : Bool := s.codes.isEmpty

/-- The code points of a text, in order. -/
def toList (s : Str) : List Code := s.codes.toList

/-- The text as a `String`, each half made U+FFFD. -/
def toString (s : Str) : String := String.ofList (s.toList.map Code.toChar)

/-- Whether a text holds a surrogate half. -/
def hasHalf (s : Str) : Bool := s.codes.any fun | .half _ => true | .char _ => false

end Str

/-- The code point of a number is that number, for every number below the end of Unicode: a
surrogate becomes a half at its place, any other a character. -/
theorem Code.toNat_ofNat {n : Nat} (h : n < 0x110000) : (Code.ofNat n).toNat = n := by
  unfold Code.ofNat
  split
  · simp only [Code.toNat]; omega
  · rename_i hn
    simp only [Code.toNat]
    rw [Char.ofNat, dif_pos (by unfold Nat.isValidChar; omega)]
    rfl

/-- A `String` read as a text and written back is itself. -/
theorem Str.toString_ofString (s : String) : (Str.ofString s).toString = s := by
  simp [Str.toString, Str.ofString, Str.toList, Function.comp_def, Code.toChar]

end StageTree.Text
