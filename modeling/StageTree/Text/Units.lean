import StageTree.Text.Str

/-!
# Text from UTF-16 code units

An escape may give a character as UTF-16 code units instead of a code point. A first (high)
surrogate half followed at once by a second (low) one make the one character they encode, the
way escaped JSON text reads back. A half without its partner stays in the text as a half.

Text is assembled as the text so far together with a first half still waiting for its second.
-/

namespace StageTree.Text

/-- Whether a code is the first half of a surrogate pair. -/
def isHighSurrogate (code : Nat) : Bool := 0xD800 ≤ code && code < 0xDC00

/-- Whether a code is the second half of a surrogate pair. -/
def isLowSurrogate (code : Nat) : Bool := 0xDC00 ≤ code && code < 0xE000

/-- The code point a pair of surrogate halves encodes. -/
def combineSurrogates (high low : Nat) : Nat := 0x10000 + (high - 0xD800) * 0x400 + (low - 0xDC00)

/-- The text with a first half that found no second half: it stays as a half. -/
def flushHalf (text : Str) (pending : Option Nat) : Str :=
  match pending with
  | some high => text.push (Code.ofNat high)
  | none => text

/-- Adds a code (a code point or a surrogate half) to the text, given the first half that the
code before it left open. Two halves next to each other make one character; a first half
waits for its second. -/
def pushCode (text : Str) (pending : Option Nat) (code : Nat) : Str × Option Nat :=
  match pending with
  | some high =>
    if isLowSurrogate code then (text.pushChar (Char.ofNat (combineSurrogates high code)), none)
    else pushCode.fresh (flushHalf text pending) code
  | none => pushCode.fresh text code
where
  /-- Adds a code with no half open before it. -/
  fresh (text : Str) (code : Nat) : Str × Option Nat :=
    if isHighSurrogate code then (text, some code)
    else (text.push (Code.ofNat code), none)

/-- A pair of halves makes the character of their combined code point. -/
theorem pushCode_pair (text : Str) (high low : Nat) (h : isLowSurrogate low = true) :
    pushCode text (some high) low =
      (text.pushChar (Char.ofNat (combineSurrogates high low)), none) := by
  simp [pushCode, h]

/-- A first half is held back, not written. -/
theorem pushCode_fresh_high (text : Str) (high : Nat) (h : isHighSurrogate high = true) :
    pushCode text none high = (text, some high) := by
  simp [pushCode, pushCode.fresh, h]

end StageTree.Text
