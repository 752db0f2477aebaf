/-!
# Blank characters

The characters that trimming removes and that may surround a number: the ASCII tab, line feed,
vertical tab, form feed and carriage return, the four information separators `\x1C` to `\x1F`,
the space, next line, no-break space, and the Unicode space separators, line separator and
paragraph separator.
-/

namespace StageTree.Text

/-- The code points of the blank characters. -/
def blankCodes : List Nat :=
  [0x09, 0x0A, 0x0B, 0x0C, 0x0D, 0x1C, 0x1D, 0x1E, 0x1F, 0x20, 0x85, 0xA0, 0x1680,
   0x2000, 0x2001, 0x2002, 0x2003, 0x2004, 0x2005, 0x2006, 0x2007, 0x2008, 0x2009, 0x200A,
   0x2028, 0x2029, 0x202F, 0x205F, 0x3000]

/-- Whether a character is blank. -/
def isBlank (c : Char) : Bool := blankCodes.contains c.toNat

/-- Characters without their leading and trailing blanks. -/
def trimBlankChars (cs : List Char) : List Char :=
  ((cs.dropWhile isBlank).reverse.dropWhile isBlank).reverse

/-- A text without its leading and trailing blanks. -/
def trimBlanks (s : String) : String := String.ofList (trimBlankChars s.toList)

/-- A text without its leading blanks. -/
def trimLeadingBlanks (s : String) : String := String.ofList (s.toList.dropWhile isBlank)

/-- Dropping a leading run leaves a list alone when its first element does not start one. -/
theorem dropWhile_eq_self_of_head {α : Type} {p : α → Bool} {l : List α}
    (h : ∀ c ∈ l.head?, p c = false) : l.dropWhile p = l := by
  cases l with
  | nil => rfl
  | cons a as => exact List.dropWhile_cons_of_neg (by simp [h a rfl])

/-- Characters that neither start nor end with a blank are their own trimming. -/
theorem trimBlankChars_of_ends {cs : List Char} (hStart : ∀ c ∈ cs.head?, isBlank c = false)
    (hEnd : ∀ c ∈ cs.getLast?, isBlank c = false) : trimBlankChars cs = cs := by
  have hEnd' : ∀ c ∈ cs.reverse.head?, isBlank c = false := by
    rw [List.head?_reverse]; exact hEnd
  rw [trimBlankChars, dropWhile_eq_self_of_head hStart, dropWhile_eq_self_of_head hEnd',
    List.reverse_reverse]

/-- Every ASCII whitespace character is blank. -/
theorem isBlank_of_isWhitespace (c : Char) (h : c.isWhitespace = true) : isBlank c = true := by
  simp only [Char.isWhitespace, Bool.or_eq_true, decide_eq_true_eq] at h
  rcases h with ((h | h) | h) | h <;> simp [isBlank, blankCodes, h]

end StageTree.Text
