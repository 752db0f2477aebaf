/-!
# Bracket classes in expression text

An ignore pattern is compiled by way of the text of a regular expression, and compiling is where
a bracket class can fail. Outside a class the text spells a character as itself, with a
backslash before each character that has a meaning of its own there (and before blanks). A class
is spelled `[`, then `^` when it is negated, then its items, then `]`.
An item is a character, a backslash spelled twice so that it stands for itself.

Compiling reads a class item by item: two items with a `-` between them are a range, and a `-`
just before the closing bracket stands for itself. The first item may be `]`; any later `]`
closes the class, and what follows is read as expression text again. A range whose last
character comes before its first is refused, with the offset of its first item in the text.
-/

namespace StageTree.Ignore

/-- How expression text spells a character outside a class. -/
def escapeChar (c : Char) : String :=
  if "()[]\x7b\x7d?*+-|^$\\.&~# \t\n\r\x0B\x0C".toList.contains c then "\\" ++ c.toString
  else c.toString

/-- An item of a class: its character and how the class text spells it. -/
structure ClassItem where
  char : Char
  spelling : String

/-- A character of a class as its text spells it: a backslash twice, any other as itself. -/
def ClassItem.ofChar (c : Char) : ClassItem := ⟨c, if c == '\\' then "\\\\" else c.toString⟩

/-- Whether an item is a bracket that can close a class. -/
def ClassItem.closes (i : ClassItem) : Bool := i.spelling == "]"

/-- Whether an item is a dash that can join a range. -/
def ClassItem.joins (i : ClassItem) : Bool := i.spelling == "-"

/-- The text of items. -/
def spellItems (items : List ClassItem) : String := String.join (items.map (·.spelling))

/-- Reads a class's items after its opening, as compiling does. Gives the members (each a range
of characters) and, when a bracket closed the class before its last item, the items after that
bracket; or else the spelling and offset of a range whose last character comes before its
first. `seen` tells whether a member came before; `offset` is where the next item stands in the
text. -/
def readClass (seen : Bool) (offset : Nat) :
    List ClassItem → Except (String × Nat) (List (Char × Char) × Option (List ClassItem))
  | [] => .ok ([], none)
  | a :: rest =>
    if a.closes && seen then .ok ([], some rest)
    else match rest with
      | d :: b :: more =>
        if d.joins then
          if b.closes then .ok ([(a.char, a.char), ('-', '-')], some more)
          else if b.char < a.char then
            .error ("bad character range " ++ a.spelling ++ "-" ++ b.spelling, offset)
          else
            (readClass true (offset + a.spelling.length + 1 + b.spelling.length) more).map
              fun (ms, after) => ((a.char, b.char) :: ms, after)
        else
          (readClass true (offset + a.spelling.length) (d :: b :: more)).map
            fun (ms, after) => ((a.char, a.char) :: ms, after)
      | [d] =>
        if d.joins then .ok ([(a.char, a.char), ('-', '-')], none)
        else
          (readClass true (offset + a.spelling.length) [d]).map
            fun (ms, after) => ((a.char, a.char) :: ms, after)
      | [] => .ok ([(a.char, a.char)], none)
termination_by items => items.length

/-- The message of a range refused at `position` of the expression text `text`: the line and
column are added when the text has more than one line. -/
def badRangeMessage (text : String) (range : String) (position : Nat) : String :=
  let before := text.toList.take position
  let line := before.count '\n' + 1
  let column := match (before.reverse.findIdx? (· == '\n')) with
    | some back => back + 1
    | none => position + 1
  let base := range ++ " at position " ++ toString position
  if text.toList.contains '\n' then
    base ++ " (line " ++ toString line ++ ", column " ++ toString column ++ ")"
  else base

/-- A range is refused at its first item. -/
theorem readClass_refuses (a b : ClassItem) (offset : Nat) (ha : a.closes = false)
    (hb : b.closes = false) (order : b.char < a.char) :
    readClass false offset [a, ⟨'-', "-"⟩, b] =
      .error ("bad character range " ++ a.spelling ++ "-" ++ b.spelling, offset) := by
  simp [readClass, ha, hb, order, ClassItem.joins]

end StageTree.Ignore
