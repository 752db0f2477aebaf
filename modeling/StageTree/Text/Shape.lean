/-!
# Shapes of text

A shape is a sequence of pieces, each one character of a class or a run of at least some number
of characters of a class; a pattern adds optional groups of pieces. Matching tries every way to
split the text among the pieces, so a run takes as many characters as the rest of the shape
allows, and a group is either matched or skipped. A match of the start of a text hands what
is left to a continuation, which decides whether the whole match stands.
-/

namespace StageTree.Text

/-- A piece of a shape: one character of a class, or a run of at least `least` of them. -/
inductive Piece where
  | one (ok : Char → Bool)
  | run (least : Nat) (ok : Char → Bool)

/-- A part of a pattern: a piece, or a group of pieces that may be skipped. -/
inductive Part where
  | piece (p : Piece)
  | optional (group : List Piece)

/-- The pieces of a literal text. -/
def literal (s : String) : List Piece := s.toList.map fun c => .one (· == c)

/-- Whether a run of at least `least` characters of a class, then `next` on the rest, matches
the start of `cs`. -/
def runThen (least : Nat) (ok : Char → Bool) (next : List Char → Bool) : List Char → Bool
  | [] => least == 0 && next []
  | c :: cs => (least == 0 && next (c :: cs)) || (ok c && runThen (least - 1) ok next cs)

/-- Whether pieces match the start of `cs` with `next` holding of the rest. -/
def piecesThen : List Piece → List Char → (List Char → Bool) → Bool
  | [], cs, next => next cs
  | .one ok :: rest, c :: cs, next => ok c && piecesThen rest cs next
  | .one _ :: _, [], _ => false
  | .run least ok :: rest, cs, next => runThen least ok (fun r => piecesThen rest r next) cs

/-- Whether parts match the start of `cs` with `next` holding of the rest. -/
def partsThen : List Part → List Char → (List Char → Bool) → Bool
  | [], cs, next => next cs
  | .piece p :: rest, cs, next => piecesThen [p] cs fun r => partsThen rest r next
  | .optional g :: rest, cs, next =>
    piecesThen g cs (fun r => partsThen rest r next) || partsThen rest cs next

/-- Whether a test holds of some suffix of a list, the list itself and the empty one included. -/
def anySuffix (f : List Char → Bool) : List Char → Bool
  | [] => f []
  | c :: cs => f (c :: cs) || anySuffix f cs

/-- Whether pieces match somewhere in a text. -/
def occursIn (pieces : List Piece) (cs : List Char) : Bool :=
  anySuffix (fun s => piecesThen pieces s fun _ => true) cs

end StageTree.Text
