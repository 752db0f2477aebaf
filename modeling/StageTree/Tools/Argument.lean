import StageTree.Raised
import StageTree.Text.Quoted

/-!
# Arguments of tool calls

A tool takes its arguments as the JSON values a caller sends, of any kind, and uses each the
way the server's own language would. A value counts as true unless it is null, false, zero or
empty. A path must be a string: any other value is a type error naming its kind. A coordinate or
depth is compared with an integer as a number (a truth value counts as `0` or `1`); comparing
any other value is a type error naming both kinds. A value shown in a message is written as a
string itself, and as its representation otherwise: `None`, `True` and `False`, numbers in their
shortest text, strings quoted, lists and objects with their items so written.
-/

namespace StageTree.Tools

/-- The name of a value's kind, as type errors give it. -/
def kindOf : Json → String
  | .null => "NoneType"
  | .bool _ => "bool"
  | .int _ => "int"
  | .float _ => "float"
  | .str _ => "str"
  | .arr _ => "list"
  | .obj _ => "dict"

/-- Whether a JSON value counts as true: anything but null, false, zero and empty values. -/
def truthy : Json → Bool
  | .null => false
  | .bool b => b
  | .int i => i != 0
  | .float x => x != 0
  | .str s => !s.isEmpty
  | .arr xs => !xs.isEmpty
  | .obj ms => !ms.isEmpty

mutual

/-- The representation of a value. -/
def reprOf : Json → String
  | .null => "None"
  | .bool b => if b then "True" else "False"
  | .int i => Number.intText i
  | .float x => Number.floatText x
  | .str s => Text.quoteStr s
  | .arr xs => "[" ++ reprItems xs ++ "]"
  | .obj ms => "\x7b" ++ reprMembers ms ++ "\x7d"

/-- The representations of list items, comma-separated. -/
def reprItems : List Json → String
  | [] => ""
  | [x] => reprOf x
  | x :: rest => reprOf x ++ ", " ++ reprItems rest

/-- The representations of object members, comma-separated. -/
def reprMembers : List (Text.Str × Json) → String
  | [] => ""
  | [(k, v)] => Text.quoteStr k ++ ": " ++ reprOf v
  | (k, v) :: rest => Text.quoteStr k ++ ": " ++ reprOf v ++ ", " ++ reprMembers rest

end

/-- The text of a value as a message shows it: a string itself, another value its
representation. -/
def shownText : Json → String
  | .str s => s.toString
  | v => reprOf v

/-- The text of a path argument; a value that is no string is refused. -/
def pathText : Json → Except Raised String
  | .str s => .ok s.toString
  | v => .error (.typeError ("expected str, bytes or os.PathLike object, not " ++ kindOf v))

/-- A number as an argument gives it: an integer or a double. -/
inductive Numeric where
  | whole (i : Int)
  | real (x : Float)
deriving Inhabited

/-- The number a value stands for: integers and doubles, and truth values as `0` and `1`. -/
def numericOf? : Json → Option Numeric
  | .bool b => some (.whole (if b then 1 else 0))
  | .int i => some (.whole i)
  | .float x => some (.real x)
  | _ => none

/-- Whether a number is below an integer. -/
def Numeric.below (x : Numeric) (n : Int) : Bool :=
  match x with
  | .whole i => i < n
  | .real r => r < Float.ofInt n

/-- Whether a number is at least an integer. -/
def Numeric.atLeast (x : Numeric) (n : Int) : Bool :=
  match x with
  | .whole i => n ≤ i
  | .real r => Float.ofInt n ≤ r

/-- The type error of comparing values of two kinds with `op`. -/
def comparisonError (op left right : String) : Raised :=
  .typeError ("\x27" ++ op ++ "\x27 not supported between instances of \x27" ++ left ++
    "\x27 and \x27" ++ right ++ "\x27")

/-- The number of a value compared with an integer by `op`; a value that is no number is
refused. -/
def comparedNumber (op : String) (v : Json) : Except Raised Numeric :=
  match numericOf? v with
  | some x => .ok x
  | none => .error (comparisonError op (kindOf v) "int")

/-- A value is no path unless it is a string. -/
theorem pathText_refuses (n : Int) :
    pathText (.int n) = .error (.typeError "expected str, bytes or os.PathLike object, not int") :=
  rfl

end StageTree.Tools
