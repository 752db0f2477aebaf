import StageTree.Yaml.Chars

/-!
# Implicit tags of YAML 1.1 scalars

A plain scalar without a tag gets one from its text, by the first rule of this list that matches,
among those for its first character: boolean (`yes`, `no`, `true`, `false`, `on`, `off` in three
spellings each), float, integer, merge key `<<`, null (`~`, `null` in three spellings, or the
empty text), timestamp and the value key `=`. Any other text is a string. A rule matches the
whole text, or the text less one line feed at its end.

Integers are binary `0b…`, octal `0…`, decimal, hex `0x…` or base 60 (`1:30`), with underscores
among the digits. Floats have a point and, if any, an exponent with a sign; base 60 with a point,
`.inf` and `.nan` are floats too.
-/

namespace StageTree.Yaml.Resolve

/-- The tag of strings. -/
def strTag : String := "tag:yaml.org,2002:str"
/-- The tag of null. -/
def nullTag : String := "tag:yaml.org,2002:null"
/-- The tag of booleans. -/
def boolTag : String := "tag:yaml.org,2002:bool"
/-- The tag of integers. -/
def intTag : String := "tag:yaml.org,2002:int"
/-- The tag of floats. -/
def floatTag : String := "tag:yaml.org,2002:float"
/-- The tag of merge keys. -/
def mergeTag : String := "tag:yaml.org,2002:merge"
/-- The tag of timestamps. -/
def timestampTag : String := "tag:yaml.org,2002:timestamp"
/-- The tag of value keys. -/
def valueTag : String := "tag:yaml.org,2002:value"

/-- An ASCII digit. -/
def isDigit (c : Char) : Bool := '0' ≤ c && c ≤ '9'

/-- A sign, if the list starts with one, dropped. -/
def dropSign : List Char → List Char
  | '-' :: rest => rest
  | '+' :: rest => rest
  | cs => cs

/-- All characters satisfy `p` (an empty list does too). -/
def allOf (p : Char → Bool) (cs : List Char) : Bool := cs.all p

/-- A digit or an underscore. -/
def isDigitOrUnderscore (c : Char) : Bool := isDigit c || c == '_'

/-- `[0-9][0-9_]*`. -/
def isDigitsUnderscored (cs : List Char) : Bool :=
  match cs with
  | c :: rest => isDigit c && allOf isDigitOrUnderscore rest
  | [] => false

/-- `[eE][-+][0-9]+`, or nothing. -/
def isOptExponent (cs : List Char) : Bool :=
  match cs with
  | [] => true
  | e :: s :: ds =>
    (e == 'e' || e == 'E') && (s == '-' || s == '+') && !ds.isEmpty && allOf isDigit ds
  | _ => false

/-- `(?::[0-5]?[0-9])+`: one or more sexagesimal groups, each a colon and one or two digits,
the first of two at most 5. -/
def isSexagesimalGroups (cs : List Char) : Bool :=
  match cs.splitOn ':' with
  | [] :: rest =>
    !rest.isEmpty && rest.all fun g => match g with
      | [d] => isDigit d
      | [a, b] => '0' ≤ a && a ≤ '5' && isDigit b
      | _ => false
  | _ => false

/-- The digits and underscores up to the first character that is neither. -/
def spanDigits (cs : List Char) : List Char × List Char := cs.span isDigitOrUnderscore

/-- `[1-9][0-9_]*` followed by sexagesimal groups, and what follows the groups. -/
def isBase60Int (cs : List Char) : Bool :=
  match cs with
  | c :: rest =>
    '1' ≤ c && c ≤ '9' &&
      let (_, tail) := spanDigits rest
      isSexagesimalGroups tail
  | [] => false

/-- Whether the text (sign dropped or not) is an integer of YAML 1.1. -/
def isInt (s : List Char) : Bool :=
  let body := dropSign s
  match body with
  | '0' :: 'b' :: rest => !rest.isEmpty && allOf (fun c => c == '0' || c == '1' || c == '_') rest
  | '0' :: 'x' :: rest =>
    !rest.isEmpty && allOf (fun c => isDigit c || ('a' ≤ c && c ≤ 'f') || ('A' ≤ c && c ≤ 'F') ||
      c == '_') rest
  | ['0'] => true
  | '0' :: rest => !rest.isEmpty && allOf (fun c => ('0' ≤ c && c ≤ '7') || c == '_') rest
  | c :: rest =>
    ('1' ≤ c && c ≤ '9' && allOf isDigitOrUnderscore rest) || isBase60Int body
  | [] => false

/-- Whether the text is a float of YAML 1.1. -/
def isFloat (s : List Char) : Bool :=
  let body := dropSign s
  let signed := body.length != s.length
  -- [-+]?[0-9][0-9_]*\.[0-9_]*(exp)?
  let positional :=
    match body with
    | c :: _ =>
      isDigit c &&
        let (whole, rest) := spanDigits body
        isDigitsUnderscored whole && match rest with
          | '.' :: after =>
            let (_, expPart) := spanDigits after
            isOptExponent expPart
          | _ => false
    | [] => false
  -- \.[0-9][0-9_]*(exp)?   (no sign)
  let pointFirst := !signed && match body with
    | '.' :: after =>
      let (digits, expPart) := spanDigits after
      isDigitsUnderscored digits && isOptExponent expPart
    | _ => false
  -- [-+]?[0-9][0-9_]*(:[0-5]?[0-9])+\.[0-9_]*
  let base60 :=
    match body with
    | c :: rest =>
      isDigit c &&
        let (_, tail) := spanDigits rest
        let (groups, frac) := tail.span (· != '.')
        isSexagesimalGroups groups && match frac with
          | '.' :: digits => allOf isDigitOrUnderscore digits
          | _ => false
    | [] => false
  let infinity := ["inf", "Inf", "INF"].any fun w => body == '.' :: w.toList
  let nan := !signed && ["nan", "NaN", "NAN"].any fun w => body == '.' :: w.toList
  positional || pointFirst || base60 || infinity || nan

/-- Whether the text is a boolean of YAML 1.1. -/
def isBool (s : List Char) : Bool :=
  ["yes", "Yes", "YES", "no", "No", "NO", "true", "True", "TRUE", "false", "False", "FALSE",
   "on", "On", "ON", "off", "Off", "OFF"].any fun w => s == w.toList

/-- Whether the text is a null of YAML 1.1. -/
def isNull (s : List Char) : Bool :=
  s.isEmpty || ["~", "null", "Null", "NULL"].any fun w => s == w.toList

/-- `[0-9]{n}` at the front; the rest. -/
def takeDigits : Nat → List Char → Option (List Char)
  | 0, cs => some cs
  | n + 1, c :: cs => if isDigit c then takeDigits n cs else none
  | _ + 1, [] => none

/-- One or two digits at the front; the rest. -/
def takeOneOrTwo (cs : List Char) : Option (List Char) :=
  match cs with
  | a :: b :: rest =>
    if isDigit a then (if isDigit b then some rest else some (b :: rest)) else none
  | [a] => if isDigit a then some [] else none
  | [] => none

/-- A literal character at the front; the rest. -/
def takeChar (c : Char) : List Char → Option (List Char)
  | d :: rest => if c == d then some rest else none
  | [] => none

/-- The end of a timestamp: nothing, or a time zone (`Z` or a signed offset) after optional
blanks. -/
def isZoneEnd (cs : List Char) : Bool :=
  cs.isEmpty ||
    match cs.dropWhile fun c => c == ' ' || c == '\t' with
    | ['Z'] => true
    | s :: rest =>
      (s == '-' || s == '+') && match takeOneOrTwo rest with
        | some [] => true
        | some (':' :: m) => takeDigits 2 m == some []
        | _ => false
    | [] => false

/-- The time of a timestamp after its date: `T` or blanks, hours, minutes, seconds, a fraction
and a zone. -/
def isTimePart (cs : List Char) : Bool :=
  let afterSep := match cs with
    | 'T' :: rest => some rest
    | 't' :: rest => some rest
    | c :: rest =>
      if c == ' ' || c == '\t' then some (rest.dropWhile fun c => c == ' ' || c == '\t')
      else none
    | [] => none
  match afterSep with
  | none => false
  | some rest =>
    match takeOneOrTwo rest >>= takeChar ':' >>= takeDigits 2 >>= takeChar ':' >>= takeDigits 2 with
    | none => false
    | some rest =>
      let rest := match rest with
        | '.' :: frac => frac.dropWhile isDigit
        | _ => rest
      isZoneEnd rest

/-- Whether the text is a timestamp of YAML 1.1: `YYYY-MM-DD`, or a date with one- or two-digit
month and day followed by a time. -/
def isTimestamp (s : List Char) : Bool :=
  let dateOnly := match takeDigits 4 s >>= takeChar '-' >>= takeDigits 2 >>= takeChar '-' >>=
      takeDigits 2 with
    | some [] => true
    | _ => false
  let withTime := match takeDigits 4 s >>= takeChar '-' >>= takeOneOrTwo >>= takeChar '-' >>=
      takeOneOrTwo with
    | some rest => isTimePart rest
    | none => false
  dateOnly || withTime

/-- Whether a rule matches the whole text or the text less a final line feed. -/
def matchesWhole (p : List Char → Bool) (s : List Char) : Bool :=
  p s || (s.getLast? == some '\n' && p s.dropLast)

/-- The tag a plain scalar's text implies. -/
def implicitTag (value : String) : String :=
  let s := value.toList
  let m (p : List Char → Bool) := matchesWhole p s
  match s with
  | [] => nullTag
  | c :: _ =>
    if Chars.oneOf "yYnNtTfFoO" c && m isBool then boolTag
    else if Chars.oneOf "-+0123456789." c && m isFloat then floatTag
    else if Chars.oneOf "-+0123456789" c && m isInt then intTag
    else if c == '<' && m (· == ['<', '<']) then mergeTag
    else if Chars.oneOf "~nN" c && m isNull then nullTag
    else if isDigit c && m isTimestamp then timestampTag
    else if c == '=' && m (· == ['=']) then valueTag
    else strTag

/-- The tag of a scalar: implied by its text when `implicit` allows, else the string tag. -/
def scalarTag (value : String) (implicit : Bool) : String :=
  if implicit then implicitTag value else strTag

end StageTree.Yaml.Resolve
