import StageTree.Yaml.Chars
import StageTree.Yaml.Error
import StageTree.Yaml.Token

/-!
# The scanner's state

Scanning walks the text with a mark and keeps what the next tokens depend on: how deep the flow
brackets nest, the stack of block indentations, the tokens found but not yet handed out, and the
places where a key without `?` may begin (simple keys), one per flow level. A simple key is
settled when a `:` follows it on the same line within 1024 characters; a required one that is not
settled stops the scan.
-/

namespace StageTree.Yaml

/-- A place where a key without `?` may begin: the number of the token it would stand before,
whether the block structure demands a key there, and its mark. -/
structure SimpleKey where
  tokenNumber : Nat
  required : Bool
  mark : Mark
deriving Repr, Inhabited

/-- The scanner's state. The text is held with a NUL after its last character. -/
structure Scanner where
  buf : Array Char
  mark : Mark := Mark.origin
  flowLevel : Int := 0
  queue : List Token := []
  taken : Nat := 0
  indent : Int := -1
  indents : List Int := []
  allowSimpleKey : Bool := true
  keys : List (Int × SimpleKey) := []
  done : Bool := false
deriving Inhabited

/-- Scanning: a state over the scanner that may stop with an error. -/
abbrev ScanM := StateT Scanner (Except Error)

namespace Scanner

open Chars

/-- A scanner at the start of `text`, with the stream-start token waiting. -/
def ofText (text : String) : Scanner :=
  { buf := (text.toList ++ ['\x00']).toArray, queue := [⟨.streamStart, Mark.origin, Mark.origin⟩] }

/-- The character `k` places ahead, NUL past the end. -/
def peekAt (k : Nat) : ScanM Char := do
  let s ← get
  return s.buf.getD (s.mark.index + k) '\x00'

/-- The current character. -/
def peek : ScanM Char := peekAt 0

/-- The current mark. -/
def here : ScanM Mark := return (← get).mark

/-- Moves `n` characters on. -/
def forward (n : Nat := 1) : ScanM Unit :=
  modify fun s => { s with mark := Mark.stepBy s.buf n s.mark }

/-- The next `n` characters, fewer at the end. -/
def ahead (n : Nat) : ScanM String := do
  let s ← get
  return String.ofList (s.buf.extract s.mark.index (s.mark.index + n)).toList

/-- A bound on the steps of any loop that moves on at least one character per step. -/
def fuel : ScanM Nat := do
  let s ← get
  return s.buf.size - s.mark.index + 2

/-- Stops with malformed text at the current mark. -/
def fail (context : Option String) (contextMark : Option Mark) (problem : String) : ScanM α := do
  throw (Error.malformed context contextMark problem (← here))

/-- The number of characters from index `i` on that satisfy `p`, added to `acc`. -/
def runLength (buf : Array Char) (p : Char → Bool) (i acc : Nat) : Nat :=
  if h : i < buf.size then
    if p buf[i] then runLength buf p (i + 1) (acc + 1) else acc
  else acc
termination_by buf.size - i

/-- How many characters from `k` ahead on satisfy `p`. -/
def runAhead (p : Char → Bool) (k : Nat := 0) : ScanM Nat := do
  let s ← get
  return runLength s.buf p (s.mark.index + k) 0

/-- Moves past the characters that satisfy `p`. -/
def skipWhile (p : Char → Bool) : ScanM Unit := do
  forward (← runAhead p)

/-- Moves past spaces. -/
def skipSpaces : ScanM Unit := skipWhile (· == ' ')

/-- Moves to the next line break or the end. -/
def skipToBreak : ScanM Unit := skipWhile fun c => !isBreakOrEnd c

/-- Moves past one line break and gives the break it reads as: a line feed for line feed,
carriage return, both together and next line; a separator for itself; nothing if there is no
break. -/
def lineBreak : ScanM String := do
  let ch ← peek
  if ch == '\r' || ch == '\n' || ch == '\x85' then
    if (← ahead 2) == "\r\n" then forward 2 else forward
    return "\n"
  else if ch == '\u2028' || ch == '\u2029' then
    forward
    return ch.toString
  else return ""

/-- Whether a document marker (`---` or `...` and then a blank or the end) starts here. -/
def atDocumentMarker : ScanM Bool := do
  let p ← ahead 3
  return (p == "---" || p == "...") && isBlankOrEnd (← peekAt 3)

/-- Queues a token. -/
def push (t : Token) : ScanM Unit := modify fun s => { s with queue := s.queue ++ [t] }

/-- Queues a token that starts and ends at the current mark. -/
def pushHere (k : TokenKind) : ScanM Unit := do
  let m ← here
  push ⟨k, m, m⟩

/-- Queues a token for the next `n` characters and moves past them. -/
def pushSpan (k : TokenKind) (n : Nat := 1) : ScanM Unit := do
  let start ← here
  forward n
  push ⟨k, start, ← here⟩

/-- Sets whether a simple key may start at the next token. -/
def setAllowSimpleKey (b : Bool) : ScanM Unit := modify fun s => { s with allowSimpleKey := b }

/-- The error for a required simple key with no `:`. -/
def unsettledKey (key : SimpleKey) (at_ : Mark) : Error :=
  .malformed (some "while scanning a simple key") (some key.mark)
    "could not find expected \x27:\x27" at_

/-- Drops the simple keys that can no longer be settled: another line, or more than 1024
characters on. A required one stops the scan. -/
def staleKeys : ScanM Unit := do
  let s ← get
  let stale (key : SimpleKey) : Bool :=
    key.mark.line != s.mark.line || s.mark.index - key.mark.index > 1024
  match s.keys.find? (fun (_, key) => stale key && key.required) with
  | some (_, key) => throw (unsettledKey key s.mark)
  | none => set { s with keys := s.keys.filter fun (_, key) => !stale key }

/-- Drops the simple key of the current flow level; a required one stops the scan. -/
def removeSimpleKey : ScanM Unit := do
  let s ← get
  match s.keys.lookup s.flowLevel with
  | some key =>
    if key.required then throw (unsettledKey key s.mark)
    set { s with keys := s.keys.filter (·.1 != s.flowLevel) }
  | none => pure ()

/-- Notes that a simple key may start at the next token, if keys are allowed here. -/
def saveSimpleKey : ScanM Unit := do
  let s ← get
  if s.allowSimpleKey then
    let required := s.flowLevel == 0 && s.indent == (s.mark.column : Int)
    removeSimpleKey
    let s ← get
    let key : SimpleKey := ⟨s.taken + s.queue.length, required, s.mark⟩
    set { s with keys := (s.flowLevel, key) :: s.keys }

/-- The smallest token number of a pending simple key. -/
def firstKeyNumber (s : Scanner) : Option Nat :=
  s.keys.foldl (fun acc (_, k) => match acc with
    | none => some k.tokenNumber
    | some m => some (min m k.tokenNumber)) none

/-- Closes the block collections indented deeper than `column`, one block end each. Flow
context ignores indentation. -/
def unwindIndent (column : Int) : ScanM Unit := do
  let s ← get
  if s.flowLevel != 0 then return
  let m := s.mark
  let rec go (indent : Int) : List Int → Nat → Int × List Int × Nat
    | [], closed => (indent, [], closed)
    | top :: rest, closed =>
      if indent > column then go top rest (closed + 1)
      else (indent, top :: rest, closed)
  let (indent, indents, closed) := go s.indent s.indents 0
  set { s with indent, indents, queue := s.queue ++ List.replicate closed (Token.mk .blockEnd m m) }

/-- Opens a deeper indentation at `column` if it is deeper than the current one. -/
def addIndent (column : Int) : ScanM Bool := do
  let s ← get
  if s.indent < column then
    set { s with indents := s.indent :: s.indents, indent := column }
    return true
  return false

end Scanner

end StageTree.Yaml
