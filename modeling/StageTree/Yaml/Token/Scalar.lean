import StageTree.Text.Str
import StageTree.Yaml.Token.Cursor

/-!
# Scanning scalars

The three ways a scalar is written. A plain scalar runs to a `: ` or ` #`, or in flow context to
a flow indicator, and may go on over lines indented deeper than its block. A quoted scalar runs to
its closing quote; in single quotes a doubled quote stands for one, in double quotes a backslash
starts an escape, and an escape that names a surrogate half gives that half on its own. A block
scalar (literal `|` or folded `>`) takes the lines indented at least as far as its first line;
its header may fix the indentation and how the last line breaks are kept.

Line breaks fold the same way in plain and quoted scalars: a single line feed between two lines
becomes a space, and each further empty line gives one line feed; a separator break is kept.
-/

namespace StageTree.Yaml.Scanner

open Chars

/-- What a folded break between two lines gives: the first break if it is a separator, else a
space when no empty lines follow it, and then the breaks of the empty lines. -/
def foldBreaks (first rest : String) : String :=
  (if first != "\n" then first else if rest.isEmpty then " " else "") ++ rest

/-- The blanks and breaks after a run of a plain scalar, as they join the next run. Nothing is
given when a document marker ends the scalar or there is nothing to join. -/
def plainSpaces : ScanM String := do
  let n ← runAhead (· == ' ')
  let whitespaces ← ahead n
  forward n
  if isBreak (← peek) then
    let first ← lineBreak
    setAllowSimpleKey true
    if ← atDocumentMarker then return ""
    let mut breaks := ""
    for _ in [0:← fuel] do
      let c ← peek
      if c == ' ' then forward
      else if isBreak c then
        breaks := breaks ++ (← lineBreak)
        if ← atDocumentMarker then return ""
      else break
    return foldBreaks first breaks
  else return whitespaces

/-- The length of the run of a plain scalar from the current mark. -/
def plainRun (flow : Bool) : ScanM Nat := do
  let mut length := 0
  for _ in [0:← fuel] do
    let ch ← peekAt length
    if isBlankOrEnd ch then break
    if ch == ':' then
      let next ← peekAt (length + 1)
      if isBlankOrEnd next || (flow && oneOf ",[]\x7b\x7d" next) then break
    if flow && oneOf ",?[]\x7b\x7d" ch then break
    length := length + 1
  return length

/-- Scans a plain scalar. -/
def scanPlain : ScanM Token := do
  let start ← here
  let mut stop := start
  let indent := (← get).indent + 1
  let flow := (← get).flowLevel != 0
  let mut chunks := ""
  let mut spaces := ""
  for _ in [0:← fuel] do
    if (← peek) == '#' then break
    let length ← plainRun flow
    if length == 0 then break
    setAllowSimpleKey false
    chunks := chunks ++ spaces ++ (← ahead length)
    forward length
    stop ← here
    spaces ← plainSpaces
    if spaces.isEmpty || (← peek) == '#' || (!flow && ((← here).column : Int) < indent) then break
  return ⟨.scalar chunks .plain, start, stop⟩

/-- The character a one-letter escape in double quotes stands for. -/
def escapeReplacement (c : Char) : Option Char :=
  match c with
  | '0' => some '\x00'
  | 'a' => some '\x07'
  | 'b' => some '\x08'
  | 't' => some '\t'
  | '\t' => some '\t'
  | 'n' => some '\n'
  | 'v' => some '\x0B'
  | 'f' => some '\x0C'
  | 'r' => some '\r'
  | 'e' => some '\x1B'
  | ' ' => some ' '
  | '"' => some '"'
  | '\\' => some '\\'
  | '/' => some '/'
  | 'N' => some '\x85'
  | '_' => some '\xA0'
  | 'L' => some '\u2028'
  | 'P' => some '\u2029'
  | _ => none

/-- The number of hex digits after an escape letter that takes a code point. -/
def escapeWidth (c : Char) : Option Nat :=
  match c with
  | 'x' => some 2
  | 'u' => some 4
  | 'U' => some 8
  | _ => none

/-- The context of errors inside double quotes. -/
def doubleQuotedContext : Option String := some "while scanning a double-quoted scalar"

/-- The context of errors inside either quotes. -/
def quotedContext : Option String := some "while scanning a quoted scalar"

/-- The line breaks of the empty lines inside quotes; a document marker there stops the scan. -/
def quotedBreaks (start : Mark) : ScanM String := do
  let mut chunks := ""
  for _ in [0:← fuel] do
    if ← atDocumentMarker then
      fail quotedContext (some start) "found unexpected document separator"
    skipWhile fun c => c == ' ' || c == '\t'
    if isBreak (← peek) then chunks := chunks ++ (← lineBreak)
    else return chunks
  return chunks

/-- Reads the code of an escape of `width` hex digits. -/
def escapedCode (start : Mark) (width : Nat) : ScanM Nat := do
  for k in [0:width] do
    let d ← peekAt k
    if !isHexDigit d then
      fail doubleQuotedContext (some start)
        ("expected escape sequence of " ++ toString width ++
          " hexadecimal numbers, but found " ++ Text.quoteOne d)
  let code := hexNumber (← ahead width).toList
  if code > 0x10FFFF then throw (.fault .codePointTooLarge)
  forward width
  return code

/-- The code points of a quoted scalar up to the next blank, break, end or closing quote. An
escape of hex digits gives the code point it names, so a surrogate half stays a half. -/
def quotedNonSpaces (double : Bool) (start : Mark) : ScanM Text.Str := do
  let mut chunks : Text.Str := default
  for _ in [0:← fuel] do
    let n ← runAhead fun c => !(c == '\x27' || c == '"' || c == '\\' || isBlankOrEnd c)
    if n > 0 then
      chunks := chunks ++ Text.Str.ofString (← ahead n)
      forward n
    let ch ← peek
    if !double && ch == '\x27' && (← peekAt 1) == '\x27' then
      chunks := chunks.pushChar '\x27'
      forward 2
    else if (double && ch == '\x27') || (!double && (ch == '"' || ch == '\\')) then
      chunks := chunks.pushChar ch
      forward
    else if double && ch == '\\' then
      forward
      let c ← peek
      match escapeReplacement c, escapeWidth c with
      | some r, _ =>
        chunks := chunks.pushChar r
        forward
      | none, some width =>
        forward
        chunks := chunks.push (Text.Code.ofNat (← escapedCode start width))
      | none, none =>
        if isBreak c then
          discard lineBreak
          let breaks ← quotedBreaks start
          if !breaks.isEmpty then chunks := chunks ++ Text.Str.ofString breaks
        else
          fail doubleQuotedContext (some start)
            ("found unknown escape character " ++ Text.quoteOne c)
    else return chunks
  return chunks

/-- The blanks and breaks inside quotes, as they join the next characters. -/
def quotedSpaces (start : Mark) : ScanM String := do
  let n ← runAhead fun c => c == ' ' || c == '\t'
  let whitespaces ← ahead n
  forward n
  let ch ← peek
  if ch == '\x00' then fail quotedContext (some start) "found unexpected end of stream"
  else if isBreak ch then
    let first ← lineBreak
    let breaks ← quotedBreaks start
    return foldBreaks first breaks
  else return whitespaces

/-- Scans a scalar in single or double quotes. -/
def scanQuoted (double : Bool) : ScanM Token := do
  let start ← here
  let quote ← peek
  forward
  let mut chunks ← quotedNonSpaces double start
  for _ in [0:← fuel] do
    if (← peek) == quote then break
    chunks := chunks ++ Text.Str.ofString (← quotedSpaces start)
    chunks := chunks ++ (← quotedNonSpaces double start)
  forward
  return ⟨.scalar chunks (if double then .doubleQuoted else .singleQuoted), start, ← here⟩

/-- The context of errors in a block scalar's header. -/
def blockContext : Option String := some "while scanning a block scalar"

/-- Reads a digit of a block scalar header as an indentation step; zero is refused. -/
def indentationDigit (start : Mark) (c : Char) : ScanM Nat := do
  let inc := c.toNat - '0'.toNat
  if inc == 0 then
    fail blockContext (some start) "expected indentation indicator in the range 1-9, but found 0"
  forward
  return inc

/-- The header of a block scalar: how its last breaks are kept (`+` all, `-` none) and a fixed
indentation step, in either order. -/
def blockIndicators (start : Mark) : ScanM (Option Bool × Option Nat) := do
  let mut chomping : Option Bool := none
  let mut increment : Option Nat := none
  let ch ← peek
  if ch == '+' || ch == '-' then
    chomping := some (ch == '+')
    forward
    let c ← peek
    if isDigit c then increment := some (← indentationDigit start c)
  else if isDigit ch then
    increment := some (← indentationDigit start ch)
    let c ← peek
    if c == '+' || c == '-' then
      chomping := some (c == '+')
      forward
  let c ← peek
  if !isSpaceOrEnd c then
    fail blockContext (some start)
      ("expected chomping or indentation indicators, but found " ++ Text.quoteOne c)
  return (chomping, increment)

/-- The rest of a block scalar's header line: blanks and a comment, then a break. -/
def blockIgnoredLine (start : Mark) : ScanM Unit := do
  skipSpaces
  if (← peek) == '#' then skipToBreak
  let ch ← peek
  if !isBreakOrEnd ch then
    fail blockContext (some start)
      ("expected a comment or a line break, but found " ++ Text.quoteOne ch)
  discard lineBreak

/-- The empty lines before a block scalar's first line, with the deepest column reached and the
mark after the last break. -/
def blockIndentation : ScanM (String × Int × Mark) := do
  let mut chunks := ""
  let mut maxIndent : Nat := 0
  let mut stop ← here
  for _ in [0:← fuel] do
    let c ← peek
    if c == ' ' then
      forward
      let col := (← here).column
      if col > maxIndent then maxIndent := col
    else if isBreak c then
      chunks := chunks ++ (← lineBreak)
      stop ← here
    else break
  return (chunks, maxIndent, stop)

/-- Moves past the spaces of the indentation, up to column `indent`. -/
def skipIndentation (indent : Int) : ScanM Unit := do
  for _ in [0:← fuel] do
    if ((← here).column : Int) < indent && (← peek) == ' ' then forward else break

/-- The line breaks of the empty lines inside a block scalar, with the mark after the last. -/
def blockBreaks (indent : Int) : ScanM (String × Mark) := do
  let mut chunks := ""
  let mut stop ← here
  skipIndentation indent
  for _ in [0:← fuel] do
    if !isBreak (← peek) then break
    chunks := chunks ++ (← lineBreak)
    stop ← here
    skipIndentation indent
  return (chunks, stop)

/-- Scans a literal or folded block scalar. -/
def scanBlock (folded : Bool) : ScanM Token := do
  let start ← here
  forward
  let (chomping, increment) ← blockIndicators start
  blockIgnoredLine start
  let minIndent : Int := max ((← get).indent + 1) 1
  let (breaks0, indent, stop0) ← match increment with
    | none => do
      let (b, maxIndent, e) ← blockIndentation
      pure (b, max minIndent maxIndent, e)
    | some inc => do
      let ind := minIndent + inc - 1
      let (b, e) ← blockBreaks ind
      pure (b, ind, e)
  let mut breaks := breaks0
  let mut stop := stop0
  let mut lastBreak := ""
  let mut chunks := ""
  for _ in [0:← fuel] do
    if !(((← here).column : Int) == indent && (← peek) != '\x00') then break
    chunks := chunks ++ breaks
    let first ← peek
    let leadingNonSpace := !(first == ' ' || first == '\t')
    let n ← runAhead fun c => !isBreakOrEnd c
    chunks := chunks ++ (← ahead n)
    forward n
    lastBreak ← lineBreak
    let (b, e) ← blockBreaks indent
    breaks := b
    stop := e
    if ((← here).column : Int) == indent && (← peek) != '\x00' then
      let c ← peek
      if folded && lastBreak == "\n" && leadingNonSpace && !(c == ' ' || c == '\t') then
        if breaks.isEmpty then chunks := chunks ++ " "
      else chunks := chunks ++ lastBreak
    else break
  if chomping != some false then chunks := chunks ++ lastBreak
  if chomping == some true then chunks := chunks ++ breaks
  return ⟨.scalar chunks (if folded then .folded else .literal), start, stop⟩

end StageTree.Yaml.Scanner
