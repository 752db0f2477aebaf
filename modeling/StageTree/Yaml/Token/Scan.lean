import StageTree.Text.Utf8
import StageTree.Yaml.Token.Scalar

/-!
# Scanning a YAML stream into tokens

`Token.scan` cuts a text into the tokens of YAML 1.1. Each step skips blanks, comments and line
breaks, closes the block collections that the new column ends, and then reads one token by its
first character. A `:` that settles a pending simple key puts a key token (and, at a new
indentation, a block mapping start) in front of the key's first token.

A token is handed out only once no pending simple key could still put a token in front of it.
`Token.scan` gives the tokens handed out before the scan stopped, and the reason it stopped if it
did not reach the end of the stream; a reader of the tokens meets that reason where it would ask
for the next token.
-/

namespace StageTree.Yaml.Scanner

open Chars

/-- The context of errors in a directive. -/
def directiveContext : Option String := some "while scanning a directive"

/-- The name of a directive, after its `%`. -/
def directiveName (start : Mark) : ScanM String := do
  let n ← runAhead isWordChar
  if n == 0 then
    fail directiveContext (some start)
      ("expected alphabetic or numeric character, but found " ++ Text.quoteOne (← peek))
  let value ← ahead n
  forward n
  let ch ← peek
  if !isSpaceOrEnd ch then
    fail directiveContext (some start)
      ("expected alphabetic or numeric character, but found " ++ Text.quoteOne ch)
  return value

/-- One number of a version directive; one of more digits than are read is a fault. -/
def versionNumber (start : Mark) : ScanM Nat := do
  let ch ← peek
  if !isDigit ch then
    fail directiveContext (some start) ("expected a digit, but found " ++ Text.quoteOne ch)
  let n ← runAhead isDigit
  if n > Number.maxDigits then throw (.fault (.versionTooLong n))
  let digits ← ahead n
  forward n
  return digits.foldl (fun acc c => acc * 10 + (c.toNat - '0'.toNat)) 0

/-- The value of a version directive: major and minor number. -/
def versionValue (start : Mark) : ScanM DirectiveValue := do
  skipSpaces
  let major ← versionNumber start
  if (← peek) != '.' then
    fail directiveContext (some start)
      ("expected a digit or \x27.\x27, but found " ++ Text.quoteOne (← peek))
  forward
  let minor ← versionNumber start
  if !isSpaceOrEnd (← peek) then
    fail directiveContext (some start)
      ("expected a digit or \x27 \x27, but found " ++ Text.quoteOne (← peek))
  return .version major minor

/-- A tag handle: `!`, `!!` or `!name!`. -/
def tagHandle (what : String) (start : Mark) : ScanM String := do
  let context := some ("while scanning a " ++ what)
  let ch ← peek
  if ch != '!' then fail context (some start) ("expected \x27!\x27, but found " ++ Text.quoteOne ch)
  let mut length := 1
  if (← peekAt 1) != ' ' then
    length := 1 + (← runAhead isWordChar 1)
    let c ← peekAt length
    if c != '!' then
      forward length
      fail context (some start) ("expected \x27!\x27, but found " ++ Text.quoteOne c)
    length := length + 1
  let value ← ahead length
  forward length
  return value

/-- The characters of `%`-escapes in a tag's URI, read as UTF-8. -/
def uriEscapes (what : String) (start : Mark) : ScanM String := do
  let context := some ("while scanning a " ++ what)
  let mark ← here
  let mut codes : ByteArray := ByteArray.empty
  for _ in [0:← fuel] do
    if (← peek) != '%' then break
    forward
    for k in [0:2] do
      let d ← peekAt k
      if !isHexDigit d then
        fail context (some start)
          ("expected URI escape sequence of 2 hexadecimal numbers, but found " ++ Text.quoteOne d)
    codes := codes.push (hexNumber (← ahead 2).toList).toUInt8
    forward 2
  match Text.Utf8.decode codes with
  | .ok s => return s
  | .error e => throw (.malformed context (some start) e.message mark)

/-- The URI of a tag: its characters as written, `%`-escapes read. -/
def tagUri (what : String) (start : Mark) : ScanM String := do
  let mut chunks := ""
  let mut found := false
  let mut length := 0
  for _ in [0:← fuel] do
    let ch ← peekAt length
    if !isUriChar ch then break
    if ch == '%' then
      chunks := chunks ++ (← ahead length)
      forward length
      length := 0
      chunks := chunks ++ (← uriEscapes what start)
      found := true
    else length := length + 1
  if length > 0 then
    chunks := chunks ++ (← ahead length)
    forward length
    found := true
  if !found then
    fail (some ("while parsing a " ++ what)) (some start)
      ("expected URI, but found " ++ Text.quoteOne (← peekAt 0))
  return chunks

/-- The value of a tag directive: a handle and its prefix. -/
def tagDirectiveValue (start : Mark) : ScanM DirectiveValue := do
  skipSpaces
  let handle ← tagHandle "directive" start
  let ch ← peek
  if ch != ' ' then
    fail directiveContext (some start) ("expected \x27 \x27, but found " ++ Text.quoteOne ch)
  skipSpaces
  let pre ← tagUri "directive" start
  let c ← peek
  if !isSpaceOrEnd c then
    fail directiveContext (some start) ("expected \x27 \x27, but found " ++ Text.quoteOne c)
  return .tagPrefix handle pre

/-- The rest of a directive's line: blanks and a comment, then a break. -/
def directiveIgnoredLine (start : Mark) : ScanM Unit := do
  skipSpaces
  if (← peek) == '#' then skipToBreak
  let ch ← peek
  if !isBreakOrEnd ch then
    fail directiveContext (some start)
      ("expected a comment or a line break, but found " ++ Text.quoteOne ch)
  discard lineBreak

/-- Scans a directive line. An unknown directive's value is skipped. -/
def scanDirective : ScanM Token := do
  let start ← here
  forward
  let name ← directiveName start
  let (value, stop) ← if name == "YAML" then do
      let v ← versionValue start
      pure (v, ← here)
    else if name == "TAG" then do
      let v ← tagDirectiveValue start
      pure (v, ← here)
    else do
      let m ← here
      skipToBreak
      pure (DirectiveValue.skipped, m)
  directiveIgnoredLine start
  return ⟨.directive name value, start, stop⟩

/-- Scans an anchor `&name` or an alias `*name`. -/
def scanAnchor (isAlias : Bool) : ScanM Token := do
  let start ← here
  let context := some ("while scanning an " ++ if isAlias then "alias" else "anchor")
  forward
  let n ← runAhead isWordChar
  if n == 0 then
    fail context (some start)
      ("expected alphabetic or numeric character, but found " ++ Text.quoteOne (← peek))
  let value ← ahead n
  forward n
  let ch ← peek
  if !(isBlankOrEnd ch || oneOf "?:,]\x7d%@`" ch) then
    fail context (some start)
      ("expected alphabetic or numeric character, but found " ++ Text.quoteOne ch)
  return ⟨if isAlias then .reference value else .anchor value, start, ← here⟩

/-- Scans a tag: `!<uri>`, a lone `!`, or a handle and a suffix. -/
def scanTag : ScanM Token := do
  let start ← here
  let ch ← peekAt 1
  let mut handle : Option String := none
  let mut suffix := ""
  if ch == '<' then
    forward 2
    suffix ← tagUri "tag" start
    if (← peek) != '>' then
      fail (some "while parsing a tag") (some start)
        ("expected \x27>\x27, but found " ++ Text.quoteOne (← peek))
    forward
  else if isBlankOrEnd ch then
    suffix := "!"
    forward
  else
    let mut length := 1
    let mut useHandle := false
    let mut c := ch
    for _ in [0:← fuel] do
      if isSpaceOrEnd c then break
      if c == '!' then
        useHandle := true
        break
      length := length + 1
      c ← peekAt length
    if useHandle then handle := some (← tagHandle "tag" start)
    else
      handle := some "!"
      forward
    suffix ← tagUri "tag" start
  let c ← peek
  if !isSpaceOrEnd c then
    fail (some "while scanning a tag") (some start)
      ("expected \x27 \x27, but found " ++ Text.quoteOne c)
  return ⟨.tag handle suffix, start, ← here⟩

/-- Skips blanks, comments and line breaks up to the next token; a byte order mark at the very
start is skipped too. A line break in block context lets a simple key start again. -/
def skipToNextToken : ScanM Unit := do
  if (← here).index == 0 && (← peek) == '\uFEFF' then forward
  for _ in [0:← fuel] do
    skipSpaces
    if (← peek) == '#' then skipToBreak
    if (← lineBreak).isEmpty then break
    if (← get).flowLevel == 0 then setAllowSimpleKey true

/-- Whether a plain scalar may start here. -/
def startsPlain : ScanM Bool := do
  let ch ← peek
  let next ← peekAt 1
  let flow := (← get).flowLevel != 0
  return !(isBlankOrEnd ch || oneOf "-?:,[]\x7b\x7d#&*!|>\x27\"%@`" ch) ||
    (!isBlankOrEnd next && (ch == '-' || (!flow && (ch == '?' || ch == ':'))))

/-- Ends the stream. -/
def fetchStreamEnd : ScanM Unit := do
  unwindIndent (-1)
  removeSimpleKey
  modify fun s => { s with allowSimpleKey := false, keys := [] }
  pushHere .streamEnd
  modify fun s => { s with done := true }

/-- Reads a token that closes all block collections first: a directive or a document marker. -/
def fetchAtTopLevel (scan : ScanM Unit) : ScanM Unit := do
  unwindIndent (-1)
  removeSimpleKey
  setAllowSimpleKey false
  scan

/-- Reads a flow bracket that opens a collection. -/
def fetchFlowStart (k : TokenKind) : ScanM Unit := do
  saveSimpleKey
  modify fun s => { s with flowLevel := s.flowLevel + 1 }
  setAllowSimpleKey true
  pushSpan k

/-- Reads a flow bracket that closes a collection. -/
def fetchFlowEnd (k : TokenKind) : ScanM Unit := do
  removeSimpleKey
  modify fun s => { s with flowLevel := s.flowLevel - 1 }
  setAllowSimpleKey false
  pushSpan k

/-- Reads a `,` between flow entries. -/
def fetchFlowEntry : ScanM Unit := do
  setAllowSimpleKey true
  removeSimpleKey
  pushSpan .flowEntry

/-- Reads a block sequence entry `-`, opening the sequence at a new indentation. -/
def fetchBlockEntry : ScanM Unit := do
  if (← get).flowLevel == 0 then
    if !(← get).allowSimpleKey then fail none none "sequence entries are not allowed here"
    if ← addIndent (← here).column then pushHere .blockSequenceStart
  setAllowSimpleKey true
  removeSimpleKey
  pushSpan .blockEntry

/-- Reads an explicit key `?`. -/
def fetchKey : ScanM Unit := do
  let block := (← get).flowLevel == 0
  if block then
    if !(← get).allowSimpleKey then fail none none "mapping keys are not allowed here"
    if ← addIndent (← here).column then pushHere .blockMappingStart
  setAllowSimpleKey block
  removeSimpleKey
  pushSpan .key

/-- Reads a value indicator `:`. If a simple key is pending on this level, a key token goes in
front of it, and in block context a mapping start where the key opens a new indentation. -/
def fetchValue : ScanM Unit := do
  let s ← get
  let block := s.flowLevel == 0
  match s.keys.lookup s.flowLevel with
  | some key =>
    let at_ := key.tokenNumber - s.taken
    set { s with keys := s.keys.filter (·.1 != s.flowLevel),
                 queue := s.queue.insertIdx at_ ⟨.key, key.mark, key.mark⟩ }
    if block then
      if ← addIndent key.mark.column then
        modify fun s =>
          { s with queue := s.queue.insertIdx at_ ⟨.blockMappingStart, key.mark, key.mark⟩ }
    setAllowSimpleKey false
  | none =>
    if block then
      if !s.allowSimpleKey then fail none none "mapping values are not allowed here"
      if ← addIndent (← here).column then pushHere .blockMappingStart
    setAllowSimpleKey block
    removeSimpleKey
  pushSpan .value

/-- Reads a token that may begin a simple key: an alias, anchor, tag, quoted or plain scalar. -/
def fetchKeyStart (scan : ScanM Token) : ScanM Unit := do
  saveSimpleKey
  setAllowSimpleKey false
  push (← scan)

/-- Reads a block scalar. -/
def fetchBlockScalar (folded : Bool) : ScanM Unit := do
  setAllowSimpleKey true
  removeSimpleKey
  push (← scanBlock folded)

/-- Whether a document marker stands at the start of this line. -/
def atLineMarker : ScanM Bool := do
  return (← here).column == 0 && (← atDocumentMarker)

/-- Reads the token or tokens that start at the mark, chosen by the characters found there. -/
def fetchToken : ScanM Unit := do
  let ch ← peek
  let next ← peekAt 1
  let flow := (← get).flowLevel != 0
  if ch == '\x00' then fetchStreamEnd
  else if ch == '%' && (← here).column == 0 then fetchAtTopLevel (do push (← scanDirective))
  else if ch == '-' && (← atLineMarker) && (← ahead 3) == "---" then
    fetchAtTopLevel (pushSpan .documentStart 3)
  else if ch == '.' && (← atLineMarker) && (← ahead 3) == "..." then
    fetchAtTopLevel (pushSpan .documentEnd 3)
  else if ch == '[' then fetchFlowStart .flowSequenceStart
  else if ch == '\x7b' then fetchFlowStart .flowMappingStart
  else if ch == ']' then fetchFlowEnd .flowSequenceEnd
  else if ch == '\x7d' then fetchFlowEnd .flowMappingEnd
  else if ch == ',' then fetchFlowEntry
  else if ch == '-' && isBlankOrEnd next then fetchBlockEntry
  else if ch == '?' && (flow || isBlankOrEnd next) then fetchKey
  else if ch == ':' && (flow || isBlankOrEnd next) then fetchValue
  else if ch == '*' then fetchKeyStart (scanAnchor true)
  else if ch == '&' then fetchKeyStart (scanAnchor false)
  else if ch == '!' then fetchKeyStart scanTag
  else if ch == '|' && !flow then fetchBlockScalar false
  else if ch == '>' && !flow then fetchBlockScalar true
  else if ch == '\x27' then fetchKeyStart (scanQuoted false)
  else if ch == '"' then fetchKeyStart (scanQuoted true)
  else if ← startsPlain then fetchKeyStart scanPlain
  else
    fail (some "while scanning for the next token") none
      ("found character " ++ Text.quoteOne ch ++ " that cannot start any token")

/-- Reads the next token or tokens. -/
def fetchMoreTokens : ScanM Unit := do
  skipToNextToken
  staleKeys
  unwindIndent (← here).column
  fetchToken

/-- Whether the next token cannot be handed out yet: none is queued, or a pending simple key
could still put one in front of it. -/
def needMoreTokens : ScanM Bool := do
  if (← get).done then return false
  if (← get).queue.isEmpty then return true
  staleKeys
  let s ← get
  return firstKeyNumber s == some s.taken

/-- Hands out the next token, scanning as far as it takes. -/
def nextToken : ScanM (Option Token) := do
  for _ in [0:← fuel] do
    if !(← needMoreTokens) then break
    fetchMoreTokens
  let s ← get
  match s.queue with
  | [] => return none
  | t :: rest =>
    set { s with queue := rest, taken := s.taken + 1 }
    return some t

/-- Hands out tokens until the stream ends, the scan stops, or `fuel` runs out. -/
def collect : Nat → Scanner → Array Token → Array Token × Option Error
  | 0, _, acc => (acc, none)
  | fuel + 1, s, acc =>
    match nextToken.run s with
    | .error e => (acc, some e)
    | .ok (none, _) => (acc, none)
    | .ok (some t, s') =>
      match t.kind with
      | .streamEnd => (acc.push t, none)
      | _ => collect fuel s' (acc.push t)

end Scanner

/-- The index and code point of the first character that YAML allows nowhere. -/
def firstUnacceptable (text : String) : Option (Nat × Nat) :=
  let rec go : List Char → Nat → Option (Nat × Nat)
    | [], _ => none
    | c :: cs, i => if Chars.isAllowed c then go cs (i + 1) else some (i, c.toNat)
  go text.toList 0

/-- The tokens of a text, in order, and why scanning stopped short of the stream's end, if it
did. -/
def Token.scan (text : String) : List Token × Option Error :=
  match firstUnacceptable text with
  | some (position, code) => ([], some (.unacceptable position code))
  | none =>
    let s := Scanner.ofText text
    let (tokens, err) := Scanner.collect (8 * s.buf.size + 16) s #[]
    (tokens.toList, err)

end StageTree.Yaml
