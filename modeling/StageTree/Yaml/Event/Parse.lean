import StageTree.Text.Quoted
import StageTree.Yaml.Error
import StageTree.Yaml.Event
import StageTree.Yaml.Token

/-!
# Parsing tokens into events

`Event.parse` reads the token stream of YAML 1.1 as a sequence of documents, each one node: an
alias, a scalar, or a block or flow collection of nodes. The parser is a machine with a stack of
the places to return to; each step gives one event. A missing node where one may stand (an empty
value, a key with nothing after it) gives an empty plain scalar. Tag handles are read against the
document's `%TAG` directives and the two defaults `!` and `!!`.

`Event.parse` gives the events before the parse stopped, and why it stopped if it did not reach
the end of the stream. Running out of tokens stops it with the reason the scan stopped.
-/

namespace StageTree.Yaml

/-- Where the parser goes on: the grammar position of the next event. -/
inductive ParseState where
  | streamStart
  | implicitDocumentStart
  | documentStart
  | documentEnd
  | documentContent
  | blockNode
  | blockSequenceFirstEntry
  | blockSequenceEntry
  | indentlessSequenceEntry
  | blockMappingFirstKey
  | blockMappingKey
  | blockMappingValue
  | flowSequenceFirstEntry
  | flowSequenceEntry
  | flowSequenceEntryMappingKey
  | flowSequenceEntryMappingValue
  | flowSequenceEntryMappingEnd
  | flowMappingFirstKey
  | flowMappingKey
  | flowMappingValue
  | flowMappingEmptyValue
  | finished
deriving Repr, DecidableEq, Inhabited

/-- The parser's state: the tokens left, why none follow them, the grammar position and the
stack of positions to return to, the marks of the open collections, and the tag handles. -/
structure Parser where
  tokens : List Token
  stop : Option Error
  state : ParseState := .streamStart
  states : List ParseState := []
  marks : List Mark := []
  tagHandles : List (String × String) := []

/-- Parsing: a state over the parser that may stop with an error. -/
abbrev ParseM := StateT Parser (Except Error)

namespace Parser

/-- The tag handles every document knows. -/
def defaultTagHandles : List (String × String) := [("!", "!"), ("!!", "tag:yaml.org,2002:")]

/-- The next token; with none left, the parse stops for the reason the scan stopped. -/
def peekToken : ParseM Token := do
  let p ← get
  match p.tokens with
  | t :: _ => return t
  | [] => throw (p.stop.getD (.malformed none none "unexpected end of tokens" Mark.origin))

/-- Takes the next token. -/
def getToken : ParseM Token := do
  let t ← peekToken
  modify fun p => { p with tokens := p.tokens.drop 1 }
  return t

/-- Whether the next token is of one of the classes `cs`. -/
def check (cs : List TokenClass) : ParseM Bool := do
  return (← peekToken).isOneOf cs

/-- Goes on at the given grammar position. -/
def goTo (s : ParseState) : ParseM Unit := modify fun p => { p with state := s }

/-- Goes on at `next` now and returns to `back` afterwards. -/
def pushState (back : ParseState) : ParseM Unit :=
  modify fun p => { p with states := back :: p.states }

/-- Returns to the position on top of the stack. -/
def popState : ParseM Unit :=
  modify fun p => { p with state := p.states.headD .finished, states := p.states.drop 1 }

/-- Notes the mark of a collection being opened. -/
def pushMark (m : Mark) : ParseM Unit := modify fun p => { p with marks := m :: p.marks }

/-- Forgets the mark of the collection being closed. -/
def popMark : ParseM Unit := modify fun p => { p with marks := p.marks.drop 1 }

/-- The mark of the innermost open collection. -/
def topMark : ParseM Mark := return (← get).marks.headD Mark.origin

/-- An empty plain scalar at a mark. -/
def emptyScalar (m : Mark) : Event := ⟨.scalar none none (true, false) "", m, m⟩

/-- Stops the parse with malformed text at the next token. -/
def failAt (context : Option String) (contextMark : Option Mark) (problem : Token → String) :
    ParseM α := do
  let t ← peekToken
  throw (.malformed context contextMark (problem t) t.start)

/-- The text `but found` shows for a token. -/
def found (t : Token) : String := Text.quote t.kind.name

/-- The tag a tag token names, its handle replaced by the handle's prefix. -/
def resolveTag (start tagMark : Mark) (handle : Option String) (suffix : String) :
    ParseM String := do
  match handle with
  | none => return suffix
  | some h =>
    match (← get).tagHandles.lookup h with
    | some pre => return pre ++ suffix
    | none =>
      throw (.malformed (some "while parsing a node") (some start)
        ("found undefined tag handle " ++ Text.quote h) tagMark)

/-- A node's properties, an anchor and a tag in either order: the anchor's name, the tag's
handle and suffix, the marks where the properties start and end, and the mark of the tag. -/
structure NodeProperties where
  anchor : Option String := none
  tag : Option (Option String × String) := none
  start : Option Mark := none
  stop : Option Mark := none
  tagMark : Mark := Mark.origin

/-- Reads a node's properties: an anchor, a tag, both in either order, or none. -/
def parseProperties : ParseM NodeProperties := do
  let mut anchor : Option String := none
  let mut tagParts : Option (Option String × String) := none
  let mut startMark : Option Mark := none
  let mut endMark : Option Mark := none
  let mut tagMark : Mark := Mark.origin
  if ← check [.anchor] then
    let t ← getToken
    startMark := some t.start
    endMark := some t.stop
    if let .anchor name := t.kind then anchor := some name
    if ← check [.tag] then
      let t ← getToken
      tagMark := t.start
      endMark := some t.stop
      if let .tag h s := t.kind then tagParts := some (h, s)
  else if ← check [.tag] then
    let t ← getToken
    startMark := some t.start
    tagMark := t.start
    endMark := some t.stop
    if let .tag h s := t.kind then tagParts := some (h, s)
    if ← check [.anchor] then
      let t ← getToken
      endMark := some t.stop
      if let .anchor name := t.kind then anchor := some name
  return { anchor, tag := tagParts, start := startMark, stop := endMark, tagMark }

/-- Parses what follows a node's properties: a scalar or a collection's start. In block context
a block collection may start; where `indentless` holds, a sequence of `-` entries at the key's
own indentation may too. With properties and nothing after them, the node is an empty
scalar. -/
def parseContent (block indentless : Bool) (props : NodeProperties) : ParseM Event := do
  let anchor := props.anchor
  let next ← peekToken
  let start := props.start.getD next.start
  let mut stop := props.stop.getD next.start
  let tag ← match props.tag with
    | none => pure none
    | some (h, s) => some <$> resolveTag start props.tagMark h s
  let implicit := tag.isNone || tag == some "!"
  if indentless && next.isOneOf [.blockEntry] then
    goTo .indentlessSequenceEntry
    return ⟨.sequenceStart anchor tag implicit false, start, next.stop⟩
  match next.kind with
  | .scalar text style =>
    let t ← getToken
    let pair :=
      if (style == .plain && tag.isNone) || tag == some "!" then (true, false)
      else if tag.isNone then (false, true) else (false, false)
    popState
    return ⟨.scalar anchor tag pair text, start, t.stop⟩
  | .flowSequenceStart =>
    goTo .flowSequenceFirstEntry
    return ⟨.sequenceStart anchor tag implicit true, start, next.stop⟩
  | .flowMappingStart =>
    goTo .flowMappingFirstKey
    return ⟨.mappingStart anchor tag implicit true, start, next.stop⟩
  | .blockSequenceStart =>
    if block then
      goTo .blockSequenceFirstEntry
      return ⟨.sequenceStart anchor tag implicit false, start, next.start⟩
  | .blockMappingStart =>
    if block then
      goTo .blockMappingFirstKey
      return ⟨.mappingStart anchor tag implicit false, start, next.start⟩
  | _ => pure ()
  if anchor.isSome || tag.isSome then
    popState
    stop := props.stop.getD next.start
    return ⟨.scalar anchor tag (implicit, false) "", start, stop⟩
  throw (.malformed (some ("while parsing a " ++ (if block then "block" else "flow") ++ " node"))
    (some start) ("expected the node content, but found " ++ found next) next.start)

/-- Parses a node: an alias, or properties and then what follows them. -/
def parseNode (block indentless : Bool) : ParseM Event := do
  if ← check [.reference] then
    let t ← getToken
    popState
    match t.kind with
    | .reference name => return ⟨.reference name, t.start, t.stop⟩
    | _ => return ⟨.reference "", t.start, t.stop⟩
  parseContent block indentless (← parseProperties)

/-- Reads the directives before an explicit document: at most one `%YAML 1.x`, and `%TAG`
handles, each handle once. The defaults fill the handles not named. -/
def processDirectives : ParseM Unit := do
  modify fun p => { p with tagHandles := [] }
  let mut seenVersion := false
  for _ in [0:(← get).tokens.length + 1] do
    if !(← check [.directive]) then break
    let t ← getToken
    match t.kind with
    | .directive "YAML" (.version major _) =>
      if seenVersion then throw (.malformed none none "found duplicate YAML directive" t.start)
      if major != 1 then
        throw (.malformed none none
          "found incompatible YAML document (version 1.* is required)" t.start)
      seenVersion := true
    | .directive "TAG" (.tagPrefix handle pre) =>
      if ((← get).tagHandles.lookup handle).isSome then
        throw (.malformed none none ("duplicate tag handle " ++ Text.quote handle) t.start)
      modify fun p => { p with tagHandles := p.tagHandles ++ [(handle, pre)] }
    | _ => pure ()
  modify fun p => { p with tagHandles := p.tagHandles ++
    defaultTagHandles.filter fun (h, _) => (p.tagHandles.lookup h).isNone }

/-- After the stream start: an explicit document start, or else a document whose start is
implied. -/
def documentStart (implied : Bool) : ParseM Event := do
  if implied && !(← check [.directive, .documentStart, .streamEnd]) then
    modify fun p => { p with tagHandles := defaultTagHandles }
    let t ← peekToken
    pushState .documentEnd
    goTo .blockNode
    return ⟨.documentStart false, t.start, t.start⟩
  for _ in [0:(← get).tokens.length + 1] do
    if !(← check [.documentEnd]) then break
    discard getToken
  if ← check [.streamEnd] then
    let t ← getToken
    goTo .finished
    return ⟨.streamEnd, t.start, t.stop⟩
  let start := (← peekToken).start
  processDirectives
  if !(← check [.documentStart]) then
    failAt none none fun t => "expected \x27<document start>\x27, but found " ++ found t
  let t ← getToken
  pushState .documentEnd
  goTo .documentContent
  return ⟨.documentStart true, start, t.stop⟩

/-- A document's end, explicit with `...` or implied. -/
def documentEnd : ParseM Event := do
  let t ← peekToken
  goTo .documentStart
  if ← check [.documentEnd] then
    let e ← getToken
    return ⟨.documentEnd true, t.start, e.stop⟩
  return ⟨.documentEnd false, t.start, t.start⟩

/-- An explicit document's content: a node, or an empty scalar if a marker follows at once. -/
def documentContent : ParseM Event := do
  if ← check [.directive, .documentStart, .documentEnd, .streamEnd] then
    let t ← peekToken
    popState
    return emptyScalar t.start
  parseNode true false

/-- The next entry of a block sequence, or its end. -/
def blockSequenceEntry : ParseM Event := do
  if ← check [.blockEntry] then
    let t ← getToken
    if !(← check [.blockEntry, .blockEnd]) then
      pushState .blockSequenceEntry
      return ← parseNode true false
    goTo .blockSequenceEntry
    return emptyScalar t.stop
  if !(← check [.blockEnd]) then
    failAt (some "while parsing a block collection") (some (← topMark))
      fun t => "expected <block end>, but found " ++ found t
  let t ← getToken
  popState
  popMark
  return ⟨.sequenceEnd, t.start, t.stop⟩

/-- The next entry of a sequence of `-` entries at a key's indentation, or its end. -/
def indentlessSequenceEntry : ParseM Event := do
  if ← check [.blockEntry] then
    let t ← getToken
    if !(← check [.blockEntry, .key, .value, .blockEnd]) then
      pushState .indentlessSequenceEntry
      return ← parseNode true false
    goTo .indentlessSequenceEntry
    return emptyScalar t.stop
  let t ← peekToken
  popState
  return ⟨.sequenceEnd, t.start, t.start⟩

/-- The next key of a block mapping, or its end. -/
def blockMappingKey : ParseM Event := do
  if ← check [.key] then
    let t ← getToken
    if !(← check [.key, .value, .blockEnd]) then
      pushState .blockMappingValue
      return ← parseNode true true
    goTo .blockMappingValue
    return emptyScalar t.stop
  if !(← check [.blockEnd]) then
    failAt (some "while parsing a block mapping") (some (← topMark))
      fun t => "expected <block end>, but found " ++ found t
  let t ← getToken
  popState
  popMark
  return ⟨.mappingEnd, t.start, t.stop⟩

/-- The value of a block mapping's key; an empty scalar if there is none. -/
def blockMappingValue : ParseM Event := do
  if ← check [.value] then
    let t ← getToken
    if !(← check [.key, .value, .blockEnd]) then
      pushState .blockMappingKey
      return ← parseNode true true
    goTo .blockMappingKey
    return emptyScalar t.stop
  goTo .blockMappingKey
  return emptyScalar (← peekToken).start

/-- The next entry of a flow sequence, or its end; a `key: value` entry opens a one-pair
mapping. -/
def flowSequenceEntry (first : Bool) : ParseM Event := do
  if !(← check [.flowSequenceEnd]) then
    if !first then
      if ← check [.flowEntry] then discard getToken
      else
        failAt (some "while parsing a flow sequence") (some (← topMark))
          fun t => "expected \x27,\x27 or \x27]\x27, but got " ++ found t
    if ← check [.key] then
      let t ← peekToken
      goTo .flowSequenceEntryMappingKey
      return ⟨.mappingStart none none true true, t.start, t.stop⟩
    if !(← check [.flowSequenceEnd]) then
      pushState .flowSequenceEntry
      return ← parseNode false false
  let t ← getToken
  popState
  popMark
  return ⟨.sequenceEnd, t.start, t.stop⟩

/-- The key of a one-pair mapping inside a flow sequence. -/
def flowSequenceEntryMappingKey : ParseM Event := do
  let t ← getToken
  if !(← check [.value, .flowEntry, .flowSequenceEnd]) then
    pushState .flowSequenceEntryMappingValue
    return ← parseNode false false
  goTo .flowSequenceEntryMappingValue
  return emptyScalar t.stop

/-- The value of a one-pair mapping inside a flow sequence. -/
def flowSequenceEntryMappingValue : ParseM Event := do
  if ← check [.value] then
    let t ← getToken
    if !(← check [.flowEntry, .flowSequenceEnd]) then
      pushState .flowSequenceEntryMappingEnd
      return ← parseNode false false
    goTo .flowSequenceEntryMappingEnd
    return emptyScalar t.stop
  goTo .flowSequenceEntryMappingEnd
  return emptyScalar (← peekToken).start

/-- The end of a one-pair mapping inside a flow sequence. -/
def flowSequenceEntryMappingEnd : ParseM Event := do
  goTo .flowSequenceEntry
  let t ← peekToken
  return ⟨.mappingEnd, t.start, t.start⟩

/-- The next key of a flow mapping, or its end. -/
def flowMappingKey (first : Bool) : ParseM Event := do
  if !(← check [.flowMappingEnd]) then
    if !first then
      if ← check [.flowEntry] then discard getToken
      else
        failAt (some "while parsing a flow mapping") (some (← topMark))
          fun t => "expected \x27,\x27 or \x27\x7d\x27, but got " ++ found t
    if ← check [.key] then
      let t ← getToken
      if !(← check [.value, .flowEntry, .flowMappingEnd]) then
        pushState .flowMappingValue
        return ← parseNode false false
      goTo .flowMappingValue
      return emptyScalar t.stop
    if !(← check [.flowMappingEnd]) then
      pushState .flowMappingEmptyValue
      return ← parseNode false false
  let t ← getToken
  popState
  popMark
  return ⟨.mappingEnd, t.start, t.stop⟩

/-- The value of a flow mapping's key; an empty scalar if there is none. -/
def flowMappingValue : ParseM Event := do
  if ← check [.value] then
    let t ← getToken
    if !(← check [.flowEntry, .flowMappingEnd]) then
      pushState .flowMappingKey
      return ← parseNode false false
    goTo .flowMappingKey
    return emptyScalar t.stop
  goTo .flowMappingKey
  return emptyScalar (← peekToken).start

/-- One step: the next event, or none once the stream has ended. -/
def step : ParseM (Option Event) := do
  match (← get).state with
  | .streamStart =>
    let t ← getToken
    goTo .implicitDocumentStart
    return some ⟨.streamStart, t.start, t.stop⟩
  | .implicitDocumentStart => some <$> documentStart true
  | .documentStart => some <$> documentStart false
  | .documentEnd => some <$> documentEnd
  | .documentContent => some <$> documentContent
  | .blockNode => some <$> parseNode true false
  | .blockSequenceFirstEntry =>
    pushMark (← getToken).start
    some <$> blockSequenceEntry
  | .blockSequenceEntry => some <$> blockSequenceEntry
  | .indentlessSequenceEntry => some <$> indentlessSequenceEntry
  | .blockMappingFirstKey =>
    pushMark (← getToken).start
    some <$> blockMappingKey
  | .blockMappingKey => some <$> blockMappingKey
  | .blockMappingValue => some <$> blockMappingValue
  | .flowSequenceFirstEntry =>
    pushMark (← getToken).start
    some <$> flowSequenceEntry true
  | .flowSequenceEntry => some <$> flowSequenceEntry false
  | .flowSequenceEntryMappingKey => some <$> flowSequenceEntryMappingKey
  | .flowSequenceEntryMappingValue => some <$> flowSequenceEntryMappingValue
  | .flowSequenceEntryMappingEnd => some <$> flowSequenceEntryMappingEnd
  | .flowMappingFirstKey =>
    pushMark (← getToken).start
    some <$> flowMappingKey true
  | .flowMappingKey => some <$> flowMappingKey false
  | .flowMappingValue => some <$> flowMappingValue
  | .flowMappingEmptyValue =>
    goTo .flowMappingKey
    return some (emptyScalar (← peekToken).start)
  | .finished => return none

/-- Takes steps until the stream ends, the parse stops, or `fuel` runs out. -/
def collect : Nat → Parser → Array Event → Array Event × Option Error
  | 0, _, acc => (acc, none)
  | fuel + 1, p, acc =>
    match step.run p with
    | .error e => (acc, some e)
    | .ok (none, _) => (acc, none)
    | .ok (some e, p') => collect fuel p' (acc.push e)

end Parser

/-- The events of a token stream, in order, and why parsing stopped short of the stream's end,
if it did. `stop` is why the tokens end early, if they do. -/
def Event.parse (tokens : List Token) (stop : Option Error) : List Event × Option Error :=
  let (events, err) := Parser.collect (4 * tokens.length + 8) { tokens, stop } #[]
  (events.toList, err)

end StageTree.Yaml
