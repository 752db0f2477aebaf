import StageTree.Text.Str
import StageTree.Yaml.Mark

/-!
# Tokens of a YAML stream

The tokens a YAML 1.1 text falls into: the stream's ends, directives, document markers, the
block structure's starts and ends, flow brackets, the indicators for keys, values and entries,
anchors, aliases, tags and scalars. Each token spans two marks.
-/

namespace StageTree.Yaml

/-- The style a scalar is written in. -/
inductive ScalarStyle where
  | plain
  | singleQuoted
  | doubleQuoted
  | literal
  | folded
deriving Repr, DecidableEq, Inhabited

/-- The value of a directive: a version, a tag handle with its prefix, or one the reader
skips. -/
inductive DirectiveValue where
  | version (major minor : Nat)
  | tagPrefix (handle pre : String)
  | skipped
deriving Repr, Inhabited

/-- What a token is. -/
inductive TokenKind where
  | streamStart
  | streamEnd
  | directive (name : String) (value : DirectiveValue)
  | documentStart
  | documentEnd
  | blockSequenceStart
  | blockMappingStart
  | blockEnd
  | flowSequenceStart
  | flowMappingStart
  | flowSequenceEnd
  | flowMappingEnd
  | key
  | value
  | blockEntry
  | flowEntry
  | reference (name : String)
  | anchor (name : String)
  | tag (handle : Option String) (suffix : String)
  | scalar (text : Text.Str) (style : ScalarStyle)
deriving Repr, Inhabited

/-- The kinds a parser asks for by class, without their payload. -/
inductive TokenClass where
  | streamStart | streamEnd | directive | documentStart | documentEnd
  | blockSequenceStart | blockMappingStart | blockEnd
  | flowSequenceStart | flowMappingStart | flowSequenceEnd | flowMappingEnd
  | key | value | blockEntry | flowEntry | reference | anchor | tag | scalar
deriving DecidableEq, Repr

namespace TokenKind

/-- The name messages give a token of this kind. -/
def name : TokenKind → String
  | streamStart => "<stream start>"
  | streamEnd => "<stream end>"
  | directive .. => "<directive>"
  | documentStart => "<document start>"
  | documentEnd => "<document end>"
  | blockSequenceStart => "<block sequence start>"
  | blockMappingStart => "<block mapping start>"
  | blockEnd => "<block end>"
  | flowSequenceStart => "["
  | flowMappingStart => "\x7b"
  | flowSequenceEnd => "]"
  | flowMappingEnd => "\x7d"
  | key => "?"
  | value => ":"
  | blockEntry => "-"
  | flowEntry => ","
  | reference .. => "<alias>"
  | anchor .. => "<anchor>"
  | tag .. => "<tag>"
  | scalar .. => "<scalar>"

/-- The class of a token kind. -/
def cls : TokenKind → TokenClass
  | streamStart => .streamStart
  | streamEnd => .streamEnd
  | directive .. => .directive
  | documentStart => .documentStart
  | documentEnd => .documentEnd
  | blockSequenceStart => .blockSequenceStart
  | blockMappingStart => .blockMappingStart
  | blockEnd => .blockEnd
  | flowSequenceStart => .flowSequenceStart
  | flowMappingStart => .flowMappingStart
  | flowSequenceEnd => .flowSequenceEnd
  | flowMappingEnd => .flowMappingEnd
  | key => .key
  | value => .value
  | blockEntry => .blockEntry
  | flowEntry => .flowEntry
  | reference .. => .reference
  | anchor .. => .anchor
  | tag .. => .tag
  | scalar .. => .scalar

end TokenKind

/-- A token and the marks where it starts and ends. -/
structure Token where
  kind : TokenKind
  start : Mark
  stop : Mark
deriving Repr, Inhabited

/-- Whether a token is of one of the classes `cs`. -/
def Token.isOneOf (t : Token) (cs : List TokenClass) : Bool := cs.contains t.kind.cls

end StageTree.Yaml
