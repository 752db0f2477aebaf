import StageTree.Store.Cache

/-!
# Failures that end a tool

A tool ends early, with no result of its own, when a path does not name a usable directory,
an ignore file cannot be read or holds an invalid pattern, an ignore pattern does not compile,
resolving a path loops, a text to read holds a surrogate half, reading a document faults, the
cache runs out of entries to drop, a call lacks an argument or has one of a kind its use does
not take, or a value to show holds an integer too long to write; a path to resolve may also hold
a NUL character. Each such failure has the message it is reported with. The first three kinds, a
text with a surrogate half and a NUL in a path are bad values, which listing files reports in
its result instead of ending.
-/

namespace StageTree

/-- A failure that ends a tool. -/
inductive Raised where
  /-- A path does not name what is needed. -/
  | invalid (message : String)
  /-- A text file is not UTF-8. -/
  | undecodable (e : Text.Utf8.DecodeError)
  /-- A text holds a surrogate half, which has no UTF-8 form. -/
  | unencodable (e : Text.Utf8.EncodeError)
  /-- An ignore pattern is invalid; the message names its line. -/
  | badPattern (message : String)
  /-- An ignore pattern's expression does not compile; the message says where. -/
  | badExpression (message : String)
  /-- Resolving a path loops; the path reached. -/
  | symlinkLoop (path : String)
  /-- A path to resolve holds a NUL character, which no file name can. -/
  | nulInPath
  /-- Reading a document faulted. -/
  | fault (f : Yaml.Fault)
  /-- The cache ran out of entries to drop. -/
  | nothingToDrop
  /-- A call lacks an argument. -/
  | missingArgument (name : String)
  /-- A value to show holds an integer too long to write. -/
  | intTooLong
  /-- An argument is of a kind its use does not take; the message says which. -/
  | typeError (message : String)
  /-- An argument of the wrong kind lacks what its use needs; the message says what. -/
  | attributeError (message : String)
deriving Inhabited

namespace Raised

/-- The message of a failure. -/
def message : Raised → String
  | invalid m => m
  | undecodable e => e.message
  | unencodable e => e.message
  | badPattern m => m
  | badExpression m => m
  | symlinkLoop p => "Symlink loop from " ++ Text.quote p
  | nulInPath => "embedded null byte"
  | fault f => f.message
  | nothingToDrop => Text.quote "dictionary is empty"
  | missingArgument name => Text.quote name
  | intTooLong => Number.intTooLongMessage
  | typeError m => m
  | attributeError m => m

/-- Whether a failure is a bad value. -/
def isBadValue : Raised → Bool
  | invalid _ | undecodable _ | unencodable _ | badPattern _ | nulInPath => true
  | fault .codePointTooLarge => true
  | _ => false

/-- The failure of getting a document into the cache. -/
def ofFailure : Store.Failure → Raised
  | .undecodable (.decode e) => undecodable e
  | .undecodable (.encode e) => unencodable e
  | .fault f => fault f
  | .nothingToDrop => nothingToDrop

end Raised

end StageTree
