import StageTree.Number.Read
import StageTree.Text.Case

/-!
# Settings from the environment

The settings are read from six environment variables each time they are needed. A size or count
is a positive integer after trimming blanks; anything else (empty, not an integer, zero or
negative) gives its default. Remote fetching is off when the local-only variable, in lower case,
is `true`, `1` or `yes`. The log level is one of five names after trimming and raising the case,
else `WARNING`. The token is taken as it is.
-/

namespace StageTree

/-- The raw values of the environment variables the settings come from. -/
structure Environment where
  localOnly : Option String := none
  maxFileSize : Option String := none
  cacheSize : Option String := none
  maxAstNodes : Option String := none
  logLevel : Option String := none
  githubToken : Option String := none
deriving Repr, Inhabited

/-- The raw values of the environment variables, each looked up by its name in a monad. -/
def Environment.readWith {m : Type → Type} [Monad m] (lookup : String → m (Option String)) :
    m Environment := do
  return { localOnly := ← lookup "PIPEOUTLINE_LOCAL_ONLY"
           maxFileSize := ← lookup "PIPEOUTLINE_MAX_FILE_SIZE"
           cacheSize := ← lookup "PIPEOUTLINE_CACHE_SIZE"
           maxAstNodes := ← lookup "PIPEOUTLINE_MAX_AST_NODES"
           logLevel := ← lookup "PIPEOUTLINE_LOG_LEVEL"
           githubToken := ← lookup "GITHUB_TOKEN" }

/-- The raw values of the environment variables, looked up by their names. -/
def Environment.ofLookup (lookup : String → Option String) : Environment :=
  Id.run (Environment.readWith fun n => pure (lookup n))

/-- The settings. -/
structure Settings where
  localOnly : Bool
  maxFileSize : Nat
  cacheSize : Nat
  maxAstNodes : Nat
  logLevel : String
  githubToken : String
deriving Repr, Inhabited

namespace Settings

/-- The largest file read, in bytes, unless set. -/
def defaultMaxFileSize : Nat := 1048576

/-- The number of documents cached, unless set. -/
def defaultCacheSize : Nat := 64

/-- The node budget of reading one stream, unless set. -/
def defaultMaxAstNodes : Nat := 250000

/-- The log levels, in rising order. -/
def logLevels : List String := ["DEBUG", "INFO", "WARNING", "ERROR", "CRITICAL"]

/-- A positive integer setting, or `default`. -/
def positiveOr (default : Nat) (raw : Option String) : Nat :=
  let s := Text.trimBlanks (raw.getD "")
  if s.isEmpty then default
  else match Number.readInt 10 s with
    | some v => if v > 0 then v.toNat else default
    | none => default

/-- The settings an environment gives. -/
def ofEnvironment (e : Environment) : Settings where
  localOnly := ["true", "1", "yes"].contains (Text.lower (e.localOnly.getD ""))
  maxFileSize := positiveOr defaultMaxFileSize e.maxFileSize
  cacheSize := positiveOr defaultCacheSize e.cacheSize
  maxAstNodes := positiveOr defaultMaxAstNodes e.maxAstNodes
  logLevel :=
    let level := Text.upper (Text.trimBlanks (e.logLevel.getD "WARNING"))
    if logLevels.contains level then level else "WARNING"
  githubToken := e.githubToken.getD ""

end Settings

end StageTree
