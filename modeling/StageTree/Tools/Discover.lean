import StageTree.Ignore.Pattern
import StageTree.Tools.Workspace

/-!
# Finding pipeline files

Discovery walks a directory (resolved first; it must exist and be a directory) to a depth limit
and lists the relative paths of its YAML files (a `.yml` or `.yaml` suffix in any case), sorted.
It passes over links unless asked to follow them, anything that resolves outside the directory,
sensitive files, well-known tool and build directories, hidden directories unless asked, and
whatever the directory's ignore file or the extra patterns ignore (a directory is tested with
a trailing slash). An ignore file that is not UTF-8 or holds an invalid pattern fails it, as
does an ignore pattern that does not compile.

Listing reads every file found through the cache and reports, for each, its count of outline
nodes and of reading failures. It leaves out files it cannot read, files holding secrets
(which it names, and drops from the cache), and, when only pipelines are wanted, files with an
empty outline. A discovery that fails on a bad value is reported as the listing's result.
Both take their arguments as the caller gives them (see `Tools.Argument`).
-/

namespace StageTree.Tools

/-- Directories never walked into. -/
def skippedDirs : List String :=
  [".git", "node_modules", "__pycache__", ".venv", "venv", "dist", "build", "target", ".idea",
    ".vscode", ".pytest_cache", ".mypy_cache", ".tox", "vendor", "bin", "obj"]

/-- The suffixes of YAML files. -/
def yamlSuffixes : List String := [".yml", ".yaml"]

/-- How a directory is walked: its real path, whether hidden directories and links are taken,
and which relative paths are ignored. -/
structure Walk where
  base : Files.Path
  includeHidden : Bool
  followLinks : Bool
  ignored : String → Bool

/-- What a walk makes of an entry `name` it goes on with, reached at the path `item` and at `rel`
below the base, in a volume `v`: a YAML file that is neither sensitive nor ignored is listed
after `found`; a directory that is neither skipped, hidden (unless asked) nor ignored is walked
by `sub`, its files listed after `found`. -/
def takeEntry (walk : Walk) (sub : String → List String → ToolM (List String))
    (v : Files.Volume) (rel found : List String) (name item : String) : ToolM (List String) := do
  let relParts := rel ++ [name]
  let relText := "/".intercalate relParts
  if v.isFile item then
    if !yamlSuffixes.contains (Text.lower (Files.Path.suffixOf name)) then return found
    if Security.isSensitiveName relText then return found
    if walk.ignored relText then return found
    return found ++ [relText]
  else if v.isDir item then
    if skippedDirs.contains name then return found
    if !walk.includeHidden && relParts.any (·.startsWith ".") then return found
    if walk.ignored (relText ++ "/") then return found
    return found ++ (← sub item relParts)
  else return found

/-- One entry `name` of the directory `current` (at `rel` below the base), after the files
`found` so far: passed over when it resolves outside the base, or is a link and links are not
followed; else taken. -/
def crawlStep (walk : Walk) (sub : String → List String → ToolM (List String))
    (current : String) (rel found : List String) (name : String) : ToolM (List String) := do
  let item := ((Files.Path.parse current).join ⟨"", [name]⟩).text
  let resolved ← resolvePath item
  let w ← get
  let inside := (Files.Path.parse resolved).within walk.base
  if w.volume.isLink item then
    if !walk.followLinks || !inside then return found
  else if !inside then return found
  takeEntry walk sub w.volume rel found name item

/-- The relative paths of the YAML files in the directory `current` (at `rel` below the base)
and below it, at most `levels` levels down. -/
def crawl (walk : Walk) : (levels : Nat) → (current : String) → (rel : List String) →
    ToolM (List String)
  | 0, _, _ => pure []
  | levels + 1, current, rel => do
    let some names := (← get).volume.list? current | pure []
    names.foldlM (crawlStep walk (crawl walk levels) current rel) []

/-- As many levels as a walk of a volume can go down. Each level's directory is looked up along
the unresolved path of names that reached it, and a lookup follows at most `linkLimit` links;
between two links it steps down through directories only, at most as many as the volume has
entries. So a walk that goes round a link back to a directory above ends too. -/
def walkLevels (v : Files.Volume) : Nat :=
  (Files.Volume.linkLimit + 1) * (v.entries.length + 1) + 1

/-- The failure of an ignore line that gives no rule. -/
def lineFailure : Ignore.LineError → Raised
  | .invalid m => .badPattern m
  | .uncompilable m => .badExpression m

/-- The rules of an ignore file's bytes: failing when they are not UTF-8 or a line is invalid. -/
def ignoreFileSpec (bytes : ByteArray) : ToolM Ignore.Spec := do
  match Text.Utf8.decodeStream bytes with
  | .error e => throw (.undecodable e)
  | .ok text =>
    match Ignore.Spec.ofLines (universalLines text) with
    | .ok spec => pure spec
    | .error e => throw (lineFailure e)

/-- The rules of extra patterns given as an argument: the items of a list (or the keys of an
object), one per line, those counting as false left out. Another value is refused as no list;
an item that is no string is refused once the lines before it have given their rules. -/
def extraSpec (patterns : Json) : ToolM Ignore.Spec := do
  let items ← match patterns with
    | .arr xs => pure xs
    | .obj ms => pure (ms.map fun (k, _) => .str k)
    | v => throw (.typeError ("lines:" ++ reprOf v ++ " is not an iterable."))
  let textOf? : Json → Option String := fun | .str t => some t.toString | _ => none
  let lines := items.filter truthy
  let texts := (lines.takeWhile fun v => (textOf? v).isSome).filterMap textOf?
  match Ignore.Spec.ofLines texts with
  | .error e => throw (lineFailure e)
  | .ok spec =>
    match lines.find? fun v => (textOf? v).isNone with
    | some v =>
      throw (.typeError ("pattern:" ++ reprOf v ++ " is not a string, re.Pattern, or None."))
    | none => pure spec

/-- How many levels down a walk goes for a depth limit given as an argument: a level is walked
unless its depth exceeds the limit, so a limit below zero walks none, and a double walks as
many as its whole part allows. `deepest` levels are as many as any walk can take, which a
limit past them, infinite or no number at all, also gives. A limit that is no number is
refused. -/
def levelsFor (maxDepth : Json) (deepest : Nat) : Except Raised Nat :=
  match numericOf? maxDepth with
  | none => .error (comparisonError ">" "int" (kindOf maxDepth))
  | some (.whole i) => .ok (if i < 0 then 0 else min (i + 1).toNat deepest)
  | some (.real x) =>
    if x < 0 then .ok 0
    else if x.isNaN || Float.ofNat deepest ≤ x then .ok deepest
    else .ok (min (x.floor.toUInt64.toNat + 1) deepest)

/-- The rules that a walk of the directory `base` ignores paths by: those of the directory's
ignore file, when it has one that can be read, and those of the extra patterns, when they count
as true. -/
def ignoreSpecs (base : String) (extra : Json) :
    ToolM (Option Ignore.Spec × Option Ignore.Spec) := do
  let w ← get
  let ignoreFile := ((Files.Path.parse base).join ⟨"", [".gitignore"]⟩).text
  let fileSpec ← if w.volume.exists? ignoreFile then
      match w.volume.read? ignoreFile with
      | some bytes => some <$> ignoreFileSpec bytes
      | none => pure none
    else pure none
  let extraRules ← if truthy extra then some <$> extraSpec extra else pure none
  return (fileSpec, extraRules)

/-- Whether the ignore file's rules or the extra patterns' rules ignore a relative path. -/
def ignoredBy (specs : Option Ignore.Spec × Option Ignore.Spec) (rel : String) : Bool :=
  (specs.1.map (·.ignores rel)).getD false || (specs.2.map (·.ignores rel)).getD false

/-- The sorted relative paths of the YAML files below a directory, at most `maxDepth` levels
down; the flags count as true or not, and extra ignore patterns are taken when they count as
true. -/
def discoverYamlFiles (basePath maxDepth includeHidden followLinks extra : Json) :
    ToolM (List String) := do
  let baseText ← orRaise (pathText basePath)
  let base ← resolvePath baseText
  let w ← get
  if !w.volume.exists? base then throw (.invalid ("Path does not exist: " ++ baseText))
  if !w.volume.isDir base then throw (.invalid ("Path is not a directory: " ++ baseText))
  let specs ← ignoreSpecs base extra
  let walk : Walk :=
    ⟨Files.Path.parse base, truthy includeHidden, truthy followLinks, ignoredBy specs⟩
  let levels ← orRaise (levelsFor maxDepth (walkLevels w.volume))
  let found ← crawl walk levels base []
  return found.mergeSort (fun a b => decide (a ≤ b))

/-- The pipeline files below a directory, with their counts of outline nodes and of reading
failures; files holding secrets are left out and named. -/
def listPipelineFiles (path maxDepth includeHidden followLinks extra pipelinesOnly : Json) :
    ToolM Json := do
  let base ← resolvePath (← orRaise (pathText path))
  match ← attempt (discoverYamlFiles path maxDepth includeHidden followLinks extra) with
  | .error e =>
    if e.isBadValue then
      return .obj [("success", .bool false), ("error", .str e.message), ("path", .str base)]
    throw e
  | .ok candidates =>
    let (files, secret) ← candidates.foldlM (fun (files, secret) rel => do
      let full := ((Files.Path.parse base).join (Files.Path.parse rel)).text
      match ← getFile full with
      | .error _ => return (files, secret)
      | .ok e =>
        if !(Security.secretsIn e.text).isEmpty then
          modify fun w => { w with cache := (w.cache.invalidate e.uri).1 }
          return (files, secret ++ [rel])
        let count := (← orRaise (Report.listing e)).length
        if truthy pipelinesOnly && count == 0 then return (files, secret)
        return (files ++ [Json.obj [("path", .str rel), ("node_count", .int count),
          ("parse_errors", .int e.document.errors.length)]], secret))
      (([] : List Json), ([] : List String))
    let skipped : Json.Members :=
      if secret.isEmpty then [] else [("skipped_secrets", .arr (secret.map Json.text))]
    let listed : Json.Members := [("success", .bool true), ("path", .str base),
      ("file_count", .int files.length), ("files", .arr files)]
    return .obj (listed ++ skipped)

end StageTree.Tools
