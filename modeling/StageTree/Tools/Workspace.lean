import StageTree.Files.Resolve
import StageTree.Raised
import StageTree.Report
import StageTree.Security
import StageTree.Settings
import StageTree.Tools.Argument

/-!
# Tools on a workspace

A workspace is what the tools run against: a volume of files and the directory that relative
paths start from, the cache of read documents shared by the calls, the settings, the replies the
network gives to file fetches, and the fetches made so far. A tool may change the cache and the
fetches made, and may fail; what it changed before a failure stays changed.

A pipeline file is found by resolving its path, inside a workspace directory when one is given
(a path that resolves outside it is refused), and then checked: it must exist, be a file and
not be sensitive. It is read through the cache, if it is no larger than the size limit and is
UTF-8. The outline, lookup and property tools report on a file found and read this way, or the
message of why it was not.
-/

namespace StageTree

/-- A fetch of a file from a hosted repository: owner, repository, path, and the revision and
token as the caller gave them. -/
structure FetchRequest where
  owner : String
  repo : String
  path : String
  ref : Json
  token : Json
deriving Inhabited

/-- What the network replies to a fetch. -/
inductive FetchReply where
  /-- The file's text. -/
  | content (text : String)
  /-- An error status of the host. -/
  | status (code : Int)
  /-- No answer, for the reason given. -/
  | failed (reason : String)
deriving Repr, Inhabited

/-- What the tools run against. -/
structure Workspace where
  volume : Files.Volume
  cwd : String
  cache : Store.Cache
  settings : Settings
  network : FetchRequest → FetchReply := fun _ => .failed "network disabled"
  fetched : List FetchRequest := []

/-- A tool: it may change the workspace and may fail, keeping the changes made before. -/
abbrev ToolM := ExceptT Raised (StateM Workspace)

namespace Workspace

/-- The absolute text of a path, relative ones taken from the working directory. -/
def absolute (w : Workspace) (p : String) : String :=
  ((Files.Path.parse w.cwd).join (Files.Path.parse p)).text

end Workspace

namespace Tools

/-- Runs a tool, giving its failure as a value instead of failing. -/
def attempt {α : Type} (x : ToolM α) : ToolM (Except Raised α) := ExceptT.lift x.run

/-- A result that may have failed, taken as a step that ends the tool with its failure. -/
def orRaise {α : Type} (r : Except Raised α) : ToolM α := ExceptT.mk (pure r)

/-- The real path of a path, failing when the path holds a NUL character or resolving it
loops. -/
def resolvePath (p : String) : ToolM String := do
  let w ← get
  if p.toList.contains '\x00' then throw .nulInPath
  match w.volume.resolve (w.absolute p) with
  | .ok r => pure r
  | .error reached => throw (.symlinkLoop reached)

/-- The real path of a path argument, inside a workspace directory when one is given (a
workspace argument that counts as true): none when it resolves outside it. The workspace is
resolved before the path is taken as one. -/
def resolveWithin (path workspace : Json) : ToolM (Option String) := do
  if truthy workspace then
    let base ← resolvePath (← orRaise (pathText workspace))
    let text ← orRaise (pathText path)
    let candidate := Files.Path.parse text
    let joined := if candidate.isAbsolute then text
      else ((Files.Path.parse base).join candidate).text
    let r ← resolvePath joined
    if (Files.Path.parse r).within (Files.Path.parse base) then return some r
    return none
  else return some (← resolvePath (← orRaise (pathText path)))

/-- The real path of a pipeline file, or the message of why it is refused: outside the
workspace directory (when one is given), missing, no file, or sensitive. -/
def resolvePipelinePath (path workspace : Json) : ToolM (Except String String) := do
  let some resolved ← resolveWithin path workspace
    | return .error ("Path is outside the workspace: " ++ shownText path)
  let w ← get
  if !w.volume.exists? resolved then return .error ("File does not exist: " ++ shownText path)
  if !w.volume.isFile resolved then return .error ("Path is not a file: " ++ shownText path)
  let name := Files.baseName resolved
  if Security.isSensitiveName name then
    return .error ("Refusing to read sensitive file: " ++ name)
  return .ok resolved

/-- Why a file could not be read into the cache. -/
inductive FileProblem where
  /-- Larger than the size limit; the message. -/
  | tooLarge (message : String)
  /-- Not UTF-8. -/
  | undecodable
  /-- Not readable as a file. -/
  | unreadable
deriving Inhabited

/-- Reads a file through the cache, under its path text as its name. -/
def getFile (path : String) : ToolM (Except FileProblem Store.Entry) := do
  let w ← get
  match w.volume.stat (w.absolute path) with
  | .ok (.file bytes) =>
    let limit := w.settings.maxFileSize
    if bytes.size > limit then
      return .error (.tooLarge ("File is " ++ toString bytes.size ++ " bytes, limit is " ++
        toString limit ++ ": " ++ path))
    let (r, cache) := w.cache.get path bytes none w.settings.maxAstNodes
    set { w with cache }
    match r with
    | .ok (e, _) => return .ok e
    | .error (.undecodable _) => return .error .undecodable
    | .error f => throw (Raised.ofFailure f)
  | _ => return .error .unreadable

/-- Finds and reads a pipeline file, or gives the message of why it could not. -/
def loadPipeline (path workspace : Json) : ToolM (Except String Store.Entry) := do
  match ← resolvePipelinePath path workspace with
  | .error m => return .error m
  | .ok resolved =>
    match ← getFile resolved with
    | .ok e => return .ok e
    | .error (.tooLarge m) => return .error m
    | .error .undecodable => return .error ("File is not valid UTF-8: " ++ shownText path)
    | .error .unreadable => return .error ("Could not read file: " ++ shownText path)

/-- A result that is only a message of what went wrong. -/
def errorJson (message : String) : Json := .obj [("error", .str message)]

/-- The result of finding and reading a pipeline file: what its entry tells, or the message. -/
def loadPipelineJson (path workspace : Json) : ToolM Json := do
  match ← loadPipeline path workspace with
  | .ok e => return e.meta
  | .error m => return errorJson m

/-- The result of resolving a pipeline path: the real path or the message of its refusal. -/
def resolvePipelineJson (path workspace : Json) : ToolM Json := do
  match ← resolvePipelinePath path workspace with
  | .ok r => return .obj [("resolved", .str r), ("error", .null)]
  | .error m => return .obj [("resolved", .null), ("error", .str m)]

/-- The outline of a pipeline file, with its name; flat when `flat` counts as true. -/
def getOutline (path workspace flat : Json) : ToolM Json := do
  match ← loadPipeline path workspace with
  | .error m => return errorJson m
  | .ok e =>
    let members ← orRaise (Report.outlineMembers e (truthy flat))
    return .obj (([("file", .str e.uri)] : Json.Members) ++ members)

/-- The pairs of a key in a pipeline file, with the ranges of the objects holding them; a key
that is no string names no pair. The key is reported as given. -/
def findNodes (path key workspace : Json) : ToolM Json := do
  match ← loadPipeline path workspace with
  | .error m => return errorJson m
  | .ok e =>
    let nodes ← match key with
      | .str k => orRaise (Report.occurrences (some e.lines) e.document k)
      | _ => pure []
    return .obj [("file", .str e.uri), ("key", key), ("count", .int nodes.length),
      ("nodes", .arr nodes), ("_meta", e.meta)]

/-- The numbers of a line and a character given as arguments, or none when one of them is below
zero. The line is compared first, and the character only when the line is not below zero; a
value compared that is no number is refused. -/
def positionOf (line character : Json) : Except Raised (Option (Numeric × Numeric)) := do
  let l ← comparedNumber "<" line
  if l.below 0 then return none
  let c ← comparedNumber "<" character
  if c.below 0 then return none
  return some (l, c)

/-- The offset of a line and character, neither below zero, clamped to the line. A line past
the last gives the end of the text; otherwise the line picks its start from the table, which a
double cannot do. A character that is a double counts by its whole part. -/
def offsetOf (t : LineTable) (line character : Numeric) : Except Raised Nat :=
  if line.atLeast t.lineCount then .ok t.length
  else match line with
    | .real _ => .error (.typeError "list indices must be integers or slices, not float")
    | .whole l =>
      let first := t.lineStart l.toNat
      let next := if l.toNat + 1 < t.lineCount then t.lineStart (l.toNat + 1) else t.length
      match character with
      | .whole c => .ok (max (min ((first : Int) + c) (next : Int)) (first : Int)).toNat
      | .real c =>
        let x := Float.ofNat first + c
        if Float.ofNat next ≤ x then .ok next
        else .ok x.floor.toUInt64.toNat

/-- The members under a property in the object around a position of a pipeline file. A
position with a line or character below zero is refused before the file is read. A property
that is no string names no pair, and a document with no tree has no object; the property and
position are reported as given. -/
def getPropertyValues (path line character property workspace : Json) : ToolM Json := do
  let some (l, c) ← orRaise (positionOf line character)
    | return errorJson ("Invalid position: line=" ++ shownText line ++ ", character=" ++
        shownText character)
  match ← loadPipeline path workspace with
  | .error m => return errorJson m
  | .ok e =>
    let values ← match e.document.first with
      | none => pure none
      | some root => do
        let offset ← orRaise (offsetOf e.lines l c)
        match property with
        | .str name => orRaise (Report.scopeAround root offset name)
        | _ => pure none
    return .obj [("file", .str e.uri), ("property", property),
      ("position", .obj [("line", line), ("character", character)]),
      ("values", Report.scopeJson values), ("_meta", e.meta)]

end Tools

end StageTree
