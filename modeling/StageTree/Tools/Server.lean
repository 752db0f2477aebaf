import StageTree.Tools.Discover
import StageTree.Tools.Remote

/-!
# The tool server

The server offers five tools, each with a description, the schema of its arguments and the names
of the ones it requires.
A call names a tool and gives its arguments as a JSON object, whose values the tool takes as
they are. A required argument that is missing fails the call; a missing optional one takes its
default (no workspace, no outline flattening, property `inputs`, depth 5, no hidden directories,
no links, only pipelines). An unknown tool's result says so. A call that fails gives a result
holding only the failure's message.
-/

namespace StageTree.Tools

/-- An argument of a tool: its name, the JSON type of its value, what it is for, and the value
it takes when it is left out, if it has one. -/
structure Parameter where
  name : String
  type : String
  description : String
  default : Option Json := none
deriving Inhabited

/-- The schema of an argument: its type, description and default. -/
def Parameter.schema (p : Parameter) : Json :=
  let default : Json.Members := match p.default with
    | some d => [("default", d)]
    | none => []
  let described : Json.Members := [("type", .str p.type), ("description", .str p.description)]
  .obj (described ++ default)

/-- A tool as the server lists it: its name, what it does, its arguments and the names of those
it requires. -/
structure ToolInfo where
  name : String
  description : String
  parameters : List Parameter
  required : List String
deriving Inhabited

/-- The names of a tool's arguments, in the order it lists them. -/
def ToolInfo.properties (t : ToolInfo) : List String := t.parameters.map (·.name)

/-- The schema of a tool's arguments: an object with the listed properties and required names. -/
def ToolInfo.inputSchema (t : ToolInfo) : Json :=
  .obj [("type", .str "object"),
    ("properties", .obj (t.parameters.map fun p => (p.name, p.schema))),
    ("required", .arr (t.required.map Json.text))]

/-- A tool's entry in the server's list: its name, description and argument schema. -/
def ToolInfo.toJson (t : ToolInfo) : Json :=
  .obj [("name", .str t.name), ("description", .str t.description),
    ("inputSchema", t.inputSchema)]

/-- The workspace argument that the file tools share. -/
def workspaceParameter : Parameter :=
  ⟨"workspace", "string", "Optional workspace root; the file path must resolve inside it", none⟩

/-- The flat-list argument of the outline tools. -/
def flatParameter : Parameter :=
  ⟨"flat", "boolean", "Return a pre-order list with depths instead of a tree", some (.bool false)⟩

/-- The path argument of the file tools. -/
def pathParameter : Parameter := ⟨"path", "string", "Path to the pipeline file", none⟩

/-- The tools the server offers. -/
def catalog : List ToolInfo :=
  [⟨"get_outline",
     "Get the outline of a pipeline YAML file.\n\n" ++
     "Returns a tree of the structurally meaningful sections only: stage, job,\n" ++
     "deployment, task and script entries. stages/steps/jobs arrays are folded\n" ++
     "into their parents, and nothing inside a task is listed.\n\n" ++
     "Every node carries a range covering its whole enclosing block.",
     [pathParameter, flatParameter, workspaceParameter], ["path"]⟩,
   ⟨"find_nodes",
     "Find every occurrence of a key in a pipeline file.\n\n" ++
     "Any key is accepted (e.g. \"job\", \"template\", \"condition\"). Results are in\n" ++
     "document order and each range covers the object holding the key.",
     [pathParameter, ⟨"key", "string", "Property key to look for", none⟩, workspaceParameter],
     ["path", "key"]⟩,
   ⟨"get_property_values",
     "Read the values nested under a property at a cursor position.\n\n" ++
     "Finds the object enclosing the zero-based line/character position and\n" ++
     "returns the name/value pairs under its `property_name` entry (for example\n" ++
     "a task's \"inputs\"). values is null when that object has no such property\n" ++
     "or has more than one.",
     [pathParameter, ⟨"line", "integer", "Zero-based line of the cursor", none⟩,
      ⟨"character", "integer", "Zero-based character of the cursor", none⟩,
      ⟨"property_name", "string", "Property to read (default: inputs)", some (.str "inputs")⟩,
      workspaceParameter],
     ["path", "line", "character"]⟩,
   ⟨"list_pipeline_files",
     "List pipeline YAML files in a local directory.\n\n" ++
     "Respects .gitignore rules, skips sensitive files and files whose content\n" ++
     "looks like it holds secrets. Reports the outline node count of each file.",
     [⟨"path", "string", "Path to local directory", none⟩,
      ⟨"max_depth", "integer", "Maximum directory depth to crawl (default: 5)", some (.int 5)⟩,
      ⟨"include_hidden", "boolean", "Whether to include hidden directories (starting with .)",
        some (.bool false)⟩,
      ⟨"follow_symlinks", "boolean", "Whether to follow symbolic links (default: false for safety)",
        some (.bool false)⟩,
      ⟨"pipelines_only", "boolean", "Leave out YAML files with an empty outline",
        some (.bool true)⟩],
     ["path"]⟩,
   ⟨"get_remote_outline",
     "Get the outline of a pipeline file in a GitHub repository.\n\n" ++
     "Private repositories need the GITHUB_TOKEN environment variable.\n" ++
     "Blocked in local-only mode (PIPEOUTLINE_LOCAL_ONLY=true).",
     [⟨"repo", "string", "GitHub repository URL or owner/repo string", none⟩,
      ⟨"path", "string", "Path of the pipeline file within the repository", none⟩,
      ⟨"ref", "string", "Branch, tag or commit (default branch if omitted)", none⟩,
      flatParameter],
     ["repo", "path"]⟩]

/-- The arguments of a call. -/
abbrev Arguments := List (Text.Str × Json)

/-- An argument given, if it is; of a name given twice, the later value. -/
def Arguments.find (args : Arguments) (k : String) : Option Json :=
  (args.reverse.find? (·.1 == Text.Str.ofString k)).map (·.2)

/-- A required argument, failing when it is missing. -/
def required (args : Arguments) (k : String) : ToolM Json :=
  match args.find k with
  | some v => pure v
  | none => throw (.missingArgument k)

/-- An optional argument, or its default when it is missing. -/
def optional (args : Arguments) (k : String) (default : Json) : Json :=
  (args.find k).getD default

/-- The result of a tool call, before failures are turned into results. The required
arguments are taken in the order the tool lists them. -/
def dispatch (name : String) (args : Arguments) : ToolM Json :=
  match name with
  | "get_outline" => do
    getOutline (← required args "path") (optional args "workspace" .null)
      (optional args "flat" (.bool false))
  | "find_nodes" => do
    let path ← required args "path"
    findNodes path (← required args "key") (optional args "workspace" .null)
  | "get_property_values" => do
    let path ← required args "path"
    let line ← required args "line"
    let character ← required args "character"
    getPropertyValues path line character (optional args "property_name" (.str "inputs"))
      (optional args "workspace" .null)
  | "list_pipeline_files" => do
    listPipelineFiles (← required args "path") (optional args "max_depth" (.int 5))
      (optional args "include_hidden" (.bool false)) (optional args "follow_symlinks" (.bool false))
      .null (optional args "pipelines_only" (.bool true))
  | "get_remote_outline" => do
    let repo ← required args "repo"
    getRemoteOutline repo (← required args "path") (optional args "ref" .null)
      (optional args "flat" (.bool false)) .null
  | _ => pure (errorJson ("Unknown tool: " ++ name))

/-- The result of a tool call: a failure becomes a result holding its message. -/
def callTool (name : String) (args : Arguments) : ToolM Json := do
  match ← attempt (dispatch name args) with
  | .ok r => pure r
  | .error e => pure (errorJson e.message)

end StageTree.Tools
