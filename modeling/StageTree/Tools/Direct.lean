import StageTree.Tools.Server

/-!
# Calling the tool functions by name

Besides the server's tools, the functions behind them can be called directly with their
arguments given by name: the outline, lookup and property functions, listing and discovering
files, and finding a pipeline file with or without reading it. A name that the function does not
take fails the call; so do missing required arguments, named all together. A missing optional
argument takes its default. The values are taken as they are given, as the tools take them.
-/

namespace StageTree.Tools

/-- A parameter of a function: its name and, for an optional one, its default. -/
structure Keyword where
  name : String
  default : Option Json := none

/-- An optional parameter and its default. -/
def Keyword.optional (name : String) (default : Json) : Keyword := ⟨name, some default⟩

/-- A required parameter. -/
def Keyword.required (name : String) : Keyword := ⟨name, none⟩

/-- A name in quotes. -/
def quoted (name : String) : String := "\x27" ++ name ++ "\x27"

/-- Quoted names joined as a list in prose: `'a'`, `'a' and 'b'`, `'a', 'b', and 'c'`. -/
def proseList : List String → String
  | [] => ""
  | [a] => quoted a
  | [a, b] => quoted a ++ " and " ++ quoted b
  | names =>
    ", ".intercalate (names.dropLast.map quoted) ++ ", and " ++ quoted (names.getLast?.getD "")

/-- The message of a call to `fn` that lacks the required arguments `names`. -/
def missingMessage (fn : String) (names : List String) : String :=
  fn ++ "() missing " ++ toString names.length ++ " required positional argument" ++
    (if names.length == 1 then "" else "s") ++ ": " ++ proseList names

/-- The value of each parameter of `fn` from arguments given by name: a name it does not take
fails, the first one given that it does not take; then the required ones missing fail. -/
def bindKeywords (fn : String) (params : List Keyword) (args : Arguments) :
    Except Raised (String → Json) := do
  if let some (k, _) := args.find? fun (k, _) => !params.any (Text.Str.ofString ·.name == k) then
    throw (.typeError (fn ++ "() got an unexpected keyword argument " ++ quoted k.toString))
  let missing := params.filter fun p => p.default.isNone && (args.find p.name).isNone
  if !missing.isEmpty then throw (.typeError (missingMessage fn (missing.map (·.name))))
  return fun k => match args.find k with
    | some v => v
    | none => ((params.find? (·.name == k)).bind (·.default)).getD .null

/-- The parameters of the functions that can be called by name, in their order. -/
def keywordsOf : String → Option (List Keyword)
  | "get_outline" =>
    some [.required "path", .optional "workspace" .null, .optional "flat" (.bool false)]
  | "find_nodes" => some [.required "path", .required "key", .optional "workspace" .null]
  | "get_property_values" =>
    some [.required "path", .required "line", .required "character", .required "property_name",
      .optional "workspace" .null]
  | "list_pipeline_files" =>
    some [.required "path", .optional "max_depth" (.int 5),
      .optional "include_hidden" (.bool false), .optional "follow_symlinks" (.bool false),
      .optional "extra_ignore_patterns" .null, .optional "pipelines_only" (.bool true)]
  | "discover_yaml_files" =>
    some [.required "base_path", .optional "max_depth" (.int 5),
      .optional "include_hidden" (.bool false), .optional "follow_symlinks" (.bool false),
      .optional "extra_ignore_patterns" .null]
  | "load_pipeline" => some [.required "path", .optional "workspace" .null]
  | "resolve_pipeline_path" => some [.required "path", .optional "workspace" .null]
  | _ => none

/-- Runs a function that can be called by name on the values of its parameters. -/
def runKeywords (fn : String) (a : String → Json) : ToolM Json :=
  match fn with
  | "get_outline" => getOutline (a "path") (a "workspace") (a "flat")
  | "find_nodes" => findNodes (a "path") (a "key") (a "workspace")
  | "get_property_values" =>
    getPropertyValues (a "path") (a "line") (a "character") (a "property_name") (a "workspace")
  | "list_pipeline_files" =>
    listPipelineFiles (a "path") (a "max_depth") (a "include_hidden") (a "follow_symlinks")
      (a "extra_ignore_patterns") (a "pipelines_only")
  | "discover_yaml_files" =>
    (fun found => Json.arr (found.map Json.text)) <$>
      discoverYamlFiles (a "base_path") (a "max_depth") (a "include_hidden")
        (a "follow_symlinks") (a "extra_ignore_patterns")
  | "load_pipeline" => loadPipelineJson (a "path") (a "workspace")
  | "resolve_pipeline_path" => resolvePipelineJson (a "path") (a "workspace")
  | _ => pure .null

/-- The result of calling a function by name with arguments given by name; none when no
function has that name. -/
def callByName (fn : String) (args : Arguments) : Option (ToolM Json) :=
  (keywordsOf fn).map fun params => do
    runKeywords fn (← orRaise (bindKeywords fn params args))

end StageTree.Tools
