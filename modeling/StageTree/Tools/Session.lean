import StageTree.Json.Read
import StageTree.Tools.Server

/-!
# A session of the tool server

The server speaks JSON-RPC 2.0, one message a line, and answers each request by its method:

- `initialize`: the protocol version (the client's when the server speaks it, else the latest it
  speaks), its capabilities (tools only) and its name and version;
- `ping`: an empty result;
- `tools/list`: every tool of the catalog with its description and argument schema;
- `tools/call`: the named tool's result, as indented JSON text in a single text item. The
  arguments are checked against the tool's schema first: a missing required argument, and then
  an argument of the wrong type, gives an error result naming it. A tool the catalog does not
  hold is called unchecked and says that it is unknown.

Any other request, and one whose parameters do not fit its method, is refused as invalid. A
notification (a message without an id) and a line that is no JSON object get no answer. The
workspace, and with it the cache, lives as long as the session.
-/

namespace StageTree.Tools

/-- The protocol versions the server speaks, oldest first. -/
def protocolVersions : List String := ["2024-11-05", "2025-03-26", "2025-06-18", "2025-11-25"]

/-- The latest protocol version the server speaks. -/
def latestProtocolVersion : String := "2025-11-25"

/-- The name and version the server gives. -/
def serverInfo : Json := .obj [("name", .str "stagetree"), ("version", .str "0.1.0")]

/-- Whether a value is of a schema type; an integer may be written as a double without a
fraction. -/
def isOfType (v : Json) (type : String) : Bool :=
  match type, v with
  | "string", .str _ => true
  | "boolean", .bool _ => true
  | "integer", .int _ => true
  | "integer", .float x => x.isFinite && x.floor == x
  | "number", .int _ => true
  | "number", .float _ => true
  | "object", .obj _ => true
  | "array", .arr _ => true
  | "null", .null => true
  | "string", _ | "boolean", _ | "integer", _ | "number", _ | "object", _ | "array", _
  | "null", _ => false
  | _, _ => true

/-- What is wrong with a call's arguments against a tool's schema, if anything: the first
missing required argument, else the first argument, in the order the tool lists them, whose
value is not of its type. -/
def ToolInfo.argumentFault (t : ToolInfo) (args : Arguments) : Option String :=
  match t.required.find? fun k => (args.find k).isNone with
  | some k => some (Text.quote k ++ " is a required property")
  | none =>
    t.parameters.findSome? fun p =>
      match args.find p.name with
      | some v =>
        if isOfType v p.type then none
        else some (reprOf v ++ " is not of type " ++ Text.quote p.type)
      | none => none

/-- A call's result of one text item, marked as an error or not. -/
def textResult (text : String) (isError : Bool) : Json :=
  .obj [("content", .arr [.obj [("type", .str "text"), ("text", .str text)]]),
    ("isError", .bool isError)]

/-- The result of a tool call: the tool's result as indented JSON text, or, when the arguments
do not fit the tool's schema, an error result saying why. -/
def callResult (name : String) (args : Arguments) : ToolM Json := do
  let fault := (catalog.find? (·.name == name)).bind (·.argumentFault args)
  match fault with
  | some m => return textResult ("Input validation error: " ++ m) true
  | none => return textResult (Json.indented 2 (← callTool name args)) false

/-- The answer carrying a request's result. -/
def resultMessage (id result : Json) : Json :=
  .obj [("jsonrpc", .str "2.0"), ("id", id), ("result", result)]

/-- The answer refusing a request whose method or parameters the server does not take. -/
def invalidMessage (id : Json) : Json :=
  .obj [("jsonrpc", .str "2.0"), ("id", id), ("error",
    .obj [("code", .int (-32602)), ("message", .str "Invalid request parameters"),
      ("data", .str "")])]

/-- The result of an initialize request with the version the client asks for. -/
def initializeResult (asked : String) : Json :=
  .obj [("protocolVersion",
      .str (if protocolVersions.contains asked then asked else latestProtocolVersion)),
    ("capabilities",
      .obj [("experimental", .obj []), ("tools", .obj [("listChanged", .bool false)])]),
    ("serverInfo", serverInfo)]

/-- The answer to a request with an id, by its method and parameters. -/
def answerRequest (id : Json) (method : String) (params : Option Json) : ToolM Json := do
  match method, params with
  | "initialize", some p =>
    match p.member? "protocolVersion" with
    | some (.str asked) => return resultMessage id (initializeResult asked.toString)
    | _ => return invalidMessage id
  | "ping", _ => return resultMessage id (.obj [])
  | "tools/list", _ => return resultMessage id (.obj [("tools", .arr (catalog.map (·.toJson)))])
  | "tools/call", some p =>
    match p.member? "name", p.member? "arguments" with
    | some (.str name), some (.obj args) =>
      return resultMessage id (← callResult name.toString args)
    | some (.str name), some .null | some (.str name), none =>
      return resultMessage id (← callResult name.toString [])
    | _, _ => return invalidMessage id
  | _, _ => return invalidMessage id

/-- The answer to a message, if it is a request: a message without an id or method gets none. -/
def answer (message : Json) : ToolM (Option Json) := do
  match message.member? "id", message.member? "method" with
  | some id, some (.str method) =>
    return some (← answerRequest id method.toString (message.member? "params"))
  | _, _ => return none

/-- The answer to a line of input, and the workspace after it: a line that is no JSON value, or
no request, gets none. -/
def answerLine (w : Workspace) (line : String) : Option Json × Workspace :=
  match Json.read? line with
  | none => (none, w)
  | some message =>
    match (answer message).run.run w with
    | (.ok reply, w) => (reply, w)
    | (.error _, w) => (none, w)

end StageTree.Tools
