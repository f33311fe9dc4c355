import Sluice.Machine.Glob
import Sluice.Machine.Session

/-!
# Profiles of servers

A profile is a directory with a file `_meta.json` and one file for each tool, searched in three places: **project**,
**user** and **installation**. Texts may refer to variables as `$` with a name in braces.
-/

namespace Sluice.Mcp

open Text

def reference? : Chars → Option Chars
  | '$' :: '\x7b' :: c :: rest =>
    let name := c :: rest.takeWhile isNameChar
    if isNameStart c && (rest.dropWhile isNameChar).head? == some '\x7d' then some name else none
  | _ => none

def unset (name : Chars) : Fault := ⟨.profile, s!"Environment variable {String.ofList name} not set"⟩

/-- A text with the values of its variables. The first `skip` characters belong to the reference before. -/
def expandFrom (env : String → Option String) : (skip : Nat) → Chars → Result Chars
  | _, [] => .ok []
  | skip + 1, _ :: cs => expandFrom env skip cs
  | 0, c :: cs =>
    match reference? (c :: cs) with
    | none => (expandFrom env 0 cs).map (c :: ·)
    | some name =>
      match env (String.ofList name) with
      | none => .error (unset name)
      | some value => (expandFrom env (name.length + 2) cs).map (value.toList ++ ·)

def expandText (env : String → Option String) (s : String) : Result String := (expandFrom env 0 s.toList).map String.ofList

mutual

/-- **A value with the variables in its texts replaced by their values.** Names of fields stay. -/
def expand (env : String → Option String) : Value → Result Value
  | .str s => (expandText env s).map .str
  | .list items => (expandItems env items).map .list
  | .map fields => (expandFields env fields).map .map
  | v => .ok v

/-- The elements of a list with their variables replaced, the first fault first. -/
def expandItems (env : String → Option String) : List Value → Result (List Value)
  | [] => .ok []
  | v :: vs => do pure ((← expand env v) :: (← expandItems env vs))

/-- The fields of a record with their variables replaced, the first fault first. -/
def expandFields (env : String → Option String) : List (String × Value) → Result (List (String × Value))
  | [] => .ok []
  | (k, v) :: rest => do pure ((k, ← expand env v) :: (← expandFields env rest))

end

variable (s : Session) (t : FileTree) (server : String)

def homeDirectory : Path := .ofString ((s.env? "HOME").getD "")

def installation? : Option Path :=
  match s.env? "JN_HOME" with
  | some "" | none => none
  | some home => some (.ofString home)

def places : List Path :=
  let below (p : Path) (names : List String) : Path := names.foldl Path.child p
  [below .root [".jn", "profiles", "mcp"], below (homeDirectory s) [".local", "jn", "profiles", "mcp"]] ++
    ((installation? s).map (below · ["profiles", "mcp"])).toList

/-- **The places that exist.** -/
def profileDirectories : List Path := (places s).filter s.tree.pathExists

def readFile (p : Path) : Result Value := do
  match Json.read (← t.readText p) with
  | .error f =>
    if f.kind = .json then .error ⟨.profile, "Invalid JSON in " ++ p.toString ++ ": " ++ f.message⟩
    else .error f
  | .ok v => .ok v

structure Parts where
  server : Value := .map []
  tool : Value := .map []

def readOver (p : Path) (old : Value) : Result Value := if t.pathExists p then readFile t p else .ok old

/-- The parts for a server and a tool. Each file replaces what was found before, up to the first directory after which
the server part says something. -/
def findParts (tool? : Option String) : Parts → List Path → Result Parts
  | parts, [] => .ok parts
  | parts, dir :: dirs =>
    let place := dir.joinText server
    if !t.pathExists place then findParts tool? parts dirs
    else do
      let base ← readOver t (place.child "_meta.json") parts.server
      let tool ← match tool? with
        | none | some "" => pure parts.tool
        | some name => readOver t (place.joinText (name ++ ".json")) parts.tool
      if base.truthy then pure ⟨base, tool⟩ else findParts tool? ⟨base, tool⟩ dirs

/-- **Loads the profile of a server** and one of its tools, whose fields win. -/
def load (tool? : Option String) : Result Fields := do
  let parts ← findParts s.tree server tool? {} (profileDirectories s)
  if !parts.server.truthy then throw ⟨.profile, "MCP server profile not found: " ++ server⟩
  expandFields s.env? (Fields.update (← parts.server.asMapping) (← parts.tool.asMapping))

def toolRecord (file : Path) (data : Value) : Result Value :=
  match data with
  | .map fields => do
    let params ← match Fields.get? "parameters" fields with
      | none => pure []
      | some (.map ps) => pure (Fields.keys ps)
      | some v => throw (v.noMember "keys")
    let shown := s!"@{server}/{file.stem}"
    pure (.map [("_type", "profile"), ("reference", shown), ("type", "mcp"),
      ("namespace", server), ("name", file.stem), ("path", file.toString),
      ("description", (Fields.get? "description" fields).getD ""),
      ("params", .list (params.map .str))])
  | v => .error (v.noMember "get")

def fileRecords (file : Path) : Feed Value :=
  .bindResult (t.readText file) fun text =>
    match Json.read text with
    | .error f => if f.kind = .json then .empty else .failed f
    | .ok data => .bindResult (toolRecord server file data) fun r => .ofList [r]

/-- **The tools that profiles describe.** -/
def listProfiles : Feed Value :=
  .flatMap (fun place => .bindResult (s.tree.subdirectories place) fun dirs =>
    .flatMap (fun dir =>
      let files := (s.tree.matching dir "*.json").filter (!S.startsWith "_" ·.name)
      .flatMap (fileRecords s.tree dir.name) files) dirs) (profileDirectories s)

/-!
## Servers

A server is given by what each call to it returns. Every call is noted before its outcome is known.
-/

open Text Fields Act

/-!
## Requests to servers

A request is a **reference** to a profile, `@server/tool?name=value`, or an **address** that says how the server is
started, `mcp+launcher://package?name=value`.
-/

inductive Operation
  | listTools
  | listResources
  | readResource (uri : Value)
  | callTool (tool : Value)

structure Request where
  operation : Operation
  params : Fields

def Request.toFields (r : Request) : Fields :=
  (match r.operation with
    | .listTools => [("type", "list_tools")]
    | .listResources => [("type", "list_resources")]
    | .readResource uri => [("type", "read_resource"), ("resource", uri)]
    | .callTool tool => [("type", "call_tool"), ("tool", tool)]) ++ [("params", .map r.params)]

def cutQuery (s : String) : String × Fields :=
  match S.cutOnce "?" s with
  | some (before, query) => (before, ofQuery query)
  | none => (s, [])

def listing (kind : Fault.Kind) (v : Value) : Result Operation :=
  if v == "tools" then .ok .listTools
  else if v == "resources" then .ok .listResources
  else .error ⟨kind, "Invalid list type: " ++ v.text⟩

/-- **Chooses the operation.** The first of the parameters `list`, `resource` and `tool` decides, and is used up; then
the tool of the path; otherwise resources are listed. -/
def Request.choose (kind : Fault.Kind) (params : Fields) (tool? : Option String) : Result Request :=
  match get? "list" params with
  | some v => (listing kind v).map (⟨·, erase "list" params⟩)
  | none =>
    match get? "resource" params with
    | some uri => .ok ⟨.readResource uri, erase "resource" params⟩
    | none =>
      match get? "tool" params with
      | some tool => .ok ⟨.callTool tool, erase "tool" params⟩
      | none =>
        match tool? with
        | none | some "" => .ok ⟨.listResources, params⟩
        | some tool => .ok ⟨.callTool tool, params⟩

/-- **Resolves a reference** to settings and request. Its own parameters win over those given beside it. -/
def resolve (s : Session) (reference : String) (params : Fields) : Result (Fields × Request) := do
  let some ref := S.dropStart? "@" reference
    | throw ⟨.profile, "Invalid profile reference (must start with @): " ++ reference⟩
  let (place, query) := cutQuery ref
  let (server, tool?) := match S.cutOnce "/" place with
    | some (server, tool) => (server, some tool)
    | none => (place, none)
  pure (← load s server tool?, ← Request.choose .profile (update params query) tool?)

def startedBy (command : String) (args : List Value) : Fields :=
  [("command", command), ("args", .list args), ("transport", "stdio")]

/-- **Reads an address** that says how the server is started: the settings and the parameters. -/
def parseAddress (address : String) : Result (Fields × Fields) := do
  if !S.startsWith "mcp+" address then
    throw (.badValue s!"Invalid MCP URI (must start with mcp+): {address}")
  let some (scheme, rest) := S.cutOnce "://" address
    | throw (.badValue "not enough values to unpack (expected 2, got 1)")
  let launcher := ((S.splitOn "+" scheme).drop 1).headD ""
  let (package, params) := cutQuery rest
  match launcher with
  | "uvx" =>
    let start (name : String) (command : Value) : Fields := startedBy "uv" ["run", "--with", name, command]
    match S.splitOn "/" package with
    | name :: command :: _ => pure (start name command, params)
    | _ => pure (start package ((Fields.get? "command" params).getD "run"), Fields.erase "command" params)
  | "npx" => pure (startedBy "npx" ["-y", package], params)
  | "python" => pure (startedBy "python" [package], params)
  | "node" => pure (startedBy "node" [package], params)
  | other => throw (.badValue s!"Unsupported MCP launcher: {other} (supported: uvx, npx, python, node)")

structure Server where
  connect : Result Unit := .ok ()
  greet : Result Unit := .ok ()
  tools : Result (List Fields) := .ok []
  resources : Result (List Fields) := .ok []
  contents : Value → Result (List Fields) := fun _ => .ok []
  results : Value → Fields → Result (List Fields) := fun _ _ => .ok []
  closeSession : Result Unit := .ok ()
  closeStream : Result Unit := .ok ()

variable (server : Server) (item : Fields)

def part (name : String) : Result Value :=
  match Fields.get? name item with
  | some v => .ok v
  | none => .error (.noField s!"'Obj' object has no attribute '{name}'")

def partD (name : String) : Value := (Fields.get? name item).getD .null

def resourceRecord : Result Fields := do
  pure [("type", "resource"), ("uri", ← part item "uri"), ("name", ← part item "name"),
    ("description", partD item "description"), ("mimeType", partD item "mimeType")]

def serverToolRecord : Result Fields := do
  pure [("type", "tool"), ("name", ← part item "name"), ("description", partD item "description"),
    ("inputSchema", ← part item "inputSchema")]

def contentRecord (type source : String) (name : Value) (item : Fields) : Fields :=
  [("type", type), (source, name), ("mimeType", partD item "mimeType"),
    ("text", partD item "text"), ("blob", partD item "blob")]

def Server.callTool (tool : Value) (args : Fields) : Act (List Fields) := do
  let items ← call "call_tool" [tool, .map args] (server.results tool args)
  pure (items.map (contentRecord "tool_result" "tool" tool))

def Server.answer (request : Request) : Act (List Fields) :=
  match request.operation with
  | .listResources => do
    ofResult ((← call "list_resources" [] server.resources).mapM resourceRecord)
  | .listTools => do
    ofResult ((← call "list_tools" [] server.tools).mapM serverToolRecord)
  | .readResource uri => do
    pure ((← call "read_resource" [uri] (server.contents uri)).map (contentRecord "resource_content" "uri" uri))
  | .callTool tool => server.callTool tool request.params

def Server.open (settings : Fields) : Act Unit := do
  match Fields.get? "command" settings with
  | none => fail ⟨.key, "'command'"⟩
  | some command =>
    call "connect" [command, (Fields.get? "args" settings).getD (.list []), partD settings "env"]
      server.connect

/-- Closes a connection; a fault on the way is told, and what would come after it is left out. -/
def Server.close : Act Unit := do
  let closing : Act Unit := do
    call "session_close" [] server.closeSession
    call "stream_close" [] server.closeStream
    call "stream_close" [] server.closeStream
  match ← attempt closing with
  | .ok () => pure ()
  | .error f => printErr s!"Warning: MCP cleanup error: {f.message}"

def Server.during {α : Type} (server : Server) (settings : Fields) (act : Act α) : Act α := do
  server.open settings
  ensuring (do
    call "initialize" [] server.greet
    act) server.close

/-- **Has one operation done** over a connection of its own. -/
def Server.perform (settings : Fields) (request : Request) : Act (List Fields) :=
  server.during settings (server.answer request)

/-!
## Reading from servers and writing to them

Reading hands on a record for each thing that a server answers. Writing calls a tool for each record of the input.
-/

/-! ## Reading -/

def faultRecord (type : String) (f : Fault) : Value := errorRecord type f.message [("exception_type", f.kind.name)]

/-- The record of a fault met before the operation is known; a plain one for wrong references and addresses. -/
def resolutionRecord (f : Fault) : Value :=
  if f.kind = .profile ∨ f.kind.blamesValue then errorRecord "resolution_error" f.message
  else faultRecord "resolution_error" f

inductive Plan
  | everything (settings : Fields)
  | one (settings : Fields) (request : Request)

/-- **What an address asks for**: without a slash before its query, everything. -/
def plan (s : Session) (url : String) (params : Fields) : Result Plan :=
  if S.startsWith "mcp+" url then do
    let (settings, own) ← parseAddress url
    pure (.one settings (← Request.choose .value (Fields.update own params) none))
  else if S.startsWith "@" url then do
    let (settings, request) ← resolve s url params
    if S.contains "/" (cutQuery url).1 then pure (.one settings request) else pure (.everything settings)
  else .error (.badValue ("Invalid MCP URL format: " ++ url))

variable (emit : Value → Act Unit) (server : Server) (settings : Fields) (url : String) (limit : Value)

/-- Hands on records until there are enough; says how many there were and whether that is all. -/
def emitUpTo : (count : Nat) → List Fields → Act (Result (Nat × Bool))
  | count, [] => pure (.ok (count, false))
  | count, r :: rs => do
    emit (.map r)
    match limit.reached (count + 1) with
    | .error f => pure (.error f)
    | .ok true => pure (.ok (count + 1, true))
    | .ok false => emitUpTo (count + 1) rs

def contained (type url : String) (r : Fields) : Fields := Fields.set "_container" url (Fields.set "_type" type r)

/-- Has a request done and hands on its records, marked. -/
def emitRecords (request : Request) (mark : Fields → Fields) (limit : Value) (count : Nat) : Act (Result (Nat × Bool)) := do
  match ← attempt (server.perform settings request) with
  | .error f => pure (.error f)
  | .ok records => emitUpTo emit limit count (records.map mark)

def emitEverything : Act Unit := do
  match ← emitRecords emit server settings ⟨.listTools, []⟩ (contained "tool" url) limit 0 with
  | .error f => emit (resolutionRecord f)
  | .ok (_, true) => pure ()
  | .ok (count, false) =>
    match ← emitRecords emit server settings ⟨.listResources, []⟩ (contained "resource" url) limit count with
    | .error f => emit (resolutionRecord f)
    | .ok _ => pure ()

def emitAnswer (request : Request) (limit : Value) : Act Unit := do
  match ← emitRecords emit server settings request id limit 0 with
  | .error f => emit (faultRecord "mcp_error" f)
  | .ok _ => pure ()

/-- **Reads from a server.** -/
def read (params : Fields) : Act Unit := do
  match plan (← get) url params with
  | .error f => emit (resolutionRecord f)
  | .ok (.everything settings) => emitEverything emit server settings url limit
  | .ok (.one settings request) => emitAnswer emit server settings request limit

/-- The arguments for a tool in a record: the fields whose names do not begin with an underscore. -/
def argumentsOf : Value → Result Fields
  | .map fields => .ok (fields.filter (!S.startsWith "_" ·.1))
  | v => .error (v.noMember "items")

def writeLine (tool : Value) (line : String) : Act Unit := do
  match Json.read line with
  | .error f =>
    if f.kind = .json then
      printRecord (errorRecord "json_decode_error" f.message [("line", S.take 100 line)])
    else fail f
  | .ok record => forEach ((← server.callTool tool (← ofResult (argumentsOf record))).map .map) printRecord

def writeLines (tool : Value) : Act Unit :=
  server.during settings do
    let (text, fault?) ← streamInput
    let whole := if fault?.isSome then Json.wholeLines text else text
    forEach (Json.fullLines whole) (writeLine server tool)
    match fault? with
    | some f => fail f
    | none => pure ()

/-- **Calls a tool for each record of the input.** -/
def write : Act Unit := do
  if url = "" then printRecord (errorRecord "missing_url" "MCP profile reference required")
  else
    match resolve (← get) url [] with
    | .error f => if f.kind = .profile then printRecord (errorRecord "profile_error" f.message) else fail f
    | .ok (settings, ⟨.callTool tool, _⟩) =>
      match ← attempt (writeLines server settings tool) with
      | .ok () => pure ()
      | .error f => printRecord (faultRecord "mcp_error" f)
    | .ok _ => printRecord (errorRecord "invalid_operation" "Write mode requires a tool reference")

def arguments : List CommandLine.Argument :=
  [{ flags := ["--mode"], choices := ["read", "write", "inspect-profiles"], required := true },
   { dest := "url", arity := .optional },
   { flags := ["--limit"], read := CommandLine.readWhole }]

/-- The parameters among the words left over: those of the form `--name=value`. -/
def extraParams (extras : List String) : Fields :=
  Fields.ofPairs (extras.filterMap fun w => do
    let (k, v) ← S.cutOnce "=" (← S.dropStart? "--" w)
    pure (k, v))

def command (argv : List String) : Act Unit := do
  let parsed ← Act.arguments (CommandLine.parseKnown arguments argv)
  let url := parsed.text "url"
  match parsed.str? "mode" with
  | some "inspect-profiles" => Act.printProfiles listProfiles
  | some "read" =>
    let params := extraParams parsed.extras
    if url = "" then Act.exit 2
    else if params.has "url" then Act.fail (.badType "the address is given twice")
    else read Act.printRecord server url (parsed.get "limit") params
  | _ => write server url

end Sluice.Mcp
