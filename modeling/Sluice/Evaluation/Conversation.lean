import Sluice.Machine.Session

/-!
# Connections

`Connection.during` opens a connection, greets the server, does something and closes what was opened in reverse order.
-/

namespace Sluice.Mcp

inductive Connection
  | streams (command args env : Value)
  | events (url headers : Value)
  | requests (url headers : Value)

namespace Connection

def orElse (v otherwise : Value) : Value := if v.truthy then v else otherwise

def create (transport : String) (command args env url headers : Value) : Result Connection :=
  let name := Text.S.lower transport
  if name = "stdio" then
    if command.truthy then .ok (.streams command (orElse args (.list [])) env)
    else .error (.badValue "Command is required for stdio transport")
  else if name = "sse" then
    if url.truthy then .ok (.events url (orElse headers (.map [])))
    else .error (.badValue "URL is required for sse transport")
  else if ["http", "streamable_http", "streamable-http"].contains name then
    if url.truthy then .ok (.requests url (orElse headers (.map [])))
    else .error (.badValue "URL is required for http transport")
  else .error (.badValue s!"Unsupported transport type: {name}. Use 'stdio', 'sse', or 'http'")

def opening : Connection → List Value
  | .streams command args env => ["stdio", command, args, env]
  | .events url headers => ["sse", url, headers]
  | .requests url headers => ["http", url, headers]

end Connection

/-- What a tool gives: plain data, or texts in a form that cannot be written as data. -/
inductive ToolResult
  | data (v : Value)
  | texts (ts : List Value)

def ToolResult.toValue : ToolResult → Value
  | data v => v
  | texts ts => .list (ts.map fun t => .map [("text", t)])

/-- A server at the other end of a connection: the outcome of each call. -/
structure Peer where
  connect : Result Unit := .ok ()
  streamCount : Nat := 2
  greet : Result Unit := .ok ()
  tools : List Fields := []
  result : String → Result ToolResult := fun _ => .ok (.data .null)
  seconds : Float := 0.0

namespace Peer

open Act

def toolRecord (item : Fields) : Result Value := do
  let part (name : String) : Result Value :=
    match Fields.get? name item with
    | some v => .ok v
    | none => .error (.noField s!"'Obj' object has no attribute '{name}'")
  let name ← part "name"
  pure (.map [("name", name), ("description", ← part "description"), ("input_schema", ← part "inputSchema")])

def listTools (p : Peer) : Act (List Value) := ofResult (p.tools.mapM toolRecord)

def callTool (p : Peer) (name arguments : Value) : Act ToolResult := do
  log (.list ["call_tool", name, arguments])
  sleep p.seconds
  ofResult (p.result name.text)

def streamFault (n : Nat) : Fault :=
  let items := List.replicate n "'stream'"
  .badValue ("Unexpected context result: (" ++ Text.S.join ", " items ++ (if n = 1 then "," else "") ++ ")")

/-- **Does something over a connection.** -/
def during {α : Type} (p : Peer) (c : Connection) (act : Act α) : Act α := do
  call "connect" c.opening p.connect
  ensuring (do
    if p.streamCount = 2 || p.streamCount = 3 then
      ensuring (do
        call "initialize" [] p.greet
        act) (log (.list ["session_close"]))
    else fail (streamFault p.streamCount)) (log (.list ["disconnect"]))

end Peer

end Sluice.Mcp

/-!
## Conversations

Each reply that asks for tools is followed by a message with the result of a tool, until a reply asks for none.
-/

namespace Sluice.Evaluation

abbrev Block := Fields

inductive Message
  | question (text : String)
  | reply (blocks : List Block)
  | result (call : Value) (text : String)

def Message.toValue : Message → Value
  | question text => .map [("role", "user"), ("content", text)]
  | reply blocks => .map [("role", "assistant"), ("content", .list (blocks.map .map))]
  | result call text =>
    .map [("role", "user"), ("content", .list [.map [("type", "tool_result"), ("tool_use_id", call),
      ("content", text)]])]

structure Reply where
  stopReason : Value := "end_turn"
  blocks : List Block := []
  seconds : Float := 0.0

def Reply.asksForTools (r : Reply) : Bool := r.stopReason == "tool_use"

def part (block : Block) (name : String) : Result Value :=
  match Fields.get? name block with
  | some v => .ok v
  | none => .error (.noField s!"'Obj' object has no attribute '{name}'")

def firstCall : List Block → Result Block
  | [] => .error ⟨.failure, "coroutine raised StopIteration"⟩
  | b :: rest => do
    if (← part b "type") == "tool_use" then pure b else firstCall rest

def replyText? (blocks : List Block) : Option Value := blocks.findSome? (Fields.get? "text" ·)

structure Model where
  name : String
  tools : List Value

variable (peer : Mcp.Peer) (model : Model)

open Act

def ask (messages : List Message) (replies : List Reply) : Act (Reply × List Reply) := do
  log (.list ["create", model.name, .int 4096, .list (messages.map (·.toValue)), .list model.tools])
  match replies with
  | [] => fail ⟨.index, "pop from empty list"⟩
  | r :: rest =>
    sleep r.seconds
    pure (r, rest)

def resultText : Mcp.ToolResult → Result String
  | .data v =>
    match v with
    | .list _ | .map _ => Json.write {} v
    | v => .ok v.text
  | .texts _ => .error (.badType "Object of type TextContent is not JSON serializable")

/-- How often a tool was called, and how long that took. -/
structure Use where
  tool : String
  seconds : List Float

def noteUse (tool : String) (seconds : Float) : List Use → List Use
  | [] => [⟨tool, [seconds]⟩]
  | u :: rest => if u.tool = tool then ⟨tool, u.seconds ++ [seconds]⟩ :: rest else u :: noteUse tool seconds rest

def usesValue (uses : List Use) : Value :=
  .map (uses.map fun u => (u.tool, .map [("count", .int u.seconds.length), ("durations", .list (u.seconds.map .float))]))

/-- Calls a tool and tells what it gave as text; a fault is told as well. -/
def runTool (name arguments : Value) : Act String := do
  let act : Act String := do ofResult (resultText (← peer.callTool name arguments))
  match ← attempt act with
  | .ok text => pure text
  | .error f => pure s!"Error executing tool {name.text}: {f.message}\nTRACEBACK\n"

/-- What the model said last, how tools were used, and the replies that are left. -/
structure Ended where
  text? : Option Value
  uses : List Use
  left : List Reply

def converse : (fuel : Nat) → Reply → List Message → List Use → List Reply → Act Ended
  | 0, _, _, _, _ => fail ⟨.depth, "maximum recursion depth exceeded"⟩
  | fuel + 1, reply, messages, uses, replies => do
    let messages := messages ++ [.reply reply.blocks]
    if reply.asksForTools then
      let call ← ofResult (firstCall reply.blocks)
      let name ← ofResult (part call "name")
      let arguments ← ofResult (part call "input")
      let start := (← get).clock
      let text ← runTool peer name arguments
      let seconds := (← get).clock - start
      let uses := noteUse name.text seconds uses
      let messages := messages ++ [.result (← ofResult (part call "id")) text]
      let (reply, replies) ← ask model messages replies
      converse fuel reply messages uses replies
    else pure ⟨replyText? reply.blocks, uses, replies⟩

/-- **Asks a model a question** and lets it call tools until it answers. -/
def answerQuestion (question : String) (replies : List Reply) : Act Ended := do
  let messages := [.question question]
  let (reply, rest) ← ask model messages replies
  converse peer model (rest.length + 1) reply messages [] rest

end Sluice.Evaluation
