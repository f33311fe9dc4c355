import Sluice.Evaluation.Conversation
import Sluice.Markup.Tree
import Sluice.Text.Pattern

/-!
# Evaluating servers

A model gets questions and the tools of a server; its answers are compared with the expected ones.
-/

/-!
## Answers in marks

Blocks are found from the left, each up to the first closing mark. The last one counts. The name of the mark is a
pattern.
-/

namespace Sluice.Evaluation

open Text Markup Number
open Number (intText ofInt)
open Act (exit ofResult print)

variable (peer : Mcp.Peer) (name : Chars)

def openMark : Chars := '<' :: name ++ ['>']

def closeMark : Chars := '<' :: '/' :: name ++ ['>']

def blocks : (fuel : Nat) → Chars → List Chars
  | 0, _ => []
  | fuel + 1, text =>
    match Text.cutOnce (openMark name) text with
    | none => []
    | some (_, rest) =>
      match Text.cutOnce (closeMark name) rest with
      | none => []
      | some (block, after) => block :: blocks fuel after

def isSpecial (c : Char) : Bool := "\\.^$*+?\x7b\x7d[]|()".toList.contains c

/-- The blocks of a text between marks whose name is a pattern. -/
def patternBlocks (name text : Chars) : Result (List Chars) := do
  let c ← Pattern.parse (openMark name ++ "(.*?)".toList ++ closeMark name)
  let c := if c.groups = 0 then ⟨.group 1 c.pattern, 1⟩ else c
  let found := c.all 1 text
  if 1 < c.groups && !found.isEmpty then .error (.noField "'tuple' object has no attribute 'strip'")
  else pure found

/-- **The last block of a text between marks**, without blanks around it. -/
def answer? (text name : Chars) : Result (Option Chars) := do
  let found ← if name.any isSpecial then patternBlocks name text else pure (blocks name text.length text)
  pure (found.getLast?.map strip)

/-!
## Tasks

Questions with the answers that are expected, from a document.
-/

structure Task where
  question : String
  expected : String

def Task.toValue (t : Task) : Value := .map [("question", t.question), ("answer", t.expected)]

def taskOf? (t : Tree) : Option Task := do some ⟨S.strip (← t.child? "question").text, S.strip (← t.child? "answer").text⟩

def readDocument (text : String) : Result Tree :=
  let chars := text.toList
  let told (cause : String) (left : Nat) : Fault :=
    let (line, column) := placeOf chars left
    ⟨.markup, s!"{cause}: line {intText line}, column {intText column}"⟩
  match nodesOf {} text.toList with
  | .error e => .error (told e.cause.message e.left)
  | .ok nodes =>
    match nodes.findSome? Tree.ofNode? with
    | some t => .ok t
    | none => .error (told Cause.noElement.message 0)

def tasksOf (t : Tree) : List Task := ((Tree.flattenAll t.children).filter (·.tag == "qa_pair")).filterMap taskOf?

/-- **The tasks in a file.** A file that cannot be read has none, and that is told. -/
def loadTasks (path : String) : Act (List Task) := do
  let shown := (Path.ofString path).toString
  let t := (← get).tree
  let read : Result Tree := do
    let content ← t.open? (.ofString path) shown
    readDocument (match content with
      | .text s => s
      | c => Utf8.decodeLossy (FileTree.Content.toOctets c))
  match read with
  | .ok t => pure (tasksOf t)
  | .error f =>
    print s!"Error parsing evaluation file {shown}: {f.message}"
    pure []

def readPairs (sign what : String) : List String → Fields → Act Fields
  | [], found => pure found
  | text :: rest, found =>
    match S.cutOnce sign text with
    | some (name, value) => readPairs sign what rest (Fields.set (S.strip name) ((S.strip value)) found)
    | none => do
      print s!"Warning: Ignoring malformed {what}: {text}"
      readPairs sign what rest found

def readHeaders (texts : List String) : Act Fields := readPairs ":" "header" texts []

def readVariables (texts : List String) : Act Fields := readPairs "=" "environment variable" texts []

structure Outcome where
  task : Task
  actual? : Option String
  summary? : Option String
  feedback? : Option String
  seconds : Float
  uses : List Use

def Outcome.isRight (o : Outcome) : Bool := o.actual?.any fun a => a != "" && a == o.task.expected

def Outcome.callCount (o : Outcome) : Nat := total (o.uses.map (·.seconds.length))

def blockOf (text : Value) (name : String) : Result (Option String) :=
  match text with
  | .str s => (answer? s.toList name.toList).map (·.map String.ofList)
  | v => .error (.badType s!"expected string or bytes-like object, got '{v.kindName}'")

def runTask (model : Model) (number : Nat) (task : Task) (replies : List Reply) : Act (Outcome × List Reply) := do
  let start := (← get).clock
  print s!"Task {intText number}: Running task with question: {task.question}"
  let ended ← answerQuestion peer model task.question replies
  let text := ended.text?.getD .null
  let actual? ← ofResult (blockOf text "response")
  let summary? ← ofResult (blockOf text "summary")
  let feedback? ← ofResult (blockOf text "feedback")
  pure (⟨task, actual?, summary?, feedback?, (← get).clock - start, ended.uses⟩, ended.left)

def runTasks (model : Model) (total : Nat) : (number : Nat) → List Task → List Reply → Act (List Outcome)
  | _, [], _ => pure []
  | n, task :: rest, replies => do
    print s!"Processing task {intText n}/{intText total}"
    let (outcome, replies) ← runTask peer model n task replies
    pure (outcome :: (← runTasks model total (n + 1) rest replies))

def average (sum : Float) (count : Nat) : Float := if count = 0 then 0.0 else sum / ofInt count

def reportHead (outcomes : List Outcome) : String :=
  let total := outcomes.length
  let right := (outcomes.filter (·.isRight)).length
  let calls := Number.total (outcomes.map (·.callCount))
  let seconds := outcomes.foldl (fun sum o => sum + o.seconds) 0.0
  String.intercalate "\n" [
    "", "# Evaluation Report", "", "## Summary", "",
    s!"- **Accuracy**: {intText right}/{intText total} ({fixed 1 (average (ofInt right) total * 100.0)}%)",
    s!"- **Average Task Duration**: {fixed 2 (average seconds total)}s",
    "- **Average Tool Calls per Task**: " ++ fixed 2 (average (ofInt calls) total),
    "- **Total Tool Calls**: " ++ intText calls,
    "", "---", ""]

def orMark (s? : Option String) : String := (s?.filter (· != "")).getD "N/A"

def taskReport (number : Nat) (o : Outcome) : Result String := do
  let uses ← Json.write { indent? := some 2 } (usesValue o.uses)
  pure (String.intercalate "\n" [
    "", "### Task " ++ intText number, "",
    "**Question**: " ++ o.task.question,
    s!"**Ground Truth Answer**: \x60{o.task.expected}\x60",
    s!"**Actual Answer**: \x60{orMark o.actual?}\x60",
    "**Correct**: " ++ (if o.isRight then "✅" else "❌"),
    s!"**Duration**: {Number.fixed 2 o.seconds}s",
    "**Tool Calls**: " ++ uses,
    "", "**Summary**", orMark o.summary?,
    "", "**Feedback**", orMark o.feedback?,
    "", "---", ""])

def report (outcomes : List Outcome) : Result String := do
  pure (reportHead outcomes ++ String.join (← outcomes.zipIdx.mapM fun (o, i) => taskReport (i + 1) o))

/-- **Evaluates a server** with the tasks of a file. -/
def evaluate (path model : String) (replies : List Reply) : Act String := do
  print "🚀 Starting Evaluation"
  let tools ← peer.listTools
  print s!"📋 Loaded {intText tools.length} tools from MCP server"
  let tasks ← loadTasks path
  print s!"📋 Loaded {intText tasks.length} evaluation tasks"
  ofResult (report (← runTasks peer ⟨model, tools⟩ tasks.length 1 tasks replies))

def arguments : List CommandLine.Argument :=
  [.word "eval_file",
   { flags := ["-t", "--transport"], choices := ["stdio", "sse", "http"],
     default := "stdio" },
   { flags := ["-m", "--model"], default := "claude-3-7-sonnet-20250219" },
   { flags := ["-c", "--command"] },
   { flags := ["-a", "--args"], arity := .several },
   { flags := ["-e", "--env"], arity := .several },
   { flags := ["-u", "--url"] },
   { dest := "headers", flags := ["-H", "--header"], arity := .several },
   { flags := ["-o", "--output"] }]

def textsOf (v : Value) : List String :=
  match v with
  | .list items => items.map (·.text)
  | _ => []

def readGiven (read : List String → Act Fields) (v : Value) : Act Value :=
  match textsOf v with
  | [] => pure .null
  | texts => do pure (.map (← read texts))

def command (replies : List Reply) (argv : List String) : Act Unit := do
  let p ← Act.arguments (CommandLine.parse arguments argv)
  let path := p.text "eval_file"
  let transport := p.text "transport"
  if !(← get).tree.pathExists (.ofString path) then
    print ("Error: Evaluation file not found: " ++ (Path.ofString path).toString)
    exit 1
  let headers ← readGiven readHeaders (p.get "headers")
  let env ← readGiven readVariables (p.get "env")
  match Mcp.Connection.create transport (p.get "command") (p.get "args") env (p.get "url") headers with
  | .error f =>
    print s!"Error: {f.message}"
    exit 1
  | .ok connection =>
    print s!"🔗 Connecting to MCP server via {transport}..."
    peer.during connection do
      print "✅ Connected successfully"
      let text ← evaluate peer path (p.text "model") replies
      match p.str? "output" with
      | some output =>
        let place := Path.ofString output
        Act.changeTree (·.saveText place text)
        print s!"\n✅ Report saved to {place.toString}"
      | none => print s!"\n{text}"

end Sluice.Evaluation
