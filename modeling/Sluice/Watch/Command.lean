import Sluice.Machine.Glob
import Sluice.Machine.Session
import Sluice.Text.Wrap

/-!
# Watching a directory

Prints an event for each change below a directory, and before that, if wanted, for everything there. Changes come in
**batches**.
-/

namespace Sluice.Watch

inductive Change
  | created
  | modified
  | deleted

def Change.word : Change → String
  | .created => "created"
  | .modified => "modified"
  | .deleted => "deleted"

abbrev Batch := List (Change × String)

structure Settings where
  root : Path
  recursive : Bool := true
  /-- milliseconds to wait for further changes -/
  debounce : Int := 50
  exitAfter? : Option Int := none
  initial : Bool := false
  includes : List String := []
  excludes : List String := []

/-- **Whether a path is of interest.** -/
def accepts (includes excludes : List String) (path : String) : Bool :=
  (includes.isEmpty || includes.any (Text.S.matchesWildcard · path)) && !excludes.any (Text.S.matchesWildcard · path)

variable (settings : Settings) (batches : List (Result Batch)) (t : FileTree)

def eventRecord (root : Path) (event path : String) : Value :=
  .map [("event", event), ("path", path), ("is_dir", t.isDir (.ofString path)), ("root", root.toString)]

def listing (dir : Path) : List String × List String :=
  let isDir (c : String × FileTree.Node) : Bool := match c.2 with
    | .directory => true
    | .file .. => false
  let entries := t.children dir
  ((entries.filter isDir).map (·.1), (entries.filter (!isDir ·)).map (·.1))

def pathsBelow : (depth : Nat) → Path → List Path
  | 0, _ => []
  | depth + 1, dir =>
    let (dirs, files) := listing t dir
    (dirs ++ files).map dir.child ++ dirs.flatMap fun d => pathsBelow depth (dir.child d)

def snapshot (settings : Settings) : List Path :=
  if settings.recursive then pathsBelow t (t.depth + 1) settings.root
  else (t.children settings.root).map (settings.root.child ·.1)

open Act

def emit (v : Value) : Act Unit := catchFault (printRecord v) fun f => if f.kind = .brokenPipe then exit 0 else fail f

/-- Prints events of interest until there are enough. Says how many there were and whether that is
enough. -/
def emitEvents : (count : Nat) → Pairs → Act (Nat × Bool)
  | count, [] => pure (count, false)
  | count, (event, path) :: rest => do
    if !accepts settings.includes settings.excludes path then emitEvents count rest
    else
      emit (eventRecord (← get).tree settings.root event path)
      if settings.exitAfter?.any fun n => decide (n ≤ (count : Int) + 1) then pure (count + 1, true)
      else emitEvents (count + 1) rest

def emitBatches : (count : Nat) → List (Result Batch) → Act Unit
  | _, [] => pure ()
  | count, batch :: rest => do
    let (count, enough) ← emitEvents settings count ((← ofResult batch).map fun c => (c.1.word, c.2))
    if enough then pure () else emitBatches count rest

/-- Prints the changes below a directory. A reader that leaves and a user who interrupts end it. -/
def watchChanges (count : Nat) : Act Unit := do
  log (.list ["watch", settings.root.toString, settings.recursive, settings.debounce])
  catchFault (emitBatches settings count batches) fun f =>
    if f.kind = .brokenPipe ∨ f.kind = .interrupted then pure () else fail f

def watch : Act Unit := do
  let t := (← get).tree
  let here := if settings.initial then snapshot t settings else []
  let (count, enough) ← emitEvents settings 0 (here.map fun p => ("exists", p.toString))
  if enough then pure () else watchChanges settings batches count

def commandArguments : List CommandLine.Argument :=
  [.word "path",
   .switch "--recursive" true,
   { dest := "recursive", flags := ["--no-recursive"], arity := .zero, stored := false
     default := true },
   .whole "--debounce-ms" (.int 50),
   .whole "--exit-after",
   .switch "--initial",
   { flags := ["--include"], append := true, default := .list [] },
   { flags := ["--exclude"], append := true, default := .list [] }]

def Settings.ofParsed (p : CommandLine.Parsed) : Settings :=
  let texts (v : Value) : List String := match v with
    | .list vs => vs.filterMap (·.str?)
    | _ => []
  let whole (v : Value) : Option Int := match v with
    | .int n => some n
    | _ => none
  { root := .ofString (p.text "path")
    recursive := (p.get "recursive").truthy
    debounce := (whole (p.get "debounce_ms")).getD 50
    exitAfter? := whole (p.get "exit_after")
    initial := (p.get "initial").truthy
    includes := texts (p.get "include")
    excludes := texts (p.get "exclude") }

def refuse {α : Type} (fields : Fields) : Act α := do
  emit (.map fields)
  Act.exit 1

/-- **Runs a command that watches a directory.** Its first word does not matter. -/
def run (command : String) : Act Unit := do
  if command = "" then refuse [("_error", "watch requires a directory path")]
  match ShellWords.split command with
  | .error cause => Act.fail (.badValue cause.text)
  | .ok words =>
    let settings := Settings.ofParsed (← Act.arguments (CommandLine.parse commandArguments words.tail))
    let shown := settings.root.toString
    match (← get).tree.find? settings.root with
    | none => refuse [("_error", s!"Path does not exist: {shown}")]
    | some (.file ..) =>
      refuse [("_error", s!"Path is a file, not a directory: {shown}"),
        ("hint", "Use 'jn sh tail -F <file>' to follow file contents")]
    | some .directory => watch settings batches

def command : List String → Act Unit := Act.readOnly (run batches) fun text => refuse [("_error", text)]

end Sluice.Watch
