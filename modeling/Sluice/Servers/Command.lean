import Sluice.Machine.Session
import Sluice.Text.Wrap

/-!
# Following a file

Prints a record for each line that `tail` delivers. The command is stopped however the run ends.
-/

namespace Sluice.Tail

structure Child where
  start : Result Unit := .ok ()
  /-- the lines it delivers, with a fault where one is met in place of a line -/
  lines : List (Result String) := []
  terminate : Result Unit := .ok ()
  waitBriefly : Result Unit := .ok ()

open Act

def refuse {α : Type} (message : String) : Act α := do
  printErr (← ofResult (Json.line (.map [("_error", message)])))
  exit 1

def commandWords (command : String) : Act (List String) :=
  match ShellWords.split command with
  | .error cause => refuse s!"Invalid command syntax: {cause.text}"
  | .ok words =>
    if words.head? = some "tail" then pure words
    else refuse s!"Expected tail command, got: {command}"

def printLines : (n : Nat) → List (Result String) → Act Unit
  | _, [] => pure ()
  | n, line :: rest => do
    printRecord (.map [("line", (Text.S.stripRight (← ofResult line))), ("line_number", .int n)])
    printLines (n + 1) rest

variable (child : Child)

def follow : Act Unit := do
  printLines 1 child.lines
  log (.list ["stdout_close"])
  log (.list ["wait", .null])

/-- Stops the child; if it does not end in time, without asking. -/
def stop : Act Unit := do
  log (.list ["terminate"])
  match child.terminate with
  | .error _ => pure ()
  | .ok () =>
    log (.list ["wait", .int 1])
    match child.waitBriefly with
    | .error _ => log (.list ["kill"])
    | .ok () => pure ()

/-- **Runs a `tail` command** until the reader leaves or a user interrupts. -/
def run (command : String) : Act Unit := do
  if command = "" then refuse "tail requires a file argument"
  log (.list ["spawn", .list ((← commandWords command).map .str)])
  match child.start with
  | .error f => if f.kind = .missingPath then refuse s!"Command not found: {f.message}" else fail f
  | .ok () =>
    ensuring (catchFault (follow child) fun f =>
      if f.kind = .brokenPipe ∨ f.kind = .interrupted then pure () else fail f) (stop child)

def command : List String → Act Unit := readOnly (run child) refuse

end Sluice.Tail

/-!
## Servers for a command

Starts servers, waits for each, runs a command, and stops the servers however that ended.
-/

namespace Sluice.Servers

open Number
open Act (exit log print)

structure Server where
  line : Value
  port : Int

abbrev Refusals := List (Int × Nat)

def Refusals.at_ (r : Refusals) (port : Int) : Nat := (r.lookup port).getD 0

def Refusals.put (r : Refusals) (port : Int) (n : Nat) : Refusals := (port, n) :: r.filter (·.1 != port)

/-- Waits until a port answers or the time is over; tells whether it answered. -/
def await (port : Int) (start seconds : Float) : (refusals : Nat) → Act (Bool × Nat)
  | 0 => do
    if (← get).clock - start < seconds then
      log (.list ["connect", "localhost", port])
      pure (true, 0)
    else pure (false, 0)
  | n + 1 => do
    if (← get).clock - start < seconds then
      log (.list ["connect", "localhost", port])
      Act.sleep 0.5
      await port start seconds n
    else pure (false, n + 1)

/-- What is running: the number of servers, and what ports still refuse. -/
structure Running where
  count : Nat := 0
  refusals : Refusals := []

/-- Starts one server and waits for it. The number says how many run. -/
def start (child : Tail.Child) (total seconds : Int) (server : Server) (r : Running) : Act (Except Fault Unit × Running) := do
  print s!"Starting server {intText (r.count + 1)}/{intText total}: {server.line.text}"
  log (.list ["spawn", server.line])
  match child.start with
  | .error f => pure (.error f, r)
  | .ok () =>
    let port := intText server.port
    print s!"Waiting for server on port {port}..."
    let (ready, left) ← await server.port (← get).clock (ofInt seconds) (r.refusals.at_ server.port)
    let r : Running := ⟨r.count + 1, r.refusals.put server.port left⟩
    if ready then
      print s!"Server ready on port {port}"
      pure (.ok (), r)
    else
      pure (.error ⟨.failure, s!"Server failed to start on port {port} within {intText seconds}s"⟩, r)

def startAll (child : Tail.Child) (total seconds : Int) : List Server → Running → Act (Except Fault Unit × Running)
  | [], r => pure (.ok (), r)
  | server :: rest, r => do
    match ← start child total seconds server r with
    | (.ok (), r) => startAll child total seconds rest r
    | (.error f, r) => pure (.error f, r)

variable (child : Tail.Child)

/-- Stops one server; if it does not end in time, without asking. -/
def stop (number : Nat) : Act Unit := do
  log (.list ["terminate"])
  Act.ofResult child.terminate
  log (.list ["wait", .int 5])
  match child.waitBriefly with
  | .ok () => pure ()
  | .error _ =>
    log (.list ["kill"])
    log (.list ["wait", .null])
  print s!"Server {intText number} stopped"

def stopAll (count : Nat) : Act Unit := do
  print s!"\nStopping {intText count} server(s)..."
  Act.forEach (List.range count) fun i => stop child (i + 1)
  print "All servers stopped"

/-- **Runs a command while servers run.** -/
def run (refusals : Refusals) (servers : List Server) (seconds : Int) (words : List String) : Act Unit := do
  let (started, running) ← startAll child servers.length seconds servers { refusals }
  Act.ensuring (do
    Act.ofResult started
    print s!"\nAll {intText servers.length} server(s) ready"
    print ("Running: " ++ Text.S.join " " words ++ "\n")
    exit (← Act.runCommand words .null).code) (stopAll child running.count)

def arguments : List CommandLine.Argument :=
  [{ dest := "servers", flags := ["--server"], append := true, required := true },
   { dest := "ports", flags := ["--port"], append := true, required := true, read := CommandLine.readWhole },
   .whole "--timeout" (.int 30),
   { dest := "command", arity := .rest }]

def itemsOf (v : Value) : List Value :=
  match v with
  | .list items => items
  | _ => []

def command (refusals : Refusals) (argv : List String) : Act Unit := do
  let p ← Act.arguments (CommandLine.parse arguments argv)
  let words := (itemsOf (p.get "command")).map (·.text)
  let words := if words.head? = some "--" then words.drop 1 else words
  if words.isEmpty then
    print "Error: No command specified to run"
    exit 1
  let lines := itemsOf (p.get "servers")
  let ports := itemsOf (p.get "ports")
  if lines.length != ports.length then
    print "Error: Number of --server and --port arguments must match"
    exit 1
  let servers := (lines.zip ports).map fun (line, port) => (⟨line, (match port with
    | .int n => n
    | _ => 0)⟩ : Server)
  let seconds := match p.get "timeout" with
    | .int n => n
    | _ => 30
  run child refusals servers seconds words

end Sluice.Servers
