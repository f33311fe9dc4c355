import Sluice.CommandLine
import Sluice.Machine.FileTree
import Sluice.Value.Json

/-!
# Sessions

The run of a program on a machine given as data: file tree, environment and input on one side, what was written and
which services were called on the other. A program may **stop** with a fault or an exit code.
-/

namespace Sluice

open Text String CommandLine

/-- How a program stopped before its end. -/
inductive Stop
  | fault (f : Fault)
  | exit (code : Int)
  | farewell (text : String)

/-- How a command ends that a program runs. -/
inductive Ending
  /-- with a code, output, errors, and files that it made -/
  | finished (code : Int) (out err : String) (touched : List String)
  | missing
  | late
  | broken (text : String)

structure Reader where
  /-- after how many lines it leaves, if it does -/
  limit? : Option Nat := none
  interrupts : Bool := false

structure Session where
  tree : FileTree := {}
  env : Pairs := []
  input : Content := .text ""
  reader : Reader := {}
  out : List String := []
  err : List String := []
  book? : Option Workbook.Book := none
  delivered : List Value := []
  calls : List Value := []
  platform : String := "Linux"
  endings : List Ending := []
  draws : Nat := 0
  clock : Float := 0.0

abbrev Act := ExceptT Stop (StateM Session)

def errorRecord (type message : String) (more : Fields := []) : Value :=
  .map ([("_error", .bool true), ("type", .str type), ("message", .str message)] ++ more)

namespace Session

variable (s : Session)

def stdout : String := join s.out.reverse

def stderr : String := join s.err.reverse

def env? (name : String) : Option String := (s.env.find? (·.1 == name)).map (·.2)

def readerGone : Bool :=
  match s.reader.limit? with
  | some n => n ≤ Number.total (s.out.map (·.toList.count '\n'))
  | none => false

end Session

namespace Act

variable {α : Type} (act : Act α) (text : String)

def fail (f : Fault) : Act α := throw (.fault f)

def exit {α : Type} (code : Int) : Act α := throw (.exit code)

def ofResult : Result α → Act α
  | .ok a => pure a
  | .error f => fail f

def writeFault (s : Session) : Fault :=
  if s.reader.interrupts then ⟨.interrupted, ""⟩ else ⟨.brokenPipe, "[Errno 32] Broken pipe"⟩

def write : Act Unit := do
  let s ← get
  if s.readerGone then fail (writeFault s) else set { s with out := text :: s.out }

def print : Act Unit := write (text ++ "\n")

def printErr : Act Unit := modify fun s => { s with err := s!"{text}\n" :: s.err }

def log (call : Value) : Act Unit := modify fun s => { s with calls := call :: s.calls }

def catchFault (handle : Fault → Act α) : Act α :=
  tryCatch act fun stop => match stop with
    | .fault f => handle f
    | other => throw other

def observe : Act (Except Stop α) := ExceptT.mk (Except.ok <$> act.run)

/-- Runs a part and hands on the fault that it stops with, unless the user wants to stop. -/
def attempt : Act (Result α) := do
  match ← observe act with
  | .ok a => pure (.ok a)
  | .error (.fault f) => if f.kind.isOrdinary then pure (.error f) else fail f
  | .error stop => throw stop

/-- Runs a part and then another one, however the first ended. -/
def ensuring (after : Act Unit) : Act α := do
  let r ← observe act
  after
  match r with
  | .ok a => pure a
  | .error stop => throw stop

/-- A call to a service, which is noted before its outcome is known. -/
def call (name : String) (args : List Value) (outcome : Result α) : Act α := do
  log (.list (name :: args))
  ofResult outcome

def deliver (v : Value) : Act Unit := modify fun s => { s with delivered := v :: s.delivered }

def changeTree (change : FileTree → Result FileTree) : Act Unit := do
  let s ← get
  let tree ← ofResult (change s.tree)
  set { s with tree }

def forEach {α : Type} (items : List α) (f : α → Act Unit) : Act Unit :=
  match items with
  | [] => pure ()
  | a :: as => do
    f a
    forEach as f

def printRecord (v : Value) : Act Unit := do print (← ofResult (Json.line v))

def printFeed (feed : Feed Value) : Act Unit := do
  forEach feed.items printRecord
  match feed.fault? with
  | some f => fail f
  | none => pure ()

def printProfiles (list : Session → Feed Value) : Act Unit := do
  match ← attempt (do printFeed (list (← get))) with
  | .ok () => exit 0
  | .error f =>
    printErr s!"Error listing profiles: {f.message}"
    exit 1

def readInput : Act String := do
  match (← get).input with
  | .text t => pure (ofList (unifyLineEnds t.toList))
  | c => do pure (ofList (unifyLineEnds (← ofResult (Utf8.decode (FileTree.Content.toOctets c))).toList))

def streamInput : Act (String × Option Fault) := do
  match (← get).input with
  | .text t => pure (ofList (unifyLineEnds t.toList), none)
  | c =>
    let (t, f?) := Utf8.decodeStream (FileTree.Content.toOctets c)
    pure (ofList (unifyLineEnds t.toList), f?)

/-- Reads the program's arguments; a command line that does not fit ends it. -/
def arguments (parsed : Except Refusal Parsed) : Act Parsed :=
  match parsed with
  | .ok p => pure p
  | .error .usage => exit 2
  | .error .help => exit 0

/-- The command of a program that only reads, from an address. -/
def readOnly (run refuse : String → Act Unit) (argv : List String) : Act Unit := do
  let parsed ← arguments (parse
    [.option "--mode" "read", { dest := "address", arity := .optional }] argv)
  let mode := parsed.text "mode"
  if mode = "read" then run (parsed.text "address")
  else refuse s!"Unsupported mode: {mode}. Only 'read' supported."

end Act

end Sluice

namespace Sluice.Act

structure Finished where
  code : Int
  out : String
  err : String

/-- The directory in which a command makes files: the one that it is told, or that of its last word. -/
def outputDirectory : List String → Path
  | "--outdir" :: dir :: _ => .ofString dir
  | [last] => (Path.ofString last).parent
  | _ :: rest => outputDirectory rest
  | [] => .root

def lateFault (argv : List String) (seconds : Value) : Fault :=
  ⟨.timeout, s!"Command '{Value.quoted (.list (argv.map .str))}' timed out after {seconds.text} seconds"⟩

def runCommand (argv : List String) (seconds : Value) : Act Finished := do
  log (.list ["run", .list (argv.map .str), seconds])
  let s ← get
  set { s with endings := s.endings.tail }
  match s.endings.head? with
  | some (.finished code out err touched) =>
    let dir := outputDirectory argv
    modify fun s => { s with tree := touched.foldl (fun t name => t.write (dir.joinText name) (.text "")) s.tree }
    pure ⟨code, out, err⟩
  | some .late => fail (lateFault argv seconds)
  | some (.broken text) => fail ⟨.failure, text⟩
  | some .missing | none => fail (FileTree.notFound (argv.headD ""))

def temporary : Path := ⟨"$TMP", []⟩

/-- Runs a part with an empty temporary directory, which is gone afterwards. -/
def withTemporary {α : Type} (act : Act α) : Act α := do
  let isKept (e : Path × FileTree.Node) : Bool := e.1.anchor == temporary.anchor
  let before := (← get).tree.entries.filter isKept
  let clear (s : Session) : Session := { s with tree := ⟨s.tree.entries.filter (!isKept ·)⟩ }
  modify clear
  ensuring act (modify fun s => { s with tree := ⟨(clear s).tree.entries ++ before⟩ })

def draw : Act Nat := do
  let s ← get
  set { s with draws := s.draws + 1 }
  pure (s.draws + 1)

def drawId : Act String := do pure (String.ofList ((Text.hexDigits 8 (← draw)).map Char.toUpper))

def sleep (seconds : Float) : Act Unit := modify fun s => { s with clock := s.clock + seconds }

end Sluice.Act
