import Sluice.Machine.Session

/-!
# Tracefiles

`Entry.ofLine` reads one line, `State.step` applies one entry, and `parse` folds it over the lines. Up to the next
section a closed file stays **attached**: its lists still grow, its summary stays.
-/

namespace Sluice.Coverage

open Text Number

/-! ## Hits -/

structure LineHit where
  line : Int
  hits : Int
deriving DecidableEq

structure BranchHit where
  line : Int
  block : Int
  branch : String
  hits : Int
deriving DecidableEq

structure FunctionHit where
  name : String
  startLine : Int
  endLine : Int
  hits : Int
deriving DecidableEq

def LineHit.executed (l : LineHit) : Bool := decide (0 < l.hits)

def BranchHit.taken (b : BranchHit) : Bool := decide (0 < b.hits)

variable (s : Chars) (f : FunctionHit)

def FunctionHit.executed : Bool := decide (0 < f.hits)

def FunctionHit.covers (line : Int) : Bool := decide (f.startLine ≤ line) && decide (line ≤ f.endLine)

structure FunctionCoverage where
  function : FunctionHit
  lines : List LineHit
  branches : List BranchHit
deriving DecidableEq

/-- The counts of a file at the moment its section was closed. -/
structure Summary where
  totalLines : Nat
  executedLines : Nat
  totalBranches : Nat
  takenBranches : Nat
  totalFunctions : Nat
  executedFunctions : Nat
deriving DecidableEq

structure FileCoverage where
  functions : List FunctionCoverage
  lines : List LineHit
  branches : List BranchHit
  summary : Summary
deriving DecidableEq

/-- A report: source files by path, in the order in which they were first closed. -/
abbrev Report := List (String × FileCoverage)

/-- Puts a file into a report: at its old place if it is there, else at the end. -/
def Report.set (path : String) (file : FileCoverage) : Report → Report
  | [] => [(path, file)]
  | (p, f) :: rest => if p = path then (p, file) :: rest else (p, f) :: Report.set path file rest

def Report.modify (path : String) (change : FileCoverage → FileCoverage) (report : Report) : Report :=
  report.map fun pf => if pf.1 = path then (pf.1, change pf.2) else pf

def percent (part whole : Nat) : Value := if whole = 0 then .int 0 else .float (ofInt part / ofInt whole * 100.0)

/-! ## Entries -/

inductive Entry
  /-- opens the section of a source file -/
  | source (path : String)
  | line (l : LineHit)
  | function (name : String) (startLine endLine : Int)
  | calls (name : String) (hits : Int)
  | branch (b : BranchHit)
  | close
  /-- anything else -/
  | other
deriving DecidableEq

def fieldsUpTo (n : Nat) (s : Chars) : List String := (splitOnUpTo n [','] s).map String.ofList

def fields : List String := (splitAtChar ',' s).map String.ofList

def Entry.ofLineData : Result Entry :=
  match fields s with
  | place :: hits :: _ => do
    pure (.line ⟨← parseInt place, ← parseInt hits⟩)
  | _ => pure .other

def Entry.ofFunction : Result Entry :=
  match fieldsUpTo 2 s with
  | [start, last, name] => do
    pure (.function name (← parseInt start) (← parseInt last))
  | [start, name] => do
    let start ← parseInt start
    pure (.function name start start)
  | _ => pure .other

def Entry.ofCalls : Result Entry :=
  match fieldsUpTo 1 s with
  | [hits, name] => do
    pure (.calls name (← parseInt hits))
  | _ => pure .other

/-- `BRDA`: line, block, label and hits, where a dash stands for none. -/
def Entry.ofBranch : Result Entry :=
  match fields s with
  | place :: block :: label :: hits :: _ => do
    let place ← parseInt place
    let block ← parseInt block
    let hits ← if hits = "-" then pure 0 else parseInt hits
    pure (.branch ⟨place, block, label, hits⟩)
  | _ => pure .other

def Entry.ofLine (line : Chars) : Result Entry :=
  let line := strip line
  match dropStart? "SF:".toList line with
  | some rest => pure (.source (String.ofList rest))
  | none =>
    match dropStart? "DA:".toList line with
    | some rest => Entry.ofLineData rest
    | none =>
      match dropStart? "FN:".toList line with
      | some rest => Entry.ofFunction rest
      | none =>
        match dropStart? "FNDA:".toList line with
        | some rest => Entry.ofCalls rest
        | none =>
          match dropStart? "BRDA:".toList line with
          | some rest => Entry.ofBranch rest
          | none => pure (if line = "end_of_record".toList then .close else .other)

structure Section where
  /-- functions in order of first definition, one for each name -/
  functions : List FunctionHit := []
  lines : List LineHit := []
  branches : List BranchHit := []

def defineFunction : List FunctionHit → List FunctionHit
  | [] => [f]
  | g :: rest => if g.name = f.name then f :: rest else g :: defineFunction rest

variable (name : String)

def setCalls (hits : Int) (fs : List FunctionHit) : List FunctionHit :=
  fs.map fun f => if f.name = name then { f with hits := hits } else f

def Section.functionCoverage (s : Section) (f : FunctionHit) : FunctionCoverage :=
  { function := f
    lines := s.lines.filter (f.covers ·.line)
    branches := s.branches.filter (f.covers ·.line) }

def Section.summary (s : Section) : Summary :=
  { totalLines := s.lines.length
    executedLines := s.lines.countP (·.executed)
    totalBranches := s.branches.length
    takenBranches := s.branches.countP (·.taken)
    totalFunctions := s.functions.length
    executedFunctions := s.functions.countP (·.executed) }

def Section.toFile (s : Section) : FileCoverage :=
  { functions := s.functions.map s.functionCoverage
    lines := s.lines
    branches := s.branches
    summary := s.summary }

/-! ## The reader -/

structure State where
  report : Report := []
  path? : Option String := none
  current : Section := {}
  attached? : Option String := none
  /-- the functions of the attached file that were not defined anew -/
  shared : List String := []

def State.touch (s : State) (change : FileCoverage → FileCoverage) : State :=
  match s.attached? with
  | some path => { s with report := s.report.modify path change }
  | none => s

def FileCoverage.setCalls (hits : Int) (file : FileCoverage) : FileCoverage :=
  { file with
    functions := file.functions.map fun f =>
      if f.function.name = name then { f with function := { f.function with hits := hits } } else f }

def State.close (s : State) : State :=
  match s.path? with
  | some path =>
    if path = "" then s
    else
      { report := s.report.set path s.current.toFile
        path? := none
        current := s.current
        attached? := some path
        shared := s.current.functions.map (·.name) }
  | none => s

def State.step (s : State) : Entry → State
  | .source path => { report := s.report, path? := some path }
  | .line l =>
    { s with current := { s.current with lines := s.current.lines ++ [l] } }.touch fun file =>
      { file with lines := file.lines ++ [l] }
  | .function name start last =>
    { s with
      current := { s.current with
        functions := defineFunction ⟨name, start, last, 0⟩ s.current.functions }
      shared := s.shared.filter (· != name) }
  | .calls name hits =>
    let s' := { s with
      current := { s.current with functions := setCalls name hits s.current.functions } }
    if s.shared.contains name then s'.touch (·.setCalls name hits) else s'
  | .branch b =>
    { s with current := { s.current with branches := s.current.branches ++ [b] } }.touch fun file =>
      { file with branches := file.branches ++ [b] }
  | .close => s.close
  | .other => s

/-- Reads lines one after another, up to the first that cannot be read. -/
def State.run : State → List Chars → Result State
  | s, [] => .ok s
  | s, line :: rest =>
    match Entry.ofLine line with
    | .ok e => State.run (s.step e) rest
    | .error f => .error f

def parse (text : String) : Result Report := (State.run {} (lines text.toList)).map (·.report)

open CommandLine Value

/-! ## Coverage as records -/

inductive View
  | functions
  | files
  | lines
  | branches

def View.ofName : View :=
  if name = "files" then .files
  else if name = "lines" then .lines
  else if name = "branches" then .branches
  else .functions

variable (report : Report) (path : String)

def baseName : String := String.ofList ((Text.splitAtChar '/' path.toList).getLastD [])

def LineHit.fields (l : LineHit) : Fields := [("line", l.line), ("hits", l.hits), ("executed", l.executed)]

def BranchHit.fields (b : BranchHit) : Fields :=
  [("line", b.line), ("block", b.block), ("branch", b.branch), ("hits", b.hits), ("taken", b.taken)]

def Summary.fields (s : Summary) : Fields :=
  [("total_lines", .int s.totalLines), ("executed_lines", .int s.executedLines),
   ("coverage", percent s.executedLines s.totalLines),
   ("total_branches", .int s.totalBranches), ("taken_branches", .int s.takenBranches),
   ("branch_coverage", percent s.takenBranches s.totalBranches),
   ("total_functions", .int s.totalFunctions), ("executed_functions", .int s.executedFunctions)]

def fileFields : Fields := [("file", path), ("filename", (baseName path))]

def functionRecord (f : FunctionCoverage) : Value :=
  let total := f.lines.length
  let executed := f.lines.countP (·.executed)
  let branches := f.branches.length
  let taken := f.branches.countP (·.taken)
  .map
    [("file", path), ("filename", (baseName path)), ("function", f.function.name),
     ("start_line", f.function.startLine), ("end_line", f.function.endLine),
     ("lines", .int (f.function.endLine - f.function.startLine + 1)),
     ("total_lines", .int total), ("executed_lines", .int executed),
     ("missing_lines", .int ((total : Int) - executed)), ("coverage", percent executed total),
     ("hit_count", f.function.hits), ("executed", f.function.executed),
     ("total_branches", .int branches), ("taken_branches", .int taken),
     ("partial_branches", .int ((branches : Int) - taken)),
     ("branch_coverage", percent taken branches)]

def functionRecords : List Value := report.flatMap fun pf => pf.2.functions.map (functionRecord pf.1)

def fileRecords : List Value :=
  report.map fun pf =>
    let s := pf.2.summary
    .map (fileFields pf.1 ++ s.fields ++ [("function_coverage", percent s.executedFunctions s.totalFunctions),
      ("functions", .list (pf.2.functions.map (.str ·.function.name)))])

def lineRecords : List Value := report.flatMap fun pf => pf.2.lines.map fun l => .map (fileFields pf.1 ++ l.fields)

def branchRecords : List Value := report.flatMap fun pf => pf.2.branches.map fun b => .map (fileFields pf.1 ++ b.fields)

def records (view : View) (report : Report) : List Value :=
  match view with
  | .functions => functionRecords report
  | .files => fileRecords report
  | .lines => lineRecords report
  | .branches => branchRecords report

def Report.toValue : Value :=
  .map (report.map fun pf =>
    let file := pf.2
    (pf.1, .map
      [("functions", .list (file.functions.map fun f => .map
          [("name", f.function.name), ("start_line", f.function.startLine), ("end_line", f.function.endLine),
           ("lines", .int (f.function.endLine - f.function.startLine + 1)),
           ("hit_count", f.function.hits),
           ("line_data", .list (f.lines.map (.map ·.fields))),
           ("branch_data", .list (f.branches.map (.map ·.fields)))])),
       ("lines", .list (file.lines.map (.map ·.fields))),
       ("branches", .list (file.branches.map (.map ·.fields))),
       ("summary", .map file.summary.fields)]))

/-- Reads a tracefile that arrives as a stream: when it breaks off, the lines before the break are read first. -/
def parseStream (text : String) (fault? : Option Fault) : Result Report :=
  match fault? with
  | none => parse text
  | some f =>
    match State.run {} (Text.lines (text.toList.reverse.dropWhile (· != '\n')).reverse) with
    | .error e => .error e
    | .ok _ => .error f

def commandArguments : List Argument :=
  [.choice "--mode" ["read", "write", "functions", "files", "lines", "branches"] "read",
   .choice "--output-mode" ["functions", "files", "lines", "branches"] "functions"]

def writeAdvice : List String :=
  ["ERROR: LCOV write mode not implemented", "LCOV is a coverage input format (from coverage.py/gcov/etc.)",
   "To save filtered coverage data, use JSON format instead:",
   "  jn cat coverage.lcov | jn filter '...' | jn put output.json"]

def command (argv : List String) : Act Unit := do
  let args ← Act.arguments (CommandLine.parse commandArguments argv)
  let mode := args.text "mode"
  if mode = "write" then
    Act.forEach writeAdvice Act.printErr
    Act.exit 1
  let view := if mode = "read" then args.text "output_mode" else mode
  let (text, fault?) ← Act.streamInput
  Act.printFeed (.ofList (records (.ofName view) (← Act.ofResult (parseStream text fault?))))

end Sluice.Coverage
