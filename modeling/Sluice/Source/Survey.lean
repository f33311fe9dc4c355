import Sluice.Machine.Glob
import Sluice.Machine.Session
import Sluice.Source.Call

/-!
# Lines that were run

How often each line of a source was run, and the share of a definition that was.
-/

namespace Sluice.Source

open Number Text

structure LineHit where
  line : Int
  hits : Int
  executed : Bool

def LineHit.ofHits (line hits : Int) : LineHit := ⟨line, hits, decide (0 < hits)⟩

def LineHit.toValue (h : LineHit) : Value := .map [("line", h.line), ("hits", h.hits), ("executed", h.executed)]

/-- The lines of each file, files in the order in which they are first met. -/
abbrev LineTable := List (String × List LineHit)

namespace LineTable

def get (t : LineTable) (file : String) : List LineHit := ((t.find? (·.1 == file)).map (·.2)).getD []

def add (file : String) (h : LineHit) : LineTable → LineTable
  | [] => [(file, [h])]
  | (f, hs) :: rest => if f = file then (f, hs ++ [h]) :: rest else (f, hs) :: add file h rest

def toValue (t : LineTable) : Value := .map (t.map fun e => (e.1, .list (e.2.map LineHit.toValue)))

def parseLine (state : LineTable × Option String) (line : String) : Result (LineTable × Option String) :=
  let line := S.strip line
  match S.dropStart? "SF:" line with
  | some file => .ok (state.1, some file)
  | none =>
    match S.dropStart? "DA:" line, state.2.filter (· != "") with
    | some data, some file =>
      match S.splitOn "," data with
      | number :: hits :: _ => do
        pure (add file (.ofHits (← parseInt number) (← parseInt hits)) state.1, state.2)
      | _ => .ok state
    | _, _ => if line = "end_of_record" then .ok (state.1, none) else .ok state

/-- **Reads a tracefile.** -/
def parse (text : String) : Result LineTable := ((S.lines text).foldlM parseLine ([], none)).map (·.1)

end LineTable

structure Measure where
  lines : Nat
  hit : Nat

def Measure.percent (m : Measure) : Int :=
  if m.lines = 0 then 0
  else (truncate? (ofInt m.hit / ofInt m.lines * 100.0)).getD 0

def measure (hits : List LineHit) (first last : Int) : Measure :=
  let inside := hits.filter fun h => first ≤ h.line && h.line ≤ last
  ⟨inside.length, (inside.filter (·.executed)).length⟩

def withMeasure (fields : Fields) (m : Measure) : Fields :=
  Fields.update fields [("lines", .int m.lines), ("hit", .int m.hit), ("coverage", m.percent)]

def requiredField (fields : Fields) (name : String) : Result Value :=
  match Fields.get? name fields with
  | some v => .ok v
  | none => .error ⟨.key, s!"'{name}'"⟩

/-- **A record of a definition with the measure of its lines.** -/
def enrich (table : LineTable) (fields : Fields) : Result Fields := do
  let file ← requiredField fields "file"
  let first ← requiredField fields "start_line"
  let last ← requiredField fields "end_line"
  let hits := match file with
    | .str f => table.get f
    | _ => []
  match first, last with
  | .int first, .int last => pure (withMeasure fields (measure hits first last))
  | _, _ => if hits.isEmpty then pure (withMeasure fields ⟨0, 0⟩) else throw (.badType "lines")

/-!
## Surveys of source files

A survey is asked for by an **address** with parameters; further settings win over these.
-/

open CommandLine Fields

structure Library where
  tree : FileTree
  parse : Language → List UInt8 → Tree

/-- The parameters of a query; a part without an equals sign is dropped. -/
def queryFields (query : String) : Fields :=
  ofPairs ((S.splitOn "&" query).filterMap fun part => (S.cutOnce "=" part).map fun kv => (kv.1, kv.2))

/-- **Reads an address**: what is wanted, and the parameters. -/
def parseAddress (address : String) : String × Fields :=
  let address := ((S.dropStart? "@code/" address).or (S.dropStart? "jn://code/" address)).getD address
  match S.cutOnce "?" address with
  | some (component, query) => (component, queryFields query)
  | none => (address, [])

def excludedDirs : List String := [".git", ".venv", "dist", "jn_home", "__pycache__"]

variable (counted : List String) (r : Request) (lib : Library) (d : Definition) (t : FileTree)

def filesFor (root : Path) (pattern : String) : Result (List String) := do
  let paths ← t.select root pattern
  let wanted := paths.filter fun p => t.isFile p && !(((p.relativeTo? root).getD p).parts.any excludedDirs.contains)
  pure (wanted.map Path.toString)

def findFiles (root : String) (patterns : List String) : Result (List String) := do
  pure (← patterns.mapM (filesFor t (.ofString root))).flatten.eraseDups

def sortedFiles (root : String) (patterns : List String) : Result (List String) :=
  (findFiles t root patterns).map fun fs => fs.mergeSort fun a b => decide (a ≤ b)

def Library.read {α : Type} (lib : Library) (reader : Language → List UInt8 → Tree → Feed α) (file : String) : Feed α :=
  let path := Path.ofString file
  match lib.tree.find? path, Language.ofPath? file with
  | some _, some language =>
    .bindResult (lib.tree.open? path path.toString) fun c =>
      let code := FileTree.Content.toOctets c
      reader language code (lib.parse language code)
  | _, _ => .empty

def Library.definitions (lib : Library) (file : String) : Feed Definition := lib.read Source.definitions file

def Library.calls (lib : Library) (file : String) : Feed Call := lib.read Source.calls file

def Library.gather {α : Type} (read : String → Feed α) (files : List String) : Feed (String × α) :=
  .flatMap (fun file => let f := read file; ⟨f.items.map (file, ·), f.fault?⟩) files

def simpleName (name : String) : String := (S.splitOn "." name).getLastD name

def moduleOf (file : String) : String := (Path.ofString file).parent.toString

def countedNames (c : Call) : List String := c.callee :: (if S.contains "." c.callee then [simpleName c.callee] else [])

def callerCount (name : String) : Nat := max (counted.count name) (counted.count (simpleName name))

def isSpared : Bool :=
  let name := simpleName d.name
  let starts (s : String) : Bool := S.startsWith s name
  let plainWord := d.sort == .function && !starts "_" && isLowerText name.toList && !(name.toList.drop 1).contains '_'
  let property := d.sort == .method && (d.lines.2 : Int) - d.lines.1 ≤ 2 && !starts "_"
  starts "visit_" || (starts "__" && S.endsWith "__" name) || plainWord || d.sort == .class_ || property

def isUncalled : Bool := !counted.contains d.name && !counted.contains (simpleName d.name)

def deadReason : String :=
  let name := simpleName d.name
  if S.startsWith "_" name && !S.startsWith "__" name then "internal_never_called"
  else "never_called"

structure Request where
  component : String
  root : Value
  patterns : List String
  tracefile : Value
  least : Int
  most : Int
  sort? : Value

def Request.ofSettings (settings : Value) : Result Request := do
  let settings : Fields ←
    if settings.truthy then
      match settings with
      | .map fs => pure fs
      | _ => throw (.noField "get")
    else pure []
  let address ← match (get? "source" settings).getD "@code/functions" with
    | .str s => pure s
    | _ => throw (.noField "startswith")
  let (component, params) := parseAddress address
  let params := update params (erase "source" settings)
  let setting (name : String) (d : Value) : Value := (get? name params).getD d
  let patterns ← match setting "globs" "**/*.py" with
    | .str s => pure ((S.splitOn "," s).map S.strip)
    | _ => throw (.noField "split")
  let least ← (setting "min" (.int 0)).toWhole
  let most ← (setting "max" (.int 100)).toWhole
  let sort? := match component with
    | "classes" => "class"
    | "methods" => "method"
    | _ => setting "type" .null
  pure { component, root := setting "root" ".", patterns, tracefile := setting "lcov" .null, least, most, sort? }

/-! ## Surveys -/

def Request.files : Result (List String) :=
  match r.root with
  | .str root => sortedFiles lib.tree root r.patterns
  | _ => .error (.badType "path")

def Request.lineTable : Result LineTable :=
  if r.tracefile.truthy then
    match r.tracefile with
    | .str path =>
      if lib.tree.pathExists (.ofString path) then do
        LineTable.parse (← lib.tree.readTextAs (.ofString path) path)
      else .ok []
    | _ => .error (.badType "path")
  else .ok []

def definitionFields (file : String) (d : Definition) : Fields :=
  d.toFields file ++ [("module", .str (moduleOf file)), ("caller_count", .int (callerCount counted d.name))]

def Request.record? (counted : List String) (table : LineTable) (file : String) (d : Definition) : Option Value :=
  let wanted := !r.sort?.truthy || r.sort? == d.sort.word
  let fields := definitionFields counted file d
  if !wanted then none
  else if table.isEmpty then some (.map fields)
  else
    let m := measure (table.get file) d.lines.1 d.lines.2
    if r.least ≤ m.percent && m.percent ≤ r.most then some (.map (withMeasure fields m)) else none

open Library

def Request.definitions (r : Request) (lib : Library) : Feed Value :=
  .bindResult (r.lineTable lib) fun table =>
    .bindResult (r.files lib) fun files =>
      .bindResult (gather lib.calls files).toResult fun calls =>
        let counted := calls.flatMap (countedNames ·.2)
        let all := gather lib.definitions files
        ⟨all.items.filterMap fun d => r.record? counted table d.1 d.2, all.fault?⟩

def Request.dead (r : Request) (lib : Library) : Feed Value :=
  .bindResult (r.files lib) fun files =>
    .bindResult (gather lib.definitions files).toResult fun all =>
      .bindResult (gather lib.calls files).toResult fun calls =>
        let counted := calls.flatMap (countedNames ·.2)
        let dead := all.filter fun d => isUncalled counted d.2 && !isSpared d.2
        .ofList (dead.map fun d => .map (d.2.toFields d.1 ++
          [("module", .str (moduleOf d.1)), ("reason", .str (deadReason d.2))]))

/-- **The records of a survey.** -/
def Request.records : Feed Value :=
  match r.component with
  | "files" => .bindResult (r.files lib) fun files => .ofList (files.map fun f => .map [("file", .str f)])
  | "calls" =>
    .bindResult (r.files lib) fun files =>
      let all := gather lib.calls files
      ⟨all.items.map fun c => .map (c.2.toFields c.1 ++ [("module", .str (moduleOf c.1))]), all.fault?⟩
  | "dead" => r.dead lib
  | _ => r.definitions lib

def survey (settings : Value) : Feed Value := .bindResult (Request.ofSettings settings) fun r => r.records lib

/-!
## The source command

Prints the records of a survey of source files.
-/

def arguments : List Argument :=
  [ .choice "--mode" ["read"] "read",
    { dest := "source", arity := .optional },
    .option "--root",
    .option "--globs",
    .option "--lcov",
    .whole "--min",
    .whole "--max",
    .option "--type" ]

def settingsOf (args : Parsed) : Fields :=
  let given (name : String) (counts : Value → Bool) : Fields :=
    let v := args.get name
    if counts v then [(name, v)] else []
  let told (v : Value) : Bool := match v with
    | .null => false
    | _ => true
  let source := args.get "source"
  ("source", if source.truthy then source else "@code/functions") ::
    given "root" Value.truthy ++ given "globs" Value.truthy ++ given "lcov" Value.truthy ++
    given "min" told ++ given "max" told ++ given "type" Value.truthy

/-- **The program.** A reader that leaves ends it quietly; any other fault is told as a record. -/
def command (parse : Language → List UInt8 → Tree) (argv : List String) : Act Unit := do
  let args ← Act.arguments ((parseKnown arguments argv))
  Act.catchFault (Act.printFeed (survey ⟨(← get).tree, parse⟩ (.map (settingsOf args)))) fun f =>
    if f.kind = .brokenPipe then pure ()
    else if f.kind = .interrupted then Act.fail f
    else do
      Act.printErr (Json.render {} (.map [("error", f.message)]))
      Act.exit 1

end Sluice.Source
