import Sluice.Machine.Session
import Sluice.Workbook.Cells

/-! # Writing records to a workbook -/

namespace Sluice.Workbook

/-- The names of a record; a list counts by its elements and a text by its characters. -/
def keysOf : Value → Result (List Value)
  | .list items =>
    if items.any fun v => match v with
      | .list _ => true
      | .map _ => true
      | _ => false
    then .error (.badType "unhashable type") else .ok items
  | v => v.elements

def addKeys (seen more : List Value) : List Value :=
  more.foldl (fun ks k => if ks.any (·.equal k) then ks else ks ++ [k]) seen

def allKeys (records : List Value) : Result (List Value) := records.foldlM (fun ks r => (keysOf r).map (addKeys ks)) []

def lookupKey (record key : Value) : Result Value :=
  match record, key with
  | .map fields, .str k => .ok ((Fields.get? k fields).getD .null)
  | .map _, _ => .ok .null
  | v, _ => .error (v.noMember "get")

def isForbiddenInTitle (c : Char) : Bool := ['\\', '*', '?', ':', '/', '[', ']'].contains c

/-- The title that a sheet gets: the one asked for, unless it differs only in case from the one before. -/
def sheetTitle : Value → Result String
  | .str s =>
    if s = "" then .error (.badValue "Title must have at least one character")
    else
      match s.toList.find? isForbiddenInTitle with
      | some c => .error (.badValue ("Invalid character " ++ String.ofList [c] ++ " found in sheet title"))
      | none => .ok (if s ≠ "Sheet" ∧ Text.S.lower s = "sheet" then s ++ "1" else s)
  | v =>
    if v.truthy then .error (.badType "expected string or bytes-like object")
    else .error (.badValue "Title must have at least one character")

def rowCells (row : Nat) (values : List Value) : Result (List Cell) :=
  (values.zip (List.range values.length)).mapM fun vi => do
    let content ← Content.ofValue vi.1
    pure { row, col := vi.2 + 1, content }

def bodyCells (keys : List Value) : (row : Nat) → List Value → Result (List Cell)
  | _, [] => .ok []
  | row, r :: rs => do pure ((← rowCells row (← keys.mapM (lookupKey r))) ++ (← bodyCells keys (row + 1) rs))

/-- **The workbook of a list of records.** -/
def ofRecords (title : Value) (records : List Value) : Result Book := do
  let name ← sheetTitle title
  if records.isEmpty then pure ⟨[{ name }]⟩
  else
    let keys ← allKeys records
    pure ⟨[{ name, cells := (← rowCells 1 keys) ++ (← bodyCells keys 2 records) }]⟩

/-! ## The workbook command -/

open CommandLine

inductive Mode
  | simple
  | stats
  | raw
  | table

def Mode.ofName? (name : String) : Option Mode :=
  if name = "read" ∨ name = "simple" then some .simple
  else if name = "stats" then some .stats
  else if name = "raw" then some .raw
  else if name = "table" then some .table
  else none

def archiveMark : List UInt8 := [0x50, 0x4b, 0x05, 0x06]

def hasArchiveMark : List UInt8 → Bool
  | [] => false
  | b :: bs => archiveMark.isPrefixOf (b :: bs) || hasArchiveMark bs

def load (c : Sluice.Content) : Result Book :=
  let noContents : Fault := ⟨.key, Text.S.quoted "There is no item named '[Content_Types].xml' in the archive"⟩
  match c with
  | .workbook b => .ok b
  | .archive _ => .error noContents
  | c =>
    if hasArchiveMark (FileTree.Content.toOctets c) then .error noContents
    else .error ⟨.archive, "File is not a zip file"⟩

variable (config : Fields) (book : Book)

def setting (key : String) (otherwise : Value) : Value := (Fields.get? key config).getD otherwise

def wholeSetting (v : Value) : Result Int :=
  match choiceNumber? v with
  | some n => .ok n
  | none => .error (.badType s!"'{v.kindName}' object cannot be interpreted as an integer")

def rangeSetting (v : Value) : Result String :=
  match v with
  | .str s => .ok s
  | v => if v.truthy then .error (.badType s!"argument of type '{v.kindName}' is not iterable")
    else .ok ""

def readSimple : Feed Value :=
  .bindResult (book.choose (setting config "sheet" (.int 0))) fun s =>
    .bindResult (wholeSetting (setting config "skip_rows" (.int 0))) fun skip =>
      .ofList (simpleRecords skip.toNat (s.grid true true))

def readRaw : Feed Value :=
  .bindResult (rangeSetting (setting config "range" .null)) fun range =>
    book.cellRecords (setting config "sheet" .null) range
      (.ofName ((setting config "formulas" "computed").str?.getD ""))

def readTable : Feed Value :=
  .bindResult (book.choose (setting config "sheet" (.int 0))) fun s =>
    .bindResult (rangeSetting (setting config "range" .null)) fun range =>
      .bindResult (if range = "" then .ok none else (Range.parse range).map some) fun range? =>
        let headerCol := setting config "header_col" .null
        let computed := (setting config "formulas" "computed").str? != some "text"
        let rule := MergeRule.ofName ((setting config "merge_strategy" "origin").str?.getD "")
        let skipEmpty := (setting config "skip_empty" true).truthy
        let options (row : Int) (col? : Option String) : TableOptions :=
          { headerRow := row, headerCol? := col?, rule, skipEmpty }
        if headerCol.truthy then
          match headerCol with
          | .str letters => tableRecords (s.grid computed false) range? (options 1 (some letters))
          | v => .failed (v.noMember "upper")
        else
          .bindResult (wholeSetting (setting config "header_row" (.int 1))) fun row =>
            tableRecords (s.grid computed false) range? (options row none)

def readRecords (mode : Mode) (config : Fields) (input : Result Book) : Feed Value :=
  .bindResult input fun book =>
    match mode with
    | .simple => readSimple config book
    | .stats => .ofList book.statistics
    | .raw => readRaw config book
    | .table => readTable config book

variable (text : String)

def writeRecords (fault? : Option Fault) : Result Book := do
  ofRecords (setting config "sheet" "Sheet1") (← Json.readLines text fault?)

def commandArguments : List Argument :=
  [.choice "--mode" ["read", "simple", "stats", "raw", "table", "write"],
   .option "--sheet",
   .whole "--skip-rows" (.int 0),
   .option "--range",
   .whole "--header-row" (.int 1),
   .option "--header-col",
   .choice "--merge-strategy" ["origin", "fill", "expand"] "origin",
   { flags := ["--skip-empty"],
     read := fun s => some ((Text.S.lower s == "true")), default := true },
   .choice "--formulas" ["computed", "text", "both"] "computed"]

/-- The settings of a command line: those that are given and count as true, and the two that always count. -/
def commandSettings (args : Parsed) : Fields :=
  let sheet : Fields := match args.str? "sheet" with
    | some s => if s = "" then [] else
        [("sheet", match Number.readInt? s.toList with
          | some n => n
          | none => s)]
    | none => []
  let given := ["skip_rows", "range", "header_row", "header_col", "merge_strategy"].filterMap fun k =>
    if (args.get k).truthy then some (k, args.get k) else none
  sheet ++ given ++ [("skip_empty", args.get "skip_empty"), ("formulas", args.get "formulas")]

def command (argv : List String) : Act Unit := do
  let args ← Act.arguments (CommandLine.parse commandArguments argv)
  let mode := args.text "mode"
  if mode = "" then Act.exit 2
  let config := commandSettings args
  match Mode.ofName? mode with
  | some m => Act.printFeed (readRecords m config (load (← get).input))
  | none =>
    let (text, fault?) ← Act.streamInput
    let book ← Act.ofResult (writeRecords config text fault?)
    modify fun s => { s with book? := some book }

/-!
## Recalculation of workbooks

A workbook is computed anew by an office program, then searched for error codes (`survey`).
-/

open Text Act

def searchedCodes : List String := ["#VALUE!", "#DIV/0!", "#REF!", "#NAME?", "#NULL!", "#NUM!", "#N/A"]

def Sheet.texts (s : Sheet) (computed : Bool) : List ((Nat × Nat) × String) :=
  let shown := (s.grid computed false).views.filterMap fun (place, v) => v.value.str?.map fun t => (place, t)
  shown.mergeSort fun a b => a.1.1 < b.1.1 || (a.1.1 = b.1.1 && a.1.2 ≤ b.1.2)

def codeIn? : Option String := searchedCodes.find? (S.contains · text)

def Book.errors (b : Book) : Pairs :=
  b.sheets.flatMap fun s => (s.texts true).filterMap fun ((row, col), text) =>
    (codeIn? text).map fun code => (code, s!"{s.name}!{cellName row col}")

def Book.formulaCount (b : Book) : Nat :=
  Number.total (b.sheets.map fun s => ((s.texts false).filter fun (_, text) => S.startsWith "=" text).length)

def toldPlaces : Nat := 20

/-- **What a search for errors finds**: how many there are, and where, code by code. -/
def Book.survey (b : Book) : Value :=
  let errors := b.errors
  let summary := searchedCodes.filterMap fun code =>
    let places := (errors.filter (·.1 == code)).map (·.2)
    if places.isEmpty then none
    else some (code, Value.map [("count", .int places.length), ("locations", .list ((places.take toldPlaces).map .str))])
  .map [("status", (if errors.isEmpty then "success" else "errors_found")), ("total_errors", .int errors.length),
    ("error_summary", .map summary), ("total_formulas", .int b.formulaCount)]

variable (path : String)

/-- The end of a file name from its last dot on; dots at its start do not count. -/
def extension : String :=
  let name := ((S.splitOn "/" path).getLast?).getD ""
  let body := String.ofList (name.toList.dropWhile (· == '.'))
  match S.cutLast "." body with
  | some (_, ext) => "." ++ ext
  | none => ""

def readableFormats : List String := [".xlsx", ".xlsm", ".xltx", ".xltm"]

def formatFault (format : String) : Fault :=
  ⟨.other "InvalidFileException",
    if format = ".xls" then "openpyxl does not support the old .xls file format, please use xlrd to read this file, " ++
      "or convert it to the more recent .xlsx file format."
    else if format = ".xlsb" then "openpyxl does not support binary format .xlsb, please convert this file to .xlsx " ++
      "format if you want to open it with openpyxl"
    else s!"openpyxl does not support {format} file format, please check you can open it with Excel first. " ++
      "Supported formats are: " ++ S.join "," readableFormats⟩

def loadFile (t : FileTree) (path : String) : Result Book := do
  let format := S.lower (extension path)
  if !readableFormats.contains format then .error (formatFault format)
  load (← t.open? (.ofString path) path)

/-! ## The office program -/

def recalcText : String :=
  String.intercalate "\n" [
    "<?xml version=\"1.0\" encoding=\"UTF-8\"?>",
    "<!DOCTYPE script:module PUBLIC \"-//OpenOffice.org//DTD OfficeDocument 1.0//EN\" \"module.dtd\">",
    "<script:module xmlns:script=\"http://openoffice.org/2000/script\" script:name=\"Module1\" " ++
      "script:language=\"StarBasic\">",
    "    Sub RecalculateAndSave()",
    "      ThisComponent.calculateAll()",
    "      ThisComponent.store()",
    "      ThisComponent.close(True)",
    "    End Sub",
    "</script:module>"]

def scriptPlace (s : Session) : Path :=
  let home := Path.ofString ((s.env? "HOME").getD "~")
  let below := if s.platform = "Darwin" then ["Library", "Application Support", "LibreOffice"]
    else [".config", "libreoffice"]
  ⟨home.anchor, home.parts ++ below ++ ["4", "user", "basic", "Standard"]⟩

/-- Makes a directory and those above it. The fault names the first one that could not be made. -/
def makeChain (t : FileTree) (p : Path) : Result FileTree :=
  match (p.parents.reverse ++ [p]).find? fun q => !t.pathExists q with
  | some q => if t.isFile q.parent then .error (FileTree.notADirectory q.toString) else t.makeAll p
  | none => .ok t

def prepareScript : Act Bool := do
  let s ← get
  let place := scriptPlace s
  let file := place.child "Module1.xba"
  let known ← if s.tree.pathExists file then do
      pure (S.contains "RecalculateAndSave" (← ofResult (s.tree.readText file)))
    else pure false
  if known then return true
  if !s.tree.pathExists place then
    let _ ← runCommand ["soffice", "--headless", "--terminate_after_init"] (.int 10)
    Act.changeTree fun t => makeChain t place
  match ← Act.attempt (Act.changeTree fun t => t.saveText file recalcText) with
  | .ok () => pure true
  | .error _ => pure false

def stopper? : Act (Option String) := do
  match (← get).platform with
  | "Linux" => pure (some "timeout")
  | "Darwin" => do
    match ← Act.attempt (Act.runCommand ["gtimeout", "--version"] (.int 1)) with
    | .ok _ => pure (some "gtimeout")
    | .error f => if f.kind = .missingPath || f.kind = .timeout then pure none else fail f
  | _ => pure none

def officeCommand : List String :=
  ["soffice", "--headless", "--norestore",
   "vnd.sun.star.script:Standard.Module1.RecalculateAndSave?language=Basic&location=application",
   (Path.root.join (.ofString path)).toString]

def refusal : Value := .map [("error", text)]

/-- **Computes a workbook anew and searches it for errors.** -/
def recalculate (seconds : Int) : Act Value := do
  if !(← get).tree.pathExists (.ofString path) then return refusal s!"File {path} does not exist"
  if !(← prepareScript) then return refusal "Failed to setup LibreOffice macro"
  let before := match ← stopper? with
    | some command => [command, Number.intText seconds]
    | none => []
  let ended ← Act.runCommand (before ++ officeCommand path) .null
  if ended.code != 0 && ended.code != 124 then
    let text := if ended.err = "" then "Unknown error during recalculation" else ended.err
    return refusal (if S.contains "Module1" text || !S.contains "RecalculateAndSave" text then
      "LibreOffice macro not configured properly" else text)
  match loadFile (← get).tree path with
  | .ok b => return b.survey
  | .error f => return refusal f.message

def recalculationUsage : List String :=
  ["Usage: python recalc.py <excel_file> [timeout_seconds]", "\nRecalculates all formulas in an Excel file using LibreOffice",
   "\nReturns JSON with error details:",
   "  - status: 'success' or 'errors_found'",
   "  - total_errors: Total number of Excel errors found",
   "  - total_formulas: Number of formulas in the file",
   "  - error_summary: Breakdown by error type with locations",
   "    - #VALUE!, #DIV/0!, #REF!, #NAME?, #NULL!, #NUM!, #N/A"]

def recalculationCommand : List String → Act Unit
  | [] => do
    forEach recalculationUsage print
    exit 1
  | path :: rest => do
    let seconds ← match rest.head? with
      | some text => ofResult (Number.parseInt text)
      | none => pure 30
    print (← ofResult (Json.write { indent? := some 2 } (← recalculate path seconds)))

end Sluice.Workbook
