import Sluice.Html.Event
import Sluice.Machine.Session
import Sluice.Table.Drawing

/-!
# Writing records as a table

The fields of all records, in the order in which they are first seen, become columns.
-/

namespace Sluice.Table

open Text List

structure Options where
  style : Value := "grid"
  /-- the headers: the names of fields, the first row, or given ones -/
  headers : Value := "keys"
  widths : Value := .null
  index : Value := false
  numbers : Value := "decimal"
  texts : Value := "left"

structure Sheet where
  headers : List String
  rows : List (List Value)

/-! ## Rows -/

def noParts : Fault := .badType "object is not iterable"

def parts : Value → Result (List Value)
  | .list items => .ok items
  | .str s => .ok (s.toList.map (.str ·.toString))
  | .map fs => .ok (fs.map (.str ·.1))
  | _ => .error noParts

def recordFields : Value → Result Fields
  | .map fs => .ok fs
  | _ => .error (.noField "keys")

def allKeys (records : List Fields) (start : List String) : List String :=
  records.foldl (fun keys fs => fs.foldl (fun keys f => if keys.contains f.1 then keys else keys ++ [f.1]) keys)
    start

def valuesAt (keys : List String) (fs : Fields) : List Value := keys.map fun k => (Fields.get? k fs).getD .null

def renamed (names : Fields) (key : String) : String :=
  match Fields.get? key names with
  | some v => v.text
  | none => key

def partTexts (v : Value) : Result (List String) := do pure ((← parts v).map Value.text)

variable (headers : Value)

def givenHeaders (keys : List String) : Result (List String) :=
  match headers with
  | .str "keys" => .ok keys
  | .map names => .ok (keys.map (renamed names))
  | v =>
    if v.truthy then .error (.badValue "headers for a list of dicts is not a dict or a keyword")
    else partTexts v

def recordSheet (first : Fields) (records : List Value) : Result Sheet :=
  if headers.equal "firstrow" then do
    let rows ← (records.drop 1).mapM recordFields
    let keys := allKeys rows (Fields.keys first)
    pure ⟨if rows.isEmpty then [] else keys.map (renamed first), rows.map (valuesAt keys)⟩
  else do
    let rows ← records.mapM recordFields
    let keys := allKeys rows []
    pure ⟨← givenHeaders headers keys, rows.map (valuesAt keys)⟩

def rowSheet (rows : List Value) : Result Sheet :=
  match headers, rows with
  | .str "keys", first :: _ =>
    match first with
    | .map _ => .error noParts
    | first => do
      let ps ← parts first
      let rows ← rows.mapM parts
      pure ⟨(range ps.length).map fun i => String.ofList (Number.natText i), rows⟩
  | .str "firstrow", first :: rest => do
    pure ⟨← partTexts first, ← rest.mapM parts⟩
  | headers, rows => do pure ⟨← partTexts headers, ← rows.mapM parts⟩

def withIndex (index : List Value) (rows : List (List Value)) : Result (List (List Value)) :=
  if index.length ≠ rows.length then
    .error (.badValue (s!"index must be as long as the number of data rows: len(index)={index.length} " ++
      s!"len(rows)={rows.length}"))
  else .ok ((index.zip rows).map fun (i, r) => i :: r)

/-- Rows with their numbers in front, where these are wanted. -/
def indexed (index : Value) (rows : List (List Value)) : Result (List (List Value)) :=
  let counted := withIndex ((range rows.length).map fun (i : Nat) => Value.int i) rows
  match index with
  | .list items => withIndex items rows
  | .map fs => withIndex (fs.map (.str ·.1)) rows
  | .str s => if s = "always" then counted else .ok rows
  | v => if v.truthy then counted else .ok rows

def fillHeaders (headers : List String) (rows : List (List Value)) : List String :=
  match headers, rows with
  | [], _ => []
  | hs, [] => hs
  | hs, r :: _ => replicate (r.length - hs.length) "" ++ hs

def sheetOf (headers index : Value) (records : List Value) : Result Sheet := do
  let sheet ← match records with
    | .map first :: _ => recordSheet headers first records
    | rows => rowSheet headers rows
  let rows ← indexed index sheet.rows
  pure ⟨fillHeaders sheet.headers rows, rows⟩

def isNumeric : Value → Result Bool
  | .bool _ | .float _ => .ok true
  | .int n => (floatOfInt n).map fun _ => true
  | .str s => .ok (readsAsNumber s.toList)
  | _ => .ok false

def wrapCell (width v : Value) : Result Value := do
  if ← isNumeric v then pure v
  else
    match width with
    | .null => pure v
    | width => do
      let text ← match kindOf true v, v with
        | .nothing, _ => .error (.badType "takes no arguments")
        | .truth, _ => .error (.noField "expandtabs")
        | .whole, v => do
          let _ ← Number.parseInt v.text
          pure v.text
        | .decimal, v => do
          let _ ← Number.parseFloat v.text
          pure v.text
        | .text, v => pure v.text
      let n ← match width with
        | .int n => pure n
        | .bool b => pure (Value.boolInt b)
        | _ => .error (.badType "not supported between instances")
      pure ((String.ofList (join ['\n'] (← wrap n text.toList))))

def wrapRows (widths : Value) (rows : List (List Value)) : Result (List (List Value)) :=
  match widths with
  | .null => .ok rows
  | widths =>
    match rows with
    | [] => .error ⟨.index, "list index out of range"⟩
    | first :: _ => do
      let each ← match widths with
        | .int n => pure (replicate first.length (Value.int n))
        | .bool b => pure (replicate first.length (Value.bool b))
        | .list ws => pure (ws ++ replicate (first.length - ws.length) .null)
        | .map _ => .error (.badType "unsupported operand")
        | _ => pure (replicate first.length .null)
      rows.mapM fun r => ((r.take first.length).zip each).mapM fun (v, w) => wrapCell w v

/-! ## Tables -/

def columnsOf (rows : List (List Value)) : List (List Value) :=
  let count := Measure.maximum (rows.map length)
  (range count).map fun i => rows.map (·.getD i .null)

def rowsOf (columns : List (List Chars)) : List (List Chars) :=
  match columns with
  | [] => []
  | c :: _ => (range c.length).map fun i => columns.map (·.getD i [])

def markBlank : Value → Value
  | .str s => if S.strip s = "" then ".." else s
  | v => v

def markFirst (s : Sheet) : Sheet :=
  ⟨match s.headers with
    | h :: hs => (if S.strip h = "" then ".." else h) :: hs
    | [] => [],
   s.rows.map fun r => match r with
    | v :: vs => markBlank v :: vs
    | [] => []⟩

/-- The text of a whole sheet, to look for codes and line breaks. -/
def plainText (s : Sheet) : Chars :=
  join ['\t'] (s.headers.map String.toList ++ s.rows.flatMap fun r => r.map (·.text.toList))

def drawingOf (m : Measure) (numbers : Bool) (padding : Nat) (numAlign textAlign : Align) (s : Sheet) : Result Drawing := do
  let columns := columnsOf s.rows
  let kinds := columns.map (columnKind numbers)
  let texts ← (columns.zip kinds).mapM fun (c, k) => c.mapM fun v => (formatCell m.codes k v).map String.toList
  let aligns := kinds.map fun k => if k = .whole ∨ k = .decimal then numAlign else textAlign
  let headers := s.headers.map String.toList
  let least := if headers.isEmpty then columns.map fun _ => 0 else headers.map (m.width · + padding)
  let aligned := ((texts.zip aligns).zip least).map fun ((c, a), w) => alignColumn m a w c
  if headers.isEmpty then
    pure ⟨[], rowsOf aligned, aligned.map fun c => Measure.maximum (c.map m.width), aligns⟩
  else
    let shownColumns := if aligned.isEmpty then headers.map fun _ => [[]] else aligned
    let shownAligns := if aligns.isEmpty then headers.map fun _ => textAlign else aligns
    let widths := (least.zip shownColumns).map fun (w, c) => max w (Measure.maximum (c.map m.width))
    let heads := ((headers.zip shownAligns).zip widths).map fun ((h, a), w) => alignHeader m a w h
    pure ⟨heads, rowsOf aligned, widths, aligns⟩

def styleName : Value → Result String
  | .str s => .ok s
  | .list _ | .map _ => .error (.badType "unhashable type")
  | _ => .ok ""

def alignOr (default : Align) (v : Value) : Align :=
  match v with
  | .str "default" => default
  | v => .ofValue v

def tableText (options : Options) (records : List Value) : Result String := do
  let sheet ← sheetOf options.headers options.index records
  let sheet : Sheet := ⟨sheet.headers, ← wrapRows options.widths sheet.rows⟩
  let sheet := if options.style.equal "rst" then markFirst sheet else sheet
  let pretty := options.style.equal "pretty"
  let name ← styleName options.style
  let plain := plainText sheet
  let tall := Style.isTall name && plain.any fun c => c == '\r' || c == '\n'
  let m : Measure := ⟨hasCodes plain, tall⟩
  let d ← drawingOf m (!pretty) (if pretty then 0 else 2)
    (alignOr (if pretty then .center else .decimal) options.numbers)
    (alignOr (if pretty then .center else .left) options.texts) sheet
  if d.headers.isEmpty && d.rows.isEmpty then pure ""
  else
    pure (String.ofList (join ['\n'] (← d.lines (Style.ofName name) tall)))

/-!
## Tables of pages

A row with a header cell names the columns; every other row that is not empty is data. An inner table starts afresh, and
ends the outer one.
-/

/-- A finished table: the number of the row that names its columns, and its own number. -/
structure PageTable where
  headers? : Option Nat
  body : Nat

structure Collector where
  rows : List (List String) := [[]]
  bodies : List (List Nat) := [[]]
  headers? : Option Nat := none
  tables : List PageTable := []
  cell : Chars := []
  inTable : Bool := false
  inRow : Bool := false
  inCell : Bool := false
  inHeader : Bool := false

namespace Collector

def start (tag : String) (s : Collector) : Collector :=
  if tag = "table" then { s with inTable := true, bodies := [] :: s.bodies, headers? := none }
  else if tag = "tr" then if s.inTable then { s with inRow := true, rows := [] :: s.rows } else s
  else if tag = "td" then if s.inRow then { s with inCell := true, cell := [] } else s
  else if tag = "th" then
    if s.inRow then { s with inCell := true, cell := [], inHeader := true } else s
  else s

variable (s : Collector)

def endRow : Collector :=
  match s.rows with
  | [] | [] :: _ => { s with inRow := false }
  | _ :: earlier =>
    if s.inHeader then { s with inRow := false, headers? := some earlier.length, inHeader := false }
    else
      match s.bodies with
      | [] => { s with inRow := false }
      | body :: bodies => { s with inRow := false, bodies := (earlier.length :: body) :: bodies }

def endCell : Collector :=
  match s.rows with
  | [] => { s with inCell := false, cell := [] }
  | row :: earlier => { s with inCell := false, cell := [], rows := (row ++ [String.ofList (strip s.cell)]) :: earlier }

def endTable : Collector :=
  match s.bodies with
  | [] | [] :: _ => { s with inTable := false }
  | _ :: earlier => { s with inTable := false, tables := ⟨s.headers?, earlier.length⟩ :: s.tables }

def finish (tag : String) (s : Collector) : Collector :=
  if tag = "table" then s.endTable
  else if tag = "tr" then if s.inRow then s.endRow else s
  else if tag = "td" ∨ tag = "th" then if s.inCell then s.endCell else s
  else s

def step : Html.Event → Collector
  | .start tag => s.start tag
  | .finish tag => s.finish tag
  | .text t => if s.inCell then { s with cell := s.cell ++ t } else s

def row (n : Nat) : List String := s.rows.reverse.getD n []

def tableRecords (t : PageTable) : List Value :=
  let headers := (t.headers?.map s.row).getD []
  ((s.bodies.reverse.getD t.body []).reverse.map s.row).filterMap (rowRecord? headers)

def records : List Value := s.tables.reverse.flatMap s.tableRecords

end Collector

def eventRecords (events : List Html.Event) : List Value := (events.foldl Collector.step {}).records

def pageRecords (text : String) : Feed Value :=
  let feed := Html.events text.toList
  match feed.fault? with
  | some f => .failed f
  | none => .ofList (eventRecords feed.items)

/-! ## The table command -/

open CommandLine Act

def readRecords (format : Value) (text : String) : Act (Feed Value) := do
  let lines := Text.S.lines text
  let whole := Text.S.join "\n" lines
  let pick : Kind → Feed Value
    | .pipe => .ofList (pipeRecords lines)
    | .grid => .ofList (gridRecords lines)
    | .page => pageRecords whole
  match format with
  | .str "auto" => pure (pick (detect whole))
  | .str "html" => pure (pick .page)
  | .str "grid" => pure (pick .grid)
  | .str "pipe" => pure (pick .pipe)
  | other => do
    printErr s!"Warning: Unknown table format '{other.text}'"
    pure .empty

def readInput (format : Value) : Act (Feed Value) := do
  let (text, fault?) ← streamInput
  match fault? with
  | some f => pure (.failed f)
  | none => readRecords format text

/-- The records on some lines; a line that holds none is told to the user. -/
def collectRecords : List String → Act (List Value)
  | [] => pure []
  | line :: rest =>
    match Json.read line with
    | .ok v => do
      pure (v :: (← collectRecords rest))
    | .error f =>
      if f.kind = .json then do
        printErr ("Warning: Skipping invalid JSON line: " ++ f.message)
        collectRecords rest
      else fail f

def writeRecords (options : Options) : Act Unit := do
  let (text, fault?) ← streamInput
  let whole := match fault? with
    | some _ => Json.wholeLines text
    | none => text
  let records ← collectRecords (Json.fullLines whole)
  match fault? with
  | some f => fail f
  | none =>
    if records.isEmpty then pure ()
    else do print (← ofResult (tableText options records))

def commandArguments : List Argument :=
  [.choice "--mode" ["read", "write"],
   .choice "--format" ["auto", "pipe", "grid", "html"] "auto",
   .option "--tablefmt" "grid",
   .whole "--maxcolwidths",
   .switch "--showindex",
   .choice "--numalign" ["left", "right", "center", "decimal"] "decimal",
   .choice "--stralign" ["left", "right", "center"] "left"]

def command (argv : List String) : Act Unit := do
  let args ← Act.arguments (CommandLine.parse commandArguments argv)
  match args.str? "mode" with
  | some "read" => Act.printFeed (← readInput (args.get "format"))
  | some _ =>
    let widths := args.get "maxcolwidths"
    writeRecords
      { style := args.get "tablefmt", index := args.get "showindex", numbers := args.get "numalign"
        texts := args.get "stralign", widths := if widths.truthy then widths else .null }
  | none => exit 2

end Sluice.Table
