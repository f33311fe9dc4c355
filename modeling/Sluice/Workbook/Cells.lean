import Sluice.Workbook.Range

/-!
# Storing values in cells

A text that begins with an equals sign is a formula, numbers keep sixteen significant digits, and moments become serial
numbers.
-/

/-!
## Serial days

Day 1 is the first of January 1900, and a 29th of February 1900 that never was is day 60.
-/

namespace Sluice.Workbook

def serialEpoch : Date := ⟨1899, 12, 30⟩

open Number

def dayFraction (t : TimeOfDay) : Float :=
  (ofInt (t.hour * 3600 + t.minute * 60 + t.second) + ofInt t.micro / 1000000.0) / 86400.0

def serialOf (t : DateTime) : Float :=
  let days : Int := (t.date.ordinal : Int) - serialEpoch.ordinal
  let days := if 0 < days ∧ days ≤ 60 then days - 1 else days
  ofInt days + dayFraction t.time

/-- A number as whole days and milliseconds of a day, these rounded to nearest and maybe a full day. -/
def splitSerial : Value → Option (Int × Int)
  | .int n => some (n, 0)
  | .float x => do
    let day ← floor? x
    let fraction := x - ofInt day
    some (day, ← nearest? (fraction * 86400.0 * 1000.0))
  | _ => none

/-- Whether a number lies between bounds, the lower one perhaps included. -/
def between (lo : Float) (closed : Bool) (hi : Float) : Value → Bool
  | .int n => between' (ofInt n)
  | .float x => between' x
  | _ => false
where
  between' (x : Float) : Bool := (if closed then lo ≤ x else lo < x) && x < hi

/-- The moment of a serial number: a time of day for numbers from 0 to below 1, else a day with a time of day. -/
def momentOf (serial : Value) : Option Value :=
  match splitSerial serial with
  | none => none
  | some (day, millis) =>
    if between 0.0 true 1.0 serial && millis < 86400000 then
      some (.time (.ofMicros (millis.toNat * 1000)))
    else
      let day := if between 0.0 false 60.0 serial then day + 1 else day
      let day := day + millis / 86400000
      let ordinal := (serialEpoch.ordinal : Int) + day
      if 1 ≤ ordinal ∧ ordinal ≤ 3652059 then
        some (.datetime ⟨.ofOrdinal ordinal.toNat, .ofMicros ((millis % 86400000).toNat * 1000), none⟩)
      else none

def spanMicros? : Value → Option Int
  | .int n => some (n * Duration.microsPerDay)
  | .float x => do
    let days ← truncate? x
    some (days * Duration.microsPerDay + (← nearest? ((x - ofInt days) * 86400000000.0)))
  | _ => none

/-- The length of time of a number of days, in whole milliseconds; none past the longest duration. -/
def spanOf (serial : Value) : Option Value := do
  some (.duration (← (← Duration.ofMicros? (← spanMicros? serial)).toMillis?))

/-- What stands behind the bracket of a mark that counts hours, minutes or seconds past a day. -/
def spanMarks : List Chars := ["h]", "hh]", "m]", "mm]", "s]", "ss]"].map (·.toList)

/-- How many characters follow the first one of an aside: a quoted part, or a bracketed one that is no mark of a length
of time. -/
def aside? : Chars → Option Nat
  | '"' :: rest =>
    let inner := rest.takeWhile fun c => c != '"' && c != '\n'
    if (rest.drop inner.length).head? == some '"' then some (inner.length + 1) else none
  | '[' :: rest =>
    let inner := rest.takeWhile (· != ']')
    if spanMarks.any (·.isPrefixOf rest) then none
    else if inner.length < rest.length then some (inner.length + 1) else none
  | _ => none

def dropAsides : (skip : Nat) → List Char → List Char
  | _, [] => []
  | skip + 1, _ :: rest => dropAsides skip rest
  | 0, c :: rest =>
    match aside? (c :: rest) with
    | some n => dropAsides n rest
    | none => c :: dropAsides 0 rest

def isDateLetter (c : Char) : Bool := ['d', 'm', 'h', 'y', 's'].contains c.toLower

def hasDatePart : List Char → Bool
  | a :: b :: rest => (a != '\\' && isDateLetter b) || hasDatePart (b :: rest)
  | _ => false

variable (format : String)

def firstSection : List Char := format.toList.takeWhile (· != ';')

/-- Whether a number format shows a date: its first section has a letter for a part of one, asides left out. -/
def isDateFormat : Bool := hasDatePart (dropAsides 0 (firstSection format))

def spanLetter (c : Char) : Char := if c == 'ſ' then 's' else c.toLower

/-- Whether a mark of a length of time stands in a section, in letters of any case. -/
def hasSpanMark : List Char → Bool
  | [] => false
  | c :: rest => (c == '[' && spanMarks.any (·.isPrefixOf ((rest.take 3).map spanLetter))) || hasSpanMark rest

def isSpanFormat : Bool := hasSpanMark (firstSection format)

def errorCodes : List String := ["#NULL!", "#DIV/0!", "#VALUE!", "#REF!", "#NAME?", "#NUM!", "#N/A"]

/-- Whether a character may not stand in a cell: control characters but for tab and line ends. -/
def isIllegal (c : Char) : Bool :=
  let n := c.toNat
  n ≤ 8 || n == 11 || n == 12 || (14 ≤ n && n ≤ 31)

def maxTextLength : Nat := 32767

def storedText (s : List Char) : String := String.ofList (Text.unifyLineEnds s)

def Content.ofText (s : String) : Result Content :=
  let cs := s.toList.take maxTextLength
  if cs.any isIllegal then .error ⟨.sheetCharacter, ""⟩
  else
    let t := String.ofList cs
    match cs with
    | [] => .ok .blank
    | '=' :: _ :: _ => .ok (.formula (storedText cs) none)
    | _ => .ok (if errorCodes.contains t then .error t else .text (storedText cs))

/-- A number with sixteen significant digits: without point and exponent it is a whole number. -/
def Content.ofDigits (text : String) (x : Float) : Content :=
  if text.toList.any fun c => c == '.' || c == 'e' || c == 'E' then
    .float ((Number.readFloat? text.toList).getD x)
  else
    match Number.readInt? text.toList with
    | some n => .int n
    | none => .blank

/-- A double in a cell; a cell cannot hold infinity and the like. -/
def Content.ofFloat (x : Float) : Content :=
  match Number.Parts.ofFloat x with
  | .finite .. => .ofDigits (Number.general 16 x) x
  | _ => .blank

def Content.ofInt (n : Int) : Result Content :=
  if n.natAbs < Number.tenTo 16 then .ok (.int n)
  else if Number.overflows n then .error ⟨.overflow, "int too large to convert to float"⟩
  else .ok (.ofFloat (Number.ofInt n))

def momentFormat : Value → String
  | .date _ => "yyyy-mm-dd"
  | .time _ => "h:mm:ss"
  | _ => "yyyy-mm-dd h:mm:ss"

def Content.ofValue : Value → Result Content
  | .null => .ok .unset
  | .bool b => .ok (.bool b)
  | .int n => Content.ofInt n
  | .float x => .ok (.ofFloat x)
  | .str s => Content.ofText s
  | .date d => .ok (.ofFloat (serialOf ⟨d, {}, none⟩))
  | .datetime t => .ok (.ofFloat (serialOf t))
  | .time t => .ok (.ofFloat (dayFraction t))
  | v => .error (.badValue ("Cannot convert " ++ v.quoted ++ " to Excel"))

/-!
## Grids

Loaded with **computed** values, a formula shows the value it last had; otherwise itself. Of a merged area only the
first cell shows a value.
-/

/-- What sort of content a cell shows. -/
inductive Kind
  | plain
  | formula
  | bool
  | date
deriving DecidableEq

structure View where
  value : Value
  kind : Kind := .plain
  format : String := "General"
  comment? : Option String := none

def View.empty : View := { value := .null }

/-- A number in a cell with a format: a moment when the format shows a date, a length of time when it also has a mark of
one. -/
def numberView (format : String) (v : Value) : Value × Kind :=
  if isDateFormat format then
    match if isSpanFormat format then spanOf v else momentOf v with
    | some m => (m, .date)
    | none => ("#VALUE!", .plain)
  else (v, .plain)

def Content.shown (computed : Bool) (format : String) : Content → Value × Kind
  | .unset => (.null, .plain)
  | .blank => (.null, .plain)
  | .int n => numberView format n
  | .float x => numberView format (.float x)
  | .text s => (s, .plain)
  | .bool b => (b, .bool)
  | .error code => (code, .plain)
  | .formula source cached? =>
    if computed then
      match cached? with
      | none => (.null, .plain)
      | some (.bool b) => (b, .bool)
      | some (.int n) =>
        match Content.ofInt n with
        | .ok (.int n) => numberView format n
        | .ok (.float x) => numberView format (.float x)
        | _ => (.null, .plain)
      | some (.float x) =>
        match Content.ofFloat x with
        | .int n => numberView format n
        | .float x => numberView format (.float x)
        | _ => (.null, .plain)
      | some (.str "") => (.null, .plain)
      | some v => (v, .plain)
    else (source, .formula)

structure Grid where
  firstRow : Nat
  firstCol : Nat
  height : Nat
  width : Nat
  inUse : Bool
  views : List ((Nat × Nat) × View)
  merged : List Area

def Grid.view (g : Grid) (row col : Nat) : View := ((g.views.find? (·.1 == (row, col))).map (·.2)).getD .empty

def Grid.value (g : Grid) (row col : Nat) : Value := (g.view row col).value

def Cell.isStored (c : Cell) : Bool :=
  (match c.content with
    | .unset => false
    | _ => true) || c.format != "General" || c.comment?.isSome

variable (s : Sheet)

def Sheet.isCovered (row col : Nat) : Bool := s.merged.any fun a => a.contains row col && !(a.top == row && a.left == col)

/-- The corners of a list of places: the first and last row and column. -/
def corners : List (Nat × Nat) → Option Area
  | [] => none
  | p :: ps =>
    some (ps.foldl (fun a q => ⟨min a.top q.1, min a.left q.2, max a.bottom q.1, max a.right q.2⟩)
      ⟨p.1, p.2, p.1, p.2⟩)

/-- The places that count for the size of a sheet. Cells that never got anything count only when `touched`. -/
def Sheet.marks (touched : Bool) : List (Nat × Nat) :=
  (s.cells.filter fun c => touched || c.isStored || s.merged.any fun a => a.contains c.row c.col).map (fun c => (c.row, c.col)) ++
    s.merged.flatMap fun a => [(a.top, a.left), (a.bottom, a.right)]

def Sheet.grid (computed touched : Bool) : Grid :=
  let cells := s.cells.filter fun c => !s.isCovered c.row c.col
  let places := s.marks touched
  let box := (corners places).getD ⟨1, 1, 1, 1⟩
  { firstRow := box.top
    firstCol := box.left
    height := box.bottom
    width := box.right
    inUse := !places.isEmpty
    views := cells.map fun c =>
      let (value, kind) := c.content.shown computed c.format
      ((c.row, c.col), { value, kind, format := c.format, comment? := c.comment? })
    merged := s.merged }

def choiceNumber? : Value → Option Int
  | .int n => some n
  | .bool b => some (Value.boolInt b)
  | _ => none

variable (b : Book) (choice : Value)

def Book.choose : Result Sheet :=
  match choiceNumber? choice with
  | some n =>
    match (if n < 0 then none else b.sheets[n.toNat]?) with
    | some s => .ok s
    | none => .error (.badValue ("Sheet index " ++ choice.text ++ " out of range (0-" ++
        Number.intText ((b.sheets.length : Int) - 1) ++ ")"))
  | none =>
    match choice.str?.bind b.sheet? with
    | some s => .ok s
    | none => .error (.badValue ("Sheet '" ++ choice.text ++ "' not found. Available: " ++
        (Value.list (b.names.map .str)).quoted))

variable (name : String)

def Book.require : Result Sheet :=
  match b.sheet? name with
  | some s => .ok s
  | none => .error ⟨.key, Text.S.quoted ("Worksheet " ++ name ++ " does not exist.")⟩

/-!
## Sheets cell by cell

One record for each cell with a value, a formula or a merged area, in row-major order; and one for each sheet.
-/

/-! ## Sheets as tables of records `simpleRecords` takes the whole sheet, `tableRecords` a rectangle with headings and a
rule for merged cells. -/

def isoValue : Value → Value
  | .date d => d.iso
  | .datetime t => t.iso
  | .time t => t.iso
  | v => v

def isNull : Value → Bool
  | .null => true
  | _ => false

def recordOf (names : List String) (values : List Value) : Value := .map (Fields.ofPairs (names.zip values))

def columnHeading (i : Nat) (v : Value) : String :=
  match v with
  | .null => "Column_" ++ Number.intText (i + 1)
  | v => v.text

def headings (row : List Value) : List String := row.mapIdx columnHeading

variable (g : Grid) (f : Frame) (opts : TableOptions)

open List

def Grid.rows : List (List Value) := (range g.height).map fun r => (range g.width).map fun c => g.value (r + 1) (c + 1)

def rowRecords : List (List Value) → List Value
  | [] => []
  | header :: rows => (rows.filter (!·.all isNull)).map fun row => recordOf (headings header) (row.map isoValue)

def simpleRecords (skip : Nat) (g : Grid) : List Value := if g.inUse then rowRecords (g.rows.drop skip) else []

/-! ## The table reader -/

inductive MergeRule
  /-- only its first cell shows a value -/
  | origin
  | fill
  /-- each cell shows what is stored in it -/
  | stored

def MergeRule.ofName : MergeRule := if name = "origin" then .origin else if name = "fill" then .fill else .stored

def Grid.merge (rule : MergeRule) (row col : Nat) : Value :=
  match g.merged.find? (·.contains row col) with
  | none => g.value row col
  | some a =>
    match rule with
    | .origin => if a.top = row ∧ a.left = col then g.value row col else .null
    | .fill => g.value a.top a.left
    | .stored => g.value row col

def checkPlace (row col : Int) : Result Unit :=
  if row < 1 ∨ col < 1 then .error (.badValue "Row or column values must be at least 1") else .ok ()

def Grid.cellValue (rule : MergeRule) (row col : Int) : Result Value := do
  checkPlace row col
  pure (isoValue (g.merge rule row.toNat col.toNat))

/-- The rectangle that the table reader works on. -/
structure Frame where
  minRow : Int
  maxRow : Int
  minCol : Int
  maxCol : Int

def interval (a b : Int) : List Int := (range (b + 1 - a).toNat).map fun (i : Nat) => a + (i : Int)

def Frame.rows : List Int := interval f.minRow f.maxRow

def Frame.cols : List Int := interval f.minCol f.maxCol

def side (given? : Option Int) (otherwise : Int) : Int :=
  match given? with
  | some n => if n = 0 then otherwise else n
  | none => otherwise

variable (range? : Option Range)

def Grid.frame : Frame :=
  let r := range?.getD {}
  { minRow := side r.minRow? 1
    maxRow := side r.maxRow? g.height
    minCol := side r.minCol? 1
    maxCol := side r.maxCol? g.width }

structure TableOptions where
  headerRow : Int := 1
  /-- the letters of the heading column, when the table lies on its side -/
  headerCol? : Option String := none
  rule : MergeRule := .origin
  skipEmpty : Bool := true

def headingOr (otherwise : String) : Value → String
  | .null => otherwise
  | v => v.text

def lineRecord (names : List String) (values : List Value) : List Value :=
  if opts.skipEmpty && values.all isNull then [] else [recordOf names values]

def uprightRecords : Feed Value :=
  let top := f.minRow + opts.headerRow - 1
  .bindResult (f.cols.mapM fun col => do
      let v ← g.cellValue opts.rule top col
      pure (headingOr ("Column_" ++ Number.intText (col - f.minCol + 1)) v)) fun names =>
    .flatMap (fun row =>
      .bindResult (f.cols.mapM (g.cellValue opts.rule row ·)) fun values =>
        .ofList (lineRecord opts names values)) (interval (top + 1) f.maxRow)

def sidewaysRecords (headerCol : Int) : Feed Value :=
  .bindResult (f.rows.mapM fun row => do
      pure (headingOr ("Row_" ++ Number.intText row) (← g.cellValue opts.rule row headerCol))) fun names =>
    .flatMap (fun col =>
      if col = headerCol then .empty
      else
        .bindResult (f.rows.mapM (g.cellValue opts.rule · col)) fun values => .ofList (lineRecord opts names values)) f.cols

def tableRecords (opts : TableOptions) : Feed Value :=
  let f := g.frame range?
  match opts.headerCol? with
  | some letters => sidewaysRecords g f opts (columnNumber letters.toList)
  | none => uprightRecords g f opts

/-! ## Sheets cell by cell -/

inductive FormulaMode
  | computed
  | text
  /-- as their text, with the value beside it -/
  | both
deriving DecidableEq

def FormulaMode.ofName : FormulaMode := if name = "text" then .text else if name = "both" then .both else .computed

def View.typeLetter (v : View) : String :=
  match v.kind with
  | .formula => "f"
  | .bool => "b"
  | .date => "d"
  | .plain =>
    match v.value with
    | .null => "n"
    | .bool _ => "b"
    | .int _ => "n"
    | .float _ => "n"
    | _ => "s"

def Grid.area? (row col : Nat) : Option Area := g.merged.find? (·.contains row col)

def Grid.isReported (row col : Nat) : Bool :=
  !isNull (g.value row col) || (g.view row col).kind == .formula || (g.area? row col).isSome

def cellRecord (g : Grid) (computed? : Option Grid) (row col : Nat) : Value :=
  let v := g.view row col
  let type := v.typeLetter
  let base : Fields :=
    [("sheet", s.name), ("row", .int row), ("col", .int col), ("ref", (cellName row col)),
     ("value", isoValue v.value), ("type", type)]
  let computed : Fields := match computed? with
    | some h => if type = "f" then [("computed", h.value row col)] else []
    | none => []
  let merge : Fields := match g.area? row col with
    | some a => [("merge", a.name), ("merge_origin", a.top == row && a.left == col)]
    | none => []
  let hidden : Fields := if s.hiddenRows.contains row || s.hiddenCols.contains (col : Int) then [("hidden", true)] else []
  let comment : Fields := match v.comment? with
    | some c => [("comment", c)]
    | none => []
  let format : Fields := if v.format = "" ∨ v.format = "General" then [] else [("format", v.format)]
  .map (base ++ computed ++ merge ++ hidden ++ comment ++ format)

def Grid.places : List (Nat × Nat) :=
  if g.inUse then
    (range g.height).flatMap fun r => (range g.width).map fun c => (r + 1, c + 1)
  else []

def sheetCells (mode : FormulaMode) (range? : Option Range) : List Value :=
  let g := s.grid (mode == .computed) false
  let computed? := if mode == .both then some (s.grid true false) else none
  (g.places.filter fun p =>
    g.isReported p.1 p.2 && range?.all (·.contains p.1 p.2)).map fun p => cellRecord s g computed? p.1 p.2

def Book.reported : Result (List String) :=
  match choice with
  | .null => match range?.bind (·.sheet?) with
    | some name => .ok (if name = "" then b.names else [name])
    | none => .ok b.names
  | choice =>
    match choiceNumber? choice with
    | some n =>
      let i := if n < 0 then n + b.sheets.length else n
      match (if i < 0 then none else b.names[i.toNat]?) with
      | some name => .ok [name]
      | none => .error ⟨.index, "list index out of range"⟩
    | none => .ok [choice.text]

/-- **Cell records** of a workbook. -/
def Book.cellRecords (range : String) (mode : FormulaMode) : Feed Value :=
  .bindResult (if range = "" then .ok none else (Range.parse range).map some) fun range? =>
    .bindResult (b.reported choice range?) fun names =>
      .flatMap (fun name => .bindResult (b.require name) fun s => .ofList (sheetCells s mode range?)) names

def Grid.dimensions : String := s!"{cellName g.firstRow g.firstCol}:{cellName g.height g.width}"

def shownRows : Nat := 19

def sheetRecord (index : Nat) (s : Sheet) : Value :=
  let g := s.grid false false
  .map
    [("sheet", s.name), ("index", .int index), ("dimensions", g.dimensions),
     ("rows", .int g.height), ("cols", .int g.width), ("min_row", .int g.firstRow),
     ("max_row", .int g.height), ("min_col", .int g.firstCol), ("max_col", .int g.width),
     ("merged_ranges", .list (s.merged.map (.str ·.name))),
     ("named_tables", .list (s.tables.map fun t => .map [("name", t.1), ("range", t.2)])),
     ("first_row", .list ((range g.width).map fun c => g.value 1 (c + 1))),
     ("first_col", .list ((range (min g.height shownRows)).map fun r => g.value (r + 1) 1))]

def Book.statistics : List Value := b.sheets.mapIdx sheetRecord

end Sluice.Workbook
