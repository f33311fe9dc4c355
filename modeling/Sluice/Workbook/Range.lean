import Sluice.Value.Basic

/-!
# Ranges of cells

`A1:D10`, one cell, whole columns `A:D` or rows `1:5`, perhaps with a sheet in front: `Report!A1:D10`. Sides that are
not given are open. Columns are counted in base 26 with digits from 1 to 26.
-/

namespace Sluice.Workbook

def letterOf (d : Nat) : Char := Char.ofNat (65 + d)

def columnLetters (n : Nat) : Chars :=
  if n = 0 then []
  else columnLetters ((n - 1) / 26) ++ [letterOf ((n - 1) % 26)]
termination_by n
decreasing_by omega

/-- The value of a character as a digit of a column number; letters count from 1. -/
def letterValue (c : Char) : Int := (c.toNat : Int) - 64

def columnNumber (letters : Chars) : Int := (Text.upper letters).foldl (fun n c => n * 26 + letterValue c) 0

def cellName (row col : Nat) : String := String.ofList (columnLetters col ++ Number.natText row)

/-! ## Ranges -/

/-- A rectangle of cells, perhaps open at some sides. -/
structure Range where
  sheet? : Option String := none
  minRow? : Option Int := none
  maxRow? : Option Int := none
  minCol? : Option Int := none
  maxCol? : Option Int := none

def Range.contains (r : Range) (row col : Int) : Bool :=
  r.minRow?.all (· ≤ row) && r.maxRow?.all (row ≤ ·) && r.minCol?.all (· ≤ col) && r.maxCol?.all (col ≤ ·)

/-- Whether a character can name a column: a Latin letter, or one of the four characters that become one when their case is
changed. -/
def isColumnLetter (c : Char) : Bool :=
  c.isAlpha || c.toNat == 0x130 || c.toNat == 0x131 || c.toNat == 0x17f || c.toNat == 0x212a

/-- The row that digits name. There can be too many of them. -/
def rowOf (digits : Chars) : Result Int := Number.parseInt (String.ofList digits)

structure Corner where
  letters : Chars
  digits : Chars

def takeCorner (s : Chars) : Corner × Chars :=
  let letters := s.takeWhile isColumnLetter
  let rest := s.drop letters.length
  let digits := rest.takeWhile Text.isDecimal
  (⟨letters, digits⟩, rest.drop digits.length)

def corners? (s : Chars) : Option (Corner × Option Corner) :=
  let closed (s : Chars) : Bool := s == [] || s == ['\n']
  match takeCorner s with
  | (a, ':' :: rest) =>
    let (b, rest) := takeCorner rest
    if closed rest then some (a, some b) else none
  | (a, rest) => if closed rest then some (a, none) else none

def rectangle? (sheet? : Option String) : Corner × Option Corner → Option (Result Range)
  | (⟨c :: cs, d :: ds⟩, none) => some do
    let row ← rowOf (d :: ds)
    let col := columnNumber (c :: cs)
    pure ⟨sheet?, some row, some row, some col, some col⟩
  | (⟨c :: cs, []⟩, some ⟨e :: es, []⟩) =>
    some (pure ⟨sheet?, none, none, some (columnNumber (c :: cs)), some (columnNumber (e :: es))⟩)
  | (⟨[], d :: ds⟩, some ⟨[], e :: es⟩) => some do
    pure ⟨sheet?, some (← rowOf (d :: ds)), some (← rowOf (e :: es)), none, none⟩
  | (⟨c :: cs, d :: ds⟩, some ⟨e :: es, f :: fs⟩) => some do
    let top ← rowOf (d :: ds)
    pure ⟨sheet?, some top, some (← rowOf (f :: fs)), some (columnNumber (c :: cs)), some (columnNumber (e :: es))⟩
  | _ => none

/-- Reads a range in A1 notation. What stands before the first exclamation mark is the sheet. -/
def Range.parse (s : String) : Result Range :=
  let (sheet?, body) := match Text.cutOnce ['!'] s.toList with
    | some (sheet, body) => (some (String.ofList sheet), body)
    | none => (none, s.toList)
  match (corners? body).bind (rectangle? sheet?) with
  | some r => r
  | none => .error (.badValue s!"Invalid range: {String.ofList body}")

def Range.toValue (r : Range) : Value :=
  let side (n? : Option Int) : Value := n?.elim .null .int
  .map [("sheet", r.sheet?.elim .null .str), ("min_col", side r.minCol?), ("max_col", side r.maxCol?),
    ("min_row", side r.minRow?), ("max_row", side r.maxRow?)]

/-! ## Workbooks as they are stored -/

inductive Content
  /-- the cell was touched and never got anything -/
  | unset
  | blank
  | int (n : Int)
  | float (x : Float)
  | text (s : String)
  | bool (b : Bool)
  | error (code : String)
  /-- a formula with its leading equals sign, and the value it had when last computed -/
  | formula (source : String) (cached? : Option Value)

structure Cell where
  row : Nat
  col : Nat
  content : Content
  format : String := "General"
  comment? : Option String := none

structure Area where
  top : Nat
  left : Nat
  bottom : Nat
  right : Nat

structure Sheet where
  name : String
  cells : List Cell := []
  merged : List Area := []
  hiddenRows : List Nat := []
  hiddenCols : List Int := []
  tables : Pairs := []

structure Book where
  sheets : List Sheet

namespace Area

def contains (a : Area) (row col : Nat) : Bool :=
  decide (a.top ≤ row) && decide (row ≤ a.bottom) && decide (a.left ≤ col) && decide (col ≤ a.right)

def name (a : Area) : String :=
  let first := cellName a.top a.left
  if a.top = a.bottom ∧ a.left = a.right then first else s!"{first}:{cellName a.bottom a.right}"

def ofRange? (r : Range) : Option Area :=
  match r.minRow?, r.minCol?, r.maxRow?, r.maxCol? with
  | some a, some b, some c, some d => some ⟨a.toNat, b.toNat, c.toNat, d.toNat⟩
  | _, _, _, _ => none

def transpose (a : Area) : Area := ⟨a.left, a.top, a.right, a.bottom⟩

end Area

def Book.names (b : Book) : List String := b.sheets.map (·.name)

def Book.sheet? (b : Book) (name : String) : Option Sheet := b.sheets.find? (·.name == name)

end Sluice.Workbook
