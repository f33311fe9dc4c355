import Sluice.Text.Wrap
import Sluice.Value.Basic

/-!
# Ruled tables

The first line with bars that is no ruling holds the headers.
-/

namespace Sluice.Table

open Text

/-- The number that a text means: a decimal if it has a point or an exponent, else a whole one. -/
def numberOf? (s : Chars) : Option Value :=
  if s.contains '.' || (lower s).contains 'e' then (Number.readFloat? s).map .float
  else (Number.readInt? s).map .int

def cellValue (text : String) : Value :=
  let s := strip text.toList
  let word := String.ofList (lower s)
  if s.isEmpty || word == "null" || word == "none" then .null
  else if word == "true" then true
  else if word == "false" then false
  else (numberOf? s).getD ((String.ofList s))

def cellText : Value → String
  | .null => ""
  | v => v.text

def stripEdges (values : List String) : List String :=
  let values := match values with
    | "" :: rest => rest
    | vs => vs
  if values.getLast? = some "" then values.dropLast else values

def rowRecord? (headers values : List String) : Option Value :=
  if headers.length ≤ values.length then
    some (.map (Fields.ofPairs ((headers.zip values).map fun (h, v) => (h, cellValue v))))
  else none

/-- Whether a line only divides rows: bars at both ends, and between them bars, dashes, colons and
blanks. -/
def isDivider (line : String) : Bool :=
  let s := strip line.toList
  match s with
  | '|' :: rest =>
    3 ≤ s.length && rest.getLast? == some '|' && rest.dropLast.all fun c => isBlank c || c == '-' || c == ':' || c == '|'
  | _ => false

def cellsBy (isBar : Char → Bool) (line : String) : List String :=
  (splitWhere isBar line.toList).map fun s => String.ofList (strip s)

def headersBy (isBar : Char → Bool) (line : String) : List String := (cellsBy isBar line).filter (· != "")

def isPipe (c : Char) : Bool := c == '|'

def pipeRecords (lines : List String) : List Value :=
  match lines.dropWhile fun l => !l.toList.any isPipe with
  | [] => []
  | header :: rest =>
    let headers := headersBy isPipe header
    if headers.isEmpty then []
    else
      let rows := rest.filter fun l => l.toList.any isPipe && !isDivider l
      rows.filterMap fun l => rowRecord? headers (stripEdges (cellsBy isPipe (S.strip l)))

def rulingChars : Chars := ['+', '-', '=', '│', '├', '┤', '╒', '╞', '╘', '╤', '╪', '╧', '═', '╕', '╡', '╛']

def isRuling (line : String) : Bool := line.toList.all fun c => rulingChars.contains c || isBlank c

def isBar (c : Char) : Bool := c == '|' || c == '│'

def holdsCells (line : String) : Bool := !isRuling line && line.toList.any isBar

def gridRecords (lines : List String) : List Value :=
  match lines.filter holdsCells with
  | [] => []
  | header :: rows =>
    let headers := headersBy isBar header
    if headers.isEmpty then []
    else rows.filterMap fun l => rowRecord? headers (stripEdges (cellsBy isBar l))

inductive Kind
  | pipe
  | grid
  | page
deriving DecidableEq

def startsWithBar (line : Chars) : Bool := (stripLeft line).head?.any isBar

def startsWithRuling (line : Chars) : Bool :=
  match stripLeft line with
  | '+' :: rest =>
    let dashes := rest.takeWhile fun c => c == '-' || c == '='
    !dashes.isEmpty && (rest.drop dashes.length).head? == some '+'
  | _ => false

def gridChars : Chars := ['+', '╒', '╞', '╘', '╤', '╪', '╧', '═', '╕', '╡', '╛']

def detect (text : String) : Kind :=
  let lines := splitAtChar '\n' text.toList
  if S.contains "<table" (S.lower text) then .page
  else if lines.any startsWithBar then
    if text.toList.any gridChars.contains then .grid else .pipe
  else if lines.any startsWithRuling then .grid
  else .pipe

/-!
## Columns

A column has the most general of the kinds of its cells. Aligned at the decimal point, cells are first filled up behind
it.
-/

open Number

inductive CellKind
  | nothing
  | truth
  | whole
  | decimal
  | text
deriving DecidableEq

namespace CellKind

def rank : CellKind → Nat
  | nothing => 0
  | truth => 1
  | whole => 2
  | decimal => 3
  | text => 4

def max (a b : CellKind) : CellKind := if a.rank < b.rank then b else a

end CellKind

/-- Whether a text reads as a number; of the words for no finite number only the short ones count. -/
def readsAsNumber (s : Chars) : Bool :=
  match readFloat? s with
  | none => false
  | some x => if x.isNaN || x.isInf then ["inf", "-inf", "nan"].contains (String.ofList (lower s)) else true

variable (numbers : Bool)

def textKind (s : Chars) : CellKind :=
  if s == "True".toList || s == "False".toList then .truth
  else if numbers && (readInt? s).isSome then .whole
  else if numbers && readsAsNumber s then .decimal
  else .text

def kindOf : Value → CellKind
  | .null => .nothing
  | .bool _ => .truth
  | .int _ => if numbers then .whole else .text
  | .float _ => if numbers then .decimal else .text
  | .str s => textKind numbers (visible s.toList)
  | _ => .text

def columnKind (cells : List Value) : CellKind := (cells.map (kindOf numbers)).foldl CellKind.max .truth

def decimalText (x : Float) : String := general 6 x

def floatOfInt (n : Int) : Result Float :=
  if overflows n then .error ⟨.overflow, "int too large to convert to float"⟩
  else .ok (ofInt n)

def decimalCell (codes : Bool) : Value → Result String
  | .bool b => .ok (if b then "1" else "0")
  | .int n => (floatOfInt n).map decimalText
  | .float x => .ok (decimalText x)
  | .str s =>
    if codes then do
      let raw := String.ofList (visible s.toList)
      pure (S.replaceAll raw (decimalText (← parseFloat raw)) s)
    else (parseFloat s).map decimalText
  | v => .ok v.text

def formatCell (codes : Bool) (kind : CellKind) (v : Value) : Result String :=
  match v with
  | .null => .ok ""
  | v => if kind = .decimal then decimalCell codes v else .ok v.text

/-! ## Alignment -/

/-- Where cells stand in their column. -/
inductive Align
  | left
  | right
  | center
  | decimal
  | none (v : Value)
  /-- as no other way says -/
  | other (v : Value)

namespace Align

def ofValue : Value → Align
  | .str "left" => .left
  | .str "right" => .right
  | .str "center" => .center
  | .str "decimal" => .decimal
  | v => if v.truthy then .other v else .none v

def isRight : Align → Bool
  | .right | .decimal => true
  | _ => false

def isCenter : Align → Bool
  | .center => true
  | _ => false

end Align

/-- A text in the middle of `n` characters; an odd blank goes behind. -/
def padBoth (n : Nat) (s : Chars) : Chars :=
  let free := n - s.length
  List.replicate (free / 2) ' ' ++ s ++ List.replicate (free - free / 2) ' '

def padCell (a : Align) (n : Nat) (s : Chars) : Chars :=
  match a with
  | .right | .decimal => padLeft n s
  | .center => padBoth n s
  | .none _ => s
  | .left | .other _ => padRight n s

def padHeader (a : Align) (n : Nat) (s : Chars) : Chars :=
  match a with
  | .left => padRight n s
  | .center => padBoth n s
  | .none _ => s
  | .right | .decimal | .other _ => padLeft n s

def hasGroups (s : Chars) : Bool :=
  let (_, body) := takeSign s
  let (whole, part?) := match cutOnce ['.'] body with
    | some (w, p) => (w, some p)
    | none => (body, none)
  let wholeOk := match splitAtChar ',' whole with
    | first :: groups => 1 ≤ first.length && first.length ≤ 3 && first.all isAsciiDigit &&
        groups.all fun g => g.length == 3 && g.all isAsciiDigit
    | [] => false
  let partOk := match part? with
    | some p => p.all isAsciiDigit
    | none => true
  (wholeOk && partOk) || (s.isEmpty) || (whole.isEmpty && s == body && part?.any fun p => !p.isEmpty && p.all isAsciiDigit)

/-- How many characters stand behind the decimal point, or else behind the mark of the exponent; -1 without both. -/
def afterPoint (s : Chars) : Int :=
  if !(readsAsNumber s || hasGroups s) || (readInt? s).isSome then -1
  else
    match cutLast ['.'] s with
    | some (_, tail) => tail.length
    | none =>
      match cutLast ['e'] (lower s) with
      | some (_, tail) => tail.length
      | none => -1

structure Measure where
  codes : Bool := false
  tall : Bool := false

namespace Measure

variable (m : Measure) (s : Chars)

def line : Nat := if m.codes then (visible s).length else s.length

def linesOf : List Chars := splitWhere (fun c => c == '\r' || c == '\n') s

def maximum (ns : List Nat) : Nat := ns.foldl max 0

def width : Nat := if m.tall then maximum ((linesOf s).map m.line) else m.line s

/-- Pads a text, line by line where it may have several, so that `n` characters of it are seen. -/
def pad (padding : Nat → Chars → Chars) (n : Nat) (s : Chars) : Chars :=
  if m.tall then
    if m.codes then
      join ['\n'] (((textLines s).zip (linesOf s)).map fun (l, measured) => padding (n - m.line measured + measured.length) l)
    else join ['\n'] ((textLines s).map (padding n))
  else padding (n - m.line s + s.length) s

end Measure

variable (m : Measure)

def prepare (a : Align) (cells : List Chars) : List Chars :=
  match a with
  | .decimal =>
    let tails := cells.map fun s => afterPoint (if m.codes then visible s else s)
    let most := tails.foldl max (-1)
    (cells.zip tails).map fun (s, t) => s ++ List.replicate (most - t).toNat ' '
  | .none _ => cells
  | _ => cells.map strip

def alignColumn (a : Align) (least : Nat) (cells : List Chars) : List Chars :=
  let cells := prepare m a cells
  let widest := max (Measure.maximum (cells.map m.width)) least
  cells.map (m.pad (padCell a) widest)

def alignHeader (a : Align) (n : Nat) (s : Chars) : Chars :=
  let one (l : Chars) : Chars := padHeader a (n + l.length - m.line l) l
  if m.tall then join ['\n'] ((Measure.linesOf s).map one) else one s

end Sluice.Table
