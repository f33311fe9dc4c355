import Sluice.Html.Reference
import Sluice.Table.Column

/-!
# Drawing tables

Puts aligned cells into the rows and rulings of a style.
-/

namespace Sluice.Table

open Text

/-! ## Styles of tables -/

inductive Ruling
  /-- a line made of a filling, with marks in front, between the columns and behind -/
  | line (front fill between behind : String)
  | colons
  | pageOpening
  | typesetOpening (name rule : String)
  | columnLine

inductive RowStyle
  | cells (front between behind : String)
  | wiki (mark : String)
  /-- cells with a short sign of their alignment -/
  | signed
  | page (tag : String) (escaped : Bool)
  /-- cells behind double bars, with a mark around each text -/
  | barred (mark : String)
  | typeset (escaped : Bool)
  /-- cells of a document table; the header comes with the column line -/
  | document (header : Bool)

structure Style where
  above? : Option Ruling := none
  belowHeader? : Option Ruling := none
  between? : Option Ruling := none
  below? : Option Ruling := none
  header : RowStyle
  row : RowStyle
  padding : Nat := 1
  hidesAbove : Bool := false
  /-- whether the last ruling is left out when there is a header -/
  hidesBelow : Bool := false
  /-- whether a cell may take several lines -/
  tall : Bool := true

namespace Style

def barred (bar : String) : RowStyle := .cells bar bar bar

def grid (above belowHeader between below : Ruling) (bar : String) : Style :=
  { above? := some above, belowHeader? := some belowHeader, between? := some between, below? := some below
    header := barred bar, row := barred bar }

def outline (s : Style) : Style := { s with between? := none, tall := false }

def typeset (name top middle bottom : String) (escaped : Bool) : Style :=
  { above? := some (.typesetOpening name top), belowHeader? := some (.line middle "" "" "")
    below? := some (.line (bottom ++ "\n\\end\x7b" ++ name ++ "\x7d") "" "" "")
    header := .typeset escaped, row := .typeset escaped, tall := false }

def page (escaped : Bool) : Style :=
  { above? := some .pageOpening, below? := some (.line "</tbody>\n</table>" "" "" "")
    header := .page "th" escaped, row := .page "td" escaped, padding := 0, hidesAbove := true, tall := false }

/-- Cells between gaps, with rulings of a filling. -/
def gapped (fill : String) : Style :=
  let ruling := some (.line "" fill "  " "")
  { above? := ruling, belowHeader? := ruling, below? := ruling
    header := .cells "" "  " "", row := .cells "" "  " "", padding := 0 }

def simple : Style := { gapped "-" with hidesAbove := true, hidesBelow := true }

/-- Cells between bars. -/
def plain (above? belowHeader? below? : Option Ruling) : Style := { above?, belowHeader?, below?, header := barred "|", row := barred "|" }

def plainGrid : Style :=
  grid (.line "+" "-" "+" "+") (.line "+" "=" "+" "+") (.line "+" "-" "+" "+") (.line "+" "-" "+" "+") "|"

/-- A grid whose rulings are given by their four signs. -/
def boxed (above belowHeader between below bar : String) : Style :=
  let ruling (signs : String) : Ruling := match signs.toList.map (String.ofList [·]) with
    | [front, fill, between, behind] => .line front fill between behind
    | _ => .line "" "" "" ""
  grid (ruling above) (ruling belowHeader) (ruling between) (ruling below) bar

def grids : List (String × Style) :=
  [("", plainGrid), ("simple_", boxed "┌─┬┐" "├─┼┤" "├─┼┤" "└─┴┘" "│"), ("rounded_", boxed "╭─┬╮" "├─┼┤" "├─┼┤" "╰─┴╯" "│"),
   ("heavy_", boxed "┏━┳┓" "┣━╋┫" "┣━╋┫" "┗━┻┛" "┃"), ("mixed_", boxed "┍━┯┑" "┝━┿┥" "├─┼┤" "┕━┷┙" "│"),
   ("double_", boxed "╔═╦╗" "╠═╬╣" "╠═╬╣" "╚═╩╝" "║"), ("fancy_", boxed "╒═╤╕" "╞═╪╡" "├─┼┤" "╘═╧╛" "│")]

def named : List (String × Style) :=
  let dashes := some (.line "+" "-" "+" "+")
  let bars (between : String) := some (.line "|" "-" between "|")
  grids.map (fun (name, s) => (name ++ "grid", s)) ++ grids.map (fun (name, s) => (name ++ "outline", s.outline)) ++
  [("simple", simple), ("plain", { header := .cells "" "  " "", row := .cells "" "  " "", padding := 0 }),
   ("github", { plain (bars "|") (bars "|") none with hidesAbove := true, tall := false }),
   ("pipe", { plain (some .colons) (some .colons) none with hidesAbove := true }), ("orgtbl", plain none (bars "+") none),
   ("jira", { header := barred "||", row := barred "|" }), ("pretty", plain dashes dashes dashes), ("psql", plain dashes (bars "+") dashes),
   ("presto", { belowHeader? := some (.line "" "-" "+" ""), header := .cells "" "|" "", row := .cells "" "|" "" }), ("rst", gapped "="),
   ("mediawiki",
    { above? := some (.line "\x7b| class=\"wikitable\" style=\"text-align: left;\"" "" ""
        "\n|+ <!-- caption -->\n|-")
      belowHeader? := some (.line "|-" "" "" ""), between? := some (.line "|-" "" "" "")
      below? := some (.line "|\x7d" "" "" ""), header := .wiki "!", row := .wiki "|", padding := 0
      tall := false }),
   ("moinmoin", { header := .barred "\x27\x27\x27", row := .barred "", tall := false }),
   ("youtrack", { header := .cells "|| " " || " " || ", row := .cells "| " " | " " |", tall := false }),
   ("html", page true), ("unsafehtml", page false), ("latex", typeset "tabular" "\\hline" "\\hline" "\\hline" true),
   ("latex_raw", typeset "tabular" "\\hline" "\\hline" "\\hline" false),
   ("latex_booktabs", typeset "tabular" "\\toprule" "\\midrule" "\\bottomrule" true),
   ("latex_longtable", typeset "longtable" "\\hline" "\\hline\n\\endhead" "\\hline" true),
   ("tsv", { header := .cells "" "\t" "", row := .cells "" "\t" "", padding := 0, tall := false }),
   ("textile", { header := .cells "|_. " "|_." "|", row := .signed, tall := false }),
   ("asciidoc", { above? := some .columnLine, below? := some (.line "|====" "" "" "")
                  header := .document true, row := .document false, hidesAbove := true, tall := false })]

def ofName (name : String) : Style := ((named.find? (·.1 == name)).map (·.2)).getD simple

def isTall (name : String) : Bool := (named.find? (·.1 == name)).any (·.2.tall)

end Style

def simpleRow (front between behind : String) (cells : List Chars) : Chars :=
  stripRight (front.toList ++ join between.toList cells ++ behind.toList)

def colonSegment (a? : Option Align) (n : Nat) : Chars :=
  match a? with
  | some .right | some .decimal => List.replicate (n - 1) '-' ++ [':']
  | some .center => ':' :: List.replicate (n - 2) '-' ++ [':']
  | some .left => ':' :: List.replicate (n - 1) '-'
  | _ => List.replicate n '-'

def columnLetter : Align → Char
  | .right | .decimal => 'r'
  | .center => 'c'
  | _ => 'l'

def columnSign : Align → Result Char
  | .left => .ok '<'
  | .right | .decimal => .ok '>'
  | .center => .ok '^'
  | .none v | .other v => .error ⟨.key, v.quoted⟩

def columnSpec (header : Bool) (widths : List Nat) (aligns : List Align) : Result Chars := do
  let columns := (widths.zip (← aligns.mapM columnSign)).map fun (w, c) => Number.natText w ++ [c]
  let options : String := if header then ",options=\"header\"" else ""
  pure ("[cols=\"".toList ++ join [','] columns ++ "\"".toList ++ options.toList ++ "]\n|====".toList)

def Ruling.draw (widths : List Nat) (aligns : List Align) : Ruling → Result Chars
  | .line front fill between behind => .ok (simpleRow front between behind (widths.map fun w => (S.repeated w fill).toList))
  | .colons =>
    let as : List (Option Align) := if aligns.isEmpty then widths.map fun _ => Option.none else aligns.map some
    .ok ('|' :: join ['|'] ((as.zip widths).map fun (a, w) => colonSegment a w) ++ ['|'])
  | .pageOpening => .ok "<table>\n<tbody>".toList
  | .typesetOpening name rule =>
    .ok ("\\begin\x7b".toList ++ name.toList ++ "\x7d\x7b".toList ++ aligns.map columnLetter ++
      "\x7d\n".toList ++ rule.toList)
  | .columnLine => columnSpec false widths aligns

def typesetChar : Char → Chars
  | '&' => "\\&".toList
  | '%' => "\\%".toList
  | '$' => "\\$".toList
  | '#' => "\\#".toList
  | '_' => "\\_".toList
  | '^' => "\\^\x7b\x7d".toList
  | '\x7b' => "\\\x7b".toList
  | '\x7d' => "\\\x7d".toList
  | '~' => "\\textasciitilde\x7b\x7d".toList
  | '\\' => "\\textbackslash\x7b\x7d".toList
  | '<' => "\\ensuremath\x7b<\x7d".toList
  | '>' => "\\ensuremath\x7b>\x7d".toList
  | c => [c]

def wikiAlign (a : Align) : String :=
  if a.isRight then "align=\"right\"| " else if a.isCenter then "align=\"center\"| " else ""

def alignSign : Align → String
  | .left => "<."
  | .right | .decimal => ">."
  | .center => "=."
  | _ => ""

def styleAttribute (open_ close : String) (a : Align) : String :=
  if a.isRight then s!"{open_}style=\"text-align: right;\"{close}"
  else if a.isCenter then s!"{open_}style=\"text-align: center;\"{close}"
  else ""

def widenFirst : List Chars → List Chars
  | c :: cs => (c ++ [' ']) :: cs
  | [] => []

def RowStyle.draw (widths : List Nat) (aligns : List Align) (cells : List Chars) : RowStyle → Result Chars
  | .cells front between behind => .ok (simpleRow front between behind cells)
  | .wiki mark =>
    .ok (stripRight (mark.toList ++ join (mark.toList ++ mark.toList) ((cells.zip aligns).map fun (c, a) =>
      ' ' :: (wikiAlign a).toList ++ c ++ [' '])))
  | .signed => .ok ('|' :: join ['|'] ((aligns.zip (widenFirst cells)).map fun (a, c) => (alignSign a).toList ++ c) ++ ['|'])
  | .page tag escaped =>
    let cell (c : Chars) (a : Align) : Chars :=
      let text := if escaped then Html.escape (String.ofList c) else String.ofList c
      ("<" ++ tag ++ styleAttribute " " "" a ++ s!">{text}</{tag}>").toList
    let row := "<tr>".toList ++ stripRight ((cells.zip aligns).flatMap fun (c, a) => cell c a) ++ "</tr>".toList
    .ok (if tag = "th" then "<table>\n<thead>\n".toList ++ row ++ "\n</thead>\n<tbody>".toList else row)
  | .barred mark =>
    .ok (((cells.zip aligns).flatMap fun (c, a) =>
      ("||" ++ styleAttribute "<" ">" a ++ s!" {mark}{String.ofList c}{mark} ").toList) ++
      ['|', '|'])
  | .typeset escaped => .ok (simpleRow "" "&" "\\\\" (if escaped then cells.map (·.flatMap typesetChar) else cells))
  | .document header => do
    let row := '|' :: join ['|'] cells
    if header then
      pure ((← columnSpec true widths aligns) ++ '\n' :: row)
    else pure row

structure Drawing where
  headers : List Chars
  rows : List (List Chars)
  widths : List Nat
  aligns : List Align

def padCells (n : Nat) (cells : List Chars) : List Chars := cells.map (List.replicate n ' ' ++ · ++ List.replicate n ' ')

def cellLines (count width : Nat) (cell : Chars) : List Chars :=
  let ls := textLines cell
  ls ++ List.replicate (count - ls.length) (List.replicate width ' ')

def rowLines (tall : Bool) (widths : List Nat) (cells : List Chars) : List (List Chars) :=
  if tall then
    let count := Measure.maximum (cells.map fun c => (textLines c).length)
    let columns := (cells.zip widths).map fun (c, w) => cellLines count w c
    (List.range count).map fun i => columns.map (·.getD i [])
  else [cells]

namespace Drawing

variable (d : Drawing) (style : Style) (tall : Bool)

def drawRow (row : RowStyle) (cells : List Chars) : Result (List Chars) :=
  (rowLines tall d.widths cells).mapM fun line =>
    row.draw (if tall then d.widths else d.widths.map (· + 2 * style.padding)) d.aligns
      (padCells style.padding line)

def drawRuling (ruling? : Option Ruling) : Result (List Chars) :=
  match ruling? with
  | none => .ok []
  | some r => do pure [← r.draw (d.widths.map (· + 2 * style.padding)) d.aligns]

def drawRows : List (List Chars) → Result (List Chars)
  | [] => .ok []
  | [r] => d.drawRow style tall style.row r
  | r :: rs => do pure ((← d.drawRow style tall style.row r) ++ (← d.drawRuling style style.between?) ++ (← drawRows rs))

def lines : Result (List Chars) := do
  let hasHeader := !d.headers.isEmpty
  let above ← d.drawRuling style (if hasHeader && style.hidesAbove then none else style.above?)
  let header ← if hasHeader then d.drawRow style tall style.header d.headers else pure []
  let belowHeader ← d.drawRuling style (if hasHeader then style.belowHeader? else none)
  let rows ← d.drawRows style tall d.rows
  let below ← d.drawRuling style (if hasHeader && style.hidesBelow then none else style.below?)
  pure (above ++ header ++ belowHeader ++ rows ++ below)

end Drawing

end Sluice.Table
