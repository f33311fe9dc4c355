import Sluice.Machine.Session
import Sluice.Workbook.Cells

/-! # Sample data for merging -/

namespace Sluice.Sample

open String

def databaseProgram (path : String) : String :=
  intercalate "\n" [
   "",
   "import duckdb",
   s!"conn = duckdb.connect('{path}')",
   "",
   "# Create treatments table (clinical trial data)",
   "conn.execute('''",
   "    CREATE OR REPLACE TABLE treatments (",
   "        patient_id VARCHAR,",
   "        regimen VARCHAR,",
   "        os_months INTEGER,",
   "        response VARCHAR",
   "    )",
   "''')",
   "",
   "# Insert sample data (simulated clinical data)",
   "conn.execute('''",
   "    INSERT INTO treatments VALUES",
   "    ('P001', 'FOLFOX', 24, 'CR'),",
   "    ('P002', 'FOLFIRI', 18, 'PR'),",
   "    ('P003', 'FOLFOX', 36, 'CR'),",
   "    ('P004', 'FOLFIRI', 12, 'SD'),",
   "    ('P005', 'FOLFOX', 15, 'PR'),",
   "    ('P006', 'FOLFIRI', 30, 'CR'),",
   "    ('P007', 'FOLFOX', 9, 'PD'),",
   "    ('P008', 'FOLFIRI', 22, 'PR'),",
   "    ('P009', 'FOLFOX', 28, 'CR'),",
   "    ('P010', 'FOLFIRI', 16, 'SD')",
   "''')",
   "",
   "conn.close()",
   s!"print(f'Created DuckDB database: {path}')",
   ""]

def treatmentQuery : String :=
  intercalate "\n" [
   "-- Treatment query with optional filters",
   "-- Parameters: regimen, min_survival",
   "",
   "SELECT",
   "    patient_id,",
   "    regimen,",
   "    os_months,",
   "    response",
   "FROM treatments",
   "WHERE",
   "    ($regimen IS NULL OR regimen = $regimen)",
   "    AND",
   "    ($min_survival IS NULL OR os_months >= $min_survival)",
   "ORDER BY os_months DESC;",
   ""]

def salesTable : String :=
  intercalate "\n" [
   "date,region,product,amount",
   "2024-01-15,East,Widget,500",
   "2024-01-16,West,Gadget,750",
   "2024-01-17,East,Widget,1200",
   "2024-01-18,West,Widget,300",
   "2024-01-19,East,Gadget,900",
   "2024-01-20,West,Gadget,1500",
   "2024-01-21,East,Widget,450",
   "2024-01-22,West,Widget,2000",
   ""]

def regionFilter : String :=
  intercalate "\n" [
   "# Filter sales by region",
   "# Parameters: region",
   "select(.region == $region)",
   ""]

def amountFilter : String :=
  intercalate "\n" [
   "# Filter sales above threshold",
   "# Parameters: threshold (numeric)",
   "select((.amount | tonumber) > $threshold)",
   ""]

def databaseNote : Value :=
  .map [("driver", "duckdb"), ("path", "../../../genie.duckdb"), ("description", "GENIE clinical data demo")]

def save (path : Path) (text : String) : Act Unit := Act.changeTree (·.saveText path text)

variable (dir : Path)

def makeDatabase : Act Unit := do
  let program := databaseProgram (dir.child "genie.duckdb").toString
  let argv := ["uv", "run", "--with", "duckdb", "python", "-c", program]
  let ended ← Act.runCommand argv .null
  if ended.code != 0 then
    Act.fail ⟨.other "CalledProcessError", "Command '" ++ Value.quoted (.list (argv.map .str)) ++
      s!"' returned non-zero exit status {Number.intText ended.code}."⟩

def makeProfile : Act Unit := do
  let place := ((dir.child "profiles").child "duckdb").child "genie"
  Act.changeTree fun t => t.makeAll place
  save (place.child "_meta.json") (← Act.ofResult (Json.write { indent? := some 2 } databaseNote))
  save (place.child "treatment.sql") treatmentQuery
  Act.print s!"Created DuckDB profile: {place.toString}"

def makeSales : Act Unit := do
  save (dir.child "sales.csv") salesTable
  Act.print ("Created sales CSV: " ++ (dir.child "sales.csv").toString)

def makeFilters : Act Unit := do
  let place := ((dir.child "profiles").child "zq").child "sales"
  Act.changeTree fun t => t.makeAll place
  save (place.child "by_region.zq") regionFilter
  save (place.child "above_threshold.zq") amountFilter
  Act.print s!"Created ZQ profiles: {place.toString}"

/-- **Makes all sample data in a directory.** -/
def makeAll : Act Unit := do
  makeDatabase dir
  makeProfile dir
  makeSales dir
  makeFilters dir

def mergeCommand : Act Unit := do
  Act.print "Setting up adapter-merge demo data..."
  Act.print ""
  makeAll dir
  Act.print ""
  Act.print "Setup complete! Run ./run_examples.sh to see the demo."

open Workbook (Cell Sheet Book)

variable (row col : Nat)

def textCell (text : String) : Cell := { row, col, content := .text text }

def numberCell (n : Int) : Cell := { row, col, content := .int n }

def formulaCell (source : String) : Cell := { row, col, content := .formula source none }

def textRow (row : Nat) (texts : List String) : List Cell := texts.mapIdx fun i s => textCell row (i + 1) s

def budgetRows : List (String × String × String × Int) :=
  [("January", "Engineering", "Software Licenses", 1200), ("January", "Marketing", "Ad Campaign", 3500),
   ("January", "Operations", "Office Rent", 4000),
   ("January", "HR", "Recruiting", 800),
   ("February", "Engineering", "Cloud Services", 2200),
   ("February", "Marketing", "Content Creation", 1500),
   ("February", "Operations", "Utilities", 450),
   ("February", "Sales", "CRM Software", 600),
   ("March", "Engineering", "Development Tools", 950),
   ("March", "Marketing", "Social Media Ads", 2800),
   ("March", "Operations", "Office Supplies", 320),
   ("March", "HR", "Training Programs", 1200)]

def budget : Book :=
  let row (i : Nat) (r : String × String × String × Int) : List Cell :=
    textRow (i + 2) [r.1, r.2.1, r.2.2.1] ++ [numberCell (i + 2) 4 r.2.2.2]
  ⟨[{ name := "Budget 2024"
      cells := textRow 1 ["Month", "Category", "Description", "Amount"] ++ (budgetRows.mapIdx row).flatten }]⟩

def regionRows : List (String × Int × Int) :=
  [("North", 150000, 140000), ("South", 120000, 130000), ("East", 180000, 175000), ("West", 95000, 100000)]

def summarySheet : Sheet :=
  let region (i : Nat) (r : String × Int × Int) : List Cell :=
    let n := Number.intText (i + 5)
    let total := numberCell (i + 5) 2 r.2.1
    [textCell (i + 5) 1 r.1, if i = 0 then { total with comment? := some "Exceeded expectations!" } else total,
     numberCell (i + 5) 3 r.2.2, formulaCell (i + 5) 4 s!"=B{n}-C{n}"]
  { name := "Summary"
    cells := [textCell 1 1 "Q4 2024 Sales Report", textCell 2 1 "Generated: 2024-12-22"] ++
      textRow 4 ["Region", "Q4 Total", "Target", "Variance"] ++ (regionRows.mapIdx region).flatten ++
      [textCell 9 1 "Total", formulaCell 9 2 "=SUM(B5:B8)", formulaCell 9 3 "=SUM(C5:C8)", formulaCell 9 4 "=SUM(D5:D8)"]
    merged := [⟨1, 1, 1, 4⟩] }

def monthRows : List (String × List Int) :=
  [("October", [48000, 38000, 58000, 30000]), ("November", [52000, 42000, 62000, 32000]),
   ("December", [50000, 40000, 60000, 33000])]

def monthSheet : Sheet :=
  let month (i : Nat) (r : String × List Int) : List Cell :=
    textCell (i + 2) 1 r.1 :: r.2.mapIdx fun j n => { numberCell (i + 2) (j + 2) n with format := "$#,##0" }
  { name := "Monthly"
    cells := textRow 1 ["Month", "North", "South", "East", "West"] ++ (monthRows.mapIdx month).flatten }

def noteSheet : Sheet :=
  { name := "Notes"
    cells := [textCell 1 1 "Important Notes", textCell 3 2 "Review Q1 targets",
      { row := 5, col := 3, content := .int 45641, format := "yyyy-mm-dd" },
      textCell 8 1 "Contact: sales@example.com"]
    hiddenRows := [3] }

def report : Book := ⟨[summarySheet, monthSheet, noteSheet]⟩

def workbooksCommand : Act Unit := do
  Act.changeTree (·.saveAs (.ofString "budget.xlsx") "budget.xlsx" (.workbook budget))
  Act.print "✓ Created budget.xlsx (simple table)"
  Act.changeTree (·.saveAs (.ofString "report.xlsx") "report.xlsx" (.workbook report))
  Act.print "✓ Created report.xlsx (multi-sheet with merged cells, formulas, comments)"
  Act.print "\nFiles ready for demo:"
  Act.print "  budget.xlsx - Simple table (simple mode)"
  Act.print "  report.xlsx - Complex workbook (stats, raw, table modes)"

end Sluice.Sample
