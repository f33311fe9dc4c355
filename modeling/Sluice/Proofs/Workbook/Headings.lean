import Sluice.Proofs.Workbook.Agreement

/-!
# Cells under headings

Of cells under equal headings only the last one stays. A number can look like a text, a column without heading gets a
name that another may have, and a merged heading belongs to several columns.
-/

namespace Sluice.Workbook

open List Fields Feed

variable {config : Fields} {record : Value}

/-- Each cell that holds something is a value of the record, and each column has an entry. -/
def KeepsCells (cells : Fields) (record : Value) : Prop :=
  ∃ fields, record = .map fields ∧ fields.length = cells.length ∧ ∀ c ∈ cells, isNull c.2 = false → c.2 ∈ fields.map (·.2)

lemma keepsCells_ofPairs_iff (cells) : KeepsCells cells (.map (ofPairs cells)) ↔ cells.Distinct := by
  constructor
  · rintro ⟨_, hf, hl, -⟩
    obtain rfl := Value.map.inj hf
    refine nodup_of_length_eraseDups ?_
    rw [← keys_ofPairs, Fields.keys, Fields.keys, length_map, length_map, hl]
  · intro h
    rw [ofPairs_of_distinct h]
    exact ⟨cells, rfl, rfl, fun c hc _ => mem_map_of_mem hc⟩

lemma recordOf_map {α : Type} (l : List α) (name value) :
    recordOf (l.map name) (l.map value) = .map (ofPairs (l.map fun a => (name a, value a))) := by rw [recordOf, zip_map']

/-- The cells of a row under the headings in row `k`, both counted from 0. -/
def Grid.simpleCells (g : Grid) (k r : Nat) : Fields :=
  (List.range g.width).map fun c => (columnHeading c (g.value (k + 1) (c + 1)), isoValue (g.value (r + 1) (c + 1)))

/-- A row below the headings, as the simple reader is told to read a workbook. -/
inductive SimpleRow (config : Fields) (book : Book) : Fields → Prop
  | intro {s : Sheet} {skip : Int} {r : Nat} (hs : book.choose (setting config "sheet" (.int 0)) = .ok s)
      (hskip : wholeSetting (setting config "skip_rows" (.int 0)) = .ok skip) (hbelow : skip.toNat < r)
      (hrow : r < (s.grid true true).height) : SimpleRow config book ((s.grid true true).simpleCells skip.toNat r)

lemma exists_simpleRow {book} (h : record ∈ (readSimple config book).items) :
    ∃ cells, SimpleRow config book cells ∧ record = .map (ofPairs cells) := by
  obtain ⟨s, hs, h⟩ := mem_bindResult h
  obtain ⟨skip, hsk, h⟩ := mem_bindResult h
  rw [simpleRecords_eq Sheet.height_of_not_inUse] at h
  obtain ⟨row, hr, rfl⟩ := mem_map.mp h
  have hd := (mem_filter.mp hr).1
  rw [Grid.drop_rows_eq] at hd
  obtain ⟨i, hi, rfl⟩ := mem_map.mp hd
  refine ⟨_, .intro (r := skip.toNat + 1 + i) hs hsk (by omega) (by have := mem_range.mp hi; omega), ?_⟩
  rw [headings, Grid.row, Grid.row, mapIdx_map_range, map_map, recordOf_map]
  rfl

/-! ## The table reader -/

/-- What the table reader sees in a cell. -/
def Grid.shown (g : Grid) (rule : MergeRule) (row col : Int) : Value := isoValue (g.merge rule row.toNat col.toNat)

/-- The cells of a row of a frame under the headings in its row `k`. -/
def Grid.tableCells (g : Grid) (rule : MergeRule) (f : Frame) (k row : Int) : Fields :=
  f.cols.map fun col => (headingOr ("Column_" ++ Number.intText (col - f.minCol + 1)) (g.shown rule (f.minRow + k - 1) col),
    g.shown rule row col)

def givenRange (config : Fields) : Result (Option Range) := do
  let range ← rangeSetting (setting config "range" .null)
  if range = "" then .ok none else (Range.parse range).map some

def givenRule (config : Fields) : MergeRule := .ofName ((setting config "merge_strategy" (.str "origin")).str?.getD "")

def givenOptions (config : Fields) (row : Int) (col? : Option String) : TableOptions where
  headerRow := row
  headerCol? := col?
  rule := givenRule config
  skipEmpty := (setting config "skip_empty" (.bool true)).truthy

/-- The grid that the table reader is told to work on. -/
def Sheet.givenGrid (s : Sheet) (config : Fields) : Grid :=
  s.grid ((setting config "formulas" (.str "computed")).str? != some "text") false

/-- A row below the headings, as the table reader is told to read a workbook. -/
inductive TableRow (config : Fields) (book : Book) : Fields → Prop
  | intro {s : Sheet} {range? : Option Range} {k row : Int} (hs : book.choose (setting config "sheet" (.int 0)) = .ok s)
      (hrange : givenRange config = .ok range?) (hk : wholeSetting (setting config "header_row" (.int 1)) = .ok k)
      (hrow : row ∈ interval (((s.givenGrid config).frame range?).minRow + k) ((s.givenGrid config).frame range?).maxRow) :
      TableRow config book ((s.givenGrid config).tableCells (givenRule config) ((s.givenGrid config).frame range?) k row)

lemma Grid.eq_shown_of_cellValue {g : Grid} {rule row col v}
    (h : g.cellValue rule row col = .ok v) : v = g.shown rule row col := by
  obtain ⟨_, -, h⟩ := bind_eq_ok.mp h
  exact (Except.ok.inj h).symm

lemma mem_uprightRecords {g f opts} (h : record ∈ (uprightRecords g f opts).items) :
    ∃ row ∈ interval (f.minRow + opts.headerRow) f.maxRow,
      record = .map (ofPairs (g.tableCells opts.rule f opts.headerRow row)) := by
  obtain ⟨_, hn, h⟩ := mem_bindResult h
  obtain ⟨row, hr, h⟩ := mem_flatMap h
  obtain ⟨_, hva, h⟩ := mem_bindResult h
  have hn := eq_map_of_mapM (fun col name hna => by
    obtain ⟨v, hv, hna⟩ := bind_eq_ok.mp hna
    exact Grid.eq_shown_of_cellValue hv ▸ (Except.ok.inj hna).symm) hn
  have hva := eq_map_of_mapM (fun col v hv => Grid.eq_shown_of_cellValue hv) hva
  have ht : f.minRow + opts.headerRow - 1 + 1 = f.minRow + opts.headerRow := by omega
  refine ⟨row, ht ▸ hr, ?_⟩
  rw [lineRecord] at h
  split at h
  · cases h
  · rw [mem_singleton.mp h, hn, hva, recordOf_map]
    rfl

lemma readTable_upright (book) (hc : (setting config "header_col" .null).truthy = false) : readTable config book =
      .bindResult (book.choose (setting config "sheet" (.int 0))) fun s => .bindResult (givenRange config) fun range? =>
          .bindResult (wholeSetting (setting config "header_row" (.int 1))) fun k =>
            uprightRecords (s.givenGrid config) ((s.givenGrid config).frame range?) (givenOptions config k none) := by
  simp only [readTable, hc, givenRange, bindResult_bind]
  rfl

lemma exists_tableRow {book}
    (hc : (setting config "header_col" .null).truthy = false) (h : record ∈ (readTable config book).items) :
    ∃ cells, TableRow config book cells ∧ record = .map (ofPairs cells) := by
  rw [readTable_upright book hc] at h
  obtain ⟨s, hs, h⟩ := mem_bindResult h
  obtain ⟨_?, hra, h⟩ := mem_bindResult h
  obtain ⟨k, hk, h⟩ := mem_bindResult h
  obtain ⟨_, hro, hr⟩ := mem_uprightRecords h
  exact ⟨_, .intro hs hra hk hro, hr⟩

/-! ## Lost cells -/

/-- **When no cell is lost.** Each record of either reader is made of the cells of a row under the headings of their
columns, and it keeps them all exactly if no two headings are the same. -/
theorem cells_kept_iff (book : Book) (config : Fields) :
    (∀ record ∈ (readSimple config book).items, ∃ cells, SimpleRow config book cells ∧
      record = .map (Fields.ofPairs cells) ∧ (KeepsCells cells record ↔ cells.Distinct)) ∧
    ((setting config "header_col" .null).truthy = false →
      ∀ record ∈ (readTable config book).items, ∃ cells, TableRow config book cells ∧
        record = .map (Fields.ofPairs cells) ∧ (KeepsCells cells record ↔ cells.Distinct)) := by
  refine ⟨fun record h => ?_, fun hcol record h => ?_⟩
  · obtain ⟨cells, hcells, rfl⟩ := exists_simpleRow h
    exact ⟨cells, hcells, rfl, keepsCells_ofPairs_iff cells⟩
  · obtain ⟨cells, hcells, rfl⟩ := exists_tableRow hcol h
    exact ⟨cells, hcells, rfl, keepsCells_ofPairs_iff cells⟩

/-- Two headings over 1 and 2. -/
def pairSheet (first second : Content) (merged : List Area) : Sheet where
  name := "Pair"
  cells := [⟨1, 1, first, "General", none⟩, ⟨1, 2, second, "General", none⟩, ⟨2, 1, .int 1, "General", none⟩,
    ⟨2, 2, .int 2, "General", none⟩]
  merged := merged

theorem cells_kept_pair : (∃ cells, SimpleRow [] ⟨[pairSheet (.text "1") .blank []]⟩ cells ∧
      KeepsCells cells (.map [("1", .int 1), ("Column_2", .int 2)])) ∧
    ∃ cells, TableRow [] ⟨[pairSheet (.text "1") .blank []]⟩ cells ∧
      KeepsCells cells (.map [("1", .int 1), ("Column_2", .int 2)]) := by
  have hkept := cells_kept_iff ⟨[pairSheet (.text "1") .blank []]⟩ []
  constructor
  · obtain ⟨cells, hcells, -, hiff⟩ := hkept.1 (.map [("1", .int 1), ("Column_2", .int 2)]) (List.mem_of_getElem? (i := 0) rfl)
    refine ⟨cells, hcells, hiff.mpr ?_⟩
    obtain ⟨hs, hskip, hbelow, hrow⟩ := hcells
    obtain rfl := Except.ok.inj hs
    obtain rfl := Except.ok.inj hskip
    rename_i r
    obtain rfl : r = 1 := Nat.le_antisymm (Nat.le_of_lt_succ hrow) hbelow
    unfold Distinct
    decide
  · obtain ⟨cells, hcells, -, hiff⟩ := hkept.2 rfl (.map [("1", .int 1), ("Column_2", .int 2)])
      (List.mem_of_getElem? (i := 0) rfl)
    refine ⟨cells, hcells, hiff.mpr ?_⟩
    obtain ⟨hs, hrange, hk, hrow⟩ := hcells
    obtain rfl := Except.ok.inj hs
    obtain rfl := Except.ok.inj hrange
    obtain rfl := Except.ok.inj hk
    obtain rfl := List.mem_singleton.mp hrow
    unfold Distinct
    decide

/-- **Cells under equal headings are lost**: of two columns with one text, of a number and a text that looks like it, of a
column that is called like one without heading, and of two columns below one merged heading. -/
theorem cells_lost : (SimpleRow [] ⟨[pairSheet (.text "a") (.text "a") []]⟩ [("a", .int 1), ("a", .int 2)] ∧
      (readSimple [] ⟨[pairSheet (.text "a") (.text "a") []]⟩).items = [.map [("a", .int 2)]] ∧
      ¬ KeepsCells [("a", .int 1), ("a", .int 2)] (.map [("a", .int 2)])) ∧
    (readSimple [] ⟨[pairSheet (.int 1) (.text "1") []]⟩).items = [.map [("1", .int 2)]] ∧
    (readSimple [] ⟨[pairSheet (.text "Column_2") .blank []]⟩).items = [.map [("Column_2", .int 2)]] ∧
    (readTable [("merge_strategy", .str "fill")] ⟨[pairSheet (.text "q") .blank [⟨1, 1, 1, 2⟩]]⟩).items =
      [.map [("q", .int 2)]] := by
  have hskip : wholeSetting (setting [] "skip_rows" (.int 0)) = .ok 0 := rfl
  have hrow : SimpleRow [] ⟨[pairSheet (.text "a") (.text "a") []]⟩ [("a", .int 1), ("a", .int 2)] :=
    .intro (s := pairSheet (.text "a") (.text "a") []) (r := 1) rfl hskip (by decide) (by decide)
  refine ⟨⟨hrow, rfl, ?_⟩, rfl, rfl, rfl⟩
  rintro ⟨fields, hfields, hlength, -⟩
  obtain rfl := Value.map.inj hfields
  cases hlength

end Sluice.Workbook
