import Sluice.Proofs.Workbook.Headings

/-!
# Tables that lie on their side

Reading a table by columns is reading the sheet turned over by rows. Only names for missing headings would differ.
-/

namespace Sluice.Workbook

open List Feed

variable {a : Area} {g : Grid} {s : Sheet}

/-! ## Sheets turned over -/

def Cell.transpose (c : Cell) : Cell := { c with row := c.col, col := c.row }

/-- A sheet with its cells and merged areas turned over. -/
def Sheet.transpose (s : Sheet) : Sheet :=
  { s with cells := s.cells.map Cell.transpose, merged := s.merged.map Area.transpose }

def Book.transpose (b : Book) : Book := ⟨b.sheets.map Sheet.transpose⟩

lemma Area.contains_transpose (a : Area) (row col) : a.transpose.contains row col = a.contains col row := by
  simp only [Area.contains, Area.transpose]
  grind

lemma Sheet.isCovered_transpose (s : Sheet) (row col) : s.transpose.isCovered row col = s.isCovered col row := by
  rw [Sheet.isCovered, Sheet.transpose, any_map]
  refine congrArg s.merged.any (funext fun a => ?_)
  simp only [Function.comp_apply, Area.contains_transpose]
  rw [Area.transpose, Bool.and_comm (a.left == row)]

lemma Sheet.views_transpose (s : Sheet) (computed touched) :
    (s.transpose.grid computed touched).views = (s.grid computed touched).views.map (Prod.map Prod.swap id) := by
  have hc : s.transpose.cells.filter (fun c => !s.transpose.isCovered c.row c.col) =
      (s.cells.filter fun c => !s.isCovered c.row c.col).map Cell.transpose := by
    rw [Sheet.transpose, filter_map]
    refine congrArg (List.map Cell.transpose) (filter_congr fun c _ => ?_)
    exact congrArg Bool.not (s.isCovered_transpose c.col c.row)
  simp only [Sheet.grid, hc, map_map]
  rfl

open Grid

lemma Sheet.value_transpose (s : Sheet) (computed touched row col) :
    (s.transpose.grid computed touched).value row col = (s.grid computed touched).value col row := by
  have hp : ((fun v : (Nat × Nat) × View => v.1 == (row, col)) ∘ Prod.map Prod.swap id) = fun v => v.1 == (col, row) := by
    funext v
    exact Bool.and_comm ..
  rw [value, view, views_transpose, find?_map, hp, Option.map_map]
  rfl

/-- **Merged areas are turned over** with what their cells show. -/
lemma Sheet.merge_transpose (s : Sheet) (computed touched rule row col) :
    (s.transpose.grid computed touched).merge rule row col = (s.grid computed touched).merge rule col row := by
  have hf : (s.transpose.grid computed touched).merged.find? (·.contains row col) =
      ((s.grid computed touched).merged.find? (·.contains col row)).map Area.transpose := by
    rw [Sheet.grid, Sheet.transpose, find?_map]
    exact congrArg (fun p => (s.merged.find? p).map Area.transpose) (funext fun a => a.contains_transpose row col)
  rw [Grid.merge, Grid.merge, hf]
  cases (s.grid computed touched).merged.find? (·.contains col row) with
  | none => exact s.value_transpose computed touched row col
  | some a =>
    cases rule with
    | origin => simp only [Option.map_some, s.value_transpose, Area.transpose, and_comm]
    | fill => exact s.value_transpose computed touched a.left a.top
    | stored => exact s.value_transpose computed touched row col

lemma Book.choose_transpose {b : Book} {choice} (h : b.choose choice = .ok s) :
    b.transpose.choose choice = .ok s.transpose := by
  rw [Book.choose] at h ⊢
  cases hn : choiceNumber? choice with
  | some n =>
    simp only [hn] at h ⊢
    split at h
    · rename_i t ht
      obtain rfl := Except.ok.inj h
      have hf : (if n < 0 then none else b.transpose.sheets[n.toNat]?) = some t.transpose := by
        split at ht
        · cases ht
        · rename_i hne
          rw [if_neg hne, Book.transpose, getElem?_map, ht]
          rfl
      rw [hf]
    · cases h
  | none =>
    simp only [hn] at h ⊢
    split at h
    · rename_i t ht
      obtain rfl := Except.ok.inj h
      obtain ⟨_, hna, ht⟩ := Option.bind_eq_some_iff.mp ht
      have hf : choice.str?.bind b.transpose.sheet? = some t.transpose := by
        rw [hna, Option.bind_some, Book.sheet?, Book.transpose, find?_map]
        exact congrArg (Option.map Sheet.transpose) ht
      rw [hf]
    · cases h

/-! ## Readers that succeed -/

lemma mem_interval {a b n} : n ∈ interval a b ↔ a ≤ n ∧ n ≤ b := by
  rw [interval, mem_map]
  constructor
  · rintro ⟨i, hi, rfl⟩
    have := mem_range.mp hi
    omega
  · intro h
    exact ⟨(n - a).toNat, mem_range.mpr (by omega), by omega⟩

/-- What is left of an interval without its first number. -/
lemma flatMap_interval_tail {β : Type} (a b) (f : Int → List β) :
    ((interval a b).flatMap fun n => if n = a then [] else f n) = (interval (a + 1) b).flatMap f := by
  by_cases hab : a ≤ b
  · have hc : interval a b = a :: interval (a + 1) b := by
      have hl : (b + 1 - a).toNat = (b + 1 - (a + 1)).toNat + 1 := by omega
      rw [interval, hl, range_succ_eq_map, map_cons, map_map]
      refine congrArg₂ List.cons (by omega) (map_congr_left fun i _ => ?_)
      simp only [Function.comp_apply]
      omega
    rw [hc, flatMap_cons, if_pos rfl]
    refine flatMap_congr fun n hn => if_neg ?_
    have := (mem_interval.mp hn).1
    omega
  · have hni : interval a b = [] ∧ interval (a + 1) b = [] := by
      constructor <;> simp only [interval, map_eq_nil_iff, range_eq_nil] <;> omega
    rw [hni.1, hni.2]
    rfl

lemma Grid.cellValue_of_pos {rule row col} (hr : 1 ≤ row) (hc : 1 ≤ col) :
    g.cellValue rule row col = .ok (g.shown rule row col) := by
  rw [cellValue, checkPlace, if_neg (by omega)]
  rfl

variable {f : Frame} {opts : TableOptions}

lemma uprightRecords_eq (hro : 1 ≤ f.minRow) (hco : 1 ≤ f.minCol)
    (ht : opts.headerRow = 1) : uprightRecords g f opts = .ofList ((interval (f.minRow + 1) f.maxRow).flatMap fun row =>
      lineRecord opts (f.cols.map fun col => headingOr ("Column_" ++ Number.intText (col - f.minCol + 1))
        (g.shown opts.rule f.minRow col)) (f.cols.map (g.shown opts.rule row ·))) := by
  have hr : f.minRow + opts.headerRow - 1 = f.minRow := by omega
  have hc {col : Int} (h : col ∈ f.cols) : 1 ≤ col := Int.le_trans hco (mem_interval.mp h).1
  rw [uprightRecords, hr, mapM_eq_ok fun col h => by rw [cellValue_of_pos hro (hc h)]; rfl]
  refine flatMap_eq_ofList fun row h => ?_
  have hp : 1 ≤ row := by
    have := (mem_interval.mp h).1
    omega
  rw [mapM_eq_ok fun col h => cellValue_of_pos hp (hc h), bindResult_ok]

lemma sidewaysRecords_eq (opts) (hro : 1 ≤ f.minRow) (hc : 1 ≤ f.minCol) :
    sidewaysRecords g f opts f.minCol = .ofList ((interval (f.minCol + 1) f.maxCol).flatMap fun col =>
      lineRecord opts (f.rows.map fun row => headingOr ("Row_" ++ Number.intText row) (g.shown opts.rule row f.minCol))
        (f.rows.map (g.shown opts.rule · col))) := by
  have hr {row : Int} (h : row ∈ f.rows) : 1 ≤ row := Int.le_trans hro (mem_interval.mp h).1
  rw [sidewaysRecords, mapM_eq_ok fun row h => by rw [cellValue_of_pos (hr h) hc]; rfl, ← flatMap_interval_tail]
  refine flatMap_eq_ofList fun col h => ?_
  have hp : 1 ≤ col := Int.le_trans hc (mem_interval.mp h).1
  split
  · rfl
  · rw [mapM_eq_ok fun row h => cellValue_of_pos (hr h) hp, bindResult_ok]

/-! ## Tables turned over -/

/-- Rows and columns are counted from 1. -/
structure Area.IsPlaced (a : Area) : Prop where
  top : 1 ≤ a.top
  left : 1 ≤ a.left
  bottom : 1 ≤ a.bottom
  right : 1 ≤ a.right

def Area.range (a : Area) (sheet? : Option String) : Range := ⟨sheet?, some a.top, some a.bottom, some a.left, some a.right⟩

/-- A text gives all sides of a rectangle in A1 notation. -/
def Names (text : String) (a : Area) : Prop := ∃ sheet?, Range.parse text = .ok (a.range sheet?)

def Area.frame (a : Area) : Frame := ⟨a.top, a.bottom, a.left, a.right⟩

/-- A setting that is not among those in front. -/
lemma setting_append (front) {key} (h : key ∉ front.keys) (config otherwise) :
    setting (front ++ config) key otherwise = setting config key otherwise := by
  rw [setting, Fields.get?_append, Fields.get?_eq_none_iff.mpr h]
  rfl

/-- A rectangle that is named is what the table reader works on. -/
lemma frame_of_names {text} (ha : a.IsPlaced) (h : Names text a) (config : Fields) :
    ∃ range?, givenRange (("range", text) :: config) = .ok range? ∧ ∀ g : Grid, g.frame range? = a.frame := by
  obtain ⟨sheet?, h⟩ := h
  have hne : text ≠ "" := by
    rintro rfl
    cases h
  refine ⟨some (a.range sheet?), ?_, fun g => ?_⟩
  · exact (if_neg hne).trans (by rw [h]; rfl)
  · have hs {n : Nat} (hn : 1 ≤ n) (otherwise : Int) : side (some (n : Int)) otherwise = n := if_neg (by omega)
    simp only [frame, Area.range, Option.getD_some, hs ha.top, hs ha.left, hs ha.bottom, hs ha.right, Area.frame]

/-- A heading that is there does not depend on the name of a column without one. -/
lemma headingOr_of_not_null {v} (h : isNull v = false) (x y) : headingOr x v = headingOr y v := by
  cases v with
  | null => cases h
  | _ => rfl

/-- Column by column on a sheet, row by row on the sheet turned over. -/
lemma sidewaysRecords_transpose {computed} (ha : a.IsPlaced) (ht : opts.headerRow = 1)
    (hfi : ∀ row, a.top ≤ row → row ≤ a.bottom → isNull ((s.grid computed false).merge opts.rule row a.left) = false) :
    ∃ records, sidewaysRecords (s.grid computed false) a.frame opts a.left = .ofList records ∧
      uprightRecords (s.transpose.grid computed false) a.transpose.frame { opts with headerCol? := none } = .ofList records := by
  have hs (row col : Int) :
      (s.transpose.grid computed false).shown opts.rule col row = (s.grid computed false).shown opts.rule row col :=
    congrArg isoValue (s.merge_transpose computed false opts.rule col.toNat row.toNat)
  have hf : 1 ≤ (a.top : Int) ∧ 1 ≤ (a.left : Int) := ⟨by exact_mod_cast ha.top, by exact_mod_cast ha.left⟩
  refine ⟨_, sidewaysRecords_eq (f := a.frame) opts hf.1 hf.2, ?_⟩
  refine (uprightRecords_eq (f := a.transpose.frame) hf.2 hf.1 ht).trans ?_
  refine congrArg ofList (flatMap_congr fun col _ => congrArg₂ (lineRecord opts) ?_ ?_)
  · refine map_congr_left fun row hr => ?_
    obtain ⟨hl, hh⟩ := mem_interval.mp hr
    simp only [Area.frame, Area.transpose] at hl hh
    refine (headingOr_of_not_null ?_ _ _).trans (congrArg _ (hs row a.left))
    refine (congrArg isNull (hs row a.left)).trans ?_
    rw [shown, isNull_isoValue]
    exact hfi row.toNat (by omega) (by omega)
  · exact map_congr_left fun row _ => hs row col

variable {book : Book} {config : Fields} {range : String}

/-- The table reader with a rectangle and a heading column. -/
lemma readTable_sideways (hs : book.choose (setting config "sheet" (.int 0)) = .ok s) (ha : a.IsPlaced) {letters}
    (hr : Names range a) (hl : columnNumber letters.toList = a.left) :
    readTable ([("range", .str range), ("header_col", .str letters)] ++ config) book =
      sidewaysRecords (s.givenGrid config) a.frame (givenOptions config 1 (some letters)) a.left := by
  have hsa (key : String) (h : key ∉ ["range", "header_col"]) (otherwise : Value) :=
    setting_append [("range", .str range), ("header_col", .str letters)] h config otherwise
  have ht : (Value.str letters).truthy := by
    have hne : letters ≠ "" := by
      rintro rfl
      have := ha.left
      have : columnNumber "".toList = 0 := rfl
      omega
    simpa [Value.truthy] using hne
  have hc : setting ([("range", .str range), ("header_col", .str letters)] ++ config) "header_col" .null = .str letters := rfl
  obtain ⟨range?, hg, hf⟩ := frame_of_names ha hr (("header_col", .str letters) :: config)
  have hre : readTable ([("range", .str range), ("header_col", .str letters)] ++ config) book =
      .bindResult (givenRange (("range", .str range) :: ("header_col", .str letters) :: config)) fun range? =>
        sidewaysRecords (s.givenGrid config) ((s.givenGrid config).frame range?) (givenOptions config 1 (some letters))
          (columnNumber letters.toList) := by
    simp only [readTable, hc, ht]
    rw [hsa "sheet" (by decide), hs]
    rfl
  rw [hre, hg, bindResult_ok, hf, hl]

lemma readTable_first (hs : book.choose (setting config "sheet" (.int 0)) = .ok s) (ha : a.IsPlaced) (hr : Names range a) :
    readTable ([("range", .str range), ("header_row", .int 1), ("header_col", .null)] ++ config) book =
      uprightRecords (s.givenGrid config) a.frame (givenOptions config 1 none) := by
  have hsa (key : String) (h : key ∉ ["range", "header_row", "header_col"]) (otherwise : Value) :=
    setting_append [("range", .str range), ("header_row", .int 1), ("header_col", .null)] h config otherwise
  obtain ⟨range?, hg, hf⟩ := frame_of_names ha hr (("header_row", .int 1) :: ("header_col", .null) :: config)
  rw [readTable_upright book rfl, hsa "sheet" (by decide), hs, bindResult_ok]
  refine (congrArg (bindResult · _) hg).trans ?_
  simp only [bindResult_ok, hf]
  rfl

/-- **A table on its side is the table of the sheet turned over.** A rectangle whose first column has no empty cell is read
with that column as headings, the sheet turned over with the first row of the rectangle turned over. All other settings are
the same. Both succeed, with the same records. -/
theorem readTable_transposed {book : Book} {config : Fields} {s : Sheet}
    (hs : book.choose (setting config "sheet" (.int 0)) = .ok s) {a : Area} (ha : a.IsPlaced) {range range' letters : String}
    (hrange : Names range a) (hrange' : Names range' a.transpose) (hletters : columnNumber letters.toList = a.left)
    (hfilled : ∀ row, a.top ≤ row → row ≤ a.bottom →
      isNull ((s.givenGrid config).merge (givenRule config) row a.left) = false) :
    ∃ records,
      readTable ([("range", .str range), ("header_col", .str letters)] ++ config) book = .ofList records ∧
      readTable ([("range", .str range'), ("header_row", .int 1), ("header_col", .null)] ++ config) book.transpose =
        .ofList records := by
  have ha' : a.transpose.IsPlaced := ⟨ha.left, ha.top, ha.right, ha.bottom⟩
  have hs' : book.transpose.choose (setting config "sheet" (.int 0)) = .ok s.transpose := Book.choose_transpose hs
  rw [readTable_sideways hs ha hrange hletters, readTable_first hs' ha' hrange']
  exact sidewaysRecords_transpose ha rfl hfilled

/-- A table on its side whose second row has a merged area, with an empty column behind it. -/
def spread : Sheet where
  name := "Parts"
  cells := [⟨2, 2, .text "name", "General", none⟩, ⟨2, 3, .text "bolt", "General", none⟩, ⟨2, 4, .text "nut", "General", none⟩,
    ⟨3, 2, .text "size", "General", none⟩, ⟨3, 3, .int 5, "General", none⟩]
  merged := [⟨3, 3, 3, 4⟩]

theorem readTable_transposed_spread : ∃ records, records.length = 2 ∧
      readTable [("range", .str "B2:E3"), ("header_col", .str "b"), ("merge_strategy", .str "fill")] ⟨[spread]⟩ =
        .ofList records ∧
      readTable [("range", .str "B2:C5"), ("header_row", .int 1), ("header_col", .null), ("merge_strategy", .str "fill")]
        ⟨[spread.transpose]⟩ = .ofList records := by
  have hs : Book.choose ⟨[spread]⟩ (setting [("merge_strategy", "fill")] "sheet" (.int 0)) = .ok spread := rfl
  have hrange : Names "B2:E3" ⟨2, 2, 3, 5⟩ := ⟨none, rfl⟩
  have hrange' : Names "B2:C5" ⟨2, 2, 5, 3⟩ := ⟨none, rfl⟩
  have hletters : columnNumber "b".toList = (2 : Nat) := rfl
  have hfilled : ∀ row, 2 ≤ row → row ≤ 3 →
      isNull ((spread.givenGrid [("merge_strategy", "fill")]).merge .fill row 2) = false := by
    intro row hlow hhigh
    obtain rfl | rfl : row = 2 ∨ row = 3 := by omega
    all_goals rfl
  obtain ⟨records, hsideways, hupright⟩ := readTable_transposed hs ⟨by decide, by decide, by decide, by decide⟩ hrange hrange'
    hletters hfilled
  exact ⟨records, congrArg (·.items.length) hsideways.symm, hsideways, hupright⟩

end Sluice.Workbook
