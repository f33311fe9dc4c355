import Sluice.Proofs.Table.GridRoundTrip
import Sluice.Proofs.Value.Distinct
import Sluice.Proofs.Workbook.Agreement

/-!
# Records that come back from a workbook

A workbook is written as a filled rectangle (`ofRecords_eq`), whose rows a reader sees (`Sheet.rows_grid_filled`), and a
cell shows its value (`value_stored`).
-/

namespace Sluice.Workbook

open List Fields Grid

open Table (fieldNames completed valuesAt)

variable {c : Cell} {keys : List String} {row : Nat} {v : Value}

/-! ## Filled rectangles -/

def cellsOfRow (row : Nat) (contents : List Content) : List Cell :=
  contents.mapIdx fun i content => { row, col := i + 1, content }

def cellsOfRows : (row : Nat) → List (List Content) → List Cell
  | _, [] => []
  | row, contents :: rest => cellsOfRow row contents ++ cellsOfRows (row + 1) rest

lemma mem_cellsOfRow {contents} :
    c ∈ cellsOfRow row contents ↔ ∃ i, ∃ h : i < contents.length, c = ⟨row, i + 1, contents[i], "General", none⟩ := by
  simp only [cellsOfRow, mem_mapIdx]
  constructor
  · rintro ⟨i, h, rfl⟩
    exact ⟨i, h, rfl⟩
  · rintro ⟨i, h, rfl⟩
    exact ⟨i, h, rfl⟩

lemma mem_cellsOfRows {rows} : c ∈ cellsOfRows row rows ↔ ∃ r, ∃ h : r < rows.length, c ∈ cellsOfRow (row + r) rows[r] := by
  induction rows generalizing row with
  | nil => simp [cellsOfRows]
  | cons co rows ih =>
    rw [cellsOfRows, mem_append, ih]
    constructor
    · rintro (h | ⟨r, hr, h⟩)
      · exact ⟨0, by simp, h⟩
      · refine ⟨r + 1, by simpa using hr, ?_⟩
        have hro : row + 1 + r = row + (r + 1) := by omega
        rwa [hro] at h
    · rintro ⟨r, hr, h⟩
      cases r with
      | zero => exact .inl h
      | succ r =>
        refine .inr ⟨r, by simpa using hr, ?_⟩
        have hro : row + 1 + r = row + (r + 1) := by omega
        rwa [hro]

lemma cellsOfRows_eq_nil {rows} (h : ∀ contents ∈ rows, contents = []) : cellsOfRows row rows = [] := by
  induction rows generalizing row with
  | nil => rfl
  | cons contents rows ih =>
    obtain ⟨rfl, hr⟩ := forall_mem_cons.mp h
    exact ih hr

def Content.value (content : Content) : Value := (content.shown true "General").1

def Cell.view (c : Cell) : View where
  value := (c.content.shown true c.format).1
  kind := (c.content.shown true c.format).2
  format := c.format
  comment? := c.comment?

open Sheet

lemma Sheet.views_grid {s : Sheet} (hm : s.merged = []) (touched) :
    (s.grid true touched).views = s.cells.map fun c => ((c.row, c.col), c.view) := by
  have hc : s.cells.filter (fun c => !s.isCovered c.row c.col) = s.cells := by
    refine filter_eq_self.mpr fun d _ => ?_
    rw [isCovered, hm]
    rfl
  rw [grid]
  simp only [hc]
  rfl

lemma Sheet.value_grid {s : Sheet} (hm : s.merged = []) (hme : c ∈ s.cells)
    (hu : ∀ d ∈ s.cells, d.row = c.row → d.col = c.col → d = c) (hfo : c.format = "General")
    (touched) : (s.grid true touched).value c.row c.col = c.content.value := by
  rw [value, view, views_grid hm, find?_map]
  cases hf : s.cells.find? ((fun v => v.1 == (c.row, c.col)) ∘ fun c => ((c.row, c.col), c.view)) with
  | none =>
    have hn := List.find?_eq_none.mp hf c hme
    simp at hn
  | some d =>
    have hd := find?_some hf
    simp only [Function.comp_apply, beq_iff_eq, Prod.mk.injEq] at hd
    obtain rfl := hu d (mem_of_find?_eq_some hf) hd.1 hd.2
    simp only [Option.map_some, Cell.view, hfo]
    rfl

section Filled

variable {name : String} {rows : List (List Content)} {width : Nat}

/-- A sheet whose first rows have these contents, and nothing else. -/
def filled (name : String) (rows : List (List Content)) : Sheet where
  name := name
  cells := cellsOfRows 1 rows

lemma filled_unique {d} (hc : c ∈ (filled name rows).cells) (hd : d ∈ (filled name rows).cells)
    (hro : d.row = c.row) (hco : d.col = c.col) : d = c := by
  obtain ⟨r, hr, hc⟩ := mem_cellsOfRows.mp hc
  obtain ⟨i, hi, rfl⟩ := mem_cellsOfRow.mp hc
  obtain ⟨r', _, hd⟩ := mem_cellsOfRows.mp hd
  obtain ⟨i', _, rfl⟩ := mem_cellsOfRow.mp hd
  obtain rfl : r' = r := by
    simp only at hro
    omega
  obtain rfl : i' = i := by
    simp only at hco
    omega
  rfl

lemma value_grid_filled {r i} (hr) (hi : i < rows[r].length) (touched) :
    ((filled name rows).grid true touched).value (r + 1) (i + 1) = rows[r][i].value := by
  have hm : (⟨r + 1, i + 1, rows[r][i], "General", none⟩ : Cell) ∈ (filled name rows).cells := by
    refine mem_cellsOfRows.mpr ⟨r, hr, mem_cellsOfRow.mpr ⟨i, hi, ?_⟩⟩
    rw [Nat.add_comm 1 r]
  exact value_grid rfl hm (fun d hd hro hc => filled_unique hm hd hro hc) rfl touched

lemma size_grid_filled (hro : rows ≠ []) (hw : ∀ row ∈ rows, row.length = width) (hpo : 0 < width) :
    ((filled name rows).grid true true).inUse ∧ ((filled name rows).grid true true).height = rows.length ∧
      ((filled name rows).grid true true).width = width := by
  have hpl : (filled name rows).marks true = (filled name rows).cells.map fun c => (c.row, c.col) := by simp [marks, filled]
  have hle : 0 < rows.length := length_pos_iff.mpr hro
  have hl : rows.length - 1 < rows.length := by omega
  have hla : rows[rows.length - 1].length = width := hw _ (getElem_mem hl)
  have hme : (rows.length, width) ∈ (filled name rows).marks true := by
    rw [hpl]
    refine mem_map.mpr ⟨⟨rows.length, width, rows[rows.length - 1][width - 1], "General", none⟩, ?_, rfl⟩
    refine mem_cellsOfRows.mpr ⟨rows.length - 1, hl, mem_cellsOfRow.mpr ⟨width - 1, by omega, ?_⟩⟩
    rw [Nat.add_sub_cancel' hle, Nat.sub_add_cancel hpo]
  have hb : ∀ p ∈ (filled name rows).marks true, p.1 ≤ rows.length ∧ p.2 ≤ width := by
    intro p hp
    rw [hpl] at hp
    obtain ⟨c, hc, rfl⟩ := mem_map.mp hp
    obtain ⟨r, hr, hc⟩ := mem_cellsOfRows.mp hc
    obtain ⟨i, hi, rfl⟩ := mem_cellsOfRow.mp hc
    have hi' := hw _ (getElem_mem hr)
    constructor
    · show 1 + r ≤ rows.length
      omega
    · show i + 1 ≤ width
      omega
  obtain ⟨a, hco⟩ : ∃ a, corners ((filled name rows).marks true) = some a := by
    cases hm : (filled name rows).marks true with
    | nil => simp [hm] at hme
    | cons => exact ⟨_, rfl⟩
  have hbox (f : Area → Nat) : f ((corners ((filled name rows).marks true)).getD ⟨1, 1, 1, 1⟩) = f a := by rw [hco]; rfl
  obtain ⟨hbo, hri⟩ := max?_of_corners hco
  refine ⟨?_, (hbox Area.bottom).trans (Option.some.inj (hbo.symm.trans (max?_eq_some_iff.mpr ⟨?_, ?_⟩))),
    (hbox Area.right).trans (Option.some.inj (hri.symm.trans (max?_eq_some_iff.mpr ⟨?_, ?_⟩)))⟩
  · simpa [grid] using ne_nil_of_mem hme
  · exact mem_map_of_mem (f := Prod.fst) hme
  · exact forall_mem_map.mpr fun p hp => (hb p hp).1
  · exact mem_map_of_mem (f := Prod.snd) hme
  · exact forall_mem_map.mpr fun p hp => (hb p hp).2

/-- **What a reader sees of a filled sheet are its rows.** -/
lemma Sheet.rows_grid_filled (hro : rows ≠ []) (hw : ∀ row ∈ rows, row.length = width) (hp : 0 < width) :
    ((filled name rows).grid true true).rows = rows.map (·.map Content.value) := by
  obtain ⟨-, hh, hwi⟩ := @size_grid_filled name rows width hro hw hp
  refine ext_getElem (by simp [rows_eq, hh]) fun r h1 h2 => ?_
  have hr : r < rows.length := by simpa using h2
  have hl : rows[r].length = width := hw _ (getElem_mem hr)
  refine ext_getElem (by simp [rows_eq, row, hwi, hl]) fun i h3 h4 => ?_
  have hi : i < rows[r].length := by simpa using h4
  simpa [rows_eq, row] using @value_grid_filled name rows r i hr hi true

end Filled

/-! ## Values that a cell keeps -/

/-- A cell keeps a text that is neither empty nor too long nor a formula, with characters that can stand in a cell. -/
def keepsText (s : String) : Bool :=
  s != "" && decide (s.length ≤ maxTextLength) && s.toList.head? != some '=' &&
    s.toList.all fun c => !isIllegal c && c != '\r'

def keepsValue : Value → Bool
  | .null => true
  | .bool _ => true
  | .int n => decide (n.natAbs < Number.tenTo 16)
  | .str s => keepsText s
  | _ => false

def keepsRecord (fs : Fields) : Bool := fs.all fun f => keepsText f.1 && keepsValue f.2

def stored : Value → Content
  | .bool b => .bool b
  | .int n => .int n
  | .str s => if errorCodes.contains s then .error s else .text s
  | _ => .unset

lemma keepsText_iff {s} : keepsText s ↔ s ≠ "" ∧ s.length ≤ maxTextLength ∧ s.toList.head? ≠ some '=' ∧
      ∀ c ∈ s.toList, isIllegal c = false ∧ c ≠ '\r' := by simp [keepsText, and_assoc]

lemma ofText_of_keeps {s} (h : keepsText s) : Content.ofText s = .ok (stored (.str s)) := by
  obtain ⟨hne, _, hh, hch⟩ := keepsText_iff.mp h
  have ht : s.toList.take maxTextLength = s.toList := take_of_length_le (by rwa [String.length_toList])
  have hl : s.toList.any isIllegal = false := any_eq_false.mpr fun c hc => by simp [(hch c hc).1]
  have hr : '\r' ∉ s.toList := fun hm => (hch _ hm).2 rfl
  have hs : storedText s.toList = s := by rw [storedText, Text.unifyLineEnds_eq_self hr, String.ofList_toList]
  rw [Content.ofText]
  simp only [ht, hl, Bool.false_eq_true, if_false, hs, String.ofList_toList]
  split
  · rename_i hn
    exact absurd (String.toList_eq_nil_iff.mp hn) hne
  · rename_i hco
    exact absurd (by rw [hco]; rfl) hh
  · rfl

lemma ofValue_of_keeps (h : keepsValue v) : Content.ofValue v = .ok (stored v) := by
  cases v with
  | null => rfl
  | bool b => rfl
  | int n =>
    rw [Content.ofValue, Content.ofInt, if_pos (of_decide_eq_true h)]
    rfl
  | str s => exact ofText_of_keeps h
  | _ => cases h

/-- **A cell shows the value that was put into it.** -/
lemma value_stored (h : keepsValue v) : (stored v).value = v := by
  cases v with
  | null => rfl
  | bool b => rfl
  | int n =>
    show (numberView "General" (.int n)).1 = .int n
    rfl
  | str s =>
    rw [stored]
    split <;> rfl
  | _ => cases h

lemma isoValue_of_keeps (h : keepsValue v) : isoValue v = v := by cases v <;> first | rfl | cases h

/-! ## The writer -/

lemma rowCells_of_keeps {values} (h : ∀ v ∈ values, keepsValue v) :
    rowCells row values = .ok (cellsOfRow row (values.map stored)) := by
  have hc : ∀ vi ∈ values.zip (List.range values.length),
      (do let content ← Content.ofValue vi.1
          pure { row, col := vi.2 + 1, content } : Result Cell) =
        .ok { row, col := vi.2 + 1, content := stored vi.1 } := by
    intro vi hvi
    rw [ofValue_of_keeps (h vi.1 (of_mem_zip hvi).1)]
    rfl
  rw [rowCells, mapM_eq_ok hc]
  refine congrArg Except.ok (ext_getElem (by simp [cellsOfRow]) fun i h1 h2 => ?_)
  simp [cellsOfRow]

section Records

variable {records : List Fields}

lemma addKeys_map_str (seen more : List String) :
    addKeys (seen.eraseDups.map .str) (more.map .str) = (seen ++ more).eraseDups.map .str := by
  induction more generalizing seen with
  | nil => simp [addKeys]
  | cons k more ih =>
    have ha : (seen.eraseDups.map Value.str).any (·.equal (.str k)) = decide (k ∈ seen) := by
      rw [any_map, Bool.eq_iff_iff, any_eq_true, decide_eq_true_iff]
      constructor
      · rintro ⟨j, hj, hjk⟩
        have hjk : j = k := by simpa [Value.equal] using hjk
        rw [← hjk]
        exact mem_eraseDups.mp hj
      · intro hk
        exact ⟨k, mem_eraseDups.mpr hk, by simp [Value.equal]⟩
    have hs : (if (seen.eraseDups.map Value.str).any (·.equal (.str k)) = true then seen.eraseDups.map Value.str
        else seen.eraseDups.map Value.str ++ [.str k]) = (seen ++ [k]).eraseDups.map .str := by
      rw [ha, eraseDups_concat]
      by_cases hk : k ∈ seen <;> simp [hk]
    have hr := ih (seen ++ [k])
    rw [addKeys] at hr
    rw [addKeys, map_cons, foldl_cons, hs, hr, List.append_assoc]
    rfl

lemma allKeys_of_maps : allKeys (records.map .map) = .ok ((fieldNames records).map .str) := by
  have hs : ∀ s : List String, (records.map Value.map).foldlM
      (fun ks r => (keysOf r).map (addKeys ks)) (s.eraseDups.map Value.str) =
      (.ok ((s ++ records.flatMap Fields.keys).eraseDups.map .str) : Result (List Value)) := by
    induction records with
    | nil => simp [pure, Except.pure]
    | cons fs records ih =>
      intro s
      have hk : (keysOf (.map fs)).map (addKeys (s.eraseDups.map .str)) =
          .ok ((s ++ keys fs).eraseDups.map .str) := by
        rw [← addKeys_map_str, Fields.keys, map_map]
        rfl
      rw [map_cons, foldlM_cons, hk]
      refine (ih (s ++ keys fs)).trans ?_
      rw [flatMap_cons, List.append_assoc]
  exact hs []

lemma keepsText_of_mem_fieldNames (hke : ∀ fs ∈ records, keepsRecord fs) {k}
    (hk : k ∈ fieldNames records) : keepsText k := by
  obtain ⟨fs, hfs, hk⟩ := List.mem_flatMap.mp (mem_eraseDups.mp hk)
  obtain ⟨f, hf, rfl⟩ := mem_map.mp hk
  exact (Bool.and_eq_true_iff.mp (all_eq_true.mp (hke fs hfs) f hf)).1

lemma keepsValue_of_mem_valuesAt {fs} (hk : keepsRecord fs) (hv : v ∈ valuesAt keys fs) : keepsValue v :=
  Table.holds_of_mem_valuesAt rfl hk hv

def sheetValues (records : List Fields) : List (List Value) :=
  (fieldNames records).map .str :: records.map (valuesAt (fieldNames records))

lemma keepsValue_of_mem_sheetValues (hke : ∀ fs ∈ records, keepsRecord fs) :
    ∀ row ∈ sheetValues records, ∀ v ∈ row, keepsValue v := by
  intro row hr v hv
  rcases mem_cons.mp hr with rfl | hr
  · obtain ⟨k, hk, rfl⟩ := mem_map.mp hv
    exact keepsText_of_mem_fieldNames hke hk
  · obtain ⟨fs, hfs, rfl⟩ := mem_map.mp hr
    exact keepsValue_of_mem_valuesAt (hke fs hfs) hv

lemma bodyCells_of_keeps (hk : ∀ fs ∈ records, keepsRecord fs) (row) : bodyCells (keys.map .str) row (records.map .map) =
      .ok (cellsOfRows row (records.map fun fs => (valuesAt keys fs).map stored)) := by
  induction records generalizing row with
  | nil => rfl
  | cons fs records ih =>
    obtain ⟨hfs, hr⟩ := forall_mem_cons.mp hk
    have hva : (keys.map Value.str).mapM (lookupKey (.map fs)) = .ok (valuesAt keys fs) := by
      rw [mapM_map]
      exact mapM_eq_ok fun k _ => rfl
    rw [map_cons, bodyCells, hva]
    show (rowCells row (valuesAt keys fs) >>= fun cells => _) = _
    rw [rowCells_of_keeps fun v hv => keepsValue_of_mem_valuesAt hfs hv]
    rw [ih hr]
    rfl

/-- **The workbook of records is the filled rectangle of their values.** -/
lemma ofRecords_eq (hk : ∀ fs ∈ records, keepsRecord fs) (hne : records ≠ []) :
    ofRecords (.str "Sheet1") (records.map .map) = .ok ⟨[filled "Sheet1" ((sheetValues records).map (·.map stored))]⟩ := by
  have he : (records.map Value.map).isEmpty = false := by simpa using hne
  have hh : rowCells 1 ((fieldNames records).map .str) = .ok (cellsOfRow 1
      (((fieldNames records).map .str).map stored)) :=
    rowCells_of_keeps (keepsValue_of_mem_sheetValues hk _ (.head _))
  show (if (records.map Value.map).isEmpty = true then _ else _) = _
  rw [he, allKeys_of_maps]
  show (rowCells 1 _ >>= fun header => bodyCells _ 2 _ >>= fun body => _) = _
  rw [hh, bodyCells_of_keeps hk]
  have hb : (records.map (valuesAt (fieldNames records))).map (·.map stored) =
      records.map fun fs => (valuesAt (fieldNames records) fs).map stored := map_map
  rw [sheetValues, map_cons, hb]
  rfl

/-! ## Reading back -/

def hasValue (fs : Fields) : Bool := fs.any (!isNull ·.2)

lemma all_isNull_valuesAt {fs} (hd : fs.Distinct)
    (hk : ∀ f ∈ fs, f.1 ∈ keys) : (valuesAt keys fs).all isNull = !hasValue fs := by
  rw [Bool.eq_iff_iff, all_eq_true, Bool.not_eq_true', hasValue, any_eq_false]
  constructor
  · rintro ha ⟨k, v⟩ hm
    have hg := get?_of_mem hd hm
    have hn := ha v (mem_map.mpr ⟨k, hk _ hm, by rw [hg]; rfl⟩)
    simp [hn]
  · rintro hno v hv
    obtain ⟨k, -, rfl⟩ := mem_map.mp hv
    cases hg : get? k fs with
    | none => rfl
    | some v => simpa using hno (k, v) (mem_of_get? hg)

lemma headings_of_str (keys) : headings (keys.map .str) = keys := by
  refine ext_getElem (by simp [headings]) fun i h1 h2 => ?_
  simp [headings, columnHeading, Value.text]

lemma recordOf_valuesAt (records fs) :
    recordOf (fieldNames records) (valuesAt (fieldNames records) fs) = .map (completed (fieldNames records) fs) := by
  have hd : Distinct (completed (fieldNames records) fs) := by
    rw [Distinct, completed, keys_table]
    exact nodup_eraseDups _
  rw [recordOf, Table.zip_valuesAt, ofPairs_of_distinct hd]

lemma rowRecords_sheetValues (hk : ∀ fs ∈ records, keepsRecord fs) (hd : ∀ fs ∈ records, fs.Distinct) :
    rowRecords (sheetValues records) = (records.filter hasValue).map fun fs => .map (completed (fieldNames records) fs) := by
  have he : ∀ fs ∈ records, (!(valuesAt (fieldNames records) fs).all isNull) = hasValue fs := by
    intro fs hfs
    have hke : ∀ f ∈ fs, f.1 ∈ fieldNames records := fun f hf =>
      mem_eraseDups.mpr (List.mem_flatMap.mpr ⟨fs, hfs, mem_map_of_mem hf⟩)
    rw [all_isNull_valuesAt (hd fs hfs) hke, Bool.not_not]
  have hfi : records.filter ((fun row => !row.all isNull) ∘ valuesAt (fieldNames records)) =
      records.filter hasValue := filter_congr he
  rw [sheetValues, rowRecords, filter_map, map_map, headings_of_str, hfi]
  refine map_congr_left fun fs hfs => ?_
  have hfs : fs ∈ records := (mem_filter.mp hfs).1
  have hva : (valuesAt (fieldNames records) fs).map isoValue = valuesAt (fieldNames records) fs :=
    (map_congr_left fun v hv => isoValue_of_keeps (keepsValue_of_mem_valuesAt (hk fs hfs) hv)).trans
      (map_id _)
  rw [Function.comp_apply, hva, recordOf_valuesAt]

lemma simpleRecords_no_names (hn : fieldNames records = []) :
    simpleRecords 0 ((filled "Sheet1" ((sheetValues records).map (·.map stored))).grid true true) = [] := by
  have hc : (filled "Sheet1" ((sheetValues records).map (·.map stored))).cells = [] := by
    rw [sheetValues, hn]
    exact cellsOfRows_eq_nil (by simp [valuesAt])
  have hu : ((filled "Sheet1" ((sheetValues records).map (·.map stored))).grid true true).inUse = false := by
    rw [grid, marks, hc]
    rfl
  rw [simpleRecords, hu]
  rfl

lemma simpleRecords_filled (hk : ∀ fs ∈ records, keepsRecord fs) (hd : ∀ fs ∈ records, fs.Distinct) :
    simpleRecords 0 ((filled "Sheet1" ((sheetValues records).map (·.map stored))).grid true true) =
      (records.filter hasValue).map fun fs => .map (completed (fieldNames records) fs) := by
  rcases Nat.eq_zero_or_pos (fieldNames records).length with hz | hp
  · have hn := eq_nil_of_length_eq_zero hz
    rw [simpleRecords_no_names hn, ← rowRecords_sheetValues hk hd, sheetValues, hn, rowRecords]
    have hno : (records.map (valuesAt [])).filter (!·.all isNull) = [] := by
      refine filter_eq_nil_iff.mpr fun row hro => ?_
      obtain ⟨fs, -, rfl⟩ := mem_map.mp hro
      simp [valuesAt]
    rw [hno]
    rfl
  · have hr : (sheetValues records).map (·.map stored) ≠ [] := by simp [sheetValues]
    have hw : ∀ row ∈ (sheetValues records).map (·.map stored), row.length = (fieldNames records).length := by
      intro row hro
      obtain ⟨_, hva, rfl⟩ := mem_map.mp hro
      rcases mem_cons.mp hva with rfl | hva
      · simp
      · obtain ⟨fs, -, rfl⟩ := mem_map.mp hva
        simp [valuesAt]
    obtain ⟨hu, -, -⟩ := @size_grid_filled "Sheet1" _ _ hr hw hp
    have hs : ((sheetValues records).map (·.map stored)).map (·.map Content.value) = sheetValues records := by
      rw [map_map]
      refine (map_congr_left fun row hro => ?_).trans (map_id _)
      rw [Function.comp_apply, map_map]
      exact (map_congr_left fun v hv => value_stored (keepsValue_of_mem_sheetValues hk row hro v hv)).trans (map_id _)
    rw [simpleRecords, hu, if_pos rfl, drop_zero, rows_grid_filled hr hw hp, hs,
      rowRecords_sheetValues hk hd]

end Records

lemma distinct_of_readLines {text} {records : List Fields}
    (h : Json.readLines text none = .ok (records.map .map)) : ∀ fs ∈ records, fs.Distinct := by
  have hl : ∀ lines : List String, lines.mapM Json.read = .ok (records.map .map) → ∀ fs ∈ records, fs.Distinct := by
    clear h
    induction records with
    | nil => intro _ _ fs hfs; cases hfs
    | cons fs records ih =>
      intro lines hl
      cases lines with
      | nil => cases hl
      | cons line lines =>
        obtain ⟨v, _, hv, hr, heq⟩ := mapM_cons_eq_ok.mp hl
        obtain ⟨rfl, rfl⟩ := List.cons.inj heq
        exact forall_mem_cons.mpr ⟨Json.distinct_of_read hv, ih lines hr⟩
  exact hl _ h

/-- **Records come back from a workbook.** The lines of a text hold records that a sheet keeps. Then they make a workbook,
and the simple reader gives back in their order the records that have a value other than null, each with all fields of the
workbook, in the order in which the names are first seen: null where it has none. -/
theorem readSimple_written (text : String) (records : List Fields) (hlines : Json.readLines text none = .ok (records.map .map))
    (hkeep : ∀ fs ∈ records, keepsRecord fs = true) :
    ∃ book, writeRecords [] text none = .ok book ∧ readSimple [] book =
        .ofList ((records.filter hasValue).map fun fs => .map (completed (fieldNames records) fs)) := by
  have hdistinct := distinct_of_readLines hlines
  have hwrite : writeRecords [] text none = ofRecords (.str "Sheet1") (records.map .map) := by
    rw [writeRecords, hlines]
    rfl
  rw [hwrite]
  cases records with
  | nil => exact ⟨_, rfl, rfl⟩
  | cons fs rest =>
    refine ⟨_, ofRecords_eq hkeep (List.cons_ne_nil fs rest), ?_⟩
    rw [← simpleRecords_filled hkeep hdistinct]
    rfl

/-- Records without a common field, a null that is all of its record, and an error code that is a text. -/
def ledger : List Fields := [[("id", .int (-7)), ("due", .null)], [("due", .null)], [("paid", true), ("id", "#N/A")], []]

def ledgerLines : String :=
  "\x7b\"id\":-7,\"due\":null\x7d\n\x7b\"due\":null\x7d\n\n\x7b\"paid\":true,\"id\":\"#N/A\"\x7d\n\x7b\x7d\n"

lemma readLines_ledgerLines : Json.readLines ledgerLines none = .ok (ledger.map .map) := by
  have hl : Json.fullLines ledgerLines = ["\x7b\"id\":-7,\"due\":null\x7d", "\x7b\"due\":null\x7d",
      "\x7b\"paid\":true,\"id\":\"#N/A\"\x7d", "\x7b\x7d"] := by decide +kernel
  have hfi : Json.read "\x7b\"id\":-7,\"due\":null\x7d" = .ok (.map [("id", .int (-7)), ("due", .null)]) :=
    Json.read_of_chars rfl rfl
  have hs : Json.read "\x7b\"due\":null\x7d" = .ok (.map [("due", .null)]) := Json.read_of_chars rfl rfl
  have ht : Json.read "\x7b\"paid\":true,\"id\":\"#N/A\"\x7d" = .ok (.map [("paid", true), ("id", "#N/A")]) :=
    Json.read_of_chars rfl rfl
  have hf : Json.read "\x7b\x7d" = .ok (.map []) := Json.read_of_chars rfl rfl
  rw [Json.readLines, hl]
  simp only [mapM_cons, mapM_nil, hfi, hs, ht, hf]
  rfl

theorem readSimple_written_ledger :
    Json.readLines ledgerLines none = .ok (ledger.map .map) ∧ ∃ book, writeRecords [] ledgerLines none = .ok book ∧
      readSimple [] book = .ofList [.map [("id", .int (-7)), ("due", .null), ("paid", .null)],
        .map [("id", .str "#N/A"), ("due", .null), ("paid", .bool true)]] := by
  obtain ⟨book, hwrite, hread⟩ := readSimple_written ledgerLines ledger readLines_ledgerLines (by decide +kernel)
  exact ⟨readLines_ledgerLines, book, hwrite, hread⟩

end Sluice.Workbook
