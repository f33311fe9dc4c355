import Sluice.Proofs.Feed
import Sluice.Proofs.Value.Fields
import Sluice.Workbook.Command

/-!
# The two readers of sheets under a heading row

The table reader takes a heading from the ISO text of its cell, the simple reader from the cell itself; these differ for
a **moment** only.
-/

namespace Sluice.Workbook

open List Fields Feed

variable {book : Book} {g : Grid} {k r : Nat} {s : Sheet} {choice : Value}

/-! ## Grids -/

def Grid.row (g : Grid) (r : Nat) : List Value := (List.range g.width).map fun c => g.value (r + 1) (c + 1)

def Grid.dataRows (g : Grid) (k : Nat) : List (List Value) := (g.rows.drop (k + 1)).filter (!·.all isNull)

lemma max?_of_corners {places a} (h : corners places = some a) :
    (places.map (·.1)).max? = some a.bottom ∧ (places.map (·.2)).max? = some a.right := by
  cases places with
  | nil => cases h
  | cons p ps =>
    obtain rfl := Option.some.inj h
    simp only [map_cons, max?_cons', foldl_map]
    refine ⟨congrArg some ?_, congrArg some ?_⟩
    · exact @foldl_hom _ _ _ Area.bottom _ _ ps ⟨p.1, p.2, p.1, p.2⟩ fun _ _ => rfl
    · exact @foldl_hom _ _ _ Area.right _ _ ps ⟨p.1, p.2, p.1, p.2⟩ fun _ _ => rfl

/-- Two grids have one size and show the same values. -/
structure SameGrid (g h : Grid) : Prop where
  height : g.height = h.height
  width : g.width = h.width
  value : ∀ row col, 1 ≤ row → row ≤ g.height → 1 ≤ col → col ≤ g.width → g.value row col = h.value row col

lemma Grid.rows_eq (g : Grid) : g.rows = (List.range g.height).map g.row := rfl

lemma SameGrid.row {h} (hgh : SameGrid g h) (hr : r < g.height) : g.row r = h.row r := by
  rw [Grid.row, Grid.row, ← hgh.width]
  refine map_congr_left fun c hc => ?_
  have hc' : c < g.width := mem_range.mp hc
  exact hgh.value (r + 1) (c + 1) (by omega) (by omega) (by omega) (by omega)

lemma SameGrid.rows {h} (hgh : SameGrid g h) : g.rows = h.rows := by
  rw [Grid.rows_eq, Grid.rows_eq, ← hgh.height]
  exact map_congr_left fun r hr => hgh.row (mem_range.mp hr)

lemma Grid.drop_rows_of_lt (h : k < g.height) : g.rows.drop k = g.row k :: g.rows.drop (k + 1) := by
  have hl : k < g.rows.length := by simpa [Grid.rows_eq] using h
  rw [drop_eq_getElem_cons hl]
  simp [Grid.rows_eq]

lemma Grid.drop_rows_of_le (h : g.height ≤ k) : g.rows.drop k = [] := by simpa [Grid.rows_eq] using h

lemma Grid.drop_rows_eq (g : Grid) (k) : g.rows.drop k = (List.range (g.height - k)).map fun i => g.row (k + i) := by
  refine ext_getElem ?_ fun i h1 h2 => ?_
  · simp [Grid.rows_eq]
  · simp [Grid.rows_eq]

lemma Sheet.sameGrid {computed} (hh : (s.grid computed true).height = (s.grid computed false).height)
    (hw : (s.grid computed true).width = (s.grid computed false).width) :
    SameGrid (s.grid computed true) (s.grid computed false) := ⟨hh, hw, fun _ _ _ _ _ _ => rfl⟩

lemma Sheet.height_of_not_inUse {computed touched}
    (h : (s.grid computed touched).inUse = false) : (s.grid computed touched).height = 1 := by
  simp only [Sheet.grid, Bool.not_eq_false', List.isEmpty_iff] at h
  simp only [Sheet.grid, h, corners, Option.getD_none]

lemma simpleRecords_eq (hg : g.inUse = false → g.height = 1) (k) :
    simpleRecords k g = (g.dataRows k).map fun row => recordOf (headings (g.row k)) (row.map isoValue) := by
  by_cases hk : k < g.height
  · by_cases hu : g.inUse
    · rw [simpleRecords, if_pos hu, Grid.drop_rows_of_lt hk, rowRecords, Grid.dataRows]
    · -- a sheet that is not in use has no row below its first
      have ho : g.height = 1 := hg (by simpa using hu)
      rw [simpleRecords, if_neg hu, Grid.dataRows, Grid.drop_rows_of_le (by omega)]
      rfl
  · have hn : g.rows.drop k = [] := Grid.drop_rows_of_le (by omega)
    rw [simpleRecords, hn, Grid.dataRows, Grid.drop_rows_of_le (by omega), rowRecords, ite_self]
    rfl

/-! ## The table reader -/

lemma Grid.cellValue_eq (hg : g.merged = []) (rule) {row col} {c : Nat}
    (hr : row = (r : Int) + 1) (hc : col = (c : Int) + 1) :
    g.cellValue rule row col = .ok (isoValue (g.value (r + 1) (c + 1))) := by
  subst hr hc
  have hm : g.merge rule ((r : Int) + 1).toNat ((c : Int) + 1).toNat = g.value (r + 1) (c + 1) := by
    rw [Grid.merge, hg]
    rfl
  rw [Grid.cellValue, hm]
  rfl

lemma interval_one (n : Nat) : interval 1 n = (List.range n).map fun i : Nat => (i : Int) + 1 := by
  have hn : ((n : Int) + 1 - 1).toNat = n := by omega
  rw [interval, hn]
  exact map_congr_left fun i _ => by omega

variable {β γ : Type}

lemma mapIdx_map_range (n f) (h : Nat → β → γ) :
    ((List.range n).map f).mapIdx h = (List.range n).map fun i => h i (f i) := by
  refine ext_getElem ?_ fun i h1 h2 => ?_
  · simp
  · simp

lemma headingOr_eq (c : Nat) (v) :
    headingOr ("Column_" ++ Number.intText ((c : Int) + 1 - 1 + 1)) v = columnHeading c v := by
  cases v <;> simp [headingOr, columnHeading]

lemma mapM_columns {f : Int → Result β} {f'} (h : ∀ c : Nat, f ((c : Int) + 1) = .ok (f' c)) (n : Nat) :
    (interval 1 n).mapM f = .ok ((List.range n).map f') := by
  rw [interval_one, mapM_map]
  exact mapM_eq_ok fun c _ => h c

lemma rowValues_eq (hg : g.merged = []) (rule) {row} (hr : row = (r : Int) + 1) :
    ((interval 1 g.width).mapM (g.cellValue rule row ·)) = .ok ((g.row r).map isoValue) := by
  rw [mapM_columns fun c => Grid.cellValue_eq hg rule hr rfl, Grid.row, map_map]
  rfl

lemma rowHeadings_eq (hg : g.merged = []) (rule) {row} (hr : row = (r : Int) + 1) :
    ((interval 1 g.width).mapM fun col => do
      let v ← g.cellValue rule row col
      pure (headingOr ("Column_" ++ Number.intText (col - 1 + 1)) v)) =
      (.ok (headings ((g.row r).map isoValue)) : Result (List String)) := by
  have hc (c : Nat) : (do let v ← g.cellValue rule row ((c : Int) + 1)
                          pure (headingOr ("Column_" ++ Number.intText ((c : Int) + 1 - 1 + 1)) v) : Result String) =
      .ok (columnHeading c (isoValue (g.value (r + 1) (c + 1)))) := by
    rw [Grid.cellValue_eq hg rule hr rfl, ← headingOr_eq]
    rfl
  rw [mapM_columns hc, headings, Grid.row, map_map, mapIdx_map_range]
  rfl

lemma interval_rows (k n : Nat) :
    interval ((k : Int) + 1 + 1) n = (List.range (n - (k + 1))).map fun i : Nat => ((k + 1 + i : Nat) : Int) + 1 := by
  have hn : ((n : Int) + 1 - ((k : Int) + 1 + 1)).toNat = n - (k + 1) := by omega
  rw [interval, hn]
  exact map_congr_left fun i _ => by omega

lemma isNull_isoValue (v) : isNull (isoValue v) = isNull v := by cases v <;> rfl

lemma flatMap_filter_map (p) (f : β → γ) (l : List β) : l.flatMap (fun b => ([b].filter p).map f) = (l.filter p).map f := by
  induction l with
  | nil => rfl
  | cons b l ih =>
    rw [flatMap_cons, ih, ← map_append, ← filter_append]
    rfl

lemma lineRecord_isoValue (k names) (row : List Value) : lineRecord { headerRow := k } names (row.map isoValue) =
      ([row].filter (!·.all isNull)).map fun row => recordOf names (row.map isoValue) := by
  have ha : (row.map isoValue).all isNull = row.all isNull := by simp [Function.comp_def, isNull_isoValue]
  rw [lineRecord, ha]
  cases hn : row.all isNull <;> simp [hn]

/-- **The table reader** without a range takes the rows as the simple reader does, under the headings of the ISO texts. -/
lemma tableRecords_eq (hg : g.merged = []) (k : Nat) : tableRecords g none { headerRow := (k : Int) + 1 } =
      .ofList ((g.dataRows k).map fun row => recordOf (headings ((g.row k).map isoValue)) (row.map isoValue)) := by
  have ht : (1 : Int) + ((k : Int) + 1) - 1 = (k : Int) + 1 := by omega
  have hf : g.frame none = ⟨1, g.height, 1, g.width⟩ := rfl
  have hr : ∀ row ∈ interval ((k : Int) + 1 + 1) g.height,
      (bindResult ((interval 1 g.width).mapM (g.cellValue .origin row ·)) fun v =>
        .ofList (lineRecord { headerRow := (k : Int) + 1 } (headings ((g.row k).map isoValue)) v)) =
      .ofList (([g.row (row - 1).toNat].filter (!·.all isNull)).map fun row =>
        recordOf (headings ((g.row k).map isoValue)) (row.map isoValue)) := by
    intro row hro
    rw [interval_rows, mem_map] at hro
    obtain ⟨i, -, rfl⟩ := hro
    have hi : (((k + 1 + i : Nat) : Int) + 1 - 1).toNat = k + 1 + i := by omega
    rw [rowValues_eq hg .origin rfl, bindResult_ok, lineRecord_isoValue, hi]
  rw [tableRecords, hf]
  simp only [uprightRecords, Frame.cols, ht]
  rw [rowHeadings_eq hg .origin rfl, bindResult_ok, flatMap_eq_ofList hr, interval_rows,
    Grid.dataRows, Grid.drop_rows_eq, ← flatMap_filter_map, List.flatMap_map, List.flatMap_map]
  refine congrArg ofList (flatMap_congr fun i _ => ?_)
  have hi : (((k + 1 + i : Nat) : Int) + 1 - 1).toNat = k + 1 + i := by omega
  rw [hi]

def isMoment : Value → Bool
  | .datetime _ => true
  | _ => false

lemma DateTime.isoWith_ne_iso (t : DateTime) : t.isoWith " " ≠ t.iso := by
  intro h
  have hl := congrArg String.toList h
  simp only [DateTime.iso, DateTime.isoWith] at hl
  simp at hl

lemma columnHeading_isoValue_iff (c v) : columnHeading c v = columnHeading c (isoValue v) ↔ isMoment v = false := by
  cases v with
  | datetime t => simpa [columnHeading, isoValue, Value.text, isMoment] using DateTime.isoWith_ne_iso t
  | _ => simp [columnHeading, isoValue, Value.text, isMoment]

lemma headings_isoValue_iff (row) : headings row = headings (row.map isoValue) ↔ ∀ v ∈ row, isMoment v = false := by
  constructor
  · intro h v hv
    obtain ⟨i, hi, rfl⟩ := mem_iff_getElem.mp hv
    have hg := congrArg (fun l => l[i]?) h
    simp only [headings, getElem?_mapIdx, getElem?_map, getElem?_eq_getElem hi, Option.map_some, Option.some.injEq] at hg
    exact (columnHeading_isoValue_iff i _).mp hg
  · intro h
    refine ext_getElem (by simp [headings]) fun i h1 h2 => ?_
    simp only [headings, getElem_mapIdx, getElem_map]
    exact (columnHeading_isoValue_iff i _).mpr (h _ (getElem_mem ..))

lemma eq_of_recordOf_eq {names names' values} (hn : names.Nodup)
    (hl : names.length = values.length) (hl' : names'.length = values.length)
    (h : recordOf names values = recordOf names' values) : names = names' := by
  have hk : ∀ ns : List String, ns.length = values.length → keys (ns.zip values) = ns :=
    fun ns hns => map_fst_zip (Nat.le_of_eq hns)
  have hf : names = names'.eraseDups := by
    have := congrArg Fields.keys (Value.map.inj h)
    rwa [keys_ofPairs, keys_ofPairs, hk names hl, hk names' hl', eraseDups_of_nodup hn] at this
  -- as many names stay as there were, so none of the other list is dropped
  have hn' : names'.Nodup := nodup_of_length_eraseDups (by rw [← hf, hl, hl'])
  rw [hf, eraseDups_of_nodup hn']

/-! ## Agreement -/

def simpleReading (book : Book) (choice : Value) (k : Nat) : Feed Value :=
  readSimple [("sheet", choice), ("skip_rows", .int k)] book

/-- What the table reader makes of a workbook when row `k + 1` holds the headings. -/
def tableReading (book : Book) (choice : Value) (k : Nat) : Feed Value :=
  readTable [("sheet", choice), ("header_row", .int ((k : Int) + 1))] book

lemma simpleReading_eq (hs : book.choose choice = .ok s) (k) :
    simpleReading book choice k = .ofList (((s.grid true true).dataRows k).map fun row =>
      recordOf (headings ((s.grid true true).row k)) (row.map isoValue)) := by
  rw [← simpleRecords_eq Sheet.height_of_not_inUse, simpleReading, readSimple]
  simp [setting, get?, hs, wholeSetting, choiceNumber?]

lemma tableReading_eq (hs : book.choose choice = .ok s) (hm : s.merged = []) (k) :
    tableReading book choice k = .ofList (((s.grid true false).dataRows k).map fun row =>
      recordOf (headings (((s.grid true false).row k).map isoValue)) (row.map isoValue)) := by
  have hc : (some "computed" != some "text") := by decide
  rw [← tableRecords_eq hm, tableReading, readTable]
  simp [setting, get?, hs, rangeSetting, Value.truthy, wholeSetting, choiceNumber?, Value.str?, MergeRule.ofName, hc]

lemma readings_eq_iff (hs : book.choose choice = .ok s)
    (hm : s.merged = []) (hsa : SameGrid (s.grid true true) (s.grid true false)) (k) :
    simpleReading book choice k = tableReading book choice k ↔ ∀ row ∈ (s.grid true true).dataRows k,
        recordOf (headings ((s.grid true true).row k)) (row.map isoValue) =
          recordOf (headings (((s.grid true true).row k).map isoValue)) (row.map isoValue) := by
  have hd : (s.grid true false).dataRows k = (s.grid true true).dataRows k := by rw [Grid.dataRows, Grid.dataRows, hsa.rows]
  rw [simpleReading_eq hs, tableReading_eq hs hm, hd, ofList_inj]
  by_cases hk : k < (s.grid true true).height
  · rw [hsa.row hk, map_inj_left]
  · -- past the last row there are no records at all
    have hn : (s.grid true true).dataRows k = [] := by rw [Grid.dataRows, Grid.drop_rows_of_le (by omega), filter_nil]
    simp [hn]

lemma length_of_mem_dataRows {row} (h : row ∈ g.dataRows k) : row.length = g.width := by
  have hm : row ∈ g.rows := mem_of_mem_drop (mem_filter.mp h).1
  rw [Grid.rows_eq, mem_map] at hm
  obtain ⟨r, -, rfl⟩ := hm
  simp [Grid.row]

/-- **When the two readers agree.** On a sheet without merged areas that both ways of loading present alike, they give the
same records exactly if every record under the headings of the cells is the record under those of their ISO texts. This
holds whenever no heading is a moment; where the headings are distinct and there is a record at all, then only. -/
theorem simpleReading_eq_tableReading_iff {book : Book} {choice : Value} {s : Sheet}
    (hs : book.choose choice = .ok s) (hmerged : s.merged = [])
    (hsame : SameGrid (s.grid true true) (s.grid true false)) (k : Nat) :
    (simpleReading book choice k = tableReading book choice k ↔ ∀ row ∈ (s.grid true true).dataRows k,
        recordOf (headings ((s.grid true true).row k)) (row.map isoValue) =
          recordOf (headings (((s.grid true true).row k).map isoValue)) (row.map isoValue)) ∧
    ((∀ v ∈ (s.grid true true).row k, isMoment v = false) → simpleReading book choice k = tableReading book choice k) ∧
    ((headings ((s.grid true true).row k)).Nodup → (simpleReading book choice k = tableReading book choice k ↔
        (∀ v ∈ (s.grid true true).row k, isMoment v = false) ∨ (s.grid true true).dataRows k = [])) := by
  have hiff := readings_eq_iff hs hmerged hsame k
  have hagree : (∀ v ∈ (s.grid true true).row k, isMoment v = false) →
      simpleReading book choice k = tableReading book choice k := by
    intro hplain
    refine hiff.mpr fun row _ => ?_
    rw [← (headings_isoValue_iff _).mpr hplain]
  refine ⟨hiff, hagree, fun hnodup => ⟨fun heq => ?_, ?_⟩⟩
  · rcases hrows : (s.grid true true).dataRows k with - | ⟨row, rows⟩
    · exact .inr rfl
    · -- one record is enough to tell the headings apart
      have hmem : row ∈ (s.grid true true).dataRows k := by
        rw [hrows]
        exact List.mem_cons_self ..
      have hlen := length_of_mem_dataRows hmem
      refine .inl ((headings_isoValue_iff _).mp ?_)
      refine eq_of_recordOf_eq hnodup ?_ ?_ (hiff.mp heq row hmem)
      · simp [headings, Grid.row, hlen]
      · simp [headings, Grid.row, hlen]
  · rintro (hplain | hnone)
    · exact hagree hplain
    · refine hiff.mpr fun row hrow => ?_
      rw [hnone] at hrow
      cases hrow

/-- A sheet with a title row, a column without heading, moments and an empty row. -/
def titled : Sheet where
  name := "Shifts"
  cells := [⟨1, 1, .text "Report", "General", none⟩, ⟨2, 1, .text "day", "General", none⟩,
    ⟨2, 3, .int 2, "General", none⟩, ⟨3, 1, .int 45651, "yyyy-mm-dd", none⟩, ⟨3, 2, .bool true, "General", none⟩,
    ⟨3, 3, .int 3, "General", none⟩, ⟨5, 2, .text "x", "General", none⟩]

theorem readings_agree_titled : simpleReading ⟨[titled]⟩ (.int 0) 1 = tableReading ⟨[titled]⟩ (.int 0) 1 ∧
      (simpleReading ⟨[titled]⟩ (.int 0) 1).items.length = 2 :=
  ⟨(simpleReading_eq_tableReading_iff (s := titled) rfl rfl (Sheet.sameGrid (by decide) (by decide)) 1).2.1
    (by decide), rfl⟩

def dated : Sheet where
  name := "Totals"
  cells := [⟨1, 1, .int 45651, "yyyy-mm-dd", none⟩, ⟨2, 1, .int 7, "General", none⟩]

/-- Under a heading that is a moment the readers give the one column two names. -/
theorem readings_differ_dated : simpleReading ⟨[dated]⟩ (.int 0) 0 = .ofList [.map [("2024-12-25 00:00:00", .int 7)]] ∧
      tableReading ⟨[dated]⟩ (.int 0) 0 = .ofList [.map [("2024-12-25T00:00:00", .int 7)]] ∧
      simpleReading ⟨[dated]⟩ (.int 0) 0 ≠ tableReading ⟨[dated]⟩ (.int 0) 0 := by
  have hsimple : simpleReading ⟨[dated]⟩ (.int 0) 0 = .ofList [.map [("2024-12-25 00:00:00", .int 7)]] := rfl
  have htable : tableReading ⟨[dated]⟩ (.int 0) 0 = .ofList [.map [("2024-12-25T00:00:00", .int 7)]] := rfl
  refine ⟨hsimple, htable, ?_⟩
  rw [hsimple, htable]
  simp [ofList]

end Sluice.Workbook
