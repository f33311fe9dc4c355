import Sluice.Proofs.Workbook.Headings
import Sluice.Proofs.Workbook.Notation

/-!
# Sheets reported cell by cell

The grid of a sheet reaches to every **occupied** cell (`Sheet.mem_places`), a record tells its place
(`Sheet.record_place`), and a range filters the report (`sheetCells_filter`).
-/

namespace Sluice.Workbook

open List Number

variable (s : Sheet) (mode : FormulaMode) (range? : Option Range) (p : Nat × Nat)
  {b : Book} {sheets : List Sheet} {choice : Value}

/-! ## Occupied cells -/

/-- The cell stored at a place, unless a merged area covers it. -/
def Sheet.cell? : Option Cell := (s.cells.filter fun c => !s.isCovered c.row c.col).find? fun c => (c.row, c.col) == p

def Content.isFormula : Content → Bool
  | .formula _ _ => true
  | _ => false

def Sheet.valueAt : Value := ((s.cell? p).map fun c => (c.content.shown (mode == .computed) c.format).1).getD .null

def Sheet.IsFormula : Prop := ∃ c, s.cell? p = some c ∧ c.content.isFormula

def Sheet.IsMerged : Prop := ∃ a ∈ s.merged, a.contains p.1 p.2

/-- A cell that has a value, is a formula or lies in a merged area. -/
def Sheet.Occupied : Prop := isNull (s.valueAt mode p) = false ∨ s.IsFormula p ∨ s.IsMerged p

/-- A formula of which nothing is shown. -/
def Sheet.Lost : Prop := s.IsFormula p ∧ isNull (s.valueAt mode p) ∧ ¬ s.IsMerged p

open Sheet

variable {s mode p} in
/-- Only formulas that appear as their value are lost. -/
lemma Sheet.Lost.computed (h : s.Lost mode p) : mode = .computed := by
  obtain ⟨⟨c, hc, hf⟩, hn, -⟩ := h
  by_contra hm
  rw [valueAt, hc, Option.map_some, beq_false_of_ne hm] at hn
  cases hco : c.content with
  | formula source cached? =>
    rw [hco] at hn
    cases hn
  | _ =>
    rw [hco] at hf
    cases hf

def Sheet.gridIn : Grid := s.grid (mode == .computed) false

open Grid

lemma Sheet.view_gridIn : ((s.gridIn mode).view p.1 p.2).value = s.valueAt mode p ∧
      (((s.gridIn mode).view p.1 p.2).kind = .formula →
        ∃ c, s.cell? p = some c ∧ (c.content.shown (mode == .computed) c.format).2 = .formula) := by
  simp only [view, gridIn, grid, find?_map, valueAt, cell?, Function.comp_def]
  cases (s.cells.filter fun c => !s.isCovered c.row c.col).find? fun c => (c.row, c.col) == p with
  | none => exact ⟨rfl, fun h => Kind.noConfusion h⟩
  | some c => exact ⟨rfl, fun h => ⟨c, rfl, h⟩⟩

lemma numberView_kind (format v) : (numberView format v).2 ≠ .formula := by
  unfold numberView
  repeat' split
  all_goals exact Kind.noConfusion

lemma Content.shown_of_formula {content : Content} {computed format}
    (h : (content.shown computed format).2 = .formula) : isNull (content.shown computed format).1 = false := by
  cases content with
  | formula source cached? =>
    cases computed with
    | false => rfl
    | true =>
      simp only [Content.shown, if_true] at h
      repeat' split at h
      all_goals simp [numberView_kind] at h
  | _ => simp [Content.shown, numberView_kind] at h

lemma Sheet.isReported_iff : (s.gridIn mode).isReported p.1 p.2 ↔ isNull (s.valueAt mode p) = false ∨ s.IsMerged p := by
  obtain ⟨hv, hk⟩ := s.view_gridIn mode p
  have ha : ((s.gridIn mode).area? p.1 p.2).isSome ↔ s.IsMerged p := find?_isSome
  rw [isReported, value, hv, Bool.or_eq_true, Bool.or_eq_true, ha, beq_iff_eq, Bool.not_eq_true']
  refine ⟨?_, Or.imp_left .inl⟩
  rintro ((h | h) | h)
  · exact .inl h
  · obtain ⟨c, hc, hs⟩ := hk h
    refine .inl ?_
    rw [valueAt, hc]
    exact Content.shown_of_formula hs
  · exact .inr h

/-- **What is missed**: an occupied cell is reported unless it is lost. -/
lemma Sheet.isReported_iff_occupied : (s.gridIn mode).isReported p.1 p.2 ↔ s.Occupied mode p ∧ ¬ s.Lost mode p := by
  rw [isReported_iff, Occupied, Lost]
  cases isNull (s.valueAt mode p) <;> grind

/-! ## Places of a grid -/

variable {p} in
lemma Grid.mem_places {g : Grid} : p ∈ g.places ↔ g.inUse ∧ (1 ≤ p.1 ∧ p.1 ≤ g.height) ∧ 1 ≤ p.2 ∧ p.2 ≤ g.width := by
  rw [places]
  split
  · rename_i hin
    simp only [List.mem_flatMap, mem_map, mem_range, hin, true_and]
    constructor
    · rintro ⟨r, hr, c, hc, rfl⟩
      exact ⟨⟨by omega, hr⟩, by omega, hc⟩
    · rintro ⟨_, _⟩
      exact ⟨p.1 - 1, by omega, p.2 - 1, by omega, Prod.ext (by simp; omega) (by simp; omega)⟩
  · simp_all

lemma Grid.pairwise_places (g : Grid) : g.places.Pairwise (Prod.Lex (· < ·) (· < ·)) := by
  rw [places]
  split
  · refine pairwise_flatMap.mpr ⟨fun r _ => ?_, pairwise_lt_range.imp fun hrs p hp q hq => ?_⟩
    · exact pairwise_map.mpr (pairwise_lt_range.imp fun hcd => .right _ (Nat.succ_lt_succ hcd))
    · obtain ⟨c, -, rfl⟩ := mem_map.mp hp
      obtain ⟨d, -, rfl⟩ := mem_map.mp hq
      exact .left _ _ (Nat.succ_lt_succ hrs)
  · exact .nil

section

variable {s mode p}

lemma Sheet.mem_places_of_mark {q} (hp : 1 ≤ p.1 ∧ 1 ≤ p.2)
    (hq : q ∈ s.marks false) (hle : p.1 ≤ q.1 ∧ p.2 ≤ q.2) : p ∈ (s.gridIn mode).places := by
  obtain ⟨a, ha⟩ : ∃ a, corners (s.marks false) = some a := by
    cases hm : s.marks false with
    | nil => simp [hm] at hq
    | cons => exact ⟨_, rfl⟩
  obtain ⟨hb, hr⟩ := max?_of_corners ha
  have hin : (s.gridIn mode).inUse = !(s.marks false).isEmpty := rfl
  have hbo : (s.gridIn mode).height = ((corners (s.marks false)).getD ⟨1, 1, 1, 1⟩).bottom ∧
      (s.gridIn mode).width = ((corners (s.marks false)).getD ⟨1, 1, 1, 1⟩).right := ⟨rfl, rfl⟩
  rw [ha] at hbo
  rw [mem_places, hin, hbo.1, hbo.2, Bool.not_eq_true', isEmpty_eq_false_iff]
  exact ⟨ne_nil_of_mem hq, ⟨hp.1, hle.1.trans ((max?_eq_some_iff.mp hb).2 _ (mem_map_of_mem hq))⟩, hp.2,
    hle.2.trans ((max?_eq_some_iff.mp hr).2 _ (mem_map_of_mem hq))⟩

lemma Sheet.mem_marks_of_cell {c} (hc : s.cell? p = some c) (hse : c.content ≠ .unset) : p ∈ s.marks false := by
  have hm := mem_of_find?_eq_some hc
  have hp : (c.row, c.col) = p := beq_iff_eq.mp (find?_some (p := fun c : Cell => (c.row, c.col) == p) hc)
  have hs : c.isStored := by
    unfold Cell.isStored
    split
    · contradiction
    · rfl
  refine mem_append_left _ (mem_map.mpr ⟨c, mem_filter.mpr ⟨(mem_filter.mp hm).1, ?_⟩, hp⟩)
  rw [hs]
  rfl

/-- **A grid reaches to every occupied cell.** -/
lemma Sheet.mem_places (hp : 1 ≤ p.1 ∧ 1 ≤ p.2) (h : s.Occupied mode p) : p ∈ (s.gridIn mode).places := by
  rcases h with h | ⟨c, hc, hf⟩ | ⟨a, ha, hco⟩
  · cases hc : s.cell? p with
    | none =>
      rw [valueAt, hc] at h
      cases h
    | some c =>
      refine mem_places_of_mark hp (mem_marks_of_cell hc fun hu => ?_) ⟨le_refl _, le_refl _⟩
      rw [valueAt, hc, Option.map_some, hu] at h
      cases h
  · refine mem_places_of_mark hp (mem_marks_of_cell hc fun hu => ?_) ⟨le_refl _, le_refl _⟩
    rw [hu] at hf
    cases hf
  · have hm : (a.bottom, a.right) ∈ s.marks false := mem_append_right _ (List.mem_flatMap.mpr ⟨a, ha, by simp⟩)
    simp only [Area.contains, Bool.and_eq_true, decide_eq_true_eq] at hco
    exact mem_places_of_mark hp hm ⟨hco.1.1.2, hco.2⟩

end

/-! ## Reports of a sheet -/

/-- A place of a sheet in a range. -/
def InRange : Prop := 1 ≤ p.1 ∧ 1 ≤ p.2 ∧ range?.all (·.contains p.1 p.2)

def Sheet.record : Value := cellRecord s (s.gridIn mode) (if mode == .both then some (s.grid true false) else none) p.1 p.2

/-- The records are those of certain cells in the range, each once, row by row. -/
def Reports (cells : Nat × Nat → Prop) (records : List Value) : Prop :=
  ∃ places : List (Nat × Nat), records = places.map (s.record mode) ∧ places.Pairwise (Prod.Lex (· < ·) (· < ·)) ∧
    ∀ p, p ∈ places ↔ InRange range? p ∧ cells p

/-- Whether a record tells that its cell lies in a range. -/
def recordIn (record : Value) : Bool :=
  match record.get? "row", record.get? "col" with
  | some (.int row), some (.int col) => range?.all (·.contains row col)
  | _, _ => false

lemma Sheet.record_place : (s.record mode p).get? "row" = some (.int p.1) ∧ (s.record mode p).get? "col" = some (.int p.2) ∧
      (s.record mode p).get? "ref" = some (.str (cellName p.1 p.2)) := ⟨rfl, rfl, rfl⟩

lemma Sheet.record_injective : Function.Injective (s.record mode) := by
  intro p q h
  obtain ⟨hr, hc, -⟩ := s.record_place mode p
  obtain ⟨hr', hc', -⟩ := s.record_place mode q
  rw [h] at hr hc
  simp only [hr', hc', Option.some.injEq, Value.int.injEq, Nat.cast_inj] at hr hc
  exact Prod.ext hr.symm hc.symm

def Sheet.reportedPlaces : List (Nat × Nat) :=
  (s.gridIn mode).places.filter fun p => (s.gridIn mode).isReported p.1 p.2 && range?.all (·.contains p.1 p.2)

lemma sheetCells_eq : sheetCells s mode range? = (s.reportedPlaces mode range?).map (s.record mode) := rfl

variable {s mode range? p} in
lemma Sheet.mem_reportedPlaces :
    p ∈ s.reportedPlaces mode range? ↔ InRange range? p ∧ s.Occupied mode p ∧ ¬ s.Lost mode p := by
  rw [reportedPlaces, mem_filter, Bool.and_eq_true, isReported_iff_occupied]
  constructor
  · rintro ⟨hp, hr, hra⟩
    obtain ⟨-, hro, hc⟩ := Grid.mem_places.mp hp
    exact ⟨⟨hro.1, hc.1, hra⟩, hr⟩
  · rintro ⟨⟨hro, hc, hra⟩, hr⟩
    exact ⟨mem_places ⟨hro, hc⟩ hr.1, hr, hra⟩

/-- **A range filters the report** of a sheet. -/
lemma sheetCells_filter : sheetCells s mode range? = (sheetCells s mode none).filter (recordIn range?) := by
  rw [sheetCells_eq, sheetCells_eq, filter_map, reportedPlaces, reportedPlaces, filter_filter]
  refine congrArg (List.map _) (filter_congr fun p _ => ?_)
  rw [Function.comp_apply, recordIn, (s.record_place mode p).1, (s.record_place mode p).2.1]
  simp [Bool.and_comm]

lemma reports_sheetCells : Reports s mode range? (fun p => s.Occupied mode p ∧ ¬ s.Lost mode p) (sheetCells s mode range?) :=
  ⟨_, sheetCells_eq s mode range?, (pairwise_places _).filter _, fun _ => mem_reportedPlaces⟩

/-- The report of a sheet is right exactly if no formula in the range is lost. -/
lemma reports_sheetCells_iff :
    Reports s mode range? (s.Occupied mode) (sheetCells s mode range?) ↔ ∀ p, InRange range? p → ¬ s.Lost mode p := by
  constructor
  · rintro ⟨places, hpl, -, hm⟩ p hp hl
    obtain rfl := map_injective_iff.mpr (s.record_injective mode) hpl
    exact (mem_reportedPlaces.mp ((hm p).mpr ⟨hp, .inr (.inl hl.1)⟩)).2.2 hl
  · intro h
    obtain ⟨places, hpl, hs, hm⟩ := reports_sheetCells s mode range?
    refine ⟨places, hpl, hs, fun p => (hm p).trans (and_congr_right fun hp => ?_)⟩
    exact and_iff_left (h p hp)

/-! ## Choosing sheets -/

variable {s mode range? p}

/-- The sheets that are reported: the one with a title or a number; without a choice the one that the range names, else
all. -/
inductive Book.Selects (b : Book) (range? : Option Range) : Value → List Sheet → Prop
  | all (h : (range?.bind (·.sheet?)).getD "" = "") : Selects b range? .null b.sheets
  | ofRange {s : Sheet} (hs : s ∈ b.sheets) (h : range?.bind (·.sheet?) = some s.name) (hname : s.name ≠ "") :
    Selects b range? .null [s]
  | named {s : Sheet} (hs : s ∈ b.sheets) : Selects b range? (.str s.name) [s]
  | numbered {choice : Value} {n : Nat} {s : Sheet} (hn : choiceNumber? choice = some n) (hs : b.sheets[n]? = some s) :
    Selects b range? choice [s]
  | fromEnd {choice : Value} {n : Nat} {s : Sheet} (hn : choiceNumber? choice = some (-((n : Int) + 1)))
    (hs : b.sheets.reverse[n]? = some s) : Selects b range? choice [s]

lemma Book.Selects.subset (h : b.Selects range? choice sheets) : sheets ⊆ b.sheets := by
  cases h with
  | all h => exact List.Subset.refl _
  | ofRange hs | named hs => simpa using hs
  | numbered hn hs => simpa using mem_of_getElem? hs
  | fromEnd hn hs => simpa using mem_of_getElem? hs

open Book

lemma Book.reported_of_number {n} (hn : choiceNumber? choice = some n) {i : Nat}
    (hi : (if n < 0 then n + b.sheets.length else n) = i)
    (hs : b.sheets[i]? = some s) : b.reported choice range? = .ok [s.name] := by
  have hna : b.names[i]? = some s.name := by rw [names, getElem?_map, hs, Option.map_some]
  cases choice with
  | null => cases hn
  | _ => simp only [reported, hn, hi, Int.toNat_natCast, hna, if_neg (Int.not_lt.mpr (Int.natCast_nonneg i))]

lemma Book.Selects.reported (h : b.Selects range? choice sheets) : b.reported choice range? = .ok (sheets.map (·.name)) := by
  cases h with
  | all h =>
    rw [reported]
    cases hsh : range?.bind (·.sheet?) with
    | none => rfl
    | some name =>
      rw [hsh, Option.getD_some] at h
      simp only [h]
      rfl
  | ofRange hs h hna =>
    rw [reported, h]
    simp only [if_neg hna]
    rfl
  | named hs => rfl
  | numbered hn hs => exact reported_of_number hn (if_neg (Int.not_lt.mpr (Int.natCast_nonneg _))) hs
  | @fromEnd _ n s hn hs =>
    obtain ⟨hlt, -⟩ := List.getElem?_eq_some_iff.mp hs
    rw [length_reverse] at hlt
    rw [getElem?_reverse hlt] at hs
    refine reported_of_number hn ?_ hs
    omega

lemma Book.require_of_mem (hn : b.names.Nodup) (hs : s ∈ b.sheets) : b.require s.name = .ok s := by
  have hf : b.sheet? s.name = some s := by
    cases ht : b.sheet? s.name with
    | none => exact absurd (beq_self_eq_true s.name) (List.find?_eq_none.mp ht s hs)
    | some t =>
      have hna : t.name = s.name := beq_iff_eq.mp (find?_some (p := fun t : Sheet => t.name == s.name) ht)
      rw [inj_on_of_nodup_map hn (mem_of_find?_eq_some ht) hs hna]
  rw [require, hf]

/-! ## Reports of a workbook -/

def givenMode (config : Fields) : FormulaMode := .ofName ((setting config "formulas" (.str "computed")).str?.getD "")

lemma readRaw_eq {book} (hn : book.names.Nodup) {config}
    (hr : givenRange config = .ok range?) (hsh : book.Selects range? (setting config "sheet" .null) sheets) :
    readRaw config book = .ofList (sheets.flatMap (sheetCells · (givenMode config) range?)) := by
  have hre : readRaw config book = .bindResult (givenRange config) fun range? =>
      .bindResult (book.reported (setting config "sheet" .null) range?) fun names =>
        .flatMap (fun name => .bindResult (book.require name) fun s =>
          .ofList (sheetCells s (givenMode config) range?)) names := by
    rw [givenRange, Feed.bindResult_bind]
    rfl
  rw [hre, hr, Feed.bindResult_ok, hsh.reported, Feed.bindResult_ok]
  rw [Feed.flatMap_map]
  refine Feed.flatMap_eq_ofList fun s hs => ?_
  rw [require_of_mem hn (hsh.subset hs), Feed.bindResult_ok]

/-- The name in a record is read as its cell. -/
lemma parse_ref (hf : (s.gridIn mode).height < 10 ^ mostDigits) (hp : p ∈ s.reportedPlaces mode range?) :
    Range.parse (cellName p.1 p.2) = .ok ⟨none, some p.1, some p.1, some p.2, some p.2⟩ := by
  obtain ⟨-, hr, hc⟩ := mem_places.mp (mem_filter.mp hp).1
  exact (parse_cellName_iff hc.1).mpr (Nat.toDigits_length _ _ _ (by decide) (Nat.lt_of_le_of_lt hr.2 hf))

/-- **When all occupied cells are reported.** A workbook is reported sheet by sheet, in each of them row by row, with one
record for each cell of the range that is occupied and not lost. The report is right exactly if nothing is lost, as is
always so where formulas appear as their text. The name in a record is that of its cell, and a range filters what is
reported without it. -/
theorem cells_reported_iff {book : Book} (hnames : book.names.Nodup) {config : Fields} {sheets : List Sheet}
    (hrange : givenRange config = .ok range?) (hmode : givenMode config = mode)
    (hsheets : book.Selects range? (setting config "sheet" .null) sheets)
    (hfits : ∀ s ∈ sheets, (s.gridIn mode).height < 10 ^ mostDigits) :
    readRaw config book = .ofList (sheets.flatMap fun s => sheetCells s mode range?) ∧
    (∀ s ∈ sheets, Reports s mode range? (fun p => s.Occupied mode p ∧ ¬ s.Lost mode p) (sheetCells s mode range?) ∧
      (Reports s mode range? (s.Occupied mode) (sheetCells s mode range?) ↔ ∀ p, InRange range? p → ¬ s.Lost mode p) ∧
      ∀ p, s.Lost mode p → mode = .computed) ∧
    (∀ record ∈ (readRaw config book).items, ∃ (row col : Nat) (ref : String), record.get? "row" = some (.int row) ∧
      record.get? "col" = some (.int col) ∧ record.get? "ref" = some (.str ref) ∧
      Range.parse ref = .ok ⟨none, some row, some row, some col, some col⟩) ∧
    ∀ whole, givenRange whole = .ok none → givenMode whole = mode → book.Selects none (setting whole "sheet" .null) sheets →
      (readRaw config book).items = (readRaw whole book).items.filter (recordIn range?) := by
  have hread := readRaw_eq hnames hrange hsheets
  rw [hmode] at hread
  refine ⟨hread, fun s _ => ⟨reports_sheetCells .., reports_sheetCells_iff .., fun _ => Lost.computed⟩, ?_, ?_⟩
  · rw [hread]
    intro record hrecord
    obtain ⟨s, hs, hrecord⟩ := List.mem_flatMap.mp hrecord
    rw [sheetCells_eq] at hrecord
    obtain ⟨p, hp, rfl⟩ := List.mem_map.mp hrecord
    obtain ⟨hrow, hcol, href⟩ := s.record_place mode p
    exact ⟨p.1, p.2, _, hrow, hcol, href, parse_ref (hfits s hs) hp⟩
  · intro whole hwhole hsame hselects
    rw [hread, readRaw_eq hnames hwhole hselects, hsame, Feed.ofList, Feed.ofList, List.filter_flatMap]
    exact List.flatMap_congr fun s _ => sheetCells_filter s _ range?

def sumSheet (cached? : Option Value) (rest : List Cell) (merged : List Area) : Sheet where
  name := "Sum"
  cells := ⟨1, 1, .formula "=1+1" cached?, "General", none⟩ :: rest
  merged := merged

/-- A sheet with a computed sum, a merged area below it and a text outside the range. -/
def computedSheet : Sheet := sumSheet (some (.str "2")) [⟨3, 2, .text "far", "General", none⟩] [⟨2, 1, 2, 2⟩]

def computedBook : Book := ⟨[{ name := "Notes" }, computedSheet]⟩

theorem cells_reported_computed : readRaw [("range", .str "Sum!A1:B2")] computedBook =
      .ofList ([(1, 1), (2, 1), (2, 2)].map (computedSheet.record .computed)) ∧
    Reports computedSheet .computed (some ⟨some "Sum", some 1, some 2, some 1, some 2⟩) (computedSheet.Occupied .computed)
      ([(1, 1), (2, 1), (2, 2)].map (computedSheet.record .computed)) ∧
    (readRaw [("range", .str "Sum!A1:B2")] computedBook).items =
      (readRaw [("sheet", .int (-1))] computedBook).items.filter
        (recordIn (some ⟨some "Sum", some 1, some 2, some 1, some 2⟩)) := by
  have hrange : givenRange [("range", "Sum!A1:B2")] = .ok (some ⟨some "Sum", some 1, some 2, some 1, some 2⟩) := rfl
  have hselects : computedBook.Selects (some ⟨some "Sum", some 1, some 2, some 1, some 2⟩) .null [computedSheet] :=
    .ofRange (List.mem_of_getElem? (i := 1) rfl) rfl (by decide)
  have hfits : ∀ s ∈ [computedSheet], (s.gridIn .computed).height < 10 ^ mostDigits :=
    List.forall_mem_singleton.mpr
      (Nat.lt_of_lt_of_le (by decide : _ < 10 ^ 1) (Nat.pow_le_pow_right (by decide) (by decide)))
  obtain ⟨hread, hreports, -, hfilter⟩ := cells_reported_iff (by decide) hrange rfl hselects hfits
  have hkept : ∀ p, InRange (some ⟨some "Sum", some 1, some 2, some 1, some 2⟩) p → ¬ computedSheet.Lost .computed p := by
    rintro p - ⟨⟨c, hc, hformula⟩, hnull, -⟩
    rcases List.mem_pair.mp (List.mem_filter.mp (List.mem_of_find?_eq_some hc)).1 with rfl | rfl
    · rw [valueAt, hc] at hnull
      cases hnull
    · cases hformula
  have hlast : computedBook.Selects none (.int (-1)) [computedSheet] := .fromEnd (n := 0) rfl rfl
  exact ⟨hread, ((hreports _ (List.mem_singleton_self _)).2.1).mpr hkept, hfilter _ rfl rfl hlast⟩

/-- **A formula without computed value is lost**, the only cell of its sheet. -/
theorem formula_lost : (sumSheet none [] []).Occupied .computed (1, 1) ∧ readRaw [] ⟨[sumSheet none [] []]⟩ = .ofList [] ∧
      ¬ Reports (sumSheet none [] []) .computed none ((sumSheet none [] []).Occupied .computed) [] := by
  have hoccupied : (sumSheet none [] []).Occupied .computed (1, 1) := .inr (.inl ⟨_, rfl, rfl⟩)
  refine ⟨hoccupied, rfl, ?_⟩
  rintro ⟨places, hplaces, -, hmem⟩
  obtain rfl := List.map_eq_nil_iff.mp hplaces.symm
  cases (hmem (1, 1)).mpr ⟨⟨le_refl _, le_refl _, rfl⟩, hoccupied⟩

end Sluice.Workbook
