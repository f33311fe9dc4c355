import Sluice.Proofs.Table.Bars

/-!
# Tables of pages, row by row

The collector is followed through the events of a table (`foldl_cells`, `foldl_row`). The names of a record are those
that came **last**.
-/

namespace Sluice.Table

open List Text Html

/-- An event that does not belong to a table. -/
def IsLoose : Event → Prop
  | .start tag | .finish tag => tag ∉ ["table", "tr", "td", "th"]
  | .text _ => True

def IsGap (es : List Event) : Prop := ∀ e ∈ es, IsLoose e

def chars : Event → Chars
  | .text s => s
  | _ => []

def element (tag : String) (inside : List Event) : List Event := .start tag :: (inside ++ [.finish tag])

def Encloses (tag : String) (inner : List Event → Prop) (es : List Event) : Prop := ∃ inside, inner inside ∧ es = element tag inside

/-- Things that are shown one after another, with gaps between them. -/
inductive Spread {α : Type} (shows : α → List Event → Prop) : List α → List Event → Prop
  | nil {gap : List Event} (hgap : IsGap gap) : Spread shows [] gap
  | cons {gap es rest : List Event} {a : α} {as : List α} (hgap : IsGap gap) (ha : shows a es)
    (hrest : Spread shows as rest) : Spread shows (a :: as) (gap ++ (es ++ rest))

structure PageCell where
  isHeader : Bool
  text : String

def ShowsCell (c : PageCell) : List Event → Prop :=
  Encloses (if c.isHeader then "th" else "td") fun es => IsGap es ∧ c.text = String.ofList (strip (es.flatMap chars))

def ShowsRow (cells : List PageCell) : List Event → Prop := Encloses "tr" (Spread ShowsCell cells)

def ShowsTable (rows : List (List PageCell)) : List Event → Prop := Encloses "table" (Spread ShowsRow rows)

def texts (cells : List PageCell) : List String := cells.map (·.text)

def isTitled (cells : List PageCell) : Bool := cells.any (·.isHeader)

/-! ## Following the collector -/

variable {α : Type} {ts : List (List (List PageCell))}

namespace Collector

variable {s : Collector} {es : List Event} {rows : List (List String)} {bodies : List (List Nat)} {headers? : Option Nat}
  {tables : List PageTable}

lemma step_loose {e} (h : IsLoose e) : s.step e = if s.inCell then { s with cell := s.cell ++ chars e } else s := by
  cases e with
  | text => rfl
  | start tag | finish tag =>
    simp only [IsLoose, mem_cons, not_or] at h
    simp [step, start, finish, chars, h]

lemma foldl_gap (h : IsGap es) :
    es.foldl step s = if s.inCell then { s with cell := s.cell ++ es.flatMap chars } else s := by
  induction es generalizing s with
  | nil => simp
  | cons e es ih =>
    obtain ⟨he, hes⟩ := forall_mem_cons.mp h
    rw [foldl_cons, step_loose he, ih hes]
    split <;> simp_all

/-- In a row, between its cells. -/
def inside (s : Collector) (row : List String) (isHeader : Bool) : Collector :=
  { s with rows := row :: s.rows, inRow := true, inCell := false, cell := [], inHeader := isHeader }

lemma foldl_cell {c} (h : ShowsCell c es) (row isHeader) :
    es.foldl step (s.inside row isHeader) = s.inside (row ++ [c.text]) (isHeader || c.isHeader) := by
  obtain ⟨_, ⟨hg, ht⟩, rfl⟩ := h
  rw [element, foldl_cons, foldl_append, foldl_gap hg, ht]
  cases c.isHeader <;> simp [step, start, finish, endCell, inside]

variable {cells : List PageCell}

/-- **The cells of a row** are put together. -/
lemma foldl_cells (h : Spread ShowsCell cells es) (row isHeader) :
    es.foldl step (s.inside row isHeader) = s.inside (row ++ texts cells) (isHeader || isTitled cells) := by
  induction h generalizing row isHeader with
  | nil hg =>
    rw [foldl_gap hg]
    simp [inside, texts, isTitled]
  | cons hg ha _ ih =>
    rw [foldl_append, foldl_append, foldl_gap hg, if_neg (by simp [inside]), foldl_cell ha, ih]
    simp [texts, isTitled, Bool.or_assoc]

variable {body : List Nat}

/-- **A row with a header cell** names the columns, and any other row is kept. -/
lemma foldl_row (h : ShowsRow cells es) (hne : cells ≠ []) :
    es.foldl step { rows, bodies := body :: bodies, headers?, tables, inTable := true } =
      { rows := texts cells :: rows, bodies := (if isTitled cells then body else rows.length :: body) :: bodies
        headers? := if isTitled cells then some rows.length else headers?, tables, inTable := true } := by
  obtain ⟨_, hc, rfl⟩ := h
  have hs : step { rows, bodies := body :: bodies, headers?, tables, inTable := true } (.start "tr") =
      inside { rows, bodies := body :: bodies, headers?, tables, inTable := true } [] false := rfl
  obtain ⟨c, cells, rfl⟩ := exists_cons_of_ne_nil hne
  rw [element, foldl_cons, foldl_append, hs, foldl_cells hc]
  cases ht : isTitled (c :: cells) <;> simp [step, finish, endRow, inside, texts]

/-- The numbers of the rows with a property, counted from a number on. -/
def numbers (p : List PageCell → Bool) (n : Nat) (rs : List (List PageCell)) : List Nat :=
  ((rs.zipIdx n).filter (p ·.1)).map (·.2)

lemma numbers_cons (p n r rs) :
    numbers p n (r :: rs) = if p r then n :: numbers p (n + 1) rs else numbers p (n + 1) rs := by
  rw [numbers, zipIdx_cons, filter_cons]
  split <;> simp [numbers]

variable {rs : List (List PageCell)}

lemma foldl_rows (h : Spread ShowsRow rs es) (hne : ∀ r ∈ rs, r ≠ []) :
    es.foldl step { rows, bodies := body :: bodies, headers?, tables, inTable := true } =
      { rows := (rs.map texts).reverse ++ rows
        bodies := ((numbers (!isTitled ·) rows.length rs).reverse ++ body) :: bodies
        headers? := (numbers isTitled rows.length rs).getLast?.or headers?, tables, inTable := true } := by
  induction h generalizing rows body headers? with
  | nil hg =>
    rw [foldl_gap hg]
    rfl
  | @cons _ _ _ r rs hg hr _ ih =>
    obtain ⟨hf, hre⟩ := forall_mem_cons.mp hne
    rw [foldl_append, foldl_append, foldl_gap hg, if_neg Bool.false_ne_true, foldl_row hr hf, ih hre]
    cases ht : isTitled r <;> simp [numbers_cons, ht, getLast?_cons]

/-- Between tables. -/
def IsAtRest (s : Collector) : Prop := s = { rows := s.rows, bodies := s.bodies, headers? := s.headers?, tables := s.tables }

def afterTable (s : Collector) (rs : List (List PageCell)) : Collector where
  rows := (rs.map texts).reverse ++ s.rows
  bodies := [(numbers (!isTitled ·) s.rows.length rs).reverse] ++ s.bodies
  headers? := (numbers isTitled s.rows.length rs).getLast?
  tables := (if numbers (!isTitled ·) s.rows.length rs = [] then []
    else [⟨(numbers isTitled s.rows.length rs).getLast?, s.bodies.length⟩]) ++ s.tables

lemma foldl_table (hs : s.IsAtRest) (h : ShowsTable rs es) (hne : ∀ r ∈ rs, r ≠ []) : es.foldl step s = s.afterTable rs := by
  obtain ⟨_, hr, rfl⟩ := h
  have hst : s.step (.start "table") = { rows := s.rows, bodies := [] :: s.bodies, tables := s.tables, inTable := true } := by
    rw [hs]
    rfl
  rw [element, foldl_cons, foldl_append, hst, foldl_rows hr hne, afterTable]
  by_cases hn : numbers (!isTitled ·) s.rows.length rs = []
  · simp [step, finish, endTable, hn]
  · obtain ⟨n, ns, _⟩ := exists_cons_of_ne_nil (mt reverse_eq_nil_iff.mp hn)
    simp [step, finish, endTable, hn]

/-! ## Records -/

section Stable

variable {s' : Collector} {more : List (List String)} {others : List (List Nat)} {n : Nat}

lemma getD_reverse {l more : List α} (h : n < l.length) (a) : (more ++ l).reverse.getD n a = l.reverse.getD n a := by
  rw [reverse_append, getD_eq_getElem?_getD, getElem?_append_left (by simpa using h), getD_eq_getElem?_getD]

lemma row_stable (hr : s'.rows = more ++ s.rows) (h : n < s.rows.length) : s'.row n = s.row n := by
  rw [row, row, hr, getD_reverse h]

/-- What a finished table refers to is there. -/
structure Bounded (s : Collector) (t : PageTable) : Prop where
  body : t.body < s.bodies.length
  headers : ∀ n ∈ t.headers?, n < s.rows.length
  rows : ∀ n ∈ s.bodies.reverse.getD t.body [], n < s.rows.length

/-- **Finished tables** stay as they are. -/
lemma Bounded.stable {t} (h : s.Bounded t) (hr : s'.rows = more ++ s.rows)
    (hb : s'.bodies = others ++ s.bodies) : s'.Bounded t ∧ s'.tableRecords t = s.tableRecords t := by
  have hbo : s'.bodies.reverse.getD t.body [] = s.bodies.reverse.getD t.body [] := by rw [hb, getD_reverse h.body]
  have hl : s.rows.length ≤ s'.rows.length := by simp [hr]
  refine ⟨⟨by simp [hb]; have := h.body; omega, fun n hn => Nat.lt_of_lt_of_le (h.headers n hn) hl, ?_⟩, ?_⟩
  · rw [hbo]
    exact fun n hn => Nat.lt_of_lt_of_le (h.rows n hn) hl
  · have hh : t.headers?.map s'.row = t.headers?.map s.row := by
      cases ht : t.headers? with
      | none => rfl
      | some n => rw [Option.map_some, Option.map_some, row_stable hr (h.headers n ht)]
    simp only [tableRecords, hbo, hh]
    congr 1
    exact map_congr_left fun n hn => row_stable hr (h.rows n (mem_reverse.mp hn))

end Stable

variable {p : List PageCell → Bool} {rs : List (List PageCell)}

lemma row_of_mem_numbers (hro : s.rows = (rs.map texts).reverse ++ rows) :
    (numbers p rows.length rs).map s.row = (rs.filter p).map texts ∧ ∀ n ∈ numbers p rows.length rs, n < s.rows.length := by
  have hp : ∀ r n, (r, n) ∈ rs.zipIdx rows.length → s.row n = texts r ∧ n < s.rows.length := by
    intro r n hm
    obtain ⟨hle, hr⟩ := mk_mem_zipIdx_iff_le_and_getElem?_sub.mp hm
    have hlt := (List.getElem?_eq_some_iff.mp hr).1
    refine ⟨?_, by simp [hro]; omega⟩
    rw [row, hro, reverse_append, getD_eq_getElem?_getD, getElem?_append_right (by simpa using hle)]
    simp [hr]
  constructor
  · calc (numbers p rows.length rs).map s.row
        = ((rs.zipIdx rows.length).filter (p ·.1)).map fun x => texts x.1 := by
          rw [numbers, map_map]
          exact map_congr_left fun x hx => (hp x.1 x.2 (mem_filter.mp hx).1).1
      _ = (((rs.zipIdx rows.length).map Prod.fst).filter p).map texts := by rw [filter_map, map_map]; rfl
      _ = (rs.filter p).map texts := by rw [zipIdx_map_fst]
  · intro n hn
    obtain ⟨x, hx, rfl⟩ := mem_map.mp hn
    exact (hp x.1 x.2 (mem_filter.mp hx).1).2

/-- The records of a table: one for each row without header cells, with the names that came last. -/
def valuesOf (rs : List (List PageCell)) : List Value :=
  ((rs.filter (!isTitled ·)).map texts).filterMap (rowRecord? (((rs.filter isTitled).map texts).getLast?.getD []))

/-- **The records after a table** are those before it and its own. -/
lemma records_afterTable (rs) (h : ∀ t ∈ s.tables, s.Bounded t) :
    (s.afterTable rs).records = s.records ++ valuesOf rs ∧ ∀ t ∈ (s.afterTable rs).tables, (s.afterTable rs).Bounded t := by
  obtain ⟨hp, hl⟩ := row_of_mem_numbers (s := s.afterTable rs) (p := (!isTitled ·)) rfl
  obtain ⟨hti, hto⟩ := row_of_mem_numbers (s := s.afterTable rs) (p := isTitled) rfl
  have hold : ∀ t ∈ s.tables, (s.afterTable rs).Bounded t ∧ (s.afterTable rs).tableRecords t = s.tableRecords t :=
    fun t ht => (h t ht).stable rfl rfl
  have hr : s.tables.reverse.flatMap (s.afterTable rs).tableRecords = s.records :=
    flatMap_congr fun t ht => (hold t (mem_reverse.mp ht)).2
  have hb : (s.afterTable rs).bodies.reverse.getD s.bodies.length [] = (numbers (!isTitled ·) s.rows.length rs).reverse := by
    simp [afterTable]
  have hta : (s.afterTable rs).tables = _ ++ s.tables := rfl
  rw [records, hta, reverse_append, flatMap_append, hr]
  by_cases hno : numbers (!isTitled ·) s.rows.length rs = []
  · rw [hno] at hp
    rw [if_pos hno, valuesOf, ← hp]
    exact ⟨rfl, fun t ht => (hold t ht).1⟩
  · rw [if_neg hno]
    refine ⟨congrArg (s.records ++ ·) ?_,
      forall_mem_cons.mpr ⟨⟨by simp [afterTable], fun n hn => hto n (mem_of_getLast? hn), ?_⟩, fun t ht => (hold t ht).1⟩⟩
    · simp only [reverse_singleton, flatMap_cons, flatMap_nil, append_nil, tableRecords, hb, reverse_reverse, hp,
        valuesOf, ← getLast?_map, hti]
    · rw [hb]
      exact fun n hn => hl n (mem_reverse.mp hn)

/-- **The records of a page** are those of its tables. -/
lemma records_foldl (h : Spread ShowsTable ts es) (hne : ∀ rs ∈ ts, ∀ r ∈ rs, r ≠ [])
    (hs : s.IsAtRest) (hb : ∀ t ∈ s.tables, s.Bounded t) :
    (es.foldl step s).records = s.records ++ ts.flatMap valuesOf := by
  have hc : ¬ s.inCell = true := by rw [hs]; exact Bool.false_ne_true
  induction h generalizing s with
  | nil hg => rw [foldl_gap hg, if_neg hc, flatMap_nil, append_nil]
  | @cons _ _ _ rs ts hg hrs _ ih =>
    obtain ⟨hf, hre⟩ := forall_mem_cons.mp hne
    obtain ⟨hr, hl⟩ := records_afterTable rs hb
    rw [foldl_append, foldl_append, foldl_gap hg, if_neg hc, foldl_table hs hrs hf,
      ih (s := s.afterTable rs) hre rfl hl Bool.false_ne_true, hr, flatMap_cons, append_assoc]

end Collector

/-- A table as it should be: names in header cells, and then rows. -/
structure TitledTable where
  names : List String
  rows : List (List PageCell)

namespace TitledTable

def cells (t : TitledTable) : List (List PageCell) := t.names.map (⟨true, ·⟩) :: t.rows

def records (t : TitledTable) : List Value := t.rows.map fun r => rowRecord t.names (texts r)

structure IsWhole (t : TitledTable) : Prop where
  named : t.names ≠ []
  width : ∀ r ∈ t.rows, r.length = t.names.length

/-- The names that count in the end are as many as those in the first row. -/
lemma IsWhole.valuesOf_cells {t : TitledTable} (h : t.IsWhole) :
    ∃ names : List String, ((∀ r ∈ t.rows, isTitled r = false) → names = t.names) ∧
      Collector.valuesOf t.cells = (t.rows.filter (!isTitled ·)).map fun r => rowRecord names (texts r) := by
  have hto : isTitled (t.names.map (⟨true, ·⟩)) = true := by
    obtain ⟨n, names, hn⟩ := exists_cons_of_ne_nil h.named
    simp [isTitled, hn]
  have ht : texts (t.names.map (⟨true, ·⟩)) = t.names := by simp [texts, Function.comp_def]
  have hw : ∀ r ∈ t.rows, (texts r).length = t.names.length := fun r hr => by rw [texts, length_map, h.width r hr]
  rw [Collector.valuesOf, cells, filter_cons_of_pos hto, filter_cons_of_neg (by simp [hto]), map_cons, ht, getLast?_cons,
    Option.getD_some]
  refine ⟨((t.rows.filter isTitled).map texts).getLast?.getD t.names, fun hp => ?_, ?_⟩
  · rw [filter_eq_nil_iff.mpr (by simpa using hp)]
    rfl
  · have hl : (((t.rows.filter isTitled).map texts).getLast?.getD t.names).length = t.names.length := by
      cases hla : ((t.rows.filter isTitled).map texts).getLast? with
      | none => rfl
      | some last =>
        obtain ⟨r, hr, rfl⟩ := mem_map.mp (mem_of_getLast? hla)
        exact hw r (mem_filter.mp hr).1
    generalize ((t.rows.filter isTitled).map texts).getLast?.getD t.names = names at hl ⊢
    rw [filterMap_map, ← filterMap_eq_map]
    refine filterMap_congr fun r hr => ?_
    have hf : names.length ≤ (texts r).length := by rw [hl, hw r (mem_filter.mp hr).1]
    rw [Function.comp_apply, Function.comp_apply, rowRecord?, if_pos hf, rowRecord, zip_map_right (f := cellValue)]
    rfl

end TitledTable

/-- **When a page is read row by row.** A page with tables that have names in header cells and rows as wide gives one
record for each row exactly if no row has a header cell. -/
theorem page_records_iff {tables : List TitledTable} {events : List Event}
    (hpage : Spread ShowsTable (tables.map (·.cells)) events) (hwhole : ∀ t ∈ tables, t.IsWhole) :
    eventRecords events = tables.flatMap (·.records) ↔ ∀ t ∈ tables, ∀ r ∈ t.rows, isTitled r = false := by
  have hcells : ∀ rs ∈ tables.map (·.cells), ∀ r ∈ rs, r ≠ [] := by
    refine List.forall_mem_map.mpr fun t ht => List.forall_mem_cons.mpr ⟨by simpa using (hwhole t ht).named, fun r hr hnil => ?_⟩
    have hwidth := (hwhole t ht).width r hr
    rw [hnil, List.length_nil, eq_comm, List.length_eq_zero_iff] at hwidth
    exact (hwhole t ht).named hwidth
  have hrecords : eventRecords events = (tables.map (·.cells)).flatMap Collector.valuesOf :=
    Collector.records_foldl hpage hcells rfl (by simp)
  rw [hrecords, List.flatMap_map]
  constructor
  · intro heq
    have hkept : ((tables.flatMap (·.rows)).filter (!isTitled ·)).length = (tables.flatMap (·.rows)).length := by
      have hlength := congrArg List.length heq
      have hvalues : tables.map (fun t => (Collector.valuesOf t.cells).length) =
          tables.map fun t => (t.rows.filter (!isTitled ·)).length := by
        refine List.map_congr_left fun t ht => ?_
        obtain ⟨names, -, hvalues⟩ := (hwhole t ht).valuesOf_cells
        rw [hvalues, List.length_map]
      simpa [List.length_flatMap, List.filter_flatMap, hvalues, TitledTable.records] using hlength
    intro t ht r hr
    simpa using List.length_filter_eq_length_iff.mp hkept r (List.mem_flatMap.mpr ⟨t, ht, hr⟩)
  · intro hplain
    refine List.flatMap_congr fun t ht => ?_
    obtain ⟨names, hnames, hvalues⟩ := (hwhole t ht).valuesOf_cells
    rw [hvalues, hnames (hplain t ht), List.filter_eq_self.mpr (by simpa using hplain t ht), TitledTable.records]

def cellEvents (c : PageCell) : List Event := element (if c.isHeader then "th" else "td") [.text c.text.toList]

def tableEvents (rows : List (List PageCell)) : List Event :=
  element "table" (rows.flatMap fun r => element "tr" (r.flatMap cellEvents))

lemma spread_flatMap {shows f} {as : List α} (h : ∀ a ∈ as, shows a (f a)) : Spread shows as (as.flatMap f) := by
  have hg : IsGap [] := by simp [IsGap]
  induction as with
  | nil => exact .nil hg
  | cons a as ih =>
    obtain ⟨ha, has⟩ := forall_mem_cons.mp h
    exact .cons hg ha (ih has)

lemma spread_tableEvents
    (h : ∀ rs ∈ ts, ∀ r ∈ rs, ∀ c ∈ r, strip c.text.toList = c.text.toList) : Spread ShowsTable ts (ts.flatMap tableEvents) := by
  refine spread_flatMap fun rs hrs => ⟨_, spread_flatMap fun r hr => ⟨_, spread_flatMap fun c hc => ?_, rfl⟩, rfl⟩
  exact ⟨_, ⟨by simp [IsGap, IsLoose], by simp [chars, h rs hrs r hr c hc]⟩, rfl⟩

/-- A table with one row, which may begin with a label. -/
def labelled (isHeader : Bool) : TitledTable := ⟨["k", "a"], [[⟨isHeader, "x"⟩, ⟨false, "1"⟩]]⟩

theorem page_records_plain :
    eventRecords ([(labelled false).cells].flatMap tableEvents) = [.map [("k", .str "x"), ("a", .int 1)]] := by
  have hwhole : ∀ t ∈ [labelled false], t.IsWhole := forall_mem_singleton.mpr ⟨by simp [labelled], by simp [labelled]⟩
  exact (page_records_iff (spread_tableEvents (by decide +kernel)) hwhole).mpr (by decide)

/-- **A row with a label in a header cell** has no record: its cells become the names. -/
theorem page_records_label : eventRecords ([(labelled true).cells].flatMap tableEvents) = [] := rfl

end Sluice.Table
