import Sluice.Proofs.Machine.Session
import Sluice.Proofs.Table.Layout
import Sluice.Proofs.Value.Fields

/-!
# Tables between bars

Both readers match the headers that are not blank with the cells of each row from the left (`Kind.records_eq`).
-/

namespace Sluice.Table

open List Text Fields Act
open String (ofList toList)

variable {k : Kind} {s : Session} {text line : String} {cells headers : List String} {rows : List (List String)}
  {names : List String}

/-! ## Lines of cells -/

def barred (cells : List String) : String := "|" ++ S.join "|" cells ++ "|"

lemma barred_toList (cells) : (barred cells).toList = '|' :: (join ['|'] (cells.map toList) ++ ['|']) := by
  simp [barred, S.join]

/-- The characters that part the cells of a line. -/
def Kind.bars : Kind → Char → Bool
  | .pipe => isPipe
  | _ => isBar

lemma Kind.not_bars {p : Char → Bool} {c} (h : p c) (hp : p '|' = false ∧ p '│' = false) (k : Kind) : k.bars c = false := by
  rw [← Bool.not_eq_true]
  intro hb
  have hc : c = '|' ∨ c = '│' := by cases k <;> simp_all [bars, isPipe, isBar]
  rcases hc with rfl | rfl <;> simp_all

lemma Kind.bars_of_blank (k : Kind) {c} (h : isBlank c) : k.bars c = false := not_bars h (by decide) k

lemma Kind.bars_bar (k : Kind) : k.bars '|' := by cases k <;> rfl

/-- Whether a line holds headers or values of a table, and is not passed over. -/
def Kind.holds : Kind → String → Bool
  | .pipe => fun l => l.toList.any isPipe
  | _ => holdsCells

/-- A line that shows these cells, perhaps with blanks outside of its bars. -/
structure Framed (k : Kind) (cells : List String) (line : String) : Prop where
  strip_eq : S.strip line = barred cells
  ne_nil : cells ≠ []
  no_bar : ∀ c ∈ cells, ∀ d ∈ c.toList, k.bars d = false

def named (headers : List String) : List String := (headers.map S.strip).filter (· != "")

/-- Whether all that a row holds are the marks of a line that divides rows. -/
def isMarks (cells : List String) : Bool :=
  cells != [""] && cells.all fun c => c.toList.all fun d => isBlank d || d == '-' || d == ':'

/-- The names with the values of the cells below them. -/
def rowRecord (names cells : List String) : Value := .map (ofPairs (names.zip (cells.map cellValue)))

lemma rowRecord_strip (names cells) : rowRecord names (cells.map S.strip) = rowRecord names cells := by
  simp [rowRecord, Function.comp_def, cellValue_strip]

lemma stripEdges_between (values) : stripEdges ("" :: values ++ [""]) = values := by simp [stripEdges]

lemma all_join {p sep} (hs : p sep) (pieces) : (join [sep] pieces).all p = pieces.all (·.all p) := by
  induction pieces with
  | nil => rfl
  | cons a pieces ih =>
    cases pieces with
    | nil => simp [join]
    | cons b pieces =>
      rw [join, all_append, ih]
      simp [hs]

namespace Framed

lemma strip_toList (h : Framed k cells line) : strip line.toList = '|' :: (join ['|'] (cells.map toList) ++ ['|']) := by
  rw [← barred_toList, ← h.strip_eq, S.strip, String.toList_ofList]

lemma strip (h : Framed k cells line) : Framed k cells (S.strip line) :=
  { h with strip_eq := by rw [S.strip_strip, h.strip_eq] }

lemma cellsBy_eq (h : Framed k cells line) : cellsBy k.bars line = "" :: cells.map S.strip ++ [""] := by
  obtain ⟨a, b, ha, hb, hl⟩ := exists_trim_around isBlank line.toList
  have hs : splitWhere k.bars line.toList = a :: cells.map toList ++ [b] := by
    have hce : splitWhere k.bars (join ['|'] (cells.map toList)) = cells.map toList :=
      splitWhere_join k.bars_bar (by simpa using h.ne_nil) (by simpa using h.no_bar)
    rw [hl, ← Text.strip, h.strip_toList, cons_append, List.append_assoc, singleton_append,
      splitWhere_cut k.bars_bar, splitWhere_cut k.bars_bar, hce, splitWhere_of_none fun c hc => k.bars_of_blank (ha c hc),
      splitWhere_of_none fun c hc => k.bars_of_blank (hb c hc)]
    rfl
  rw [cellsBy, hs]
  simp [Text.strip, trim_eq_nil ha, trim_eq_nil hb, S.strip]

lemma headersBy_eq (h : Framed k cells line) : headersBy k.bars line = named cells := by
  rw [headersBy, h.cellsBy_eq, named]
  simp

lemma rowRecord?_eq (h : Framed k cells line) (names) : rowRecord? names (stripEdges (cellsBy k.bars line)) =
      if names.length ≤ cells.length then some (rowRecord names cells) else none := by
  rw [h.cellsBy_eq, stripEdges_between, rowRecord?, length_map, ← rowRecord_strip, rowRecord, zip_map_right (f := cellValue)]
  rfl

lemma isDivider_eq (h : Framed k cells line) : isDivider line = isMarks cells := by
  have hp : ∀ c ∈ cells, ∀ d ∈ c.toList, (d == '|') = false := by
    intro c hc d hd
    rw [beq_eq_false_iff_ne]
    rintro rfl
    exact absurd k.bars_bar (by simp [h.no_bar c hc '|' hd])
  have ha : (join ['|'] (cells.map toList)).all (fun d => isBlank d || d == '-' || d == ':' || d == '|') =
      cells.all fun c => c.toList.all fun d => isBlank d || d == '-' || d == ':' := by
    rw [all_join (by decide), all_map]
    refine Bool.eq_iff_iff.mpr ?_
    simp only [all_eq_true, Function.comp_apply]
    exact forall₂_congr fun c hc => forall₂_congr fun d hd => by rw [hp c hc d hd, Bool.or_false]
  have hl : 3 ≤ (join ['|'] (cells.map toList)).length + 1 + 1 ↔ cells ≠ [""] := by
    obtain ⟨c, r, rfl⟩ := exists_cons_of_ne_nil h.ne_nil
    cases r with
    | nil =>
      rw [map_singleton, join, Ne, singleton_inj, ← String.toList_eq_nil_iff, ← length_eq_zero_iff]
      omega
    | cons d r =>
      refine iff_of_true ?_ (by simp)
      simp only [map_cons, join, length_append, length_singleton]
      omega
  have hm : decide (3 ≤ (join ['|'] (cells.map toList)).length + 1 + 1) = (cells != [""]) := by
    rw [Bool.eq_iff_iff, decide_eq_true_iff, bne_iff_ne, hl]
  simp only [isDivider, h.strip_toList, length_cons, length_append, length_nil, hm,
    getLast?_concat, beq_self_eq_true, Bool.and_true, dropLast_concat, ha, isMarks]

lemma holds (h : Framed k cells line) : k.holds line := by
  have hs : '|' ∈ Text.strip line.toList := h.strip_toList ▸ .head _
  have hm : '|' ∈ line.toList := ( trim_infix _).subset hs
  have hr : isRuling line = false := all_eq_false.mpr ⟨'|', hm, by decide⟩
  have hb : line.toList.any k.bars := any_eq_true.mpr ⟨'|', hm, k.bars_bar⟩
  cases k with
  | pipe => exact hb
  | grid | page => exact Bool.and_eq_true_iff.mpr ⟨by rw [hr]; rfl, hb⟩

end Framed

/-! ## Reading lines -/

def Kind.records : Kind → List String → List Value
  | .pipe => pipeRecords
  | _ => gridRecords

/-- Whether a row has a record in a table of this kind. -/
def Kind.takes (k : Kind) (names cells : List String) : Bool :=
  !names.isEmpty && (k != .pipe || !isMarks cells) && names.length ≤ cells.length

open Kind

variable {lines : List String}

lemma filterMap_framed {read} (h : List.Forall₂ (Framed k) rows lines)
    (hr : ∀ {cells line}, names ≠ [] → Framed k cells line →
      read line = if k.takes names cells then some (rowRecord names cells) else none) :
    (if names = [] then [] else lines.filterMap read) = (rows.filter (k.takes names)).map (rowRecord names) := by
  by_cases hn : names = []
  · have hno : rows.filter (k.takes names) = [] := filter_eq_nil_iff.mpr (by simp [takes, hn])
    rw [if_pos hn, hno, map_nil]
  · rw [if_neg hn]
    induction h with
    | nil => rfl
    | @cons cells line rows lines hl _ ih =>
      rw [filterMap_cons, hr hn hl, ih, filter_cons]
      cases k.takes names cells <;> rfl

lemma exists_dropWhile_of_filter {α : Type} {p} {l rest : List α} {a} (h : l.filter p = a :: rest) :
    ∃ tail, l.dropWhile (!p ·) = a :: tail ∧ tail.filter p = rest := by
  induction l with
  | nil => cases h
  | cons b l ih =>
    by_cases hb : p b
    · rw [filter_cons_of_pos hb] at h
      obtain ⟨rfl, hr⟩ := List.cons.inj h
      exact ⟨l, by simp [hb], hr⟩
    · rw [filter_cons_of_neg hb] at h
      obtain ⟨tail, ht, hr⟩ := ih h
      exact ⟨tail, by simp [hb, ht], hr⟩

/-- **Both readers match names and cells from the left**; lines that divide rows make no records of a pipe table. -/
lemma Kind.records_eq (h : List.Forall₂ (Framed k) (headers :: rows) (lines.filter k.holds)) :
    k.records lines = (rows.filter (k.takes (named headers))).map (rowRecord (named headers)) := by
  generalize hf : lines.filter k.holds = shown at h
  cases h with
  | @cons _ header _ rest hh hre =>
    have hn := hh.headersBy_eq
    cases k with
    | pipe =>
      obtain ⟨tail, hta, ht⟩ := exists_dropWhile_of_filter hf
      have hs : lines.dropWhile (!·.toList.any isPipe) = header :: tail := hta
      have hro : tail.filter (fun l => l.toList.any isPipe && !isDivider l) = rest.filter (!isDivider ·) := by
        rw [← ht, filter_filter]
        exact filter_congr fun l _ => Bool.and_comm ..
      simp only [bars] at hn
      simp only [records, pipeRecords, hs, hn, List.isEmpty_iff, hro]
      rw [filterMap_filter]
      refine filterMap_framed hre fun {cells _} hna hl => ?_
      have hr := hl.strip.rowRecord?_eq (named headers)
      simp only [bars] at hr
      rw [hl.isDivider_eq, hr]
      cases hm : isMarks cells <;> simp [takes, hna, hm]
    | grid | page =>
      simp only [bars] at hn
      simp only [holds] at hf
      simp only [records, gridRecords, hf, hn, List.isEmpty_iff]
      refine filterMap_framed hre fun {cells _} hna hl => ?_
      have hr := hl.rowRecord?_eq (named headers)
      simp only [bars] at hr
      rw [hr]
      simp [takes, hna]

lemma strip_barred (cells) : S.strip (barred cells) = barred cells := by
  rw [S.strip, barred_toList, strip_of_ends (by decide) (by decide), ← barred_toList, String.ofList_toList]

lemma framed_barred (h : ∀ r ∈ rows, r ≠ [] ∧ ∀ c ∈ r, ∀ d ∈ c.toList, k.bars d = false) :
    List.Forall₂ (Framed k) rows ((rows.map barred).filter k.holds) := by
  have hf : ∀ r ∈ rows, Framed k r (barred r) := fun r hr => ⟨strip_barred r, (h r hr).1, (h r hr).2⟩
  have hh : (rows.map barred).filter k.holds = rows.map barred :=
    filter_eq_self.mpr (forall_mem_map.mpr fun r hr => (hf r hr).holds)
  rw [hh, forall₂_map_right_iff, forall₂_same]
  exact hf

def Kind.name : Kind → String
  | .pipe => "pipe"
  | .grid => "grid"
  | .page => "html"

lemma outcome_readInput_name (hk : k ≠ .page) (hi : streamInput.outcome s = (.ok (text, none), s)) :
    (readInput (.str k.name)).outcome s = (.ok (.ofList (k.records (S.lines text))), s) := by
  rw [readInput, bind_of_ok hi]
  cases k with
  | pipe | grid => rfl
  | page => exact absurd rfl hk

lemma outcome_streamInput_lines {lines} (hne : lines ≠ []) (hb : ∀ line ∈ lines, ∀ c ∈ line, c ≠ '\n' ∧ c ≠ '\r')
    (hi : s.input = .text (ofList (join ['\n'] lines) ++ "\n")) :
    ∃ text, streamInput.outcome s = (.ok (text, none), s) ∧ S.lines text = lines.map ofList := by
  have ht : (ofList (join ['\n'] lines) ++ "\n").toList = join ['\n'] lines ++ ['\n'] := by
    rw [String.toList_append, String.toList_ofList]
    rfl
  refine ⟨_, outcome_streamInput hi fun hm => ?_, ?_⟩
  · rw [ht, mem_append] at hm
    rcases hm with hm | hm
    · rcases mem_join hm with hm | ⟨line, hl, hm⟩
      · exact absurd hm (by decide)
      · exact (hb line hl _ hm).2 rfl
    · exact absurd hm (by decide)
  · rw [S.lines, ht, lines_join hne fun line hl hm => (hb line hl _ hm).1 rfl]

section

variable {p : Char → Prop}

lemma forall_mem_barred (hb : p '|') (h : ∀ r ∈ rows, ∀ c ∈ r, ∀ d ∈ c.toList, p d) :
    ∀ l ∈ rows.map (fun r => (barred r).toList), ∀ d ∈ l, p d := by
  intro l hl d hd
  obtain ⟨r, hr, rfl⟩ := mem_map.mp hl
  rw [barred_toList, mem_cons, mem_append, mem_singleton] at hd
  rcases hd with rfl | hd | rfl
  · exact hb
  · rcases mem_join hd with hd | ⟨_, hp, hd⟩
    · exact mem_singleton.mp hd ▸ hb
    · obtain ⟨c, hc, rfl⟩ := mem_map.mp hp
      exact h r hr c hc d hd
  · exact hb

def barredText (rows : List (List String)) : String := S.join "\n" (rows.map barred)

lemma barredText_toList (rows) : (barredText rows).toList = join ['\n'] (rows.map fun r => (barred r).toList) := by
  simp [barredText, S.join, Function.comp_def]

lemma forall_mem_barredText (hb : p '\n') (hba : p '|') (h : ∀ r ∈ rows, ∀ c ∈ r, ∀ d ∈ c.toList, p d) :
    ∀ d ∈ (barredText rows).toList, p d := by
  intro d hd
  rw [barredText_toList] at hd
  rcases mem_join hd with hd | ⟨l, hl, hd⟩
  · exact mem_singleton.mp hd ▸ hb
  · exact forall_mem_barred hba h l hl d hd

end

/-- The characters of a cell on a line. -/
def Kind.allows (k : Kind) (d : Char) : Bool := !k.bars d && d != '\n' && d != '\r'

lemma framed_of_allowed (h : ∀ r ∈ rows, r ≠ [] ∧ ∀ c ∈ r, c.toList.all k.allows) :
    List.Forall₂ (Framed k) rows ((rows.map barred).filter k.holds) := by
  refine framed_barred fun r hr => ⟨(h r hr).1, fun c hc d hd => ?_⟩
  have ha := all_eq_true.mp ((h r hr).2 c hc) d hd
  simp only [allows, Bool.and_eq_true, Bool.not_eq_true'] at ha
  exact ha.1.1

/-- **Rows of cells without line breaks** can be given on standard input. -/
lemma exists_input (hne : rows ≠ []) (h : ∀ r ∈ rows, ∀ c ∈ r, c.toList.all k.allows) :
    ∃ (s : Session) (text : String), streamInput.outcome s = (.ok (text, none), s) ∧ S.lines text = rows.map barred := by
  have hb : ∀ r ∈ rows, ∀ c ∈ r, ∀ d ∈ c.toList, d ≠ '\n' ∧ d ≠ '\r' := by
    intro r hr c hc d hd
    have ha := all_eq_true.mp (h r hr c hc) d hd
    simp only [allows, Bool.and_eq_true, bne_iff_ne] at ha
    exact ⟨ha.1.2, ha.2⟩
  obtain ⟨text, hi, hl⟩ := outcome_streamInput_lines (s := { input := .text _ }) (by simpa using hne)
    (forall_mem_barred (by decide) hb) rfl
  refine ⟨_, text, hi, hl.trans ?_⟩
  simp

/-! ## One record for each row -/

/-- A cell with a blank at each side. -/
def spaced (c : String) : String := " " ++ c ++ " "

/-- Whether a row holds more than the marks of a line that divides rows. -/
def hasText (cells : List String) : Bool := cells.any fun c => c.toList.any fun d => !(isBlank d || d == '-' || d == ':')

lemma strip_spaced (c) : S.strip (spaced c) = S.strip c := by
  have hs := strip_spaces 1 1 c.toList
  simpa [S.strip, spaced] using congrArg ofList hs

lemma rowRecord_spaced (names cells) : rowRecord names (cells.map spaced) = rowRecord names cells := by
  rw [← rowRecord_strip, ← rowRecord_strip names cells]
  simp [Function.comp_def, strip_spaced]

lemma isMarks_spaced (cells) : isMarks (cells.map spaced) = !hasText cells := by
  have hb : isBlank ' ' := by decide
  simp [isMarks, hasText, spaced, hb, Function.comp_def, not_any_eq_all_not]

lemma rowRecord_of_nodup (h : names.Nodup) (hl : cells.length = names.length) :
    rowRecord names cells = .map (names.zip (cells.map cellValue)) := by
  have hk : keys (names.zip (cells.map cellValue)) = names := map_fst_zip (by simp [hl])
  rw [rowRecord, ofPairs_of_distinct]
  rwa [Distinct, hk]

lemma named_spaced (h : ∀ c ∈ headers, c ≠ "" ∧ S.strip c = c) : named (headers.map spaced) = headers := by
  have hs : (headers.map spaced).map S.strip = headers := by
    rw [map_map]
    exact (map_congr_left fun c hc => (strip_spaced c).trans (h c hc).2).trans (map_id headers)
  rw [named, hs, filter_eq_self]
  exact fun c hc => bne_iff_ne.mpr (h c hc).1

/-- Dashes and colons in every column. -/
def AreMarks (marks : List String) : Prop := marks ≠ [] ∧ ∀ m ∈ marks, m ≠ "" ∧ m.toList.all (['-', ':', ' '].contains ·)

variable {marks : List String}

lemma AreMarks.forall_mem (h : AreMarks marks) {p : Char → Prop} (hp : ∀ d ∈ ['-', ':', ' '], p d) :
    ∀ m ∈ marks, ∀ d ∈ m.toList, p d := fun m hm d hd => hp d (contains_iff_mem.mp (all_eq_true.mp (h.2 m hm).2 d hd))

lemma AreMarks.isMarks_eq (h : AreMarks marks) : isMarks marks := by
  rw [isMarks, Bool.and_eq_true, bne_iff_ne, all_eq_true]
  refine ⟨?_, fun m hm => all_eq_true.mpr (h.forall_mem (all_iff_forall_prop.mp (by decide)) m hm)⟩
  rintro rfl
  exact (h.2 "" (.head _)).1 rfl

/-- **A pipe table is read row by row.** The lines show headers, marks, and rows with a cell for each header. Then each row
that holds more than dashes, colons and blanks is read as a record, and the others are taken for lines that divide rows. -/
theorem pipe_records (hinput : Act.streamInput.outcome s = (.ok (text, none), s)) (hne : headers ≠ [])
    (hnames : headers.Nodup) (hheaders : ∀ h ∈ headers, h ≠ "") (hwidth : ∀ r ∈ rows, r.length = headers.length)
    (hcells : ∀ r ∈ headers :: rows, ∀ c ∈ r, S.strip c = c ∧ '|' ∉ c.toList) (hmarks : AreMarks marks)
    (hlines : S.lines text = (headers.map spaced :: marks :: rows.map (·.map spaced)).map barred) :
    (readInput (.str "pipe")).outcome s =
      (.ok (.ofList ((rows.filter hasText).map fun r => .map (headers.zip (r.map cellValue)))), s) := by
  have hspaced : ∀ r ∈ headers :: rows, r.map spaced ≠ [] ∧ ∀ c ∈ r.map spaced, ∀ d ∈ c.toList, isPipe d = false := by
    intro r hr
    have hlength : r.length = headers.length := by
      rcases List.mem_cons.mp hr with rfl | hr
      exacts [rfl, hwidth r hr]
    refine ⟨by simpa [← List.length_eq_zero_iff, hlength] using hne, fun c hc d hd => ?_⟩
    obtain ⟨c, hmem, rfl⟩ := List.mem_map.mp hc
    have hd : d = ' ' ∨ d ∈ c.toList := by simpa [spaced, or_comm, or_assoc] using hd
    rcases hd with rfl | hd
    · decide
    · exact beq_eq_false_iff_ne.mpr fun he => (hcells r hr c hmem).2 (he ▸ hd)
  have hframed : List.Forall₂ (Framed .pipe) (headers.map spaced :: marks :: rows.map (·.map spaced))
      ((S.lines text).filter pipe.holds) := by
    rw [hlines]
    refine framed_barred ?_
    obtain ⟨hfirst, hrest⟩ := List.forall_mem_cons.mp hspaced
    exact List.forall_mem_cons.mpr ⟨hfirst, List.forall_mem_cons.mpr
      ⟨⟨hmarks.1, hmarks.forall_mem (List.all_iff_forall_prop.mp (by decide))⟩, List.forall_mem_map.mpr hrest⟩⟩
  have hnamed : named (headers.map spaced) = headers :=
    named_spaced fun c hc => ⟨hheaders c hc, (hcells headers (.head _) c hc).1⟩
  have htakes : (marks :: rows.map (·.map spaced)).filter (pipe.takes headers) =
      (rows.filter hasText).map (·.map spaced) := by
    rw [List.filter_cons_of_neg (by simp [takes, hmarks.isMarks_eq]), List.filter_map]
    refine congrArg (List.map _) (List.filter_congr fun r hr => ?_)
    simp [takes, isMarks_spaced, hne, hwidth r hr]
  have hread := outcome_readInput_name (k := .pipe) (by decide) hinput
  rw [records_eq hframed, hnamed, htakes, List.map_map] at hread
  refine hread.trans (congrArg (fun l => (Except.ok (Feed.ofList l), s)) (List.map_congr_left fun r hr => ?_))
  rw [Function.comp_apply, rowRecord_spaced, rowRecord_of_nodup hnames (hwidth r (List.mem_filter.mp hr).1)]

theorem pipe_records_dashed : (readInput (.str "pipe")).outcome
    { input := .text "| a | b |\n|---|:-:|\n| 1 | - |\n| - | : |\n|  | x |\n" } =
      (.ok (.ofList [.map [("a", .int 1), ("b", .str "-")], .map [("a", .null), ("b", .str "x")]]),
        { input := .text "| a | b |\n|---|:-:|\n| 1 | - |\n| - | : |\n|  | x |\n" }) :=
  @pipe_records _ _ ["a", "b"] [["1", "-"], ["-", ":"], ["", "x"]] ["---", ":-:"]
    (Act.outcome_streamInput rfl (by decide +kernel)) (by decide) (by decide) (by decide) (by decide)
    (by decide +kernel) ⟨by decide, by decide +kernel⟩ (by decide +kernel)

/-- **A row of dashes and colons** is taken for a line that divides rows. -/
theorem pipeRecords_dashes : pipeRecords ["| a | b |", "| --- | --- |", "| - | : |", "| 1 | 2 |"] =
    [.map [("a", .int 1), ("b", .int 2)]] := by
  rfl

/-! ## Columns -/

/-- A record holds the value of each cell below a header that is not blank. -/
def KeepsColumns (headers cells : List String) (record : Value) : Prop :=
  ∃ fields, record = .map fields ∧
    ∀ p ∈ headers.zip cells, S.strip p.1 ≠ "" → get? (S.strip p.1) fields = some (cellValue p.2)

/-- Names that are all different, and then blanks. -/
def IsTitled (headers : List String) : Prop :=
  ∃ names n, headers.map S.strip = names ++ List.replicate n "" ∧ names.Nodup ∧ "" ∉ names

lemma keepsColumns_of_titled (h : IsTitled headers) (hl : cells.length = headers.length) :
    KeepsColumns headers cells (rowRecord (named headers) cells) := by
  obtain ⟨names, n, hh, _, hb⟩ := h
  have hn : named headers = names := by
    rw [named, hh, filter_append, filter_replicate_of_neg (by simp), append_nil, filter_eq_self]
    exact fun c hc => bne_iff_ne.mpr fun he => hb (he ▸ hc)
  have hle : names.length ≤ cells.length := by
    have ht := congrArg List.length hh
    rw [length_map, length_append] at ht
    omega
  have hk : keys (names.zip (cells.map cellValue)) = names := map_fst_zip (by simpa using hle)
  have hd : Distinct (names.zip (cells.map cellValue)) := by rwa [Distinct, hk]
  refine ⟨_, rfl, fun p hp hna => ?_⟩
  rw [hn, ofPairs_of_distinct hd]
  refine get?_of_mem hd ?_
  -- the place of the pair is one of a name, because the blanks are behind the names
  obtain ⟨i, hi⟩ := mem_iff_getElem?.mp hp
  obtain ⟨hhe, hce⟩ := getElem?_zip_eq_some.mp hi
  have hpl : (names ++ List.replicate n "")[i]? = some (S.strip p.1) := by rw [← hh, getElem?_map, hhe]; rfl
  rw [getElem?_append] at hpl
  split at hpl
  · exact mem_iff_getElem?.mpr ⟨i, getElem?_zip_eq_some.mpr ⟨hpl, by rw [getElem?_map, hce]; rfl⟩⟩
  · exact absurd (mem_replicate.mp (mem_of_getElem? hpl)).2 hna

/-- Names that have their own place among the names stand in front of all blanks. -/
lemma eq_append_blanks (hn : headers.filter (· != "") = names)
    (h : ∀ (i : Nat) x, headers[i]? = some x → x ≠ "" → names[i]? = some x) :
    ∃ n, headers = names ++ List.replicate n "" := by
  have hb : headers.drop names.length = List.replicate (headers.length - names.length) "" := by
    rw [← length_drop]
    refine eq_replicate_of_mem fun x hx => ?_
    obtain ⟨i, hi⟩ := mem_iff_getElem?.mp hx
    rw [getElem?_drop] at hi
    by_contra hna
    have hp := h _ x hi hna
    rw [getElem?_eq_none (Nat.le_add_right ..)] at hp
    cases hp
  have hf : (headers.take names.length).filter (· != "") = names := by
    rw [← take_append_drop names.length headers, filter_append, hb,
      filter_replicate_of_neg (by simp), append_nil] at hn
    exact hn
  have hl : (headers.take names.length).length ≤ names.length := length_take_le ..
  have hsu : ((headers.take names.length).filter (· != "")).Sublist (headers.take names.length) := filter_sublist
  rw [hf] at hsu
  have hs := hsu.eq_of_length_le hl
  refine ⟨headers.length - names.length, ?_⟩
  calc headers = headers.take names.length ++ headers.drop names.length := (take_append_drop ..).symm
    _ = names ++ List.replicate (headers.length - names.length) "" := by rw [← hs, hb]

/-- A row with one cell that differs from the others. -/
def marked (n j : Nat) : List String := (List.range n).map fun i => if i = j then "b" else "a"

lemma isTitled_of_keepsColumns
    (h : ∀ j, KeepsColumns headers (marked headers.length j) (rowRecord (named headers) (marked headers.length j))) :
    IsTitled headers := by
  have hd : cellValue "a" ≠ cellValue "b" := by
    intro he
    cases he
  have hg : ∀ {i : Nat} {x}, (headers.map S.strip)[i]? = some x → x ≠ "" → ∀ j,
      get? x (ofPairs ((named headers).zip ((marked headers.length j).map cellValue))) =
        some (cellValue (if i = j then "b" else "a")) := by
    intro i x hx hn j
    obtain ⟨_, hr, hk⟩ := h j
    obtain ⟨y, hy, rfl⟩ := by simpa using hx
    have hi : i < headers.length := List.getElem?_eq_some_iff.mp hy |>.1
    cases hr
    refine hk (y, if i = j then "b" else "a") (mem_iff_getElem?.mpr ⟨i, ?_⟩) hn
    exact getElem?_zip_eq_some.mpr ⟨hy, by simp [marked, hi]⟩
  have hp : ∀ (i : Nat) x, (headers.map S.strip)[i]? = some x → x ≠ "" → (named headers)[i]? = some x := by
    intro i x hx hn
    have hm := (mem_update (mem_of_get? (hg hx hn i))).resolve_left not_mem_nil
    obtain ⟨j, hj⟩ := mem_iff_getElem?.mp hm
    obtain ⟨hj, hce⟩ := getElem?_zip_eq_some.mp hj
    rw [if_pos rfl, getElem?_map, Option.map_eq_some_iff] at hce
    obtain ⟨c, hc, hv⟩ := hce
    have hlt : j < headers.length := by simpa [marked] using (List.getElem?_eq_some_iff.mp hc).1
    obtain rfl : (if j = i then "b" else "a") = c := by simpa [marked, hlt] using hc
    by_cases hji : j = i
    · exact hji ▸ hj
    · rw [if_neg hji] at hv
      exact absurd hv hd
  obtain ⟨n, ht⟩ : ∃ n, headers.map S.strip = named headers ++ List.replicate n "" := eq_append_blanks rfl hp
  refine ⟨named headers, n, ht, ?_, by simp [named]⟩
  rw [nodup_iff_getElem?_ne_getElem?]
  intro i j hij hj heq
  have hjt := getElem?_eq_getElem hj
  have hn := bne_iff_ne.mp (mem_filter.mp (getElem_mem hj)).2
  have hh : ∀ l < (named headers).length, (headers.map S.strip)[l]? = (named headers)[l]? := fun l hl => by
    rw [ht, getElem?_append_left hl]
  have hf := hg ((hh i (by omega)).trans (heq.trans hjt)) hn j
  have hs := hg ((hh j hj).trans hjt) hn j
  rw [if_neg (Nat.ne_of_lt hij)] at hf
  rw [if_pos rfl, hf] at hs
  exact hd (Option.some.inj hs)

lemma mem_marked {n j c} (h : c ∈ marked n j) : c = "a" ∨ c = "b" := by
  obtain ⟨i, -, rfl⟩ := mem_map.mp h
  split
  exacts [.inr rfl, .inl rfl]

lemma takes_marked (k : Kind) (hn : named headers ≠ []) (j) : k.takes (named headers) (marked headers.length j) := by
  have hl : (named headers).length ≤ (marked headers.length j).length := by
    simpa [named, marked] using length_filter_le (· != "") (headers.map S.strip)
  have hm : isMarks (marked headers.length j) = false := by
    have hp := length_pos_iff.mpr hn
    obtain ⟨c, hc⟩ := exists_mem_of_length_pos (Nat.lt_of_lt_of_le hp hl)
    rw [isMarks, Bool.and_eq_false_iff]
    refine .inr (all_eq_false.mpr ⟨c, hc, ?_⟩)
    rcases mem_marked hc with rfl | rfl <;> decide
  simp [takes, hn, hm, hl]

/-- **When values stay in their columns.** In every table with these headers, each record has below each name the value in
its column: exactly if the headers are distinct names, and blank only behind them. -/
theorem columns_kept_iff (hk : k ≠ .page) (hne : headers ≠ []) (hheaders : ∀ h ∈ headers, h.toList.all k.allows = true) :
    (∀ (s : Session) (text : String) (rows : List (List String)), Act.streamInput.outcome s = (.ok (text, none), s) →
      List.Forall₂ (Framed k) (headers :: rows) ((S.lines text).filter k.holds) → (∀ r ∈ rows, r.length = headers.length) →
        ∃ kept records,
        (readInput (.str k.name)).outcome s = (.ok (.ofList records), s) ∧ kept.Sublist rows ∧
          List.Forall₂ (KeepsColumns headers) kept records) ↔ IsTitled headers := by
  constructor
  · intro h
    by_cases hnames : named headers = []
    · have hblank : ∀ x ∈ headers.map S.strip, x = "" := by simpa [named] using hnames
      exact ⟨[], _, List.eq_replicate_of_mem hblank, List.nodup_nil, List.not_mem_nil⟩
    · refine isTitled_of_keepsColumns fun j => ?_
      have hmarked : marked headers.length j ≠ [] ∧ ∀ c ∈ marked headers.length j, c.toList.all k.allows = true := by
        refine ⟨by simpa [marked] using hne, fun c hc => ?_⟩
        rcases mem_marked hc with rfl | rfl <;> cases k <;> decide
      have hcells : ∀ r ∈ [headers, marked headers.length j], r ≠ [] ∧ ∀ c ∈ r, c.toList.all k.allows = true :=
        List.forall_mem_cons.mpr ⟨⟨hne, hheaders⟩, List.forall_mem_singleton.mpr hmarked⟩
      obtain ⟨s, text, hinput, hlines⟩ := exists_input (by simp) fun r hr => (hcells r hr).2
      have hframed := hlines ▸ framed_of_allowed hcells
      obtain ⟨kept, records, hrecords, hsub, hkeeps⟩ := h s text _ hinput hframed (by simp [marked])
      rw [outcome_readInput_name hk hinput, records_eq hframed, List.filter_cons_of_pos (takes_marked k hnames j)]
        at hrecords
      cases hrecords
      cases hkeeps with
      | cons hrow hrest =>
        cases hrest
        exact List.mem_singleton.mp (List.singleton_sublist.mp hsub) ▸ hrow
  · intro h s text rows hinput hframed hwidth
    refine ⟨rows.filter (k.takes (named headers)), _, outcome_readInput_name hk hinput, List.filter_sublist, ?_⟩
    rw [records_eq hframed, List.forall₂_map_right_iff, List.forall₂_same]
    exact fun r hr => keepsColumns_of_titled h (hwidth r (List.mem_filter.mp hr).1)

theorem columns_kept_titled : ∃ kept records, (readInput (.str "pipe")).outcome { input := .text "|a| b ||\n|1|2|3|\n" } =
    (.ok (.ofList records), { input := .text "|a| b ||\n|1|2|3|\n" }) ∧ kept.Sublist [["1", "2", "3"]] ∧
      List.Forall₂ (KeepsColumns ["a", " b ", ""]) kept records := by
  have hlines : S.lines "|a| b ||\n|1|2|3|\n" = [["a", " b ", ""], ["1", "2", "3"]].map barred := by decide +kernel
  refine (columns_kept_iff (k := .pipe) (by decide) (by decide) (by decide +kernel)).mpr ⟨["a", "b"], 1, by decide +kernel, by decide, by decide⟩
    _ _ _ (outcome_streamInput rfl (by decide +kernel)) ?_ (by decide)
  rw [hlines]
  exact framed_of_allowed (by decide +kernel)

/-- **A value below a blank header** gets the name of the next column. -/
theorem columns_shifted : pipeRecords ["| a |  | b |", "|---|---|---|", "| 1 | 2 | 3 |"] = [.map [("a", .int 1), ("b", .int 2)]] ∧
    ¬ KeepsColumns [" a ", "  ", " b "] [" 1 ", " 2 ", " 3 "] (.map [("a", .int 1), ("b", .int 2)]) := by
  refine ⟨rfl, ?_⟩
  rintro ⟨fields, hrecord, hkeeps⟩
  cases hrecord
  have hlast := hkeeps (" b ", " 3 ") (by decide) (by decide +kernel)
  cases hlast

/-! ## Tables of an unknown kind -/

/-- A character of a cell on one line, in a table that is drawn without box characters. -/
def isPlainChar (d : Char) : Bool := d != '|' && d != '\n' && !(0x2500 ≤ d.toNat && d.toNat < 0x2580)

lemma isPlainChar_bars {d} (h : isPlainChar d) : (k : Kind) → k.bars d = false := not_bars h (by decide)

lemma readRecords_auto (text) : readRecords (.str "auto") text =
    readRecords (.str (detect (S.join "\n" (S.lines text))).name) text := by
  unfold readRecords
  cases h : detect (S.join "\n" (S.lines text)) <;> simp [Kind.name, h]

lemma map_filter_eq_iff {α β : Type} {p q : α → Bool} {f : α → β} {l : List α} :
    (l.filter p).map f = (l.filter fun a => q a && p a).map f ↔ ∀ a ∈ l, p a → q a := by
  rw [← filter_filter]
  constructor
  · intro h a ha hp
    have hl := congrArg List.length h
    rw [length_map, length_map] at hl
    exact length_filter_eq_length_iff.mp hl.symm a (mem_filter.mpr ⟨ha, hp⟩)
  · intro h
    have hs : (l.filter p).filter q = l.filter p := filter_eq_self.mpr fun a ha =>
      h a (mem_filter.mp ha).1 (mem_filter.mp ha).2
    rw [hs]

/-- **What is told from the lines of a pipe table**: it is taken for a grid if it has a plus sign. -/
lemma detect_barred (hce : ∀ r ∈ headers :: rows, ∀ c ∈ r, c.toList.all isPlainChar)
    (hp : S.contains "<table" (S.lower (barredText (headers :: rows))) = false) :
    detect (barredText (headers :: rows)) = if (barredText (headers :: rows)).toList.contains '+' then .grid else .pipe := by
  have hb : ∀ d, isPlainChar d → (d == '\n') = false := by
    intro d hd
    simp only [isPlainChar, Bool.and_eq_true, bne_iff_ne] at hd
    exact beq_eq_false_iff_ne.mpr hd.1.2
  have hbo : ∀ d ∈ gridChars, d = '+' ∨ isPlainChar d = false := all_iff_forall_prop.mp (by decide)
  have hs : splitAtChar '\n' (barredText (headers :: rows)).toList = (headers :: rows).map fun r => (barred r).toList := by
    rw [barredText_toList]
    exact splitWhere_join (by simp) (by simp) (forall_mem_barred (by decide) fun r hr c hc d hd =>
      hb d (all_eq_true.mp (hce r hr c hc) d hd))
  have hst : ((headers :: rows).map fun r => (barred r).toList).any startsWithBar := by
    have hba : startsWithBar (barred headers).toList := by
      rw [startsWithBar, barred_toList, stripLeft]
      rfl
    rw [map_cons, any_cons, hba, Bool.true_or]
  have hg : (barredText (headers :: rows)).toList.any gridChars.contains =
      (barredText (headers :: rows)).toList.contains '+' := by
    have hpl : ∀ d ∈ (barredText (headers :: rows)).toList, d ∈ gridChars → d = '+' :=
      forall_mem_barredText (by decide) (by decide) fun r hr c hc d hd hm =>
        (hbo d hm).resolve_right (by simp [all_eq_true.mp (hce r hr c hc) d hd])
    rw [Bool.eq_iff_iff, any_eq_true, contains_iff_mem]
    exact ⟨fun ⟨d, hd, hm⟩ => hpl d hd (contains_iff_mem.mp hm) ▸ hd, fun hd => ⟨'+', hd, by decide⟩⟩
  simp only [detect, hp, hs, hst, hg, Bool.false_eq_true, if_false, if_true]

/-- **When a pipe table need not be called one.** It is read alike exactly if it has no plus sign, or no names of columns,
or no line of dashes as wide as the names: such a line has a record in a grid. -/
theorem auto_eq_pipe_iff (hinput : Act.streamInput.outcome s = (.ok (text, none), s))
    (hlines : S.lines text = (headers :: rows).map barred) (hne : ∀ r ∈ headers :: rows, r ≠ [])
    (hcells : ∀ r ∈ headers :: rows, ∀ c ∈ r, c.toList.all isPlainChar = true)
    (hpage : S.contains "<table" (S.lower (barredText (headers :: rows))) = false) :
    (readInput (.str "auto")).outcome s = (readInput (.str "pipe")).outcome s ↔
      '+' ∉ (barredText (headers :: rows)).toList ∨ named headers = [] ∨
        ∀ r ∈ rows, isMarks r = true → r.length < (named headers).length := by
  have hauto : (readInput (.str "auto")).outcome s =
      (readInput (.str (detect (S.join "\n" (S.lines text))).name)).outcome s := by
    rw [readInput, readInput, Act.bind_of_ok hinput, Act.bind_of_ok hinput]
    exact congrArg (Act.outcome · s) (readRecords_auto text)
  have hread : ∀ k : Kind, k ≠ .page → (readInput (.str k.name)).outcome s =
      (.ok (.ofList ((rows.filter (k.takes (named headers))).map (rowRecord (named headers)))), s) := by
    intro k hk
    rw [outcome_readInput_name hk hinput, hlines, Kind.records_eq (framed_barred fun r hr => ⟨hne r hr, fun c hc d hd =>
      isPlainChar_bars (List.all_eq_true.mp (hcells r hr c hc) d hd) k⟩)]
  rw [hauto, hlines, ← barredText, detect_barred hcells hpage]
  by_cases hplus : '+' ∈ (barredText (headers :: rows)).toList
  · have hgrid : ∀ r, Kind.grid.takes (named headers) r = (!(named headers).isEmpty && (named headers).length ≤ r.length) :=
      fun r => by rw [Kind.takes, show (Kind.grid != .pipe) = true from rfl, Bool.true_or, Bool.and_true]
    have htakes : Kind.pipe.takes (named headers) = fun r => !isMarks r && Kind.grid.takes (named headers) r := by
      funext r
      rw [hgrid, Kind.takes, show (Kind.pipe != .pipe) = false from rfl, Bool.false_or, Bool.and_right_comm, Bool.and_comm]
    have hlists : ∀ records records' : List Value, ((.ok (.ofList records), s) : Except Stop (Feed Value) × Session) =
        (.ok (.ofList records'), s) ↔ records = records' := by
      intro records records'
      simp [Feed.ofList]
    rw [if_pos (List.contains_iff_mem.mpr hplus), hread .grid (by decide),
      show (readInput (.str "pipe")).outcome s = _ from hread .pipe (by decide), htakes, hlists, map_filter_eq_iff,
      or_iff_right (not_not_intro hplus)]
    by_cases hnamed : named headers = []
    · refine iff_of_true (fun r _ hr => ?_) (.inl hnamed)
      rw [hgrid, hnamed] at hr
      exact absurd hr Bool.false_ne_true
    · have hmarks : ∀ r, (Kind.grid.takes (named headers) r = true → (!isMarks r) = true) ↔
          (isMarks r = true → r.length < (named headers).length) := by
        intro r
        rw [hgrid, List.isEmpty_eq_false_iff.mpr hnamed]
        cases isMarks r <;> simp
      simp only [hmarks, or_iff_right hnamed]
  · rw [if_neg (by simpa using hplus)]
    exact iff_of_true rfl (.inl hplus)

theorem auto_eq_pipe_whole : (readInput (.str "auto")).outcome { input := .text "|a|\n|---|\n|1|\n" } =
    (readInput (.str "pipe")).outcome { input := .text "|a|\n|---|\n|1|\n" } :=
  (@auto_eq_pipe_iff _ _ ["a"] [["---"], ["1"]] (Act.outcome_streamInput rfl (by decide +kernel)) (by decide +kernel)
    (by decide) (by decide +kernel) (by decide +kernel)).mpr (.inl (by decide +kernel))

/-- **A plus sign in a cell** makes the dividing line a record. -/
theorem auto_plus : (readInput (.str "auto")).outcome { input := .text "| a |\n|---|\n| 1+1 |\n" } =
      (.ok (.ofList [.map [("a", .str "---")], .map [("a", .str "1+1")]]), { input := .text "| a |\n|---|\n| 1+1 |\n" }) ∧
    (readInput (.str "pipe")).outcome { input := .text "| a |\n|---|\n| 1+1 |\n" } =
      (.ok (.ofList [.map [("a", .str "1+1")]]), { input := .text "| a |\n|---|\n| 1+1 |\n" }) :=
  ⟨rfl, rfl⟩

end Sluice.Table
