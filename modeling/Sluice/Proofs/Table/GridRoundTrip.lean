import Sluice.Proofs.Table.Bars

/-!
# Grids are read back

Reading the grid of plain records gives them again, with nulls for missing fields. The two halves meet at `Draws`.
-/

namespace Sluice.Table

open List Text Number Json Act
open String (ofList reduceToList toList toList_ofList)

variable {lines : List Chars} {keys : List String} {values : List Value}

/-! ## Reading records -/

lemma map_strip_of_padded {cells texts} (h : List.Forall₂ Padded cells texts)
    (hs : ∀ s ∈ texts, strip s = s) : cells.map strip = texts := by
  induction h with
  | nil => rfl
  | cons hp _ ih =>
    obtain ⟨hf, hr⟩ := forall_mem_cons.mp hs
    rw [map_cons, hp.strip_eq, hf, ih hr]

/-- **A line that shows texts** holds them in its cells. -/
lemma Shows.framed {texts line} (h : Shows texts line) (hne : texts ≠ [])
    (ht : ∀ s ∈ texts, strip s = s ∧ ∀ c ∈ s, isCellChar c) :
    ∃ cells, Framed .grid cells (ofList line) ∧ cells.map S.strip = texts.map ofList := by
  obtain ⟨cells, hce, rfl⟩ := h
  have hst := map_strip_of_padded hce fun s hs => (ht s hs).1
  have hl : ofList ('|' :: join ['|'] cells ++ ['|']) = barred (cells.map ofList) := by
    rw [← String.toList_inj, barred_toList]
    simp [Function.comp_def]
  refine ⟨cells.map ofList, ⟨by rw [hl, strip_barred], ?_, ?_⟩, by simp [← hst, S.strip]⟩
  · rintro hn
    rw [map_eq_nil_iff.mp hn] at hst
    exact hne hst.symm
  · intro c hc d hd
    obtain ⟨_, hcel, rfl⟩ := mem_map.mp hc
    rw [toList_ofList] at hd
    rcases padded_mem hce hcel hd with rfl | ⟨text, hte, hd⟩
    · rfl
    · have hp := (ht text hte).2 d hd
      simp only [isCellChar, Bool.and_eq_true, Bool.not_eq_true'] at hp
      exact hp.1.1.1

lemma Draws.framed {texts} (h : Draws texts lines)
    (ht : ∀ r ∈ texts, r ≠ [] ∧ ∀ s ∈ r, strip s = s ∧ ∀ c ∈ s, isCellChar c) :
    ∃ rows, List.Forall₂ (Framed .grid) rows ((lines.map ofList).filter Kind.grid.holds) ∧
      rows.map (·.map S.strip) = texts.map (·.map ofList) := by
  induction h with
  | nil => exact ⟨[], .nil, rfl⟩
  | @ruling line _ _ hl _ ih =>
    have hr : isRuling (ofList line) := by
      rw [isRuling, toList_ofList, all_eq_true]
      intro c hc
      simp [hl c hc]
    rw [map_cons, filter_cons_of_neg (by simp [Kind.holds, holdsCells, hr])]
    exact ih ht
  | row hl _ ih =>
    obtain ⟨hfi, hre⟩ := forall_mem_cons.mp ht
    obtain ⟨cells, hf, hce⟩ := hl.framed hfi.1 hfi.2
    obtain ⟨rows, hro, hs⟩ := ih hre
    rw [map_cons, filter_cons_of_pos hf.holds]
    exact ⟨cells :: rows, .cons hf hro, by rw [map_cons, map_cons, hce, hs]⟩

/-- Names that can stand above the columns of a grid. -/
structure AreHeaders (keys : List String) : Prop where
  ne_nil : keys ≠ []
  nodup : keys.Nodup
  isCellText : ∀ k ∈ keys, isCellText k

/-- **A row of plain values** is read off the texts that show it. -/
lemma rowRecord_cellText {row} (hk : keys.Nodup) (hl : row.length = keys.length)
    (hp : ∀ v ∈ row, isPlain v) : rowRecord keys (row.map cellText) = .map (keys.zip row) := by
  have hb : (row.map cellText).map cellValue = row := by
    rw [map_map]
    exact (map_congr_left fun v hv => cellValue_cellText (hp v hv)).trans (map_id row)
  rw [rowRecord_of_nodup hk (by rw [length_map, hl]), hb]

/-- **Lines that draw headers and plain rows are read as records.** -/
lemma records_of_draws {rows : List (List Value)} (hke : AreHeaders keys) (hl : ∀ r ∈ rows, r.length = keys.length)
    (hp : ∀ r ∈ rows, ∀ v ∈ r, isPlain v) (h : Draws (keys.map toList :: rows.map (·.map shown)) lines) :
    Kind.grid.records (lines.map ofList) = rows.map fun r => .map (keys.zip r) := by
  have hn : ∀ k ∈ keys, k ≠ "" ∧ strip k.toList = k.toList ∧ ∀ c ∈ k.toList, isCellChar c :=
    fun k hk => isCellText_iff.mp (hke.isCellText k hk)
  obtain ⟨_, hf, hs⟩ := h.framed <| forall_mem_cons.mpr ⟨
    ⟨by simpa using hke.ne_nil, forall_mem_map.mpr fun k hk => (hn k hk).2⟩,
    forall_mem_map.mpr fun r hr => ⟨by simpa [← length_eq_zero_iff, hl r hr] using hke.ne_nil,
      forall_mem_map.mpr fun v hv => cellText_of_plain (hp r hr v hv)⟩⟩
  obtain ⟨headers, cells, rfl, hh, hce⟩ := map_eq_cons_iff.mp hs
  have hna : named headers = keys := by
    have hse : headers.map S.strip = keys := by simpa [Function.comp_def] using hh
    rw [named, hse, filter_eq_self]
    exact fun k hk => bne_iff_ne.mpr (hn k hk).1
  have ht : cells.map (·.map S.strip) = rows.map (·.map cellText) := by
    rw [hce]
    simp [Function.comp_def, shown]
  have hta : ∀ c ∈ cells, Kind.grid.takes keys c := by
    intro c hc
    obtain ⟨r, hr, hte⟩ := mem_map.mp (ht ▸ mem_map_of_mem hc)
    have hw := congrArg List.length hte
    rw [length_map, hl r hr] at hw
    simp [Kind.takes, hke.ne_nil, hw]
  have hre := Kind.records_eq hf
  rw [hna, filter_eq_self.mpr hta] at hre
  calc Kind.grid.records (lines.map ofList)
      = cells.map (rowRecord keys) := hre
    _ = (cells.map (·.map S.strip)).map (rowRecord keys) := by simp only [map_map, Function.comp_def, rowRecord_strip]
    _ = rows.map fun r => .map (keys.zip r) := by
      rw [ht, map_map]
      exact map_congr_left fun r hr => rowRecord_cellText hke.nodup (hl r hr) (hp r hr)

/-! ## Writing records -/

def fieldNames (records : List Fields) : List String := (records.flatMap Fields.keys).eraseDups

def tableRows (records : List Fields) : List (List Value) := records.map (valuesAt (fieldNames records))

/-- **A record with all the fields of a table**: null where it has none. -/
def completed (keys : List String) (fs : Fields) : Fields := keys.map fun k => (k, (Fields.get? k fs).getD .null)

lemma zip_valuesAt (keys fs) : keys.zip (valuesAt keys fs) = completed keys fs := map_prod_left_eq_zip.symm

lemma foldl_newKeys (fs seen) : fs.foldl (fun keys f => if keys.contains f.1 then keys else keys ++ [f.1]) seen.eraseDups =
      (seen ++ Fields.keys fs).eraseDups := by
  induction fs generalizing seen with
  | nil => simp [Fields.keys]
  | cons f fs ih =>
    have hs : (if seen.eraseDups.contains f.1 then seen.eraseDups else seen.eraseDups ++ [f.1]) =
        (seen ++ [f.1]).eraseDups := by
      rw [eraseDups_concat]
      simp
    rw [foldl_cons, hs, ih]
    simp [Fields.keys]

lemma allKeys_eq (records) : allKeys records [] = fieldNames records := by
  have hs : ∀ s : List String, allKeys records s.eraseDups = (s ++ records.flatMap Fields.keys).eraseDups := by
    induction records with
    | nil => simp [allKeys]
    | cons fs records ih =>
      intro s
      rw [allKeys, foldl_cons, foldl_newKeys]
      refine (ih (s ++ Fields.keys fs)).trans ?_
      simp
  exact hs []

def isPlainRecord (fs : Fields) : Bool := fs.all fun f => isCellText f.1 && isPlain f.2

section

variable {records : List Fields}

lemma areHeaders_fieldNames (hke : records.flatMap Fields.keys ≠ [])
    (hp : ∀ fs ∈ records, isPlainRecord fs) : AreHeaders (fieldNames records) where
  ne_nil := by
    obtain ⟨k, hk⟩ := exists_mem_of_ne_nil _ hke
    exact ne_nil_of_mem (mem_eraseDups.mpr hk)
  nodup := nodup_eraseDups _
  isCellText := by
    intro k hk
    obtain ⟨fs, hfs, hk⟩ := List.mem_flatMap.mp (mem_eraseDups.mp hk)
    obtain ⟨f, hf, rfl⟩ := mem_map.mp hk
    have hfi := all_eq_true.mp (hp fs hfs) f hf
    exact (Bool.and_eq_true_iff.mp hfi).1

lemma holds_of_mem_valuesAt {p : String → Bool} {q : Value → Bool} (hn : q .null) {fs : Fields} (h : fs.all fun f => p f.1 && q f.2) {v}
    (hv : v ∈ valuesAt keys fs) : q v := by
  obtain ⟨k, -, rfl⟩ := mem_map.mp hv
  cases hg : Fields.get? k fs with
  | none => exact hn
  | some v =>
    have hf := all_eq_true.mp h (k, v) (Fields.mem_of_get? hg)
    exact (Bool.and_eq_true_iff.mp hf).2

lemma length_of_mem_tableRows {r} (hr : r ∈ tableRows records) : r.length = (fieldNames records).length := by
  obtain ⟨fs, -, rfl⟩ := mem_map.mp hr
  exact length_map ..

lemma isPlain_of_mem_tableRows (hp : ∀ fs ∈ records, isPlainRecord fs) : ∀ r ∈ tableRows records, ∀ v ∈ r, isPlain v := by
  intro r hr v hv
  obtain ⟨fs, hfs, rfl⟩ := mem_map.mp hr
  exact holds_of_mem_valuesAt rfl (hp fs hfs) hv

lemma sheetOf_records (hne : records ≠ []) (hk : fieldNames records ≠ []) :
    sheetOf (.str "keys") (.bool false) (records.map .map) = .ok ⟨fieldNames records, tableRows records⟩ := by
  have hf : (records.map Value.map).mapM recordFields = .ok records := by
    clear hne hk
    induction records with
    | nil => rfl
    | cons fs records ih =>
      rw [map_cons, mapM_cons, ih]
      rfl
  obtain ⟨fs, r, rfl⟩ := exists_cons_of_ne_nil hne
  have hs : recordSheet (.str "keys") fs ((fs :: r).map .map) =
      .ok ⟨fieldNames (fs :: r), tableRows (fs :: r)⟩ := by
    rw [recordSheet, hf]
    show Except.ok _ = _
    rw [allKeys_eq]
    rfl
  have hfi : ∀ rows, fillHeaders (fieldNames (fs :: r))
      (valuesAt (fieldNames (fs :: r)) fs :: rows) = fieldNames (fs :: r) := by
    obtain ⟨k, ks, hc⟩ := exists_cons_of_ne_nil hk
    simp [fillHeaders, valuesAt]
  calc sheetOf (.str "keys") (.bool false) ((fs :: r).map .map)
      = (recordSheet (.str "keys") fs ((fs :: r).map .map) >>= fun sheet =>
          indexed (.bool false) sheet.rows >>= fun rows => pure ⟨fillHeaders sheet.headers rows, rows⟩) := rfl
    _ = .ok ⟨fillHeaders (fieldNames (fs :: r)) (tableRows (fs :: r)), tableRows (fs :: r)⟩ := by
          rw [hs]
          rfl
    _ = .ok ⟨fieldNames (fs :: r), tableRows (fs :: r)⟩ := by rw [tableRows, map_cons, hfi]

lemma isCellChar_of_mem_text {v} (h : isPlain v) {c} (hc : c ∈ v.text.toList) : isCellChar c := by
  cases v with
  | null =>
    have hn : ∀ d ∈ (Value.text .null).toList, isCellChar d := all_eq_true.mp (by decide)
    exact hn c hc
  | _ => exact (cellText_of_plain h).2 c hc

lemma plainText_chars {s} (hh : ∀ k ∈ s.headers, isCellText k)
    (hro : ∀ r ∈ s.rows, ∀ v ∈ r, isPlain v) {c} (hc : c ∈ plainText s) : c = '\t' ∨ isCellChar c := by
  rcases mem_join hc with hc | ⟨_, ht, hc⟩
  · exact .inl (mem_singleton.mp hc)
  · rcases mem_append.mp ht with ht | ht
    · obtain ⟨k, hk, rfl⟩ := mem_map.mp ht
      exact .inr ((isCellText_iff.mp (hh k hk)).2.2 c hc)
    · obtain ⟨r, hr, ht⟩ := List.mem_flatMap.mp ht
      obtain ⟨v, hv, rfl⟩ := mem_map.mp ht
      exact .inr (isCellChar_of_mem_text (hro r hr v hv) hc)

lemma tableText_of_sheet {sheet}
    (h : sheetOf (.str "keys") (.bool false) values = .ok sheet) (hc : hasCodes (plainText sheet) = false)
    (hb : (plainText sheet).any (fun c => c == '\r' || c == '\n') = false) :
    tableText {} values = drawingOf flat true 2 .decimal .left sheet >>= fun d =>
      if d.headers.isEmpty && d.rows.isEmpty then pure ""
      else d.lines .plainGrid false >>= fun lines => pure (ofList (join ['\n'] lines)) := by
  have hs : tableText {} values = drawingOf ⟨hasCodes (plainText sheet), Style.isTall "grid" &&
      (plainText sheet).any fun c => c == '\r' || c == '\n'⟩ true 2 .decimal .left sheet >>= fun d =>
      if d.headers.isEmpty && d.rows.isEmpty then pure ""
      else d.lines (Style.ofName "grid") (Style.isTall "grid" &&
        (plainText sheet).any fun c => c == '\r' || c == '\n') >>= fun lines => pure (ofList (join ['\n'] lines)) := by
    rw [tableText, h]
    rfl
  rw [hs, hc, hb]
  rfl

lemma plainText_tableRows (hk : records.flatMap Fields.keys ≠ []) (hp : ∀ fs ∈ records, isPlainRecord fs) :
    hasCodes (plainText ⟨fieldNames records, tableRows records⟩) = false ∧
      (plainText ⟨fieldNames records, tableRows records⟩).any (fun c => c == '\r' || c == '\n') = false := by
  have hch : ∀ c ∈ plainText ⟨fieldNames records, tableRows records⟩, c = '\t' ∨ isCellChar c :=
    fun c => plainText_chars (areHeaders_fieldNames hk hp).isCellText (isPlain_of_mem_tableRows hp)
  constructor
  · exact hasCodes_eq_false fun hm => absurd (hch _ hm) (by decide)
  · rw [any_eq_false]
    intro c hc hb
    rw [Bool.or_eq_true, beq_iff_eq, beq_iff_eq] at hb
    rcases hb with rfl | rfl <;> exact absurd (hch _ hc) (by decide)

/-- **The table of plain records**: lines that draw the names of the fields and the values of each record. -/
lemma tableText_draws (hk : records.flatMap Fields.keys ≠ []) (hp : ∀ fs ∈ records, isPlainRecord fs) :
    ∃ lines, tableText {} (records.map .map) = .ok (ofList (join ['\n'] lines)) ∧
      Draws ((fieldNames records).map toList :: (tableRows records).map (·.map shown)) lines := by
  have hne : records ≠ [] := by
    rintro rfl
    exact hk rfl
  have hh := areHeaders_fieldNames hk hp
  have hn : (fieldNames records).map toList ≠ [] := by simpa using hh.ne_nil
  obtain ⟨hc, hb⟩ := plainText_tableRows hk hp
  obtain ⟨d, hd, hdh, hdr⟩ := drawingOf_padded 2 .decimal .left hh.ne_nil
    (by simpa [tableRows] using hne) (fun r => length_of_mem_tableRows) (isPlain_of_mem_tableRows hp)
  obtain ⟨lines, hl, hdra⟩ := d.lines_draws hn hdh hdr
  refine ⟨lines, ?_, hdra⟩
  rw [tableText_of_sheet (sheetOf_records hne hh.ne_nil) hc hb, hd]
  show (if d.headers.isEmpty && d.rows.isEmpty then _ else d.lines .plainGrid false >>= _) = _
  rw [isEmpty_of_forall₂ hdh hn, hl]
  rfl

lemma isCellChar_of_mem_table (hke : records.flatMap Fields.keys ≠ []) (hp : ∀ fs ∈ records, isPlainRecord fs) :
    ∀ texts ∈ (fieldNames records).map toList :: (tableRows records).map (·.map shown),
      ∀ t ∈ texts, ∀ c ∈ t, isCellChar c := by
  intro texts hte t ht
  rcases mem_cons.mp hte with rfl | hte
  · obtain ⟨k, hk, rfl⟩ := mem_map.mp ht
    exact (isCellText_iff.mp ((areHeaders_fieldNames hke hp).isCellText k hk)).2.2
  · obtain ⟨r, hr, rfl⟩ := mem_map.mp hte
    obtain ⟨v, hv, rfl⟩ := mem_map.mp ht
    exact (cellText_of_plain (isPlain_of_mem_tableRows hp r hr v hv)).2

end

lemma Draws.no_breaks {rows} (h : Draws rows lines) (hch : ∀ texts ∈ rows, ∀ s ∈ texts, ∀ c ∈ s, isCellChar c) :
    ∀ line ∈ lines, ∀ c ∈ line, c ≠ '\n' ∧ c ≠ '\r' := by
  have hb : ∀ c, isCellChar c → c ≠ '\n' ∧ c ≠ '\r' := by
    intro c hc
    constructor <;> rintro rfl <;> exact absurd hc (by decide)
  induction h with
  | nil => simp
  | @ruling line _ _ hl _ ih =>
    refine forall_mem_cons.mpr ⟨fun c hc => ?_, ih hch⟩
    constructor <;> rintro rfl <;> exact absurd (hl _ hc) (by decide)
  | @row texts line _ _ hl _ ih =>
    obtain ⟨_, hce, rfl⟩ := hl
    refine forall_mem_cons.mpr ⟨fun c hc => ?_, ih fun t ht => hch t (.tail _ ht)⟩
    -- a character of such a line is a bar, a blank, or part of a text
    have hba : c = '|' → c ≠ '\n' ∧ c ≠ '\r' := by
      rintro rfl
      decide
    simp only [cons_append, mem_cons, mem_append, not_mem_nil, or_false] at hc
    rcases hc with hc | hc | hc
    · exact hba hc
    · rcases mem_join hc with hc | ⟨_, hcel, hc⟩
      · exact hba (mem_singleton.mp hc)
      · rcases padded_mem hce hcel hc with rfl | ⟨text, hte, hc⟩
        · decide
        · exact hb c (hch texts (.head _) text hte c hc)
    · exact hba hc

lemma outcome_collectRecords {lines} (h : lines.map read = values.map .ok) (s) :
    (collectRecords lines).outcome s = (.ok values, s) := by
  induction lines generalizing values with
  | nil =>
    obtain rfl : values = [] := by simpa using h.symm
    rfl
  | cons line lines ih =>
    cases values with
    | nil => exact absurd h (by simp)
    | cons v values =>
      obtain ⟨hr, hre⟩ := List.cons.inj h
      rw [collectRecords, hr]
      exact (bind_of_ok (ih hre)).trans rfl

lemma outcome_writeRecords {options s text table}
    (hi : Act.streamInput.outcome s = (.ok (text, none), s)) (hr : s.readerGone = false)
    (hv : (fullLines text).map read = values.map .ok) (hne : values ≠ []) (ht : tableText options values = .ok table) :
    (writeRecords options).outcome s = (.ok (), { s with out := (table ++ "\n") :: s.out }) := by
  rw [writeRecords, bind_of_ok hi]
  have hc := outcome_collectRecords hv s
  rw [bind_of_ok hc]
  have he : values.isEmpty = false := by simpa using hne
  simp only [he, Bool.false_eq_true, if_false, ht]
  rw [Act.bind_of_ok (Act.outcome_ofResult_ok table s), Act.print, Act.write,
    bind_of_ok (outcome_get s), hr]
  rfl

/-! ## The round trip -/

/-- **A grid of plain records is read back.** Standard input holds records, one on a line, with some field between them,
whose names and values are plain. Then the writer prints a table, and reading it as a grid gives the records in their
order, each with all the fields of the table. -/
theorem grid_round_trip (s : Session) (text : String) (records : List Fields)
    (hinput : Act.streamInput.outcome s = (.ok (text, none), s)) (hreader : s.readerGone = false)
    (hlines : (Json.fullLines text).map Json.read = records.map fun fs => .ok (.map fs))
    (hkeys : records.flatMap Fields.keys ≠ []) (hplain : ∀ fs ∈ records, isPlainRecord fs = true) :
    ∃ table, (writeRecords {}).outcome s = (.ok (), { s with out := table :: s.out }) ∧
      ∀ s' : Session, s'.input = .text table → (readInput (.str "grid")).outcome s' =
        (.ok (.ofList (records.map fun fs => .map (completed (fieldNames records) fs))), s') := by
  obtain ⟨lines, htable, hdraws⟩ := tableText_draws hkeys hplain
  have hne : records.map Value.map ≠ [] := by
    intro hnil
    rw [List.map_eq_nil_iff.mp hnil] at hkeys
    exact hkeys rfl
  have hdrawn : lines ≠ [] := by
    rintro rfl
    cases hdraws
  have hbreaks := hdraws.no_breaks (isCellChar_of_mem_table hkeys hplain)
  refine ⟨String.ofList (join ['\n'] lines) ++ "\n", ?_, fun s' hs' => ?_⟩
  · refine outcome_writeRecords hinput hreader ?_ hne htable
    rw [hlines, List.map_map]
    rfl
  · obtain ⟨shownText, hshown, htext⟩ := outcome_streamInput_lines hdrawn hbreaks hs'
    have hread := outcome_readInput_name (k := .grid) (by decide) hshown
    rw [htext, records_of_draws (areHeaders_fieldNames hkeys hplain)
      (fun r => length_of_mem_tableRows) (isPlain_of_mem_tableRows hplain) hdraws, tableRows, List.map_map] at hread
    simp only [Function.comp_def, zip_valuesAt] at hread
    exact hread

/-- Two records without a common field. One of the texts looks like a ruling. -/
def signs : List Fields := [[("a", "+-"), ("n", .int (-5))], [("b", true)]]

def signLines : String := "\x7b\"a\":\"+-\",\"n\":-5\x7d\n\x7b\"b\":true\x7d\n"

lemma read_signLines : (Json.fullLines signLines).map Json.read = signs.map fun fs => .ok (.map fs) := by
  have hl : fullLines signLines = ["\x7b\"a\":\"+-\",\"n\":-5\x7d", "\x7b\"b\":true\x7d"] := by decide +kernel
  have hf : read "\x7b\"a\":\"+-\",\"n\":-5\x7d" = .ok (.map [("a", "+-"), ("n", .int (-5))]) := read_of_chars rfl rfl
  have hs : read "\x7b\"b\":true\x7d" = .ok (.map [("b", true)]) := read_of_chars rfl rfl
  rw [hl]
  simp only [map_cons, map_nil, hf, hs, signs]

theorem grid_round_trip_signs : (Json.fullLines signLines).map Json.read = signs.map (fun fs => .ok (.map fs)) ∧
    ∃ table, (writeRecords {}).outcome { input := .text signLines } = (.ok (), { input := .text signLines, out := [table] }) ∧
      (readInput (.str "grid")).outcome { input := .text table } =
        (.ok (.ofList [.map [("a", .str "+-"), ("n", .int (-5)), ("b", .null)],
          .map [("a", .null), ("n", .null), ("b", .bool true)]]), { input := .text table }) := by
  obtain ⟨table, hwrite, hread⟩ := grid_round_trip { input := .text signLines } signLines signs
    (outcome_streamInput rfl (by decide +kernel)) rfl read_signLines (by decide) (by decide +kernel)
  exact ⟨read_signLines, table, hwrite, hread { input := .text table } rfl⟩

lemma outcome_writeRecords_power {n} (h : mostDigits ≤ n) :
    (writeRecords {}).outcome { input := .text (render {} (.map [("a", .int (10 ^ n : Nat))])) } =
      (.error (.fault (tooManyDigits (n + 1))), { input := .text (render {} (.map [("a", .int (10 ^ n : Nat))])) }) := by
  rw [render_power]
  have hr : '\r' ∉ (ofList (powerText n)).toList := by
    rw [toList_ofList]
    exact fun hm => absurd (mem_powerText hm) (by decide)
  have hc : ∀ s, (collectRecords [ofList (powerText n)]).outcome s =
      (.error (.fault (tooManyDigits (n + 1))), s) := by
    intro s
    rw [collectRecords, read_power h]
    rfl
  rw [writeRecords, bind_of_ok (outcome_streamInput rfl hr)]
  simp only [fullLines_power]
  rw [outcome_bind, hc]

/-- **A number of 4301 digits** makes no table: the record has a JSON text, but it is not read. -/
theorem writeRecords_long_number :
    (writeRecords {}).outcome { input := .text (Json.render {} (.map [("a", .int (10 ^ 4300 : Nat))])) } =
      (.error (.fault (Number.tooManyDigits 4301)),
        { input := .text (Json.render {} (.map [("a", .int (10 ^ 4300 : Nat))])) }) :=
  outcome_writeRecords_power le_rfl

end Sluice.Table
