import Mathlib.Data.List.Forall2
import Sluice.Proofs.Feed
import Sluice.Proofs.Number.Whole
import Sluice.Table.Command

/-!
# Plain cells

A value is **plain** if a cell of a grid can mean it: it means the value again (`cellValue_cellText`).
-/

namespace Sluice.Text

open List

variable {s : Chars}

lemma code?_eq_none {c} (hc : c ≠ escapeChar) (s : Chars) : code? (c :: s) = none := by
  rw [code?.eq_def]
  split <;> simp_all

lemma shownParts_of_no_code (hs : escapeChar ∉ s) {fuel} (hf : s.length < fuel) : shownParts fuel s = s.map .char := by
  induction s generalizing fuel with
  | nil => cases fuel <;> rfl
  | cons c s ih =>
    obtain ⟨fuel, rfl⟩ : ∃ n, fuel = n + 1 := Nat.exists_eq_add_one.mpr (Nat.zero_lt_of_lt hf)
    have hc : c ≠ escapeChar := fun he => hs (he ▸ .head _)
    have hr := ih (fun h => hs (.tail _ h)) (Nat.lt_of_succ_lt_succ hf)
    rw [shownParts, code?_eq_none hc, hr, map_cons]

lemma partsOf_of_no_code (hs : escapeChar ∉ s) : partsOf s = s.map .char := shownParts_of_no_code hs (Nat.lt_succ_self _)

lemma hasCodes_eq_false (hs : escapeChar ∉ s) : hasCodes s = false := by simp [hasCodes, codesOf, partsOf_of_no_code hs]

lemma visible_eq_self (hs : escapeChar ∉ s) : visible s = s := by simp [visible, partsOf_of_no_code hs, List.flatMap_map]

end Sluice.Text

namespace Sluice.Table

open List Text

variable {v : Value}

/-- Whether a character can stand in a cell: it is no bar, breaks no line and starts no code. -/
def isCellChar (c : Char) : Bool := !isBar c && c != '\n' && c != '\r' && c != escapeChar

def isCellText (s : String) : Bool := s != "" && S.strip s == s && s.toList.all isCellChar

def valueWords : List String := ["null", "none", "true", "false"]

/-- **Whether a value is plain.** -/
def isPlain : Value → Bool
  | .null | .bool _ => true
  | .int n => (Number.natText n.natAbs).length ≤ Number.mostDigits
  | .str s =>
    isCellText s && !valueWords.contains (S.lower s) && (Number.readInt? s.toList).isNone && (Number.readFloat? s.toList).isNone
  | _ => false

lemma isPlain_str {s} (h : isPlain (.str s)) :
    isCellText s ∧ S.lower s ∉ valueWords ∧ Number.readInt? s.toList = none ∧ Number.readFloat? s.toList = none := by
  simpa [isPlain, and_assoc] using h

lemma isCellText_iff {s} : isCellText s ↔ s ≠ "" ∧ strip s.toList = s.toList ∧ ∀ c ∈ s.toList, isCellChar c := by
  have hs : S.strip s = s ↔ strip s.toList = s.toList := by rw [S.strip, ← String.toList_inj, String.toList_ofList]
  simp [isCellText, hs, and_assoc]

lemma cellText_int (n) : cellText (.int n) = Number.intText n := rfl

lemma cellText_str (s) : cellText (.str s) = s := rfl

lemma cellText_of_plain (h : isPlain v) :
    strip (cellText v).toList = (cellText v).toList ∧ ∀ c ∈ (cellText v).toList, isCellChar c := by
  cases v with
  | null => exact ⟨rfl, all_eq_true.mp (by decide)⟩
  | bool b => cases b <;> exact ⟨by decide, all_eq_true.mp (by decide)⟩
  | int n =>
    have hw : ∀ c ∈ (Number.intText n).toList, c ∈ Number.wholeChars := fun c => Number.mem_wholeChars_of_mem_intText
    have hch : ∀ c ∈ Number.wholeChars, isCellChar c := all_eq_true.mp (by decide)
    exact ⟨Number.strip_of_whole hw, fun c hc => hch c (hw c hc)⟩
  | str s => exact (isCellText_iff.mp (isPlain_str h).1).2
  | _ => exact absurd h (by simp [isPlain])

/-! ## Reading back -/

lemma cellValue_of_no_word {text} (hs : strip text.toList = text.toList) (hne : text ≠ "")
    (hw : S.lower text ∉ valueWords) : cellValue text = (numberOf? text.toList).getD (.str text) := by
  have he : text.toList ≠ [] := by simpa using hne
  simp only [valueWords, mem_cons, not_or, S.lower] at hw
  obtain ⟨hn, hno, ht, hf⟩ := hw
  simp [cellValue, hs, he, hn, hno, ht, hf]

/-- **A cell that shows a plain value means it.** -/
lemma cellValue_cellText (h : isPlain v) : cellValue (cellText v) = v := by
  obtain ⟨hs, -⟩ := cellText_of_plain h
  cases v with
  | null => rfl
  | bool b => cases b <;> rfl
  | int n =>
    have hw : ∀ c ∈ (Number.intText n).toList, c ∈ Number.wholeChars := fun c => Number.mem_wholeChars_of_mem_intText
    have hl := Number.lower_of_whole hw
    -- every word for a value has a letter, and there is none among the characters of a number
    have hwo : S.lower (Number.intText n) ∉ valueWords := by
      have hle : ∀ w ∈ valueWords, (w.toList.any (· ∉ Number.wholeChars)) := by decide
      intro hm
      obtain ⟨c, hc, hno⟩ := any_iff_exists_prop.mp (hle _ hm)
      rw [S.lower, String.toList_ofList, hl] at hc
      exact hno (hw c hc)
    have hne : Number.intText n ≠ "" := by
      intro hem
      have hli := Number.intText_toList n
      rw [hem] at hli
      exact Number.natText_ne_nil _ (append_eq_nil_iff.mp hli.symm).2
    have hp : '.' ∉ (Number.intText n).toList := fun hc => absurd (hw _ hc) (by decide)
    have he : 'e' ∉ (Number.intText n).toList := fun hc => absurd (hw _ hc) (by decide)
    have hn : numberOf? (Number.intText n).toList = some (.int n) := by
      have hr := Number.readInt?_intText (n := n) (by simpa [isPlain] using h)
      simp [numberOf?, hl, hp, he, hr]
    rw [cellText_int] at hs ⊢
    rw [cellValue_of_no_word hs hne hwo, hn]
    rfl
  | str s =>
    obtain ⟨ht, hwo, hi, hf⟩ := isPlain_str h
    have hn : numberOf? s.toList = none := by simp [numberOf?, hi, hf]
    rw [cellText_str] at hs ⊢
    rw [cellValue_of_no_word hs (isCellText_iff.mp ht).1 hwo, hn]
    rfl
  | _ => exact absurd h (by simp [isPlain])

lemma cellValue_strip (text) : cellValue (S.strip text) = cellValue text := by
  have hs : strip (S.strip text).toList = strip text.toList := by
    rw [S.strip, String.toList_ofList]
    exact trim_trim _
  rw [cellValue, cellValue, hs]

lemma cellValue_cases (text) :
    cellValue text = .null ∨ (∃ b, cellValue text = .bool b) ∨ (∃ n, cellValue text = .int n ∧ isPlain (.int n)) ∨
      (∃ x, cellValue text = .float x) ∨ cellValue text = .str (S.strip text) := by
  rw [cellValue]
  split
  · exact .inl rfl
  · split
    · exact .inr (.inl ⟨true, rfl⟩)
    · split
      · exact .inr (.inl ⟨false, rfl⟩)
      · rw [numberOf?]
        split
        · cases Number.readFloat? (strip text.toList) with
          | none => exact .inr (.inr (.inr (.inr rfl)))
          | some x => exact .inr (.inr (.inr (.inl ⟨x, rfl⟩)))
        · cases hr : Number.readInt? (strip text.toList) with
          | none => exact .inr (.inr (.inr (.inr rfl)))
          | some n => exact .inr (.inr (.inl ⟨n, rfl, decide_eq_true (Number.length_natText_of_readInt? hr)⟩))

/-- **A cell that is no decimal prints back to itself**, and a text is the cell without the blanks around it. -/
theorem cellValue_stable {text : String} (h : ∀ x, cellValue text ≠ .float x) :
    cellValue (cellText (cellValue text)) = cellValue text ∧ ∀ w, cellValue text = .str w → w = S.strip text := by
  rcases cellValue_cases text with hv | ⟨b, hv⟩ | ⟨n, hv, hn⟩ | ⟨x, hv⟩ | hv
  · rw [hv]
    exact ⟨cellValue_cellText rfl, fun w hw => by cases hw⟩
  · rw [hv]
    exact ⟨cellValue_cellText rfl, fun w hw => by cases hw⟩
  · rw [hv]
    exact ⟨cellValue_cellText hn, fun w hw => by cases hw⟩
  · exact absurd hv (h x)
  · refine ⟨?_, fun w hw => (Value.str.inj (hv.symm.trans hw)).symm⟩
    rw [hv, cellText_str, cellValue_strip, hv]

theorem cellValue_stable_spaced : cellValue (cellText (cellValue " 1_0 ")) = cellValue " 1_0 " := by
  have hint : cellValue " 1_0 " = .int 10 := rfl
  exact (cellValue_stable fun x hx => by rw [hint] at hx; cases hx).1

lemma kindOf_ne_decimal (h : isPlain v) : kindOf true v ≠ .decimal := by
  cases v with
  | str s =>
    obtain ⟨ht, hw, hi, hf⟩ := isPlain_str h
    have hc : escapeChar ∉ s.toList := fun hm => absurd ((isCellText_iff.mp ht).2.2 _ hm) (by decide)
    have hn : readsAsNumber s.toList = false := by simp [readsAsNumber, hf]
    simp only [kindOf, textKind, visible_eq_self hc, hi, hn]
    split <;> simp
  | _ => simp_all [kindOf, isPlain]

lemma foldl_max_mem (kinds start) : kinds.foldl CellKind.max start ∈ start :: kinds := by
  induction kinds generalizing start with
  | nil => exact mem_singleton_self _
  | cons k kinds ih =>
    have hm : CellKind.max start k = start ∨ CellKind.max start k = k := by
      rw [CellKind.max]
      split
      · exact .inr rfl
      · exact .inl rfl
    rw [foldl_cons]
    rcases hm with hm | hm
    · rw [hm]
      exact cons_subset_cons start (subset_cons_self k kinds) (ih start)
    · rw [hm]
      exact .tail _ (ih k)

variable {cells : List Value}

lemma columnKind_ne_decimal (h : ∀ v ∈ cells, isPlain v) : columnKind true cells ≠ .decimal := by
  rcases mem_cons.mp (foldl_max_mem (cells.map (kindOf true)) .truth) with heq | hm
  · rw [columnKind, heq]
    decide
  · obtain ⟨v, hv, hk⟩ := mem_map.mp hm
    rw [columnKind, ← hk]
    exact kindOf_ne_decimal (h v hv)

lemma formatCell_of_plain (h : ∀ v ∈ cells, isPlain v) (codes v) : formatCell codes (columnKind true cells) v = .ok (cellText v) := by
  cases v <;> simp [formatCell, cellText, columnKind_ne_decimal h]

/-!
## What is in a drawn grid

Aligning a table only puts blanks around its texts (`Padded`). So a drawn grid is made of rulings and of lines that show
the texts of one row between bars (`Draws`).
-/

open Style

variable {texts : List (List Chars)} {cells : List Chars} {rows : List (List Value)} {cell text : Chars}
  {n : Nat} {α β : Type}

def Padded (cell text : Chars) : Prop := ∃ i j, cell = List.replicate i ' ' ++ text ++ List.replicate j ' '

namespace Padded

lemma refl (s) : Padded s s := ⟨0, 0, by simp⟩

lemma trans {outer} (h : Padded outer cell) (h' : Padded cell text) : Padded outer text := by
  obtain ⟨m, n, rfl⟩ := h
  obtain ⟨i, j, rfl⟩ := h'
  refine ⟨m + i, j + n, ?_⟩
  rw [replicate_add, replicate_add]
  simp only [List.append_assoc]

lemma strip_eq (h : Padded cell text) : strip cell = strip text := by
  obtain ⟨i, j, rfl⟩ := h
  exact strip_spaces i j text

lemma mem (h : Padded cell text) {c} (hc : c ∈ cell) : c = ' ' ∨ c ∈ text := by
  obtain ⟨i, j, rfl⟩ := h
  rcases mem_append.mp hc with hc | hc
  · rcases mem_append.mp hc with hc | hc
    · exact .inl (eq_of_mem_replicate hc)
    · exact .inr hc
  · exact .inl (eq_of_mem_replicate hc)

end Padded

lemma padded_mem {texts} (h : List.Forall₂ Padded cells texts)
    (hce : cell ∈ cells) {c} (hc : c ∈ cell) : c = ' ' ∨ ∃ text ∈ texts, c ∈ text := by
  induction h with
  | nil => exact absurd hce (by simp)
  | @cons _ text _ _ hp _ ih =>
    rcases mem_cons.mp hce with rfl | hce
    · exact (hp.mem hc).imp_right fun hc => ⟨text, .head _, hc⟩
    · exact (ih hce).imp_right fun ⟨t, ht, hc⟩ => ⟨t, mem_cons_of_mem text ht, hc⟩

variable (a : Align)

lemma padded_padCell (n s) : Padded (padCell a n s) s := by
  cases a with
  | right | decimal => exact ⟨n - s.length, 0, by simp [padCell, padLeft]⟩
  | center => exact ⟨_, _, rfl⟩
  | none => exact .refl s
  | left | other => exact ⟨0, n - s.length, by simp [padCell, padRight]⟩

lemma padded_padHeader (n s) : Padded (padHeader a n s) s := by
  cases a with
  | right | decimal | other => exact ⟨n - s.length, 0, by simp [padHeader, padLeft]⟩
  | center => exact ⟨_, _, rfl⟩
  | none => exact .refl s
  | left => exact ⟨0, n - s.length, by simp [padHeader, padRight]⟩

def flat : Measure := ⟨false, false⟩

variable {xs : List α} {ys : List β}

lemma forall₂_zip {γ : Type} {R} {g : α × β → γ}
    (hl : xs.length ≤ ys.length) (h : ∀ x ∈ xs, ∀ y, R (g (x, y)) x) : List.Forall₂ R ((xs.zip ys).map g) xs := by
  induction xs generalizing ys with
  | nil => exact .nil
  | cons x xs ih =>
    cases ys with
    | nil => exact absurd hl (by simp)
    | cons y ys =>
      have hr := ih (Nat.le_of_succ_le_succ hl) fun z hz => h z (.tail _ hz)
      exact .cons (h x (.head _) y) hr

lemma forall₂_zip_zip {γ δ : Type} {R} {g : (α × β) × γ → δ} {zs} (hys : xs.length ≤ ys.length) (hzs : xs.length ≤ zs.length)
    (h : ∀ x ∈ xs, ∀ y z, R (g ((x, y), z)) x) : List.Forall₂ R (((xs.zip ys).zip zs).map g) xs := by
  have hpa : List.Forall₂ (fun d p => R d p.1) (((xs.zip ys).zip zs).map g) (xs.zip ys) :=
    forall₂_zip (by rw [length_zip]; omega) fun p hp z => h p.1 (of_mem_zip hp).1 p.2 z
  rw [← forall₂_map_right_iff, map_fst_zip hys] at hpa
  exact hpa

variable {R : α → β → Prop} {as : List α} {bs : List β}

lemma isEmpty_of_forall₂ (h : List.Forall₂ R as bs) (hne : bs ≠ []) : as.isEmpty = false := by
  cases h with
  | nil => exact absurd rfl hne
  | cons => rfl

lemma padded_prepare (hc : ∀ s ∈ cells, strip s = s) : List.Forall₂ Padded (prepare flat a cells) cells := by
  have hs : List.Forall₂ Padded (cells.map strip) cells := by
    rw [map_congr_left hc, map_id', forall₂_same]
    exact fun s _ => .refl s
  cases a with
  | decimal => exact forall₂_zip (by simp) fun s _ t => ⟨0, _, rfl⟩
  | none => exact forall₂_same.mpr fun s _ => .refl s
  | left | right | center | other => exact hs

/-- **Aligning a column** puts blanks around its texts. -/
lemma padded_alignColumn (least)
    (hc : ∀ s ∈ cells, strip s = s) : List.Forall₂ Padded (alignColumn flat a least cells) cells := by
  rw [alignColumn, forall₂_map_left_iff]
  exact (padded_prepare a hc).imp fun cell text h => (padded_padCell a _ cell).trans h

/-! ## Rows and columns -/

lemma forall₂_getD {a b} (h : List.Forall₂ R as bs) (hab : R a b) (i) : R (as.getD i a) (bs.getD i b) := by
  induction h generalizing i with
  | nil => exact hab
  | cons h _ ih =>
    cases i with
    | zero => exact h
    | succ i => exact ih i

lemma padded_rowsOf {columns} (h : List.Forall₂ (List.Forall₂ Padded) columns texts) :
    List.Forall₂ (List.Forall₂ Padded) (rowsOf columns) (rowsOf texts) := by
  have hr : ∀ i, List.Forall₂ Padded (columns.map (·.getD i []))
      (texts.map (·.getD i [])) := by
    intro i
    rw [forall₂_map_left_iff, forall₂_map_right_iff]
    exact h.imp fun column column' hc => forall₂_getD hc (.refl []) i
  cases h with
  | nil => exact .nil
  | cons hf _ =>
    rw [rowsOf, rowsOf, hf.length_eq, forall₂_map_left_iff, forall₂_map_right_iff]
    exact forall₂_same.mpr fun i _ => hr i

lemma rowsOf_columns (text blank) {rows : List (List α)} (hn : 0 < n) (hro : ∀ r ∈ rows, r.length = n) :
    rowsOf ((List.range n).map fun j => rows.map fun r => text (r.getD j blank)) = rows.map (·.map text) := by
  obtain ⟨n, rfl⟩ : ∃ m, n = m + 1 := Nat.exists_eq_add_one.mpr hn
  have hrow : ∀ r ∈ rows, (List.range (n + 1)).map (fun j => text (r.getD j blank)) = r.map text := by
    intro r hr
    refine ext_getElem (by simp [hro r hr]) fun j hj hj' => ?_
    have hjr : j < r.length := by simpa using hj'
    simp [hjr]
  have hf : rowsOf ((List.range (n + 1)).map fun j => rows.map fun r => text (r.getD j blank)) =
      (List.range rows.length).map fun i => (List.range (n + 1)).map fun j =>
        (rows.map fun r => text (r.getD j blank)).getD i [] := by
    rw [range_succ_eq_map]
    simp [rowsOf]
  rw [hf]
  refine ext_getElem (by simp) fun i hi hi' => ?_
  have hir : i < rows.length := by simpa using hi'
  rw [getElem_map, getElem_map, ← hrow _ (getElem_mem hir)]
  simp [hir]

lemma maximum_of_all_eq {ns} (hne : ns ≠ []) (h : ∀ m ∈ ns, m = n) : Measure.maximum ns = n := by
  have hf : ∀ start ≤ n, ns.foldl max start = if ns = [] then start else n := by
    clear hne
    induction ns with
    | nil => simp
    | cons m ns ih =>
      intro start hs
      have hm := h m (.head _)
      rw [foldl_cons, hm, Nat.max_eq_right hs, ih (fun k hk => h k (.tail _ hk)) n le_rfl]
      simp
  rw [Measure.maximum, hf 0 (Nat.zero_le n), if_neg hne]

lemma columnsOf_eq (hne : rows ≠ []) (hro : ∀ r ∈ rows, r.length = n) :
    columnsOf rows = (List.range n).map fun j => rows.map fun r => r.getD j .null := by
  rw [columnsOf, maximum_of_all_eq (by simpa using hne) fun m hm => ?_]
  obtain ⟨r, hr, rfl⟩ := mem_map.mp hm
  exact hro r hr

def shown (v : Value) : Chars := (cellText v).toList

lemma isPlain_of_mem_columns (hp : ∀ r ∈ rows, ∀ v ∈ r, isPlain v) : ∀ c ∈ columnsOf rows, ∀ v ∈ c, isPlain v := by
  intro c hc v hv
  obtain ⟨j, -, rfl⟩ := mem_map.mp hc
  obtain ⟨r, hr, rfl⟩ := mem_map.mp hv
  rw [getD_eq_getElem?_getD]
  cases hg : r[j]? with
  | none => rfl
  | some v => exact hp r hr v (mem_of_getElem? hg)

lemma format_columns {columns : List (List Value)} (codes) (hpl : ∀ c ∈ columns, ∀ v ∈ c, isPlain v) :
    ((columns.zip (columns.map (columnKind true))).mapM fun (c, k) =>
      c.mapM fun v => (formatCell codes k v).map String.toList) = .ok (columns.map (·.map shown)) := by
  have hco : ∀ p ∈ columns.map (fun c => (c, columnKind true c)),
      (p.1.mapM fun v => (formatCell codes p.2 v).map String.toList) = .ok (p.1.map shown) := by
    intro p hp
    obtain ⟨c, hc, rfl⟩ := mem_map.mp hp
    exact mapM_eq_ok fun v _ => by rw [formatCell_of_plain (hpl c hc)]; rfl
  rw [← map_prod_left_eq_zip]
  refine (mapM_eq_ok hco).trans ?_
  rw [map_map]
  rfl

/-- **A drawing of plain values** holds their texts, with blanks around them. -/
lemma drawingOf_padded (padding numAlign textAlign) {keys} (hk : keys ≠ []) (hne : rows ≠ [])
    (hl : ∀ r ∈ rows, r.length = keys.length) (hp : ∀ r ∈ rows, ∀ v ∈ r, isPlain v) :
    ∃ d, drawingOf flat true padding numAlign textAlign ⟨keys, rows⟩ = .ok d ∧
      List.Forall₂ Padded d.headers (keys.map String.toList) ∧
      List.Forall₂ (List.Forall₂ Padded) d.rows (rows.map (·.map shown)) := by
  have hcou : 0 < keys.length := length_pos_iff.mpr hk
  have hco := columnsOf_eq hne hl
  have ht := format_columns flat.codes (isPlain_of_mem_columns hp)
  have hh : (keys.map String.toList).isEmpty = false := by simpa using hk
  have hst : ∀ c ∈ (columnsOf rows).map (·.map shown), ∀ s ∈ c, strip s = s := by
    intro c hc s hs
    obtain ⟨vs, hvs, rfl⟩ := mem_map.mp hc
    obtain ⟨v, hv, rfl⟩ := mem_map.mp hs
    exact (cellText_of_plain (isPlain_of_mem_columns hp vs hvs v hv)).1
  have hw : (columnsOf rows).length = keys.length := by simp [hco]
  rw [drawingOf]
  simp only [ht, hh, Bool.false_eq_true, if_false]
  refine ⟨_, rfl, ?_, ?_⟩
  · refine forall₂_zip_zip ?_ ?_ fun h _ a w => padded_padHeader a _ h
    · split <;> simp [hw]
    · split <;> simp [hw]
  · have hb : rowsOf ((columnsOf rows).map (·.map shown)) = rows.map (·.map shown) := by
      rw [hco]
      refine Eq.trans ?_ (rowsOf_columns shown .null hcou hl)
      simp [Function.comp_def]
    rw [← hb]
    refine padded_rowsOf (forall₂_zip_zip ?_ ?_ fun c hc a w => padded_alignColumn a w (hst c hc))
    · simp
    · simp [hw]

/-! ## Lines of a grid -/

def Shows (texts : List Chars) (line : Chars) : Prop :=
  ∃ cells, List.Forall₂ Padded cells texts ∧ line = '|' :: join ['|'] cells ++ ['|']

/-- **Lines that draw rows**: each row has a line that shows it, with rulings in between. -/
inductive Draws : (rows : List (List Chars)) → (lines : List Chars) → Prop
  | nil : Draws [] []
  | ruling {line : Chars} {rows : List (List Chars)} {lines : List Chars}
      (hline : ∀ c ∈ line, c ∈ rulingChars) (rest : Draws rows lines) : Draws rows (line :: lines)
  | row {texts : List Chars} {line : Chars} {rows : List (List Chars)}
      {lines : List Chars} (hline : Shows texts line) (rest : Draws rows lines) :
      Draws (texts :: rows) (line :: lines)

lemma Draws.append {rows rows' lines lines'}
    (h : Draws rows lines) (h' : Draws rows' lines') : Draws (rows ++ rows') (lines ++ lines') := by
  induction h with
  | nil => exact h'
  | ruling hl _ ih => exact .ruling hl ih
  | row hl _ ih => exact .row hl ih

lemma simpleRow_marks (mark c) (hm : mark.toList = [c]) (hc : isBlank c = false)
    (cells) : simpleRow mark mark mark cells = c :: join [c] cells ++ [c] := by
  rw [simpleRow, hm]
  exact trimRight_concat hc _

namespace Drawing

variable (d : Drawing)

lemma drawRow_shows {texts} (h : List.Forall₂ Padded cells texts) :
    ∃ line, d.drawRow .plainGrid false (barred "|") cells = .ok [line] ∧ Shows texts line := by
  refine ⟨'|' :: join ['|'] (padCells 1 cells) ++ ['|'], ?_, padCells 1 cells, ?_, rfl⟩
  · rw [← simpleRow_marks "|" '|' (by decide) (by decide)]
    rfl
  · rw [padCells, forall₂_map_left_iff]
    exact h.imp fun cell text hc => .trans ⟨1, 1, rfl⟩ hc

lemma drawRuling_draws (fill) (hf : ∀ c ∈ fill.toList, c ∈ rulingChars) :
    ∃ lines, d.drawRuling .plainGrid (some (.line "+" fill "+" "+")) = .ok lines ∧ Draws [] lines := by
  refine ⟨_, rfl, .ruling ?_ .nil⟩
  rw [simpleRow_marks "+" '+' (by decide) (by decide)]
  intro c hc
  have hcr : c = '+' → c ∈ rulingChars := by
    rintro rfl
    decide
  simp only [cons_append, mem_cons, mem_append, not_mem_nil, or_false] at hc
  rcases hc with hc | hc | hc
  · exact hcr hc
  · rcases mem_join hc with hc | ⟨_, hp, hc⟩
    · exact hcr (mem_singleton.mp hc)
    · obtain ⟨w, -, rfl⟩ := mem_map.mp hp
      rw [S.repeated, String.toList_ofList] at hc
      obtain ⟨_, hpa, hc⟩ := mem_flatten.mp hc
      exact hf c (eq_of_mem_replicate hpa ▸ hc)
  · exact hcr hc

lemma drawRows_draws {rows} (h : List.Forall₂ (List.Forall₂ Padded) rows texts) :
    ∃ lines, d.drawRows .plainGrid false rows = .ok lines ∧ Draws texts lines := by
  induction h with
  | nil => exact ⟨[], rfl, .nil⟩
  | @cons cells _ rows _ hrow hro ih =>
    obtain ⟨line, hd, hs⟩ := d.drawRow_shows hrow
    cases hro with
    | nil => exact ⟨[line], hd, .row hs .nil⟩
    | cons =>
      obtain ⟨between, hb, hr⟩ := d.drawRuling_draws "-" (all_iff_forall_prop.mp (by decide))
      obtain ⟨r, hre, hdr⟩ := ih
      refine ⟨[line] ++ between ++ r, ?_, .append (.append (.row hs .nil) hr) hdr⟩
      have hd' : d.drawRow .plainGrid false plainGrid.row cells = .ok [line] := hd
      have hb' : d.drawRuling .plainGrid plainGrid.between? = .ok between := hb
      rw [drawRows, hd', hb', hre]
      · rfl
      · simp

/-- **The lines of a grid** draw its headers and then its rows. -/
lemma lines_draws {headers} (hne : headers ≠ []) (hhe : List.Forall₂ Padded d.headers headers)
    (hr : List.Forall₂ (List.Forall₂ Padded) d.rows texts) :
    ∃ lines, d.lines .plainGrid false = .ok lines ∧ Draws (headers :: texts) lines := by
  obtain ⟨above, ha, hd1⟩ := d.drawRuling_draws "-" (all_iff_forall_prop.mp (by decide))
  obtain ⟨header, hh, hsh⟩ := d.drawRow_shows hhe
  obtain ⟨below, hb, hd2⟩ := d.drawRuling_draws "=" (all_iff_forall_prop.mp (by decide))
  obtain ⟨rows, hdr, hd3⟩ := d.drawRows_draws hr
  refine ⟨above ++ [header] ++ below ++ rows ++ above, ?_, ?_⟩
  · have hha := isEmpty_of_forall₂ hhe hne
    have ha' : d.drawRuling .plainGrid plainGrid.above? = .ok above := ha
    have hh' : d.drawRow .plainGrid false plainGrid.header d.headers = .ok [header] := hh
    have hb' : d.drawRuling .plainGrid plainGrid.belowHeader? = .ok below := hb
    have hl : d.drawRuling .plainGrid plainGrid.below? = .ok above := ha
    have hs : (true && plainGrid.hidesAbove) = false ∧ (true && plainGrid.hidesBelow) = false := ⟨rfl, rfl⟩
    simp only [lines, hha, Bool.not_false, hs.1, hs.2, Bool.false_eq_true, if_false, if_true, ha',
      hh', hb', hdr, hl]
    rfl
  · have hd := ((hd1.append (.row hsh .nil)).append hd2).append (hd3.append hd1)
    simpa using hd

end Drawing

end Sluice.Table
