import Mathlib.Data.Nat.Digits.Defs
import Sluice.Proofs.Number.Whole
import Sluice.Workbook.Range

/-!
# Ranges as they are written

Letters and digits do not mix, so a range can be cut in one way only.
-/

namespace Sluice.Workbook

open List Text Number Range String

variable {c : Char} {s : Chars}

/-! ## Letters -/

def capitals : Chars := (List.range 26).map letterOf

def smallLetters : Chars := capitals.map Char.toLower

lemma toUpper_eq_self_or (c) : c.toUpper = c ∨ c ∈ smallLetters := by
  delta Char.toUpper
  split
  · rename_i h
    obtain ⟨hl, hh⟩ : 97 ≤ c.toNat ∧ c.toNat ≤ 122 := by simpa [UInt32.le_iff_toNat_le] using h
    right
    rw [← Char.ofNat_toNat c]
    interval_cases c.toNat <;> decide
  · exact .inl rfl

lemma isColumnLetter_of_toUpper (h : c.toUpper ∈ capitals) : isColumnLetter c ∧ upperChar c = [c.toUpper] := by
  have hca : ∀ d ∈ capitals, isColumnLetter d ∧ upperChar d = [d] := all_iff_forall_prop.mp (by decide)
  have hs : ∀ d ∈ smallLetters, isColumnLetter d ∧ upperChar d = [d.toUpper] := all_iff_forall_prop.mp (by decide)
  rcases toUpper_eq_self_or c with he | hc
  · rw [he] at h ⊢
    exact hca c h
  · exact hs c hc

lemma upper_of_letters (hs : ∀ c ∈ s, c.toUpper ∈ capitals) : upper s = s.map Char.toUpper := by
  rw [upper, flatMap_congr fun c hc => (isColumnLetter_of_toUpper (hs c hc)).2]
  exact map_eq_flatMap.symm

/-- Where there are no letters, there is no case. -/
lemma eq_of_map_toUpper {t : Chars} (h : s.map Char.toUpper = t) (ht : ∀ c ∈ t, c ∉ capitals) : s = t := by
  have hs : ∀ d ∈ smallLetters, d.toUpper ∈ capitals := all_iff_forall_prop.mp (by decide)
  refine ((map_id s).symm.trans (map_congr_left fun c hc => ?_)).trans h
  rcases toUpper_eq_self_or c with he | hm
  · exact he.symm
  · exact absurd (hs c hm) (ht _ (h ▸ mem_map_of_mem hc))

variable {n : Nat}

lemma mem_capitals_of_mem_columnLetters (h : c ∈ columnLetters n) : c ∈ capitals := by
  have hl : ∀ d < 26, letterOf d ∈ capitals := fun d hd => mem_map_of_mem (mem_range.mpr hd)
  induction n using columnLetters.induct with
  | case1 =>
    rw [columnLetters] at h
    cases h
  | case2 n hn ih =>
    rw [columnLetters, if_neg hn] at h
    rcases mem_append.mp h with h | h
    · exact ih h
    · exact mem_singleton.mp h ▸ hl _ (Nat.mod_lt _ (by decide))

/-- Letters that name a column, in capitals or not. -/
structure Spells (letters : Chars) (n : Nat) : Prop where
  pos : 1 ≤ n
  capitals : letters.map Char.toUpper = columnLetters n

namespace Spells

variable {letters : Chars} {n : Nat}

lemma toUpper_mem (h : Spells letters n) (hc : c ∈ letters) : c.toUpper ∈ Workbook.capitals :=
  mem_capitals_of_mem_columnLetters (h.capitals ▸ mem_map_of_mem hc)

lemma exists_cons (h : Spells letters n) : ∃ c cs, letters = c :: cs := by
  refine exists_cons_of_ne_nil fun hn => ?_
  have hp := h.pos
  have hl := h.capitals
  rw [hn, columnLetters, if_neg (by omega)] at hl
  simp at hl

/-- **Columns are read back** from their letters. -/
lemma columnNumber_eq (h : Spells letters n) : columnNumber letters = n := by
  have hu : upper letters = columnLetters n := (upper_of_letters fun c hc => h.toUpper_mem hc).trans h.capitals
  have hv : ∀ d < 26, letterValue (letterOf d) = d + 1 := by decide
  rw [columnNumber, hu]
  clear hu h
  induction n using columnLetters.induct with
  | case1 =>
    rw [columnLetters]
    rfl
  | case2 n hn ih =>
    rw [columnLetters, if_neg hn, foldl_concat, hv _ (Nat.mod_lt _ (by decide))]
    omega

end Spells

section Order

/-! ## The order of columns -/

lemma toUpper_mem_capitals (h : c.isAlpha) : c.toUpper ∈ capitals := by
  have hr : (65 ≤ c.toNat ∧ c.toNat ≤ 90) ∨ 97 ≤ c.toNat ∧ c.toNat ≤ 122 := by
    have h : (decide (65 ≤ c.val ∧ c.val ≤ 90) || decide (97 ≤ c.val) && decide (c.val ≤ 122)) = true := h
    simpa [UInt32.le_iff_toNat_le] using h
  rw [← Char.ofNat_toNat c]
  obtain ⟨hl, hh⟩ | ⟨hl, hh⟩ := hr
  · interval_cases c.toNat <;> decide
  · interval_cases c.toNat <;> decide

lemma letterValue_of_capital (h : c ∈ capitals) : 1 ≤ letterValue c ∧ letterValue c ≤ 26 ∧ letterOf (letterValue c - 1).toNat = c := by
  have ha : ∀ d ∈ capitals, 1 ≤ letterValue d ∧ letterValue d ≤ 26 ∧ letterOf (letterValue d - 1).toNat = d :=
    all_iff_forall_prop.mp (by decide)
  exact ha c h

lemma letterValue_lt {d} (h : c < d) : letterValue c < letterValue d := by
  have hlt : c.toNat < d.toNat := UInt32.lt_iff_toNat_lt.mp h
  rw [letterValue, letterValue]
  omega

/-- The number that letters give behind others that count for `n`. -/
def numberFrom (n : Int) (letters : Chars) : Int := letters.foldl (fun n c => n * 26 + letterValue c) n

lemma numberFrom_cons (n) : numberFrom n (c :: s) = numberFrom (n * 26 + letterValue c) s := rfl

lemma columnNumber_eq_numberFrom (hs : ∀ c ∈ s, c.isAlpha) : columnNumber s = numberFrom 0 (s.map Char.toUpper) := by
  rw [columnNumber, upper_of_letters fun c hc => toUpper_mem_capitals (hs c hc), numberFrom]

variable {t : Chars} {m n : Int}

lemma le_numberFrom (hn : 0 ≤ n) (hs : ∀ c ∈ s, c ∈ capitals) : n ≤ numberFrom n s := by
  induction s generalizing n with
  | nil => exact Int.le_refl n
  | cons c s ih =>
    obtain ⟨hc, hs⟩ := forall_mem_cons.mp hs
    have hp := (letterValue_of_capital hc).1
    rw [numberFrom_cons]
    exact Int.le_trans (by omega) (ih (by omega) hs)

/-- **The letters of a column come back** from its number. -/
lemma columnLetters_numberFrom (hs : ∀ c ∈ s, c ∈ capitals) : columnLetters (numberFrom 0 s).toNat = s := by
  induction s using reverseRecOn with
  | nil =>
    rw [columnLetters]
    rfl
  | append_singleton s c ih =>
    obtain ⟨hs, hc⟩ := forall_mem_append.mp hs
    obtain ⟨_, hh, hl⟩ := letterValue_of_capital (hc c (.head _))
    have hp := le_numberFrom (Int.le_refl 0) hs
    have hla : numberFrom 0 (s ++ [c]) = numberFrom 0 s * 26 + letterValue c := foldl_concat ..
    have hf : ((numberFrom 0 (s ++ [c])).toNat - 1) / 26 = (numberFrom 0 s).toNat := by omega
    have hd : ((numberFrom 0 (s ++ [c])).toNat - 1) % 26 = (letterValue c - 1).toNat := by omega
    rw [columnLetters, if_neg (by omega), hf, hd, ih hs, hl]

/-- Equally many letters keep the order of the numbers before them: a digit is at most 26 and at least 1. -/
lemma numberFrom_lt_of_lt (hl : s.length = t.length) (hs : ∀ c ∈ s, c ∈ capitals) (ht : ∀ c ∈ t, c ∈ capitals)
    (h : m < n) : numberFrom m s < numberFrom n t := by
  induction s generalizing t m n with
  | nil =>
    obtain rfl := length_eq_zero_iff.mp hl.symm
    exact h
  | cons c s ih =>
    obtain ⟨d, t, rfl⟩ := exists_cons_of_length_eq_add_one hl.symm
    obtain ⟨hc, hs⟩ := forall_mem_cons.mp hs
    obtain ⟨hd, ht⟩ := forall_mem_cons.mp ht
    have hh := (letterValue_of_capital hc).2.1
    have hlo := (letterValue_of_capital hd).1
    rw [numberFrom_cons, numberFrom_cons]
    exact ih (Nat.add_right_cancel hl) hs ht (by omega)

lemma numberFrom_lt_iff (hl : s.length = t.length) (hs : ∀ c ∈ s, c ∈ capitals) (ht : ∀ c ∈ t, c ∈ capitals) :
    numberFrom n s < numberFrom n t ↔ s < t := by
  induction s generalizing t n with
  | nil =>
    obtain rfl := length_eq_zero_iff.mp hl.symm
    simp
  | cons c s ih =>
    obtain ⟨d, t, rfl⟩ := exists_cons_of_length_eq_add_one hl.symm
    have hr : s.length = t.length := Nat.add_right_cancel hl
    replace hs := (forall_mem_cons.mp hs).2
    replace ht := (forall_mem_cons.mp ht).2
    rw [cons_lt_cons_iff, numberFrom_cons, numberFrom_cons]
    by_cases hlt : c < d
    · have hv := letterValue_lt hlt
      exact iff_of_true (numberFrom_lt_of_lt hr hs ht (by omega)) (.inl hlt)
    · by_cases hgt : d < c
      · have hv := letterValue_lt hgt
        refine iff_of_false (Int.not_lt.mpr (Int.le_of_lt (numberFrom_lt_of_lt hr.symm ht hs (by omega)))) ?_
        rintro (h | ⟨rfl, -⟩)
        · exact hlt h
        · exact hlt hgt
      · obtain rfl := Char.le_antisymm (Char.not_lt.mp hgt) (Char.not_lt.mp hlt)
        rw [ih hr hs ht, or_iff_right hlt, and_iff_right rfl]

lemma numberFrom_lt_of_length (h : s.length < t.length) (hs : ∀ c ∈ s, c ∈ capitals) (ht : ∀ c ∈ t, c ∈ capitals) :
    numberFrom 0 s < numberFrom 0 t := by
  -- the letters that `t` has more stand in front and count for at least one
  obtain ⟨c, t, rfl⟩ := exists_cons_of_length_pos (Nat.zero_lt_of_lt h)
  obtain ⟨a, b, rfl, hb⟩ : ∃ a b, t = a ++ b ∧ s.length = b.length :=
    ⟨t.take (t.length - s.length), t.drop (t.length - s.length), (take_append_drop _ _).symm, by simp at h ⊢; omega⟩
  obtain ⟨hc, ht⟩ := forall_mem_cons.mp ht
  obtain ⟨ha, hb'⟩ := forall_mem_append.mp ht
  have hp := (letterValue_of_capital hc).1
  have hsp : numberFrom 0 (c :: (a ++ b)) = numberFrom (numberFrom (0 * 26 + letterValue c) a) b := foldl_append
  rw [hsp]
  exact numberFrom_lt_of_lt hb hs hb' (Int.lt_of_lt_of_le (by omega) (le_numberFrom (by omega) ha))

/-- **Letters number the columns in the order of a spreadsheet**: a name comes back in capitals, and of two names the shorter
one stands first, or that which is first in the alphabet. -/
theorem columnNumber_order (hs : ∀ c ∈ s, c.isAlpha) (ht : ∀ c ∈ t, c.isAlpha) :
    columnLetters (columnNumber s).toNat = s.map Char.toUpper ∧ (columnNumber s < columnNumber t ↔
      s.length < t.length ∨ s.length = t.length ∧ s.map Char.toUpper < t.map Char.toUpper) := by
  have hcapitals {s : Chars} (hs : ∀ c ∈ s, c.isAlpha) : ∀ c ∈ s.map Char.toUpper, c ∈ capitals :=
    forall_mem_map.mpr fun c hc => toUpper_mem_capitals (hs c hc)
  have hls : (s.map Char.toUpper).length = s.length := length_map _
  have hlt : (t.map Char.toUpper).length = t.length := length_map _
  rw [columnNumber_eq_numberFrom hs, columnNumber_eq_numberFrom ht, ← hls, ← hlt]
  refine ⟨columnLetters_numberFrom (hcapitals hs), ?_⟩
  rcases Nat.lt_trichotomy (s.map Char.toUpper).length (t.map Char.toUpper).length with h | h | h
  · exact iff_of_true (numberFrom_lt_of_length h (hcapitals hs) (hcapitals ht)) (.inl h)
  · rw [numberFrom_lt_iff h (hcapitals hs) (hcapitals ht), or_iff_right (by omega), and_iff_right h]
  · exact iff_of_false (Int.not_lt.mpr (Int.le_of_lt (numberFrom_lt_of_length h (hcapitals ht) (hcapitals hs)))) (by omega)

theorem columnNumber_order_carry :
    columnLetters (columnNumber ['z', 'Z']).toNat = ['Z', 'Z'] ∧ columnNumber ['z', 'Z'] < columnNumber ['a', 'a', 'a'] := by
  obtain ⟨hback, horder⟩ := @columnNumber_order ['z', 'Z'] ['a', 'a', 'a'] (all_eq_true.mp (by decide)) (all_eq_true.mp (by decide))
  exact ⟨hback, horder.mpr (.inl (by decide))⟩

end Order

/-! ## Corners -/

lemma isDecimal_of_mem_natText (h : c ∈ natText n) : isDecimal c ∧ isColumnLetter c = false ∧ c ∉ capitals :=
  have hd : ∀ d ∈ decimalChars, isDecimal d ∧ isColumnLetter d = false ∧ d ∉ capitals := all_iff_forall_prop.mp (by decide)
  hd c (mem_decimalChars (isAsciiDigit_of_mem_natText h))

lemma rowOf_bind_eq_ok_iff {f} {r : Range} :
    (rowOf (natText n) >>= f) = .ok r ↔ (natText n).length ≤ mostDigits ∧ f n = .ok r := by
  rw [show rowOf (natText n) = _ from parseInt_intText n, Int.natAbs_natCast]
  by_cases h : (natText n).length ≤ mostDigits
  · rw [if_pos h, and_iff_right h]
    rfl
  · rw [if_neg h]
    exact iff_of_false (fun hr => by cases hr) fun hr => h hr.1

def Corner.text (a : Corner) : Chars := a.letters ++ a.digits

/-- A corner that gives a column and a row, or one of them. -/
structure Corner.Gives (a : Corner) (col? row? : Option Nat) : Prop where
  letters : col?.elim (a.letters = []) (Spells a.letters)
  digits : a.digits = row?.elim [] natText

/-- The corner with this column and this row, in capitals. -/
def cornerText (col? row? : Option Nat) : Chars := col?.elim [] columnLetters ++ row?.elim [] natText

variable {col? row? : Option Nat}

lemma exists_corner (h : s.map Char.toUpper = cornerText col? row?)
    (hco : ∀ c ∈ col?, 1 ≤ c) : ∃ a : Corner, a.Gives col? row? ∧ s = a.text := by
  obtain ⟨letters, d, rfl, hl, hd⟩ := map_eq_append_iff.mp h
  refine ⟨⟨letters, d⟩, ⟨?_, ?_⟩, rfl⟩
  · cases col? with
    | none => exact map_eq_nil_iff.mp hl
    | some c => exact ⟨hco c rfl, hl⟩
  · refine eq_of_map_toUpper hd fun c hc => ?_
    cases row? with
    | none => cases hc
    | some n => exact (isDecimal_of_mem_natText hc).2.2

lemma exists_corners {col?' row?'}
    (h : s.map Char.toUpper = cornerText col? row? ++ ':' :: cornerText col?' row?') (hco : ∀ c ∈ col?, 1 ≤ c)
    (hco' : ∀ c ∈ col?', 1 ≤ c) : ∃ a b : Corner, a.Gives col? row? ∧ b.Gives col?' row?' ∧ s = a.text ++ ':' :: b.text := by
  obtain ⟨_, _, rfl, hf, hr⟩ := map_eq_append_iff.mp h
  obtain ⟨mark, _, rfl, hm, hl⟩ := map_eq_cons_iff.mp hr
  obtain ⟨a, ha, rfl⟩ := exists_corner hf hco
  obtain ⟨b, hb, rfl⟩ := exists_corner hl hco'
  have hc : [mark] = [':'] := eq_of_map_toUpper (by rw [map_singleton, hm])
    (all_iff_forall_prop.mp (by decide))
  exact ⟨a, b, ha, hb, by rw [singleton_inj.mp hc]⟩

lemma takeWhile_append_stop {p} {a rest : Chars} (ha : ∀ c ∈ a, p c)
    (hr : ∀ c ∈ rest.head?, p c = false) : (a ++ rest).takeWhile p = a := by
  rw [takeWhile_append_of_pos ha]
  cases rest with
  | nil => simp
  | cons c rest => simp [hr c rfl]

variable {col row : Nat}

namespace Corner.Gives

variable {a b : Corner} {col? row? col?' row?' : Option Nat}

lemma isColumnLetter (h : a.Gives col? row?) : ∀ c ∈ a.letters, isColumnLetter c := by
  intro c hc
  have hl := h.letters
  cases col? with
  | none =>
    rw [show a.letters = [] from hl] at hc
    cases hc
  | some n => exact (isColumnLetter_of_toUpper (Spells.toUpper_mem hl hc)).1

lemma isDecimal (h : a.Gives col? row?) : ∀ c ∈ a.digits, isDecimal c ∧ Workbook.isColumnLetter c = false := by
  intro c hc
  rw [h.digits] at hc
  cases row? with
  | none => cases hc
  | some n => exact ⟨(isDecimal_of_mem_natText hc).1, (isDecimal_of_mem_natText hc).2.1⟩

/-- **A corner ends** where neither letters nor digits go on. -/
lemma takeCorner_append (h : a.Gives col? row?) {rest}
    (hr : ∀ c ∈ rest.head?, Workbook.isColumnLetter c = false ∧ Text.isDecimal c = false) :
    takeCorner (a.text ++ rest) = (a, rest) := by
  have hl : (a.letters ++ (a.digits ++ rest)).takeWhile Workbook.isColumnLetter = a.letters := by
    refine takeWhile_append_stop h.isColumnLetter fun c hc => ?_
    cases hd : a.digits with
    | nil => exact (hr c (by simpa [hd] using hc)).1
    | cons d ds =>
      obtain rfl : d = c := by simpa [hd] using hc
      exact (h.isDecimal d (hd ▸ .head _)).2
  have hd : (a.digits ++ rest).takeWhile Text.isDecimal = a.digits :=
    takeWhile_append_stop (fun c hc => (h.isDecimal c hc).1) fun c hc => (hr c hc).2
  simp [takeCorner, text, hl, hd]

lemma corners?_single (h : a.Gives col? row?) : corners? a.text = some (a, none) := by
  have ht : takeCorner (a.text ++ []) = (a, []) := h.takeCorner_append (by simp)
  rw [append_nil] at ht
  simp [corners?, ht]

lemma corners?_pair (ha : a.Gives col? row?) (hb : b.Gives col?' row?') :
    corners? (a.text ++ ':' :: b.text) = some (a, some b) := by
  have hf : takeCorner (a.text ++ ':' :: b.text) = (a, ':' :: b.text) := ha.takeCorner_append (by simp; decide)
  have hl : takeCorner (b.text ++ []) = (b, []) := hb.takeCorner_append (by simp)
  rw [append_nil] at hl
  simp [corners?, hf, hl]

lemma mark_not_mem (h : a.Gives col? row?) : '!' ∉ a.text := by
  intro hm
  rcases mem_append.mp hm with hm | hm
  · exact absurd (h.isColumnLetter _ hm) (by decide)
  · exact absurd (h.isDecimal _ hm).1 (by decide)

lemma mark_not_mem_pair (ha : a.Gives col? row?) (hb : b.Gives col?' row?') : '!' ∉ a.text ++ ':' :: b.text := by
  simp [ha.mark_not_mem, hb.mark_not_mem]

lemma exists_letters (h : a.Gives (some col) row?) : ∃ c cs, a.letters = c :: cs ∧ columnNumber (c :: cs) = col := by
  obtain ⟨c, cs, hl⟩ := Spells.exists_cons h.letters
  exact ⟨c, cs, hl, hl ▸ Spells.columnNumber_eq h.letters⟩

lemma exists_digits (h : a.Gives col? (some row)) : ∃ d ds, a.digits = d :: ds ∧ rowOf (d :: ds) = rowOf (natText row) := by
  obtain ⟨d, ds, hd⟩ := exists_cons_of_ne_nil (natText_ne_nil row)
  exact ⟨d, ds, h.digits.trans hd, by rw [hd]⟩

end Corner.Gives

/-! ## Ranges -/

/-- What a range names: a cell, the cells from one corner to another, columns, or rows. -/
inductive Extent
  | cell (col row : Nat)
  | cells (left top right bottom : Nat)
  | columns (left right : Nat)
  | rows (top bottom : Nat)

namespace Extent

/-- How it is written, in capitals. -/
def text : Extent → Chars
  | cell col row => cornerText (some col) (some row)
  | cells left top right bottom => cornerText (some left) (some top) ++ ':' :: cornerText (some right) (some bottom)
  | columns left right => cornerText (some left) none ++ ':' :: cornerText (some right) none
  | rows top bottom => cornerText none (some top) ++ ':' :: cornerText none (some bottom)

def range (sheet? : Option String) : Extent → Range
  | cell col row => ⟨sheet?, some row, some row, some col, some col⟩
  | cells left top right bottom => ⟨sheet?, some top, some bottom, some left, some right⟩
  | columns left right => ⟨sheet?, none, none, some left, some right⟩
  | rows top bottom => ⟨sheet?, some top, some bottom, none, none⟩

/-- Columns are numbered from 1. -/
def IsPlaced : Extent → Prop
  | cell col _ => 1 ≤ col
  | cells left _ right _ | columns left right => 1 ≤ left ∧ 1 ≤ right
  | rows .. => True

/-- No row has too many digits. -/
def Fits : Extent → Prop
  | cell _ row => (natText row).length ≤ mostDigits
  | cells _ top _ bottom | rows top bottom => (natText top).length ≤ mostDigits ∧ (natText bottom).length ≤ mostDigits
  | columns .. => True

end Extent

def sheetFront (sheet? : Option String) : String := sheet?.elim "" (· ++ "!")

variable {sheet? : Option String} {body : Chars}

lemma parse_front (hs : ∀ s ∈ sheet?, '!' ∉ s.toList) (hb : '!' ∉ body) {p} (hc : corners? body = some p) {r}
    (hr : rectangle? sheet? p = some r) : parse (sheetFront sheet? ++ ofList body) = r := by
  cases sheet? with
  | none =>
    have ht : (sheetFront none ++ ofList body).toList = body := by simp [sheetFront]
    have hcu : cutOnce ['!'] body = none := by
      cases hcu : cutOnce ['!'] body with
      | none => rfl
      | some q => exact absurd ((cutOnce_eq_some hcu).1 ▸ by simp) hb
    simp [parse, ht, hcu, hc, hr]
  | some s =>
    have ht : (sheetFront (some s) ++ ofList body).toList = s.toList ++ '!' :: body := by simp [sheetFront]
    have hcu := cutOnce_of_not_mem (hs s rfl) body
    simp [parse, ht, hcu, hc, hr]

/-- **A range is read as what it names**, unless a row has too many digits. -/
lemma parse_eq_ok_iff (hs : ∀ s ∈ sheet?, '!' ∉ s.toList) {e : Extent} (he : e.IsPlaced) (hbod : body.map Char.toUpper = e.text) :
    parse (sheetFront sheet? ++ ofList body) = .ok (e.range sheet?) ↔ e.Fits := by
  cases e with
  | cell col row =>
    obtain ⟨⟨_, _⟩, ha, rfl⟩ := exists_corner hbod (by simpa [Extent.IsPlaced] using he)
    obtain ⟨_, _, rfl, hc⟩ := ha.exists_letters
    obtain ⟨_, _, rfl, hro⟩ := ha.exists_digits
    rw [parse_front hs ha.mark_not_mem ha.corners?_single rfl, hro, rowOf_bind_eq_ok_iff, hc]
    exact and_iff_left rfl
  | cells left top right bottom =>
    obtain ⟨⟨_, _⟩, ⟨_, _⟩, ha, hb, rfl⟩ := exists_corners hbod (by simpa using he.1) (by simpa using he.2)
    obtain ⟨_, _, rfl, hl⟩ := ha.exists_letters
    obtain ⟨_, _, rfl, ht⟩ := ha.exists_digits
    obtain ⟨_, _, rfl, hr⟩ := hb.exists_letters
    obtain ⟨_, _, rfl, hbo⟩ := hb.exists_digits
    rw [parse_front hs (ha.mark_not_mem_pair hb) (ha.corners?_pair hb) rfl, ht, rowOf_bind_eq_ok_iff, hbo,
      rowOf_bind_eq_ok_iff, hl, hr]
    exact and_congr_right' (and_iff_left rfl)
  | columns left right =>
    obtain ⟨⟨_, _⟩, ⟨_, _⟩, ha, hb, rfl⟩ := exists_corners hbod (by simpa using he.1) (by simpa using he.2)
    obtain ⟨_, _, rfl, hl⟩ := ha.exists_letters
    obtain ⟨_, _, rfl, hr⟩ := hb.exists_letters
    obtain rfl := ha.digits
    obtain rfl := hb.digits
    rw [parse_front hs (ha.mark_not_mem_pair hb) (ha.corners?_pair hb) rfl, hl, hr]
    exact iff_of_true rfl trivial
  | rows top bottom =>
    obtain ⟨⟨_, _⟩, ⟨_, _⟩, ha, hb, rfl⟩ := exists_corners hbod (by simp) (by simp)
    obtain ⟨_, _, rfl, ht⟩ := ha.exists_digits
    obtain ⟨_, _, rfl, hbo⟩ := hb.exists_digits
    obtain rfl := ha.letters
    obtain rfl := hb.letters
    rw [parse_front hs (ha.mark_not_mem_pair hb) (ha.corners?_pair hb) rfl, ht, rowOf_bind_eq_ok_iff, hbo,
      rowOf_bind_eq_ok_iff]
    exact and_congr_right' (and_iff_left rfl)

lemma map_toUpper_cellText (row col) :
    (cornerText (some col) (some row)).map Char.toUpper = cornerText (some col) (some row) := by
  have hca : ∀ c ∈ capitals ++ decimalChars, c ∉ smallLetters := all_iff_forall_prop.mp (by decide)
  refine (map_congr_left fun c hc => (toUpper_eq_self_or c).resolve_right (hca c ?_)).trans (map_id _)
  refine mem_append.mpr ((mem_append.mp hc).imp mem_capitals_of_mem_columnLetters fun hc => ?_)
  exact mem_decimalChars (isAsciiDigit_of_mem_natText hc)

/-- **The name of a cell** is read as that cell, unless its row has too many digits. -/
lemma parse_cellName_iff (hc : 1 ≤ col) : parse (cellName row col) = .ok ⟨none, some row, some row, some col, some col⟩ ↔
      (natText row).length ≤ mostDigits := by
  have hs : ∀ s ∈ (none : Option String), '!' ∉ s.toList := by simp
  have hp := parse_eq_ok_iff hs (e := .cell col row) hc (map_toUpper_cellText row col)
  rwa [sheetFront] at hp

end Sluice.Workbook
