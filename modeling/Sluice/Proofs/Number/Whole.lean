import Mathlib.Data.Bool.AllAny
import Mathlib.Tactic.IntervalCases
import Sluice.Proofs.Text.Split
import Sluice.Value.Json

/-! # Whole numbers as text: the number reader takes it back (`readInt?_intText`) -/

namespace Sluice.Number

open List Text

variable {c : Char} {s : Chars}

lemma isAsciiDigit_of_mem_natText {n} (h : c ∈ natText n) : isAsciiDigit c := by
  have hd := Nat.isDigit_of_mem_toDigits (by decide) (by decide) h
  simpa [Char.isDigit, isAsciiDigit, UInt32.le_iff_toNat_le] using hd

lemma natText_ne_nil (n) : natText n ≠ [] := Nat.toDigits_ne_nil

lemma digitsValue_natText (n) : digitsValue (natText n) = n := by
  have h := Nat.ofDigitChars_ten_toDigits (n := n)
  exact h

lemma natText_power (n) : natText (10 ^ n) = '1' :: List.replicate n '0' := by
  induction n with
  | zero => rfl
  | succ n ih =>
    have hp : 0 < 10 ^ n := Nat.pow_pos (by decide)
    have hd := Nat.toDigits_append_toDigits (b := 10) (d := 0) (by decide) hp (by decide)
    rw [natText, Nat.pow_succ', ← Nat.add_zero (10 * 10 ^ n), ← hd]
    rw [natText] at ih
    rw [ih, replicate_succ']
    rfl

def decimalChars : Chars := ['0', '1', '2', '3', '4', '5', '6', '7', '8', '9']

lemma mem_decimalChars (h : isAsciiDigit c) : c ∈ decimalChars := by
  obtain ⟨hl, hh⟩ : 48 ≤ c.toNat ∧ c.toNat ≤ 57 := by simpa [isAsciiDigit] using h
  rw [← Char.ofNat_toNat c]
  interval_cases c.toNat <;> decide

/-! ## Signed numbers -/

def wholeChars : Chars := '-' :: decimalChars

lemma intText_toList (n) : (intText n).toList = (if n < 0 then ['-'] else []) ++ natText n.natAbs := by
  rw [intText]
  split <;> simp

lemma mem_wholeChars_of_mem_intText {n} (h : c ∈ (intText n).toList) : c ∈ wholeChars := by
  rw [intText_toList] at h
  rcases mem_append.mp h with h | h
  · split at h
    · exact mem_singleton.mp h ▸ .head _
    · exact absurd h (by simp)
  · exact mem_cons_of_mem _ (mem_decimalChars (isAsciiDigit_of_mem_natText h))

lemma lower_of_whole (hs : ∀ c ∈ s, c ∈ wholeChars) : lower s = s := by
  have hc : ∀ c ∈ wholeChars, c.toNat ≠ 0x3a3 ∧ lowerChar c = [c] := all_iff_forall_prop.mp (by decide)
  have hf : ∀ b, lowerFrom b s = s := by
    induction s with
    | nil => intro b; rfl
    | cons c s ih =>
      intro b
      obtain ⟨hsi, hl⟩ := hc c (hs c (.head _))
      rw [lowerFrom, if_neg hsi, hl, ih fun d hd => hs d (.tail _ hd)]
      rfl
  exact hf false

lemma plainDigits_of_whole (hs : ∀ c ∈ s, c ∈ wholeChars) : plainDigits s = s := by
  have hc : ∀ c ∈ wholeChars, plainDigits [c] = [c] := all_iff_forall_prop.mp (by decide)
  induction s with
  | nil => rfl
  | cons c s ih =>
    have hr := ih fun d hd => hs d (.tail _ hd)
    calc plainDigits (c :: s) = plainDigits [c] ++ plainDigits s := rfl
      _ = c :: s := by rw [hc c (hs c (.head _)), hr, singleton_append]

lemma dropUnderscores_of_none (hs : '_' ∉ s) (afterDigit) : dropUnderscores afterDigit s = some s := by
  induction s generalizing afterDigit with
  | nil => rfl
  | cons c s ih =>
    have hc : c ≠ '_' := fun he => hs (he ▸ .head _)
    have hr := ih (fun h => hs (.tail _ h)) (isAsciiDigit c)
    simp [dropUnderscores, hr]

lemma strip_of_whole (hs : ∀ c ∈ s, c ∈ wholeChars) : strip s = s := by
  have hch : ∀ c ∈ wholeChars, isBlank c = false := all_iff_forall_prop.mp (by decide)
  exact trim_of_none fun c hc => hch c (hs c hc)

lemma takeSign_natText (n) : takeSign (natText n) = (false, natText n) := by
  have hh : ∀ c ∈ natText n, c ≠ '-' ∧ c ≠ '+' := by
    intro c hc
    have hm := mem_decimalChars (isAsciiDigit_of_mem_natText hc)
    constructor <;> rintro rfl <;> exact absurd hm (by decide)
  rw [takeSign.eq_def]
  split
  · rename_i h
    exact absurd rfl (hh '-' (h ▸ .head _)).1
  · rename_i h
    exact absurd rfl (hh '+' (h ▸ .head _)).2
  · rfl

lemma wholeDigits?_intText (n) : wholeDigits? (intText n).toList = some (decide (n < 0), natText n.natAbs) := by
  have hw : ∀ c ∈ (intText n).toList, c ∈ wholeChars := fun c => mem_wholeChars_of_mem_intText
  have hu : '_' ∉ (intText n).toList := fun h => absurd (hw _ h) (by decide)
  have hd : (natText n.natAbs).all isAsciiDigit := all_eq_true.mpr fun c => isAsciiDigit_of_mem_natText
  have hs : takeSign (intText n).toList = (decide (n < 0), natText n.natAbs) := by
    rw [intText_toList]
    by_cases hn : n < 0
    · simp [hn, takeSign]
    · simp [hn, takeSign_natText]
  rw [wholeDigits?, strip_of_whole hw, plainDigits_of_whole hw, dropUnderscores_of_none hu]
  simp [hs, hd, natText_ne_nil]

/-- **Whole numbers are read back** from their text. -/
lemma readInt?_intText {n} (hn : (natText n.natAbs).length ≤ mostDigits) : readInt? (intText n).toList = some n := by
  rw [readInt?, wholeDigits?_intText]
  simp only [digitsValue_natText, Nat.not_lt.mpr hn, if_false, Option.some.injEq, decide_eq_true_eq]
  split <;> omega

lemma parseInt_intText (n) : parseInt (intText n) =
    if (natText n.natAbs).length ≤ mostDigits then .ok n else .error (tooManyDigits (natText n.natAbs).length) := by
  by_cases h : (natText n.natAbs).length ≤ mostDigits
  · rw [if_pos h, parseInt, readInt?_intText h]
  · have hl : readInt? (intText n).toList = none := by
      rw [readInt?, wholeDigits?_intText]
      exact if_pos (Nat.not_le.mp h)
    rw [if_neg h, parseInt, hl, wholeDigits?_intText]

lemma digitsValue_lt {ds} (h : ds.all isAsciiDigit) : digitsValue ds < 10 ^ ds.length := by
  induction ds using reverseRecOn with
  | nil => decide
  | append_singleton ds c ih =>
    obtain ⟨hds, hc⟩ : ds.all isAsciiDigit ∧ isAsciiDigit c := by simpa using h
    have hlt := ih hds
    have hd : c.toNat ≤ 57 := by simp [isAsciiDigit] at hc; exact hc.2
    rw [digitsValue, foldl_concat, ← digitsValue, length_append, length_singleton, Nat.pow_succ]
    omega

/-- A number that is read has no more digits than its text. -/
lemma length_natText_of_readInt? {s n} (h : readInt? s = some n) : (natText n.natAbs).length ≤ mostDigits := by
  rw [readInt?] at h
  split at h
  · cases h
  · rename_i negative ds hds
    split at h
    · cases h
    · rename_i hl
      have hd : ds.all isAsciiDigit := by
        rw [wholeDigits?] at hds
        split at hds
        · cases hds
        · dsimp only at hds
          split at hds
          · cases hds
          · rename_i ha
            obtain rfl := (Prod.mk.inj (Option.some.inj hds)).2
            exact (by simpa using ha : _ ∧ _).2
      have hn : n.natAbs = digitsValue ds := by
        rw [← Option.some.inj h]
        split <;> simp
      rw [hn, natText, Nat.length_toDigits_le_iff (by decide) (by decide)]
      exact (digitsValue_lt hd).trans_le (Nat.pow_le_pow_right (by decide) (Nat.le_of_not_lt hl))

end Sluice.Number

/-!
## Numbers that are too long

The reader of JSON refuses a whole number with too many digits, though the writer writes it.
-/

namespace Sluice.Json

open List Text Number Cursor
open String (ofList toList_inj toList_ofList)

variable {n : Nat}

def powerTail (n : Nat) : Chars := List.replicate n '0' ++ ['\x7d']

def powerText (n : Nat) : Chars := '\x7b' :: '"' :: 'a' :: '"' :: ':' :: ' ' :: '1' :: powerTail n

lemma render_field (name) (m : Int) : render {} (.map [(name, m)]) =
    "\x7b" ++ (stringText true name ++ ": " ++ intText m) ++ "\x7d" := by simp [render, renderAt, renderFields, bracket]

lemma render_power (n) : render {} (.map [("a", .int (10 ^ n : Nat))]) = ofList (powerText n) := by
  have hi : intText ((10 ^ n : Nat) : Int) = ofList ('1' :: List.replicate n '0') := by
    rw [intText, if_neg (Int.not_lt.mpr (Int.natCast_nonneg _)), Int.natAbs_natCast, natText_power]
  have hn : stringText true "a" = ofList ['"', 'a', '"'] := by decide
  rw [render_field, hi, hn, ← toList_inj]
  simp only [powerText, powerTail]
  simp

lemma mem_powerText {c} (hc : c ∈ powerText n) : c ∈ ['\x7b', '"', 'a', ':', ' ', '1', '0', '\x7d'] := by
  have hs : ∀ d ∈ ['\x7b', '"', 'a', '"', ':', ' ', '1'], d ∈ ['\x7b', '"', 'a', ':', ' ', '1', '0', '\x7d'] :=
    all_iff_forall_prop.mp (by decide)
  have hsp : powerText n = ['\x7b', '"', 'a', '"', ':', ' ', '1'] ++ powerTail n := rfl
  rw [hsp, powerTail, mem_append, mem_append] at hc
  rcases hc with hc | hc | hc
  · exact hs c hc
  · rw [eq_of_mem_replicate hc]
    decide
  · rw [mem_singleton.mp hc]
    decide

lemma fullLines_power (n) : fullLines (ofList (powerText n)) = [ofList (powerText n)] := by
  have hl : lines (powerText n) = [powerText n] := by
    have hs : splitAtChar '\n' (powerText n) = [powerText n] := splitWhere_of_none fun c hc => by
      have hb : c ≠ '\n' := by
        rintro rfl
        exact absurd (mem_powerText hc) (by decide)
      simpa using hb
    rw [lines, hs]
    rfl
  have hst : strip (powerText n) = powerText n := by
    have hle : trimLeft isBlank (powerText n) = powerText n := trimLeft_cons (by decide) _
    have he : powerText n = ('\x7b' :: '"' :: 'a' :: '"' :: ':' :: ' ' :: '1' :: List.replicate n '0') ++ ['\x7d'] := rfl
    rw [strip, trim, hle, he]
    exact trimRight_concat (by decide) _
  have hne : ofList (powerText n) ≠ "" := by
    rw [Ne, ← toList_inj, toList_ofList]
    exact cons_ne_nil _ _
  rw [fullLines, S.lines, toList_ofList, hl]
  simp [S.strip, hst, hne]

lemma number?_power (n pos) : number? ⟨'1' :: powerTail n, pos⟩ =
    some (.int (10 ^ n : Nat), drop ⟨'1' :: powerTail n, pos⟩ (n + 1)) := by
  have ht : ('1' :: powerTail n).takeWhile isAsciiDigit = '1' :: List.replicate n '0' := by
    have hz : ∀ c ∈ List.replicate n '0', isAsciiDigit c := fun c hc => eq_of_mem_replicate hc ▸ rfl
    rw [takeWhile_cons_of_pos (by decide), powerTail, takeWhile_append_of_pos hz]
    simp [isAsciiDigit]
  have hv : digitsValue ('1' :: List.replicate n '0') = 10 ^ n := by rw [← natText_power, digitsValue_natText]
  have hd : ('1' :: powerTail n).drop (n + 1) = ['\x7d'] := by simp [powerTail]
  simp [number?, ht, hv, hd]

def refusal (n : Nat) : Stop := .refused (tooManyDigits (n + 1)).message

lemma scalar_power (h : mostDigits ≤ n) (pos) : scalar ⟨'1' :: powerTail n, pos⟩ = .error (refusal n) := by
  have hc : checkSize (.int (10 ^ n : Nat)) = .error (refusal n) := by
    rw [checkSize, Int.natAbs_natCast, natText_power, length_cons, length_replicate]
    exact if_pos (Nat.lt_succ_of_le h)
  rw [scalar, number?_power]
  simp only [hc]
  rfl

lemma members_power (h : mostDigits ≤ n) (fuel pos) :
    members lastWins (fuel + 2) ⟨(powerText n).tail, pos⟩ [] = .error (refusal n) := by
  have hv : ∀ pos, value lastWins (fuel + 1) ⟨'1' :: powerTail n, pos⟩ = .error (refusal n) := by
    intro pos
    exact scalar_power h pos
  have hn : string (drop ⟨(powerText n).tail, pos⟩ 1) = .ok ("a", ⟨':' :: ' ' :: '1' :: powerTail n, pos + 3⟩) := rfl
  have hc : (drop (skip ⟨':' :: ' ' :: '1' :: powerTail n, pos + 3⟩) 1).skip =
      ⟨'1' :: powerTail n, pos + 5⟩ := rfl
  rw [members.eq_def]
  simp only [hn, hc, hv]
  rfl

/-- **A power of ten with too many digits is refused.** -/
lemma read_power (h : mostDigits ≤ n) : read (ofList (powerText n)) = .error (tooManyDigits (n + 1)) := by
  have hf : 2 * (powerText n).length + 2 = (2 * n + 15) + 3 := by
    simp only [powerText, powerTail, length_cons, length_append, length_replicate, length_nil]
    omega
  have ho : value lastWins ((2 * n + 15) + 3) (skip ⟨powerText n, 0⟩) = .error (refusal n) := members_power h (2 * n + 15) 1
  have hr : readWith lastWins (powerText n) = .error (refusal n) := by
    rw [readWith, hf, ho]
    rfl
  rw [read, toList_ofList, hr]
  rfl

end Sluice.Json
