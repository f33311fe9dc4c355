import Mathlib.Algebra.Order.Field.Rat
import Mathlib.Data.List.Perm.Basic
import Mathlib.Tactic.Linarith
import Sluice.Proofs.Text.Split
import Sluice.Slides.Inventory

/-!
# Order on a slide

Text is broken between its words (`wrapLine_keeps_words`), and shapes are read row by row (`visualOrder_rows`).
-/

namespace Sluice.Slides

open List Text

def spaced (s : Chars) : List Chars := wordsBy (· == ' ') s

variable {fits : Chars → Bool} {line w : Chars} {ws : List Chars}

lemma spaced_cut (a b : Chars) : spaced (a ++ ' ' :: b) = spaced a ++ spaced b := by
  simp [spaced, wordsBy, splitWhere_cut]

lemma spaced_of_mem (h : w ∈ splitAtChar ' ' line) : spaced w = [w].filter (!·.isEmpty) := by
  rw [spaced, wordsBy, splitWhere_of_none fun _ => eq_false_of_mem_splitWhere h]

lemma flatMap_spaced (line : Chars) : (splitAtChar ' ' line).flatMap spaced = spaced line := by
  rw [flatMap_congr fun w hw => spaced_of_mem hw, ← filter_flatMap, flatMap_singleton']
  rfl

/-- A begun line goes on with the words that follow. -/
lemma wrapWords_keeps (hw : ∀ w ∈ ws, (spaced w).length ≤ 1) (hl : fits line ∨ (spaced line).length ≤ 1) :
    (wrapWords fits line ws).flatMap spaced = spaced line ++ ws.flatMap spaced ∧
      ∀ l ∈ wrapWords fits line ws, fits l ∨ (spaced l).length ≤ 1 := by
  have hnil : spaced [] = [] := rfl
  fun_induction wrapWords fits line ws with
  | case1 line he => simp_all
  | case2 line he => simp_all
  | case3 line w rest longer hf ih =>
    obtain ⟨ihw, ihl⟩ := ih (fun v hv => hw v (.tail _ hv)) (.inl hf)
    refine ⟨ihw.trans ?_, ihl⟩
    by_cases he : line = [] <;> simp [longer, he, hnil, spaced_cut]
  | case4 line w rest longer hf he ih =>
    have h := ih (fun v hv => hw v (.tail _ hv)) (.inr (hw w (.head _)))
    simp_all
  | case5 line w rest longer hf he ih =>
    have h := ih (fun v hv => hw v (.tail _ hv)) (.inr (hw w (.head _)))
    simp_all

/-- **Breaking a line keeps its words**, whatever fits, and a line that does not fit has one word at most. -/
theorem wrapLine_keeps_words (fits : Chars → Bool) (line : Chars) :
    (wrapLine fits line).flatMap spaced = spaced line ∧ ∀ l ∈ wrapLine fits line, fits l ∨ (spaced l).length ≤ 1 := by
  rw [wrapLine]
  split
  · simp_all [spaced, wordsBy, splitWhere]
  · split
    · simp_all
    · rw [← flatMap_spaced line]
      refine wrapWords_keeps (fun w hw => ?_) (.inr (by decide))
      rw [spaced_of_mem hw]
      exact length_filter_le _ [w]

/-! ## Visual order -/

/-- Positions as exact numbers. -/
def Ruler.exact : Ruler ℚ where
  le a b := a ≤ b
  near a b := |a - b| ≤ 1 / 2

variable {α : Type} {top left : α → ℚ} {t first : ℚ} {row rest items : List α}

/-- Where the first shapes of a row are, and how far the others lie below them. -/
def IsRow (top : α → ℚ) (t : ℚ) (row : List α) : Prop :=
  (∃ a ∈ row, top a = t) ∧ ∀ a ∈ row, t ≤ top a ∧ top a ≤ t + 1 / 2

lemma isRow_singleton (a : α) : IsRow top (top a) [a] := ⟨⟨a, .head _, rfl⟩, by simp⟩

lemma rows_flatten {ρ : Type} (r : Ruler ρ) (top : α → ρ) (first : ρ) (row rest) :
    (rows r top first row rest).flatten = row ++ rest := by
  fun_induction rows r top first row rest <;> simp_all

lemma exists_forall₂_rows (h : IsRow top first row) (hs : (rest.map top).Pairwise (· ≤ ·))
    (hf : ∀ a ∈ rest, first ≤ top a) : ∃ tops, Forall₂ (IsRow top) (first :: tops) (rows .exact top first row rest) ∧
      (first :: tops).IsChain fun s t => s + 1 / 2 < t := by
  fun_induction rows Ruler.exact top first row rest with
  | case1 first row => exact ⟨[], .cons h .nil, .singleton _⟩
  | case2 first row a rest hn ih =>
    have ha := hf a (.head _)
    refine ih ⟨?_, ?_⟩ hs.of_cons fun b hb => hf b (.tail _ hb)
    · obtain ⟨b, hb, rfl⟩ := h.1
      exact ⟨b, mem_append_left _ hb, rfl⟩
    · intro b hb
      rcases mem_append.mp hb with hb | hb
      · exact h.2 b hb
      · rw [mem_singleton.mp hb]
        have hn := abs_le.mp (of_decide_eq_true hn)
        exact ⟨ha, by linarith⟩
  | case3 first row a rest hn ih =>
    have hle := pairwise_cons.mp hs
    obtain ⟨tops, hr, hc⟩ := ih (isRow_singleton a) hle.2 fun b hb => hle.1 _ (mem_map_of_mem hb)
    refine ⟨top a :: tops, .cons h hr, .cons_cons ?_ hc⟩
    -- the shape lies below the first one, and not near to it
    by_contra hlt
    refine hn (decide_eq_true (abs_le.mpr ⟨?_, ?_⟩)) <;> linarith [hf a (.head _)]

lemma comesFirst_sorted (top left : α → ℚ) (items : List α) :
    ((items.mergeSort (comesFirst .exact top left)).map top).Pairwise (· ≤ ·) := by
  refine pairwise_map.mpr ((pairwise_mergeSort ?_ ?_ items).imp ?_) <;> simp only [comesFirst, Ruler.exact]
  all_goals grind

/-- **Shapes are read row by row**: a row is read from left to right, its tops lie within half a unit of its smallest one, and
the smallest top of the next row is more than half a unit larger. -/
theorem visualOrder_rows (top left : α → ℚ) (items : List α) : visualOrder .exact top left items ~ items ∧
    ∃ tops rows, visualOrder .exact top left items = rows.flatten ∧ Forall₂ (IsRow top) tops rows ∧
      (tops.IsChain fun s t => s + 1 / 2 < t) ∧ ∀ row ∈ rows, row.Pairwise (left · ≤ left ·) := by
  have hs := comesFirst_sorted top left items
  have hp := mergeSort_perm items (comesFirst .exact top left)
  rw [visualOrder]
  generalize items.mergeSort (comesFirst .exact top left) = sorted at hs hp
  cases sorted with
  | nil => exact ⟨hp, [], [], rfl, .nil, .nil, by simp⟩
  | cons a rest =>
    have hle := pairwise_cons.mp hs
    obtain ⟨tops, hr, hc⟩ := exists_forall₂_rows (isRow_singleton a) hle.2 fun b hb => hle.1 _ (mem_map_of_mem hb)
    simp only [flatMap_def]
    refine ⟨?_, top a :: tops, _, rfl, forall₂_map_right_iff.mpr (hr.imp fun t row h => ?_), hc, ?_⟩
    · have hm := Perm.flatMap_left (rows .exact top (top a) [a] rest) fun row _ => mergeSort_perm row fun x y => left x ≤ left y
      rw [flatMap_id', rows_flatten] at hm
      exact hm.trans hp
    · simpa [IsRow] using h
    · rintro row' hm
      obtain ⟨row, -, rfl⟩ := mem_map.mp hm
      exact (pairwise_mergeSort (by simp [Ruler.exact]; grind) (by simp [Ruler.exact]; grind) row).imp (by simp [Ruler.exact])

end Sluice.Slides
