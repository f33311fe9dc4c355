import Sluice.Evaluation.Command
import Sluice.Proofs.Text.Split

/-!
# The answer that is found

The last block of a reply is its answer. An opening mark that is never closed takes the answer into its own block.
-/

namespace Sluice.Evaluation

open List Text

/-- A character that stands for itself in the name of a mark; all letters are such. -/
def isNameChar (c : Char) : Bool := c != '<' && c != '/' && !isSpecial c

/-- Every opening mark of the text has a closing mark behind it. -/
def IsClosed (name P : Chars) : Prop := ∀ a b, P = a ++ (openMark name ++ b) → closeMark name <:+: b

variable {name a b P X S : Chars}

lemma isClosed_of_none (h : ¬ openMark name <:+: P) : IsClosed name P := fun a b hP =>
  absurd ⟨a, b, by rw [hP, List.append_assoc]⟩ h

section Name

variable (hname : ∀ c ∈ name, isNameChar c)

include hname

lemma not_mem_name : '<' ∉ name ∧ '/' ∉ name := ⟨fun h => absurd (hname _ h) (by decide), fun h => absurd (hname _ h) (by decide)⟩

lemma isMark_openMark : IsMark '<' (openMark name) := ⟨name ++ ['>'], rfl, by simp [(not_mem_name hname).1]⟩

lemma isMark_closeMark : IsMark '<' (closeMark name) := ⟨'/' :: name ++ ['>'], rfl, by simp [(not_mem_name hname).1]⟩

lemma openMark_ne_closeMark : openMark name ++ a ≠ closeMark name ++ b := by
  intro h
  have ht := (cons.inj h).2
  cases name with
  | nil => cases ht
  | cons c name => exact (not_mem_name hname).2 ((cons.inj ht).1 ▸ .head _)

lemma closeMark_absent (hb : ¬ closeMark name <:+: b) (hX : ¬ closeMark name <:+: X) :
    ¬ closeMark name <:+: b ++ (openMark name ++ X) := by
  rintro ⟨p, q, h⟩
  rw [List.append_assoc] at h
  rcases (isMark_closeMark hname).append_cases (isMark_openMark hname) h with ⟨e, rfl, -⟩ | ⟨e, -, rfl⟩ | ⟨-, he⟩
  · exact hb ⟨p, e, by simp⟩
  · exact hX ⟨e, q, by simp⟩
  · exact openMark_ne_closeMark hname he.symm

lemma isClosed_after (a d) : IsClosed name (a ++ (closeMark name ++ d)) ↔ IsClosed name d := by
  constructor
  · rintro h a' b rfl
    exact h (a ++ (closeMark name ++ a')) b (by simp)
  · intro h a' b' heq
    rcases (isMark_closeMark hname).append_cases (isMark_openMark hname) heq with ⟨e, -, he⟩ | ⟨e, -, rfl⟩ | ⟨-, he⟩
    · exact h e b' he
    · exact ⟨e, d, by simp⟩
    · exact absurd he.symm (openMark_ne_closeMark hname)

lemma blocks_succ (ha : ¬ openMark name <:+: a) (hb : ¬ closeMark name <:+: b) (fuel rest) :
    blocks name (fuel + 1) (a ++ (openMark name ++ (b ++ (closeMark name ++ rest)))) = b :: blocks name fuel rest := by
  simp only [blocks, (isMark_openMark hname).cutOnce_append ha, (isMark_closeMark hname).cutOnce_append hb]

/-- **The last block** of a text that ends with a block is this block, or begins at an opening mark before it. -/
lemma getLast?_blocks (hX : ¬ closeMark name <:+: X) (hS : ¬ openMark name <:+: S) {fuel} (hf : P.length < fuel) :
    ∃ block, (blocks name fuel (P ++ (openMark name ++ (X ++ (closeMark name ++ S))))).getLast? = some block ∧
      (IsClosed name P ∧ block = X ∨ ¬ IsClosed name P ∧ ∃ b, block = b ++ (openMark name ++ X)) := by
  have he : ∀ k, blocks name k S = [] := by
    rintro (_ | k)
    · rfl
    · rcases (isMark_openMark hname).cutOnce_cases S with ⟨hcu, -⟩ | ⟨a, b, -, rfl, -⟩
      · rw [blocks, hcu]
      · exact absurd ⟨a, b, by simp⟩ hS
  induction fuel generalizing P with
  | zero => cases hf
  | succ fuel ih =>
    rcases (isMark_openMark hname).cutOnce_cases P with ⟨-, hP⟩ | ⟨a, b, -, rfl, ha⟩
    · rw [blocks_succ hname hP hX, he]
      exact ⟨X, rfl, .inl ⟨isClosed_of_none hP, rfl⟩⟩
    rcases (isMark_closeMark hname).cutOnce_cases b with ⟨-, hb⟩ | ⟨c, d, -, rfl, hc⟩
    · have hbl := blocks_succ hname ha (closeMark_absent hname hb hX) fuel S
      simp only [List.append_assoc] at hbl ⊢
      rw [hbl, he]
      exact ⟨_, rfl, .inr ⟨fun h => hb (h a b rfl), b, rfl⟩⟩
    · -- a block of its own comes first
      have hl : d.length < fuel := by
        simp only [length_append, openMark, length_cons] at hf
        omega
      obtain ⟨block, hla, hbl⟩ := ih hl
      have hcl := isClosed_after hname (a ++ (openMark name ++ c)) d
      simp only [List.append_assoc] at hcl ⊢
      rw [blocks_succ hname ha hc, hcl]
      exact ⟨block, by simp [getLast?_cons, hla], hbl⟩

/-- **When the final block is the answer**: exactly if every opening mark before it is closed before it. -/
theorem answer_final_iff (hX : ¬ openMark name <:+: X ∧ ¬ closeMark name <:+: X)
    (hS : ¬ openMark name <:+: S ∧ ¬ closeMark name <:+: S) (P : Chars) :
    answer? (P ++ openMark name ++ X ++ closeMark name ++ S) name = .ok (some (strip X)) ↔ IsClosed name P := by
  have hplain : name.any isSpecial = false := by
    refine any_eq_false.mpr fun c hc => ?_
    simp_all [isNameChar]
  have hlength : P.length < (P ++ (openMark name ++ (X ++ (closeMark name ++ S)))).length := by simp [openMark]
  obtain ⟨block, hlast, hblock⟩ := getLast?_blocks hname hX.2 hS.1 hlength
  have hanswer : answer? (P ++ openMark name ++ X ++ closeMark name ++ S) name = .ok (some (strip block)) := by
    simp only [List.append_assoc]
    rw [answer?, hplain]
    show Except.ok (Option.map strip _) = _
    rw [hlast]
    rfl
  rw [hanswer]
  rcases hblock with ⟨h, rfl⟩ | ⟨h, b, rfl⟩
  · exact iff_of_true rfl h
  · refine iff_of_false (fun heq => ?_) h
    -- stripping takes no less-than sign away
    have hcount := congrArg (count '<') (Option.some.inj (Except.ok.inj heq))
    rw [strip, strip, count_trim rfl, count_trim rfl] at hcount
    simp [openMark] at hcount
    omega

end Name

theorem answer_final_repeated : answer? "<r>a</r>, or <r> b\n</r>.".toList "r".toList = .ok (some "b".toList) :=
  (answer_final_iff (all_eq_true.mp (by decide)) (X := " b\n".toList) (S := ".".toList) (by decide) (by decide) "<r>a</r>, or ".toList).mpr
    ((isClosed_after (all_eq_true.mp (by decide)) "<r>a".toList ", or ".toList).mpr (isClosed_of_none (by decide)))

/-- A mark that is mentioned before the answer. -/
theorem answer_swallowed : answer? "Put in <r>: <r>42</r>".toList "r".toList = .ok (some ": <r>42".toList) := rfl

end Sluice.Evaluation
