import Mathlib.Data.List.DropRight
import Mathlib.Data.List.Infix
import Sluice.Text.Basic

/-! # Trimming: characters of the class around a text do not matter (`trim_surrounded`) -/

namespace Sluice.Text

open List

variable {p : Char → Bool} {c m : Char} {b s : Chars}

variable {a : Chars}

lemma trimLeft_append (ha : ∀ c ∈ a, p c) (s) : trimLeft p (a ++ s) = trimLeft p s := dropWhile_append_of_pos ha

lemma trimRight_append (hb : ∀ c ∈ b, p c) (s) : trimRight p (s ++ b) = trimRight p s := by
  have hb' : ∀ c ∈ b.reverse, p c := fun c hc => hb c (mem_reverse.mp hc)
  rw [trimRight, reverse_append, dropWhile_append_of_pos hb', trimRight]

/-- Nothing is taken off the front of a text that starts with another character. -/
lemma trimLeft_cons (hc : p c = false) (s : Chars) : trimLeft p (c :: s) = c :: s := by simp [trimLeft, hc]

/-- Nothing is taken off the end of a text that ends with another character. -/
lemma trimRight_concat (hc : p c = false) (s) : trimRight p (s ++ [c]) = s ++ [c] := by simp [trimRight, hc]

lemma trimLeft_eq_nil_iff : trimLeft p s = [] ↔ ∀ c ∈ s, p c := dropWhile_eq_nil_iff

/-- A text is empty behind its leading characters of a class, or goes on with another character. -/
lemma trimLeft_eq_nil_or (s) : trimLeft p s = [] ∨ ∃ c r, trimLeft p s = c :: r ∧ p c = false := by
  induction s with
  | nil => exact .inl rfl
  | cons c s ih =>
    by_cases hc : p c
    · rwa [trimLeft, dropWhile_cons_of_pos hc]
    · exact .inr ⟨c, s, trimLeft_cons (by simpa using hc) s, by simpa using hc⟩

/-! ## Both ends -/

lemma trim_eq_nil (h : ∀ c ∈ s, p c) : trim p s = [] := by
  rw [trim, trimLeft_eq_nil_iff.mpr h]
  rfl

lemma trim_of_none (h : ∀ c ∈ s, p c = false) : trim p s = s := by
  have hl : trimLeft p s = s := by
    cases s with
    | nil => rfl
    | cons c s => exact trimLeft_cons (h c (.head _)) s
  rw [trim, hl]
  rcases eq_nil_or_concat s with rfl | ⟨r, c, hs⟩
  · rfl
  · rw [concat_eq_append] at hs
    subst hs
    exact trimRight_concat (h c (by simp)) r

/-- **Characters of the class around a text do not matter.** -/
lemma trim_surrounded (ha : ∀ c ∈ a, p c) (hb : ∀ c ∈ b, p c) (s) : trim p (a ++ s ++ b) = trim p s := by
  rw [trim, List.append_assoc, trimLeft_append ha]
  rcases trimLeft_eq_nil_or (p := p) s with hn | ⟨c, r, hco, hc⟩
  · -- nothing but characters of the class: both sides are empty
    have hs : ∀ c ∈ s, p c := trimLeft_eq_nil_iff.mp hn
    rw [trimLeft_append hs, trimLeft_eq_nil_iff.mpr hb, trim, hn]
  · have hsp : trimLeft p (s ++ b) = trimLeft p s ++ b := by
      simp only [trimLeft] at hco ⊢
      simp [dropWhile_append, hco]
    rw [hsp, trimRight_append hb, trim]

lemma trimLeft_trim (s) : trimLeft p (trim p s) = trim p s := by
  rcases trimLeft_eq_nil_or (p := p) s with hn | ⟨c, r, hco, hc⟩
  · rw [trim, hn]
    rfl
  · -- the first character that stays in front stays behind, too
    have hr : trimRight p (c :: r) = c :: trimRight p r := by
      simp only [trimRight, reverse_cons, dropWhile_append]
      split
      · rename_i h
        simp [hc, List.isEmpty_iff.mp h]
      · simp
    rw [trim, hco, hr, trimLeft_cons hc]

@[simp] lemma trim_trim (s) : trim p (trim p s) = trim p s := by
  have hr : trimRight p (trim p s) = trim p s := rdropWhile_idempotent p (trimLeft p s)
  rw [trim, trimLeft_trim, hr]

lemma trimLeft_around (hm : p m = false) (a b : Chars) : trimLeft p (a ++ m :: b) = trimLeft p a ++ m :: b := by
  simp only [trimLeft, dropWhile_append]
  split <;> simp_all

lemma takeWhile_around (hm : p m = false) (a b : Chars) : (a ++ m :: b).takeWhile p = a.takeWhile p := by
  rw [takeWhile_append, takeWhile_cons_of_neg (by simp [hm]), append_nil]
  split
  · rename_i ha
    exact (( takeWhile_prefix p).eq_of_length ha).symm
  · rfl

lemma trim_around (hm : p m = false) (a b : Chars) : trim p (a ++ m :: b) = trimLeft p a ++ m :: trimRight p b := by
  have hr : trimRight p (trimLeft p a ++ m :: b) = trimLeft p a ++ m :: trimRight p b := by
    simp only [trimRight, reverse_append, reverse_cons, dropWhile_append]
    split <;> simp_all
  rw [trim, trimLeft_around hm, hr]

lemma trim_infix (s) : trim p s <:+: s := by
  have hr : trimRight p (trimLeft p s) <+: trimLeft p s := rdropWhile_prefix p _
  have hl : trimLeft p s <:+ s := dropWhile_suffix p
  exact hr.isInfix.trans hl.isInfix

/-- What is taken off a text stands around what is left. -/
lemma exists_trim_around (p s) : ∃ a b, (∀ c ∈ a, p c) ∧ (∀ c ∈ b, p c) ∧ s = a ++ (trim p s ++ b) := by
  refine ⟨s.takeWhile p, ((trimLeft p s).reverse.takeWhile p).reverse, fun c => mem_takeWhile_imp,
    fun c hc => mem_takeWhile_imp (mem_reverse.mp hc), ?_⟩
  have hr : trim p s ++ ((trimLeft p s).reverse.takeWhile p).reverse = trimLeft p s := by
    rw [trim, trimRight, ← reverse_append, takeWhile_append_dropWhile, reverse_reverse]
  rw [hr, trimLeft, takeWhile_append_dropWhile]

lemma count_trim {c} (hc : p c = false) (s) : (trim p s).count c = s.count c := by
  obtain ⟨a, b, ha, hb, hs⟩ := exists_trim_around p s
  have hz : ∀ l : Chars, (∀ d ∈ l, p d) → l.count c = 0 := fun l hl => count_eq_zero.mpr fun h => by simp [hl c h] at hc
  conv_rhs => rw [hs, count_append, count_append, hz a ha, hz b hb, Nat.zero_add, Nat.add_zero]

lemma exists_cons_of_trim (h : trim p s = s) (hne : s ≠ []) : ∃ c r, s = c :: r ∧ p c = false := by
  have hl : trimLeft p s = s := h ▸ trimLeft_trim s
  rcases trimLeft_eq_nil_or (p := p) s with hn | ⟨c, r, hco, hc⟩
  · exact absurd (hl.symm.trans hn) hne
  · exact ⟨c, r, hl.symm.trans hco, hc⟩

lemma exists_concat_of_trim (h : trim p s = s) (hne : s ≠ []) : ∃ r c, s = r ++ [c] ∧ p c = false := by
  have hr : List.rdropWhile p s = s := by
    have hi : trimRight p (trim p s) = trim p s := rdropWhile_idempotent p (trimLeft p s)
    rwa [h] at hi
  refine ⟨s.dropLast, s.getLast hne, (dropLast_concat_getLast hne).symm, ?_⟩
  simpa using rdropWhile_eq_self_iff.mp hr hne

lemma strip_append_blanks (hb : b.all isBlank) (s) : strip (s ++ b) = strip s := by
  have h := trim_surrounded (p := isBlank) (a := []) (by simp) (all_eq_true.mp hb) s
  rwa [nil_append] at h

lemma strip_of_ends {d} (hc : isBlank c = false) (hd : isBlank d = false) (s : Chars) :
    strip (c :: (s ++ [d])) = c :: (s ++ [d]) := by
  have h := trim_around hc [] (s ++ [d])
  rwa [trimRight_concat hd] at h

lemma isBlank_of_mem_spaces {n} (h : c ∈ List.replicate n ' ') : isBlank c := by
  rw [eq_of_mem_replicate h]
  rfl

lemma strip_spaces (i j s) : strip (List.replicate i ' ' ++ s ++ List.replicate j ' ') = strip s :=
  trim_surrounded (fun _ => isBlank_of_mem_spaces) (fun _ => isBlank_of_mem_spaces) s

lemma unifyLineEnds_eq_self (h : '\r' ∉ s) : unifyLineEnds s = s := by
  induction s with
  | nil => rfl
  | cons c s ih =>
    have hc : c ≠ '\r' := fun he => h (he ▸ .head _)
    have hr := ih fun hm => h (.tail _ hm)
    rw [unifyLineEnds, if_neg hc, hr]
    exact fun r he _ => hc he

lemma return_not_mem_unifyLineEnds (s) : '\r' ∉ unifyLineEnds s := by
  fun_induction unifyLineEnds s with
  | case1 => simp
  | case2 rest ih => simp [ih]
  | case3 c rest _ ih => by_cases hc : c = '\r' <;> simp [hc, ih, eq_comm]

/-- The characters of a text that is put together from them, such as a literal: they need not be decoded. -/
lemma toList_eq {s} {l : Chars} (h : s = String.ofList l) : s.toList = l := by rw [h, String.toList_ofList]

namespace S

@[simp] lemma strip_strip (s) : strip (strip s) = strip s := by simp [strip, Text.strip]

lemma strip_eq_empty {s} (h : ∀ c ∈ s.toList, isBlank c) : strip s = "" := by rw [strip, Text.strip, trim_eq_nil h]

end S

/-!
## Cutting at a class of characters and at marks

Marks that begin with a character they do not hold again never overlap (`IsMark.append_cases`), so a text is cut at the
first of them whatever stands behind it.
-/

variable {p : Char → Bool} {pieces : List Chars}

lemma splitWhere_ne_nil (s) : splitWhere p s ≠ [] := by
  cases s with
  | nil => simp [splitWhere]
  | cons c s =>
    rw [splitWhere]
    split
    · simp
    · split <;> simp

variable {c : Char} {piece s : Chars}

lemma splitWhere_cons (hc : p c = false)
    (hs : splitWhere p s = piece :: pieces) : splitWhere p (c :: s) = (c :: piece) :: pieces := by simp [splitWhere, hc, hs]

lemma splitWhere_of_none (hs : ∀ c ∈ s, p c = false) : splitWhere p s = [s] := by
  induction s with
  | nil => rfl
  | cons c s ih => exact splitWhere_cons (hs c (.head _)) (ih fun d hd => hs d (.tail _ hd))

lemma eq_false_of_mem_splitWhere (h : piece ∈ splitWhere p s) (hc : c ∈ piece) : p c = false := by
  induction s generalizing piece with
  | nil =>
    rw [mem_singleton.mp h] at hc
    cases hc
  | cons d s ih =>
    by_cases hd : p d
    · rw [splitWhere, if_pos hd] at h
      rcases mem_cons.mp h with rfl | h
      · cases hc
      · exact ih h hc
    · have hd : p d = false := by simpa using hd
      obtain ⟨_, _, hs⟩ := exists_cons_of_ne_nil (splitWhere_ne_nil (p := p) s)
      rw [splitWhere_cons hd hs] at h
      rw [hs] at ih
      rcases mem_cons.mp h with rfl | h
      · rcases mem_cons.mp hc with rfl | hc
        · exact hd
        · exact ih (.head _) hc
      · exact ih (.tail _ h) hc

/-- **A cut between two texts** separates their pieces. -/
lemma splitWhere_cut (hc : p c) (a b : Chars) : splitWhere p (a ++ c :: b) = splitWhere p a ++ splitWhere p b := by
  induction a with
  | nil => simp [splitWhere, hc]
  | cons d a ih =>
    by_cases hd : p d
    · simp [splitWhere, hd, ih]
    · have hd : p d = false := by simpa using hd
      obtain ⟨_, _, hs⟩ := exists_cons_of_ne_nil (splitWhere_ne_nil (p := p) a)
      rw [hs] at ih
      rw [cons_append, splitWhere_cons hd ih, splitWhere_cons hd hs]
      rfl

lemma exists_splitWhere_append (p a) :
    ∃ pieces last, ∀ b, (∀ c ∈ b, p c = false) → splitWhere p (a ++ b) = pieces ++ [last ++ b] := by
  induction a with
  | nil => exact ⟨[], [], fun b hb => splitWhere_of_none hb⟩
  | cons d a ih =>
    obtain ⟨pieces, last, h⟩ := ih
    by_cases hd : p d
    · refine ⟨[] :: pieces, last, fun b hb => ?_⟩
      rw [cons_append, splitWhere, if_pos hd, h b hb, cons_append]
    · have hd : p d = false := by simpa using hd
      -- the character goes to the first piece, which may also be the last one
      cases pieces with
      | nil => exact ⟨[], d :: last, fun b hb => splitWhere_cons hd (h b hb)⟩
      | cons piece pieces => exact ⟨(d :: piece) :: pieces, last, fun b hb => splitWhere_cons hd (h b hb)⟩

/-- **Pieces put together come back.** -/
lemma splitWhere_join {sep} (hse : p sep) (hne : pieces ≠ [])
    (h : ∀ s ∈ pieces, ∀ c ∈ s, p c = false) : splitWhere p (join [sep] pieces) = pieces := by
  induction pieces with
  | nil => exact absurd rfl hne
  | cons a pieces ih =>
    have ha : splitWhere p a = [a] := splitWhere_of_none (h a (.head _))
    cases pieces with
    | nil => exact ha
    | cons b pieces =>
      have hr := ih (by simp) fun s hs => h s (.tail _ hs)
      have hc : join [sep] (a :: b :: pieces) = a ++ sep :: join [sep] (b :: pieces) := by simp [join]
      rw [hc, splitWhere_cut hse, ha, hr]
      rfl

lemma mem_join {sep} (h : c ∈ join sep pieces) : c ∈ sep ∨ ∃ s ∈ pieces, c ∈ s := by
  induction pieces with
  | nil => exact absurd h (by simp [join])
  | cons a pieces ih =>
    cases pieces with
    | nil => exact .inr ⟨a, .head _, h⟩
    | cons b pieces =>
      simp only [join, mem_append] at h
      rcases h with (h | h) | h
      · exact .inr ⟨a, .head _, h⟩
      · exact .inl h
      · rcases ih h with h | ⟨s, hs, hc⟩
        · exact .inl h
        · exact .inr ⟨s, mem_cons_of_mem a hs, hc⟩

/-! ## Marks -/

/-- A text that can only stand where a certain character is. -/
def IsMark (c : Char) (m : Chars) : Prop := ∃ w, m = c :: w ∧ c ∉ w

section Marks

variable {a b e u v w m n : Chars}

lemma exists_of_append_eq (hw : c ∉ w) (h : w ++ v = e ++ c :: u) : ∃ f, e = w ++ f ∧ v = f ++ c :: u := by
  rcases append_eq_append_iff.mp h with ⟨f, he, hv⟩ | ⟨f, rfl, hu⟩
  · exact ⟨f, he, hv⟩
  · cases f with
    | nil => exact ⟨[], by simp, by simpa using hu.symm⟩
    | cons d f =>
      obtain ⟨rfl, -⟩ := cons.inj hu
      exact absurd (mem_append_right e (.head f)) hw

/-- **Two marks in one text**: one of them stands behind the other, or both at the same place. -/
lemma IsMark.append_cases (hm : IsMark c m) (hn : IsMark c n) (h : a ++ (m ++ b) = u ++ (n ++ v)) :
    (∃ e, u = a ++ (m ++ e) ∧ b = e ++ (n ++ v)) ∨ (∃ e, a = u ++ (n ++ e) ∧ v = e ++ (m ++ b)) ∨
      a = u ∧ m ++ b = n ++ v := by
  obtain ⟨w, rfl, hw⟩ := hm
  obtain ⟨w', rfl, hw'⟩ := hn
  rcases append_eq_append_iff.mp h with ⟨_ | ⟨d, e⟩, hu, he⟩ | ⟨_ | ⟨d, e⟩, ha, he⟩
  · exact .inr (.inr ⟨by simpa using hu.symm, he⟩)
  · obtain ⟨rfl, ht⟩ := cons.inj he
    obtain ⟨f, rfl, hb⟩ := exists_of_append_eq hw ht
    exact .inl ⟨f, hu, hb⟩
  · exact .inr (.inr ⟨by simpa using ha, he.symm⟩)
  · obtain ⟨rfl, ht⟩ := cons.inj he
    obtain ⟨f, rfl, hv⟩ := exists_of_append_eq hw' ht
    exact .inr (.inl ⟨f, ha, hv⟩)

lemma dropStart?_append (m s) : dropStart? m (m ++ s) = some s := by
  induction m with
  | nil => rfl
  | cons c m ih => simp [dropStart?, ih]

lemma IsMark.cutOnce_append (hm : IsMark c m) (ha : ¬ m <:+: a) (b) : cutOnce m (a ++ (m ++ b)) = some (a, b) := by
  induction a with
  | nil =>
    obtain ⟨w, rfl, -⟩ := hm
    rw [nil_append, cons_append, cutOnce, ← cons_append, dropStart?_append]
  | cons d a ih =>
    have hd : dropStart? m (d :: (a ++ (m ++ b))) = none := by
      refine Option.eq_none_iff_forall_ne_some.mpr fun r hr => ?_
      have ht : [] ++ (m ++ r) = d :: a ++ (m ++ b) := (dropStart?_eq_some hr).symm
      rcases hm.append_cases hm ht with ⟨e, he, -⟩ | ⟨e, he, -⟩ | ⟨he, -⟩
      · exact ha ⟨[], e, by rw [he]; simp⟩
      · cases he
      · cases he
    rw [cons_append, cutOnce, hd, ih fun h => ha (infix_cons h)]
    rfl

/-- **A text is cut at the first mark**, if it has any. -/
lemma IsMark.cutOnce_cases (hm : IsMark c m) (s) : cutOnce m s = none ∧ ¬ m <:+: s ∨
    ∃ a b, cutOnce m s = some (a, b) ∧ s = a ++ (m ++ b) ∧ ¬ m <:+: a := by
  induction s with
  | nil =>
    obtain ⟨w, rfl, -⟩ := hm
    exact .inl ⟨rfl, by simp⟩
  | cons d s ih =>
    rw [cutOnce]
    cases hd : dropStart? m (d :: s) with
    | some b =>
      obtain ⟨w, rfl, -⟩ := hm
      exact .inr ⟨[], b, rfl, (dropStart?_eq_some hd).trans rfl, by simp⟩
    | none =>
      have hst : ¬ m <+: d :: s := fun ⟨r, hr⟩ => by rw [← hr, dropStart?_append] at hd; cases hd
      rcases ih with ⟨hc, hs⟩ | ⟨a, b, hc, rfl, ha⟩
      · exact .inl ⟨by rw [hc]; rfl, fun h => (infix_cons_iff.mp h).elim hst hs⟩
      · refine .inr ⟨d :: a, b, by rw [hc]; rfl, rfl, fun h => (infix_cons_iff.mp h).elim (fun h => ?_) ha⟩
        exact hst (h.trans (prefix_append (d :: a) _))

end Marks

/-! ## One character -/

section Single

variable {c : Char} {s : Chars}

lemma isMark_singleton (c) : IsMark c [c] := ⟨[], rfl, not_mem_nil⟩

lemma not_mem_of_cutOnce_eq_none (h : cutOnce [c] s = none) : c ∉ s := by
  rcases (isMark_singleton c).cutOnce_cases s with ⟨-, hs⟩ | ⟨a, b, hc, -⟩
  · rwa [singleton_infix_iff] at hs
  · cases hc.symm.trans h

lemma cutOnce_eq_some {a b} (h : cutOnce [c] s = some (a, b)) : s = a ++ c :: b ∧ c ∉ a := by
  rcases (isMark_singleton c).cutOnce_cases s with ⟨hc, -⟩ | ⟨a', b', hc, hs, ha⟩
  · cases hc.symm.trans h
  · cases hc.symm.trans h
    rw [singleton_infix_iff] at ha
    exact ⟨hs, ha⟩

lemma cutOnce_of_not_mem {a} (h : c ∉ a) (b : Chars) : cutOnce [c] (a ++ c :: b) = some (a, b) :=
  (isMark_singleton c).cutOnce_append (by rwa [singleton_infix_iff]) b

lemma splitAtChar_ne_nil (c s) : splitAtChar c s ≠ [] := splitWhere_ne_nil s

lemma splitAtChar_of_not_mem (h : c ∉ s) : splitAtChar c s = [s] :=
  splitWhere_of_none fun _ hd => beq_eq_false_iff_ne.mpr fun he => h (he ▸ hd)

lemma splitOnUpTo_singleton {n} (h : s.length ≤ n) : splitOnUpTo n [c] s = splitAtChar c s := by
  induction n generalizing s with
  | zero =>
    rw [length_eq_zero_iff.mp (Nat.le_zero.mp h)]
    rfl
  | succ n ih =>
    rw [splitOnUpTo]
    cases hc : cutOnce [c] s with
    | none => exact (splitAtChar_of_not_mem (not_mem_of_cutOnce_eq_none hc)).symm
    | some ab =>
      obtain ⟨a, b⟩ := ab
      obtain ⟨rfl, ha⟩ := cutOnce_eq_some hc
      have hb : b.length ≤ n := by
        simp only [length_append, length_cons] at h
        omega
      have hp : splitAtChar c (a ++ c :: b) = splitAtChar c a ++ splitAtChar c b :=
        splitWhere_cut (p := (· == c)) (beq_self_eq_true c) a b
      rw [hp, splitAtChar_of_not_mem ha, ← ih hb]
      rfl

/-- **Cutting at a text of one character** is cutting at that character. -/
lemma splitOn_singleton (c s) : splitOn [c] s = splitAtChar c s := splitOnUpTo_singleton (Nat.le_refl _)

lemma contains_singleton (c s) : contains [c] s = s.contains c := by
  induction s with
  | nil => rfl
  | cons d s ih =>
    rw [contains] at ih ⊢
    rw [indexOf?, startsWith, contains_cons, ← ih]
    by_cases h : c = d <;> simp [dropStart?, h]

end Single

variable {ls : List Chars}

/-- **Lines that are written are read.** -/
lemma lines_join (hne : ls ≠ []) (h : ∀ l ∈ ls, '\n' ∉ l) : lines (join ['\n'] ls ++ ['\n']) = ls := by
  have hcu : splitAtChar '\n' (join ['\n'] ls ++ ['\n']) = ls ++ [[]] := by
    rw [splitAtChar, splitWhere_cut (by simp), splitWhere_join (by simp) hne]
    · rfl
    · intro l hl c hc
      have hb : c ≠ '\n' := fun he => h l hl (he ▸ hc)
      simpa using hb
  rw [lines, hcu]
  simp

lemma lines_ended (h : ∀ l ∈ ls, '\n' ∉ l) : lines (ls.flatMap (· ++ ['\n'])) = ls := by
  have hc : splitAtChar '\n' (ls.flatMap (· ++ ['\n'])) = ls ++ [[]] := by
    induction ls with
    | nil => rfl
    | cons l ls ih =>
      rw [forall_mem_cons] at h
      rw [flatMap_cons, List.append_assoc, singleton_append, splitAtChar, splitWhere_cut (by simp),
        ← splitAtChar, ← splitAtChar, splitAtChar_of_not_mem h.1, ih h.2]
      rfl
  rw [lines, hc]
  simp

end Sluice.Text
