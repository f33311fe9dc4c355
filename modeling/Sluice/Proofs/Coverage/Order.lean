import Mathlib.Data.List.Forall2
import Sluice.Proofs.Coverage.LineTables

/-!
# The order of lines in a section

Each line of a tracefile adds to one of three lists at most, by its first letters (`topicOf`).
-/

namespace Sluice.Coverage

open List Text Option

/-! ## What lines are about -/

/-- What a line is about. Definitions of functions and their calls belong together. -/
inductive Topic
  | source
  | line
  | function
  | branch
  | close
  | other
deriving DecidableEq

def topicOf (line : Chars) : Topic :=
  let line := strip line
  if startsWith "SF:".toList line then .source
  else if startsWith "DA:".toList line then .line
  else if startsWith "FN:".toList line || startsWith "FNDA:".toList line then .function
  else if startsWith "BRDA:".toList line then .branch
  else if line = "end_of_record".toList then .close
  else .other

def Entry.topic : Entry → Topic
  | .source _ => .source
  | .line _ => .line
  | .function .. | .calls .. => .function
  | .branch _ => .branch
  | .close => .close
  | .other => .other

open Entry

/-- **A line that can be read says what its first letters announce**, or has too few fields and says nothing. -/
lemma topic_of_ofLine {l e} (h : ofLine l = .ok e) :
    e.topic = topicOf l ∨ e = .other ∧ topicOf l ≠ .source ∧ topicOf l ≠ .close := by
  simp only [ofLine] at h
  simp only [topicOf, startsWith]
  split at h
  · rename_i hs
    obtain rfl := Except.ok.inj h
    exact .inl (if_pos (by rw [hs]; rfl)).symm
  rename_i hs
  simp only [hs]
  split at h
  · rename_i hd
    simp only [hd, isSome_some, if_true]
    obtain ⟨_, _, _, _, -, -, -, rfl⟩ | ⟨-, rfl⟩ := ofLineData_eq_ok h
    exacts [.inl rfl, .inr ⟨rfl, by decide, by decide⟩]
  rename_i hd
  simp only [hd]
  split at h
  · rename_i hf
    simp only [hf, isSome_some, Bool.true_or, if_true]
    obtain ⟨_, _, _, rfl⟩ | rfl := ofFunction_eq_ok h
    exacts [.inl rfl, .inr ⟨rfl, by decide, by decide⟩]
  rename_i hf
  simp only [hf, isSome_none, Bool.false_or]
  split at h
  · rename_i hc
    simp only [hc, isSome_some, if_true]
    obtain ⟨_, _, rfl⟩ | rfl := ofCalls_eq_ok h
    exacts [.inl rfl, .inr ⟨rfl, by decide, by decide⟩]
  rename_i hc
  simp only [hc]
  split at h
  · rename_i hb
    simp only [hb, isSome_some, if_true]
    obtain ⟨_, rfl⟩ | rfl := ofBranch_eq_ok h
    exacts [.inl rfl, .inr ⟨rfl, by decide, by decide⟩]
  rename_i hb
  simp only [hb]
  obtain rfl := Except.ok.inj h
  left
  split <;> rfl

/-- What a line says; nothing, if it cannot be read. -/
def entryOf (l : Chars) : Entry := (ofLine l).toOption.getD .other

lemma ofLine_eq_entryOf {l} (h : (ofLine l).toOption.isSome) : ofLine l = .ok (entryOf l) := by
  cases hl : ofLine l with
  | error f =>
    rw [hl] at h
    cases h
  | ok e => simp [entryOf, hl, Except.toOption]

lemma topic_entryOf (l) : (entryOf l).topic = topicOf l ∨ entryOf l = .other := by
  cases hl : ofLine l with
  | error f => exact .inr (by simp [entryOf, hl, Except.toOption])
  | ok e =>
    have he : entryOf l = e := by simp [entryOf, hl, Except.toOption]
    exact he ▸ (topic_of_ofLine hl).imp_right And.left

/-- What is taken from lines about one topic depends on these lines only. -/
lemma filterMap_entryOf {β : Type} {t} {take? : Entry → Option β} (ht : t ≠ .other)
    (hta : ∀ e, e.topic ≠ t → take? e = none) (ls : List Chars) :
    (ls.map entryOf).filterMap take? = (ls.filter (topicOf · == t)).filterMap fun l => take? (entryOf l) := by
  rw [filterMap_map, filterMap_filter]
  refine filterMap_congr fun l _ => ?_
  split
  · rfl
  · rename_i hl
    refine hta _ fun hto => ?_
    rcases topic_entryOf l with h | h
    · exact hl (beq_iff_eq.mpr (h.symm.trans hto))
    · rw [h] at hto
      exact ht hto.symm

/-! ## What a section counts -/

def Entry.functionChange? : Entry → Option (List FunctionHit → List FunctionHit)
  | .function name start last => some (defineFunction ⟨name, start, last, 0⟩)
  | .calls name hits => some (setCalls name hits)
  | _ => none

open Section

lemma Section.branches_foldl_add (es : List Entry) (s) :
    (es.foldl add s).branches = s.branches ++ es.filterMap branch? := by
  induction es generalizing s with
  | nil => exact (append_nil _).symm
  | cons e es ih =>
    rw [foldl_cons, ih]
    cases e with
    | branch b => simp [add, branch?]
    | _ => rfl

lemma Section.functions_foldl_change (es : List Entry) (s) : (es.foldl add s).functions =
      (es.filterMap functionChange?).foldl (fun fs change => change fs) s.functions := by
  induction es generalizing s with
  | nil => rfl
  | cons e es ih =>
    rw [foldl_cons, ih]
    cases e <;> rfl

/-- **The lists of a section do not mix**: each depends on the lines about one topic, in their order. -/
lemma foldl_add_eq_of_filter_eq {ls ls' : List Chars}
    (h : ∀ t ∈ [Topic.line, .function, .branch], ls.filter (topicOf · == t) = ls'.filter (topicOf · == t)) :
    (ls.map entryOf).foldl add {} = (ls'.map entryOf).foldl add {} := by
  have hs {β : Type} {t : Topic} {take? : Entry → Option β} (ht : t ∈ [Topic.line, .function, .branch])
      (hta : ∀ e, e.topic ≠ t → take? e = none) :
      (ls.map entryOf).filterMap take? = (ls'.map entryOf).filterMap take? := by
    have ho : t ≠ .other := by
      rintro rfl
      simp at ht
    rw [filterMap_entryOf ho hta, filterMap_entryOf ho hta, h t ht]
  have hli : (ls.map entryOf).filterMap line? = (ls'.map entryOf).filterMap line? :=
    hs (t := .line) (by simp) fun e he => by
      cases e with
      | line l => exact absurd rfl he
      | _ => rfl
  have hfu : (ls.map entryOf).filterMap functionChange? = (ls'.map entryOf).filterMap functionChange? :=
    hs (t := .function) (by simp) fun e he => by
      cases e with
      | function name start last => exact absurd rfl he
      | calls name hits => exact absurd rfl he
      | _ => rfl
  have hbr : (ls.map entryOf).filterMap branch? = (ls'.map entryOf).filterMap branch? :=
    hs (t := .branch) (by simp) fun e he => by
      cases e with
      | branch b => exact absurd rfl he
      | _ => rfl
  have hex {s t : Section} (hf : s.functions = t.functions) (hl : s.lines = t.lines) (hb : s.branches = t.branches) :
      s = t := by
    cases s
    simp_all
  refine hex ?_ ?_ ?_
  · rw [functions_foldl_change, functions_foldl_change, hfu]
  · rw [lines_foldl_add, lines_foldl_add, hli]
  · rw [branches_foldl_add, branches_foldl_add, hbr]

/-! ## Rearranged sections -/

/-- **A closed section**, line by line. -/
structure Passage where
  opening : Chars
  body : List Chars
  closing : Chars
  opens : topicOf opening = .source
  plain : ∀ l ∈ body, topicOf l ≠ .source ∧ topicOf l ≠ .close
  closes : topicOf closing = .close

def Passage.lines (p : Passage) : List Chars := p.opening :: (p.body ++ [p.closing])

/-- Two sections of one file have the same lines, and those about lines, about branches and about functions stand in the
same order. -/
structure Passage.Rearranged (p q : Passage) : Prop where
  opening : p.opening = q.opening
  closing : p.closing = q.closing
  body : p.body.Perm q.body
  order : ∀ t ∈ [Topic.line, .function, .branch], p.body.filter (topicOf · == t) = q.body.filter (topicOf · == t)

/-- A line whose numbers are whole numbers, if it has any. -/
def IsReadable (l : Chars) : Prop := (ofLine l).toOption.isSome

open Passage

/-- Reading a section files what it counts, whatever was read before. -/
lemma Passage.foldl_step {p : Passage} (hli : ∀ l ∈ p.lines, IsReadable l) (s) : (p.lines.map entryOf).foldl State.step s =
      { s.step (entryOf p.opening) with current := (p.body.map entryOf).foldl add {} }.close := by
  have ht := fun l hl => topic_of_ofLine (ofLine_eq_entryOf (hli l hl))
  obtain ⟨path, ho⟩ : ∃ path, entryOf p.opening = .source path := by
    rcases ht p.opening (.head _) with h | ⟨-, h, -⟩
    · cases he : entryOf p.opening <;> simp_all [topic, p.opens]
    · exact absurd p.opens h
  have hc : entryOf p.closing = .close := by
    rcases ht p.closing (by simp [lines]) with h | ⟨-, -, h⟩
    · cases he : entryOf p.closing <;> simp_all [topic, p.closes]
    · exact absurd p.closes h
  have hb : ∀ e ∈ p.body.map entryOf, e.topic ≠ .source ∧ e.topic ≠ .close := by
    intro e he
    obtain ⟨l, hl, rfl⟩ := mem_map.mp he
    rcases topic_entryOf l with h | h
    · exact h ▸ p.plain l hl
    · simp [h, topic]
  have hop : ∀ e ∈ p.body.map entryOf, e.opens = false := by
    intro e he
    cases e with
    | source path => exact absurd rfl (hb _ he).1
    | _ => rfl
  have hcl : close ∈ p.body.map entryOf → some path = none ∨ some path = some "" := fun he => absurd rfl (hb _ he).2
  rw [lines, map_cons, foldl_cons, map_append, foldl_append, ho, State.step,
    foldl_step_unattached hop hcl, map_singleton, hc]
  rfl

lemma Passage.Rearranged.perm_lines {p q : Passage} (h : p.Rearranged q) : p.lines.Perm q.lines := by
  rw [lines, h.opening, h.closing]
  exact (h.body.append_right _).cons _

/-- Rearranged sections leave the same behind, whatever was read before. -/
lemma foldl_step_rearranged {ps qs} (h : List.Forall₂ Rearranged ps qs)
    (hli : ∀ l ∈ ps.flatMap (·.lines), IsReadable l) (s) :
    ((ps.flatMap (·.lines)).map entryOf).foldl State.step s = ((qs.flatMap (·.lines)).map entryOf).foldl State.step s := by
  induction h generalizing s with
  | nil => rfl
  | @cons p q ps qs hpq _ ih =>
    rw [flatMap_cons, forall_mem_append] at hli
    have hq : ∀ l ∈ q.lines, IsReadable l := fun l hl => hli.1 l (hpq.perm_lines.mem_iff.mpr hl)
    simp only [flatMap_cons, map_append, foldl_append]
    rw [foldl_step hli.1, foldl_step hq, hpq.opening, foldl_add_eq_of_filter_eq hpq.order]
    exact ih hli.2 _

lemma parse_of_readable {text : String} {ls} (ht : lines text.toList = ls)
    (hli : ∀ l ∈ ls, IsReadable l) : parse text = .ok ((ls.map entryOf).foldl State.step {}).report := by
  rw [parse, State.run_eq, ht, mapM_eq_ok fun l hl => ofLine_eq_entryOf (hli l hl)]
  rfl

/-- **Only the order within each kind matters.** Tracefiles of closed sections, rearranged, can be read and give the same
report. -/
theorem parse_rearranged {text text' : String} {ps qs : List Passage}
    (htext : lines text.toList = ps.flatMap (·.lines)) (htext' : lines text'.toList = qs.flatMap (·.lines))
    (hlines : ∀ l ∈ lines text.toList, IsReadable l) (h : List.Forall₂ Passage.Rearranged ps qs) :
    ∃ report, parse text = .ok report ∧ parse text' = .ok report := by
  rw [htext] at hlines
  have hperm : (ps.flatMap (·.lines)).Perm (qs.flatMap (·.lines)) := by
    clear htext htext' hlines
    induction h with
    | nil => exact .nil
    | cons hpq _ ih => exact hpq.perm_lines.append ih
  have hlines' : ∀ l ∈ qs.flatMap (·.lines), IsReadable l := fun l hl => hlines l (hperm.mem_iff.mpr hl)
  refine ⟨_, parse_of_readable htext hlines, ?_⟩
  rw [parse_of_readable htext' hlines', foldl_step_rearranged h hlines]

/-- A section in which definitions, calls, lines and branches take turns. -/
def turns : Passage where
  opening := "SF:a.c".toList
  body := ["FN:1,3,f".toList, "DA:1,2".toList, "TN:".toList, "FNDA:2,f".toList, "BRDA:2,0,0,-".toList, "DA:2,0".toList]
  closing := "end_of_record".toList
  opens := by decide
  plain := by decide
  closes := by decide

/-- The same section with the branch and the lines in front of its function. -/
def grouped : Passage where
  opening := "SF:a.c".toList
  body := ["BRDA:2,0,0,-".toList, "DA:1,2".toList, "DA:2,0".toList, "FN:1,3,f".toList, "FNDA:2,f".toList, "TN:".toList]
  closing := "end_of_record".toList
  opens := by decide
  plain := by decide
  closes := by decide

def turnsText : String := "SF:a.c\nFN:1,3,f\nDA:1,2\nTN:\nFNDA:2,f\nBRDA:2,0,0,-\nDA:2,0\nend_of_record\n"

def groupedText : String := "SF:a.c\nBRDA:2,0,0,-\nDA:1,2\nDA:2,0\nFN:1,3,f\nFNDA:2,f\nTN:\nend_of_record\n"

theorem parse_rearranged_turns : ∃ report, parse turnsText = .ok report ∧ parse groupedText = .ok report := by
  have hturns : lines turnsText.toList = [turns].flatMap (·.lines) := by decide +kernel
  have hgrouped : lines groupedText.toList = [grouped].flatMap (·.lines) := by decide +kernel
  have hlines : ∀ l ∈ lines turnsText.toList, IsReadable l := by
    unfold IsReadable
    decide +kernel
  have hsections : List.Forall₂ Rearranged [turns] [grouped] := .cons ⟨rfl, rfl, by decide, by decide⟩ .nil
  exact parse_rearranged hturns hgrouped hlines hsections

end Sluice.Coverage
