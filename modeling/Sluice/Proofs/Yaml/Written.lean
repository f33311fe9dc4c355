import Mathlib.Tactic.Lemma
import Sluice.Yaml.Writer

/-!
# Lines of written YAML

What lines begin with is read off one scan with states `Lead`. The invariant of the writer is `Pen.Begun`: the last line
has begun with something else than dashes, or is the dash of an item and a blank comes next.
-/

namespace Sluice.Yaml

open List Text

variable {folds : Bool} {c : Char} {s : Chars} {at_ n : Nat} {p : Pen}

/-! ## The scan -/

/-- What a scan knows of the line that it is on. -/
inductive Lead
  /-- the first line, of which no mark was seen yet -/
  | first
  /-- so many dashes since the line began -/
  | dashes (n : Nat)
  /-- anything else -/
  | other
  /-- the text cannot stand between lines of dashes -/
  | spoiled

namespace Lead

variable {l : Lead}

def step : Lead → Char → Lead
  | .spoiled, _ => .spoiled
  | .first, c => if c = '\r' ∨ c = '\n' then .spoiled else if c = ':' ∨ c = '?' then .other else .first
  | .dashes n, c =>
    if c = '\r' then .spoiled else if c = '\n' then .dashes 0
    else if c = '-' then (if n < 2 then .dashes (n + 1) else .spoiled) else .other
  | .other, c => if c = '\r' then .spoiled else if c = '\n' then .dashes 0 else .other

def scan (l : Lead) (s : Chars) : Lead := s.foldl step l

/-- The mark on the first line was seen, and all is well. -/
def IsGood (l : Lead) : Prop := l = .other ∨ ∃ n, l = .dashes n

lemma scan_append (l : Lead) (a b) : l.scan (a ++ b) = (l.scan a).scan b := foldl_append

lemma scan_spoiled (s) : spoiled.scan s = .spoiled := by
  induction s with
  | nil => rfl
  | cons c s ih => exact ih

def IsInline (c : Char) : Prop := c ≠ '\n' ∧ c ≠ '\r'

instance (c : Char) : Decidable (IsInline c) := inferInstanceAs (Decidable (_ ∧ _))

lemma step_other (h : IsInline c) : other.step c = .other := by simp [step, h.1, h.2]

lemma holds_scan {P : Lead → Prop} (hp : ∀ {l c}, P l → IsInline c → P (l.step c))
    (hs : ∀ c ∈ s, IsInline c) (h : P l) : P (l.scan s) := by
  induction s generalizing l with
  | nil => exact h
  | cons c s ih => exact ih (fun d hd => hs d (.tail _ hd)) (hp h (hs c (.head _)))

lemma scan_other (h : ∀ c ∈ s, IsInline c) : other.scan s = .other :=
  holds_scan (P := (· = .other)) (fun hl hc => hl ▸ step_other hc) h rfl

lemma IsGood.ne_spoiled (hl : l.IsGood) : l ≠ .spoiled := by rcases hl with rfl | ⟨n, rfl⟩ <;> simp

lemma IsGood.step (hl : l.IsGood) (hc : IsInline c) (hd : c ≠ '-') : l.step c = .other := by
  rcases hl with rfl | ⟨n, rfl⟩
  · exact step_other hc
  · simp [Lead.step, hc.1, hc.2, hd]

lemma IsGood.step_break (hl : l.IsGood) : l.step '\n' = .dashes 0 := by rcases hl with rfl | ⟨n, rfl⟩ <;> rfl

lemma IsGood.scan_cons (hl : l.IsGood) (hc : IsInline c) (hd : c ≠ '-')
    (hs : ∀ d ∈ s, IsInline d) : l.scan (c :: s) = .other := by
  rw [scan, foldl_cons, hl.step hc hd]
  exact scan_other hs

lemma step_colon (hl : l ≠ .spoiled) : l.step ':' = .other := by
  cases l with
  | spoiled => exact absurd rfl hl
  | _ => rfl

lemma return_not_mem (h : l.scan s ≠ .spoiled) : '\r' ∉ s := by
  intro hm
  obtain ⟨a, b, rfl⟩ := append_of_mem hm
  have hs (k : Lead) : k.step '\r' = .spoiled := by cases k <;> simp [step]
  refine h ?_
  rw [scan_append, scan, foldl_cons, hs]
  exact scan_spoiled b

lemma not_dashes_after_break {a b : Chars} (h : l.scan (a ++ '\n' :: b) ≠ .spoiled) : ¬ ['-', '-', '-'] <+: b := by
  rintro ⟨r, rfl⟩
  refine h ?_
  rw [scan_append]
  cases l.scan a <;> exact scan_spoiled r

lemma exists_mark (h : (first.scan s).IsGood) : ∃ a c b, s = a ++ c :: b ∧ '\n' ∉ a ∧ (c = ':' ∨ c = '?') := by
  induction s with
  | nil => rcases h with h | ⟨n, h⟩ <;> cases h
  | cons c s ih =>
    by_cases hm : c = ':' ∨ c = '?'
    · exact ⟨[], c, s, rfl, by simp, hm⟩
    · have hb : ¬ (c = '\r' ∨ c = '\n') := by
        intro hb
        have hs : first.step c = .spoiled := if_pos hb
        rw [scan, foldl_cons, hs] at h
        rcases h with h | ⟨n, h⟩ <;> exact absurd (h.symm.trans (scan_spoiled s)) (by simp)
      have hs : first.step c = .first := (if_neg hb).trans (if_neg hm)
      rw [scan, foldl_cons, hs] at h
      obtain ⟨a, d, b, rfl, ha, hd⟩ := ih h
      exact ⟨c :: a, d, b, rfl, by simpa [ha] using fun he => hb (.inr he.symm), hd⟩

end Lead

/-! ## Pens -/

variable {l : Lead}

namespace Pen

def lead (p : Pen) : Lead := p.out.foldr (fun c l => l.step c) .first

lemma lead_eq_scan (p : Pen) : p.lead = Lead.first.scan p.out.reverse := by rw [lead, Lead.scan, foldl_reverse]

/-- **The invariant of the writer.** The last line has begun, or it is the dash of an item. -/
def Begun (p : Pen) : Prop := p.lead = .other ∨ (p.lead = .dashes 1 ∧ p.spaced = false)

lemma lead_put (h : p.lead = .other) (hc : Lead.IsInline c) : (p.put c).lead = .other :=
  (congrArg (Lead.step · c) h).trans (Lead.step_other hc)

lemma lead_puts (p : Pen) (s) : (p.puts s).lead = p.lead.scan s := by
  induction s generalizing p with
  | nil => rfl
  | cons c s ih => exact ih (p.put c)

lemma scan_spaces (h : l.IsGood) (n) : l.scan (List.replicate (n + 1) ' ') = .other := by
  refine h.scan_cons (by decide) (by decide) fun d hd => ?_
  rw [eq_of_mem_replicate hd]
  decide

lemma lead_indent (h : p.lead = .other ∨ ∃ k, p.lead = .dashes k ∧ (p.column < n ∨ p.spaced = false)) :
    (p.indent n).lead = .other ∨ (n = 0 ∧ (p.indent n).lead = .dashes 0) := by
  have hg : p.lead.IsGood := h.imp_right fun ⟨k, hk, _⟩ => ⟨k, hk⟩
  by_cases hn : (!p.indented || n < p.column || (p.column == n && !p.spaced))
  · -- on a new line
    have hb : (p.endLine '\n').lead = .dashes 0 := hg.step_break
    have hl : (p.indent n).lead = (Lead.dashes 0).scan (List.replicate n ' ') := by
      rw [indent, if_pos hn, ← hb]
      exact lead_puts ..
    cases n with
    | zero => exact .inr ⟨rfl, hl⟩
    | succ n => exact .inl (hl.trans (scan_spaces (.inr ⟨0, rfl⟩) n))
  · -- where the last line has room
    have hl : (p.indent n).lead = p.lead.scan (List.replicate (n - p.column) ' ') := by
      rw [indent, if_neg hn]
      exact lead_puts ..
    rcases h with ho | ⟨k, hk, hr⟩
    · rw [hl, ho]
      refine .inl (Lead.scan_other fun d hd => ?_)
      rw [eq_of_mem_replicate hd]
      decide
    · obtain ⟨m, hm⟩ : ∃ m, n - p.column = m + 1 := by
        refine ⟨n - p.column - 1, ?_⟩
        simp only [Bool.or_eq_true, Bool.and_eq_true, Bool.not_eq_true', decide_eq_true_eq, beq_iff_eq] at hn
        have hs : p.column ≠ n := by
          rcases hr with hr | hr
          · exact Nat.ne_of_lt hr
          · exact fun he => hn (.inr ⟨he, hr⟩)
        omega
      rw [hl, hm]
      exact .inl (scan_spaces hg m)

lemma lead_indent_pos (hn : 0 < n) (h : p.lead = .other ∨ ∃ k, p.lead = .dashes k ∧ (p.column < n ∨ p.spaced = false)) :
    (p.indent n).lead = .other := by
  rcases lead_indent h with h | ⟨hz, -⟩
  · exact h
  · omega

lemma Begun.lead_indent (h : p.Begun) (n) : (p.indent n).lead = .other ∨ (n = 0 ∧ (p.indent n).lead = .dashes 0) :=
  Pen.lead_indent (h.imp_right fun ⟨hl, hs⟩ => ⟨1, hl, .inr hs⟩)

lemma Begun.isGood (h : p.Begun) : p.lead.IsGood := h.imp_right fun h => ⟨1, h.1⟩

lemma lead_mark (h : p.lead.IsGood) (hc : Lead.IsInline c) (hd : c ≠ '-')
    (needsSpace isSpace isIndent) : (p.mark [c] needsSpace isSpace isIndent).lead = .other := by
  by_cases hs : (needsSpace && !p.spaced)
  · have hl : (p.mark [c] needsSpace isSpace isIndent).lead = (p.lead.step ' ').step c := by
      rw [mark, if_pos hs]
      rfl
    rw [hl, h.step (by decide) (by decide), Lead.step_other hc]
  · have hl : (p.mark [c] needsSpace isSpace isIndent).lead = p.lead.step c := by
      rw [mark, if_neg hs]
      rfl
    rw [hl, h.step hc hd]

end Pen

/-! ## Scalars -/

lemma isInline_of_isWritable (h : isWritable c) (hb : isBreak c = false) : Lead.IsInline c := by
  constructor <;> rintro rfl <;> simp_all [isBreak]

lemma lead_writePlain (hat : 0 < at_) (hs : ∀ c ∈ s, Lead.IsInline c) (h : p.lead = .other) (afterBlank) : (writePlain folds at_ afterBlank p s).lead = .other := by
  induction s generalizing p afterBlank with
  | nil => exact h
  | cons c s ih =>
    have hp : (p.put c).lead = .other := Pen.lead_put h (hs c (.head _))
    have hs := fun d hd => hs d (.tail _ hd)
    rw [writePlain]
    split
    · split
      · exact ih hs (Pen.lead_indent_pos hat (.inl h)) true
      · exact ih hs hp true
    · exact ih hs (p := { p.put c with indented := false }) hp false

lemma lead_writeSingle (hat : 0 < at_) (hs : '\r' ∉ s)
    {afterBreak : Bool} (h : p.lead = .other ∨ (afterBreak ∧ p.lead = .dashes 0 ∧ p.column = 0))
    (first afterBlank) : (writeSingle folds at_ first afterBlank afterBreak p s).lead = .other := by
  induction s generalizing p first afterBlank afterBreak with
  | nil =>
    have hi := Pen.lead_indent_pos hat (h.imp_right fun ⟨_, hl, hc⟩ => ⟨0, hl, .inl (hc ▸ hat)⟩)
    cases afterBreak with
    | true => exact hi
    | false => exact h.resolve_right (by simp)
  | cons c s ih =>
    have hi := Pen.lead_indent_pos hat (h.imp_right fun ⟨_, hl, hc⟩ => ⟨0, hl, .inl (hc ▸ hat)⟩)
    have hg : p.lead.IsGood := h.imp_right fun ⟨_, hl, _⟩ => ⟨0, hl⟩
    have hre : c ≠ '\r' := fun he => hs (he ▸ .head _)
    have hr : '\r' ∉ s := fun hm => hs (.tail _ hm)
    rw [writeSingle]
    split
    · rename_i hbl
      obtain rfl : c = ' ' := by simpa using hbl
      split
      · exact ih hr (.inl hi) false true
      · exact ih hr (p := p.put ' ') (.inl (hg.step (by decide) (by decide))) false true
    · split
      · -- a line end, and a second one to keep it
        rename_i hb
        have hd : c ≠ '-' := by
          rintro rfl
          exact absurd hb (by decide)
        refine ih hr ?_ false afterBlank
        generalize hfi : (if (!afterBreak && c == '\n') = true then p.endLine '\n' else p) = q
        have hq : q.lead.IsGood := by
          rw [← hfi]
          split
          · exact .inr ⟨0, hg.step_break⟩
          · exact hg
        by_cases hf : c = '\n'
        · subst hf
          exact .inr ⟨rfl, hq.step_break, rfl⟩
        · exact .inl (hq.step ⟨hf, hre⟩ hd)
      · rename_i hb
        have hin : Lead.IsInline c := by
          refine ⟨?_, hre⟩
          rintro rfl
          exact absurd rfl hb
        have hp : (if afterBreak then p.indent at_ else p).lead = .other := by
          cases afterBreak with
          | true => exact hi
          | false => exact h.resolve_right (by simp)
        dsimp only
        generalize (if afterBreak then p.indent at_ else p) = q at hp
        have hqu : (if c == '\x27' then q.put c else q).lead = .other := by
          split
          · exact Pen.lead_put hp hin
          · exact hp
        generalize (if c == '\x27' then q.put c else q) = q' at hqu
        refine ih hr (p := { q'.put c with indented := false }) (.inl ?_) false false
        exact Pen.lead_put hqu hin

lemma isInline_of_mem_capitalHex {digits d} (h : d ∈ capitalHex digits n) : Lead.IsInline d := by
  have hd : ∀ k < 16, Lead.IsInline (hexDigit k).toUpper := by decide
  obtain ⟨e, he, rfl⟩ := mem_map.mp h
  induction digits generalizing n with
  | zero => cases he
  | succ digits ih =>
    rw [hexDigits, mem_append, mem_singleton] at he
    rcases he with he | rfl
    · exact ih he (mem_map_of_mem he)
    · exact hd _ (Nat.mod_lt n (by decide))

lemma isInline_of_mem_escapeOf {d} (h : d ∈ escapeOf c) : Lead.IsInline d := by
  have hh {letter : Char} (hl : Lead.IsInline letter) {digits n : Nat}
      (h : d ∈ letter :: capitalHex digits n) : Lead.IsInline d := by
    rcases mem_cons.mp h with rfl | h
    · exact hl
    · exact isInline_of_mem_capitalHex h
  rw [escapeOf] at h
  split at h
  case h_16 =>
    split at h
    · exact hh (by decide) h
    · split at h <;> exact hh (by decide) h
  all_goals
    rw [mem_singleton.mp h]
    decide

/-- What inline characters and new lines keep, text between double quotes keeps. -/
lemma holds_writeDouble {P : Lead → Prop} (folds : Bool) (at_) (hp : ∀ {l c}, P l → Lead.IsInline c → P (l.step c))
    (hi : folds → ∀ {p : Pen}, P p.lead → P (p.indent at_).lead) (s : Chars) (h : P p.lead) (first afterBlank) :
    P (writeDouble folds at_ first afterBlank p s).lead := by
  induction s generalizing p first afterBlank with
  | nil => exact h
  | cons c s ih =>
    rw [writeDouble]
    split
    · refine ih ?_ false false
      rw [Pen.lead_puts]
      refine Lead.holds_scan hp (fun d hd => ?_) h
      rcases mem_cons.mp hd with rfl | hd
      · decide
      · exact isInline_of_mem_escapeOf hd
    · rename_i hw
      simp only [Bool.or_eq_true, not_or, Bool.not_eq_true, Bool.not_eq_false'] at hw
      have hpu : P (p.put c).lead := hp h (isInline_of_isWritable hw.1.1.1 hw.1.1.2)
      split
      · split
        · rename_i hb
          have hq := hi (by simp_all [breaksAt]) h
          refine ih ?_ false true
          split
          · exact hp hq (by decide)
          · exact hq
        · exact ih hpu false true
      · exact ih hpu false false

variable {inKey reads : Bool}

lemma plain_of_formOf (h : formOf s reads inKey = .plain) : (∀ c ∈ s, Lead.IsInline c) ∧ ¬ ['-', '-', '-'] <+: s := by
  simp only [formOf] at h
  split at h
  · cases h
  · split at h
    · rename_i hp
      simp only [Bool.and_eq_true, Bool.not_eq_true', Bool.or_eq_false_iff, any_eq_false] at hp
      obtain ⟨⟨⟨⟨⟨⟨⟨⟨-, -⟩, hb⟩, hw, -⟩, -⟩, hd, -⟩, -⟩, -⟩, -⟩ := hp
      refine ⟨fun c hc => isInline_of_isWritable (by simpa using hw c hc) (by simpa using hb c hc), ?_⟩
      rintro ⟨r, rfl⟩
      exact absurd hd (by simp [startsWith, dropStart?])
    · split at h <;> cases h

lemma single_of_formOf (h : formOf s reads inKey = .single) : '\r' ∉ s := by
  simp only [formOf] at h
  split at h
  · cases h
  · split at h
    · cases h
    · split at h
      · cases h
      · rename_i hs
        simp only [Bool.or_eq_true, not_or, Bool.not_eq_true, any_eq_false] at hs
        intro hm
        exact absurd (hs.1.1 _ hm) (by decide)

lemma begun_writeScalar (h : p.Begun) (hat : 0 < at_) (s reads inKey) : (writeScalar p at_ s reads inKey).Begun := by
  have hq := Pen.lead_mark h.isGood (c := '\x27') (by decide) (by decide) true false false
  have hd := Pen.lead_mark h.isGood (c := '"') (by decide) (by decide) true false false
  rw [writeScalar]
  split
  · rename_i hf
    obtain ⟨hi, -⟩ := plain_of_formOf hf
    cases s with
    | nil =>
      -- nothing is written
      rw [isEmpty_nil, Bool.not_true, Bool.and_false]
      exact h.imp_right fun ⟨hl, _⟩ => ⟨hl, rfl⟩
    | cons c s =>
      have hp : (if (!p.spaced && !(c :: s).isEmpty) = true then p.put ' ' else p).lead = .other := by
        rcases h with h | ⟨hl, hs⟩
        · split
          · exact Pen.lead_put h (by decide)
          · exact h
        · rw [hs]
          exact (Pen.Begun.isGood (.inr ⟨hl, hs⟩)).step (by decide) (by decide)
      exact .inl (lead_writePlain hat hi hp false)
  · rename_i hf
    have hsi : (writeSingle (!inKey) at_ true false false (p.mark ['\x27'] true false false) s).lead = .other :=
      lead_writeSingle hat (single_of_formOf hf) (.inl hq) true false
    exact .inl (Pen.lead_mark (.inl hsi) (by decide) (by decide) false false false)
  · have hw : (writeDouble (!inKey) at_ true false (p.mark ['"'] true false false) s).lead = .other :=
      holds_writeDouble (P := (· = .other)) _ _ (fun hl hc => hl ▸ Lead.step_other hc)
        (fun _ _ hl => Pen.lead_indent_pos hat (.inl hl)) s hd true false
    exact .inl (Pen.lead_mark (.inl hw) (by decide) (by decide) false false false)

/-! ## Keys -/

/-- A key stands on one line: nothing is known of the line but that it goes on. -/
def Lead.IsOpen (l : Lead) : Prop := l = .first ∨ l = .other

lemma Lead.IsOpen.step (hl : l.IsOpen) (hc : IsInline c) : (l.step c).IsOpen := by
  rcases hl with rfl | rfl
  · have hb : ¬ (c = '\r' ∨ c = '\n') := fun h => h.elim hc.2 hc.1
    rw [Lead.step, if_neg hb]
    split
    · exact .inr rfl
    · exact .inl rfl
  · exact .inr (step_other hc)

lemma Lead.IsOpen.ne_spoiled (hl : l.IsOpen) : l ≠ .spoiled := by rcases hl with rfl | rfl <;> simp

/-- A line begins well with text that does not begin with three dashes. -/
lemma Lead.scan_dashes (hs : ∀ c ∈ s, IsInline c) (hda : ¬ ['-', '-', '-'] <+: s) : (dashes 0).scan s ≠ .spoiled := by
  have ho {c : Char} {s : Chars} (hc : c ≠ '-') (hs : ∀ d ∈ c :: s, IsInline d) (n : Nat) :
      (dashes n).scan (c :: s) ≠ .spoiled := by
    rw [IsGood.scan_cons (.inr ⟨n, rfl⟩) (hs c (.head _)) hc fun d hd => hs d (.tail _ hd)]
    simp
  match s with
  | [] => simp [scan]
  | c :: s =>
    by_cases hc : c = '-'
    · subst hc
      have hs := fun d hd => hs d (.tail _ hd)
      match s with
      | [] => simp [scan, step]
      | d :: s =>
        by_cases hd : d = '-'
        · subst hd
          have hs := fun e he => hs e (.tail _ he)
          match s with
          | [] => simp [scan, step]
          | e :: s =>
            have he : e ≠ '-' := by
              rintro rfl
              exact hda ⟨s, rfl⟩
            exact ho he hs 2
        · exact ho hd hs 1
    · exact ho hc hs 0

lemma lead_writePlain_key (at_ afterBlank p s) : (writePlain false at_ afterBlank p s).lead = p.lead.scan s := by
  induction s generalizing afterBlank p with
  | nil => rfl
  | cons c s ih =>
    rw [writePlain]
    split
    · exact ih true (p.put c)
    · exact ih false { p.put c with indented := false }

lemma isOpen_writeSingle_key (at_) (hs : ∀ c ∈ s, isBreak c = false) (h : p.lead.IsOpen) (first afterBlank) :
    (writeSingle false at_ first afterBlank false p s).lead.IsOpen := by
  induction s generalizing p first afterBlank with
  | nil => exact h
  | cons c s ih =>
    have hb := hs c (.head _)
    have hi : Lead.IsInline c := by constructor <;> rintro rfl <;> exact absurd hb (by decide)
    have hs := fun d hd => hs d (.tail _ hd)
    rw [writeSingle]
    split
    · exact ih hs (p := p.put c) (h.step hi) false true
    · rw [hb]
      refine ih hs (p := { (if c == '\x27' then p.put c else p).put c with indented := false }) ?_ false false
      refine Lead.IsOpen.step ?_ hi
      split
      · exact h.step hi
      · exact h

lemma lead_writeScalar_key (hsp : p.spaced) (h : p.lead.IsOpen ∨ p.lead = .dashes 0) (hs : ∀ c ∈ s, isBreak c = false) (at_ reads) :
    (writeScalar p at_ s reads true).lead ≠ .spoiled := by
  -- what is in quotes does not begin with a dash
  have hq {c : Char} (hc : Lead.IsInline c) (hda : c ≠ '-') : (p.mark [c] true false false).lead.IsOpen := by
    have hl : (p.mark [c] true false false).lead = p.lead.step c := by
      rw [Pen.mark, hsp]
      rfl
    rw [hl]
    rcases h with h | h
    · exact h.step hc
    · exact .inr (Lead.IsGood.step (.inr ⟨0, h⟩) hc hda)
  rw [writeScalar]
  split
  · rename_i hf
    obtain ⟨hi, hd⟩ := plain_of_formOf hf
    have hp : (if (!p.spaced && !s.isEmpty) = true then p.put ' ' else p) = p := by
      rw [hsp]
      rfl
    rw [hp, Bool.not_true, lead_writePlain_key]
    rcases h with h | h
    · exact (Lead.holds_scan Lead.IsOpen.step hi h).ne_spoiled
    · rw [h]
      exact Lead.scan_dashes hi hd
  · have ho := isOpen_writeSingle_key at_ hs (hq (c := '\x27') (by decide) (by decide)) true false
    exact (ho.step (c := '\x27') (by decide)).ne_spoiled
  · have ho := holds_writeDouble false at_ Lead.IsOpen.step (by simp) s (hq (c := '"') (by decide) (by decide)) true false
    exact (ho.step (c := '"') (by decide)).ne_spoiled

lemma lead_writeKey (h : (p.indent at_).lead.IsOpen ∨ (p.indent at_).lead = .dashes 0)
    (k) : (writeKey p at_ k).lead = .other := by
  rw [writeKey]
  split
  · rename_i hs
    have hb : ∀ c ∈ k.toList, isBreak c = false := by
      simp only [isShortKey, Bool.and_eq_true, Bool.not_eq_true', any_eq_false, Bool.not_eq_true] at hs
      exact hs.1
    have hk := lead_writeScalar_key (p := p.indent at_) rfl h hb (at_ + 2) (readsBack (.str k))
    exact Lead.step_colon hk
  · -- a long key has a line of its own, behind a question mark
    have hm : ((p.indent at_).mark ['?'] true false true).lead = .other := by
      have hl : ((p.indent at_).mark ['?'] true false true).lead = (p.indent at_).lead.step '?' := rfl
      rw [hl]
      rcases h with (h | h) | h <;> rw [h] <;> rfl
    have hk := begun_writeScalar (.inl hm) (Nat.succ_pos (at_ + 1)) k.toList (readsBack (.str k)) false
    refine Pen.lead_mark ?_ (by decide) (by decide) true false true
    exact (hk.lead_indent at_).imp_right fun h => ⟨0, h.2⟩

lemma begun_item (h : p.Begun) (at_) : ((p.indent at_).mark ['-'] true false true).Begun := by
  have hl : ((p.indent at_).mark ['-'] true false true).lead = (p.indent at_).lead.step '-' := rfl
  rw [Pen.Begun, hl]
  rcases h.lead_indent at_ with h | ⟨-, h⟩ <;> rw [h]
  · exact .inl rfl
  · exact .inr ⟨rfl, rfl⟩

lemma Pen.Begun.key (h : p.Begun) (at_ k) : (writeKey p at_ k).Begun :=
  .inl (lead_writeKey ((h.lead_indent at_).imp .inr And.right) k)

mutual

lemma begun_writeValue {p : Pen} (h : p.Begun) (at_ : Nat) (inField : Bool) : (v : Value) → (writeValue p at_ inField v).Begun
  | .list [] => by
    have ho := Pen.lead_mark h.isGood (c := '[') (by decide) (by decide) true true false
    exact .inl (Pen.lead_mark (.inl ho) (by decide) (by decide) false false false)
  | .map [] => by
    have ho := Pen.lead_mark h.isGood (c := '\x7b') (by decide) (by decide) true true false
    exact .inl (Pen.lead_mark (.inl ho) (by decide) (by decide) false false false)
  | .list (v :: vs) => begun_writeItems h (if inField && !p.indented then at_ else at_ + 2) (v :: vs)
  | .map (f :: fs) => begun_writeFields h (at_ + 2) (f :: fs)
  | .null | .bool _ | .int _ | .float _ | .str _ | .date _ | .datetime _ | .time _ | .duration _ | .bytes _ =>
    begun_writeScalar h (Nat.succ_pos (at_ + 1)) _ _ false

lemma begun_writeItems {p : Pen} (h : p.Begun) (at_ : Nat) : (vs : List Value) → (writeItems p at_ vs).Begun
  | [] => h
  | v :: vs => begun_writeItems (begun_writeValue (begun_item h at_) at_ false v) at_ vs

lemma begun_writeFields {p : Pen} (h : p.Begun) (at_ : Nat) : (fs : List (String × Value)) → (writeFields p at_ fs).Begun
  | [] => h
  | (k, v) :: fs => begun_writeFields (begun_writeValue (h.key at_ k) at_ true v) at_ fs

end

/-- **Written fields can stand between lines of dashes.** -/
lemma isGood_scan_render {fields : Fields} (h : fields ≠ []) : (Lead.first.scan (render fields).toList).IsGood := by
  obtain ⟨⟨k, v⟩, r, hs⟩ : ∃ f r, sortedFields (sortedEach fields) = f :: r := by
    refine exists_cons_of_ne_nil fun hn => ?_
    have hl := congrArg List.length hn
    rw [sortedFields, length_mergeSort] at hl
    cases fields with
    | nil => exact h rfl
    | cons f fields => cases hl
  have ht : render fields = String.ofList (writeFields {} 0 ((k, v) :: r)).out.reverse := by
    have hm : sorted (.map fields) = .map ((k, v) :: r) := congrArg Value.map hs
    rw [render, hm]
  -- the key on the first line starts where nothing is known yet
  have hk : (writeKey {} 0 k).Begun := .inl (lead_writeKey (.inl (.inl rfl)) k)
  have ha := begun_writeFields (begun_writeValue hk 0 true v) 0 r
  rw [ht, String.toList_ofList, ← Pen.lead_eq_scan]
  exact ha.isGood

end Sluice.Yaml
