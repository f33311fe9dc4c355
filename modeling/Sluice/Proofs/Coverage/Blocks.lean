import Mathlib.Data.List.Basic
import Mathlib.Data.List.Induction
import Mathlib.Data.List.Nodup
import Mathlib.Data.List.TakeWhile
import Sluice.Coverage.Command

/-!
# Tracefiles as blocks

A **block** reaches from one opening of a source file to the next: its **body**, up to the first closing, fills the
section, the **strays** change the closed file. All that a report knows of a file is the last block that closes it
(`lookup_ofBlocks`).
-/

namespace Sluice.Coverage

open List
open State (run step touch)

variable {e : Entry} {es : List Entry}

open Entry

variable (text : String)

def readEntries : Result (List Entry) := (Text.lines text.toList).mapM ofLine

namespace Entry

def opens : Entry → Bool
  | .source _ => true
  | _ => false

def line? : Entry → Option LineHit
  | .line l => some l
  | _ => none

def branch? : Entry → Option BranchHit
  | .branch b => some b
  | _ => none

lemma opens_of_mem_takeWhile (h : e ∈ es.takeWhile (!·.opens)) : e.opens = false := by simpa using mem_takeWhile_imp h

end Entry

lemma State.run_eq (s) (ls : List Chars) : s.run ls = (ls.mapM ofLine).map fun es => es.foldl step s := by
  induction ls generalizing s with
  | nil => rfl
  | cons l ls ih =>
    rw [run, mapM_cons]
    cases ofLine l with
    | error f => rfl
    | ok e =>
      simp only [ih]
      cases ls.mapM ofLine <;> rfl

/-! ## Reports -/

namespace Report

def Distinct (r : Report) : Prop := (r.map (·.1)).Nodup

lemma set_cons (path p file f) (r : Report) :
    Report.set path file ((p, f) :: r) = if p = path then (p, file) :: r else (p, f) :: r.set path file := rfl

lemma lookup_cons (other p f) (r : Report) :
    List.lookup other ((p, f) :: r) = if other = p then some f else r.lookup other := by
  rw [List.lookup_cons]
  by_cases h : other = p
  · simp [h]
  · simp [h, beq_eq_false_iff_ne.mpr h]

lemma map_fst_set (path file) (r : Report) :
    (r.set path file).map (·.1) = if path ∈ r.map (·.1) then r.map (·.1) else r.map (·.1) ++ [path] := by
  induction r with
  | nil => rfl
  | cons pf r ih =>
    obtain ⟨p, f⟩ := pf
    by_cases hp : p = path
    · simp [set_cons, hp]
    · rw [set_cons, if_neg hp, map_cons, ih]
      simp only [map_cons, mem_cons, Ne.symm hp, false_or]
      split <;> rfl

lemma lookup_set (path other file) (r : Report) :
    (r.set path file).lookup other = if other = path then some file else r.lookup other := by
  induction r with
  | nil => exact lookup_cons other path file []
  | cons pf r ih =>
    obtain ⟨p, f⟩ := pf
    by_cases hp : p = path
    · subst hp
      rw [set_cons, if_pos rfl, lookup_cons, lookup_cons]
      by_cases ho : other = p
      · rw [if_pos ho, if_pos ho]
      · rw [if_neg ho, if_neg ho, if_neg ho]
    · rw [set_cons, if_neg hp, lookup_cons, lookup_cons, ih]
      by_cases ho : other = p
      · have hne : other ≠ path := fun he => hp (ho.symm.trans he)
        rw [if_pos ho, if_neg hne, if_pos ho]
      · rw [if_neg ho, if_neg ho]

namespace Distinct

variable {r : Report}

lemma tail {pf} (h : Report.Distinct (pf :: r)) : r.Distinct := (nodup_cons.mp h).2

lemma not_mem_tail {p f} (h : Report.Distinct ((p, f) :: r)) : p ∉ r.map (·.1) := (nodup_cons.mp h).1

lemma set_path (h : r.Distinct) (path file) : (r.set path file).Distinct := by
  rw [Distinct, map_fst_set]
  split
  · exact h
  · rename_i hn
    refine nodup_append.mpr ⟨h, nodup_singleton path, ?_⟩
    intro p hp q hq
    rw [mem_singleton.mp hq]
    exact fun he => hn (he ▸ hp)

lemma modify_set (h : r.Distinct) (path file) (change : FileCoverage → FileCoverage) :
    (r.set path file).modify path change = r.set path (change file) := by
  -- the other files have other paths and stay
  have ho : ∀ s : Report, path ∉ s.map (·.1) → s.modify path change = s := by
    intro s hs
    refine (map_congr_left fun pf hpf => ?_).trans (map_id s)
    have hne : pf.1 ≠ path := fun he => hs (he ▸ mem_map_of_mem hpf)
    rw [if_neg hne]
    rfl
  induction r with
  | nil => simp [Report.set, Report.modify]
  | cons pf r ih =>
    obtain ⟨p, f⟩ := pf
    by_cases hp : p = path
    · subst hp
      rw [set_cons, if_pos rfl, set_cons, if_pos rfl, Report.modify, map_cons, if_pos rfl]
      exact congrArg (List.cons _) (ho r h.not_mem_tail)
    · rw [set_cons, if_neg hp, set_cons, if_neg hp, Report.modify, map_cons, if_neg hp]
      exact congrArg (List.cons _) (ih h.tail)

lemma mem_iff (h : r.Distinct) {path file} : (path, file) ∈ r ↔ r.lookup path = some file := by
  induction r with
  | nil => simp
  | cons pf r ih =>
    obtain ⟨p, f⟩ := pf
    rw [lookup_cons, mem_cons, ih h.tail]
    by_cases hp : path = p
    · subst hp
      have hn : r.lookup path ≠ some file := fun hl => h.not_mem_tail (mem_map_of_mem ((ih h.tail).mpr hl))
      simp [hn, eq_comm]
    · simp [hp]

end Distinct

end Report

/-! ## Blocks -/

/-- **A block**: an opening of a source file and what stands behind it, up to the next opening. -/
structure Block where
  path : String
  entries : List Entry
  /-- nothing more is opened -/
  plain : ∀ e ∈ entries, e.opens = false

def blocks : List Entry → List Block
  | [] => []
  | .source path :: es =>
    { path
      entries := es.takeWhile (!·.opens)
      plain := fun _ => opens_of_mem_takeWhile } :: blocks es
  | _ :: es => blocks es

def Section.add (s : Section) : Entry → Section
  | .line l => { s with lines := s.lines ++ [l] }
  | .function name start last => { s with functions := defineFunction ⟨name, start, last, 0⟩ s.functions }
  | .calls name hits => { s with functions := setCalls name hits s.functions }
  | .branch b => { s with branches := s.branches ++ [b] }
  | _ => s

/-- A closed file that is still attached, with those of its functions that were not defined anew. -/
structure Attached where
  file : FileCoverage
  shared : List String

def Attached.add (a : Attached) : Entry → Attached
  | .line l => { a with file := { a.file with lines := a.file.lines ++ [l] } }
  | .function name _ _ => { a with shared := a.shared.filter (· != name) }
  | .calls name hits => if a.shared.contains name then { a with file := a.file.setCalls name hits } else a
  | .branch b => { a with file := { a.file with branches := a.file.branches ++ [b] } }
  | _ => a

namespace Block

variable (b : Block)

def closes : Bool := b.path != "" && b.entries.contains .close

def body : List Entry := b.entries.takeWhile (· != .close)

def strays : List Entry := (b.entries.dropWhile (· != .close)).tail

def reported : Section := b.body.foldl Section.add {}

/-- **The file that a block makes**, if it closes it. -/
def file : FileCoverage := (b.strays.foldl Attached.add ⟨b.reported.toFile, b.reported.functions.map (·.name)⟩).file

lemma entries_eq {b : Block} (h : close ∈ b.entries) : b.entries = b.body ++ .close :: b.strays := by
  have hr : b.entries.dropWhile (· != .close) ≠ [] := by
    intro hn
    simpa using dropWhile_eq_nil_iff.mp hn .close h
  obtain ⟨e, es, hc⟩ := exists_cons_of_ne_nil hr
  have hcl : e = .close := by
    have := head_dropWhile_not (· != close) hr
    simpa [hc] using this
  have hs : b.strays = es := by rw [strays, hc, tail_cons]
  calc b.entries = b.body ++ b.entries.dropWhile (· != .close) := (takeWhile_append_dropWhile).symm
    _ = b.body ++ .close :: b.strays := by rw [hc, hcl, hs]

lemma close_not_mem_body : close ∉ b.body := by
  intro h
  simpa using mem_takeWhile_imp h

end Block

def Report.add (r : Report) (b : Block) : Report := if b.closes then r.set b.path b.file else r

def Report.ofBlocks (bs : List Block) : Report := bs.foldl Report.add []

def lastClosed (path : String) (bs : List Block) : Option Block := (bs.filter fun b => b.closes && b.path == path).getLast?

lemma Report.Distinct.add {r : Report} (h : r.Distinct) (b) : (r.add b).Distinct := by
  rw [Report.add]
  split
  · exact h.set_path b.path b.file
  · exact h

lemma distinct_ofBlocks (bs) : (Report.ofBlocks bs).Distinct := by
  induction bs using List.reverseRecOn with
  | nil => exact nodup_nil
  | append_singleton bs b ih =>
    rw [Report.ofBlocks, foldl_concat]
    exact ih.add b

/-- **The last block that closes a file** is what a report says of it. -/
lemma lookup_ofBlocks (path bs) : (Report.ofBlocks bs).lookup path = (lastClosed path bs).map Block.file := by
  induction bs using List.reverseRecOn with
  | nil => rfl
  | append_singleton bs b ih =>
    rw [Report.ofBlocks, foldl_concat, ← Report.ofBlocks, Report.add, lastClosed]
    cases hb : b.closes with
    | false => simp [hb, ih, lastClosed]
    | true =>
      by_cases hp : path = b.path
      · simp [hb, hp, Report.lookup_set]
      · simp [hp, Ne.symm hp, Report.lookup_set, ih, lastClosed]

/-! ## Reading block by block -/

section Reading

variable {r : Report} {path? : Option String} {sec : Section}

lemma step_unattached (ho : e.opens = false) (hc : e = .close → path? = none ∨ path? = some "") :
    step ⟨r, path?, sec, none, []⟩ e = ⟨r, path?, sec.add e, none, []⟩ := by
  cases e with
  | source path => cases ho
  | close => rcases hc rfl with rfl | rfl <;> rfl
  | line l => rfl
  | function name start last => rfl
  | calls name hits => rfl
  | branch b => rfl
  | other => rfl

lemma foldl_step_unattached (ho : ∀ e ∈ es, e.opens = false) (hc : close ∈ es → path? = none ∨ path? = some "") :
    es.foldl step ⟨r, path?, sec, none, []⟩ = ⟨r, path?, es.foldl Section.add sec, none, []⟩ := by
  induction es generalizing sec with
  | nil => rfl
  | cons e es ih =>
    have hs : step ⟨r, path?, sec, none, []⟩ e = ⟨r, path?, sec.add e, none, []⟩ :=
      step_unattached (ho e (.head _)) fun he => hc (he ▸ .head _)
    rw [foldl_cons, hs]
    exact ih (fun d hd => ho d (.tail _ hd)) fun hd => hc (.tail _ hd)

lemma step_attached (hr : r.Distinct) (path) (a : Attached) (ho : e.opens = false) :
    step ⟨r.set path a.file, none, sec, some path, a.shared⟩ e =
      ⟨r.set path (a.add e).file, none, sec.add e, some path, (a.add e).shared⟩ := by
  cases e with
  | source path => cases ho
  | line l => simp only [step, touch, hr.modify_set, Section.add, Attached.add]
  | function name start last => rfl
  | calls name hits =>
    simp only [step, Attached.add, Section.add]
    split
    · simp only [touch, hr.modify_set]
    · rfl
  | branch b => simp only [step, touch, hr.modify_set, Section.add, Attached.add]
  | close => rfl
  | other => rfl

lemma foldl_step_attached (hr : r.Distinct) (path a) (ho : ∀ e ∈ es, e.opens = false) :
    (es.foldl step ⟨r.set path a.file, none, sec, some path, a.shared⟩).report =
      r.set path (es.foldl Attached.add a).file := by
  induction es generalizing a sec with
  | nil => rfl
  | cons e es ih =>
    rw [foldl_cons, step_attached hr path a (ho e (.head _))]
    exact ih (a.add e) fun d hd => ho d (.tail _ hd)

end Reading

/-- **A block is read on its own**: whatever came before, it adds its file to the report. -/
lemma foldl_step_block (s : State) (hs : s.report.Distinct) (b) :
    (b.entries.foldl step (s.step (.source b.path))).report = s.report.add b := by
  rw [Report.add]
  cases hb : b.closes with
  | false =>
    -- the section is never closed, or its closing counts for nothing
    have hc : close ∈ b.entries → some b.path = none ∨ some b.path = some "" := by
      intro hm
      simpa [Block.closes, hm] using hb
    rw [step, foldl_step_unattached b.plain hc]
    rfl
  | true =>
    obtain ⟨hpa, hc⟩ : b.path ≠ "" ∧ close ∈ b.entries := by simpa [Block.closes] using hb
    have hp := b.plain
    rw [Block.entries_eq hc] at hp ⊢
    have hbo : ∀ e ∈ b.body, e.opens = false := fun e he => hp e (mem_append_left _ he)
    have hst : ∀ e ∈ b.strays, e.opens = false := fun e he => hp e (mem_append_right _ (.tail _ he))
    rw [foldl_append, step, foldl_step_unattached hbo fun hm => absurd hm b.close_not_mem_body]
    have hcl : step ⟨s.report, some b.path, b.reported, none, []⟩ .close =
        ⟨s.report.set b.path b.reported.toFile, none, b.reported, some b.path, b.reported.functions.map (·.name)⟩ := by
      simp only [step, State.close, if_neg hpa]
    exact (congrArg (fun t => (b.strays.foldl step t).report) hcl).trans
      (foldl_step_attached hs b.path ⟨b.reported.toFile, b.reported.functions.map (·.name)⟩ hst)

lemma report_foldl_step (es s) (hs : ((es.takeWhile (!·.opens)).foldl step s).report.Distinct) :
    (es.foldl step s).report = (blocks es).foldl Report.add ((es.takeWhile (!·.opens)).foldl step s).report := by
  induction es generalizing s with
  | nil => rfl
  | cons e es ih =>
    cases ho : e.opens with
    | false =>
      have hh : (e :: es).takeWhile (!·.opens) = e :: es.takeWhile (!·.opens) := by simp [ho]
      have hbl : blocks (e :: es) = blocks es := by
        cases e with
        | source path => cases ho
        | _ => rfl
      rw [hh] at hs ⊢
      rw [hbl]
      exact ih (s.step e) hs
    | true =>
      cases e with
      | source path =>
        have hb := foldl_step_block s hs
          ⟨path, es.takeWhile (!·.opens), fun _ => opens_of_mem_takeWhile⟩
        have hr := ih (s.step (.source path)) (by rw [hb]; exact Report.Distinct.add hs _)
        rw [hb] at hr
        exact hr
      | _ => cases ho

/-- **A tracefile is read block by block.** -/
lemma parse_eq : parse text = (readEntries text).map fun es => Report.ofBlocks (blocks es) := by
  have hr : ∀ es : List Entry, (es.foldl step {}).report = Report.ofBlocks (blocks es) := by
    intro es
    -- before the first block there is no file that could be closed or changed
    have hb : ((es.takeWhile (!·.opens)).foldl step {}).report = [] := by
      rw [foldl_step_unattached (fun _ => opens_of_mem_takeWhile) fun _ => .inl rfl]
    rw [report_foldl_step es {} (by rw [hb]; exact nodup_nil), hb, Report.ofBlocks]
  rw [parse, State.run_eq, readEntries]
  cases (Text.lines text.toList).mapM ofLine with
  | error f => rfl
  | ok es => exact congrArg Except.ok (hr es)

end Sluice.Coverage
