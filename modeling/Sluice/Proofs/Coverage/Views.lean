import Mathlib.Data.Bool.AllAny
import Sluice.Proofs.Coverage.Blocks

/-!
# Views of a report that agree

The summary of a file is made when it is closed; its lists may still grow, unless the block is **quiet**: no stray
reports a line or a branch, and as many functions are called as before.
-/

namespace Sluice.Coverage

open List Value

/-- **The summary of a file counts its lists**, and each function has the lines and branches in its range. -/
structure FileCoverage.Agrees (file : FileCoverage) : Prop where
  totalLines : file.summary.totalLines = file.lines.length
  executedLines : file.summary.executedLines = file.lines.countP (·.executed)
  totalBranches : file.summary.totalBranches = file.branches.length
  takenBranches : file.summary.takenBranches = file.branches.countP (·.taken)
  totalFunctions : file.summary.totalFunctions = file.functions.length
  executedFunctions : file.summary.executedFunctions = file.functions.countP (·.function.executed)
  functionLines : ∀ f ∈ file.functions, f.lines = file.lines.filter fun l =>
    decide (f.function.startLine ≤ l.line ∧ l.line ≤ f.function.endLine)
  functionBranches : ∀ f ∈ file.functions, f.branches = file.branches.filter fun b =>
    decide (f.function.startLine ≤ b.line ∧ b.line ≤ f.function.endLine)

def Entry.reports : Entry → Bool
  | .line _ | .branch _ | .calls .. => true
  | _ => false

/-- **A quiet block**: what stands behind its closing changes no count. -/
structure Block.Quiet (b : Block) : Prop where
  lines : ∀ e ∈ b.strays, e.line? = none
  branches : ∀ e ∈ b.strays, e.branch? = none
  functions : b.file.functions.countP (·.function.executed) = b.reported.functions.countP (·.executed)

/-! ## What strays change -/

def FunctionCoverage.withoutCalls (f : FunctionCoverage) : FunctionCoverage :=
  { f with function := { f.function with hits := 0 } }

lemma FileCoverage.withoutCalls_setCalls (name hits) (file : FileCoverage) :
    (file.setCalls name hits).functions.map (·.withoutCalls) = file.functions.map (·.withoutCalls) := by
  rw [FileCoverage.setCalls, map_map]
  refine map_congr_left fun f _ => ?_
  simp only [Function.comp_apply]
  split <;> rfl

namespace Attached

variable (a : Attached) (e : Entry)

lemma add_summary : (a.add e).file.summary = a.file.summary := by
  cases e with
  | calls name hits => rw [add]; split <;> rfl
  | _ => rfl

lemma add_lines : (a.add e).file.lines = a.file.lines ++ e.line?.toList := by
  cases e with
  | calls name hits => rw [add]; split <;> exact (append_nil _).symm
  | line l => rfl
  | _ => exact (append_nil _).symm

lemma add_branches : (a.add e).file.branches = a.file.branches ++ e.branch?.toList := by
  cases e with
  | calls name hits => rw [add]; split <;> exact (append_nil _).symm
  | branch b => rfl
  | _ => exact (append_nil _).symm

lemma add_functions : (a.add e).file.functions.map (·.withoutCalls) = a.file.functions.map (·.withoutCalls) := by
  cases e with
  | calls name hits =>
    rw [add]
    split
    · exact FileCoverage.withoutCalls_setCalls name hits a.file
    · rfl
  | _ => rfl

lemma add_of_not_reports {e} (h : e.reports = false) (a : Attached) : (a.add e).file = a.file := by
  cases e with
  | line l => cases h
  | branch b => cases h
  | calls name hits => cases h
  | _ => rfl

lemma foldl_add (es : List Entry) (a) : (es.foldl add a).file.summary = a.file.summary ∧
      (es.foldl add a).file.lines = a.file.lines ++ es.filterMap Entry.line? ∧
      (es.foldl add a).file.branches = a.file.branches ++ es.filterMap Entry.branch? ∧
      (es.foldl add a).file.functions.map (·.withoutCalls) = a.file.functions.map (·.withoutCalls) := by
  induction es generalizing a with
  | nil => simp
  | cons e es ih =>
    obtain ⟨hs, hl, hb, hf⟩ := ih (a.add e)
    refine ⟨hs.trans (a.add_summary e), ?_, ?_, hf.trans (a.add_functions e)⟩
    · rw [foldl_cons, hl, add_lines, filterMap_cons]
      cases e.line? <;> simp
    · rw [foldl_cons, hb, add_branches, filterMap_cons]
      cases e.branch? <;> simp

lemma foldl_add_of_not_reports {es : List Entry} (h : ∀ e ∈ es, e.reports = false) (a) :
    (es.foldl add a).file = a.file := by
  induction es generalizing a with
  | nil => rfl
  | cons e es ih =>
    rw [foldl_cons, ih fun d hd => h d (.tail _ hd)]
    exact add_of_not_reports (h e (.head _)) a

end Attached

namespace Block

variable (b : Block)

open Attached

lemma summary_file : b.file.summary = b.reported.summary := (foldl_add b.strays _).1

lemma lines_file : b.file.lines = b.reported.lines ++ b.strays.filterMap Entry.line? := (foldl_add b.strays _).2.1

lemma branches_file : b.file.branches = b.reported.branches ++ b.strays.filterMap Entry.branch? :=
  (foldl_add b.strays _).2.2.1

lemma functions_file : b.file.functions.map (·.withoutCalls) =
    (b.reported.functions.map b.reported.functionCoverage).map (·.withoutCalls) := (foldl_add b.strays _).2.2.2

lemma length_functions_file : b.file.functions.length = b.reported.functions.length := by
  simpa using congrArg List.length b.functions_file

lemma ranges_file {f} (hf : f ∈ b.file.functions) : f.lines = b.reported.lines.filter (f.function.covers ·.line) ∧
      f.branches = b.reported.branches.filter (f.function.covers ·.line) := by
  have hm : f.withoutCalls ∈ b.file.functions.map (·.withoutCalls) := mem_map_of_mem hf
  rw [functions_file, map_map, mem_map] at hm
  obtain ⟨g, -, hg⟩ := hm
  -- calls do not matter for lines, branches and range
  have hl : f.withoutCalls.lines = b.reported.lines.filter fun l => f.withoutCalls.function.covers l.line := by
    rw [← hg]
    rfl
  have hb : f.withoutCalls.branches = b.reported.branches.filter fun x => f.withoutCalls.function.covers x.line := by
    rw [← hg]
    rfl
  exact ⟨hl, hb⟩

/-- **The file of a block agrees with its summary exactly if the block is quiet.** -/
lemma agrees_file_iff : b.file.Agrees ↔ b.Quiet := by
  have hc : ∀ (f : FunctionHit) (n : Int), f.covers n = decide (f.startLine ≤ n ∧ n ≤ f.endLine) := by
    simp [FunctionHit.covers]
  constructor
  · intro h
    refine ⟨?_, ?_, ?_⟩
    · -- a line more would be one more than the summary says
      have hl : b.reported.lines.length = b.file.lines.length := by
        rw [← h.totalLines, summary_file]
        rfl
      rw [lines_file, length_append] at hl
      exact filterMap_eq_nil_iff.mp (length_eq_zero_iff.mp (by omega))
    · have hl : b.reported.branches.length = b.file.branches.length := by
        rw [← h.totalBranches, summary_file]
        rfl
      rw [branches_file, length_append] at hl
      exact filterMap_eq_nil_iff.mp (length_eq_zero_iff.mp (by omega))
    · rw [← h.executedFunctions, summary_file]
      rfl
  · intro h
    have hli : b.file.lines = b.reported.lines := by rw [lines_file, filterMap_eq_nil_iff.mpr h.lines, append_nil]
    have hb : b.file.branches = b.reported.branches := by
      rw [branches_file, filterMap_eq_nil_iff.mpr h.branches, append_nil]
    constructor
    case totalLines => rw [summary_file, hli]; rfl
    case executedLines => rw [summary_file, hli]; rfl
    case totalBranches => rw [summary_file, hb]; rfl
    case takenBranches => rw [summary_file, hb]; rfl
    case totalFunctions => rw [summary_file, length_functions_file]; rfl
    case executedFunctions => rw [summary_file, h.functions]; rfl
    case functionLines =>
      intro f hf
      simp only [hli, (b.ranges_file hf).1, hc]
    case functionBranches =>
      intro f hf
      simp only [hb, (b.ranges_file hf).2, hc]

lemma quiet_of_strays (h : ∀ e ∈ b.strays, e.reports = false) : b.Quiet := by
  constructor
  case lines =>
    intro e he
    have := h e he
    cases e <;> first | rfl | cases this
  case branches =>
    intro e he
    have := h e he
    cases e <;> first | rfl | cases this
  case functions =>
    have hf : b.file = b.reported.toFile := foldl_add_of_not_reports h _
    rw [hf, Section.toFile, countP_map]
    rfl

end Block

/-! ## Counting records -/

def recordsOf (view : View) (report : Report) (path : String) : List Value :=
  (records view report).filter fun v => (v.get? "file").bind str? == some path

def saysYes (key : String) (v : Value) : Bool :=
  match v.get? key with
  | some (.bool yes) => yes
  | _ => false

def HasCount (v : Value) (key : String) (n : Nat) : Prop := v.get? key = some (.int n)

/-- **The record of a file counts the records of the other views.** -/
structure CountsRecords (report : Report) (path : String) (v : Value) : Prop where
  totalLines : HasCount v "total_lines" (recordsOf .lines report path).length
  executedLines : HasCount v "executed_lines" ((recordsOf .lines report path).countP (saysYes "executed"))
  totalBranches : HasCount v "total_branches" (recordsOf .branches report path).length
  takenBranches : HasCount v "taken_branches" ((recordsOf .branches report path).countP (saysYes "taken"))
  totalFunctions : HasCount v "total_functions" (recordsOf .functions report path).length
  executedFunctions : HasCount v "executed_functions" ((recordsOf .functions report path).countP (saysYes "executed"))

lemma filter_flatMap_of_distinct {report : Report} (hd : report.Distinct) {path file}
    (hm : (path, file) ∈ report) (f : String × FileCoverage → List Value)
    (hf : ∀ pf, ∀ v ∈ f pf, (v.get? "file").bind str? = some pf.1) :
    (report.flatMap f).filter (fun v => (v.get? "file").bind str? == some path) = f (path, file) := by
  induction report with
  | nil => cases hm
  | cons pf report ih =>
    obtain ⟨p, g⟩ := pf
    rw [flatMap_cons, filter_append]
    -- the records of an entry are kept or dropped together
    have hk : ∀ pf : String × FileCoverage, pf.1 = path →
        (f pf).filter (fun v => (v.get? "file").bind str? == some path) = f pf := by
      intro pf hp
      refine filter_eq_self.mpr fun v hv => ?_
      rw [hf pf v hv, hp]
      exact beq_self_eq_true _
    have hdr : ∀ pf : String × FileCoverage, pf.1 ≠ path →
        (f pf).filter (fun v => (v.get? "file").bind str? == some path) = [] := by
      intro pf hp
      refine filter_eq_nil_iff.mpr fun v hv => ?_
      rw [hf pf v hv]
      simpa using hp
    rcases mem_cons.mp hm with heq | ht
    · obtain ⟨rfl, rfl⟩ := Prod.mk.inj heq
      have hr : (report.flatMap f).filter
          (fun v => (v.get? "file").bind str? == some path) = [] := by
        rw [filter_flatMap]
        refine flatMap_eq_nil_iff.mpr fun pf hpf => hdr pf fun hp => ?_
        exact hd.not_mem_tail (hp ▸ mem_map_of_mem hpf)
      rw [hk _ rfl, hr, append_nil]
    · have hp : p ≠ path := fun hp => hd.not_mem_tail (hp ▸ mem_map_of_mem ht)
      rw [hdr (p, g) hp, ih hd.tail ht, nil_append]

section Counts

variable {report : Report} {path : String} {file : FileCoverage}

lemma recordsOf_lines (hd : report.Distinct) (hm : (path, file) ∈ report) :
    recordsOf .lines report path = file.lines.map fun l => .map (fileFields path ++ l.fields) := by
  refine filter_flatMap_of_distinct hd hm _ fun pf v hv => ?_
  obtain ⟨l, -, rfl⟩ := mem_map.mp hv
  rfl

lemma recordsOf_branches (hd : report.Distinct) (hm : (path, file) ∈ report) :
    recordsOf .branches report path = file.branches.map fun b => .map (fileFields path ++ b.fields) := by
  refine filter_flatMap_of_distinct hd hm _ fun pf v hv => ?_
  obtain ⟨b, -, rfl⟩ := mem_map.mp hv
  rfl

lemma recordsOf_functions (hd : report.Distinct) (hm : (path, file) ∈ report) :
    recordsOf .functions report path = file.functions.map (functionRecord path) := by
  refine filter_flatMap_of_distinct hd hm _ fun pf v hv => ?_
  obtain ⟨f, -, rfl⟩ := mem_map.mp hv
  rfl

lemma recordsOf_files (hd : report.Distinct) (hm : (path, file) ∈ report) :
    recordsOf .files report path = fileRecords [(path, file)] := by
  rw [recordsOf, records, fileRecords, map_eq_flatMap]
  refine filter_flatMap_of_distinct hd hm _ fun pf v hv => ?_
  rw [mem_singleton.mp hv]
  rfl

lemma fileRecords_singleton (path file) :
    ∃ v, fileRecords [(path, file)] = [v] ∧ HasCount v "total_lines" file.summary.totalLines ∧
      HasCount v "executed_lines" file.summary.executedLines ∧ HasCount v "total_branches" file.summary.totalBranches ∧
      HasCount v "taken_branches" file.summary.takenBranches ∧ HasCount v "total_functions" file.summary.totalFunctions ∧
      HasCount v "executed_functions" file.summary.executedFunctions := by
  refine ⟨_, map_singleton, ?_⟩
  exact ⟨rfl, rfl, rfl, rfl, rfl, rfl⟩

/-- **Where a file agrees with its summary, its record counts the records of the other views.** -/
lemma FileCoverage.Agrees.countsRecords (h : file.Agrees) (hd : report.Distinct)
    (hm : (path, file) ∈ report) : ∃ v, recordsOf .files report path = [v] ∧ CountsRecords report path v := by
  obtain ⟨v, hv, hl, he, hb, ht, hf, hc⟩ := fileRecords_singleton path file
  refine ⟨v, (recordsOf_files hd hm).trans hv, ?_⟩
  constructor
  case totalLines => rwa [recordsOf_lines hd hm, length_map, ← h.totalLines]
  case executedLines =>
    rw [recordsOf_lines hd hm, countP_map]
    exact h.executedLines ▸ he
  case totalBranches => rwa [recordsOf_branches hd hm, length_map, ← h.totalBranches]
  case takenBranches =>
    rw [recordsOf_branches hd hm, countP_map]
    exact h.takenBranches ▸ ht
  case totalFunctions => rwa [recordsOf_functions hd hm, length_map, ← h.totalFunctions]
  case executedFunctions =>
    rw [recordsOf_functions hd hm, countP_map]
    exact h.executedFunctions ▸ hc

end Counts

/-! ## Texts -/

/-- **When the views of a tracefile agree.** Each file of the report comes from the last block that closes it, and its
summary counts its lists exactly if that block is quiet; in particular, if nothing is reported between the closing and the
next opening. Then the record of the file counts the records of the other views. -/
theorem agrees_iff_quiet {text : String} {report : Report} (h : parse text = .ok report) :
    ∃ entries, readEntries text = .ok entries ∧ ∀ path file, (path, file) ∈ report →
      ∃ b, lastClosed path (blocks entries) = some b ∧ (file.Agrees ↔ b.Quiet) ∧
        ((∀ e ∈ b.strays, e.reports = false) → file.Agrees) ∧
        (file.Agrees → ∃ v, recordsOf .files report path = [v] ∧ CountsRecords report path v) := by
  rw [parse_eq] at h
  cases hentries : readEntries text with
  | error f =>
    rw [hentries] at h
    cases h
  | ok entries =>
    rw [hentries] at h
    have hreport : Report.ofBlocks (blocks entries) = report := Except.ok.inj h
    have hd : report.Distinct := hreport ▸ distinct_ofBlocks (blocks entries)
    refine ⟨entries, rfl, fun path file hmem => ?_⟩
    have hlookup := hd.mem_iff.mp hmem
    rw [← hreport, lookup_ofBlocks] at hlookup
    obtain ⟨b, hb, rfl⟩ := Option.map_eq_some_iff.mp hlookup
    refine ⟨b, hb, b.agrees_file_iff, fun hstrays => ?_, fun hagrees => hagrees.countsRecords hd hmem⟩
    exact b.agrees_file_iff.mpr (b.quiet_of_strays hstrays)

/-- A tracefile that closes a file twice, with a line behind the first closing and a function behind the
second. -/
def reopenedText : String :=
  "SF:a.c\nDA:1,1\nend_of_record\nDA:7,7\nSF:a.c\nDA:1,4\nDA:3,0\nFN:1,2,f\nFNDA:2,f\nBRDA:3,0,0,-\n" ++
  "end_of_record\nFN:9,g\n"

def reopenedFile : FileCoverage where
  functions := [⟨⟨"f", 1, 2, 2⟩, [⟨1, 4⟩], []⟩]
  lines := [⟨1, 4⟩, ⟨3, 0⟩]
  branches := [⟨3, 0, "0", 0⟩]
  summary := ⟨2, 1, 1, 0, 1, 1⟩

theorem agrees_reopened : parse reopenedText = .ok [("a.c", reopenedFile)] ∧ reopenedFile.Agrees := by
  have hread : readEntries reopenedText = .ok
      [.source "a.c", .line ⟨1, 1⟩, .close, .line ⟨7, 7⟩, .source "a.c", .line ⟨1, 4⟩, .line ⟨3, 0⟩,
        .function "f" 1 2, .calls "f" 2, .branch ⟨3, 0, "0", 0⟩, .close, .function "g" 9 9] := by
    decide +kernel
  have hparse : parse reopenedText = .ok [("a.c", reopenedFile)] := by
    rw [parse_eq, hread]
    rfl
  refine ⟨hparse, ?_⟩
  obtain ⟨entries, hentries, hfiles⟩ := agrees_iff_quiet hparse
  obtain rfl := Except.ok.inj (hread.symm.trans hentries)
  obtain ⟨b, hb, -, hagrees, -⟩ := hfiles "a.c" reopenedFile (List.mem_singleton_self _)
  obtain rfl := Option.some.inj hb
  exact hagrees (List.all_iff_forall_prop.mp (by decide))

def strayText : String := "SF:a.c\nDA:1,1\nend_of_record\nDA:2,1\n"

def strayFile : FileCoverage where
  functions := []
  lines := [⟨1, 1⟩, ⟨2, 1⟩]
  branches := []
  summary := ⟨1, 1, 0, 0, 0, 0⟩

/-- **A line behind the closing is listed and not counted.** -/
theorem counts_differ_stray : parse strayText = .ok [("a.c", strayFile)] ∧ ¬ strayFile.Agrees ∧
    (∃ v, recordsOf .files [("a.c", strayFile)] "a.c" = [v] ∧ HasCount v "total_lines" 1) ∧
    (recordsOf .lines [("a.c", strayFile)] "a.c").length = 2 := by
  have hparse : parse strayText = .ok [("a.c", strayFile)] := by decide +kernel
  exact ⟨hparse, fun h => absurd h.totalLines (by decide), ⟨_, rfl, rfl⟩, rfl⟩

end Sluice.Coverage
