import Mathlib.Data.Bool.AllAny
import Sluice.Proofs.Coverage.Blocks
import Sluice.Proofs.Feed
import Sluice.Proofs.Text.Split
import Sluice.Source.Survey

/-!
# Two readers of tracefiles

The report reader keeps what the last section of a file says; the line table adds up all of its sections.
-/

namespace Sluice.Coverage

open List Text Source
open Except (ok)
open String (ofList toList_ofList)

variable {e : Entry} {s : Chars} {es : List Entry}

/-! ## The line table, entry by entry -/

def LineHit.toHit (l : LineHit) : Source.LineHit := ⟨l.line, l.hits, l.executed⟩

def tableStep (state : LineTable × Option String) : Entry → LineTable × Option String
  | .source path => (state.1, some path)
  | .line l =>
    match state.2.filter (· != "") with
    | some path => (state.1.add path l.toHit, state.2)
    | none => state
  | .close => (state.1, none)
  | _ => state

def Entry.isPassed : Entry → Bool
  | .source _ | .line _ | .close => false
  | _ => true

lemma tableStep_of_isPassed (h : e.isPassed) (state : LineTable × Option String) : tableStep state e = state := by
  cases e with
  | source path => cases h
  | line l => cases h
  | close => cases h
  | _ => rfl

open Entry

lemma ofLineData_eq_ok (h : ofLineData s = .ok e) :
    (∃ place hits more l, fields s = place :: hits :: more ∧ Number.parseInt place = .ok l.line ∧
      Number.parseInt hits = .ok l.hits ∧ e = .line l) ∨
    ((∀ place hits more, fields s ≠ place :: hits :: more) ∧ e = .other) := by
  rw [ofLineData] at h
  split at h
  · rename_i place hits more hf
    obtain ⟨number, hp, h⟩ := bind_eq_ok.mp h
    obtain ⟨count, hh, h⟩ := bind_eq_ok.mp h
    exact .inl ⟨place, hits, more, ⟨number, count⟩, hf, hp, hh, (ok.inj h).symm⟩
  · rename_i hfe
    exact .inr ⟨hfe, (ok.inj h).symm⟩

lemma ofFunction_eq_ok (h : ofFunction s = .ok e) : (∃ name start last, e = .function name start last) ∨ e = .other := by
  rw [ofFunction] at h
  split at h
  · obtain ⟨start, -, h⟩ := bind_eq_ok.mp h
    obtain ⟨last, -, h⟩ := bind_eq_ok.mp h
    exact .inl ⟨_, start, last, (ok.inj h).symm⟩
  · obtain ⟨start, -, h⟩ := bind_eq_ok.mp h
    exact .inl ⟨_, start, start, (ok.inj h).symm⟩
  · exact .inr (ok.inj h).symm

lemma ofCalls_eq_ok (h : ofCalls s = .ok e) : (∃ name hits, e = .calls name hits) ∨ e = .other := by
  rw [ofCalls] at h
  split at h
  · obtain ⟨hits, -, h⟩ := bind_eq_ok.mp h
    exact .inl ⟨_, hits, (ok.inj h).symm⟩
  · exact .inr (ok.inj h).symm

lemma ofBranch_eq_ok (h : ofBranch s = .ok e) : (∃ b, e = .branch b) ∨ e = .other := by
  rw [ofBranch] at h
  split at h
  · obtain ⟨_, -, h⟩ := bind_eq_ok.mp h
    obtain ⟨_, -, h⟩ := bind_eq_ok.mp h
    split at h
    · exact .inl ⟨_, (ok.inj h).symm⟩
    · obtain ⟨_, -, h⟩ := bind_eq_ok.mp h
      exact .inl ⟨_, (ok.inj h).symm⟩
  · exact .inr (ok.inj h).symm

lemma ne_end_of_dropStart? {tag : String} {rest} (h : dropStart? tag.toList s = some rest)
    (ht : tag.toList.head?.any (· != 'e')) : ofList s ≠ "end_of_record" := by
  intro he
  have hs : s = "end_of_record".toList := by rw [← he, toList_ofList]
  rw [dropStart?_eq_some h] at hs
  cases hch : tag.toList with
  | nil =>
    rw [hch] at ht
    cases ht
  | cons c cs =>
    rw [hch] at hs
    have hc : c = 'e' := (List.cons.inj hs).1
    rw [hch, hc] at ht
    cases ht

/-- **Where an entry can be read, the line table takes it.** -/
lemma parseLine_of_entry {line} (h : ofLine line = .ok e) (state : LineTable × Option String) :
    LineTable.parseLine state (ofList line) = .ok (tableStep state e) := by
  simp only [ofLine] at h
  simp only [LineTable.parseLine, S.strip, S.dropStart?, S.splitOn, toList_ofList]
  generalize strip line = s at h ⊢
  cases hso : dropStart? "SF:".toList s with
  | some r =>
    simp only [hso] at h
    obtain rfl := ok.inj h
    rfl
  | none =>
    simp only [hso] at h
    cases hd : dropStart? "DA:".toList s with
    | some r =>
      have hen := ne_end_of_dropStart? hd rfl
      simp only [hd] at h
      cases ho : state.2.filter (· != "") with
      | none =>
        -- no file is open, and the line is dropped
        have hst : tableStep state e = state := by
          rcases ofLineData_eq_ok h with ⟨place, hits, m, l, -, -, -, rfl⟩ | ⟨-, rfl⟩
          · simp only [tableStep, ho]
          · rfl
        simp [hen, hst]
      | some path =>
        have hf : (splitOn ",".toList r).map ofList = fields r :=
          congrArg (List.map ofList) (splitOn_singleton ',' r)
        simp only [Option.map_none, Option.map_some, toList_ofList, hf]
        rcases ofLineData_eq_ok h with ⟨place, hits, m, l, hc, hpl, hh, rfl⟩ | ⟨hfe, rfl⟩
        · simp only [hc, hpl, hh, tableStep, ho]
          rfl
        · split
          · rename_i hc
            exact absurd hc (hfe _ _ _)
          · rfl
    | none =>
      simp only [hd] at h
      -- the other tags say nothing of lines; what has none may close the section
      have hr : (e.isPassed ∧ ofList s ≠ "end_of_record") ∨
          (e = .close ∧ ofList s = "end_of_record") := by
        split at h
        · rename_i r ht
          obtain ⟨_, _, _, rfl⟩ | rfl := ofFunction_eq_ok h
          all_goals exact .inl ⟨rfl, ne_end_of_dropStart? ht rfl⟩
        split at h
        · rename_i r ht
          obtain ⟨_, _, rfl⟩ | rfl := ofCalls_eq_ok h
          all_goals exact .inl ⟨rfl, ne_end_of_dropStart? ht rfl⟩
        split at h
        · rename_i r ht
          obtain ⟨_, rfl⟩ | rfl := ofBranch_eq_ok h
          all_goals exact .inl ⟨rfl, ne_end_of_dropStart? ht rfl⟩
        split at h
        · rename_i hs
          exact .inr ⟨(ok.inj h).symm, by rw [hs, String.ofList_toList]⟩
        · rename_i hs
          obtain rfl := ok.inj h
          exact .inl ⟨rfl, fun he => hs (by rw [← he, toList_ofList])⟩
      rcases hr with ⟨hp, hen⟩ | ⟨rfl, hen⟩
      · simp [hen, tableStep_of_isPassed hp]
      · simp [hen, tableStep]

lemma foldlM_parseLine {ls : List Chars} (h : ls.mapM ofLine = .ok es) (state : LineTable × Option String) :
    (ls.map ofList).foldlM LineTable.parseLine state = .ok (es.foldl tableStep state) := by
  induction ls generalizing es state with
  | nil =>
    obtain rfl := ok.inj h
    rfl
  | cons line ls ih =>
    obtain ⟨e, _, hl, hls, rfl⟩ := mapM_cons_eq_ok.mp h
    rw [map_cons, foldlM_cons, parseLine_of_entry hl]
    exact ih hls (tableStep state e)

/-- **The line table of a tracefile**, entry by entry. -/
lemma lineTable_eq {text} (h : readEntries text = .ok es) :
    LineTable.parse text = .ok (es.foldl tableStep ([], none)).1 := by
  rw [LineTable.parse, S.lines, foldlM_parseLine h]
  rfl

lemma get_cons (f path hits) (t : LineTable) :
    LineTable.get ((f, hits) :: t) path = if f = path then hits else t.get path := by
  by_cases h : f = path
  · simp [LineTable.get, h]
  · simp [LineTable.get, h]

lemma get_add (path other hit) (t : LineTable) :
    (t.add path hit).get other = if path = other then t.get other ++ [hit] else t.get other := by
  induction t with
  | nil => exact get_cons path other [hit] []
  | cons entry t ih =>
    obtain ⟨f, _⟩ := entry
    rw [LineTable.add, get_cons]
    by_cases hf : f = path
    · subst hf
      rw [if_pos rfl, get_cons]
      by_cases ho : f = other
      · rw [if_pos ho, if_pos ho, if_pos ho]
      · rw [if_neg ho, if_neg ho, if_neg ho]
    · rw [if_neg hf, get_cons, ih]
      by_cases ho : f = other
      · have hp : path ≠ other := fun hp => hf (ho.trans hp.symm)
        rw [if_pos ho, if_pos ho, if_neg hp]
      · rw [if_neg ho, if_neg ho]

lemma get_foldl_add (path other) (ls : List LineHit) (t : LineTable) :
    (ls.foldl (fun t l => t.add path l.toHit) t).get other =
      if path = other then t.get other ++ ls.map (·.toHit) else t.get other := by
  induction ls generalizing t with
  | nil => simp
  | cons l ls ih =>
    rw [foldl_cons, ih, get_add]
    by_cases h : path = other
    · simp [h]
    · simp [h]

lemma Section.lines_foldl_add (es : List Entry) (s) : (es.foldl Section.add s).lines = s.lines ++ es.filterMap line? := by
  induction es generalizing s with
  | nil => exact (append_nil _).symm
  | cons e es ih =>
    rw [foldl_cons, ih]
    cases e with
    | line l => simp [Section.add, line?]
    | _ => rfl

/-! ## Closed sections -/

/-- **A closed section**: a file with a name, what is reported of it, and nothing behind that. -/
structure ClosedSection where
  path : String
  body : List Entry
  named : path ≠ ""
  plain : ∀ e ∈ body, e.opens = false ∧ e ≠ .close

namespace ClosedSection

def entries (s : ClosedSection) : List Entry := .source s.path :: (s.body ++ [.close])

def lines (s : ClosedSection) : List LineHit := s.body.filterMap line?

lemma opens_of_mem {s : ClosedSection} (h : e ∈ s.body ++ [.close]) : e.opens = false := by
  rcases mem_append.mp h with h | h
  · exact (s.plain e h).1
  · rw [mem_singleton.mp h]
    rfl

def block (s : ClosedSection) : Block := ⟨s.path, s.body ++ [.close], fun _ => opens_of_mem⟩

lemma closes_block (s : ClosedSection) : s.block.closes := by simp [block, Block.closes, s.named]

lemma takeWhile_body (s : ClosedSection) : (s.body ++ [close]).takeWhile (· != .close) = s.body := by
  rw [takeWhile_append_of_pos fun e he => by simpa using (s.plain e he).2]
  simp

lemma file_block (s : ClosedSection) : s.block.file = (s.body.foldl Section.add {}).toFile := by
  have hb : s.block.body = s.body := s.takeWhile_body
  have hs : s.block.strays = [] := by
    have hd : (s.body ++ [close]).dropWhile (· != .close) = [.close] := by
      rw [dropWhile_append_of_pos fun e he => by simpa using (s.plain e he).2]
      rfl
    rw [Block.strays, block, hd]
    rfl
  rw [Block.file, hs, Block.reported, hb]
  rfl

lemma lines_file_block (s : ClosedSection) : s.block.file.lines = s.lines := by
  rw [file_block]
  exact Section.lines_foldl_add s.body {}

lemma foldl_tableStep (s : ClosedSection) (state : LineTable × Option String) :
    s.entries.foldl tableStep state = (s.lines.foldl (fun t l => t.add s.path l.toHit) state.1, none) := by
  have hop : (some s.path).filter (· != "") = some s.path := by simp [s.named]
  have hb : ∀ (es : List Entry) (t : LineTable), (∀ e ∈ es, e.opens = false ∧ e ≠ .close) →
      es.foldl tableStep (t, some s.path) =
        ((es.filterMap line?).foldl (fun t l => t.add s.path l.toHit) t, some s.path) := by
    intro es
    induction es with
    | nil => intro t _; rfl
    | cons e es ih =>
      intro t hp
      have hr := fun t => ih t fun d hd => hp d (.tail _ hd)
      obtain ⟨ho, hc⟩ := hp e (.head _)
      cases e with
      | source path => cases ho
      | close => exact absurd rfl hc
      | line l =>
        rw [foldl_cons, tableStep, hop]
        exact hr _
      | _ => exact hr t
  rw [entries, foldl_cons, foldl_append, tableStep, hb s.body state.1 s.plain]
  rfl

end ClosedSection

lemma blocks_append_of_plain (h : ∀ e ∈ es, e.opens = false) (rest) : blocks (es ++ rest) = blocks rest := by
  induction es with
  | nil => rfl
  | cons e es ih =>
    have hes := ih fun d hd => h d (.tail _ hd)
    have he := h e (.head _)
    cases e with
    | source path => cases he
    | _ => exact hes

open ClosedSection

lemma blocks_flatMap_entries (sections : List ClosedSection) :
    blocks (sections.flatMap (·.entries)) = sections.map (·.block) := by
  induction sections with
  | nil => rfl
  | cons s sections ih =>
    -- the next section begins with an opening
    have hn : (sections.flatMap (·.entries)).takeWhile (!·.opens) = [] := by
      cases sections with
      | nil => rfl
      | cons t sections => rfl
    have hen : ((s.body ++ [close]) ++ sections.flatMap (·.entries)).takeWhile (!·.opens) =
        s.body ++ [close] := by
      rw [takeWhile_append_of_pos fun e he => by simp [opens_of_mem he], hn, append_nil]
    rw [flatMap_cons, entries, cons_append, blocks]
    congr 1
    · exact Block.mk.injEq .. ▸ ⟨rfl, hen⟩
    · rw [blocks_append_of_plain (fun e => opens_of_mem), ih]

lemma get_foldl_tableStep (path) (sections : List ClosedSection) (state : LineTable × Option String) :
    ((sections.flatMap (·.entries)).foldl tableStep state).1.get path =
      state.1.get path ++ ((sections.filter (·.path == path)).flatMap (·.lines)).map (·.toHit) := by
  induction sections generalizing state with
  | nil => exact (append_nil _).symm
  | cons s sections ih =>
    rw [flatMap_cons, foldl_append, ih, s.foldl_tableStep, get_foldl_add]
    by_cases h : s.path = path
    · simp [h]
    · simp [h]

lemma lastClosed_map_block (path) (sections : List ClosedSection) : lastClosed path (sections.map (·.block)) =
      ((sections.filter (·.path == path)).getLast?).map (·.block) := by
  have hs : (fun b : Block => b.closes && b.path == path) ∘ block = fun s => s.path == path := by
    funext s
    rw [Function.comp_apply, s.closes_block]
    rfl
  rw [lastClosed, filter_map, hs, getLast?_map]

/-- **When the two readers agree on lines.** On a tracefile of closed sections both succeed. They agree on a file with a
line exactly if its sections but the last report none. -/
theorem lines_agree_iff {text : String} {sections : List ClosedSection}
    (h : readEntries text = .ok (sections.flatMap (·.entries))) :
    ∃ report table, parse text = .ok report ∧ LineTable.parse text = .ok table ∧
      ∀ path, (∃ s ∈ sections, s.path = path ∧ s.lines ≠ []) → ∃ file, (path, file) ∈ report ∧
        (table.get path = file.lines.map (·.toHit) ↔ ∀ s ∈ (sections.filter (·.path == path)).dropLast, s.lines = []) := by
  refine ⟨Report.ofBlocks (sections.map (·.block)), _, ?_, lineTable_eq h, ?_⟩
  · rw [parse_eq, h, ← blocks_flatMap_entries]
    rfl
  rintro path ⟨s, hs, hpath, -⟩
  have hne : sections.filter (·.path == path) ≠ [] := List.ne_nil_of_mem (List.mem_filter.mpr ⟨hs, by simpa using hpath⟩)
  obtain ⟨earlier, last, hsplit⟩ : ∃ earlier last, sections.filter (·.path == path) = earlier ++ [last] :=
    ⟨_, _, (List.dropLast_append_getLast hne).symm⟩
  refine ⟨last.block.file, (distinct_ofBlocks _).mem_iff.mpr ?_, ?_⟩
  · rw [lookup_ofBlocks, lastClosed_map_block, hsplit, List.getLast?_concat]
    rfl
  · rw [get_foldl_tableStep, hsplit, List.dropLast_concat, List.flatMap_append, List.map_append, last.lines_file_block]
    simp [LineTable.get]

/-- A tracefile with two sections of one file, of which the first reports a function only. -/
def splitText : String :=
  "SF:a.c\nFN:1,f\nend_of_record\nSF:b.c\nDA:5,0\nend_of_record\nSF:a.c\nTN:x\nDA:1,2\nend_of_record\n"

def splitSections : List ClosedSection :=
  [⟨"a.c", [.function "f" 1 1], by decide, by decide⟩, ⟨"b.c", [.line ⟨5, 0⟩], by decide, by decide⟩,
    ⟨"a.c", [.other, .line ⟨1, 2⟩], by decide, by decide⟩]

theorem lines_agree_split : ∃ report table file, parse splitText = .ok report ∧
    LineTable.parse splitText = .ok table ∧ ("a.c", file) ∈ report ∧
    table.get "a.c" = file.lines.map (·.toHit) ∧ table.get "a.c" ≠ [] := by
  have hread : readEntries splitText = .ok (splitSections.flatMap (·.entries)) := by decide +kernel
  obtain ⟨report, table, hparse, htable, hfiles⟩ := lines_agree_iff hread
  obtain ⟨file, hfile, hagree⟩ := hfiles "a.c" ⟨_, List.mem_of_getElem? (i := 2) rfl, rfl, by decide⟩
  have hsame := hagree.mpr (List.all_iff_forall_prop.mp (by decide))
  refine ⟨report, table, file, hparse, htable, hfile, hsame, ?_⟩
  obtain rfl := Except.ok.inj ((lineTable_eq hread).symm.trans htable)
  decide

def repeatedText : String := "SF:a.c\nDA:1,1\nend_of_record\nSF:a.c\nDA:2,0\nend_of_record\n"

/-- **The report forgets the lines of an earlier section**, and the line table keeps them. -/
theorem lines_differ_repeated : (∃ file, parse repeatedText = .ok [("a.c", file)] ∧ file.lines = [⟨2, 0⟩]) ∧
      LineTable.parse repeatedText = .ok [("a.c", [⟨1, 1, true⟩, ⟨2, 0, false⟩])] := by
  have hread : readEntries repeatedText =
      .ok [.source "a.c", .line ⟨1, 1⟩, .close, .source "a.c", .line ⟨2, 0⟩, .close] := by decide +kernel
  refine ⟨⟨⟨[], [⟨2, 0⟩], [], ⟨1, 0, 0, 0, 0, 0⟩⟩, ?_, rfl⟩, lineTable_eq hread⟩
  rw [parse_eq, hread]
  rfl

end Sluice.Coverage
