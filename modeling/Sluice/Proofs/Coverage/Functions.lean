import Sluice.Proofs.Coverage.LineTables

/-!
# Functions of a section

`FN:line,name` and `FN:first,last,name` are told apart by their commas, and functions are kept by their names.
-/

namespace Sluice.Coverage

open List Text Section
open Entry (ofCalls ofFunction ofLine)

variable {e : Entry} {sections : List TraceSection}

/-! ## Lines of a section -/

/-- A whole number as a field spells it. -/
structure Numeral where
  chars : Chars
  value : Int
  reads : Number.parseInt (String.ofList chars) = .ok value
  noComma : ',' ∉ chars
  noBreak : '\n' ∉ chars

/-- The name of a function: any text on one line that has no blanks at its ends. -/
structure FunctionName where
  chars : Chars
  nonempty : chars ≠ []
  trimmed : strip chars = chars
  noBreak : '\n' ∉ chars

namespace FunctionName

variable (name : FunctionName)

def text : String := String.ofList name.chars

def IsUnlikeNumber : Prop :=
  ',' ∈ name.chars → (Number.parseInt (String.ofList (name.chars.takeWhile (· != ',')))).toOption = none

end FunctionName

def Entry.isAside : Entry → Bool
  | .line _ | .branch _ | .other => true
  | _ => false

lemma Entry.opens_of_isAside (h : e.isAside) : e.opens = false ∧ e ≠ .close := by cases e <;> simp_all [isAside, opens]

/-- **A line of a section.** -/
inductive SectionLine
  /-- a function in the short form -/
  | short (line : Numeral) (name : FunctionName) (unlike : name.IsUnlikeNumber)
  | long (first last : Numeral) (name : FunctionName)
  | calls (hits : Numeral) (name : FunctionName)
  | aside (chars : Chars) (e : Entry) (reads : ofLine chars = .ok e) (aside : e.isAside = true)
      (noBreak : '\n' ∉ chars)

namespace SectionLine

def chars : SectionLine → Chars
  | short line name _ => 'F' :: 'N' :: ':' :: (line.chars ++ ',' :: name.chars)
  | long first last name => 'F' :: 'N' :: ':' :: (first.chars ++ ',' :: (last.chars ++ ',' :: name.chars))
  | calls hits name => 'F' :: 'N' :: 'D' :: 'A' :: ':' :: (hits.chars ++ ',' :: name.chars)
  | aside chars .. => chars

def entry : SectionLine → Entry
  | short line name _ => .function name.text line.value line.value
  | long first last name => .function name.text first.value last.value
  | calls hits name => .calls name.text hits.value
  | aside _ e .. => e

/-- No comma makes the short form look like the long one. -/
def IsClear : SectionLine → Prop
  | short _ name _ => ',' ∉ name.chars
  | _ => True

lemma noBreak (l : SectionLine) : '\n' ∉ l.chars := by
  cases l with
  | short line name => simp [chars, line.noBreak, name.noBreak]
  | long first last name => simp [chars, first.noBreak, last.noBreak, name.noBreak]
  | calls hits name => simp [chars, hits.noBreak, name.noBreak]
  | aside chars e reads aside noBreak => exact noBreak

lemma strip_name {c} (hc : isBlank c = false) (s : Chars) (name : FunctionName) :
    strip (c :: (s ++ name.chars)) = c :: (s ++ name.chars) := by
  obtain ⟨r, d, hn, hd⟩ := exists_concat_of_trim name.trimmed name.nonempty
  rw [hn, ← List.append_assoc]
  exact strip_of_ends hc hd (s ++ r)

variable (s : Chars) (name : FunctionName)

lemma ofLine_function : ofLine ('F' :: 'N' :: ':' :: (s ++ ',' :: name.chars)) = ofFunction (s ++ ',' :: name.chars) := by
  have hs := strip_name (c := 'F') (by decide) ('N' :: ':' :: (s ++ [','])) name
  simp only [cons_append, List.append_assoc, nil_append] at hs
  rw [ofLine, hs]
  rfl

lemma ofLine_calls :
    ofLine ('F' :: 'N' :: 'D' :: 'A' :: ':' :: (s ++ ',' :: name.chars)) = ofCalls (s ++ ',' :: name.chars) := by
  have hs := strip_name (c := 'F') (by decide) ('N' :: 'D' :: 'A' :: ':' :: (s ++ [','])) name
  simp only [cons_append, List.append_assoc, nil_append] at hs
  rw [ofLine, hs]
  rfl

variable {a : Chars}

lemma fieldsUpTo_cut (ha : ',' ∉ a) (n) (b : Chars) :
    fieldsUpTo (n + 1) (a ++ ',' :: b) = String.ofList a :: fieldsUpTo n b := by
  rw [fieldsUpTo, splitOnUpTo, cutOnce_of_not_mem ha]
  rfl

lemma fieldsUpTo_of_not_mem (ha : ',' ∉ a) (n) : fieldsUpTo n a = [String.ofList a] := by
  cases n with
  | zero => rfl
  | succ n =>
    cases hc : cutOnce [','] a with
    | none => simp [fieldsUpTo, splitOnUpTo, hc]
    | some p => exact absurd ((cutOnce_eq_some hc).1 ▸ by simp) ha

variable {l : SectionLine}

/-- **A clear line is read as what it says.** -/
lemma ofLine_chars (h : l.IsClear) : ofLine l.chars = .ok l.entry := by
  cases l with
  | short line name =>
    rw [chars, ofLine_function, ofFunction, fieldsUpTo_cut line.noComma, fieldsUpTo_of_not_mem h]
    simp only [line.reads]
    rfl
  | long first last name =>
    have hn : fieldsUpTo 0 name.chars = [name.text] := rfl
    have hl := ofLine_function (first.chars ++ ',' :: last.chars) name
    simp only [List.append_assoc, cons_append] at hl
    rw [chars, hl, ofFunction, fieldsUpTo_cut first.noComma, fieldsUpTo_cut last.noComma, hn]
    simp only [first.reads, last.reads]
    rfl
  | calls hits name =>
    have hn : fieldsUpTo 0 name.chars = [name.text] := rfl
    rw [chars, ofLine_calls, ofCalls, fieldsUpTo_cut hits.noComma, hn]
    simp only [hits.reads]
    rfl
  | aside chars e reads => exact reads

lemma isClear_of_ofLine (h : ofLine l.chars = .ok e) : l.IsClear := by
  cases l with
  | short line name unlike =>
    intro hco
    cases hcu : cutOnce [','] name.chars with
    | none => exact not_mem_of_cutOnce_eq_none hcu hco
    | some p =>
      obtain ⟨hna, hf⟩ := cutOnce_eq_some hcu
      have hnu : name.chars.takeWhile (· != ',') = p.1 := by
        rw [hna, takeWhile_append_of_pos fun c hc => by simpa using fun he : c = ',' => hf (he ▸ hc)]
        simp
      have hno := unlike hco
      rw [hnu] at hno
      rw [chars, ofLine_function, ofFunction, fieldsUpTo_cut line.noComma, hna, fieldsUpTo_cut hf] at h
      obtain ⟨_, -, h⟩ := bind_eq_ok.mp h
      obtain ⟨n, hn, -⟩ := bind_eq_ok.mp h
      rw [hn] at hno
      cases hno
  | long => trivial
  | calls => trivial
  | aside => trivial

end SectionLine

/-! ## Functions by their names -/

variable (name : String)

def Entry.callsOf? : Entry → Option Int
  | .calls n hits => if n = name then some hits else none
  | _ => none

variable (es : List Entry)

def reportedCalls : Option Int := (es.filterMap (Entry.callsOf? name)).getLast?

/-- **One function for each definition**, in their order, with the calls reported behind it. -/
def functionsOf : List Entry → List FunctionHit
  | [] => []
  | .function name start last :: es => ⟨name, start, last, (reportedCalls name es).getD 0⟩ :: functionsOf es
  | _ :: es => functionsOf es

variable (f : FunctionHit)

def FunctionHit.recount : FunctionHit := { f with hits := (reportedCalls f.name es).getD f.hits }

open FunctionHit

lemma recount_cons (h : ∀ name, e.callsOf? name = none) (es) : recount (e :: es) = recount es := by
  funext f
  simp [recount, reportedCalls, h]

lemma recount_calls (name hits es fs) :
    (setCalls name hits fs).map (·.recount es) = fs.map (·.recount (.calls name hits :: es)) := by
  rw [setCalls, map_map]
  refine map_congr_left fun f _ => ?_
  by_cases h : f.name = name
  · simp [recount, reportedCalls, Entry.callsOf?, h, getLast?_cons]
  · simp [recount, reportedCalls, Entry.callsOf?, h, Ne.symm h]

lemma names_setCalls (name hits fs) : (setCalls name hits fs).map (·.name) = fs.map (·.name) := by
  rw [setCalls, map_map]
  refine map_congr_left fun f _ => ?_
  rw [Function.comp_apply]
  split <;> rfl

lemma defineFunction_of_not_mem {f fs} (h : f.name ∉ fs.map (·.name)) : defineFunction f fs = fs ++ [f] := by
  induction fs with
  | nil => rfl
  | cons g fs ih =>
    obtain ⟨hg, hfs⟩ : f.name ≠ g.name ∧ f.name ∉ fs.map (·.name) := by simpa using h
    rw [defineFunction, if_neg (Ne.symm hg), ih hfs]
    rfl

/-- **Where no name comes twice**, a section adds one function for each definition. -/
lemma functions_foldl_add {es s} (h : ((s.functions ++ functionsOf es).map (·.name)).Nodup) :
    (es.foldl add s).functions = s.functions.map (·.recount es) ++ functionsOf es := by
  induction es generalizing s with
  | nil => simp [functionsOf, recount, reportedCalls]
  | cons e es ih =>
    rw [foldl_cons]
    cases e with
    | function name start last =>
      have hn : name ∉ s.functions.map (·.name) := fun hm => by
        rw [functionsOf, map_append] at h
        exact (nodup_append.mp h).2.2 name hm name (by simp) rfl
      have ha : (s.add (.function name start last)).functions = s.functions ++ [⟨name, start, last, 0⟩] :=
        defineFunction_of_not_mem (f := ⟨name, start, last, 0⟩) hn
      rw [ih (by simpa [ha, functionsOf] using h), ha, functionsOf, recount_cons fun _ => rfl]
      simp [recount]
    | calls name hits =>
      have hes : functionsOf (.calls name hits :: es) = functionsOf es := rfl
      rw [hes] at h ⊢
      rw [ih (by simpa [add, names_setCalls] using h)]
      simp only [add, recount_calls]
    | line | branch | source | close | other => exact ih h

lemma names_defineFunction (fs) : (defineFunction f fs).map (·.name) =
      if f.name ∈ fs.map (·.name) then fs.map (·.name) else fs.map (·.name) ++ [f.name] := by
  induction fs with
  | nil => rfl
  | cons g fs ih =>
    by_cases hg : g.name = f.name
    · simp [defineFunction, hg]
    · rw [defineFunction, if_neg hg, map_cons, ih]
      simp only [map_cons, mem_cons, Ne.symm hg, false_or]
      split <;> rfl

lemma nodup_foldl_add {s} (h : (s.functions.map (·.name)).Nodup) (es : List Entry) :
    ((es.foldl add s).functions.map (·.name)).Nodup := by
  induction es generalizing s with
  | nil => exact h
  | cons e es ih =>
    refine ih ?_
    cases e with
    | function name start last =>
      rw [add, names_defineFunction]
      split
      · exact h
      · rename_i hn
        exact h.append (nodup_singleton _) (by simpa using hn)
    | calls name hits => rwa [add, names_setCalls]
    | line | branch | source | close | other => exact h

lemma functions_eq_iff : (es.foldl add {}).functions = functionsOf es ↔ ((functionsOf es).map (·.name)).Nodup := by
  refine ⟨fun h => h ▸ nodup_foldl_add (s := {}) nodup_nil es, fun h => ?_⟩
  simpa using functions_foldl_add (s := {}) h

/-! ## Tracefiles -/

/-- **A closed section**, line by line. -/
structure TraceSection where
  path : String
  opening : Chars
  body : List SectionLine
  closing : Chars
  opens : ofLine opening = .ok (.source path)
  named : path ≠ ""
  closes : ofLine closing = .ok .close
  noBreak : '\n' ∉ opening ∧ '\n' ∉ closing

namespace TraceSection

variable (s : TraceSection)

def lines : List Chars := s.opening :: (s.body.map (·.chars) ++ [s.closing])

def functions : List FunctionHit := functionsOf (s.body.map (·.entry))

def closed : ClosedSection where
  path := s.path
  body := s.body.map (·.entry)
  named := s.named
  plain e he := by
    obtain ⟨l, -, rfl⟩ := mem_map.mp he
    cases l with
    | short | long | calls => exact ⟨rfl, nofun⟩
    | aside chars e reads haside => exact Entry.opens_of_isAside haside

lemma mapM_lines {s : TraceSection} (h : ∀ l ∈ s.body, l.IsClear) : s.lines.mapM ofLine = .ok s.closed.entries := by
  have hb : (s.body.map (·.chars)).mapM ofLine = .ok (s.body.map (·.entry)) := by
    rw [mapM_map]
    exact mapM_eq_ok fun l hl => SectionLine.ofLine_chars (h l hl)
  rw [lines, mapM_cons, mapM_append, s.opens, hb, mapM_cons, s.closes]
  rfl

lemma functions_file (s : TraceSection) :
    s.closed.block.file.functions.map (·.function) = ((s.body.map (·.entry)).foldl add {}).functions := by
  rw [ClosedSection.file_block, toFile, map_map]
  exact map_id _

end TraceSection

def tracefile (sections : List TraceSection) : String := String.ofList ((sections.flatMap (·.lines)).flatMap (· ++ ['\n']))

lemma readEntries_tracefile (sections) : readEntries (tracefile sections) = (sections.flatMap (·.lines)).mapM ofLine := by
  rw [readEntries, tracefile, String.toList_ofList, lines_ended]
  intro l hl
  obtain ⟨s, -, hl⟩ := List.mem_flatMap.mp hl
  rcases mem_cons.mp hl with rfl | hl
  · exact s.noBreak.1
  rcases mem_append.mp hl with hl | hl
  · obtain ⟨l, -, rfl⟩ := mem_map.mp hl
    exact l.noBreak
  · exact mem_singleton.mp hl ▸ s.noBreak.2

lemma parse_tracefile (h : ∀ s ∈ sections, ∀ l ∈ s.body, l.IsClear) :
    parse (tracefile sections) = .ok (Report.ofBlocks ((sections.map (·.closed)).map (·.block))) := by
  have hr : (sections.flatMap (·.lines)).mapM ofLine = .ok ((sections.map (·.closed)).flatMap (·.entries)) := by
    induction sections with
    | nil => rfl
    | cons s sections ih =>
      rw [forall_mem_cons] at h
      rw [flatMap_cons, mapM_append, TraceSection.mapM_lines h.1, ih h.2]
      rfl
  rw [parse_eq, readEntries_tracefile, hr, ← blocks_flatMap_entries]
  rfl

lemma isClear_of_parse {report} (h : parse (tracefile sections) = .ok report) :
    ∀ s ∈ sections, ∀ l ∈ s.body, l.IsClear := by
  rw [parse_eq, readEntries_tracefile] at h
  cases hr : (sections.flatMap (·.lines)).mapM ofLine with
  | error f =>
    rw [hr] at h
    cases h
  | ok es =>
    intro s hs l hl
    have hm : l.chars ∈ s.lines := mem_cons_of_mem _ (mem_append_left _ (mem_map_of_mem hl))
    obtain ⟨e, he⟩ := exists_ok_of_mapM hr l.chars (List.mem_flatMap.mpr ⟨s, hs, hm⟩)
    exact SectionLine.isClear_of_ofLine he

/-- **When each definition is a function of the report.** A tracefile of sections of different files can be read, and each
section reports one function for each of its definitions, in their order, exactly if in no section the short form has a
name with a comma or a name is defined twice. -/
theorem functions_reported_iff {sections : List TraceSection} (hpaths : (sections.map (·.path)).Nodup) :
    (∃ report, parse (tracefile sections) = .ok report ∧
        ∀ s ∈ sections, ∃ file, (s.path, file) ∈ report ∧ file.functions.map (·.function) = s.functions) ↔
      ∀ s ∈ sections, (∀ l ∈ s.body, l.IsClear) ∧ (s.functions.map (·.name)).Nodup := by
  -- no other section is about the same file
  have hfile {s : TraceSection} (hs : s ∈ sections) (file : FileCoverage) :
      (s.path, file) ∈ Report.ofBlocks ((sections.map (·.closed)).map (·.block)) ↔ s.closed.block.file = file := by
    have hmem : s.closed ∈ (sections.map (·.closed)).filter (·.path == s.path) :=
      List.mem_filter.mpr ⟨List.mem_map_of_mem hs, beq_self_eq_true s.path⟩
    have hlast := List.getLast?_eq_some_getLast (List.ne_nil_of_mem hmem)
    obtain ⟨hc, hpath⟩ := List.mem_filter.mp (List.mem_of_getLast? hlast)
    obtain ⟨s', hs', heq⟩ := List.mem_map.mp hc
    rw [← heq] at hlast hpath
    obtain rfl : s' = s := List.inj_on_of_nodup_map hpaths hs' hs (beq_iff_eq.mp hpath)
    rw [(distinct_ofBlocks _).mem_iff, lookup_ofBlocks, lastClosed_map_block, hlast]
    exact Option.some_inj
  constructor
  · rintro ⟨report, hreport, hfiles⟩ s hs
    have hclear := isClear_of_parse hreport
    obtain rfl := Except.ok.inj ((parse_tracefile hclear).symm.trans hreport)
    obtain ⟨_, hmem, hfunctions⟩ := hfiles s hs
    obtain rfl := (hfile hs _).mp hmem
    rw [s.functions_file] at hfunctions
    exact ⟨hclear s hs, (functions_eq_iff _).mp hfunctions⟩
  · intro h
    refine ⟨_, parse_tracefile fun s hs => (h s hs).1, fun s hs => ⟨_, (hfile hs _).mpr rfl, ?_⟩⟩
    rw [s.functions_file]
    exact (functions_eq_iff _).mpr (h s hs).2

def digitNumeral (d : Fin 10) : Numeral where
  chars := [Nat.digitChar d]
  value := d.val
  reads := by decide +revert +kernel
  noComma := by decide +revert
  noBreak := by decide +revert

def mixedSection : TraceSection where
  path := "a.cpp"
  opening := "SF:a.cpp".toList
  body := [.short (digitNumeral 3) ⟨"main".toList, by decide, by decide, by decide⟩ (by unfold FunctionName.IsUnlikeNumber; decide),
    .long (digitNumeral 5) (digitNumeral 9) ⟨"pair<int, char>".toList, by decide, by decide, by decide⟩,
    .aside "DA:3,2".toList (.line ⟨3, 2⟩) rfl rfl (by decide),
    .calls (digitNumeral 2) ⟨"main".toList, by decide, by decide, by decide⟩]
  closing := "end_of_record".toList
  opens := rfl
  named := by decide
  closes := rfl
  noBreak := by decide

theorem functions_reported_mixed :
    tracefile [mixedSection] = "SF:a.cpp\nFN:3,main\nFN:5,9,pair<int, char>\nDA:3,2\nFNDA:2,main\nend_of_record\n" ∧
      ∃ report file, parse (tracefile [mixedSection]) = .ok report ∧ ("a.cpp", file) ∈ report ∧
        file.functions.map (·.function) = [⟨"main", 3, 3, 2⟩, ⟨"pair<int, char>", 5, 9, 0⟩] := by
  have hpaths : ([mixedSection].map (·.path)).Nodup := List.nodup_singleton _
  have hnames : (mixedSection.functions.map (·.name)).Nodup := by decide
  obtain ⟨report, hreport, hfiles⟩ := (functions_reported_iff hpaths).mpr fun s hs => by
    obtain rfl := List.mem_singleton.mp hs
    exact ⟨by simp [mixedSection, SectionLine.IsClear], hnames⟩
  obtain ⟨file, hfile, hfunctions⟩ := hfiles _ (List.mem_singleton_self _)
  exact ⟨by decide, report, file, hreport, hfile, hfunctions⟩

/-- **A name that comes twice loses its first function**, and a comma in the short form ends the reading. -/
theorem functions_lost : (∃ file, parse "SF:a.py\nFN:1,get\nFN:5,get\nend_of_record\n" = .ok [("a.py", file)] ∧
      file.functions.map (·.function) = [⟨"get", 5, 5, 0⟩]) ∧
    (parse "SF:a.cpp\nFN:3,f<int,char>\nend_of_record\n").toOption = none := by
  have hread : readEntries "SF:a.py\nFN:1,get\nFN:5,get\nend_of_record\n" =
      .ok [.source "a.py", .function "get" 1 1, .function "get" 5 5, .close] := by decide +kernel
  refine ⟨⟨⟨[⟨⟨"get", 5, 5, 0⟩, [], []⟩], [], [], ⟨0, 0, 0, 0, 1, 0⟩⟩, ?_, rfl⟩, by decide +kernel⟩
  rw [parse_eq, hread]
  rfl

end Sluice.Coverage
