import Sluice.Proofs.Feed
import Sluice.Proofs.Text.Split
import Sluice.Source.Survey

/-!
# Callers of definitions

**A call is for a definition if the last parts of their names are equal** (`callerCount_eq`).
-/

namespace Sluice.Source

open List Text Library Feed Fields

variable (name : String)

lemma simpleName_eq : simpleName name = String.ofList ((splitAtChar '.' name.toList).getLast (splitAtChar_ne_nil _ _)) := by
  have hp : S.splitOn "." name = (splitAtChar '.' name.toList).map String.ofList :=
    congrArg (List.map String.ofList) (splitOn_singleton '.' name.toList)
  rw [simpleName, hp, getLastD_eq_getLast?, getLast?_map, getLast?_eq_some_getLast (splitAtChar_ne_nil _ _)]
  rfl

lemma dot_not_mem_simpleName : '.' ∉ (simpleName name).toList := by
  rw [simpleName_eq, String.toList_ofList]
  intro h
  exact absurd (eq_false_of_mem_splitWhere (getLast_mem _) h) (by decide)

lemma simpleName_of_no_dot {name} (h : '.' ∉ name.toList) : simpleName name = name := by
  rw [simpleName_eq]
  simp only [splitAtChar_of_not_mem h, getLast_singleton, String.ofList_toList]

lemma count_countedNames_simpleName (c name) :
    (countedNames c).count (simpleName name) = if simpleName c.callee = simpleName name then 1 else 0 := by
  rw [countedNames, show S.contains "." c.callee = _ from contains_singleton '.' _]
  by_cases hd : '.' ∈ c.callee.toList
  · have hne : c.callee ≠ simpleName name := fun he => dot_not_mem_simpleName name (he ▸ hd)
    simp [hd, hne, count_cons]
  · simp [hd, simpleName_of_no_dot hd, count_cons]

lemma count_countedNames_le (c name) : (countedNames c).count name ≤ (countedNames c).count (simpleName name) := by
  by_cases hn : '.' ∈ name.toList
  · rw [count_countedNames_simpleName]
    have hl : simpleName c.callee ≠ name := fun he => dot_not_mem_simpleName c.callee (he ▸ hn)
    -- the last part of what is called cannot be a dotted name, so only the whole can be
    have hc : (countedNames c).count name = if c.callee = name then 1 else 0 := by
      rw [countedNames]
      split <;> simp [count_cons, hl]
    rw [hc]
    by_cases he : c.callee = name
    · simp [he]
    · simp [he]
  · exact Nat.le_of_eq (by rw [simpleName_of_no_dot hn])

lemma count_flatMap_countedNames (calls : List Call) (name) : (calls.flatMap countedNames).count (simpleName name) =
      calls.countP fun c => simpleName c.callee == simpleName name := by
  induction calls with
  | nil => rfl
  | cons c calls ih =>
    rw [flatMap_cons, count_append, ih, count_countedNames_simpleName, countP_cons, Nat.add_comm]
    simp only [beq_iff_eq]

/-- **The callers of a name** are the calls whose name has the same last part. -/
lemma callerCount_eq (calls : List Call) (name) : callerCount (calls.flatMap countedNames) name =
      calls.countP fun c => simpleName c.callee == simpleName name := by
  have hle : (calls.flatMap countedNames).count name ≤ (calls.flatMap countedNames).count (simpleName name) := by
    induction calls with
    | nil => exact Nat.le_refl 0
    | cons c calls ih =>
      rw [flatMap_cons, count_append, count_append]
      exact Nat.add_le_add (count_countedNames_le c name) ih
  rw [callerCount, Nat.max_eq_right hle, count_flatMap_countedNames]

variable (counted : List String)

lemma isUncalled_eq (d) : isUncalled counted d = decide (callerCount counted d.name = 0) := by
  rw [isUncalled, callerCount]
  simp [count_eq_zero]

variable (key : String) (v : Value)

def textField : Option String := (v.get? key).bind Value.str?

def wholeField : Option Int :=
  match v.get? key with
  | some (.int n) => some n
  | _ => none

def without : Value → Value
  | .map fields => .map (erase key fields)
  | v => v

/-- The record of a call is for that of a definition: the names have the same last part. -/
def isCallOf (call definition : Value) : Bool :=
  (textField "callee" call).map simpleName == (textField "function" definition).map simpleName

/-- **The rules that spare a definition**: visitors, names between double underscores, plain functions of one small word,
classes, and short methods that are not private. -/
def isExempt : Bool :=
  let name := simpleName ((textField "function" v).getD "")
  let kind := (textField "type" v).getD ""
  let lines := (wholeField "end_line" v).getD 0 - (wholeField "start_line" v).getD 0
  let isPublic := !S.startsWith "_" name
  S.startsWith "visit_" name ||
  S.startsWith "__" name && S.endsWith "__" name ||
  kind == "function" && isPublic && isLowerText name.toList && !(name.toList.drop 1).contains '_' ||
  kind == "class" ||
  kind == "method" && decide (lines ≤ 2) && isPublic

lemma isExempt_definitionFields (file d) : isExempt (.map (definitionFields counted file d)) = isSpared d := by
  have hw : ∀ a b : Sort_, (a.word == b.word) = (a == b) := by
    intro a b
    cases a <;> cases b <;> rfl
  have hr : isExempt (.map (definitionFields counted file d)) = (S.startsWith "visit_" (simpleName d.name) ||
      S.startsWith "__" (simpleName d.name) && S.endsWith "__" (simpleName d.name) ||
      d.sort.word == Sort_.function.word && !S.startsWith "_" (simpleName d.name) &&
        isLowerText (simpleName d.name).toList && !((simpleName d.name).toList.drop 1).contains '_' ||
      d.sort.word == Sort_.class_.word ||
      d.sort.word == Sort_.method.word && decide ((d.lines.2 : Int) - d.lines.1 ≤ 2) &&
        !S.startsWith "_" (simpleName d.name)) := rfl
  rw [hr, hw, hw, hw]
  rfl

/-! ## Surveys -/

variable (calls : List (String × Call))

def countedIn : List String := calls.flatMap (countedNames ·.2)

lemma callerCount_countedIn (name) :
    callerCount (countedIn calls) name = calls.countP fun c => simpleName c.2.callee == simpleName name := by
  have hc : countedIn calls = (calls.map (·.2)).flatMap countedNames := (List.flatMap_map ..).symm
  rw [hc, callerCount_eq, countP_map]
  rfl

namespace Request

def ask (r : Request) (component : String) (lib : Library) : Feed Value := { r with component }.records lib

variable {r : Request} {lib : Library}

lemma ask_functions : r.ask "functions" lib = r.definitions lib := rfl

lemma ask_dead : r.ask "dead" lib = r.dead lib := rfl

lemma items_ask_calls {files} (h : r.files lib = .ok files) :
    (r.ask "calls" lib).items = (gather lib.calls files).items.map fun c =>
      .map (c.2.toFields c.1 ++ [("module", .str (moduleOf c.1))]) := by
  have hc : r.ask "calls" lib = .bindResult (r.files lib) fun files =>
      ⟨(gather lib.calls files).items.map fun c =>
        .map (c.2.toFields c.1 ++ [("module", .str (moduleOf c.1))]), (gather lib.calls files).fault?⟩ := rfl
  rw [hc, h, bindResult_ok]

lemma fields_of_record? {counted table file d v} (h : r.record? counted table file d = some v) :
    v.get? "caller_count" = some (.int (callerCount counted d.name)) ∧ textField "function" v = some d.name := by
  have hm : ∀ m : Measure, ∀ key ∈ ["caller_count", "function"],
      get? key (withMeasure (definitionFields counted file d) m) =
        get? key (definitionFields counted file d) := by
    intro m key hk
    have hl : key ≠ "lines" := by rintro rfl; exact absurd hk (by decide)
    have hh : key ≠ "hit" := by rintro rfl; exact absurd hk (by decide)
    have hc : key ≠ "coverage" := by rintro rfl; exact absurd hk (by decide)
    simp only [withMeasure, update, foldl_cons, foldl_nil]
    rw [get?_set_of_ne hc, get?_set_of_ne hh, get?_set_of_ne hl]
  simp only [record?] at h
  split at h
  · cases h
  split at h
  · obtain rfl := Option.some.inj h
    exact ⟨rfl, rfl⟩
  split at h
  · obtain rfl := Option.some.inj h
    constructor
    · exact hm _ _ (by decide)
    · rfl
  · cases h

/-- **The caller count of a record is the number of the calls for it.** -/
lemma caller_count_of_mem {v} (hv : v ∈ (r.ask "functions" lib).items) :
    v.get? "caller_count" = some (.int ((r.ask "calls" lib).items.countP (isCallOf · v))) := by
  rw [ask_functions] at hv
  obtain ⟨_, -, hv⟩ := mem_bindResult hv
  obtain ⟨_, hf, hv⟩ := mem_bindResult hv
  obtain ⟨calls, hca, hv⟩ := mem_bindResult hv
  obtain ⟨-, rfl⟩ := toResult_eq_ok.mp hca
  obtain ⟨⟨_, d⟩, -, hr⟩ := mem_filterMap.mp hv
  obtain ⟨hco, hn⟩ := fields_of_record? hr
  rw [hco, items_ask_calls hf, countP_map]
  refine congrArg (fun n : Nat => some (Value.int n)) ((callerCount_countedIn _ _).trans ?_)
  refine countP_congr fun c _ => ?_
  have hc : textField "callee" (.map (c.2.toFields c.1 ++ [("module", .str (moduleOf c.1))])) = some c.2.callee := rfl
  simp [isCallOf, hc, hn]

def deadRecord (d : String × Definition) : Value :=
  .map (d.2.toFields d.1 ++ [("module", .str (moduleOf d.1)), ("reason", .str (deadReason d.2))])

section Plain

variable {files : List String}

lemma definitions_of_files (hs : r.sort?.truthy = false) (ht : r.tracefile.truthy = false) (hf : r.files lib = .ok files) :
    r.definitions lib = .bindResult (gather lib.calls files).toResult fun calls =>
      ⟨(gather lib.definitions files).items.map fun d =>
        .map (definitionFields (countedIn calls) d.1 d.2), (gather lib.definitions files).fault?⟩ := by
  have hta : r.lineTable lib = .ok [] := by simp [lineTable, ht]
  have hr : ∀ counted file d, r.record? counted [] file d = some (.map (definitionFields counted file d)) := by
    simp [record?, hs]
  rw [definitions, hta, bindResult_ok, hf, bindResult_ok]
  simp only [hr, filterMap_eq_map', countedIn]

lemma dead_of_files (hf : r.files lib = .ok files) :
    r.dead lib = .bindResult (gather lib.definitions files).toResult fun all =>
      .bindResult (gather lib.calls files).toResult fun calls =>
        .ofList ((all.filter fun d => isUncalled (countedIn calls) d.2 && !isSpared d.2).map deadRecord) := by
  rw [dead, hf]
  rfl

end Plain

/-- What is reported are the definitions whose records say that nobody calls them, less those that are spared. -/
lemma map_deadRecord (all : List (String × Definition)) :
    ((all.filter fun d => isUncalled counted d.2 && !isSpared d.2).map deadRecord).map (without "reason") =
      ((all.map fun d => Value.map (definitionFields counted d.1 d.2)).filter fun v =>
        wholeField "caller_count" v == some 0 && !isExempt v).map (without "caller_count") := by
  rw [filter_map, map_map, map_map]
  have hk : ∀ d ∈ all, (isUncalled counted d.2 && !isSpared d.2) =
      ((fun v => wholeField "caller_count" v == some 0 && !isExempt v) ∘
        fun d : String × Definition => Value.map (definitionFields counted d.1 d.2)) d := by
    intro d _
    have hc : wholeField "caller_count" (.map (definitionFields counted d.1 d.2)) =
        some (callerCount counted d.2.name : Int) := rfl
    have hz : ∀ n : Nat, (some (n : Int) == some 0) = decide (n = 0) := by
      intro n
      rw [Bool.eq_iff_iff]
      simp
    rw [Function.comp_apply, isExempt_definitionFields, isUncalled_eq, hc, hz]
  rw [filter_congr hk]
  exact map_congr_left fun d _ => rfl

/-- **Callers and definitions that nothing calls.** The caller count of each record of a definition is the number of calls
with the same last part. Without a filter, the definitions that are reported are, in order, those that have no caller and
are not spared; where the survey of definitions breaks off, so does that of the reported ones. -/
theorem callers_and_dead (r : Request) (lib : Library) : (∀ v ∈ (r.ask "functions" lib).items,
      v.get? "caller_count" = some (.int ((r.ask "calls" lib).items.countP fun c => isCallOf c v))) ∧
    (r.sort?.truthy = false → r.tracefile.truthy = false →
      ((r.ask "functions" lib).fault? = none → (r.ask "dead" lib).fault? = none ∧
        (r.ask "dead" lib).items.map (without "reason") =
          ((r.ask "functions" lib).items.filter fun v =>
            wholeField "caller_count" v == some 0 && !isExempt v).map (without "caller_count")) ∧
      ((r.ask "functions" lib).fault? ≠ none →
        (r.ask "dead" lib).fault? ≠ none ∧ (r.ask "dead" lib).items = [])) := by
  refine ⟨fun v hv => caller_count_of_mem hv, fun hsort htrace => ?_⟩
  rw [ask_functions, ask_dead]
  cases hfiles : r.files lib with
  | error f =>
    have hdead : r.dead lib = .failed f := by rw [dead, hfiles]; rfl
    have hdefinitions : r.definitions lib = .failed f := by
      rw [definitions, show r.lineTable lib = .ok [] by simp [lineTable, htrace], hfiles]
      rfl
    rw [hdead, hdefinitions]
    exact ⟨fun h => absurd h (Option.some_ne_none f), fun h => ⟨h, rfl⟩⟩
  | ok files =>
    rw [definitions_of_files hsort htrace hfiles, dead_of_files hfiles]
    cases hcalls : (gather lib.calls files).toResult with
    | error f =>
      -- the calls cannot be read: neither survey gets as far as a record
      refine ⟨fun h => absurd h (Option.some_ne_none f), fun _ => ?_⟩
      cases (gather lib.definitions files).toResult with
      | error g => exact ⟨Option.some_ne_none g, rfl⟩
      | ok all => exact ⟨Option.some_ne_none f, rfl⟩
    | ok calls =>
      cases hall : (gather lib.definitions files).toResult with
      | error f =>
        have hfault : (gather lib.definitions files).fault? ≠ none := by
          intro hnone
          rw [toResult_eq_ok.mpr ⟨hnone, rfl⟩] at hall
          cases hall
        exact ⟨fun h => absurd h hfault, fun _ => ⟨Option.some_ne_none f, rfl⟩⟩
      | ok all =>
        obtain ⟨hnone, rfl⟩ := toResult_eq_ok.mp hall
        refine ⟨fun _ => ⟨rfl, map_deadRecord (countedIn calls) _⟩, fun h => absurd hnone h⟩

end Request

/-! ## A library of one source -/

def leaf (kind : String) (row first last : Nat) : Tree := .node kind ⟨row, first, row, last⟩ [] []

def singleSource (name text : String) (t : Tree) : Library :=
  ⟨{ entries := [(⟨"$ROOT", [name]⟩, .file (.text text) false)] }, fun _ _ => t⟩

def requestFor : Request where
  component := ""
  root := .str "."
  patterns := [name]
  tracefile := .null
  least := 0
  most := 100
  sort? := .null

lemma files_requestFor {name lib} (h : findFiles lib.tree "." [name] = .ok [name]) :
    (requestFor name).files lib = .ok [name] := by
  have hf : (requestFor name).files lib = sortedFiles lib.tree "." [name] := rfl
  rw [hf, sortedFiles, h]
  exact congrArg Except.ok (mergeSort_singleton ..)

def goOnCall : Tree :=
  .node "call" ⟨1, 19, 1, 26⟩ [("function", 0), ("arguments", 1)]
    [leaf "identifier" 1 19 24, .node "argument_list" ⟨1, 24, 1, 26⟩ [] [leaf "(" 1 24 25, leaf ")" 1 25 26]]

/-- The text of `jobs`:

    def do_work():
        go_on()

    def go_on():
        pass
-/
def jobsText : String := "def do_work():\n    go_on()\n\ndef go_on():\n    pass\n"

def jobs : Library :=
  singleSource "jobs.py" jobsText <|
    .node "module" ⟨0, 0, 5, 50⟩ []
      [.node "function_definition" ⟨0, 0, 1, 26⟩ [("name", 1), ("parameters", 2), ("body", 4)]
        [leaf "def" 0 0 3, leaf "identifier" 0 4 11,
          .node "parameters" ⟨0, 11, 0, 13⟩ [] [leaf "(" 0 11 12, leaf ")" 0 12 13], leaf ":" 0 13 14,
          .node "block" ⟨1, 19, 1, 26⟩ []
            [.node "expression_statement" ⟨1, 19, 1, 26⟩ [] [goOnCall]]],
       .node "function_definition" ⟨3, 28, 4, 49⟩ [("name", 1), ("parameters", 2), ("body", 4)]
        [leaf "def" 3 28 31, leaf "identifier" 3 32 37,
          .node "parameters" ⟨3, 37, 3, 39⟩ [] [leaf "(" 3 37 38, leaf ")" 3 38 39], leaf ":" 3 39 40,
          .node "block" ⟨4, 45, 4, 49⟩ [] [.node "pass_statement" ⟨4, 45, 4, 49⟩ [] [leaf "pass" 4 45 49]]]]

lemma files_jobs : (requestFor "jobs.py").files jobs = .ok ["jobs.py"] := files_requestFor rfl

open Request

theorem callers_and_dead_jobs :
    ((requestFor "jobs.py").ask "functions" jobs).items.map (wholeField "caller_count") = [some 0, some 1] ∧
    ((requestFor "jobs.py").ask "dead" jobs).fault? = none ∧
    ((requestFor "jobs.py").ask "dead" jobs).items.map (without "reason") =
      (((requestFor "jobs.py").ask "functions" jobs).items.filter fun v =>
        wholeField "caller_count" v == some 0 && !isExempt v).map (without "caller_count") ∧
    ((requestFor "jobs.py").ask "dead" jobs).items.map (textField "function") = [some "do_work"] := by
  have hfunctions := definitions_of_files (r := requestFor "jobs.py") rfl rfl files_jobs
  have hfault : ((requestFor "jobs.py").ask "functions" jobs).fault? = none := by
    rw [ask_functions, hfunctions]
    decide +kernel
  obtain ⟨hdead, hitems⟩ := ((callers_and_dead (requestFor "jobs.py") jobs).2 rfl rfl).1 hfault
  refine ⟨?_, hdead, hitems, ?_⟩
  · rw [ask_functions, hfunctions]
    decide +kernel
  · rw [ask_dead, dead_of_files files_jobs]
    decide +kernel

end Sluice.Source
