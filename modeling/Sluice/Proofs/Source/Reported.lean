import Sluice.Proofs.Source.Seen

/-!
# Definitions that are reported

No seen call has a name with the last dotted part of a definition that is reported. Double colons divide no name into
parts.
-/

namespace Sluice.Source

open List Text Sluice.Source.Tree Feed Option Utf8

variable {language : Language} {code : List UInt8} {files : List String}

namespace Library

variable {α : Type} {lib : Library} {file : String}

structure Holds (lib : Library) (file : String) (language : Language) (code : List UInt8) : Prop where
  language : Language.ofPath? file = some language
  source : ∃ c, lib.tree.open? (Path.ofString file) (Path.ofString file).toString = .ok c ∧ FileTree.Content.toOctets c = code

lemma read_of_holds (reader : Language → List UInt8 → Tree → Feed α) (h : lib.Holds file language code) :
    lib.read reader file = reader language code (lib.parse language code) := by
  obtain ⟨hl, c, ho, rfl⟩ := h
  cases hf : lib.tree.find? (Path.ofString file) with
  | none =>
    rw [FileTree.open?, hf] at ho
    cases ho
  | some node => simp only [read, hf, hl, ho, bindResult_ok]

lemma holds_of_mem {reader : Language → List UInt8 → Tree → Feed α} {x}
    (h : x ∈ (lib.read reader file).items) : ∃ language code, lib.Holds file language code := by
  simp only [read] at h
  split at h
  next language _ hl =>
    obtain ⟨c, ho, -⟩ := mem_bindResult h
    exact ⟨language, _, hl, c, ho, rfl⟩
  next => exact absurd h not_mem_nil

variable {read : String → Feed α}

lemma mem_gather (h : (gather read files).fault? = none) {x} : (file, x) ∈ (gather read files).items ↔ file ∈ files ∧ x ∈ (read file).items := by
  rw [gather, items_flatMap (fault?_flatMap.mp h), List.mem_flatMap]
  constructor
  · rintro ⟨_, ho, hx⟩
    obtain ⟨y, hy, hp⟩ := mem_map.mp hx
    obtain ⟨rfl, rfl⟩ := Prod.mk.inj hp
    exact ⟨ho, hy⟩
  · rintro ⟨hf, hx⟩
    exact ⟨file, hf, mem_map_of_mem hx⟩

lemma calls_of_held (hc : (gather lib.calls files).fault? = none) (hf : file ∈ files) (hh : lib.Holds file language code) :
    lib.calls file = Source.calls language code (lib.parse language code) ∧
      (Source.calls language code (lib.parse language code)).fault? = none := by
  have hr : lib.calls file = Source.calls language code (lib.parse language code) := lib.read_of_holds _ hh
  exact ⟨hr, hr ▸ fault?_flatMap.mp hc file hf⟩

end Library

/-! ## Definitions that are reported -/

namespace Request

structure Scans (r : Request) (lib : Library) (file : String) (language : Language) (code : List UInt8) : Prop where
  listed : ∃ files, r.files lib = .ok files ∧ file ∈ files
  held : lib.Holds file language code

def Defines (r : Request) (lib : Library) (file : String) (d : Definition) : Prop :=
  ∃ files, r.files lib = .ok files ∧ file ∈ files ∧ d ∈ (lib.definitions file).items

def Sees (r : Request) (lib : Library) (name : String) : Prop :=
  ∃ file language code, r.Scans lib file language code ∧
    ∃ n, Seen language none (lib.parse language code) n ∧ Names language code n name

variable {r : Request} {lib : Library}

open Library

lemma dead_ended (h : (r.dead lib).fault? = none) :
    ∃ files, r.files lib = .ok files ∧ (gather lib.definitions files).fault? = none ∧
      (gather lib.calls files).fault? = none ∧ r.dead lib = .ofList (((gather lib.definitions files).items.filter fun d =>
        isUncalled (countedIn (gather lib.calls files).items) d.2 && !isSpared d.2).map deadRecord) := by
  cases hf : r.files lib with
  | error f =>
    rw [dead, hf] at h
    exact absurd h (some_ne_none f)
  | ok files =>
    rw [dead_of_files hf] at h ⊢
    cases hal : (gather lib.definitions files).toResult with
    | error f =>
      rw [hal] at h
      exact absurd h (some_ne_none f)
    | ok all =>
      cases hca : (gather lib.calls files).toResult with
      | error f =>
        rw [hal, hca] at h
        exact absurd h (some_ne_none f)
      | ok calls =>
        obtain ⟨ha, rfl⟩ := toResult_eq_ok.mp hal
        obtain ⟨hc, rfl⟩ := toResult_eq_ok.mp hca
        exact ⟨files, rfl, ha, hc, rfl⟩

/-- A survey that reports a definition ends well: nothing is reported before all is read. -/
lemma fault?_of_mem_dead {v} (hv : v ∈ (r.dead lib).items) : (r.dead lib).fault? = none := by
  rw [dead] at hv ⊢
  obtain ⟨_, hf, hv⟩ := mem_bindResult hv
  obtain ⟨_, ha, hv⟩ := mem_bindResult hv
  obtain ⟨_, hc, -⟩ := mem_bindResult hv
  rw [hf, bindResult_ok, ha, hc]
  rfl

lemma sees_iff (hfi : r.files lib = .ok files) (hca : (gather lib.calls files).fault? = none) {name} :
    r.Sees lib name ↔ ∃ c ∈ (gather lib.calls files).items, c.2.callee = name := by
  constructor
  · rintro ⟨file, language, code, ⟨⟨_, hl, hf⟩, hh⟩, hs⟩
    obtain rfl := Except.ok.inj (hfi.symm.trans hl)
    obtain ⟨hr, he⟩ := calls_of_held hca hf hh
    obtain ⟨c, hc, hcal⟩ := (mem_calls_iff he).mpr hs
    exact ⟨(file, c), (mem_gather hca).mpr ⟨hf, hr ▸ hc⟩, hcal⟩
  · rintro ⟨⟨file, c⟩, hc, rfl⟩
    obtain ⟨hf, hc⟩ := (mem_gather hca).mp hc
    obtain ⟨language, code, hh⟩ := holds_of_mem hc
    obtain ⟨hr, he⟩ := calls_of_held hca hf hh
    rw [hr] at hc
    exact ⟨file, language, code, ⟨⟨files, hfi, hf⟩, hh⟩, (mem_calls_iff he).mp ⟨c, hc, rfl⟩⟩

/-- **What is reported**: the definitions that are not spared and that no seen call has the last part of. -/
lemma mem_dead_iff (h : (r.dead lib).fault? = none) {v} :
    v ∈ (r.dead lib).items ↔ ∃ file d, r.Defines lib file d ∧ v = deadRecord (file, d) ∧ isSpared d = false ∧
      ∀ name, r.Sees lib name → simpleName name ≠ simpleName d.name := by
  obtain ⟨files, hf, ha, hca, hde⟩ := dead_ended h
  have hu : ∀ d : Definition, isUncalled (countedIn (gather lib.calls files).items) d ↔
      ∀ name, r.Sees lib name → simpleName name ≠ simpleName d.name := by
    intro d
    rw [isUncalled_eq, callerCount_countedIn, decide_eq_true_iff, countP_eq_zero]
    simp only [sees_iff hf hca, beq_iff_eq]
    exact ⟨fun hc name ⟨c, hm, hn⟩ => hn ▸ hc c hm, fun hc c hm => hc _ ⟨c, hm, rfl⟩⟩
  rw [hde]
  constructor
  · intro hv
    obtain ⟨⟨file, d⟩, hm, rfl⟩ := mem_map.mp hv
    obtain ⟨hm, hk⟩ := mem_filter.mp hm
    obtain ⟨hfi, hd⟩ := (mem_gather ha).mp hm
    rw [Bool.and_eq_true, hu, Bool.not_eq_true'] at hk
    exact ⟨file, d, ⟨files, hf, hfi, hd⟩, rfl, hk.2, hk.1⟩
  · rintro ⟨file, d, ⟨_, hl, hfi, hd⟩, rfl, hs, hun⟩
    obtain rfl := Except.ok.inj (hf.symm.trans hl)
    refine mem_map_of_mem (mem_filter.mpr ⟨(mem_gather ha).mpr ⟨hfi, hd⟩, ?_⟩)
    rw [Bool.and_eq_true, hu, Bool.not_eq_true']
    exact ⟨hun, hs⟩

lemma sees_of_callsTo (h : (r.dead lib).fault? = none) {file} (hs : r.Scans lib file language code)
    {n} (hn : Seen language none (lib.parse language code) n) {w} (hw : CallsTo language code n w)
    (hne : w ≠ "") : ∃ name, r.Sees lib name ∧ simpleName name = simpleName w := by
  obtain ⟨_, hf, -, hca, -⟩ := dead_ended h
  obtain ⟨_, hl, hfi⟩ := hs.listed
  obtain rfl := Except.ok.inj (hf.symm.trans hl)
  obtain ⟨-, he⟩ := calls_of_held hca hfi hs.held
  obtain ⟨name?, hc⟩ := callee_of_seen hn he hw.kind
  obtain ⟨name, hna, hla⟩ := names_of_callsTo hw hne hc
  exact ⟨name, ⟨file, language, code, hs, n, hn, hna⟩, hla⟩

end Request

lemma scans_singleSource {name text t} (hf : (requestFor name).files (singleSource name text t) = .ok [name])
    (hl : Language.ofPath? name = some language)
    (ho : (singleSource name text t).tree.open? (Path.ofString name) (Path.ofString name).toString = .ok (.text text)) :
    (requestFor name).Scans (singleSource name text t) name language (encode text) :=
  ⟨⟨[name], hf, mem_singleton_self name⟩, hl, _, ho, rfl⟩

lemma text_of_toOption {t : Tree} {s} (h : (t.text code).toOption = some s) : t.text code = .ok s := by
  cases ht : t.text code with
  | error f =>
    rw [ht] at h
    cases h
  | ok s' =>
    rw [ht] at h
    exact congrArg Except.ok (some.inj h)

def behindColons? (name : String) : Option String := (S.cutLast "::" (simpleName name)).map (·.2)

def lastName (name : String) : String := (behindColons? name).getD (simpleName name)

/-- **Definitions that are reported.** A survey that ends well reports the definitions that are not spared and with whose
last dotted part no seen call ends. So what a seen call calls is never reported, unless double colons stand in the name of
the definition or in the name as it is called; such names are one only if they are equal from the last dot on. -/
theorem Request.reported_iff_unseen (r : Request) (lib : Library) :
    ((r.ask "dead" lib).fault? = none → ∀ v, v ∈ (r.ask "dead" lib).items ↔
      ∃ file d, r.Defines lib file d ∧ v = deadRecord (file, d) ∧ isSpared d = false ∧
        ∀ name, r.Sees lib name → simpleName name ≠ simpleName d.name) ∧
    ∀ file language code n w, r.Scans lib file language code →
      Seen language none (lib.parse language code) n → CallsTo language code n w → w ≠ "" →
      ∀ v ∈ (r.ask "dead" lib).items, ∀ name, textField "function" v = some name →
        simpleName name ≠ simpleName w ∧
        (behindColons? name = none → behindColons? w = none → lastName name ≠ lastName w) := by
  rw [ask_dead]
  refine ⟨fun h v => mem_dead_iff h, fun file language code n w hscans hn hw hne v hv name hname => ?_⟩
  have hended := fault?_of_mem_dead hv
  obtain ⟨file', d, -, rfl, -, hunseen⟩ := (mem_dead_iff hended).mp hv
  obtain rfl : d.name = name := some.inj hname
  obtain ⟨called, hsees, hlast⟩ := sees_of_callsTo hended hscans hn hw hne
  have hdiffer : simpleName d.name ≠ simpleName w := fun he => hunseen called hsees (hlast.trans he.symm)
  refine ⟨hdiffer, fun hd hcolons => ?_⟩
  rw [lastName, lastName, hd, hcolons]
  exact hdiffer

open Request

/-- The call in the body of the first function is seen, so the second function is not reported. -/
theorem reported_iff_unseen_jobs :
    ((requestFor "jobs.py").ask "dead" jobs).items.map (textField "function") = [some "do_work"] ∧
    (∃ file d, (requestFor "jobs.py").Defines jobs file d ∧ d.name = "do_work" ∧
      ∀ name, (requestFor "jobs.py").Sees jobs name → simpleName name ≠ simpleName d.name) ∧
    ∀ v ∈ ((requestFor "jobs.py").ask "dead" jobs).items, ∀ name, textField "function" v = some name →
      simpleName name ≠ simpleName "go_on" := by
  have hdead := dead_of_files (r := requestFor "jobs.py") files_jobs
  have hnames : ((requestFor "jobs.py").ask "dead" jobs).items.map (textField "function") = [some "do_work"] := by
    rw [ask_dead, hdead]
    decide +kernel
  have hscans : (requestFor "jobs.py").Scans jobs "jobs.py" .python (encode jobsText) := scans_singleSource files_jobs rfl rfl
  have hseen : Seen .python none (jobs.parse .python (encode jobsText)) goOnCall :=
    .child (by decide +kernel) (List.mem_cons_self ..) <| .body (by decide +kernel) rfl <|
      .child (List.mem_cons_self ..) <| .child (List.mem_cons_self ..) <| .here goOnCall
  have hcalls : CallsTo .python (encode jobsText) goOnCall "go_on" :=
    ⟨rfl, leaf "identifier" 1 19 24, rfl, .name rfl (text_of_toOption (by decide +kernel))⟩
  obtain ⟨hiff, hnever⟩ := reported_iff_unseen (requestFor "jobs.py") jobs
  refine ⟨hnames, ?_, fun v hv name hname =>
    (hnever "jobs.py" .python _ goOnCall "go_on" hscans hseen hcalls (by decide) v hv name hname).1⟩
  obtain ⟨v, hv, hfunction⟩ := List.mem_map.mp (hnames ▸ List.mem_singleton_self (some "do_work"))
  obtain ⟨file, d, hdefines, rfl, -, hunseen⟩ := (hiff (fault?_of_mem_dead hv) v).mp hv
  exact ⟨file, d, hdefines, some.inj hfunction, hunseen⟩

/-! ## Calls that do not count -/

/-- The text of `topCall`:

    def do_work():
        pass

    do_work()
-/
def topCallText : String := "def do_work():\n    pass\n\ndo_work()\n"

def doWorkCall : Tree :=
  .node "call" ⟨3, 25, 3, 34⟩ [("function", 0), ("arguments", 1)]
    [leaf "identifier" 3 25 32, leaf "argument_list" 3 32 34]

def topCall : Library :=
  singleSource "job.py" topCallText <|
    .node "module" ⟨0, 0, 4, 35⟩ []
      [.node "function_definition" ⟨0, 0, 1, 23⟩ [("name", 1), ("parameters", 2), ("body", 4)]
        [leaf "def" 0 0 3, leaf "identifier" 0 4 11, leaf "parameters" 0 11 13, leaf ":" 0 13 14,
          .node "block" ⟨1, 19, 1, 23⟩ [] [leaf "pass_statement" 1 19 23]],
       .node "expression_statement" ⟨3, 25, 3, 34⟩ [] [doWorkCall]]

/-- The text of `memberCall`:

    struct Job;
    impl Job {
        fn run_all(&self) {
            1;
            2;
            3;
            4;
        }
    }
    fn start_all(job: Job) {
        job.run_all();
    }
-/
def memberCallText : String :=
  "struct Job;\nimpl Job \x7b\n    fn run_all(&self) \x7b\n" ++
  "        1;\n        2;\n        3;\n        4;\n    \x7d\n\x7d\n" ++
  "fn start_all(job: Job) \x7b\n    job.run_all();\n\x7d\n"

def runAllCall : Tree :=
  .node "call_expression" ⟨10, 128, 10, 141⟩ [("function", 0), ("arguments", 1)]
    [.node "field_expression" ⟨10, 128, 10, 139⟩ [("value", 0), ("field", 1)]
      [leaf "identifier" 10 128 131, leaf "field_identifier" 10 132 139],
     leaf "arguments" 10 139 141]

def memberCall : Library :=
  singleSource "job.rs" memberCallText <|
    .node "source_file" ⟨0, 0, 12, 145⟩ []
      [.node "impl_item" ⟨1, 12, 8, 98⟩ [("type", 0), ("body", 1)]
        [leaf "type_identifier" 1 17 20, .node "declaration_list" ⟨1, 21, 8, 98⟩ []
            [.node "function_item" ⟨2, 27, 7, 96⟩ [("name", 0), ("body", 1)]
              [leaf "identifier" 2 30 37, .node "block" ⟨2, 45, 7, 96⟩ []
                  [leaf "\x7b" 2 45 46, leaf "expression_statement" 3 55 57, leaf "expression_statement" 4 66 68,
                    leaf "expression_statement" 5 77 79, leaf "expression_statement" 6 88 90, leaf "\x7d" 7 95 96]]]],
       .node "function_item" ⟨9, 99, 11, 144⟩ [("name", 0), ("body", 1)]
        [leaf "identifier" 9 102 111,
          .node "block" ⟨9, 122, 11, 144⟩ [] [.node "expression_statement" ⟨10, 128, 10, 142⟩ [] [runAllCall]]]]

/-- A function called at the top of its source is reported; so is a method that a function calls as a member, because the
type is part of its name. -/
theorem reported_though_called : (Below (topCall.parse .python (Utf8.encode topCallText)) doWorkCall ∧
      CallsTo .python (Utf8.encode topCallText) doWorkCall "do_work" ∧
      (requestFor "job.py").Scans topCall "job.py" .python (Utf8.encode topCallText) ∧
      ((requestFor "job.py").ask "dead" topCall).items.map (textField "function") = [some "do_work"]) ∧
    (Seen .rust none (memberCall.parse .rust (Utf8.encode memberCallText)) runAllCall ∧
      CallsTo .rust (Utf8.encode memberCallText) runAllCall (lastName "Job::run_all") ∧
      (requestFor "job.rs").Scans memberCall "job.rs" .rust (Utf8.encode memberCallText) ∧
      ((requestFor "job.rs").ask "dead" memberCall).items.map (textField "function") =
        [some "Job::run_all", some "start_all"]) := by
  have htop : (requestFor "job.py").files topCall = .ok ["job.py"] := files_requestFor rfl
  have hmember : (requestFor "job.rs").files memberCall = .ok ["job.rs"] := files_requestFor rfl
  have hlast : lastName "Job::run_all" = "run_all" := by decide +kernel
  refine ⟨⟨?_, ?_, scans_singleSource htop rfl rfl, ?_⟩, ?_, ?_, scans_singleSource hmember rfl rfl, ?_⟩
  · exact .child (List.mem_cons_of_mem _ (List.mem_cons_self ..)) (.child (List.mem_cons_self ..) (.here doWorkCall))
  · exact ⟨rfl, leaf "identifier" 3 25 32, rfl, .name rfl (text_of_toOption (by decide +kernel))⟩
  · rw [ask_dead, dead_of_files htop]
    decide +kernel
  · exact .child (by decide +kernel) (List.mem_cons_of_mem _ (List.mem_cons_self ..)) <|
      .body (by decide +kernel) rfl <| .child (List.mem_cons_self ..) <| .child (List.mem_cons_self ..) <|
        .here runAllCall
  · rw [hlast]
    exact ⟨rfl, _, rfl, .member rfl rfl (text_of_toOption (by decide +kernel))⟩
  · rw [ask_dead, dead_of_files hmember]
    decide +kernel

end Sluice.Source
