import Sluice.Mcp.Command
import Sluice.Proofs.Machine.Session

/-!
# What a reference makes a server do

Reading has a request done, in one exchange, or lists all that the server has, in two, by a slash before the query alone
(`plan_of_resolve`).
-/

namespace Sluice.Mcp

open List Text Act Fields

variable {server : Server} {limit : Value}

/-! ## Exchanges -/

def Request.call (r : Request) : Value :=
  .list (match r.operation with
    | .listTools => ["list_tools"]
    | .listResources => ["list_resources"]
    | .readResource uri => ["read_resource", uri]
    | .callTool tool => ["call_tool", tool, .map r.params])

def Server.farewell (server : Server) : List Value :=
  .list ["session_close"] ::
    match server.closeSession with
    | .error _ => []
    | .ok () =>
      .list ["stream_close"] ::
        match server.closeStream with
        | .error _ => []
        | .ok () => [.list ["stream_close"]]

def Server.inquiry (server : Server) (request : Request) : List Value :=
  .list ["initialize"] ::
    match server.greet with
    | .error _ => []
    | .ok () => [request.call]

/-- **The calls of one exchange** with a server: it is started as the settings say, greeted, asked once, and left. -/
def Server.exchange (server : Server) (settings : Fields) (request : Request) : List Value :=
  match get? "command" settings with
  | none => []
  | some command =>
    .list ["connect", command, (get? "args" settings).getD (.list []), partD settings "env"] ::
      match server.connect with
      | .error _ => []
      | .ok () => server.inquiry request ++ server.farewell

section Calls

variable {α β : Type} {name : String} {args : List Value}

lemma notes_call (outcome : Result α) : (call name args outcome).Notes [.list (.str name :: args)] :=
  notes_log_bind (notes_ofResult outcome)

variable {next : α → Act β}

lemma notes_call_bind {calls a} (h : (next a).Notes calls) :
    (call name args (.ok a) >>= next).Notes (.list (.str name :: args) :: calls) := by
  have ha : (call name args (.ok a) >>= next) = log (.list (.str name :: args)) >>= fun _ => next a := rfl
  rw [ha]
  exact notes_log_bind h

lemma notes_call_error_bind {f} : (call name args (.error f) >>= next).Notes [.list (.str name :: args)] := by
  have ha : (call name args (.error f) >>= next) = log (.list (.str name :: args)) >>= fun _ => fail f := rfl
  rw [ha]
  exact notes_log_bind (notes_fail f)

end Calls

lemma notes_answer (server : Server) (request) : (server.answer request).Notes [request.call] := by
  obtain ⟨o, _⟩ := request
  cases o with
  | listTools => exact notes_bind (notes_call _) fun _ => notes_ofResult _
  | listResources => exact notes_bind (notes_call _) fun _ => notes_ofResult _
  | readResource uri => exact notes_bind (notes_call _) fun _ => notes_pure _
  | callTool tool => exact notes_bind (notes_call _) fun _ => notes_pure _

lemma notes_close (server : Server) : server.close.Notes server.farewell := by
  refine notes_bind (notes_attempt ?_) fun r => ?_
  · rw [Server.farewell]
    cases server.closeSession with
    | error f => exact notes_call_error_bind
    | ok u =>
      refine notes_call_bind ?_
      cases server.closeStream with
      | error f => exact notes_call_error_bind
      | ok u => exact notes_call_bind (notes_call _)
  · cases r with
    | error f => exact notes_printErr _
    | ok u => exact notes_pure _

/-- **Having a request done is one exchange**, whatever the server does. -/
lemma notes_perform (server : Server) (settings request) :
    (server.perform settings request).Notes (server.exchange settings request) := by
  have ha : (call "initialize" [] server.greet >>= fun _ => server.answer request).Notes
      (server.inquiry request) := by
    rw [Server.inquiry]
    cases server.greet with
    | error f => exact notes_call_error_bind
    | ok u => exact notes_call_bind (notes_answer server request)
  have he := notes_ensuring ha (notes_close server)
  rw [Server.perform, Server.during, Server.open, Server.exchange]
  cases get? "command" settings with
  | none => exact fun s => rfl
  | some command =>
    cases server.connect with
    | error f => exact notes_call_error_bind
    | ok u => exact notes_call_bind he

def hasPath (url : String) : Bool := S.contains "/" (cutQuery url).1

def pathTool? (url : String) : Option String := (S.cutOnce "/" (cutQuery url).1).map (·.2)

/-- A parameter `list`, `resource` or `tool`, or a tool in its path, selects the operation of a reference. -/
def isSelected (url : String) (params : Fields) : Bool :=
  let all := update params (cutQuery url).2
  all.has "list" || all.has "resource" || all.has "tool" || (pathTool? url).any (· != "")

variable {s : Session} {url : String} {params settings : Fields} {request : Request}

/-- **What is done follows from the slash alone**, not from what was resolved. -/
lemma plan_of_resolve (h : resolve s url params = .ok (settings, request)) :
    plan s url params = .ok (if hasPath url then .one settings request else .everything settings) := by
  obtain ⟨r, hu⟩ : ∃ r, url.toList = '@' :: r := by
    cases hd : dropStart? "@".toList url.toList with
    | some r => exact ⟨r, dropStart?_eq_some hd⟩
    | none =>
      have hn : S.dropStart? "@" url = none := by rw [S.dropStart?, hd, Option.map_none]
      rw [resolve, hn] at h
      cases h
  have hat : S.startsWith "@" url := by
    rw [S.startsWith, hu]
    rfl
  have ha : S.startsWith "mcp+" url = false := by
    rw [S.startsWith, hu]
    rfl
  rw [plan, ha, hat, h, hasPath]
  cases S.contains "/" (cutQuery url).1 <;> rfl

/-! ## Reading -/

lemma notes_emitUpTo (limit count records) : (emitUpTo deliver limit count records).Notes [] := by
  induction records generalizing count with
  | nil => exact notes_pure _
  | cons r rs ih =>
    refine notes_bind (notes_deliver _) fun _ => ?_
    rcases limit.reached (count + 1) with f | _ | _
    · exact notes_pure _
    · exact ih (count + 1)
    · exact notes_pure _

lemma notes_emitRecords (server settings request mark limit count) :
    (emitRecords deliver server settings request mark limit count).Notes (server.exchange settings request) := by
  refine notes_bind (notes_attempt (notes_perform server settings request)) fun r => ?_
  cases r with
  | error f => exact notes_pure _
  | ok records => exact notes_emitUpTo limit count _

lemma notes_emitAnswer (server settings request limit) :
    (emitAnswer deliver server settings request limit).Notes (server.exchange settings request) := by
  refine notes_bind (notes_emitRecords server settings request id limit 0) fun r => ?_
  cases r with
  | error f => exact notes_deliver _
  | ok n => exact notes_pure _

lemma outcome_emitUpTo (h : limit.truthy = false) (count records s) : ((emitUpTo deliver limit count records).outcome s).1 = .ok (.ok (count + records.length, false)) := by
  induction records generalizing count s with
  | nil => rfl
  | cons r rs ih =>
    rw [emitUpTo, bind_of_ok (outcome_deliver _ s), Value.reached_of_not_truthy h]
    rw [ih, length_cons, Nat.add_assoc, Nat.add_comm 1]

variable {s' : Session} {tools : List Fields}

lemma calls_emitEverything (hl : limit.truthy = false)
    (ht : (server.perform settings ⟨.listTools, []⟩).outcome s = (.ok tools, s')) (url) :
    ((emitEverything deliver server settings url limit).outcome s).2.calls =
      (server.exchange settings ⟨.listTools, []⟩ ++ server.exchange settings ⟨.listResources, []⟩).reverse ++ s.calls := by
  obtain ⟨between, hf⟩ : ∃ between,
      (emitRecords deliver server settings ⟨.listTools, []⟩ (contained "tool" url) limit 0).outcome s =
        (.ok (.ok (0 + (tools.map (contained "tool" url)).length, false)), between) := by
    rw [emitRecords, bind_of_ok (outcome_attempt_of_ok ht)]
    exact ⟨_, Prod.ext (outcome_emitUpTo hl 0 (tools.map (contained "tool" url)) s') rfl⟩
  have hb := notes_emitRecords server settings ⟨.listTools, []⟩ (contained "tool" url) limit 0 s
  rw [hf] at hb
  rw [emitEverything, bind_of_ok hf]
  refine (notes_bind (notes_emitRecords server settings _ (contained "resource" url) limit _) (fun r => ?_)
    between).trans ?_
  · cases r with
    | error f => exact notes_deliver _
    | ok n => exact notes_pure _
  · rw [hb, reverse_append, List.append_assoc]

/-- Whether a run makes exactly the exchanges for these requests, one after another. -/
def Performs (server : Server) (settings : Fields) (requests : List Request) (act : Act Unit) (s : Session) : Prop :=
  (act.outcome s).2.calls = (requests.flatMap (server.exchange settings)).reverse ++ s.calls

section Resolved

variable {s : Session} {url : String} {params settings : Fields} {request : Request}

lemma performs_of_hasPath (hr : resolve s url params = .ok (settings, request)) (hpa : hasPath url) (server limit) :
    Performs server settings [request] (read deliver server url limit params) s := by
  have hp := plan_of_resolve hr
  rw [if_pos hpa] at hp
  rw [Performs, read, bind_of_ok (outcome_get s), hp, flatMap_singleton]
  exact notes_emitAnswer server settings request limit s

lemma performs_of_no_path (hr : resolve s url params = .ok (settings, request)) (hpa : hasPath url = false) (hl : limit.truthy = false)
    (ht : (server.perform settings ⟨.listTools, []⟩).outcome s = (.ok tools, s')) :
    Performs server settings [⟨.listTools, []⟩, ⟨.listResources, []⟩] (read deliver server url limit params) s := by
  have hp := plan_of_resolve hr
  rw [if_neg (by simp [hpa])] at hp
  rw [Performs, read, bind_of_ok (outcome_get s), hp, flatMap_cons, flatMap_singleton]
  exact calls_emitEverything hl ht url

lemma length_exchange (server : Server) (hc : settings.has "command" = true) :
    ∃ n, 0 < n ∧ ∀ r : Request, (server.exchange settings r).length = n := by
  obtain ⟨command, hg⟩ := Option.isSome_iff_exists.mp hc
  refine ⟨(server.exchange settings ⟨.listTools, []⟩).length, ?_, fun r => ?_⟩
  · simp [Server.exchange, hg]
  · simp only [Server.exchange, Server.inquiry, hg]
    cases server.connect with
    | error f => rfl
    | ok u =>
      cases server.greet with
      | error f => rfl
      | ok u => simp

lemma not_performs_two {act r r1 r2} (hc : settings.has "command" = true) (ho : Performs server settings [r] act s) :
    ¬ Performs server settings [r1, r2] act s := by
  intro ht
  obtain ⟨n, hp, hl⟩ := length_exchange server hc
  have hca := congrArg List.length (ho.symm.trans ht)
  simp only [flatMap_cons, length_append, length_reverse, hl] at hca
  omega

end Resolved

/-- **Reading obeys a reference** that stands for these settings and this request. -/
structure Obeys (s : Session) (url : String) (params settings : Fields) (request : Request) : Prop where
  /-- what is selected is done, and nothing else -/
  selected : isSelected url params → ∀ server limit,
    Performs server settings [request] (read deliver server url limit params) s
  bare : hasPath url = false → isSelected url params = false → ∀ server limit tools s', limit.truthy = false →
    (server.perform settings ⟨.listTools, []⟩).outcome s = (.ok tools, s') →
    Performs server settings [⟨.listTools, []⟩, ⟨.listResources, []⟩]
      (read deliver server url limit params) s
  /-- no other reference does that -/
  only_bare : ∀ server limit, Performs server settings [⟨.listTools, []⟩, ⟨.listResources, []⟩]
      (read deliver server url limit params) s →
    hasPath url = false ∧ isSelected url params = false

lemma outcome_perform_listTools (settings) (hc : settings.has "command" = true) (s) :
    ∃ s', (Server.perform {} settings ⟨.listTools, []⟩).outcome s = (.ok [], s') := by
  obtain ⟨command, hg⟩ := Option.isSome_iff_exists.mp hc
  rw [Server.perform, Server.during, Server.open, hg]
  exact ⟨_, rfl⟩

/-- **A selecting parameter without a path is not obeyed.** -/
lemma not_obeys_of_no_path (hr : resolve s url params = .ok (settings, request)) (hc : settings.has "command" = true)
    (hp : hasPath url = false) (hs : isSelected url params) : ¬ Obeys s url params settings request := by
  intro ho
  obtain ⟨s', ht⟩ := outcome_perform_listTools settings hc s
  have ha : Performs {} settings [⟨.listTools, []⟩, ⟨.listResources, []⟩]
      (read deliver {} url .null params) s := performs_of_no_path hr hp rfl ht
  have hb := (ho.only_bare {} .null ha).2
  rw [hs] at hb
  cases hb

/-- **When reading obeys a reference**: exactly if it has a path, or nothing selects its operation. -/
theorem obeys_iff {s : Session} {url : String} {params settings : Fields} {request : Request}
    (hres : resolve s url params = .ok (settings, request)) (hcommand : settings.has "command" = true) :
    Obeys s url params settings request ↔ hasPath url = true ∨ isSelected url params = false := by
  constructor
  · intro hobeys
    cases hpath : hasPath url with
    | true => exact .inl rfl
    | false =>
      cases hselected : isSelected url params with
      | false => exact .inr rfl
      | true => exact absurd hobeys (not_obeys_of_no_path hres hcommand hpath hselected)
  · intro h
    refine ⟨fun hselected => ?_, fun hpath _ server limit tools s' => performs_of_no_path hres hpath, ?_⟩
    · have hpath := h.resolve_right (by simp [hselected])
      exact performs_of_hasPath hres hpath
    · intro server limit hall
      cases hpath : hasPath url with
      | true => exact absurd hall (not_performs_two hcommand (performs_of_hasPath hres hpath server limit))
      | false => exact ⟨rfl, h.resolve_left (by simp [hpath])⟩

def labProfile : Path := ⟨"$ROOT", ["home", ".local", "jn", "profiles", "mcp", "biomcp"]⟩

def labMachine : Session :=
  { tree := ⟨[(labProfile.parent, .directory), (labProfile, .directory),
      (labProfile.child "_meta.json", .file (.text "\x7b\"command\": \"uvx\"\x7d") false)]⟩
    env := [("HOME", "$ROOT/home")] }

def labSettings : Fields := [("command", "uvx")]

lemma readOver_lab : readOver labMachine.tree (labProfile.child "_meta.json") (.map []) = .ok (.map labSettings) := by
  have ht : labMachine.tree.pathExists (labProfile.child "_meta.json") := by decide +kernel
  have hte : labMachine.tree.readText (labProfile.child "_meta.json") = .ok "\x7b\"command\": \"uvx\"\x7d" := rfl
  have hr : Json.read "\x7b\"command\": \"uvx\"\x7d" = .ok (.map labSettings) := Json.read_of_chars rfl rfl
  rw [readOver, if_pos ht, readFile, hte]
  simp only [hr, bind, Except.bind]

lemma load_lab {tool?} (h : tool? = none ∨ tool? = some "search") : load labMachine "biomcp" tool? = .ok labSettings := by
  have hp : profileDirectories labMachine = [labProfile.parent] := by decide +kernel
  have hpl : labProfile.parent.joinText "biomcp" = labProfile := by decide +kernel
  have ht : labMachine.tree.pathExists labProfile := by decide +kernel
  have hpa : findParts labMachine.tree "biomcp" tool? {} (profileDirectories labMachine) =
      .ok ⟨.map labSettings, .map []⟩ := by
    rw [hp, findParts, hpl, ht]
    simp only [readOver_lab]
    rcases h with rfl | rfl <;> rfl
  rw [load, hpa]
  rfl

def labSearch : Request := ⟨.callTool (.str "search"), [("gene", "BRAF")]⟩

lemma resolve_lab_path : resolve labMachine "@biomcp/search?gene=BRAF" [] = .ok (labSettings, labSearch) := by
  have hc : S.cutOnce "?" "biomcp/search?gene=BRAF" = some ("biomcp/search", "gene=BRAF") := by decide +kernel
  have hq : queryGroups false "gene=BRAF" = [("gene", ["BRAF"])] := by decide +kernel
  have hp : S.cutOnce "/" "biomcp/search" = some ("biomcp", "search") := by decide +kernel
  have hs : S.dropStart? "@" "@biomcp/search?gene=BRAF" = some "biomcp/search?gene=BRAF" := by decide +kernel
  simp only [resolve, hs, cutQuery, hc, ofQuery, hq, hp, load_lab (.inr rfl)]
  rfl

lemma resolve_lab_parameter : resolve labMachine "@biomcp?tool=search&gene=BRAF" [] = .ok (labSettings, labSearch) := by
  have hc : S.cutOnce "?" "biomcp?tool=search&gene=BRAF" = some ("biomcp", "tool=search&gene=BRAF") := by decide +kernel
  have hq : queryGroups false "tool=search&gene=BRAF" = [("tool", ["search"]), ("gene", ["BRAF"])] := by decide +kernel
  have hp : S.cutOnce "/" "biomcp" = none := by decide +kernel
  have hs : S.dropStart? "@" "@biomcp?tool=search&gene=BRAF" = some "biomcp?tool=search&gene=BRAF" := by decide +kernel
  simp only [resolve, hs, cutQuery, hc, ofQuery, hq, hp, load_lab (.inl rfl)]
  rfl

/-- A search is done as the reference says when the tool stands in its path. -/
theorem obeys_search_path : resolve labMachine "@biomcp/search?gene=BRAF" [] = .ok (labSettings, labSearch) ∧
    isSelected "@biomcp/search?gene=BRAF" [] = true ∧
    Obeys labMachine "@biomcp/search?gene=BRAF" [] labSettings labSearch :=
  ⟨resolve_lab_path, by decide +kernel, (obeys_iff resolve_lab_path rfl).mpr (.inl (by decide +kernel))⟩

/-- When the tool is a parameter, the same request is resolved, but all that the server has is listed instead. -/
theorem not_obeys_search_parameter : resolve labMachine "@biomcp?tool=search&gene=BRAF" [] = .ok (labSettings, labSearch) ∧
    Performs {} labSettings [⟨.listTools, []⟩, ⟨.listResources, []⟩]
      (read Act.deliver {} "@biomcp?tool=search&gene=BRAF" .null []) labMachine ∧
    ¬ Obeys labMachine "@biomcp?tool=search&gene=BRAF" [] labSettings labSearch := by
  have hpath : hasPath "@biomcp?tool=search&gene=BRAF" = false := by decide +kernel
  have hselected : isSelected "@biomcp?tool=search&gene=BRAF" [] = true := by decide +kernel
  obtain ⟨s', htools⟩ := outcome_perform_listTools labSettings rfl labMachine
  exact ⟨resolve_lab_parameter, performs_of_no_path resolve_lab_parameter hpath rfl htools,
    not_obeys_of_no_path resolve_lab_parameter rfl hpath hselected⟩

end Sluice.Mcp
