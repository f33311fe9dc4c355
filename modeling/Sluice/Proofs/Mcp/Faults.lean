import Sluice.Proofs.Mcp.Dispatch

/-! # Servers that fail -/

namespace Sluice.Mcp

open List Text Act Fields

variable {α β : Type} {server : Server} {settings : Fields}

/-- The last thing that was done is that both streams were closed. -/
def IsReleased (s : Session) : Prop := ∃ calls, s.calls = .list ["stream_close"] :: .list ["stream_close"] :: calls

lemma isReleased_during_iff (hc : settings.has "command" = true) (hco : server.connect = .ok ())
    (act : Act α) (s) : IsReleased ((server.during settings act).outcome s).2 ↔
      server.closeSession = .ok () ∧ server.closeStream = .ok () := by
  obtain ⟨command, hg⟩ := Option.isSome_iff_exists.mp hc
  obtain ⟨calls, hca⟩ : ∃ calls, ((server.during settings act).outcome s).2.calls = server.farewell.reverse ++ calls := by
    rw [Server.during, Server.open, hg, hco]
    exact ⟨_, calls_ensuring (notes_close server) _ _⟩
  rw [IsReleased, hca, Server.farewell]
  cases server.closeSession with
  | error f => simp
  | ok u => cases server.closeStream <;> simp

/-- **When a connection is released**: exactly if neither the end of the session nor that of a stream fails. -/
theorem released_iff {server : Server} {settings : Fields} (hcommand : settings.has "command" = true)
    (hconnect : server.connect = .ok ()) (request : Request) (tool : Value) (s : Session) :
    (IsReleased ((server.perform settings request).outcome s).2 ↔
        server.closeSession = .ok () ∧ server.closeStream = .ok ()) ∧
      (IsReleased ((writeLines server settings tool).outcome s).2 ↔
        server.closeSession = .ok () ∧ server.closeStream = .ok ()) :=
  ⟨isReleased_during_iff hcommand hconnect _ s, isReleased_during_iff hcommand hconnect _ s⟩

/-- A server that refuses the greeting is left properly. -/
theorem released_unwelcome : labSettings.has "command" = true ∧
    IsReleased ((Server.perform { greet := .error ⟨.failure, "m"⟩ } labSettings labSearch).outcome {}).2 :=
  ⟨rfl, ((released_iff rfl rfl labSearch .null {}).1).mpr ⟨rfl, rfl⟩⟩

/-- A session that fails at its end leaves the streams open. -/
theorem not_released_of_session : ¬ IsReleased
    ((Server.perform { closeSession := .error ⟨.failure, "m"⟩ } labSettings labSearch).outcome {}).2 := by
  intro h
  cases ((isReleased_during_iff rfl rfl _ _).mp h).1

/-! ## What a reader gets to see -/

variable {act : Act α} {next : α → Act β} {after : Act Unit} {a : α} {v : Value} {P : α → Prop} {Q : β → Prop}

/-- The call was not interrupted by the user, however it ended. -/
def IsOrdinary (r : Result α) : Prop := ∀ f, r = .error f → f.kind.isOrdinary

def Ends (P : α → Prop) : Except Stop α → Prop
  | .ok a => P a
  | .error (.fault f) => f.kind.isOrdinary
  | .error _ => False

/-- A part that hands on nothing and ends with a value that has this property, or with an ordinary fault. -/
def Calm (act : Act α) (P : α → Prop) : Prop := ∀ s, (act.outcome s).2.delivered = s.delivered ∧ Ends P (act.outcome s).1

lemma calm_pure (h : P a) : Calm (pure a) P := fun _ => ⟨rfl, h⟩

lemma calm_ofResult {r : Result α} (h : IsOrdinary r) : Calm (ofResult r) fun _ => True := by
  intro s
  cases r with
  | ok a => exact ⟨rfl, trivial⟩
  | error f => exact ⟨rfl, h f rfl⟩

lemma calm_call {name args} {r : Result α} (h : IsOrdinary r) : Calm (call name args r) fun _ => True :=
  fun s => calm_ofResult h { s with calls := .list (name :: args) :: s.calls }

lemma calm_ofResult_bind {r g} (h : Calm (ofResult r) P) (hg : ∀ a, P a → Calm (ofResult (g a)) Q) :
    Calm (ofResult (r >>= g)) Q := by
  cases r with
  | ok a => exact hg a (h {}).2
  | error f => exact h

lemma Calm.bind (h : Calm act P) (hn : ∀ a, P a → Calm (next a) Q) : Calm (act >>= next) Q := by
  intro s
  have hs := h s
  rw [outcome_bind]
  rcases hr : act.outcome s with ⟨stop | a, s'⟩ <;> rw [hr] at hs
  · exact ⟨hs.1, by cases stop <;> exact hs.2⟩
  · obtain ⟨hd, he⟩ := hn a hs.2 s'
    exact ⟨hd.trans hs.1, he⟩

/-- A part that ends well, with a value and records handed on that have this property together. -/
def Yields (act : Act α) (R : α → List Value → Prop) : Prop :=
  ∀ s, ∃ a records s', act.outcome s = (.ok a, s') ∧ s'.delivered = records.reverse ++ s.delivered ∧ R a records

lemma yields_pure {R} (h : R a []) : Yields (pure a) R := fun s => ⟨a, [], s, rfl, rfl, h⟩

lemma yields_deliver {R : Unit → List Value → Prop} (h : R () [v]) : Yields (deliver v) R := fun _ => ⟨(), [v], _, rfl, rfl, h⟩

lemma Yields.bind {R R'} (h : Yields act R)
    (hn : ∀ a records, R a records → Yields (next a) fun b more => R' b (records ++ more)) : Yields (act >>= next) R' := by
  intro s
  obtain ⟨a, records, s1, hru, hr, ha⟩ := h s
  obtain ⟨b, more, s2, hru', hm, hb⟩ := hn a records ha s1
  refine ⟨b, records ++ more, s2, (bind_of_ok hru).trans hru', ?_, hb⟩
  rw [hm, hr, reverse_append, List.append_assoc]

lemma Yields.mono {R R'} (h : Yields act R) (hR : ∀ a records, R a records → R' a records) : Yields act R' := by
  intro s
  obtain ⟨a, records, s', hru, hr, ha⟩ := h s
  exact ⟨a, records, s', hru, hr, hR a records ha⟩

lemma yields_attempt (h : Calm act P) : Yields (attempt act) fun r records => records = [] ∧ ∀ a, r = .ok a → P a := by
  intro s
  have hs := h s
  rcases hr : act.outcome s with ⟨(f | _ | _) | a, s'⟩ <;> rw [hr] at hs
  · exact ⟨_, [], s', outcome_attempt_of_fault hr hs.2, hs.1, rfl, fun a ha => by cases ha⟩
  · exact hs.2.elim
  · exact hs.2.elim
  · exact ⟨_, [], s', outcome_attempt_of_ok hr, hs.1, rfl, fun b hb => Except.ok.inj hb ▸ hs.2⟩

lemma Yields.calm {R} (h : Yields act R) (hR : ∀ a records, R a records → records = []) : Calm act fun _ => True := by
  intro s
  obtain ⟨a, records, s', hru, hr, ha⟩ := h s
  obtain rfl := hR a records ha
  rw [hru]
  exact ⟨hr, trivial⟩

lemma Calm.ensuring (h : Calm act P) (ha : Calm after fun _ => True) : Calm (ensuring act after) P := by
  intro s
  obtain ⟨hd, he⟩ := h s
  rw [Act.ensuring, bind_of_ok (outcome_observe act s), ← hd]
  refine ha.bind (fun _ _ t => ?_) (act.outcome s).2
  generalize (act.outcome s).1 = r at he ⊢
  rcases r with (f | _ | _) | a
  · exact ⟨rfl, he⟩
  · exact he.elim
  · exact he.elim
  · exact ⟨rfl, he⟩

/-- No call to the server is interrupted. -/
structure Server.IsOrdinary (server : Server) : Prop where
  connect : Mcp.IsOrdinary server.connect
  greet : Mcp.IsOrdinary server.greet
  tools : Mcp.IsOrdinary server.tools
  resources : Mcp.IsOrdinary server.resources
  contents : ∀ uri, Mcp.IsOrdinary (server.contents uri)
  results : ∀ tool args, Mcp.IsOrdinary (server.results tool args)
  closeSession : Mcp.IsOrdinary server.closeSession
  closeStream : Mcp.IsOrdinary server.closeStream

def isError : Value → Bool
  | .map fields => has fields "_error"
  | _ => false

lemma calm_mapM {p} {f : α → Result β} (h : ∀ a, Calm (ofResult (f a)) p) (items : List α) :
    Calm (ofResult (items.mapM f)) fun bs => ∀ b ∈ bs, p b := by
  induction items with
  | nil => exact calm_pure (by simp)
  | cons a items ih =>
    rw [mapM_cons]
    exact calm_ofResult_bind (h a) fun b hb => calm_ofResult_bind ih fun bs hbs => calm_pure (forall_mem_cons.mpr ⟨hb, hbs⟩)

lemma calm_part (item name) : Calm (ofResult (part item name)) fun _ => True := by
  rw [part]
  split <;> exact fun _ => ⟨rfl, by trivial⟩

lemma yields_emitUpTo {p : Value → Prop} {records : List Fields} (h : ∀ r ∈ records, p (.map r)) (limit count) :
    Yields (emitUpTo deliver limit count records) fun _ shown => ∀ v ∈ shown, p v := by
  induction records generalizing count with
  | nil => exact yields_pure (by simp)
  | cons r rs ih =>
    obtain ⟨hr, hrs⟩ := forall_mem_cons.mp h
    refine (yields_deliver (R := fun _ shown => ∀ v ∈ shown, p v) (by simpa using hr)).bind fun _ shown hs => ?_
    rcases limit.reached (count + 1) with f | _ | _
    · exact yields_pure (by simpa using hs)
    · exact (ih hrs (count + 1)).mono fun _ m hm => forall_mem_append.mpr ⟨hs, hm⟩
    · exact yields_pure (by simpa using hs)

section Ends

variable {shown : List Value} (h : ∀ v ∈ shown, isError v = false)

include h

lemma yields_last (v) : Yields (deliver v) fun _ more => ∀ r ∈ (shown ++ more).dropLast, isError r = false :=
  yields_deliver (by rwa [dropLast_concat])

lemma yields_end : Yields (pure ()) fun _ more => ∀ r ∈ (shown ++ more).dropLast, isError r = false :=
  yields_pure fun r hr => h r (by simpa using dropLast_subset _ hr)

end Ends

section

variable (h : server.IsOrdinary)

include h

lemma calm_answer (request) : Calm (server.answer request) fun records => ∀ r ∈ records, isError (.map r) = false := by
  obtain ⟨o, p⟩ := request
  cases o with
  | listTools =>
    refine (calm_call h.tools).bind fun items _ => calm_mapM (fun item => ?_) items
    exact calm_ofResult_bind (calm_part item _) fun _ _ => calm_ofResult_bind (calm_part item _) fun _ _ => calm_pure rfl
  | listResources =>
    refine (calm_call h.resources).bind fun items _ => calm_mapM (fun item => ?_) items
    exact calm_ofResult_bind (calm_part item _) fun _ _ => calm_ofResult_bind (calm_part item _) fun _ _ => calm_pure rfl
  | readResource uri => exact (calm_call (h.contents uri)).bind fun _ _ => calm_pure (forall_mem_map.mpr fun _ _ => rfl)
  | callTool tool => exact (calm_call (h.results tool p)).bind fun _ _ => calm_pure (forall_mem_map.mpr fun _ _ => rfl)

lemma calm_close : Calm server.close fun _ => True := by
  refine ((yields_attempt (P := fun _ => True) ?_).calm fun _ _ h => h.1).bind fun r _ => ?_
  · exact (calm_call h.closeSession).bind fun _ _ => (calm_call h.closeStream).bind fun _ _ => calm_call h.closeStream
  · cases r with
    | error f => exact fun _ => ⟨rfl, trivial⟩
    | ok u => exact calm_pure trivial

/-- **A request that is done** ends with records that tell of no error, or with an ordinary fault. -/
lemma calm_perform (settings request) :
    Calm (server.perform settings request) fun records => ∀ r ∈ records, isError (.map r) = false := by
  refine Calm.bind (P := fun _ => True) ?_ fun _ _ =>
    ((calm_call h.greet).bind fun _ _ => calm_answer h request).ensuring (calm_close h)
  rw [Server.open]
  split
  · exact fun _ => ⟨rfl, rfl⟩
  · exact calm_call h.connect

lemma yields_emitRecords {mark : Fields → Fields} (hm : ∀ r, isError (.map (mark r)) = isError (.map r))
    (settings request limit count) :
    Yields (emitRecords deliver server settings request mark limit count) fun _ shown => ∀ v ∈ shown, isError v = false := by
  refine (yields_attempt (calm_perform h settings request)).bind fun r shown hr => ?_
  obtain ⟨rfl, hr⟩ := hr
  cases r with
  | error f => exact yields_pure (by simp)
  | ok records => exact yields_emitUpTo (forall_mem_map.mpr fun r hr' => (hm r).trans (hr records rfl r hr')) limit count

lemma yields_emitAnswer (settings request limit) :
    Yields (emitAnswer deliver server settings request limit) fun _ shown => ∀ v ∈ shown.dropLast, isError v = false := by
  refine (yields_emitRecords h (fun _ => rfl) settings request limit 0).bind fun r shown hs => ?_
  cases r with
  | error f => exact yields_last hs _
  | ok n => exact yields_end hs

lemma yields_emitEverything (settings url limit) :
    Yields (emitEverything deliver server settings url limit) fun _ shown => ∀ v ∈ shown.dropLast, isError v = false := by
  have hm (type : String) (r : Fields) : isError (.map (contained type url r)) = isError (.map r) := by
    simp [isError, contained, has, get?_set_of_ne]
  refine (yields_emitRecords h (hm "tool") settings _ limit 0).bind fun r shown hs => ?_
  rcases r with f | ⟨count, _ | _⟩
  · exact yields_last hs _
  · refine (yields_emitRecords h (hm "resource") settings _ limit count).bind fun r m hmo => ?_
    have ha := forall_mem_append.mpr ⟨hs, hmo⟩
    simp only [← List.append_assoc]
    cases r with
    | error f => exact yields_last ha _
    | ok n => exact yields_end ha
  · exact yields_end hs

lemma outcome_emitAnswer_of_fault {request s s' f}
    (hru : (server.perform settings request).outcome s = (.error (.fault f), s')) (limit) :
    (emitAnswer deliver server settings request limit).outcome s = (deliver (faultRecord "mcp_error" f)).outcome s' := by
  have hs := calm_perform h settings request s
  rw [hru] at hs
  have hr : (emitRecords deliver server settings request id limit 0).outcome s = (.ok (.error f), s') :=
    bind_of_ok (outcome_attempt_of_fault hru hs.2)
  exact bind_of_ok hr

end

/-- **Reading raises nothing**: whatever goes wrong becomes one record, behind all others. It is the only one if the
reference cannot be resolved or the one operation it asks for fails. -/
theorem read_yields {server : Server} (h : server.IsOrdinary) (url : String) (limit : Value) (params : Fields) (s : Session) :
    ∃ records s', (read deliver server url limit params).outcome s = (.ok (), s') ∧ s'.delivered = records.reverse ++ s.delivered ∧
      (∀ r ∈ records.dropLast, isError r = false) ∧
      (∀ f, plan s url params = .error f → records = [resolutionRecord f]) ∧
      ∀ settings request f, plan s url params = .ok (.one settings request) →
        ((server.perform settings request).outcome s).1 = .error (.fault f) → records = [faultRecord "mcp_error" f] := by
  rw [read, bind_of_ok (outcome_get s)]
  rcases hplan : plan s url params with f | settings | ⟨settings, request⟩
  · exact ⟨[resolutionRecord f], _, rfl, rfl, by simp, by rintro _ ⟨⟩; rfl, by rintro _ _ _ ⟨⟩⟩
  · obtain ⟨_, records, s', hrun, hrecords, hclean⟩ := yields_emitEverything h settings url limit s
    exact ⟨records, s', hrun, hrecords, hclean, by rintro _ ⟨⟩, by rintro _ _ _ ⟨⟩⟩
  · by_cases hfails : ∃ f, ((server.perform settings request).outcome s).1 = .error (.fault f)
    · obtain ⟨f, hf⟩ := hfails
      have hrun := outcome_emitAnswer_of_fault h (Prod.ext hf rfl) limit
      refine ⟨[faultRecord "mcp_error" f], _, hrun, ?_, by simp, by rintro _ ⟨⟩, ?_⟩
      · exact congrArg (_ :: ·) (calm_perform h settings request s).1
      · rintro _ _ g ⟨⟩ hg
        cases hf.symm.trans hg
        rfl
    · obtain ⟨_, records, s', hrun, hrecords, hclean⟩ := yields_emitAnswer h settings request limit s
      refine ⟨records, s', hrun, hrecords, hclean, by rintro _ ⟨⟩, ?_⟩
      rintro _ _ g ⟨⟩ hg
      exact (hfails ⟨g, hg⟩).elim

def unwelcoming : Server := { greet := .error ⟨.failure, "m"⟩ }

lemma unwelcoming_isOrdinary : unwelcoming.IsOrdinary := by
  constructor <;> intros <;> rintro f ⟨⟩
  rfl

theorem read_yields_unwelcoming : unwelcoming.IsOrdinary ∧ ∃ s',
    (read deliver unwelcoming "@biomcp/search?gene=BRAF" .null []).outcome labMachine = (.ok (), s') ∧
      s'.delivered = [faultRecord "mcp_error" ⟨.failure, "m"⟩] := by
  obtain ⟨records, s', hrun, hrecords, -, -, hone⟩ :=
    read_yields unwelcoming_isOrdinary "@biomcp/search?gene=BRAF" .null [] labMachine
  have hplan := plan_of_resolve resolve_lab_path
  rw [show hasPath "@biomcp/search?gene=BRAF" = true by decide +kernel] at hplan
  rw [hone labSettings labSearch _ hplan rfl] at hrecords
  exact ⟨unwelcoming_isOrdinary, s', hrun, hrecords⟩

end Sluice.Mcp
