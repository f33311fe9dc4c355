import Sluice.Evaluation.Conversation
import Sluice.Proofs.Machine.Session

/-!
# Calls of tools and their results

A reply that asks for several tools is followed by the result of the first call alone (`Transcript`).
-/

namespace Sluice.Evaluation

open List Message Act Option

def blocksFrom (role : String) (message : Value) : List Fields :=
  match message.get? "role", message.get? "content" with
  | some (.str r), some (.list items) =>
    if r = role then items.filterMap fun
      | .map block => some block
      | _ => none
    else []
  | _, _ => []

def idsOf (type key : String) (blocks : List Fields) : List Value :=
  blocks.filterMap fun b =>
    match Fields.get? "type" b with
    | some (.str t) => if t = type then Fields.get? key b else none
    | _ => none

def callIds (message : Value) : List Value := idsOf "tool_use" "id" (blocksFrom "assistant" message)

def resultIds (message : Value) : List Value := idsOf "tool_result" "tool_use_id" (blocksFrom "user" message)

def Once (a : Value) (l : List Value) : Prop := ∃ before after, l = before ++ a :: after ∧ a ∉ before ∧ a ∉ after

/-- **Calls and results belong together**: each call has exactly one result in the next message, and each result its call
in the message before. -/
structure Answered (messages : List Value) : Prop where
  calls : ∀ before m after, messages = before ++ m :: after → ∀ id ∈ callIds m,
    ∃ next rest, after = next :: rest ∧ Once id (resultIds next)
  results : ∀ before m after, messages = before ++ m :: after → ∀ id ∈ resultIds m,
    ∃ earlier previous, before = earlier ++ [previous] ∧ id ∈ callIds previous

def Reply.callIds (r : Reply) : List Value := idsOf "tool_use" "id" r.blocks

def Reply.AsksOnce (r : Reply) : Prop := ∀ a ∈ r.callIds, ∀ b ∈ r.callIds, a = b

lemma callIds_reply (blocks) : callIds (reply blocks).toValue = idsOf "tool_use" "id" blocks := by
  have hb : blocksFrom "assistant" (reply blocks).toValue = blocks := by
    change List.filterMap _ (blocks.map Value.map) = blocks
    rw [filterMap_map]
    exact filterMap_some
  rw [callIds, hb]

lemma resultIds_result (call text) : resultIds (result call text).toValue = [call] := rfl

lemma beq_str {v : Value} {s} : (v == .str s) ↔ v = .str s := by
  constructor
  · intro h
    cases v with
    | str a => rw [show a = s from eq_of_beq h]
    | _ => cases h
  · rintro rfl
    exact beq_self_eq_true s

lemma idsOf_firstCall {blocks call id} (h : firstCall blocks = .ok call)
    (hid : part call "id" = .ok id) : ∃ later, idsOf "tool_use" "id" blocks = id :: later := by
  induction blocks with
  | nil => cases h
  | cons b blocks ih =>
    cases hty : Fields.get? "type" b with
    | none =>
      simp only [firstCall, part, hty] at h
      cases h
    | some ty =>
      simp only [firstCall, part, hty, bind, Except.bind] at h
      split at h
      · rename_i heq
        obtain rfl := beq_str.mp heq
        obtain rfl := Except.ok.inj h
        unfold part at hid
        split at hid
        · rename_i v hv
          obtain rfl := Except.ok.inj hid
          simp [idsOf, hty, hv]
        · cases hid
      · rename_i hne
        obtain ⟨later, hl⟩ := ih h
        refine ⟨later, ?_⟩
        rw [← hl, idsOf, idsOf, filterMap_cons_none]
        rw [hty]
        cases ty with
        | str t =>
          have ht : t ≠ "tool_use" := fun heq => hne (beq_str.mpr (by rw [heq]))
          simp [ht]
        | _ => rfl

/-! ## Transcripts -/

/-- **The messages that are sent after some replies**: the question, and each reply with the result of its first call. -/
inductive Transcript (question : String) : List Reply → List Message → Prop
  | start : Transcript question [] [.question question]
  | answered {done : List Reply} {messages : List Message} {reply : Reply} {call : Block} {id : Value}
      (before : Transcript question done messages) (asks : reply.asksForTools = true)
      (first : firstCall reply.blocks = .ok call) (named : part call "id" = .ok id) (text : String) :
      Transcript question (done ++ [reply]) (messages ++ [.reply reply.blocks, .result id text])

lemma Answered.question (text) : Answered [(question text).toValue] := by
  constructor <;>
  · intro b m a h id hid
    have hm : m ∈ [(Message.question text).toValue] := h ▸ mem_append_right _ (.head _)
    rw [mem_singleton.mp hm] at hid
    cases hid

section Extended

variable {messages : List Value} {blocks : List Block} {call : Value} {text : String}

lemma split_extended {before after m a b} (h : messages ++ [a, b] = before ++ m :: after) :
    (∃ mid, messages = before ++ m :: mid ∧ after = mid ++ [a, b]) ∨ (before = messages ∧ m = a ∧ after = [b]) ∨
      before = messages ++ [a] ∧ m = b ∧ after = [] := by
  rcases append_eq_append_iff.mp h with ⟨mid, hb, hr⟩ | ⟨mid, hm, hr⟩
  · rcases mid with _ | ⟨x, _ | ⟨y, mid⟩⟩
    · obtain ⟨rfl, rfl⟩ := List.cons.inj hr
      exact .inr (.inl ⟨by simpa using hb, rfl, rfl⟩)
    · have ho : a = x ∧ b = m ∧ [] = after := by simpa using hr
      obtain ⟨rfl, rfl, rfl⟩ := ho
      exact .inr (.inr ⟨hb, rfl, rfl⟩)
    · have hl := congrArg List.length hr
      simp at hl
  · rcases mid with _ | ⟨x, mid⟩
    · obtain ⟨rfl, rfl⟩ := List.cons.inj hr
      exact .inr (.inl ⟨by simpa using hm.symm, rfl, rfl⟩)
    · obtain ⟨rfl, rfl⟩ := List.cons.inj hr
      exact .inl ⟨mid, hm, rfl⟩

lemma answered_extended {later} (hc : idsOf "tool_use" "id" blocks = call :: later)
    (hla : ∀ earlier m, messages = earlier ++ [m] → callIds m = []) :
    Answered (messages ++ [(reply blocks).toValue, (result call text).toValue]) ↔
      Answered messages ∧ ∀ id ∈ later, id = call := by
  constructor
  · intro h
    refine ⟨⟨fun b m a hm id hid => ?_, fun b m a hm id hid => ?_⟩, fun id hid => ?_⟩
    · obtain ⟨next, rest, hn, ho⟩ := h.calls b m _ (by rw [hm, List.append_assoc, cons_append]) id hid
      cases a with
      | nil =>
        -- the last message so far has no calls
        rw [hla b m hm] at hid
        cases hid
      | cons x a =>
        obtain ⟨rfl, -⟩ := List.cons.inj hn
        exact ⟨x, a, rfl, ho⟩
    · exact h.results b m _ (by rw [hm, List.append_assoc, cons_append]) id hid
    · have hmem : id ∈ callIds (reply blocks).toValue := by
        rw [callIds_reply, hc]
        exact .tail _ hid
      obtain ⟨next, rest, hn, b, a, ho, -, -⟩ := h.calls messages _ _ rfl id hmem
      obtain ⟨rfl, -⟩ := List.cons.inj hn
      have hr : id ∈ resultIds (result call text).toValue := by
        rw [ho]
        exact mem_append_right _ (.head _)
      exact mem_singleton.mp hr
  · rintro ⟨h, hl⟩
    constructor
    · intro b m a hm id hid
      rcases split_extended hm with ⟨mid, hme, rfl⟩ | ⟨rfl, rfl, rfl⟩ | ⟨rfl, rfl, rfl⟩
      · obtain ⟨next, rest, rfl, ho⟩ := h.calls b m mid hme id hid
        exact ⟨next, _, rfl, ho⟩
      · have hid' : id = call := by
          rw [callIds_reply, hc] at hid
          rcases mem_cons.mp hid with rfl | hid
          · rfl
          · exact hl id hid
        subst hid'
        exact ⟨_, [], rfl, [], [], rfl, not_mem_nil, not_mem_nil⟩
      · cases hid
    · intro b m a hm id hid
      rcases split_extended hm with ⟨mid, hme, rfl⟩ | ⟨rfl, rfl, rfl⟩ | ⟨rfl, rfl, rfl⟩
      · exact h.results b m mid hme id hid
      · cases hid
      · refine ⟨messages, _, rfl, ?_⟩
        rw [callIds_reply, hc, mem_singleton.mp hid]
        exact mem_cons_self ..

end Extended

variable {question : String} {done : List Reply} {messages : List Message}

lemma Transcript.last (h : Transcript question done messages) :
    ∀ earlier m, messages.map toValue = earlier ++ [m] → callIds m = [] := by
  intro earlier m hm
  have hl := congrArg List.getLast? hm
  rw [getLast?_concat] at hl
  cases h with
  | start =>
    obtain rfl := some.inj hl
    rfl
  | answered before asks first named text =>
    simp only [map_append, getLast?_append] at hl
    obtain rfl := some.inj hl
    rfl

/-- **When the calls in a transcript have their results**: exactly if each reply asks for a single one. -/
lemma answered_iff (h : Transcript question done messages) : Answered (messages.map toValue) ↔ ∀ r ∈ done, r.AsksOnce := by
  induction h with
  | start => exact ⟨fun _ r hr => (by cases hr), fun _ => Answered.question question⟩
  | @answered done messages reply call id before asks first named text ih =>
    obtain ⟨later, hc⟩ := idsOf_firstCall first named
    have ho : reply.AsksOnce ↔ ∀ b ∈ later, b = id := by
      rw [Reply.AsksOnce, Reply.callIds, hc]
      constructor
      · intro h b hb
        exact h b (.tail _ hb) id (.head _)
      · intro h a ha b hb
        have hal : ∀ x ∈ id :: later, x = id := forall_mem_cons.mpr ⟨rfl, h⟩
        rw [hal a ha, hal b hb]
    rw [map_append, map_cons, map_cons, map_nil, answered_extended hc before.last, ih, ← ho,
      forall_mem_append, forall_mem_singleton]

/-! ## Requests -/

def sent? : Value → Option (List Value)
  | .list [.str "create", _, _, .list messages, _] => some messages
  | _ => none

def sentLists (calls : List Value) : List (List Value) := calls.filterMap sent?

def request (model : Model) (messages : List Message) : Value :=
  .list ["create", model.name, .int 4096, .list (messages.map (·.toValue)), .list model.tools]

lemma sentLists_request (model messages calls) :
    sentLists (request model messages :: calls) = messages.map toValue :: sentLists calls := rfl

def Continues (question : String) (done rest : List Reply) (lists : List (List Message)) : Prop :=
  ∀ k messages, lists[k]? = some messages → Transcript question (done ++ rest.take k) messages

variable {reply : Reply}

lemma Continues.cons {rest lists} (hf : Transcript question done messages)
    (hr : Continues question (done ++ [reply]) rest lists) :
    Continues question done (reply :: rest) (messages :: lists) := by
  intro k ms hms
  cases k with
  | zero =>
    obtain rfl := some.inj hms
    simpa using hf
  | succ k =>
    have hl := hr k ms hms
    rwa [List.append_assoc] at hl

/-- **What a run of a conversation sends**, however it ends: each request answers one reply more, if it ends well up to
the first that asks for no tool. -/
def Sends (act : Act Ended) (question : String) (done rest : List Reply) : Prop :=
  ∀ s, ∃ (calls : List Value) (lists : List (List Message)), (act.outcome s).2.calls = calls.reverse ++ s.calls ∧
    sentLists calls = lists.map (·.map toValue) ∧ Continues question done rest lists ∧
    ∀ ended, (act.outcome s).1 = .ok ended → ∃ used last, done ++ rest = used ++ last :: ended.left ∧
      lists.length + done.length = used.length + 1 ∧ (∀ r ∈ used, r.asksForTools) ∧ last.asksForTools = false

variable {model : Model}

namespace Sends

variable {α : Type} {rest : List Reply}

lemma fail (f) : Sends (fail f) question done rest := by
  intro s
  exact ⟨[], [], rfl, rfl, fun k messages hk => (by cases hk), fun e he => (by cases he)⟩

variable {next : α → Act Ended}

lemma bind {act quiet} (ha : act.Notes quiet)
    (hq : sentLists quiet = []) (h : ∀ a, Sends (next a) question done rest) : Sends (act >>= next) question done rest := by
  intro s
  have hs := ha s
  rw [outcome_bind]
  rcases hr : act.outcome s with ⟨_ | a, s'⟩
  · rw [hr] at hs
    exact ⟨quiet, [], hs, hq, fun k messages hk => (by cases hk), fun e he => (by cases he)⟩
  · rw [hr] at hs
    obtain ⟨calls, l, hca, hse, hc, he⟩ := h a s'
    refine ⟨quiet ++ calls, l, ?_, ?_, hc, he⟩
    · rw [hca, hs, reverse_append, List.append_assoc]
    · rw [sentLists, filterMap_append, ← sentLists, ← sentLists, hq, hse, nil_append]

lemma get {next} (h : ∀ s, Sends (next s) question done rest) : Sends (MonadState.get >>= next) question done rest := by
  have hq : (MonadState.get : Act Session).Notes [] := fun _ => rfl
  exact bind hq rfl h

lemma ofResult {r} (h : ∀ a, r = .ok a → Sends (next a) question done rest) :
    Sends (ofResult r >>= next) question done rest := by
  cases r with
  | ok a => exact h a rfl
  | error f => exact Sends.fail f

lemma pure {ended} (hd : ∀ r ∈ done, r.asksForTools) (hr : reply.asksForTools = false) (hl : ended.left = rest) :
    Sends (Pure.pure ended) question (done ++ [reply]) rest := by
  intro s
  refine ⟨[], [], rfl, rfl, fun k messages hk => (by cases hk), fun o ho => ?_⟩
  obtain rfl := Except.ok.inj ho
  exact ⟨done, reply, by rw [hl, List.append_assoc]; rfl, by simp, hd, hr⟩

lemma ask {next : Reply × List Reply → Act Ended} (hm : Transcript question done messages)
    (hn : ∀ r rs, rest = r :: rs → Sends (next (r, rs)) question (done ++ [r]) rs) :
    Sends (Evaluation.ask model messages rest >>= next) question done rest := by
  intro s
  cases rest with
  | nil =>
    refine ⟨[request model messages], [messages], rfl, sentLists_request model messages [], fun k ms hk => ?_,
      fun e he => (by cases he)⟩
    cases k with
    | zero =>
      obtain rfl := some.inj hk
      simpa using hm
    | succ k => cases hk
  | cons r rs =>
    obtain ⟨calls, l, hca, hs, hc, he⟩ := hn r rs rfl
      { s with calls := request model messages :: s.calls, clock := s.clock + r.seconds }
    refine ⟨request model messages :: calls, messages :: l, ?_, ?_, .cons hm hc, fun e h => ?_⟩
    · refine Eq.trans hca ?_
      rw [reverse_cons, List.append_assoc]
      rfl
    · rw [sentLists_request, hs, map_cons]
    · obtain ⟨u, last, hu, hl, hla⟩ := he e h
      refine ⟨u, last, ?_, ?_, hla⟩
      · rw [← hu, List.append_assoc, singleton_append]
      · rw [length_append, length_singleton] at hl
        rw [length_cons]
        omega

end Sends

lemma Transcript.asks (h : Transcript question done messages) : ∀ r ∈ done, r.asksForTools := by
  induction h with
  | start => exact fun r hr => (by cases hr)
  | answered before asks first named text ih => exact forall_mem_append.mpr ⟨ih, forall_mem_singleton.mpr asks⟩

lemma notes_runTool (peer name arguments) : (runTool peer name arguments).Notes [.list ["call_tool", name, arguments]] := by
  have hc : (peer.callTool name arguments).Notes [.list ["call_tool", name, arguments]] :=
    notes_log_bind (notes_bind (fun _ => rfl) fun _ => notes_ofResult _)
  refine notes_bind (notes_attempt (notes_bind hc fun _ => notes_ofResult _)) fun r => ?_
  cases r with
  | ok text => exact notes_pure _
  | error f => exact notes_pure _

/-- **A conversation goes on** from a transcript: the reply is answered by the result of its first call. -/
lemma converse_sends {peer} (h : Transcript question done messages) (fuel reply uses replies) :
    Sends (converse peer model fuel reply messages uses replies) question (done ++ [reply]) replies := by
  induction fuel generalizing done messages reply uses replies with
  | zero => exact Sends.fail _
  | succ fuel ih =>
    rw [converse]
    cases has : reply.asksForTools with
    | false => exact Sends.pure h.asks has rfl
    | true =>
      refine Sends.ofResult fun call hc => Sends.ofResult fun name _ => Sends.ofResult fun arguments _ => ?_
      refine Sends.get fun start => Sends.bind (notes_runTool peer name arguments) rfl fun text => ?_
      refine Sends.get fun now => Sends.ofResult fun id hid => ?_
      have ha := h.answered has hc hid text
      rw [List.append_assoc]
      exact Sends.ask ha fun r rs _ => ih ha r _ rs

/-- **The requests of a conversation**, whatever the model replies and the tools give. The messages sent with the request
after `k` replies are the transcript of these replies, and all calls have their results exactly if each of these replies
asks for a single one. A conversation that ends well has sent a request for each reply up to the first one that asks for no
tool. -/
theorem requests_answered_iff (peer : Mcp.Peer) (model : Model) (question : String) (replies : List Reply) (s : Session) :
    ∃ (calls : List Value) (lists : List (List Message)),
      ((answerQuestion peer model question replies).outcome s).2.calls = calls.reverse ++ s.calls ∧
      sentLists calls = lists.map (·.map Message.toValue) ∧
      (∀ k messages, lists[k]? = some messages → Transcript question (replies.take k) messages ∧
        (Answered (messages.map Message.toValue) ↔ ∀ r ∈ replies.take k, r.AsksOnce)) ∧
      ∀ ended, ((answerQuestion peer model question replies).outcome s).1 = .ok ended →
        ∃ used last, replies = used ++ last :: ended.left ∧ lists.length = used.length + 1 ∧
          (∀ r ∈ used, r.asksForTools = true) ∧ last.asksForTools = false := by
  have hsends : Sends (answerQuestion peer model question replies) question [] replies :=
    Sends.ask .start fun r rs _ => converse_sends .start (rs.length + 1) r [] rs
  obtain ⟨calls, lists, hcalls, hsent, hcontinues, hended⟩ := hsends s
  refine ⟨calls, lists, hcalls, hsent, fun k messages hk => ?_, hended⟩
  have htranscript := hcontinues k messages hk
  exact ⟨htranscript, answered_iff htranscript⟩

def twoCalls : Reply :=
  { stopReason := .str "tool_use"
    blocks := [[("type", "tool_use"), ("id", "t1"), ("name", "add"), ("input", .map [])],
      [("type", "tool_use"), ("id", "t2"), ("name", "add"), ("input", .map [])]] }

def lastReply : Reply := { blocks := [[("type", "text"), ("text", "done")]] }

/-- Of two calls in a reply only the first one has a result in the next request. -/
theorem not_answered_twoCalls :
    ∃ sent, sentLists ((answerQuestion {} ⟨"m", []⟩ "q" [twoCalls, lastReply]).outcome {}).2.calls.reverse =
        [[(Message.question "q").toValue], sent] ∧
      sent = [(Message.question "q").toValue, (Message.reply twoCalls.blocks).toValue,
        (Message.result (.str "t1") "None").toValue] ∧ ¬ Answered sent := by
  refine ⟨[(question "q").toValue, (reply twoCalls.blocks).toValue,
    (result (.str "t1") "None").toValue], rfl, rfl, fun h => ?_⟩
  obtain ⟨next, rest, hnext, before, after, honce, -, -⟩ := h.calls [(question "q").toValue]
    (reply twoCalls.blocks).toValue _ rfl (.str "t2") (by simp [callIds_reply, twoCalls, idsOf, Fields.get?])
  obtain ⟨rfl, -⟩ := List.cons.inj hnext
  have hmem : Value.str "t2" ∈ resultIds (result (.str "t1") "None").toValue := by
    rw [honce]
    exact List.mem_append_right _ (List.mem_cons_self ..)
  rw [resultIds_result, List.mem_singleton] at hmem
  simp at hmem

end Sluice.Evaluation
