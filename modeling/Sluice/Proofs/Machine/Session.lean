import Sluice.Machine.Session
import Sluice.Proofs.Feed
import Sluice.Proofs.Text.Split

/-!
# How parts of a program end

`Act.outcome` runs a part from a session and gives its ending with the session that it leaves.
-/

namespace Sluice

open Text

variable {calls : List Value} {s s' : Session} {text : String}

/-- The session after more records were handed on and more calls made. -/
def Session.extended (s : Session) (records calls : List Value) : Session :=
  { s with delivered := records.reverse ++ s.delivered, calls := calls.reverse ++ s.calls }

@[simp] lemma Session.extended_extended (s : Session) (records calls records' calls') :
    (s.extended records calls).extended records' calls' = s.extended (records ++ records') (calls ++ calls') := by
  simp [Session.extended]

def Session.printed (s : Session) (lines : List String) : Session :=
  { s with out := (lines.map (· ++ "\n")).reverse ++ s.out }

namespace Act

variable {α β : Type} {act : Act α} {a : α} {next : α → Act β}

def outcome (act : Act α) (s : Session) : Except Stop α × Session := act.run.run s

@[simp] lemma outcome_pure (a s) : (pure a : Act α).outcome s = (.ok a, s) := rfl

@[simp] lemma outcome_get (s) : (get : Act Session).outcome s = (.ok s, s) := rfl

@[simp] lemma outcome_ofResult_ok (a : α) (s) : (ofResult (.ok a)).outcome s = (.ok a, s) := rfl

@[simp] lemma outcome_log (call s) : (log call).outcome s = (.ok (), { s with calls := call :: s.calls }) := rfl

@[simp] lemma outcome_deliver (v s) : (deliver v).outcome s = (.ok (), { s with delivered := v :: s.delivered }) := rfl

lemma outcome_ofResult_eq_ok {r} (h : (ofResult r).outcome s = (.ok a, s')) : r = .ok a ∧ s' = s := by
  cases r with
  | ok b =>
    obtain ⟨hr, rfl⟩ := Prod.mk.inj h
    exact ⟨by rw [Except.ok.inj hr], rfl⟩
  | error f =>
    obtain ⟨hr, -⟩ := Prod.mk.inj h
    cases hr

lemma outcome_bind (act : Act α) (next : α → Act β) (s : Session) : (act >>= next).outcome s = match act.outcome s with
      | (.ok a, s') => (next a).outcome s'
      | (.error stop, s') => (.error stop, s') := by
  rw [outcome, outcome, ExceptT.run_bind, StateT.run_bind]
  rcases StateT.run (ExceptT.run act) s with ⟨_ | _, s'⟩ <;> rfl

/-- A sequence whose first part ends well goes on with the second one. -/
lemma bind_of_ok (h : act.outcome s = (.ok a, s')) : (act >>= next).outcome s = (next a).outcome s' := by
  rw [outcome_bind, h]

lemma outcome_bind_eq_ok {b} : (act >>= next).outcome s = (.ok b, s') ↔
      ∃ a between, act.outcome s = (.ok a, between) ∧ (next a).outcome between = (.ok b, s') := by
  rw [outcome_bind]
  rcases act.outcome s with ⟨_ | a, between⟩
  · simp
  · constructor
    · intro h
      exact ⟨a, between, rfl, h⟩
    · rintro ⟨a', _, hf, h⟩
      obtain ⟨ha, rfl⟩ := Prod.mk.inj hf
      obtain rfl := Except.ok.inj ha
      exact h

lemma outcome_catchFault (act : Act α) (handle : Fault → Act α) (s : Session) :
    (catchFault act handle).outcome s = match act.outcome s with
      | (.error (.fault f), s') => (handle f).outcome s'
      | r => r := by
  rcases hr : act.outcome s with ⟨(f | _ | _) | _, s'⟩ <;>
    simp only [outcome, catchFault, tryCatch, tryCatchThe, MonadExceptOf.tryCatch, ExceptT.tryCatch, ExceptT.run_mk, StateT.run_bind] <;>
    have hr : StateT.run act s = _ := hr <;> rw [hr] <;> rfl

lemma outcome_forEach_deliver (records s) : (forEach records deliver).outcome s = (.ok (), s.extended records []) := by
  induction records generalizing s with
  | nil => rfl
  | cons r records ih =>
    rw [forEach, bind_of_ok (outcome_deliver r s), ih]
    simp [Session.extended]

lemma outcome_observe (act : Act α) (s) : (observe act).outcome s = (.ok (act.outcome s).1, (act.outcome s).2) := rfl

lemma outcome_attempt_of_ok (h : act.outcome s = (.ok a, s')) : (attempt act).outcome s = (.ok (.ok a), s') := by
  rw [attempt, bind_of_ok (outcome_observe act s), h]
  rfl

lemma outcome_attempt_of_fault {f} (h : act.outcome s = (.error (.fault f), s')) (hf : f.kind.isOrdinary) :
    (attempt act).outcome s = (.ok (.error f), s') := by
  rw [attempt, bind_of_ok (outcome_observe act s), h]
  exact congrArg (outcome · s') (if_pos hf)

lemma outcome_streamInput (hi : s.input = .text text)
    (h : '\r' ∉ text.toList) : streamInput.outcome s = (.ok (text, none), s) := by
  rw [streamInput, bind_of_ok (outcome_get s), hi]
  simp only [unifyLineEnds_eq_self h, String.ofList_toList]
  rfl

lemma outcome_readInput (hi : s.input = .text text) (h : '\r' ∉ text.toList) : readInput.outcome s = (.ok text, s) := by
  rw [readInput, bind_of_ok (outcome_get s), hi]
  simp only [unifyLineEnds_eq_self h, String.ofList_toList]
  rfl

lemma return_not_mem_readInput (h : readInput.outcome s = (.ok text, s')) : '\r' ∉ text.toList := by
  have hu (t : Chars) (h : String.ofList (unifyLineEnds t) = text) : '\r' ∉ text.toList := by
    rw [← h, String.toList_ofList]
    exact return_not_mem_unifyLineEnds t
  rw [readInput, bind_of_ok (outcome_get s)] at h
  split at h
  · exact hu _ (Except.ok.inj (Prod.mk.inj h).1)
  · obtain ⟨t, _, -, h⟩ := outcome_bind_eq_ok.mp h
    exact hu _ (Except.ok.inj (Prod.mk.inj h).1)

lemma outcome_print (h : s.reader.limit? = none) (text) : (print text).outcome s = (.ok (), s.printed [text]) := by
  have hg : s.readerGone = false := by rw [Session.readerGone, h]
  rw [print, write, bind_of_ok (outcome_get s), hg]
  rfl

lemma outcome_printRecord {r} (h : s.reader.limit? = none) (hl : Json.line r = .ok text) :
    (printRecord r).outcome s = (.ok (), s.printed [text]) := by
  rw [printRecord, hl]
  exact outcome_print h text

lemma outcome_forEach_printRecord {records lines} (h : s.reader.limit? = none) (hl : records.mapM Json.line = .ok lines) :
    (forEach records printRecord).outcome s = (.ok (), s.printed lines) := by
  induction records generalizing lines s with
  | nil =>
    obtain rfl := Except.ok.inj hl
    rfl
  | cons r records ih =>
    obtain ⟨line, _, hli, hr, rfl⟩ := mapM_cons_eq_ok.mp hl
    rw [forEach, bind_of_ok (outcome_printRecord h hli), ih (s := s.printed [line]) h hr]
    simp [Session.printed]

/-- Whenever the part ends well, it gives this result. -/
def GivesOnly (act : Act α) (a : α) : Prop := ∀ s s' b, act.outcome s = (.ok b, s') → b = a

lemma givesOnly_pure (a) : (pure a : Act α).GivesOnly a := by
  intro s s' b h
  exact (Except.ok.inj (Prod.mk.inj h).1).symm

lemma givesOnly_fail (f a) : (fail f : Act α).GivesOnly a := by
  intro s s' b h
  cases (Prod.mk.inj h).1

lemma givesOnly_bind {b} (h : ∀ a, (next a).GivesOnly b) : (act >>= next).GivesOnly b := by
  intro s s' b' hr
  obtain ⟨a, between, -, hn⟩ := outcome_bind_eq_ok.mp hr
  exact h a between s' b' hn

variable {c : Prop} {act' : Act α}

lemma givesOnly_ite [Decidable c] (h : act.GivesOnly a) (h' : act'.GivesOnly a) : (if c then act else act').GivesOnly a := by
  split
  · exact h
  · exact h'

/-! ## Calls that a part notes -/

/-- However it ends, the part notes these calls in this order. -/
def Notes (act : Act α) (calls : List Value) : Prop := ∀ s, (act.outcome s).2.calls = calls.reverse ++ s.calls

lemma notes_pure (a) : (pure a : Act α).Notes [] := fun _ => rfl

lemma notes_fail (f) : (fail f : Act α).Notes [] := fun _ => rfl

lemma notes_throw (stop) : (throw stop : Act α).Notes [] := fun _ => rfl

lemma notes_ofResult (r : Result α) : (ofResult r).Notes [] := by
  cases r with
  | ok a => exact notes_pure a
  | error f => exact notes_fail f

lemma notes_deliver (v) : (deliver v).Notes [] := fun _ => rfl

lemma notes_printErr (text) : (printErr text).Notes [] := fun _ => rfl

lemma notes_bind (h : act.Notes calls) (hn : ∀ a, (next a).Notes []) : (act >>= next).Notes calls := by
  intro s
  have hs := h s
  rw [outcome_bind]
  rcases hr : act.outcome s with ⟨_ | a, s'⟩
  · rwa [hr] at hs
  · rw [hr] at hs
    exact (hn a s').trans hs

lemma notes_log_bind {call} {next : Unit → Act β} (h : (next ()).Notes calls) :
    (log call >>= next).Notes (call :: calls) := by
  intro s
  rw [bind_of_ok (outcome_log call s), h, List.reverse_cons, List.append_assoc]
  rfl

lemma notes_ite [Decidable c] (h : act.Notes calls) (h' : act'.Notes calls) : (if c then act else act').Notes calls := by
  split
  · exact h
  · exact h'

lemma notes_attempt (h : act.Notes calls) : (attempt act).Notes calls := by
  have ho : (observe act).Notes calls := h
  refine notes_bind ho fun r => ?_
  rcases r with (f | co | text) | a
  · exact notes_ite (notes_pure _) (notes_fail f)
  · exact notes_throw _
  · exact notes_throw _
  · exact notes_pure _

variable {after : Act Unit}

lemma calls_ensuring (ha : after.Notes calls) (act : Act α) (s) :
    ((ensuring act after).outcome s).2.calls = calls.reverse ++ (act.outcome s).2.calls := by
  rw [ensuring, bind_of_ok (outcome_observe act s)]
  refine notes_bind ha (fun _ => ?_) (act.outcome s).2
  cases (act.outcome s).1 with
  | ok a => exact notes_pure a
  | error stop => exact notes_throw stop

lemma notes_ensuring {calls'} (h : act.Notes calls)
    (ha : after.Notes calls') : (ensuring act after).Notes (calls ++ calls') := by
  intro s
  rw [calls_ensuring ha, h, List.reverse_append, List.append_assoc]

end Act

end Sluice
