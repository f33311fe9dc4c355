import Sluice.Mail.Command
import Sluice.Proofs.Machine.Session

/-!
# A limit cuts a run short

A limited run does what the unlimited one does until there are enough records, and then stops (`Cut`). Sessions hold what
was handed on and called with the latest first.
-/

namespace Sluice.Mail

open List Act

/-- Whether a record tells of a message or a label and not of an error. -/
def counts : Value → Bool
  | .map (("_error", _) :: _) => false
  | _ => true

def counted (s : Session) : Nat := s.delivered.countP counts

/-- Nothing that was handed on or called is taken back. -/
def Grows (s t : Session) : Prop := s.delivered <:+ t.delivered ∧ s.calls <:+ t.calls

variable {α β : Type} {act : Act α} {next : α → Act β} {s t u : Session} {m n k : Nat} {v : Value}

lemma grows_refl (s) : Grows s s := ⟨suffix_rfl, suffix_rfl⟩

lemma Grows.trans (h : Grows s t) (h' : Grows t u) : Grows s u := ⟨h.1.trans h'.1, h.2.trans h'.2⟩

/-! ## Steps that do not count -/

def Quiet (act : Act α) : Prop := ∀ s, Grows s (act.outcome s).2 ∧ counted (act.outcome s).2 = counted s

lemma quiet_pure (a : α) : Quiet (pure a) := fun s => ⟨grows_refl s, rfl⟩

lemma quiet_fail (f) : Quiet (fail f : Act α) := fun s => ⟨grows_refl s, rfl⟩

lemma quiet_get : Quiet get := fun s => ⟨grows_refl s, rfl⟩

lemma quiet_ofResult (r : Result α) : Quiet (ofResult r) := by
  cases r with
  | ok a => exact quiet_pure a
  | error f => exact quiet_fail f

lemma quiet_log (call) : Quiet (log call) := fun s => ⟨⟨suffix_rfl, suffix_cons call s.calls⟩, rfl⟩

lemma quiet_deliver (h : counts v = false) : Quiet (deliver v) :=
  fun s => ⟨⟨suffix_cons v s.delivered, suffix_rfl⟩, by simp [counted, h]⟩

lemma quiet_bind (h : Quiet act) (hn : ∀ a, Quiet (next a)) : Quiet (act >>= next) := by
  intro s
  have hs := h s
  rw [outcome_bind]
  rcases hr : act.outcome s with ⟨_ | a, t⟩ <;> rw [hr] at hs
  · exact hs
  · exact ⟨hs.1.trans (hn a t).1, (hn a t).2.trans hs.2⟩

lemma quiet_ite {c : Prop} [Decidable c] {other : Act α} (h : Quiet act) (h' : Quiet other) :
    Quiet (if c then act else other) := by
  split
  · exact h
  · exact h'

lemma quiet_call (name args) (r : Result α) : Quiet (call name args r) := quiet_bind (quiet_log _) fun _ => quiet_ofResult r

lemma quiet_changeTree (change) : Quiet (changeTree change) := by
  intro s
  rw [changeTree, bind_of_ok (outcome_get s)]
  cases change s.tree <;> exact ⟨grows_refl s, rfl⟩

lemma quiet_credentials (authority file? secrets?) : Quiet (credentials authority file? secrets?) := by
  have hask (secrets) : Quiet (askConsent authority secrets) := by
    refine quiet_bind quiet_get fun s => quiet_ite (quiet_bind (quiet_fail _) fun _ => ?_) ?_ <;>
      exact quiet_bind (quiet_log _) fun _ => quiet_pure _
  refine quiet_bind quiet_get fun s => quiet_bind (quiet_bind quiet_get fun s => quiet_ite (quiet_pure _) ?_) fun old? => ?_
  · exact quiet_bind (quiet_ofResult _) fun _ => quiet_bind (quiet_ofResult _) fun _ =>
      quiet_bind (quiet_ofResult _) fun _ => quiet_pure _
  · cases old?.filter (·.isValid authority.now) with
    | some c => exact quiet_pure c
    | none =>
      refine quiet_bind ?_ fun c => quiet_bind (quiet_changeTree _) fun _ => quiet_bind (quiet_ofResult _) fun _ =>
        quiet_bind (quiet_changeTree _) fun _ => quiet_pure _
      cases old? with
      | none => exact hask _
      | some c => exact quiet_ite (quiet_bind (quiet_log _) fun _ => quiet_pure _) (hask _)

lemma quiet_openService (authority settings) : Quiet (openService authority settings) :=
  quiet_bind (quiet_ofResult _) fun _ => quiet_bind (quiet_ofResult _) fun _ =>
    quiet_bind (quiet_credentials _ _ _) fun _ => quiet_log _

/-! ## Cut runs -/

/-- What a limited run comes to, against the unlimited one: the same, before there are enough records, or a part of it that
ends with the record that makes them enough. -/
def Stops (m : Nat) (enough : α) (Q : α → Session → Prop) (part full : Except Stop α × Session) : Prop :=
  (part = full ∧ counted full.2 < m ∧ ∀ a, full.1 = .ok a → Q a full.2) ∨
    part.1 = .ok enough ∧ Grows part.2 full.2 ∧ counted part.2 = m ∧ ∃ v ∈ part.2.delivered.head?, counts v

/-- **A limit cuts a run short** if there are not enough records at its start yet and this holds then. -/
structure Cut (P : Prop) (m : Nat) (enough : α) (Q : α → Session → Prop) (part full : Act α) (s : Session) : Prop where
  grows : Grows s (part.outcome s).2
  grows' : Grows s (full.outcome s).2
  ends : P → counted s < m → Stops m enough Q (part.outcome s) (full.outcome s)

variable {P : Prop} {Q : α → Session → Prop} {R : β → Session → Prop} {part full : Act α} {f g : α → Act β} {a e : α} {b : β}

lemma Quiet.cut (h : Quiet act) (hq : ∀ a, (act.outcome s).1 = .ok a → P → Q a (act.outcome s).2) : Cut P m e Q act act s where
  grows := (h s).1
  grows' := (h s).1
  ends hp hc := .inl ⟨rfl, (h s).2 ▸ hc, fun a ha => hq a ha hp⟩

/-- Both runs take a step that does not count. -/
lemma Quiet.bind (h : Quiet act) (hn : ∀ a t, counted t = counted s → Cut P m b R (f a) (g a) t) :
    Cut P m b R (act >>= f) (act >>= g) s := by
  obtain ⟨hg, hc⟩ := h s
  constructor <;> simp only [outcome_bind] <;> generalize act.outcome s = p at * <;> rcases p with ⟨stop | a, t⟩
  · exact hg
  · exact hg.trans (hn a t hc).grows
  · exact hg
  · exact hg.trans (hn a t hc).grows'
  · exact fun _ hlt => .inl ⟨rfl, hc ▸ hlt, fun _ h => by cases h⟩
  · exact fun hP hlt => (hn a t hc).ends hP (hc ▸ hlt)

lemma Cut.bind (h : Cut P m a Q part full s) (ha : f a = pure b) (hn : ∀ a t, Cut (Q a t) m b R (f a) (g a) t) :
    Cut P m b R (part >>= f) (full >>= g) s := by
  obtain ⟨hp, hf, he⟩ := h
  constructor <;> simp only [outcome_bind] <;> generalize part.outcome s = p, full.outcome s = w at *
  · rcases p with ⟨stop | a, t⟩
    · exact hp
    · exact hp.trans (hn a t).grows
  · rcases w with ⟨stop | a, t⟩
    · exact hf
    · exact hf.trans (hn a t).grows'
  · intro hP hc
    rcases he hP hc with ⟨rfl, hc, hq⟩ | ⟨hpa, hg, hv⟩
    · rcases p with ⟨stop | a, t⟩
      · exact .inl ⟨rfl, hc, fun _ h => by cases h⟩
      · exact (hn a t).ends (hq a rfl) hc
    · rcases p with ⟨r, t⟩
      obtain rfl : r = .ok a := hpa
      simp only [ha]
      refine .inr ⟨rfl, ?_, hv⟩
      rcases w with ⟨stop | a', u⟩
      · exact hg
      · exact hg.trans (hn a' u).grows'

lemma cut_ite {c : Prop} [Decidable c] {part' full' : Act α} (h : Cut P m e Q part full s) (h' : Cut P m e Q part' full' s) :
    Cut P m e Q (if c then part else part') (if c then full else full') s := by
  split
  · exact h
  · exact h'

/-- A record that counts, with the test whether it is enough. -/
lemma cut_record {enough : α} {r : Result Value} (hv : ∀ v, r = .ok v → counts v) (he : k = n → e = enough)
    (hn : ∀ t, Cut (counted t + (n + 1) = m + (k + 1)) m enough Q part full t) :
    Cut (counted s + (n + 1) = m + k) m enough Q
      (do deliver (← ofResult r); if ← ofResult (Value.reached (.int (n + 1)) (k + 1)) then pure e else part)
      (do deliver (← ofResult r); if ← ofResult (Value.reached .null (k + 1)) then pure e else full) s := by
  cases r with
  | error f => exact ⟨grows_refl s, grows_refl s, fun _ hlt => .inl ⟨rfl, hlt, fun _ h => by cases h⟩⟩
  | ok v =>
    have hv := hv v rfl
    have hr : Value.reached (.int (n + 1)) (k + 1) = .ok (decide (n ≤ k)) := by
      have hne : ((n : Int) + 1 != 0) = true := bne_iff_ne.mpr (by omega)
      simp [Value.reached, hne]
    have hc : counted { s with delivered := v :: s.delivered } = counted s + 1 := by simp [counted, hv]
    have hg : Grows s { s with delivered := v :: s.delivered } := ⟨suffix_cons v s.delivered, suffix_rfl⟩
    obtain ⟨hp, hf, hends⟩ := hn { s with delivered := v :: s.delivered }
    rw [hr]
    by_cases hnk : n ≤ k
    · rw [decide_eq_true hnk]
      refine ⟨hg, hg.trans hf, fun hs hlt => .inr ⟨?_, hf, ?_, v, rfl, hv⟩⟩
      · rw [← he (by omega)]
        rfl
      · exact hc.trans (by omega)
    · rw [decide_eq_false hnk]
      exact ⟨hg.trans hp, hg.trans hf, fun hs hlt => hends (by omega) (by omega)⟩

/-! ## Messages and labels -/

section Reading

variable (service : Service) (settings : Settings)

lemma counts_record {format msg} (h : record format msg = .ok v) : counts v := by
  rw [record] at h
  iterate 6 obtain ⟨_, -, h⟩ := bind_eq_ok.mp h
  obtain rfl := Except.ok.inj h
  rfl

lemma counts_labelRecord {user profile label} (h : labelRecord user profile label = .ok v) : counts v := by
  rw [labelRecord] at h
  iterate 7 obtain ⟨_, -, h⟩ := bind_eq_ok.mp h
  obtain rfl := Except.ok.inj h
  rfl

lemma cut_emitMessages (user refs s k) : Cut (counted s + (n + 1) = m + k) m (n + 1, true)
      (fun r t => r.2 = false ∧ counted t + (n + 1) = m + r.1)
      (emitMessages deliver service { settings with limit := .int (n + 1) } user k refs)
      (emitMessages deliver service { settings with limit := .null } user k refs) s := by
  induction refs generalizing k s with
  | nil => exact (quiet_pure (k, false)).cut fun _ h hs => by cases h; exact ⟨rfl, hs⟩
  | cons ref refs ih =>
    refine (quiet_ofResult _).bind fun id t ht => (quiet_log _).bind fun _ t' ht' => ?_
    rw [← ht, ← ht']
    cases service.message id with
    | error f =>
      refine cut_ite ((quiet_deliver rfl).bind fun _ u hu => ?_) ((quiet_fail f).cut fun _ h => by cases h)
      exact hu ▸ ih u k
    | ok msg => exact cut_record (fun v => counts_record) (fun h => by rw [h]) fun u => ih u (k + 1)

lemma cut_emitPages (q pages token s k) : Cut (counted s + (n + 1) = m + k) m () (fun _ _ => True)
      (emitPages deliver service { settings with limit := .int (n + 1) } q pages token k)
      (emitPages deliver service { settings with limit := .null } q pages token k) s := by
  induction pages generalizing token k s with
  | zero => exact (quiet_pure _).cut fun _ _ _ => trivial
  | succ pages ih =>
    refine (quiet_ofResult _).bind fun size t ht => (quiet_call _ _ _).bind fun page t' ht' => ?_
    refine (quiet_ofResult _).bind fun refs u hu => cut_ite ((quiet_pure _).cut fun _ _ _ => trivial) ?_
    refine (quiet_ofResult _).bind fun items u' hu' => ?_
    rw [← ht, ← ht', ← hu, ← hu']
    refine (cut_emitMessages service settings q.user items u' k).bind rfl fun (count, enough) w => ?_
    cases enough with
    | true => exact (quiet_pure _).cut fun _ _ _ => trivial
    | false =>
      refine (quiet_ofResult _).bind fun next w' hw => cut_ite ?_ ((quiet_pure _).cut fun _ _ _ => trivial)
      obtain ⟨hp, hf, he⟩ := ih next w' count
      exact ⟨hp, hf, fun h => he (hw ▸ h.2)⟩

lemma cut_emitLabels (user profile labels s k) : Cut (counted s + (n + 1) = m + k) m () (fun _ _ => True)
      (emitLabels deliver (.int (n + 1)) user profile k labels) (emitLabels deliver .null user profile k labels) s := by
  induction labels generalizing k s with
  | nil => exact (quiet_pure _).cut fun _ _ _ => trivial
  | cons label labels ih => exact cut_record (fun v => counts_labelRecord) (fun _ => rfl) fun t => ih t (k + 1)

end Reading

lemma cut_catchFault {part full : Act Unit} {handle} (h : Cut P m () (fun _ _ => True) part full s)
    (hh : ∀ f, Quiet (handle f)) : Cut P m () (fun _ _ => True) (catchFault part handle) (catchFault full handle) s := by
  obtain ⟨hp, hf, he⟩ := h
  have hg {s} (act : Act Unit) {t} (h : Grows s (act.outcome t).2) : Grows s ((catchFault act handle).outcome t).2 := by
    rw [outcome_catchFault]
    rcases hr : act.outcome t with ⟨(f | _ | _) | _, u⟩ <;> rw [hr] at h
    · exact h.trans (hh f u).1
    all_goals exact h
  refine ⟨hg part hp, hg full hf, fun hP hc => ?_⟩
  rcases he hP hc with ⟨heq, hlt, -⟩ | ⟨hpa, hgr, hv⟩
  · rw [outcome_catchFault, outcome_catchFault, heq]
    rcases hr : full.outcome s with ⟨(f | _ | _) | _, u⟩ <;> rw [hr] at hlt
    · exact .inl ⟨rfl, (hh f u).2 ▸ hlt, fun _ _ => trivial⟩
    all_goals exact .inl ⟨rfl, hlt, fun _ _ => trivial⟩
  · have hout : (catchFault part handle).outcome s = part.outcome s := by
      rw [outcome_catchFault]
      rcases hr : part.outcome s with ⟨_ | _, u⟩
      · rw [hr] at hpa
        cases hpa
      · rfl
    rw [hout]
    exact .inr ⟨hpa, hg full hgr, hv⟩

lemma cut_read (authority : Authority) (service : Service) (pages) (settings : Settings) :
    Cut True (counted s + (n + 1)) () (fun _ _ => True)
      (read deliver authority service pages { settings with limit := .int (n + 1) })
      (read deliver authority service pages { settings with limit := .null }) s := by
  refine (quiet_ofResult _).bind fun url t ht => cut_catchFault ?_ fun f => ?_
  · refine (quiet_openService authority settings).bind fun _ u hu => cut_ite ?_ ?_
    · refine (quiet_call _ _ _).bind fun profile u' hu' => (quiet_call _ _ _).bind fun answer v hv => ?_
      refine (quiet_ofResult _).bind fun labels v' hv' => (quiet_ofResult _).bind fun items w hw => ?_
      obtain ⟨hp, hf, he⟩ := cut_emitLabels (n := n) (m := counted s + (n + 1)) _ profile items w 0
      exact ⟨hp, hf, fun _ => he (by omega)⟩
    · refine (quiet_ofResult _).bind fun labels? w hw => ?_
      obtain ⟨hp, hf, he⟩ := cut_emitPages (n := n) (m := counted s + (n + 1)) service settings _ pages .null w 0
      exact ⟨hp, hf, fun _ => he (by omega)⟩
  · split
    · exact quiet_deliver rfl
    · exact quiet_deliver rfl
    · exact quiet_fail f

/-- **A limit cuts a run short.** The limited run is the unlimited one if this has no more records that count than that.
Otherwise its records and calls are the first ones of the unlimited run, and its last record makes them enough. -/
theorem read_limited (authority : Authority) (service : Service) (pages : Nat) (settings : Settings) (n : Nat) (s : Session) :
    let part := (read deliver authority service pages { settings with limit := .int (n + 1) }).outcome s
    let full := (read deliver authority service pages { settings with limit := .null }).outcome s
    Grows s part.2 ∧ Grows part.2 full.2 ∧ (counted full.2 ≤ counted s + n ∧ part = full ∨
      counted part.2 = counted s + (n + 1) ∧ ∃ v ∈ part.2.delivered.head?, counts v) := by
  intro part full
  obtain ⟨hpart, -, hends⟩ := cut_read (s := s) (n := n) authority service pages settings
  refine ⟨hpart, ?_⟩
  rcases hends trivial (by omega) with ⟨heq, hlt, -⟩ | ⟨-, hgrows, henough⟩
  · have hsame : part = full := heq
    refine ⟨?_, .inl ⟨Nat.le_of_lt_succ hlt, hsame⟩⟩
    rw [hsame]
    exact grows_refl _
  · exact ⟨hgrows, .inr henough⟩

end Sluice.Mail
