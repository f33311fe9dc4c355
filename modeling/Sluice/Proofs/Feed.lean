import Mathlib.Tactic.Lemma
import Sluice.Fault

/-! # Results and feeds that succeed -/

namespace Sluice

open List

variable {α β : Type} {a : Feed α} {l : List α} {bs : List β} {f : α → Result β}

lemma bind_eq_ok {x b} : (x >>= f) = .ok b ↔ ∃ a, x = .ok a ∧ f a = .ok b := by
  cases x with
  | error e =>
    constructor
    · intro h
      cases h
    · rintro ⟨a, ha, -⟩
      cases ha
  | ok a =>
    constructor
    · intro h
      exact ⟨a, rfl, h⟩
    · rintro ⟨_, ha, h⟩
      obtain rfl := Except.ok.inj ha
      exact h

lemma mapM_cons_eq_ok {a} : (a :: l).mapM f = .ok bs ↔ ∃ b rest, f a = .ok b ∧ l.mapM f = .ok rest ∧ bs = b :: rest := by
  rw [mapM_cons, bind_eq_ok]
  constructor
  · rintro ⟨b, ha, h⟩
    obtain ⟨rest, hl, hbs⟩ := bind_eq_ok.mp h
    exact ⟨b, rest, ha, hl, (Except.ok.inj hbs).symm⟩
  · rintro ⟨b, rest, ha, hl, rfl⟩
    exact ⟨b, ha, bind_eq_ok.mpr ⟨rest, hl, rfl⟩⟩

lemma exists_ok_of_mapM (h : l.mapM f = .ok bs) : ∀ a ∈ l, ∃ b, f a = .ok b := by
  induction l generalizing bs with
  | nil => simp
  | cons a l ih =>
    obtain ⟨b, _, ha, hl, -⟩ := mapM_cons_eq_ok.mp h
    exact forall_mem_cons.mpr ⟨⟨b, ha⟩, ih hl⟩

lemma exists_mapM_eq_ok (h : ∀ a ∈ l, ∃ b, f a = .ok b) : ∃ bs, l.mapM f = .ok bs := by
  induction l with
  | nil => exact ⟨[], rfl⟩
  | cons a l ih =>
    obtain ⟨⟨b, ha⟩, hl⟩ := forall_mem_cons.mp h
    obtain ⟨r, hr⟩ := ih hl
    exact ⟨b :: r, mapM_cons_eq_ok.mpr ⟨b, r, ha, hr, rfl⟩⟩

lemma exists_of_mem_mapM {b} (h : l.mapM f = .ok bs) (hb : b ∈ bs) : ∃ a ∈ l, f a = .ok b := by
  induction l generalizing bs with
  | nil =>
    cases h
    cases hb
  | cons a l ih =>
    obtain ⟨c, _, ha, hl, rfl⟩ := mapM_cons_eq_ok.mp h
    rcases mem_cons.mp hb with rfl | hb
    · exact ⟨a, .head _, ha⟩
    · obtain ⟨a', ha', hfa⟩ := ih hl hb
      exact ⟨a', .tail _ ha', hfa⟩

lemma eq_map_of_mapM {g} (hfg : ∀ a b, f a = .ok b → b = g a) (h : l.mapM f = .ok bs) : bs = l.map g := by
  induction l generalizing bs with
  | nil => exact (Except.ok.inj h).symm
  | cons a l ih =>
    obtain ⟨b, _, ha, hl, rfl⟩ := mapM_cons_eq_ok.mp h
    rw [map_cons, hfg a b ha, ih hl]

lemma mapM_eq_ok {g} (h : ∀ a ∈ l, f a = .ok (g a)) : l.mapM f = .ok (l.map g) := by
  induction l with
  | nil => rfl
  | cons a l ih =>
    have ha := h a (.head _)
    have hl := ih fun b hb => h b (.tail _ hb)
    rw [mapM_cons, ha, hl]
    rfl

namespace Feed

@[simp] lemma bindResult_ok (b) (f : β → Feed α) : bindResult (.ok b) f = f b := rfl

lemma mem_bindResult {r} {f : β → Feed α} {a} (h : a ∈ (bindResult r f).items) : ∃ b, r = .ok b ∧ a ∈ (f b).items := by
  cases r with
  | error e => cases h
  | ok b => exact ⟨b, rfl, h⟩

lemma bindResult_bind {γ : Type} (r) (f : β → Result γ) (k : γ → Feed α) :
    bindResult (r >>= f) k = bindResult r fun b => bindResult (f b) k := by cases r <;> rfl

variable {b : Unit → Feed α} {f : β → Feed α} {l : List β}

lemma mem_append {x} (h : x ∈ (a.append b).items) : x ∈ a.items ∨ x ∈ (b ()).items := by
  rw [append] at h
  split at h
  · exact .inl h
  · exact List.mem_append.mp h

lemma mem_flatMap {a} (h : a ∈ (flatMap f l).items) : ∃ b ∈ l, a ∈ (f b).items := by
  induction l with
  | nil => cases h
  | cons b l ih =>
    rcases mem_append h with h | h
    · exact ⟨b, .head _, h⟩
    · obtain ⟨c, hc, h⟩ := ih h
      exact ⟨c, mem_cons_of_mem b hc, h⟩

lemma toResult_eq_ok {items} : a.toResult = .ok items ↔ a.fault? = none ∧ a.items = items := by
  rw [toResult]
  cases a.fault? with
  | some f => simp
  | none => simp

lemma flatMap_eq_ofList {g} (h : ∀ b ∈ l, f b = ofList (g b)) : flatMap f l = ofList (l.flatMap g) := by
  induction l with
  | nil => rfl
  | cons b l ih =>
    have hb := h b (.head _)
    have hl := ih fun c hc => h c (.tail _ hc)
    rw [flatMap, hb, hl]
    rfl

lemma flatMap_map {γ : Type} (f : β → Feed α) (g) (l : List γ) : flatMap f (l.map g) = flatMap (fun c => f (g c)) l := by
  induction l with
  | nil => rfl
  | cons c l ih => rw [map_cons, flatMap, flatMap, ih]

lemma fault?_append : (a.append b).fault? = none ↔ a.fault? = none ∧ (b ()).fault? = none := by
  rw [append]
  cases a.fault? with
  | some f => simp
  | none => simp

lemma items_append (h : a.fault? = none) : (a.append b).items = a.items ++ (b ()).items := by rw [append, h]

lemma fault?_flatMap : (flatMap f l).fault? = none ↔ ∀ b ∈ l, (f b).fault? = none := by
  induction l with
  | nil => simp [flatMap, empty]
  | cons b l ih => rw [flatMap, fault?_append, ih, forall_mem_cons]

lemma items_flatMap (h : ∀ b ∈ l, (f b).fault? = none) : (flatMap f l).items = l.flatMap fun b => (f b).items := by
  induction l with
  | nil => rfl
  | cons b l ih => rw [flatMap, items_append (h b (.head _)), ih fun c hc => h c (.tail _ hc), flatMap_cons]

lemma ofList_inj {as bs : List α} : ofList as = ofList bs ↔ as = bs := by
  constructor
  · intro h
    exact congrArg Feed.items h
  · rintro rfl
    rfl

end Feed

end Sluice
