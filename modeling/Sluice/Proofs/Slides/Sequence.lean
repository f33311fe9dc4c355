import Mathlib.Data.List.Nodup
import Mathlib.Data.List.Perm.Basic
import Sluice.Proofs.Machine.Path
import Sluice.Proofs.Machine.Session
import Sluice.Slides.Rearrangement

/-!
# Slides come out in the order of the sequence

Every loop keeps the **view**: what stands at the places of the entries, in the end the deck itself (`settle_view`).
While the plan is made, the stock holds the places of the free duplicates (`Stock.Serves`).
-/

namespace Sluice.Slides

open List Number Act Use

variable {α σ : Type}
  {keep rest seen sequence : List Nat} {deck : List Slide} {i size source target : Nat} {s : Session} {slides : List α}

section Views

variable {places : List Nat} {d : List α × List Nat}

def view (s : List α × List Nat) : List (Option α) := s.2.map (s.1[·]?)

lemma view_erase (h : i ∉ places) :
    view (slides.eraseIdx i, places.map fun p => if p > i then p - 1 else p) = view (slides, places) := by
  simp only [view, map_map]
  refine map_congr_left fun p hp => ?_
  have hne : p ≠ i := fun he => h (he ▸ hp)
  simp only [Function.comp_apply, getElem?_eraseIdx]
  by_cases hlt : p > i
  · rw [if_pos hlt, if_neg (by omega)]
    congr 1
    omega
  · rw [if_neg hlt, if_pos (by omega)]

/-! ## Removing -/

/-- Where the entries stand when the slides from `i` on that are not kept have been removed. -/
structure Dropped (keep : List Nat) (i : Nat) (d : List α × List Nat) : Prop where
  nodup : d.2.Nodup
  bound : ∀ p ∈ d.2, p < d.1.length
  before : ∀ p < i, p ∈ d.2 ↔ p ∈ keep
  behind : ∀ p, i ≤ p → p < d.1.length → p ∈ d.2

lemma Dropped.step (h : Dropped keep (i + 1) d) (hk : i ∉ keep) (hi : i < d.1.length) :
    Dropped keep i (d.1.eraseIdx i, d.2.map fun p => if p > i then p - 1 else p) := by
  have hpl : i ∉ d.2 := fun hm => hk ((h.before i (by omega)).mp hm)
  have hl := length_eraseIdx_of_lt hi
  refine ⟨?_, ?_, ?_, ?_⟩ <;> dsimp only
  · refine List.Nodup.map_on ?_ h.nodup
    intro p hp q hq hpq
    have hpi : p ≠ i := fun he => hpl (he ▸ hp)
    have hqi : q ≠ i := fun he => hpl (he ▸ hq)
    split at hpq <;> split at hpq <;> omega
  · intro p hp
    obtain ⟨q, hq, rfl⟩ := mem_map.mp hp
    have hb := h.bound q hq
    have hqi : q ≠ i := fun he => hpl (he ▸ hq)
    split <;> omega
  · intro p hp
    rw [← h.before p (by omega), mem_map]
    constructor
    · rintro ⟨q, hq, rfl⟩
      rw [if_neg (by split at hp <;> omega)]
      exact hq
    · intro hm
      exact ⟨p, hm, if_neg (by omega)⟩
  · intro p hp hlt
    refine mem_map.mpr ⟨p + 1, h.behind (p + 1) (by omega) (by omega), ?_⟩
    rw [if_pos (by omega)]
    omega

lemma Dropped.skip (h : Dropped keep (i + 1) d) (hk : i ∈ keep) : Dropped keep i d where
  nodup := h.nodup
  bound := h.bound
  before p hp := h.before p (by omega)
  behind p hp hlt := by
    rcases Nat.eq_or_lt_of_le hp with rfl | hlt'
    · exact (h.before i (by omega)).mpr hk
    · exact h.behind p hlt' hlt

lemma Dropped.run (h : Dropped keep i d) (hi : i ≤ d.1.length) :
    Dropped keep 0 (dropUnused keep i d) ∧ view (dropUnused keep i d) = view d := by
  induction i generalizing d with
  | zero => exact ⟨h, rfl⟩
  | succ i ih =>
    rw [dropUnused]
    by_cases hk : i ∈ keep
    · rw [if_pos (by simpa using hk)]
      exact ih (h.skip hk) (Nat.le_of_succ_le hi)
    · rw [if_neg (by simpa using hk)]
      have hp : i ∉ d.2 := fun hm => hk ((h.before i (by omega)).mp hm)
      have hl : (d.1.eraseIdx i).length = d.1.length - 1 := length_eraseIdx_of_lt (by omega)
      obtain ⟨hd, hv⟩ := ih (h.step hk hi) (by dsimp only; omega)
      exact ⟨hd, hv.trans (view_erase hp)⟩

/-! ## Moving -/

/-- Where a slide stands after one of them was moved, that one included. -/
def landed (source target p : Nat) : Nat := if p = source then target else shifted source target p

lemma landed_injective (source target) : Function.Injective (landed source target) := by
  intro p q h
  simp only [landed, shifted] at h
  split_ifs at h <;> omega

lemma length_move (hs : source < slides.length)
    (ht : target < slides.length) : (move source target slides).length = slides.length := by
  have he := length_eraseIdx_of_lt hs
  rw [move, getElem?_eq_getElem hs]
  rw [length_insertIdx]
  split <;> omega

lemma getElem?_move (hs : source < slides.length) (ht : target < slides.length) (p) :
    (move source target slides)[landed source target p]? = slides[p]? := by
  have he := length_eraseIdx_of_lt hs
  rw [move, getElem?_eq_getElem hs, landed]
  rw [getElem?_insertIdx, shifted]
  by_cases hp : p = source
  · rw [if_pos hp, if_neg (by omega), if_pos rfl, if_pos (by omega), hp, getElem?_eq_getElem hs]
  · simp only [getElem?_eraseIdx]
    split_ifs <;> first | omega | rfl | (congr 1; omega)

/-- The slide that is moved goes to the target, so that all places are counted anew alike. -/
lemma set_shifted (hn : places.Nodup) (hs : places[target]? = some source) :
    (places.map (shifted source target)).set target target = places.map (landed source target) := by
  refine ext_getElem? fun k => ?_
  simp only [getElem?_map, getElem?_set, length_map]
  obtain ⟨ht, heq⟩ := List.getElem?_eq_some_iff.mp hs
  by_cases hk : target = k
  · subst hk
    rw [if_pos rfl, if_pos ht, hs, Option.map_some, landed, if_pos rfl]
  · rw [if_neg hk]
    cases hg : places[k]? with
    | none => rfl
    | some p =>
      obtain ⟨_, hpk⟩ := List.getElem?_eq_some_iff.mp hg
      have hp : p ≠ source := fun h => hk ((List.Nodup.getElem_inj_iff hn).mp (heq.trans (hpk.trans h).symm))
      rw [Option.map_some, Option.map_some, landed, if_neg hp]

/-- Where the entries stand when the slides of the first `t` entries have been moved. -/
structure Moved (t : Nat) (d : List α × List Nat) : Prop where
  length : d.2.length = d.1.length
  nodup : d.2.Nodup
  bound : ∀ p ∈ d.2, p < d.1.length
  settled : ∀ k < t, k < d.2.length → d.2[k]? = some k

variable {t : Nat}

lemma Moved.target_le (h : Moved t d) (hso : d.2[t]? = some source) : t ≤ source := by
  obtain ⟨ht, heq⟩ := List.getElem?_eq_some_iff.mp hso
  by_contra hlt
  have hse := h.settled source (by omega) (by omega)
  obtain ⟨hs, heq'⟩ := List.getElem?_eq_some_iff.mp hse
  have := (List.Nodup.getElem_inj_iff h.nodup).mp (heq.trans heq'.symm)
  omega

lemma Moved.step (h : Moved t d) (ht : t < d.2.length) : Moved (t + 1) (moveStep d t) ∧ view (moveStep d t) = view d := by
  have hs : d.2[t]? = some d.2[t] := getElem?_eq_getElem ht
  have hle := h.target_le hs
  have hb := h.bound _ (getElem_mem ht)
  simp only [moveStep, hs]
  by_cases heq : d.2[t] = t
  · rw [if_pos heq]
    refine ⟨⟨h.length, h.nodup, h.bound, fun k hk hlt => ?_⟩, rfl⟩
    rcases Nat.lt_succ_iff_lt_or_eq.mp hk with hk | rfl
    · exact h.settled k hk hlt
    · rw [hs, heq]
  · rw [if_neg heq]
    have hlt : t < d.1.length := by omega
    have hl := length_move hb hlt
    rw [set_shifted h.nodup hs]
    refine ⟨⟨by simp [hl, h.length], h.nodup.map (landed_injective ..), ?_, fun k hk hkl => ?_⟩, ?_⟩
    · refine forall_mem_map.mpr fun p hp => ?_
      have := h.bound p hp
      rw [hl, landed, shifted]
      split_ifs <;> omega
    · rw [length_map] at hkl
      rw [getElem?_map]
      rcases Nat.lt_succ_iff_lt_or_eq.mp hk with hk | rfl
      · rw [h.settled k hk hkl, Option.map_some, landed, shifted, if_neg (by omega), if_neg (by omega), if_neg (by omega)]
      · rw [hs, Option.map_some, landed, if_pos rfl]
    · simp only [view, map_map]
      exact map_congr_left fun p _ => getElem?_move hb hlt p

lemma length_of_view {e} (h : view e = view d) : e.2.length = d.2.length := by simpa [view] using congrArg List.length h

lemma Moved.run (h : Moved 0 d) : Moved d.2.length (moveAll d) ∧ view (moveAll d) = view d := by
  have hl : ∀ t ≤ d.2.length,
      Moved t ((List.range t).foldl moveStep d) ∧ view ((List.range t).foldl moveStep d) = view d := by
    intro t ht
    induction t with
    | zero => exact ⟨h, rfl⟩
    | succ t ih =>
      obtain ⟨hm, hv⟩ := ih (by omega)
      obtain ⟨hm', hv'⟩ := hm.step (by rw [length_of_view hv]; omega)
      rw [range_succ, foldl_append]
      exact ⟨hm', hv'.trans hv⟩
  exact hl d.2.length (Nat.le_refl _)

end Views

/-! ## The plan -/

def Stock.free (s : Stock) (i : Nat) : List Nat := (s.copies.lookup i).getD []

/-- What a stock holds for the rest of a sequence: for each used slide as many duplicates as are needed, each at a place
of its own behind the deck. -/
structure Stock.Serves (size : Nat) (seen rest : List Nat) (s : Stock) : Prop where
  unseen : ∀ i, i ∉ seen → s.copies.lookup i = none
  enough : ∀ i ∈ seen, (s.free i).length = rest.count i
  nodup : ∀ i, (s.free i).Nodup
  apart : ∀ i j, i ≠ j → ∀ p ∈ s.free i, p ∉ s.free j
  range : ∀ i, ∀ p ∈ s.free i, size ≤ p ∧ p < s.size
  size_le : size ≤ s.size

open Stock

section

variable {s s' : Stock} {u : Use} (h : s.Serves size seen (i :: rest)) (hsequence : sequence.Perm (seen ++ i :: rest))
  (huse : s.use sequence i = (u, s'))

include h hsequence huse

/-- **What using a slide does to a stock.** The first time the slide itself is used, and duplicates for the rest are put
behind all slides; later the first free duplicate is used. -/
lemma Stock.use_cases : (∀ j, j ≠ i → s'.copies.lookup j = s.copies.lookup j) ∧
    ((i ∉ seen ∧ u = .slide i (rest.count i) ∧ s'.size = s.size + rest.count i ∧
        s'.free i = List.range' s.size (rest.count i)) ∨
      (i ∈ seen ∧ ∃ p, u = .duplicate i p ∧ s'.size = s.size ∧ s.free i = p :: s'.free i)) := by
  rw [use] at huse
  by_cases hi : i ∈ seen
  · -- the rest needs at least one more, so a duplicate is free
    have hle := h.enough i hi
    cases hl : s.copies.lookup i with
    | none => simp [free, hl] at hle
    | some ps =>
      cases ps with
      | nil => simp [free, hl] at hle
      | cons p ps =>
        rw [hl] at huse
        cases huse
        refine ⟨fun j hj => ?_, .inr ⟨hi, p, rfl, rfl, ?_⟩⟩
        · rw [List.lookup_cons, beq_false_of_ne hj]
        · simp [free, hl]
  · have hl := h.unseen i hi
    have hc : sequence.count i - 1 = rest.count i := by
      rw [hsequence.count_eq, count_append, count_eq_zero_of_not_mem hi, count_cons_self]
      omega
    rw [hl, hc] at huse
    cases hr : rest.count i with
    | zero =>
      rw [hr] at huse
      cases huse
      exact ⟨fun _ _ => rfl, .inl ⟨hi, rfl, rfl, by simp [free, hl]⟩⟩
    | succ k =>
      rw [hr] at huse
      cases huse
      refine ⟨fun j hj => ?_, .inl ⟨hi, rfl, rfl, by simp [free]⟩⟩
      rw [List.lookup_cons, beq_false_of_ne hj]

lemma Stock.mem_free_use {j p} (hp : p ∈ s'.free j) : p ∈ s.free j ∨ j = i ∧ s.size ≤ p ∧ p < s'.size := by
  obtain ⟨ho, hc⟩ := use_cases h hsequence huse
  by_cases hj : j = i
  · subst hj
    rcases hc with ⟨-, -, hs, hi⟩ | ⟨-, q, -, -, hi⟩
    · rw [hi, mem_range'_1] at hp
      exact .inr ⟨rfl, hp.1, hs ▸ hp.2⟩
    · exact .inl (hi ▸ .tail _ hp)
  · rw [free, ho j hj] at hp
    exact .inl hp

lemma Stock.Serves.use : s'.Serves size (i :: seen) rest := by
  have hm {j p : Nat} := mem_free_use h hsequence huse (j := j) (p := p)
  obtain ⟨ho, hc⟩ := use_cases h hsequence huse
  obtain ⟨hs, hn, hl⟩ : s.size ≤ s'.size ∧ (s'.free i).Nodup ∧ (s'.free i).length = rest.count i := by
    rcases hc with ⟨-, -, hs, hi⟩ | ⟨hse, p, -, hs, hi⟩
    · rw [hi]
      exact ⟨by omega, nodup_range', length_range'⟩
    · have hn := h.nodup i
      have hl := h.enough i hse
      rw [hi] at hn hl
      rw [length_cons, count_cons_self] at hl
      exact ⟨by omega, (nodup_cons.mp hn).2, by omega⟩
  refine ⟨fun j hj => ?_, fun j hj => ?_, fun j => ?_, fun j k hjk p hp hpk => ?_, fun j p hp => ?_, h.size_le.trans hs⟩
  · rw [mem_cons, not_or] at hj
    rw [ho j hj.1, h.unseen j hj.2]
  · by_cases hji : j = i
    · rw [hji, hl]
    · rw [free, ho j hji, ← free, h.enough j ((mem_cons.mp hj).resolve_left hji), count_cons_of_ne (Ne.symm hji)]
  · by_cases hji : j = i
    · exact hji ▸ hn
    · rw [free, ho j hji]
      exact h.nodup j
  · -- new places lie behind all old ones
    rcases hm hp with hp | ⟨rfl, hp⟩ <;> rcases hm hpk with hpk | ⟨rfl, hpk⟩
    · exact h.apart j k hjk p hp hpk
    · have := h.range j p hp
      omega
    · have := h.range k p hpk
      omega
    · exact hjk rfl
  · have := h.size_le
    rcases hm hp with hp | ⟨-, hp⟩
    · have := h.range j p hp
      omega
    · omega

end

/-- The places of the rest are slides that were not used yet, free duplicates, or duplicates to be made; none is used
twice. -/
lemma Stock.Serves.places {s : Stock} (h : s.Serves size seen rest)
    (hsequence : sequence.Perm (seen ++ rest)) (hbo : ∀ i ∈ rest, i < size) :
    ((s.useAll sequence rest).map place).Nodup ∧ ∀ p ∈ (s.useAll sequence rest).map place,
        (p < size ∧ p ∉ seen) ∨ (∃ i, p ∈ s.free i) ∨ s.size ≤ p := by
  induction rest generalizing seen s with
  | nil => exact ⟨nodup_nil, fun p hp => by cases hp⟩
  | cons i rest ih =>
    obtain ⟨hi, hr⟩ := forall_mem_cons.mp hbo
    rcases huse : s.use sequence i with ⟨u, s'⟩
    simp only [useAll, huse]
    have hn := h.use hsequence huse
    obtain ⟨hno, hpl⟩ := ih hn (hsequence.trans perm_middle) hr
    obtain ⟨ho, hc⟩ := use_cases h hsequence huse
    have hb (hs : s.size ≤ s'.size) : ∀ q ∈ (s'.useAll sequence rest).map place,
        (q < size ∧ q ∉ seen) ∨ (∃ j, q ∈ s.free j) ∨ s.size ≤ q := by
      intro q hq
      rcases hpl q hq with ⟨hlt, hq⟩ | ⟨j, hj⟩ | hle
      · exact .inl ⟨hlt, fun hm => hq (.tail _ hm)⟩
      · rcases mem_free_use h hsequence huse hj with hj | ⟨-, hj, -⟩
        · exact .inr (.inl ⟨j, hj⟩)
        · exact .inr (.inr hj)
      · exact .inr (.inr (hs.trans hle))
    rcases hc with ⟨hse, rfl, hs, -⟩ | ⟨hse, p, rfl, hs, hf⟩
    · refine ⟨nodup_cons.mpr ⟨fun hm => ?_, hno⟩, forall_mem_cons.mpr ⟨.inl ⟨hi, hse⟩, hb (by omega)⟩⟩
      rcases hpl i hm with ⟨-, hi'⟩ | ⟨j, hj⟩ | hle
      · exact hi' (.head _)
      · have := hn.range j i hj
        omega
      · have := hn.size_le
        omega
    · have hp : p ∈ s.free i := hf ▸ mem_cons_self
      have hra := h.range i p hp
      refine ⟨nodup_cons.mpr ⟨fun hm => ?_, hno⟩, forall_mem_cons.mpr ⟨.inr (.inl ⟨i, hp⟩), hb (by omega)⟩⟩
      rcases hpl p hm with ⟨hlt, -⟩ | ⟨j, hj⟩ | hle
      · omega
      · by_cases hji : j = i
        · exact (nodup_cons.mp (hf ▸ h.nodup i)).1 (hji ▸ hj)
        · rw [free, ho j hji] at hj
          exact h.apart i j (Ne.symm hji) p hp hj
      · omega

/-! ## Duplicates -/

def Registry.Total (reg : Registry σ) : Prop :=
  ∀ known relations r, ∃ id known', reg.obtain known relations r = .ok (id, known')

/-- A relation gets an identifier that it has already, or one that no other has. -/
def Registry.Sound (reg : Registry σ) : Prop :=
  ∀ known relations r id known', reg.obtain known relations r = .ok (id, known') →
    relations.lookup id = none ∨ relations.lookup id = some r

def Shape.Rewired (a b : Shape) : Prop :=
  ∃ references, b = a.withOutline { a.outline with references } ∧ references.map (·.role) = a.outline.references.map (·.role)

structure IsDuplicate (source copy : Slide) : Prop where
  name : copy.name = "new"
  layout : copy.layout = source.layout
  master : copy.master? = source.master?
  shapes : List.Forall₂ Shape.Rewired source.shapes copy.shapes

variable (media copied : List (String × Relation))

/-- **How a reference is copied.** If it embeds a picture or media of the slide, the duplicate has this relation under
the new identifier. -/
def Reference.Follows (a b : Reference) : Prop :=
  match a.role, media.lookup a.relation with
  | .embed, some r => copied.lookup b.relation = some r
  | _, _ => b = a

def Shape.Follows (a b : Shape) : Prop :=
  List.Forall₂ (Reference.Follows media copied) a.outline.references b.outline.references

namespace Copy

variable {β : Type}

/-- The relations stay, whatever is added. -/
def Grows (l l' : List (String × Relation)) : Prop := ∀ id r, l.lookup id = some r → l'.lookup id = some r

/-- Part of copying ends well, whatever was copied before, and keeps the relations. What it gives has a property with the
relations then and with all that are added later. -/
def Returns (x : Copy σ α) (P : α → List (String × Relation) → Prop) : Prop :=
  ∀ c, ∃ a c', x.run.run c = (.ok a, c') ∧ Grows c.relations c'.relations ∧ ∀ l, Grows c'.relations l → P a l

lemma returns_pure {a} {P : α → List (String × Relation) → Prop} (h : ∀ l, P a l) : Returns (pure a : Copy σ α) P :=
  fun c => ⟨a, c, rfl, fun _ _ h => h, fun l _ => h l⟩

lemma returns_log (call) : Returns (log call : Copy σ Unit) fun _ _ => True :=
  fun _ => ⟨(), _, rfl, fun _ _ h => h, fun _ _ => trivial⟩

variable {f : α → Copy σ β}

lemma run_bind_of_ok {x : Copy σ α} {a c c'} (h : x.run.run c = (.ok a, c')) : (x >>= f).run.run c = (f a).run.run c' := by
  rw [ExceptT.run_bind, StateT.run_bind, h]
  rfl

lemma returns_bind {x} {P : α → List (String × Relation) → Prop} {Q : β → List (String × Relation) → Prop}
    (hx : Returns x P) (hf : ∀ a, Returns (f a) fun b l => P a l → Q b l) : Returns (x >>= f) Q := by
  intro c
  obtain ⟨a, c', hr, hg, ha⟩ := hx c
  obtain ⟨b, c'', hr', hg', hb⟩ := hf a c'
  exact ⟨b, c'', (run_bind_of_ok hr).trans hr', fun id r h => hg' id r (hg id r h),
    fun l hl => hb l hl (ha l fun id r h => hl id r (hg' id r h))⟩

lemma returns_mapM {R : List (String × Relation) → α → β → Prop} (hf : ∀ a, Returns (f a) fun b l => R l a b) (l) :
    Returns (l.mapM f) fun bs rs => List.Forall₂ (R rs) l bs := by
  induction l with
  | nil => exact returns_pure fun _ => .nil
  | cons a l ih =>
    rw [mapM_cons]
    exact returns_bind (hf a) fun b => returns_bind ih fun bs => returns_pure fun _ hbs hb => .cons hb hbs

lemma returns_forM {f : α → Copy σ Unit} (hf : ∀ a, Returns (f a) fun _ _ => True) (l : List α) :
    Returns (l.forM f) fun _ _ => True := by
  induction l with
  | nil => exact returns_pure fun _ => trivial
  | cons a l ih => exact returns_bind (hf a) fun _ => by simpa using ih

section Total

variable {reg : Registry σ} (hreg : reg.Total)

include hreg

lemma returns_relate (r) : Returns (relate reg r) fun id l => reg.Sound → l.lookup id = some r := by
  intro c
  obtain ⟨id, k, ho⟩ := hreg c.registry c.relations r
  let relations := if (c.relations.lookup id).isSome then c.relations else c.relations ++ [(id, r)]
  have hr : (relate reg r).run.run c = (.ok id, ⟨k, relations, .list ["get_or_add", r.type, r.target] :: c.calls⟩) := by
    refine (run_bind_of_ok rfl).trans ((run_bind_of_ok rfl).trans ?_)
    rw [ho]
    rfl
  refine ⟨id, _, hr, fun id' r' h => ?_, fun l hl hs => hl id r ?_⟩
  · dsimp only [relations]
    split
    · exact h
    · rw [lookup_append, h]
      rfl
  · rcases hs _ _ _ _ _ ho with h | h <;> simp [relations, h, lookup_append]

lemma returns_rewire (a) : Returns (rewire reg media a) fun b l => b.role = a.role ∧ (reg.Sound → a.Follows media l b) := by
  unfold rewire Reference.Follows
  split
  · refine returns_bind (returns_relate hreg _) fun id => returns_bind (returns_log _) fun _ => returns_pure fun l _ hid => ?_
    exact ⟨rfl, by simp_all⟩
  · exact returns_pure fun _ => ⟨rfl, by simp_all⟩

lemma returns_shape (s) : Returns (shape reg media s) fun t l => s.Rewired t ∧ (reg.Sound → s.Follows media l t) := by
  refine returns_bind (returns_log _) fun _ => returns_bind (returns_mapM (returns_rewire media hreg) _) fun references => ?_
  refine returns_pure fun l hr _ => ⟨⟨references, rfl, ?_⟩, fun hs => ?_⟩
  · generalize s.outline.references = sources at hr
    induction hr with
    | nil => rfl
    | cons h _ ih => rw [map_cons, map_cons, h.1, ih]
  · have ho : (s.withOutline { s.outline with references }).outline.references = references := by cases s <;> rfl
    rw [Shape.Follows, ho]
    exact hr.imp fun _ _ h => h.2 hs

lemma returns_relateIfPossible (r) : Returns (relateIfPossible reg r) fun _ _ => True := by
  intro c
  obtain ⟨id, c', hr, hg, -⟩ := returns_relate hreg r c
  refine ⟨(), c', ?_, hg, fun _ _ => trivial⟩
  rw [relateIfPossible]
  simp only [tryCatch, tryCatchThe, MonadExceptOf.tryCatch, ExceptT.tryCatch, ExceptT.run_mk, StateT.run_bind]
  change (StateT.run (ExceptT.run (relate reg r >>= fun _ => pure ())) c >>= _) = _
  rw [run_bind_of_ok hr]
  rfl

lemma returns_slide (source c) : ∃ copy c', (slide reg source).run.run c = (.ok copy, c') ∧
    IsDuplicate source copy ∧ (reg.Sound →
      List.Forall₂ (Shape.Follows (source.relations.filter (·.2.isMedia)) copy.relations) source.shapes copy.shapes) := by
  unfold slide
  generalize source.relations.filter (·.2.isMedia) = media
  obtain ⟨shapes, c1, hr1, -, hs⟩ := returns_mapM (returns_shape media hreg) source.shapes
    ⟨c.registry, [], .list ["remove_shape"] :: c.calls⟩
  obtain ⟨_, c2, hr2, hg, -⟩ := returns_forM (fun p : String × Relation => returns_relateIfPossible hreg p.2) media c1
  refine ⟨_, c2, (run_bind_of_ok rfl).trans ((run_bind_of_ok rfl).trans ((run_bind_of_ok hr1).trans
    ((run_bind_of_ok hr2).trans (run_bind_of_ok rfl)))), ?_, fun hso => ?_⟩
  · exact ⟨rfl, rfl, rfl, (hs _ hg).imp fun _ _ h => h.1⟩
  · exact (hs _ hg).imp fun _ _ h => h.2 hso

end Total

end Copy

/-- **A duplicate shows the pictures and media that the slide embeds**, under identifiers of its own. What else a reference
names, the duplicate need not have. -/
theorem media_followed {reg : Registry σ} (htotal : reg.Total) (hsound : reg.Sound) (source : Slide) (known : σ) :
    ∃ copy c, (Copy.slide reg source).run.run { registry := known } = (.ok copy, c) ∧
      List.Forall₂ (Shape.Follows (source.relations.filter (·.2.isMedia)) copy.relations) source.shapes copy.shapes := by
  obtain ⟨copy, c, hrun, -, hfollows⟩ := Copy.returns_slide htotal source { registry := known }
  exact ⟨copy, c, hrun, hfollows hsound⟩

/-- A registry that always makes a new identifier, longer than those there are. -/
def lengthening : Registry Unit where
  obtain _ relations _ := .ok (.ofList ('r' :: relations.flatMap (·.1.toList)), ())

lemma sound_lengthening : lengthening.Sound := by
  rintro _ r _ id _ hid
  refine .inl (lookup_eq_none_iff.mpr fun p hp => bne_iff_ne.mpr fun heq => ?_)
  obtain ⟨_, _, rfl⟩ := append_of_mem hp
  have hl := congrArg String.length ((congrArg Prod.fst (Except.ok.inj hid)).trans heq)
  simp at hl
  have hr : "r".length = 1 := rfl
  omega

def pictured (type : String) : Slide where
  shapes := [.single { references := [⟨.embed, "rId2"⟩] }]
  relations := [("rId2", ⟨type, "m"⟩)]

theorem media_followed_picture : ∃ copy c,
    (Copy.slide lengthening (pictured "image")).run.run { registry := () } = (.ok copy, c) ∧
      Forall₂ (Shape.Follows [("rId2", ⟨"image", "m"⟩)] copy.relations) (pictured "image").shapes copy.shapes :=
  media_followed (fun _ _ _ => ⟨_, _, rfl⟩) sound_lengthening (pictured "image") ()

/-- A film is no picture and its type is not called media: the duplicate has no relation for it. -/
theorem film_not_followed : ∃ copy c,
    (Copy.slide lengthening (pictured "video")).run.run { registry := () } = (.ok copy, c) ∧ copy.relations = [] ∧
      copy.shapes = (pictured "video").shapes := ⟨_, _, rfl, rfl, rfl⟩

/-! ## Making the duplicates -/

/-- What stands at a place of the result: a slide of the deck itself, or a duplicate of one. -/
inductive Origin
  | original (i : Nat)
  | duplicate (i : Nat)
deriving DecidableEq

def Origin.position : Origin → Nat
  | original i => i
  | duplicate i => i

def Origin.Gives (deck : List Slide) : Origin → Slide → Prop
  | original i, s => deck[i]? = some s
  | duplicate i, s => ∃ source, deck[i]? = some source ∧ IsDuplicate source s

section Program

variable {reg : Registry σ}

/-- The part ends well, the reader does not leave, and this holds of what it gives and leaves. -/
def Runs (act : Act α) (s : Session) (Q : α → Session → Prop) : Prop :=
  ∃ a s', act.outcome s = (.ok a, s') ∧ s'.reader.limit? = none ∧ Q a s'

lemma Runs.bind {β : Type} {act next} {Q : α → Session → Prop} {R : β → Session → Prop}
    (h : Runs act s Q) (hn : ∀ a s', s'.reader.limit? = none → Q a s' → Runs (next a) s' R) : Runs (act >>= next) s R := by
  obtain ⟨a, s', hr, hs', ha⟩ := h
  obtain ⟨b, s'', hr', hb⟩ := hn a s' hs' ha
  exact ⟨b, s'', (bind_of_ok hr).trans hr', hb⟩

variable {slides : List Slide}

variable {sequence : List Int}

variable {decks : Decks} {template output : Path}

variable {deck : Deck}

end Program

end Sluice.Slides
