import Sluice.Office.Tracked
import Sluice.Proofs.Dom.Marks
import Sluice.Proofs.Dom.Piece

/-!
# Changes of desks
-/

namespace Sluice.Office

open List Dom Attribute

variable {ms : List Nat} {new roots : List Node} {after next : Nat} {m? : Option Nat} {xml : String}

/-! ## Changes that do not fail -/

namespace Edit

variable {α β : Type} {d d' : Desk} {m : Nat} {name : String} {u : Unit} {a : α} {k : α → Edit β} {b : β}

/-- **A change turns a desk into another one** and gives a result, without a fault. -/
def Gives (e : Edit α) (d : Desk) (a : α) (d' : Desk) : Prop := e.run.run d = (.ok a, d')

/-- **A change ensures something**: whenever it does not fail, this holds of its result and of the desk. -/
def Ensures (e : Edit α) (d : Desk) (Q : α → Desk → Prop) : Prop := ∀ a d', Gives e d a d' → Q a d'

variable {c : Prop} {e : Edit β} {x : Edit α} {a₁ : α} {d₁ : Desk} {f : Fault} {u : PUnit}

lemma gives_of_run (h : x.run.run d = (.ok a₁, d₁)) : Gives x d a d' ↔ a = a₁ ∧ d' = d₁ := by
  rw [Gives, h, Prod.mk.injEq, Except.ok.injEq, eq_comm, eq_comm (a := d₁)]

lemma gives_bind_of_run (h : x.run.run d = (.ok a₁, d₁)) : Gives (x >>= k) d b d' ↔ Gives (k a₁) d₁ b d' := by
  rw [Gives, ExceptT.run_bind, StateT.run_bind, h]
  rfl

@[simp] lemma gives_pure {b} : Gives (pure a) d b d' ↔ b = a ∧ d' = d := gives_of_run rfl

@[simp] lemma gives_bind : Gives (x >>= k) d b d' ↔ ∃ a d₁, Gives x d a d₁ ∧ Gives (k a) d₁ b d' := by
  unfold Gives
  rw [ExceptT.run_bind, StateT.run_bind]
  rcases hx : x.run.run d with ⟨r, d₁⟩
  cases r with
  | error e =>
    refine ⟨fun h => ?_, fun ⟨_, _, h, _⟩ => ?_⟩
    · cases h
    · cases h
  | ok a =>
    refine ⟨fun h => ⟨a, d₁, rfl, h⟩, fun ⟨_, _, h, hk⟩ => ?_⟩
    cases h
    exact hk

lemma gives_bind_pure {f : α → β} {b} : Gives (x >>= fun a => pure (f a)) d b d' ↔ ∃ a, Gives x d a d' ∧ b = f a := by
  simp only [gives_bind, gives_pure]
  exact ⟨fun ⟨a, _, h, hb, hd⟩ => ⟨a, hd ▸ h, hb⟩, fun ⟨a, h, hb⟩ => ⟨a, d', h, hb, rfl⟩⟩

@[simp] lemma gives_throw : ¬ Gives (throw f) d a d' := by
  intro h
  cases h

lemma gives_guard [Decidable c] : Gives (if c then throw f >>= k else e) d b d' ↔ ¬c ∧ Gives e d b d' := by
  split <;> simp_all

@[simp] lemma gives_set : Gives (set d₁) d u d' ↔ d' = d₁ := (gives_of_run rfl).trans (and_iff_right rfl)

@[simp] lemma gives_modify {f} : Gives (modify f) d u d' ↔ d' = f d := (gives_of_run rfl).trans (and_iff_right rfl)

lemma gives_get_bind {k} : Gives (get >>= k) d b d' ↔ Gives (k d) d b d' := gives_bind_of_run rfl

lemma gives_set_bind {k} : Gives (set d₁ >>= k) d b d' ↔ Gives (k ⟨⟩) d₁ b d' := gives_bind_of_run rfl

lemma gives_modify_bind {f k} : Gives (modify f >>= k) d b d' ↔ Gives (k ⟨⟩) (f d) b d' := gives_bind_of_run rfl

@[simp] lemma gives_ofResult {r} : Gives (ofResult r) d a d' ↔ r = .ok a ∧ d' = d := by
  cases r with
  | error e => simp [ofResult]
  | ok b => simp [ofResult, eq_comm]

/-- A first part that leaves the desk as it is. -/
lemma gives_bind_of_iff {F : α → Prop} (h : ∀ {a d'}, Gives x d a d' ↔ F a ∧ d' = d) :
    Gives (x >>= k) d b d' ↔ ∃ a, F a ∧ Gives (k a) d b d' := by
  simp only [gives_bind, h]
  exact ⟨fun ⟨a, _, ⟨ha, rfl⟩, hk⟩ => ⟨a, ha, hk⟩, fun ⟨a, ha, hk⟩ => ⟨a, d, ⟨ha, rfl⟩, hk⟩⟩

lemma gives_ofResult_bind {r} : Gives (ofResult r >>= k) d b d' ↔ ∃ a, r = .ok a ∧ Gives (k a) d b d' :=
  gives_bind_of_iff gives_ofResult

@[simp] lemma gives_kept : Gives (kept m?) d m d' ↔ m? = some m ∧ d' = d := by
  cases m? with
  | none => simp [kept]
  | some k => simp [kept, eq_comm]

lemma gives_kept_bind {k} : Gives (kept m? >>= k) d b d' ↔ ∃ m, m? = some m ∧ Gives (k m) d b d' :=
  gives_bind_of_iff gives_kept

variable {n : Node}

@[simp] lemma gives_node : Gives (node m) d n d' ↔ d.find? m = some n ∧ d' = d := by
  rw [node, gives_get_bind]
  cases hf : d.find? m with
  | none => simp
  | some x => simp [eq_comm]

lemma gives_node_bind {k} : Gives (node m >>= k) d b d' ↔ ∃ n, d.find? m = some n ∧ Gives (k n) d b d' :=
  gives_bind_of_iff gives_node

lemma gives_found_bind {m k} {b : β} (h : d.find? m = some n) : Gives (node m >>= k) d b d' ↔ Gives (k n) d b d' := by
  rw [gives_node_bind]
  exact ⟨fun ⟨_, hn, hk⟩ => Option.some.inj (h.symm.trans hn) ▸ hk, fun hk => ⟨n, h, hk⟩⟩

lemma gives_fresh_bind {k} :
    Gives (fresh >>= k) d b d' ↔ Gives (k d.next) { d with next := d.next + 1 } b d' := gives_bind_of_run rfl

lemma gives_changeAttributes {f : List Attribute → List Attribute} :
    Gives (changeAttributes m f) d u d' ↔ d' = d.edit m fun n => [n.changeAttributes f] := gives_modify

lemma gives_changeChildren {f} :
    Gives (changeChildren m f) d u d' ↔ d' = d.edit m fun n => [n.changeChildren f] := gives_modify

/-- **A change leads** from desks of one kind to desks of another one, which may depend on its result. -/
def Leads (P : Desk → Prop) (e : Edit α) (Q : α → Desk → Prop) : Prop := ∀ ⦃d a d'⦄, Gives e d a d' → P d → Q a d'

/-- **A change preserves** a property of the desk. -/
def Preserves (e : Edit α) (I : Desk → Prop) : Prop := Leads I e fun _ => I

variable {I P : Desk → Prop} {x : Edit α} {Q : α → Desk → Prop} {R : β → Desk → Prop}

lemma preserves_pure : Preserves (pure a) I := fun _ _ _ h hd => (gives_pure.mp h).2 ▸ hd

lemma Leads.bind (hx : Leads P x Q) (hk : ∀ a, Leads (Q a) (k a) R) : Leads P (x >>= k) R := by
  intro d b d' h hd
  obtain ⟨a, d₁, ha, hb⟩ := gives_bind.mp h
  exact hk a hb (hx ha hd)

lemma leads_and {F} (h : F → Leads P x Q) : Leads (fun d => P d ∧ F) x Q := fun _ _ _ hr hd => h hd.2 hr hd.1

lemma leads_get_bind {k} (h : ∀ d, P d → Leads P (k d) R) : Leads P (get >>= k) R :=
  fun d _ _ hr hd => h d hd (gives_get_bind.mp hr) hd

lemma leads_guard [Decidable c] (h : Leads P e R) :
    Leads P (if c then throw f >>= k else e) R := fun _ _ _ hr => h (gives_guard.mp hr).2

lemma preserves_kept : Preserves (kept m?) I := fun _ _ _ h hd => (gives_kept.mp h).2 ▸ hd

lemma leads_node_bind {k} (h : ∀ n, Leads P (k n) R) : Leads P (node m >>= k) R := by
  intro d b d' hr hd
  obtain ⟨n, -, hr⟩ := gives_node_bind.mp hr
  exact h n hr hd

lemma preserves_each {f} {l : List α} (hf : ∀ a ∈ l, Preserves (f a) I) : Preserves (each f l) I := by
  induction l with
  | nil => exact preserves_pure
  | cons a l ih => exact (hf a (.head _)).bind fun _ => ih fun b hb => hf b (.tail _ hb)

lemma gives_part {p} (h : Gives (part name) d p d') : (d.part? name = some p ∧ d' = d) ∨
      (d.part? name = none ∧ ∃ content next, d.files.open? (d.base.joinText name) (d.base.joinText name).toString = .ok content ∧
        readTracked (readableText content) d.next = .ok (p.roots, next) ∧
        p = { path := d.base.joinText name, ascii := namesAscii content, roots := p.roots } ∧
        d' = { d with next, parts := d.parts ++ [(name, p)] }) := by
  rw [part, gives_get_bind] at h
  cases hp : d.part? name with
  | some q =>
    simp only [hp, gives_pure] at h
    exact .inl ⟨by rw [h.1], h.2⟩
  | none =>
    refine .inr ⟨rfl, ?_⟩
    simp only [hp] at h
    split at h
    · rw [gives_bind] at h
      obtain ⟨_, _, ht, -⟩ := h
      exact absurd ht gives_throw
    · simp only [load, bind_assoc, gives_get_bind, gives_ofResult_bind] at h
      obtain ⟨content, ho, ⟨roots, next⟩, hr, rfl, rfl⟩ := h
      exact ⟨content, next, ho, hr, rfl, rfl⟩

lemma gives_root (h : Gives (root name) d n d') : ∃ p, Gives (part name) d p d' ∧ p.root? = some n := by
  obtain ⟨p, d₁, hp, h⟩ := gives_bind.mp h
  split at h
  · obtain ⟨rfl, rfl⟩ := gives_pure.mp h
    exact ⟨p, hp, by assumption⟩
  · exact absurd h gives_throw

def declared (p : Part) : List Attribute :=
  match p.root? with
  | some root => root.attributes.filter (Text.S.startsWith "xmlns" ·.name)
  | none => []

lemma gives_fragment (h : Gives (fragment name xml) d new d') :
    ∃ p d₁ roots next, Gives (part name) d p d₁ ∧ read (wrapped (declared p) xml) d₁.next = .ok (roots, next) ∧
      new = ((roots.find? (·.isElement)).map (·.children)).getD [] ∧ d' = { d₁ with next } := by
  obtain ⟨p, d₁, hp, h⟩ := gives_bind.mp h
  simp only [gives_get_bind, gives_ofResult_bind] at h
  obtain ⟨⟨roots, next⟩, hr, h⟩ := h
  refine ⟨p, d₁, roots, next, hp, ?_, ?_⟩
  · rw [← hr, declared]
    cases p.root? <;> rfl
  · split at h
    · obtain ⟨_, _, ht, -⟩ := gives_bind.mp h
      exact absurd ht gives_throw
    · simpa only [gives_set_bind, gives_pure] using h

/-! ## Inserting -/

lemma takeWhile_eq_self {p} (h : new.length ≤ (new.takeWhile p).length) : new.takeWhile p = new :=
  ( takeWhile_prefix p).eq_of_length_le h

lemma gives_insertBefore (h : Gives (insertBefore m new) d u d') : d' = d.edit m fun n => new ++ [n] := by
  rw [insertBefore, gives_get_bind] at h
  split at h
  · exact absurd h gives_throw
  · split at h
    · rw [gives_set_bind] at h
      split at h
      · exact absurd h gives_throw
      · rename_i hl
        rw [takeWhile_eq_self (Nat.le_of_not_lt hl), gives_pure] at h
        exact h.2
    · exact gives_set.mp h

lemma gives_insertAfter (h : Gives (insertAfter m new) d u d') : d' = d.edit m fun n => n :: new := by
  rw [insertAfter, gives_get_bind] at h
  split at h
  · exact absurd h gives_throw
  · split at h
    · rw [gives_set_bind] at h
      split at h
      · rename_i hd
        rw [takeWhile_eq_self (drop_eq_nil_iff.mp hd), gives_pure] at h
        exact h.2
      · exact absurd h gives_throw
    · exact gives_set.mp h

lemma gives_append (h : Gives (append m new) d u d') :
    ∃ n, d.find? m = some n ∧ n.isElement ∧ d' = d.edit m fun n => [n.changeChildren (· ++ new)] := by
  rw [append, gives_node_bind] at h
  obtain ⟨n, hn, h⟩ := h
  split at h
  · exact ⟨n, hn, by assumption, gives_changeChildren.mp h⟩
  · exact absurd h gives_throw

lemma gives_insertMarkup (insert : Nat → List Node → Edit Unit) {f : List Node → Node → List Node}
    (hi : ∀ {m new d u d'}, Gives (insert m new) d u d' → d' = d.edit m (f new)) (h : Gives (do
      let m ← kept m?
      let new ← fragment name xml
      insert m new
      sign name (new.map (·.mark))
      pure (new.map (·.mark))) d ms d') :
    ∃ m new d₁, m? = some m ∧ Gives (fragment name xml) d new d₁ ∧
      Gives (sign name (new.map (·.mark))) (d₁.edit m (f new)) () d' ∧ ms = new.map (·.mark) := by
  obtain ⟨m, hm, hr⟩ := gives_kept_bind.mp h
  obtain ⟨new, d₁, hn, hr⟩ := gives_bind.mp hr
  obtain ⟨_, d2, hp, hr⟩ := gives_bind.mp hr
  obtain ⟨_, hs, rfl⟩ := gives_bind_pure.mp hr
  rw [hi hp] at hs
  exact ⟨m, new, d₁, hm, hn, hs, rfl⟩

lemma gives_appendMarkup (h : Gives (appendMarkup name m? xml) d ms d') :
    ∃ m new d₁ n, m? = some m ∧ Gives (fragment name xml) d new d₁ ∧ d₁.find? m = some n ∧ n.isElement ∧
      Gives (sign name (new.map (·.mark))) (d₁.edit m fun n => [n.changeChildren (· ++ new)]) () d' ∧
      ms = new.map (·.mark) := by
  obtain ⟨new, d₁, hne, hr⟩ := gives_bind.mp h
  obtain ⟨m, hm, hr⟩ := gives_kept_bind.mp hr
  obtain ⟨_, d2, ha, hr⟩ := gives_bind.mp hr
  obtain ⟨_, hs, rfl⟩ := gives_bind_pure.mp hr
  obtain ⟨n, hn, he, hd2⟩ := gives_append ha
  rw [hd2] at hs
  exact ⟨m, new, d₁, n, hm, hne, hn, he, hs, rfl⟩

end Edit

/-! ## Tidy desks -/

namespace Desk

variable {d d' : Desk} {m k : Nat} {f : Node → List Node} {n : Node} {name : String} {p : Part}

/-- **No mark occurs twice, and the next one is new.** -/
structure Tidy (d : Desk) : Prop where
  nodup : (marksOf d.forest).Nodup
  below : ∀ m ∈ marksOf d.forest, m < d.next

structure Spare (d : Desk) (marks : List Nat) : Prop where
  nodup : marks.Nodup
  below : ∀ m ∈ marks, m < d.next
  away : ∀ m ∈ marks, m ∉ marksOf d.forest

lemma spare_nil : d.Spare [] := by constructor <;> simp

variable {marks : List Nat}

lemma Tidy.of_perm (hd : d.Tidy) (hp : (marksOf d'.forest).Perm (marksOf d.forest ++ marks))
    (hma : marks.Nodup) (haw : ∀ m ∈ marks, m ∉ marksOf d.forest) (hbe : ∀ m ∈ marks, m < d'.next)
    (hn : d.next ≤ d'.next) : d'.Tidy := by
  refine ⟨hp.nodup_iff.mpr (nodup_append.mpr ⟨hd.nodup, hma, ?_⟩), fun m hm => ?_⟩
  · intro a ha b hb heq
    exact haw b hb (heq ▸ ha)
  · rcases mem_append.mp (hp.mem_iff.mp hm) with hm | hm
    · exact Nat.lt_of_lt_of_le (hd.below m hm) hn
    · exact hbe m hm

lemma flatMap_edit {ps : List (String × Part)} {rest} (hn : (marksOf (ps.flatMap (·.2.roots) ++ rest)).Nodup) :
    (ps.map fun q => (q.1, { q.2 with roots := Dom.edit m f q.2.roots })).flatMap (·.2.roots) ++ Dom.edit m f rest =
      Dom.edit m f (ps.flatMap (·.2.roots) ++ rest) := by
  induction ps with
  | nil => rfl
  | cons q ps ih =>
    rw [flatMap_cons, List.append_assoc] at hn
    have hr := hn
    rw [marksOf_append] at hr
    rw [map_cons, flatMap_cons, List.append_assoc, ih (nodup_append.mp hr).2.1, flatMap_cons,
      List.append_assoc, edit_append hn]

lemma Tidy.forest_edit (hd : d.Tidy) : (d.edit m f).forest = Dom.edit m f d.forest := flatMap_edit hd.nodup

lemma edit_of_not_mem (h : m ∉ marksOf d.forest) : d.edit m f = d := by
  have hp : ∀ q ∈ d.parts, Dom.edit m f q.2.roots = q.2.roots := by
    intro q hq
    refine Dom.edit_of_not_mem _ fun hme => h ?_
    obtain ⟨_, _, hs⟩ := append_of_mem hq
    rw [forest, hs, flatMap_append, flatMap_cons]
    simp only [marksOf_append]
    exact mem_append_left _ (mem_append_right _ (mem_append_left _ hme))
  have hl : Dom.edit m f d.loose = d.loose := by
    refine Dom.edit_of_not_mem _ fun hme => h ?_
    rw [forest, marksOf_append]
    exact mem_append_right _ hme
  have hma : (d.parts.map fun q => (q.1, { q.2 with roots := Dom.edit m f q.2.roots })) = d.parts := by
    refine (map_congr_left fun q hq => ?_).trans (map_id d.parts)
    rw [hp q hq]
    rfl
  rw [edit, hl]
  exact congrArg (fun parts => { d with parts }) hma

lemma Tidy.edit (hd : d.Tidy) (hma : d.Spare marks)
    (hf : ∀ n, d.find? m = some n → (marksOf (f n)).Perm (n.marks ++ marks)) : (d.edit m f).Tidy := by
  cases hfi : d.find? m with
  | none =>
    rw [edit_of_not_mem ((findIn?_eq_none _).mp hfi)]
    exact hd
  | some n =>
    refine hd.of_perm ?_ hma.nodup hma.away hma.below (Nat.le_refl _)
    rw [hd.forest_edit]
    refine (perm_append_right_iff n.marks).mp ((perm_marksOf_edit hd.nodup hfi).trans ?_)
    rw [List.append_assoc]
    exact ((hf n hfi).trans perm_append_comm).append_left _

lemma Tidy.insertBefore (hd : d.Tidy) (hn : d.Spare (marksOf new)) : (d.edit m fun n => new ++ [n]).Tidy :=
  hd.edit hn fun n _ => by
    rw [marksOf_append, marksOf_singleton]
    exact perm_append_comm

lemma Tidy.insertAfter (hd : d.Tidy) (hn : d.Spare (marksOf new)) : (d.edit m (· :: new)).Tidy :=
  hd.edit hn fun n _ => by rw [marksOf_cons]

lemma Tidy.append (hd : d.Tidy) (hne : d.Spare (marksOf new)) (hn : d.find? m = some n)
    (he : n.isElement) : (d.edit m fun n => [n.changeChildren (· ++ new)]).Tidy :=
  hd.edit hne fun n' hn' => by
    rw [hn] at hn'
    cases hn'
    cases n with
    | element k t cs => rw [Node.changeChildren, marksOf_singleton, marks_element, marksOf_append]; rfl
    | leaf k kind data => cases he

lemma Tidy.find?_append {y} (hd : d.Tidy) (hne : d.Spare (marksOf new)) (hn : d.find? m = some n)
    (he : n.isElement) (hy : findIn? k new = some y) :
    (d.edit m fun n => [n.changeChildren (· ++ new)]).find? k = some y := by
  have ht := hd.append hne hn he
  have hm := mark_of_findIn? hn
  cases n with
  | leaf k kind data => cases he
  | element l t cs =>
    obtain rfl : l = m := hm
    have hf : (d.edit l fun n => [n.changeChildren (· ++ new)]).forest =
        Dom.edit l (fun _ => [.element l t (cs ++ new)]) d.forest := by
      rw [hd.forest_edit]
      exact edit_congr hd.nodup hn rfl
    have ha : k ∉ marksOf d.forest := hne.away k (mem_marksOf_of_findIn? hy)
    have hl : l ≠ k := fun heq => ha (heq ▸ mem_marksOf_of_findIn? hn)
    have hcs : findIn? k cs = none := by
      refine (findIn?_eq_none _).mpr fun hme => ha ((marks_of_findIn? _ hn).2.subset ?_)
      exact .tail _ hme
    have hno := ht.nodup
    rw [hf] at hno
    rw [find?, hf]
    have hme : k ∈ marksOf [Node.element l t (cs ++ new)] := by
      rw [marksOf_singleton, marks_element, marksOf_append]
      exact .tail _ (mem_append_right _ (mem_marksOf_of_findIn? hy))
    rw [(edit_placed (f := fun _ => []) hd.nodup hn hno hme).2.1, findIn?_singleton, find?_element_of_ne hl,
      findIn?_append, hcs, Option.none_or, hy]

lemma Tidy.changeAttributes {g : List Attribute → List Attribute} (hd : d.Tidy) :
    (d.edit m fun n => [n.changeAttributes g]).Tidy := by
  refine hd.edit spare_nil fun n _ => ?_
  cases n <;> simp [Node.changeAttributes, marksOf_singleton, marks_element]

/-! ## Parts of a desk -/

lemma mem_parts_of_part? (h : d.part? name = some p) : (name, p) ∈ d.parts := by
  obtain ⟨q, hq, rfl⟩ := Option.map_eq_some_iff.mp h
  have hn : q.1 = name := by simpa using find?_some hq
  rw [← hn]
  exact mem_of_find?_eq_some hq

lemma exists_forest (h : d.part? name = some p) : ∃ pre post, d.forest = pre ++ p.roots ++ post := by
  obtain ⟨be, beh, hs⟩ := append_of_mem (mem_parts_of_part? h)
  refine ⟨be.flatMap (·.2.roots), beh.flatMap (·.2.roots) ++ d.loose, ?_⟩
  rw [forest, hs]
  simp

lemma Tidy.not_mem_other (hd : d.Tidy) {name' p'} (hp : d.part? name = some p)
    (hp' : d.part? name' = some p') (hne : name' ≠ name) (hm : m ∈ marksOf p.roots) : m ∉ marksOf p'.roots := by
  obtain ⟨be, beh, hs⟩ := append_of_mem (mem_parts_of_part? hp)
  have hf : d.forest = be.flatMap (·.2.roots) ++ p.roots ++ (beh.flatMap (·.2.roots) ++ d.loose) := by
    rw [forest, hs]
    simp
  have hn := hd.nodup
  rw [hf] at hn
  obtain ⟨hbe, hb⟩ := not_mem_of_mem_middle hn hm
  have hli : ∀ {l : List (String × Part)}, (name', p') ∈ l → m ∈ marksOf p'.roots → m ∈ marksOf (l.flatMap (·.2.roots)) := by
    intro l hl hme
    obtain ⟨_, _, rfl⟩ := append_of_mem hl
    rw [flatMap_append, flatMap_cons, marksOf_append, marksOf_append]
    exact mem_append_right _ (mem_append_left _ hme)
  intro hme
  have ho := mem_parts_of_part? hp'
  rw [hs, mem_append, mem_cons] at ho
  rcases ho with h | h | h
  · exact hbe (hli h hme)
  · exact hne (Prod.mk.inj h).1
  · rw [marksOf_append] at hb
    exact hb (mem_append_left _ (hli h hme))

lemma part?_edit : (d.edit m f).part? name = (d.part? name).map fun p => { p with roots := Dom.edit m f p.roots } := by
  simp only [part?, edit, find?_map, Option.map_map]
  rfl

lemma Tidy.find?_eq (hd : d.Tidy) (hp : d.part? name = some p) (hm : m ∈ marksOf p.roots) :
    d.find? m = findIn? m p.roots := by
  obtain ⟨_, _, hf⟩ := exists_forest hp
  have hn := hd.nodup
  rw [hf] at hn
  rw [find?, hf, findIn?_middle hn hm]

lemma Tidy.nodup_part (hd : d.Tidy) (hp : d.part? name = some p) : (marksOf p.roots).Nodup := by
  obtain ⟨_, _, hf⟩ := exists_forest hp
  have hn := hd.nodup
  rw [hf, marksOf_append, marksOf_append] at hn
  exact (nodup_append.mp (nodup_append.mp hn).1).2.1

lemma mem_marksOf_forest (hp : d.part? name = some p) (hm : m ∈ marksOf p.roots) : m ∈ marksOf d.forest := by
  obtain ⟨_, _, hf⟩ := exists_forest hp
  rw [hf, marksOf_append, marksOf_append]
  exact mem_append_left _ (mem_append_right _ hm)

lemma Tidy.mem_part_of_inside (hd : d.Tidy) (hp : d.part? name = some p) (hn : d.find? m = some n) (hk : k ∈ n.marks)
    (hme : k ∈ marksOf p.roots) : m ∈ marksOf p.roots := by
  obtain ⟨_, _, hf⟩ := exists_forest hp
  have hno := hd.nodup
  rw [hf] at hno
  obtain ⟨hpr, hpo⟩ := not_mem_of_mem_middle hno hme
  rw [find?, hf, findIn?_append, findIn?_append] at hn
  rcases Option.or_eq_some_iff.mp hn with hn | ⟨-, hn⟩
  · rcases Option.or_eq_some_iff.mp hn with hn | ⟨-, hn⟩
    · exact absurd ((marks_of_findIn? _ hn).2.subset hk) hpr
    · exact mem_marksOf_of_findIn? hn
  · exact absurd ((marks_of_findIn? _ hn).2.subset hk) hpo

lemma Tidy.mem_part_of_around (hd : d.Tidy) (hp : d.part? name = some p) {a} (ha : a ∈ d.around m)
    (hme : a.mark ∈ marksOf p.roots) : m ∈ marksOf p.roots := by
  rw [around] at ha
  cases har : aroundIn? m d.forest with
  | none =>
    rw [har] at ha
    cases ha
  | some as =>
    rw [har] at ha
    obtain ⟨he, hm⟩ := (mem_elementsOf_of_around _ har).2 a ha
    have hf : d.find? a.mark = some a := findIn?_of_mem_elementsOf _ hd.nodup he
    rw [hd.find?_eq hp hme] at hf
    exact (marks_of_findIn? _ hf).2.subset hm

/-- The marks of nodes are numbers in a range, each once. -/
def Numbered (next after : Nat) (roots : List Node) : Prop :=
  (marksOf roots).Nodup ∧ next ≤ after ∧ ∀ k ∈ marksOf roots, next ≤ k ∧ k < after

lemma numbered_of_eq {ns} (h : (roots, after) = numberAll next ns) : Numbered next after roots := by
  obtain ⟨rfl, rfl⟩ := Prod.mk.inj h
  obtain ⟨hma, ha⟩ := marksOf_numberAll next ns
  rw [Numbered, hma, ha]
  refine ⟨nodup_range', Nat.le_add_right .., fun k hk => ?_⟩
  rw [mem_range'_1] at hk
  exact hk

lemma marks_of_read {text} (h : read text next = .ok (roots, after)) : Numbered next after roots := by
  unfold Dom.read at h
  split at h
  · exact numbered_of_eq (Except.ok.inj h).symm
  · cases h

lemma marks_of_readTracked {text} (h : readTracked text next = .ok (roots, after)) : Numbered next after roots := by
  simp only [readTracked] at h
  split at h
  · exact numbered_of_eq (Except.ok.inj h).symm
  · cases h

lemma part?_of_gives (h : Edit.Gives (Edit.part name) d p d') (other) :
    d'.part? other = if other = name then some p else d.part? other := by
  rcases Edit.gives_part h with ⟨hp, rfl⟩ | ⟨hn, _, _, -, -, -, rfl⟩
  · split
    · rename_i heq
      rw [heq, hp]
    · rfl
  · simp only [part?]
    split
    · rename_i heq
      rw [part?, Option.map_eq_none_iff] at hn
      simp [heq, hn]
    · rename_i hne
      simp [Ne.symm hne]

lemma Tidy.part (hd : d.Tidy) (h : Edit.Gives (Edit.part name) d p d') : d'.Tidy := by
  rcases Edit.gives_part h with ⟨-, rfl⟩ | ⟨-, _, _, -, hre, -, rfl⟩
  · exact hd
  · obtain ⟨hn, hle, hr⟩ := marks_of_readTracked hre
    refine hd.of_perm ?_ hn (fun m hm hme => ?_) (fun m hm => (hr m hm).2) hle
    · simp only [forest, flatMap_append, flatMap_cons, marksOf_append, List.append_assoc]
      exact perm_append_comm.append_left _
    · exact absurd (hd.below m hme) (Nat.not_lt.mpr (hr m hm).1)

lemma Tidy.fragment (hd : d.Tidy) (h : Edit.Gives (Edit.fragment name xml) d new d') : d'.Tidy ∧ d'.Spare (marksOf new) := by
  obtain ⟨p, d₁, roots, _, hp, hre, rfl, rfl⟩ := Edit.gives_fragment h
  have hd1 := hd.part hp
  obtain ⟨hn, hle, hr⟩ := marks_of_read hre
  have hne : (marksOf (((roots.find? (·.isElement)).map (·.children)).getD [])).Sublist (marksOf roots) := by
    cases hro : roots.find? (·.isElement) with
    | none => exact nil_sublist _
    | some root =>
      obtain ⟨_, _, hs⟩ := append_of_mem (mem_of_find?_eq_some hro)
      rw [hs, marksOf_append]
      refine List.Sublist.trans ?_ (sublist_append_right _ _)
      refine List.Sublist.trans ?_ (sublist_append_left _ _)
      cases root with
      | element m t cs => exact (List.Sublist.refl _).cons m
      | leaf m kind data => exact nil_sublist _
  refine ⟨⟨hd1.nodup, fun m hm => Nat.lt_of_lt_of_le (hd1.below m hm) hle⟩, hn.sublist hne, fun m hm => ?_, fun m hm hme => ?_⟩
  · exact (hr m (hne.subset hm)).2
  · exact absurd (hd1.below m hme) (Nat.not_lt.mpr (hr m (hne.subset hm)).1)

end Desk

/-! ## Signing -/

namespace Edit

/-- The attributes that signing gives to elements, apart from the author. -/
def notes : List String :=
  ["w:rsidR", "w:rsidRDefault", "w:rsidP", "w14:paraId", "w14:textId", "w:rsidDel", "w:id", "w:date", "w16du:dateUtc",
   "w:initials", "w16cex:dateUtc", "xml:space"]

/-- What a step of signing makes of the attributes of an element. -/
inductive Signed (sig : Signature) (as : List Attribute) : List Attribute → Prop
  | same : Signed sig as as
  | note {name value : String} (hname : name ∈ notes) : Signed sig as (set as name value)
  | author (hnew : has as "w:author" = false) : Signed sig as (set as "w:author" sig.author)
  | space (e : Extension) (hnew : has as e.declaration = false) : Signed sig as (set as e.declaration e.uri)

/-- **What signing keeps**: changes of attributes at free nodes and at the root of the part keep it, and all other nodes
that signing changes are free. -/
structure Signing (sig : Signature) (part : String) (Free : Nat → Prop) (I : Desk → Prop) : Prop where
  signature : ∀ {d}, I d → d.signature? = some sig
  opened : ∀ {d}, I d → (d.part? part).isSome
  change : ∀ {d m n f}, I d → Free m → d.find? m = some n → Signed sig n.attributes (f n.attributes) →
    I (d.edit m fun n => [n.changeAttributes f])
  draw : ∀ {d}, I d → I { d with draws := d.draws + 1 }
  inside : ∀ {d m n k}, I d → Free m → d.find? m = some n → k ∈ n.marks → Free k
  root : ∀ {d p n f}, I d → d.part? part = some p → p.root? = some n → Signed sig n.attributes (f n.attributes) →
    I (d.edit n.mark fun n => [n.changeAttributes f])

namespace Signing

variable {sig : Signature} {part : String} {Free : Nat → Prop} {I : Desk → Prop} {d d' : Desk} {m : Nat} {u : Unit}
  (h : Signing sig part Free I)

include h

lemma part_eq {p} (hd : I d) (hp : Gives (Edit.part part) d p d') : d.part? part = some p ∧ d' = d := by
  rcases gives_part hp with ho | ⟨hn, -⟩
  · exact ho
  · have hs := h.opened hd
    rw [hn] at hs
    cases hs

lemma declare (e) : Preserves (Edit.declare part e) I := by
  intro d u d' hru hd
  obtain ⟨r, d₁, hro, hs⟩ := gives_bind.mp hru
  obtain ⟨p, hp, hr⟩ := gives_root hro
  obtain ⟨ho, rfl⟩ := h.part_eq hd hp
  rw [gives_changeAttributes.mp hs]
  refine h.root hd ho hr ?_
  rw [setNew]
  split
  · exact .same
  · exact .space e (Bool.eq_false_iff.mpr (by assumption))

lemma drawId : Preserves Edit.drawId I := by
  intro d s d' hr hd
  rw [Edit.drawId, gives_get_bind, gives_set_bind, gives_pure] at hr
  rw [hr.2]
  exact h.draw hd

section

variable (hm : Free m)

include hm

lemma changeAttributes {f : List Attribute → List Attribute}
    (hf : ∀ n, d.find? m = some n → Signed sig n.attributes (f n.attributes))
    (hr : Gives (Edit.changeAttributes m f) d u d') (hd : I d) : I d' := by
  rw [gives_changeAttributes.mp hr]
  cases hfi : d.find? m with
  | none =>
    rw [Desk.edit_of_not_mem ((findIn?_eq_none _).mp hfi)]
    exact hd
  | some n => exact h.change hd hm hfi (hf n hfi)

variable {name : String}

lemma setMissing (hn : name ∈ notes) {make} (hma : Preserves make I) : Preserves (Edit.setMissing m name make) I := by
  refine leads_node_bind fun n => ?_
  split
  · exact hma.bind fun _ _ _ _ => h.changeAttributes hm fun _ _ => .note hn
  · exact preserves_pure

lemma setAuthor : Preserves (Edit.setMissing m "w:author" (pure sig.author)) I := by
  intro d u d' hr hd
  rw [Edit.setMissing, gives_node_bind] at hr
  obtain ⟨n, hn, hr⟩ := hr
  split at hr
  · refine h.changeAttributes hm (fun n' hn' => ?_) hr hd
    rw [hn] at hn'
    cases hn'
    exact .author (by simpa using ‹(!_) = true›)
  · exact preserves_pure hr hd

lemma signParagraph : Preserves (Edit.signParagraph sig part m) I := by
  have hn : Preserves (do Edit.declare part .w14; Edit.drawId) I := (h.declare .w14).bind fun _ => h.drawId
  refine (h.setMissing hm (by decide) preserves_pure).bind fun _ => ?_
  refine (h.setMissing hm (by decide) preserves_pure).bind fun _ => ?_
  refine (h.setMissing hm (by decide) preserves_pure).bind fun _ => ?_
  exact (h.setMissing hm (by decide) hn).bind fun _ => h.setMissing hm (by decide) hn

lemma signRun : Preserves (Edit.signRun sig m) I := by
  refine leads_get_bind fun _ _ => h.setMissing hm ?_ preserves_pure
  split <;> decide

lemma signMoment : Preserves (Edit.setMissing m "w16du:dateUtc" do Edit.declare part .w16du; pure sig.stamp) I :=
  h.setMissing hm (by decide) ((h.declare .w16du).bind fun _ => preserves_pure)

lemma signChange : Preserves (Edit.signChange sig part m) I := by
  refine (h.setMissing hm (by decide) fun _ _ _ hv hd => ?_).bind fun _ => (h.setAuthor hm).bind fun _ => ?_
  · obtain ⟨id, _, hid, ht⟩ := gives_bind.mp hv
    obtain ⟨p, _, hp, hl⟩ := gives_bind.mp hid
    obtain ⟨-, rfl⟩ := h.part_eq hd hp
    obtain ⟨-, rfl⟩ := gives_ofResult.mp ht
    exact preserves_pure hl hd
  · exact (h.setMissing hm (by decide) preserves_pure).bind fun _ => h.signMoment hm

lemma signComment : Preserves (Edit.signComment sig m) I := by
  refine (h.setAuthor hm).bind fun _ => ?_
  exact (h.setMissing hm (by decide) preserves_pure).bind fun _ => h.setMissing hm (by decide) preserves_pure

lemma signExtension : Preserves (Edit.signExtension sig part m) I :=
  h.setMissing hm (by decide) ((h.declare .w16cex).bind fun _ => preserves_pure)

lemma markText : Preserves (Edit.markText m) I := by
  refine leads_node_bind fun n => ?_
  split
  · split
    · exact h.setMissing hm (by decide) preserves_pure
    · exact preserves_pure
  · exact preserves_pure

lemma signByName : Preserves (Edit.signByName sig part name m) I := by
  unfold Edit.signByName
  split
  · exact h.signParagraph hm
  · exact h.signRun hm
  · exact h.markText hm
  · exact h.signChange hm
  · exact h.signChange hm
  · exact h.signComment hm
  · exact h.signExtension hm
  · exact preserves_pure

lemma signInside {names} :
    Preserves (each (fun name => do
      let n ← node m
      each (Edit.signByName sig part name ·.mark) (n.inside name)) names) I := by
  refine preserves_each fun name _ d u d' hr hd => ?_
  rw [gives_node_bind] at hr
  obtain ⟨n, hn, hr⟩ := hr
  -- the elements inside are free as the node around them is
  have hf : ∀ e ∈ n.inside name, Free e.mark := fun e he => h.inside hd hm hn (mem_marks_of_mem_inside he)
  exact preserves_each (fun e he => h.signByName (hf e he)) hr hd

lemma signAll : Preserves (Edit.signAll sig part m) I := by
  refine leads_node_bind fun n => ?_
  split
  · exact (h.signByName hm).bind fun _ => h.signInside hm
  · exact preserves_pure

end

/-- **Signing keeps** what its steps keep. -/
lemma sign (hms : ∀ m ∈ ms, Free m) : Preserves (Edit.sign part ms) I := by
  intro d u d' hr hd
  rw [Edit.sign, gives_get_bind, h.signature hd] at hr
  exact preserves_each (fun m hm => h.signAll (hms m hm)) hr hd

end Signing

end Edit

end Sluice.Office
