import Sluice.Proofs.Value.Fields
import Sluice.Yaml.Datum
import Sluice.Yaml.Writer

/-!
# Distinct names

Readers deliver records in which no name occurs twice. Then the order of the fields is all that sorting by name forgets.
-/

namespace Sluice

variable {c c' : Cursor} {fields fields' : Fields} {entries : List (Value × Datum)} {fuel : Nat} {text : String} {v : Value}

/-! ## Objects of JSON -/

namespace Json

lemma exists_ofPairs_of_members {acc}
    (h : members lastWins fuel c acc = .ok (v, c')) : ∃ pairs, v = .map (Fields.ofPairs pairs) := by
  induction fuel generalizing c acc with
  | zero => cases h
  | succ fuel ih =>
    simp only [members] at h
    -- a name, a colon and a value, or the object is refused
    split at h <;> try cases h
    split at h <;> try cases h
    split at h <;> try cases h
    split at h <;> try cases h
    split at h
    · obtain ⟨hv, -⟩ := Prod.mk.inj (Except.ok.inj h)
      exact ⟨_, hv.symm⟩
    · exact ih h
    · cases h

lemma exists_list_of_items {close acc} (h : items close fuel c acc = .ok (v, c')) : ∃ vs, v = .list vs := by
  induction fuel generalizing c acc with
  | zero => cases h
  | succ fuel ih =>
    simp only [items] at h
    split at h <;> try cases h
    split at h
    · obtain ⟨hv, -⟩ := Prod.mk.inj (Except.ok.inj h)
      exact ⟨_, hv.symm⟩
    · exact ih h
    · cases h

lemma number?_ne_map : number? c ≠ some (.map fields, c') := by
  intro h
  simp only [number?, Option.ite_none_left_eq_some] at h
  obtain ⟨-, h⟩ := h
  rcases ite_eq_iff.mp h with ⟨-, h⟩ | ⟨-, h⟩ <;> cases h

lemma scalar_ne_map : scalar c ≠ .ok (.map fields, c') := by
  intro h
  simp only [scalar] at h
  split at h
  · rename_i w v hf
    have hm := List.mem_of_find?_eq_some hf
    obtain ⟨rfl, -⟩ := Prod.mk.inj (Except.ok.inj h)
    simp [constants] at hm
  · split at h
    · rename_i v next hn
      have hv : ∃ n, checkSize v = .ok n ∧ n = .map fields := by
        cases hs : checkSize v with
        | error e =>
          rw [hs] at h
          cases h
        | ok n =>
          rw [hs] at h
          exact ⟨n, rfl, (Prod.mk.inj (Except.ok.inj h)).1⟩
      obtain ⟨n, hs, rfl⟩ := hv
      have hma : v = .map fields := by
        cases v with
        | int n =>
          simp only [checkSize] at hs
          split at hs <;> cases hs
        | _ => exact Except.ok.inj hs
      exact number?_ne_map (hma ▸ hn)
    · cases h

lemma exists_ofPairs_of_value
    (h : value lastWins fuel c = .ok (.map fields, c')) : ∃ pairs, fields = Fields.ofPairs pairs := by
  cases fuel with
  | zero => cases h
  | succ fuel =>
    simp only [value] at h
    split at h
    · cases hs : string (c.drop 1) with
      | error e =>
        rw [hs] at h
        cases h
      | ok r =>
        rw [hs] at h
        cases h
    · split at h
      · cases h
      · obtain ⟨vs, hvs⟩ := exists_list_of_items h
        cases hvs
    · split at h
      · obtain ⟨hv, -⟩ := Prod.mk.inj (Except.ok.inj h)
        exact ⟨[], (Value.map.inj hv).symm⟩
      · obtain ⟨pairs, hp⟩ := exists_ofPairs_of_members h
        exact ⟨pairs, Value.map.inj hp⟩
    · exact absurd h scalar_ne_map

/-- **An object that is read has distinct names.** -/
lemma distinct_of_read (h : read text = .ok (.map fields)) : fields.Distinct := by
  have hr : readWith lastWins text.toList = .ok (.map fields) := by
    rw [read] at h
    split at h
    · rename_i v hv
      rw [← Except.ok.inj h]
      exact hv
    · cases h
  rw [readWith] at hr
  split at hr
  · cases hr
  · split at hr
    · cases hr
    · rename_i v c hva
      dsimp only at hr
      split at hr
      · obtain rfl := Except.ok.inj hr
        obtain ⟨_, rfl⟩ := exists_ofPairs_of_value hva
        rw [Fields.Distinct, Fields.keys_ofPairs]
        exact nodup_eraseDups _
      · cases hr

end Json

/-! ## Tables of YAML -/

namespace Yaml

def Apart (entries : List (Value × Datum)) : Prop := entries.Pairwise fun a b => (a.1 == b.1) = false

lemma key_of_mem_setEntry {key d e} (h : e ∈ setEntry key d entries) : e.1 = key ∨ ∃ e' ∈ entries, e.1 = e'.1 := by
  induction entries with
  | nil =>
    rw [setEntry, List.mem_singleton] at h
    exact .inl (congrArg Prod.fst h)
  | cons f r ih =>
    obtain ⟨k, d'⟩ := f
    rw [setEntry] at h
    split at h
    · rcases List.mem_cons.mp h with rfl | hr
      · exact .inr ⟨(k, d'), .head _, rfl⟩
      · exact .inr ⟨e, List.mem_cons_of_mem _ hr, rfl⟩
    · rcases List.mem_cons.mp h with rfl | hr
      · exact .inr ⟨(k, d'), .head _, rfl⟩
      · rcases ih hr with hk | ⟨e', he', hk⟩
        · exact .inl hk
        · exact .inr ⟨e', List.mem_cons_of_mem _ he', hk⟩

lemma Apart.setEntry (h : Apart entries) (key d) : Apart (setEntry key d entries) := by
  induction entries with
  | nil => exact List.pairwise_singleton ..
  | cons f r ih =>
    obtain ⟨hk, hr⟩ := List.pairwise_cons.mp h
    rw [Yaml.setEntry]
    split
    · exact List.pairwise_cons.mpr ⟨hk, hr⟩
    · rename_i hne
      refine List.pairwise_cons.mpr ⟨fun e he => ?_, ih hr⟩
      rcases key_of_mem_setEntry he with hke | ⟨e', he', hke⟩
      · simpa [hke] using hne
      · rw [hke]
        exact hk e' he'

lemma run_bind {α β : Type} (part) (next : α → Building β) (faults) :
    (part >>= next).run faults = (next (part.run faults).1).run (part.run faults).2 := rfl

lemma Apart.buildPairs (h : Apart entries) (fuel depth pairs faults) :
    Apart ((buildPairs fuel depth pairs entries).run faults).1 := by
  induction pairs generalizing fuel entries faults with
  | nil =>
    rw [Yaml.buildPairs]
    exact h
  | cons p r ih =>
    cases fuel with
    | zero =>
      rw [Yaml.buildPairs]
      exact h
    | succ fuel =>
      rw [Yaml.buildPairs, run_bind]
      generalize StateT.run (build fuel depth _) faults = key
      obtain ⟨_ | _ | _ | _, _⟩ := key
      · exact ih (h.setEntry _ _) fuel _
      · exact h
      · exact h
      · exact h

variable {depth : Nat} {faults : List (Nat × Fault)}

lemma noteFault_ne_table {f} : ((noteFault depth f).run faults).1 ≠ .table entries := by simp [noteFault]

lemma apart_of_build {n} (h : ((build fuel depth n).run faults).1 = .table entries) : Apart entries := by
  cases fuel with
  | zero =>
    rw [build] at h
    exact absurd h noteFault_ne_table
  | succ fuel =>
    rw [build] at h
    split at h
    · -- a scalar
      split at h
      · split at h
        · cases h
        · exact absurd h noteFault_ne_table
      · exact absurd h noteFault_ne_table
    · split at h
      · -- a sequence
        split at h
        · cases h
        · exact absurd h noteFault_ne_table
      · split at h
        · -- a mapping
          split at h
          · split at h
            · rename_i pairs _
              have ha := Apart.buildPairs List.Pairwise.nil fuel (depth + 1) pairs faults
              split at h
              · cases h
              · cases h
                exact ha
            · exact absurd h noteFault_ne_table
          · exact absurd h noteFault_ne_table
        · -- pairs in a sequence
          split at h
          · split at h
            · cases h
            · exact absurd h noteFault_ne_table
          · exact absurd h noteFault_ne_table

variable {dialect : Dialect}

lemma apart_of_load (h : load dialect text = .ok (.table entries)) : Apart entries := by
  rw [load] at h
  split at h
  · cases h
  · cases h
  · split at h
    rename_i d faults hb
    split at h
    · cases h
    · obtain rfl := Except.ok.inj h
      exact apart_of_build (congrArg Prod.fst hb)

def Named (entries : List (Value × Datum)) : Prop := ∀ e ∈ entries, ∃ k, e.1 = .str k

lemma keys_toFields (entries) : Fields.keys (Datum.toFields entries) = entries.map fun e => keyName e.1 := by
  induction entries with
  | nil => rfl
  | cons e entries ih =>
    obtain ⟨k, d⟩ := e
    exact congrArg (List.cons (keyName k)) ih

/-- **A table of named values that is loaded has distinct names.** -/
lemma distinct_of_load (h : load dialect text = .ok (.table entries)) (hn : Named entries) :
    Fields.Distinct (Datum.toFields entries) := by
  rw [Fields.Distinct, keys_toFields, List.Nodup, List.pairwise_map]
  refine (apart_of_load h).imp_of_mem fun {a b} ha hb hap => ?_
  obtain ⟨k, hk⟩ := hn a ha
  obtain ⟨l, hl⟩ := hn b hb
  rw [hk, hl] at hap ⊢
  have hkl : (k == l) = false := hap
  simpa [keyName] using hkl

lemma sortedFields_perm (fields) : (sortedFields fields).Perm fields := List.mergeSort_perm fields _

lemma sortedFields_pairwise (fields) : (sortedFields fields).Pairwise fun a b => a.1 ≤ b.1 := by
  have ht (a b c : String × Value) (hab : decide (a.1 ≤ b.1)) (hbc : decide (b.1 ≤ c.1)) : decide (a.1 ≤ c.1) := by
    simp only [decide_eq_true_eq] at hab hbc ⊢
    exact String.le_trans hab hbc
  have hto (a b : String × Value) : (decide (a.1 ≤ b.1) || decide (b.1 ≤ a.1)) := by simpa using String.le_total a.1 b.1
  exact (List.pairwise_mergeSort ht hto fields).imp fun h => by simpa using h

lemma sortedFields_eq_of_perm (hp : fields.Perm fields')
    (hd : fields.Distinct) : sortedFields fields = sortedFields fields' := by
  have hbo := (sortedFields_perm fields).trans (hp.trans (sortedFields_perm fields').symm)
  refine hbo.eq_of_pairwise ?_ (sortedFields_pairwise fields) (sortedFields_pairwise fields')
  intro a b ha hb hab hba
  have ha' : a ∈ fields := (sortedFields_perm fields).mem_iff.mp ha
  have hb' : b ∈ fields := hp.mem_iff.mpr ((sortedFields_perm fields').mem_iff.mp hb)
  exact List.inj_on_of_nodup_map hd ha' hb' (String.le_antisymm hab hba)

lemma keys_sortedEach (fields : Fields) : Fields.keys (sortedEach fields) = Fields.keys fields := by
  induction fields with
  | nil => rfl
  | cons f fields ih =>
    obtain ⟨k, v⟩ := f
    exact congrArg (List.cons k) ih

lemma perm_of_sorted (h : sorted (.map fields) = sorted (.map fields')) : (sortedEach fields).Perm (sortedEach fields') := by
  have hs := Value.map.inj h
  exact (sortedFields_perm _).symm.trans (hs ▸ sortedFields_perm _)

lemma keys_perm_of_sorted (h : sorted (.map fields) = sorted (.map fields')) :
    (Fields.keys fields).Perm (Fields.keys fields') := by
  have hk := (perm_of_sorted h).map Prod.fst
  rwa [← Fields.keys, ← Fields.keys, keys_sortedEach, keys_sortedEach] at hk

lemma sorted_cons (h : sorted (.map fields) = sorted (.map fields')) {k} (hd : Fields.Distinct ((k, v) :: fields)) :
    sorted (.map ((k, v) :: fields)) = sorted (.map ((k, v) :: fields')) := by
  refine congrArg Value.map (sortedFields_eq_of_perm ((perm_of_sorted h).cons (k, sorted v)) ?_)
  exact (congrArg List.Nodup (keys_sortedEach ((k, v) :: fields))).mpr hd

end Yaml

end Sluice
