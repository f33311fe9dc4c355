import Mathlib.Data.List.Induction
import Mathlib.Data.List.Nodup
import Sluice.Value.Basic

/-!
# Fields in the order of first occurrence

On a **table of names**, `keys.map fun k => (k, value k)`, `get?`, `set` and `ofPairs` act as on a function of the
names.
-/

namespace Sluice

open List

variable {fs : Fields} {key : String} {v : Value}

/-! ## First occurrences -/

section FirstSeen

variable {α : Type} [BEq α] [LawfulBEq α]

lemma eraseDups_concat (l) (a : α) [Decidable (a ∈ l)] :
    (l ++ [a]).eraseDups = if a ∈ l then l.eraseDups else l.eraseDups ++ [a] := by
  rw [eraseDups_append]
  by_cases h : a ∈ l
  · rw [cons_removeAll]
    simp [h]
  · rw [cons_removeAll]
    simp [h, eraseDups_cons]

lemma nodup_eraseDups (l : List α) : l.eraseDups.Nodup := by
  classical
  induction l using List.reverseRecOn with
  | nil => simp
  | append_singleton l a ih =>
    rw [eraseDups_concat]
    split
    · exact ih
    · rename_i h
      rw [nodup_append]
      refine ⟨ih, nodup_singleton a, ?_⟩
      intro b hb c hc
      rw [mem_eraseDups] at hb
      rw [mem_singleton] at hc
      rintro rfl
      exact h (hc ▸ hb)

lemma eraseDups_of_nodup {l : List α} (h : l.Nodup) : l.eraseDups = l := by
  classical
  induction l using List.reverseRecOn with
  | nil => rfl
  | append_singleton l a ih =>
    rw [nodup_append] at h
    obtain ⟨hl, -, hd⟩ := h
    have ha : a ∉ l := fun hm => hd a hm a (mem_singleton_self a) rfl
    rw [eraseDups_concat, if_neg ha, ih hl]

lemma eraseDups_sublist (l : List α) : l.eraseDups.Sublist l := by
  classical
  induction l using List.reverseRecOn with
  | nil => simp
  | append_singleton l a ih =>
    rw [eraseDups_concat]
    split
    · exact ih.trans (sublist_append_left l [a])
    · exact ih.append_right [a]

lemma nodup_of_length_eraseDups {l : List α} (h : l.eraseDups.length = l.length) : l.Nodup := by
  have hl : l.eraseDups = l := (eraseDups_sublist l).eq_of_length h
  rw [← hl]
  exact nodup_eraseDups l

end FirstSeen

namespace Fields

lemma mem_of_get? (h : get? key fs = some v) : (key, v) ∈ fs := by
  induction fs with
  | nil => exact absurd h (by simp [get?])
  | cons f fs ih =>
    obtain ⟨k, w⟩ := f
    by_cases hk : k = key
    · simp only [get?, hk, if_true, Option.some.injEq] at h
      rw [hk, h]
      exact mem_cons_self ..
    · simp only [get?, hk] at h
      exact .tail _ (ih h)

lemma get?_of_mem (h : Distinct fs) (hm : (key, v) ∈ fs) : get? key fs = some v := by
  induction fs with
  | nil => cases hm
  | cons f fs ih =>
    obtain ⟨k, w⟩ := f
    obtain ⟨hk, hfs⟩ := nodup_cons.mp h
    rcases mem_cons.mp hm with heq | hr
    · obtain ⟨rfl, rfl⟩ := Prod.mk.inj heq
      exact if_pos rfl
    · have hne : k ≠ key := by
        rintro rfl
        exact hk (mem_map.mpr ⟨(k, v), hr, rfl⟩)
      rw [get?, if_neg hne]
      exact ih hfs hr

lemma get?_eq_none_iff : get? key fs = none ↔ key ∉ keys fs := by
  induction fs with
  | nil => simp [get?, keys]
  | cons f fs ih =>
    obtain ⟨k, v⟩ := f
    by_cases hk : k = key
    · simp [get?, keys, hk]
    · rw [get?, if_neg hk, ih]
      simp [keys, Ne.symm hk]

lemma get?_append (key fs gs) : get? key (fs ++ gs) = (get? key fs).or (get? key gs) := by
  induction fs with
  | nil => rfl
  | cons kv r ih =>
    obtain ⟨k, v⟩ := kv
    by_cases h : k = key
    · simp [get?, h]
    · simpa [get?, h] using ih

lemma get?_table (keys : List String) (value : String → Value) (key) :
    get? key (keys.map fun k => (k, value k)) = if key ∈ keys then some (value key) else none := by
  induction keys with
  | nil => rfl
  | cons k ks ih =>
    by_cases h : k = key
    · subst h
      simp [get?]
    · simp [get?, h, Ne.symm h, ih]

lemma mem_keys_erase {other} : other ∈ keys (erase key fs) ↔ other ∈ keys fs ∧ other ≠ key := by simp [keys, erase]

lemma erase_of_not_mem (h : key ∉ keys fs) : erase key fs = fs := by
  refine filter_eq_self.mpr fun f hf => ?_
  have hne : f.1 ≠ key := fun he => h (he ▸ mem_map_of_mem hf)
  simpa using hne

lemma Distinct.erase (h : Distinct fs) (key) : Distinct (erase key fs) := h.sublist (filter_sublist.map Prod.fst)

lemma get?_erase_of_ne {other} (h : other ≠ key) (fs) : get? other (erase key fs) = get? other fs := by
  induction fs with
  | nil => rfl
  | cons f fs ih =>
    obtain ⟨k, v⟩ := f
    by_cases hk : k = key
    · subst hk
      simpa [Fields.erase, get?, Ne.symm h] using ih
    · by_cases ho : k = other
      · simp [Fields.erase, get?, ho, h]
      · simpa [Fields.erase, get?, hk, ho] using ih

lemma set_of_not_mem (h : key ∉ keys fs) (v) : set key v fs = fs ++ [(key, v)] := by
  induction fs with
  | nil => rfl
  | cons kv r ih =>
    simp only [keys, map_cons, mem_cons, not_or] at h
    obtain ⟨hk, hr⟩ := h
    rw [set, if_neg (Ne.symm hk), ih hr]
    rfl

lemma keys_table (names) (value : String → Value) : keys (names.map fun k => (k, value k)) = names := by
  simp [keys, Function.comp_def]

lemma set_table_of_mem {names : List String} (hn : names.Nodup) (h : key ∈ names) (value : String → Value) (v) :
    set key v (names.map fun k => (k, value k)) = names.map fun k => (k, if k = key then v else value k) := by
  induction names with
  | nil => cases h
  | cons k ks ih =>
    obtain ⟨hk, hks⟩ := nodup_cons.mp hn
    by_cases hke : k = key
    · subst hke
      rw [map_cons, set, if_pos rfl, map_cons, if_pos rfl]
      refine congrArg (List.cons (k, v)) (map_congr_left fun j hj => ?_)
      have hjk : j ≠ k := fun hjk => hk (hjk ▸ hj)
      rw [if_neg hjk]
    · rw [map_cons, set, if_neg hke, map_cons, if_neg hke]
      rw [ih hks ((mem_cons.mp h).resolve_left (Ne.symm hke))]

/-! ## Setting many fields -/

lemma update_append (fs gs hs) : update fs (gs ++ hs) = update (update fs gs) hs := foldl_append

lemma ofPairs_concat (fs kv) : ofPairs (fs ++ [kv]) = set kv.1 kv.2 (ofPairs fs) := update_append [] fs [kv]

lemma keys_set (key v fs) : keys (set key v fs) = if key ∈ keys fs then keys fs else keys fs ++ [key] := by
  by_cases h : key ∈ keys fs
  · rw [if_pos h]
    induction fs with
    | nil => cases h
    | cons kv r ih =>
      obtain ⟨k, w⟩ := kv
      by_cases hk : k = key
      · rw [set, if_pos hk]
        rfl
      · have hr : key ∈ keys r := (mem_cons.mp h).resolve_left (Ne.symm hk)
        rw [set, if_neg hk]
        exact congrArg (List.cons k) (ih hr)
  · rw [if_neg h, set_of_not_mem h, keys, map_append]
    rfl

variable {f : String × Value}

lemma mem_set (h : f ∈ set key v fs) : f = (key, v) ∨ f ∈ fs := by
  induction fs with
  | nil => exact .inl (mem_singleton.mp h)
  | cons kv r ih =>
    rw [set] at h
    split at h
    · rename_i hk
      subst hk
      exact (mem_cons.mp h).imp_right (mem_cons_of_mem _)
    · rcases mem_cons.mp h with rfl | h
      · exact .inr (.head _)
      · exact (ih h).imp_right (mem_cons_of_mem _)

lemma mem_update {more} (h : f ∈ update fs more) : f ∈ fs ∨ f ∈ more := by
  induction more generalizing fs with
  | nil => exact .inl h
  | cons kv more ih =>
    rcases ih h with h | h
    · rcases mem_set h with rfl | h
      · exact .inr (.head _)
      · exact .inl h
    · exact .inr (.tail _ h)

lemma keys_ofPairs (fs) : keys (ofPairs fs) = (keys fs).eraseDups := by
  induction fs using List.reverseRecOn with
  | nil => rfl
  | append_singleton fs kv ih =>
    have hk : keys (fs ++ [kv]) = keys fs ++ [kv.1] := map_append
    rw [ofPairs_concat, keys_set, ih, hk, eraseDups_concat]
    simp only [mem_eraseDups]

lemma ofPairs_of_distinct (h : Distinct fs) : ofPairs fs = fs := by
  induction fs using List.reverseRecOn with
  | nil => rfl
  | append_singleton fs kv ih =>
    simp only [Distinct, keys, map_append] at h
    obtain ⟨hfs, -, hd⟩ := nodup_append.mp h
    rw [ofPairs_concat, ih hfs]
    refine set_of_not_mem ?_ kv.2
    exact fun hm => hd kv.1 hm kv.1 (mem_singleton_self _) rfl

lemma update_singleton (h : Distinct fs) (key v) : update [(key, v)] fs = (key, (get? key fs).getD v) :: erase key fs := by
  induction fs using List.reverseRecOn with
  | nil => rfl
  | append_singleton fs kv ih =>
    obtain ⟨k, w⟩ := kv
    simp only [Distinct, keys, map_append] at h
    obtain ⟨hfs, -, hd⟩ := nodup_append.mp h
    have hk : k ∉ keys fs := fun hm => hd k hm k (mem_singleton_self _) rfl
    have hs : update [(key, v)] (fs ++ [(k, w)]) = set k w (update [(key, v)] fs) := update_append _ fs _
    have he : erase key (fs ++ [(k, w)]) = erase key fs ++ erase key [(k, w)] := filter_append ..
    rw [hs, ih hfs, get?_append]
    by_cases hke : k = key
    · subst hke
      simp [set, get?_eq_none_iff.mpr hk, get?, erase]
    · have hn : k ∉ keys ((key, (get? key fs).getD v) :: erase key fs) := by
        intro hm
        rcases mem_cons.mp hm with rfl | hm
        · exact hke rfl
        · exact hk (mem_keys_erase.mp hm).1
      rw [set_of_not_mem hn]
      simp [get?, erase, hke]

end Fields

end Sluice
