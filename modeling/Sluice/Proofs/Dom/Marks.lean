import Mathlib.Tactic.Lemma
import Sluice.Dom.Node

/-!
# Marks

A relation that holds at the place of an edit, and is kept by neighbours and by elements around, holds for the whole
(`edit_rel`).
-/

namespace Sluice.Dom

open List Option

variable {m k : Nat} {f g : Node → List Node} {n x y : Node} {ns xs ys : List Node} {cs post pre : List Node} {t : Tag}

lemma marksOf_nil : marksOf [] = [] := by rw [marksOf]

lemma marksOf_cons (n ns) : marksOf (n :: ns) = n.marks ++ marksOf ns := by rw [marksOf]

lemma marksOf_singleton (n) : marksOf [n] = n.marks := by rw [marksOf_cons, marksOf_nil, append_nil]

lemma marks_element (m t cs) : (Node.element m t cs).marks = m :: marksOf cs := by rw [Node.marks]

lemma marks_leaf (m kind data) : (Node.leaf m kind data).marks = [m] := by rw [Node.marks]

lemma marksOf_append (xs ys) : marksOf (xs ++ ys) = marksOf xs ++ marksOf ys := by
  induction xs with
  | nil => rw [marksOf_nil]; rfl
  | cons x xs ih => rw [cons_append, marksOf_cons, marksOf_cons, ih, List.append_assoc]

lemma Node.mark_mem_marks (n : Node) : n.mark ∈ n.marks := by
  cases n with
  | element m t cs => rw [marks_element]; exact mem_cons_self ..
  | leaf m kind data => rw [marks_leaf]; exact mem_cons_self ..

lemma mem_marksOf_of_mem (h : n ∈ ns) : n.mark ∈ marksOf ns := by
  induction ns with
  | nil => cases h
  | cons x ns ih =>
    rcases mem_cons.mp h with rfl | h
    · exact mem_append_left _ n.mark_mem_marks
    · exact mem_append_right _ (ih h)

lemma findIn?_nil (m) : findIn? m [] = none := by rw [findIn?]

lemma findIn?_cons (m n ns) : findIn? m (n :: ns) = (n.find? m).or (findIn? m ns) := by
  rw [findIn?]
  cases n.find? m <;> rfl

lemma findIn?_singleton (m n) : findIn? m [n] = n.find? m := by rw [findIn?_cons, findIn?_nil, or_none]

lemma findIn?_append (m xs ys) : findIn? m (xs ++ ys) = (findIn? m xs).or (findIn? m ys) := by
  induction xs with
  | nil => rw [findIn?_nil]; rfl
  | cons x xs ih => rw [cons_append, findIn?_cons, findIn?_cons, ih, Option.or_assoc]

lemma find?_self (n : Node) : n.find? n.mark = some n := by cases n <;> simp [Node.find?, Node.mark]

lemma find?_element_of_ne (h : k ≠ m) : (Node.element k t cs).find? m = findIn? m cs := by rw [Node.find?, if_neg h]

lemma findIn?_eq_none : (ns : List Node) → (findIn? m ns = none ↔ m ∉ marksOf ns)
  | [] => by simp [findIn?_nil, marksOf_nil]
  | .leaf k kind data :: ns => by
    simp [findIn?_cons, Node.find?, marksOf_cons, marks_leaf, findIn?_eq_none ns, eq_comm (a := k)]
  | .element k t cs :: ns => by
    rw [findIn?_cons, marksOf_cons, marks_element]
    by_cases h : m = k
    · simp [Node.find?, h]
    · simp [find?_element_of_ne (Ne.symm h), h, findIn?_eq_none cs, findIn?_eq_none ns]

lemma Node.find?_eq_none (n : Node) : n.find? m = none ↔ m ∉ n.marks := by
  rw [← findIn?_singleton, findIn?_eq_none, marksOf_singleton]

mutual

lemma Node.marks_of_find? : (n : Node) → n.find? m = some x → x.mark = m ∧ x.marks.Sublist n.marks
  | .element k t cs, h => by
    by_cases hk : k = m
    · obtain rfl := Option.some.inj ((if_pos hk).symm.trans h)
      exact ⟨hk, .refl _⟩
    · exact (marks_of_findIn? cs ((if_neg hk).symm.trans h)).imp_right (·.cons k)
  | .leaf k kind data, h => by
    obtain ⟨hk, rfl⟩ := ite_some_none_eq_some.mp h
    exact ⟨hk, .refl _⟩

lemma marks_of_findIn? : (ns : List Node) → findIn? m ns = some x → x.mark = m ∧ x.marks.Sublist (marksOf ns)
  | n :: ns, h => by
    rw [findIn?_cons] at h
    rcases or_eq_some_iff.mp h with h | ⟨-, h⟩
    · exact (Node.marks_of_find? n h).imp_right (·.trans (sublist_append_left _ _))
    · exact (marks_of_findIn? ns h).imp_right (·.trans (sublist_append_right _ _))

end

lemma mark_of_findIn? (h : findIn? m ns = some n) : n.mark = m := (marks_of_findIn? ns h).1

lemma mem_marksOf_of_findIn? (h : findIn? m ns = some n) : m ∈ marksOf ns := by
  obtain ⟨hma, hm⟩ := marks_of_findIn? ns h
  exact hm.subset (hma ▸ n.mark_mem_marks)

lemma edit_nil (m f) : edit m f [] = [] := by rw [edit]

lemma edit_cons_of_eq (h : n.mark = m) : edit m f (n :: ns) = f n ++ ns := by rw [edit, if_pos h]

lemma edit_cons_of_ne (h : n.mark ≠ m) : edit m f (n :: ns) = n.editInside m f :: edit m f ns := by rw [edit, if_neg h]

lemma edit_singleton_of_eq (h : n.mark = m) : edit m f [n] = f n := by rw [edit_cons_of_eq h, append_nil]

lemma edit_element_self {t cs} : edit m f [.element m t cs] = f (.element m t cs) := edit_singleton_of_eq rfl

lemma edit_element_of_ne (h : k ≠ m) : edit m f [.element k t cs] = [.element k t (edit m f cs)] := by
  rw [edit_cons_of_ne (show (Node.element k t cs).mark ≠ m from h), edit_nil, Node.editInside]

mutual

lemma Node.editInside_of_not_mem : (n : Node) → m ∉ n.marks → n.editInside m f = n
  | .element k t cs, h => by
    rw [marks_element, mem_cons, not_or] at h
    rw [Node.editInside, edit_of_not_mem cs h.2]
  | .leaf k kind data, _ => by rw [Node.editInside]

lemma edit_of_not_mem : (ns : List Node) → m ∉ marksOf ns → edit m f ns = ns
  | [], _ => edit_nil m f
  | n :: ns, h => by
    rw [marksOf_cons, mem_append, not_or] at h
    have hne : n.mark ≠ m := fun heq => h.1 (heq ▸ n.mark_mem_marks)
    rw [edit_cons_of_ne hne, Node.editInside_of_not_mem n h.1, edit_of_not_mem ns h.2]

end

lemma edit_append_of_not_mem_left (h : m ∉ marksOf xs) : edit m f (xs ++ ys) = xs ++ edit m f ys := by
  induction xs with
  | nil => rfl
  | cons x xs ih =>
    rw [marksOf_cons, mem_append, not_or] at h
    have hne : x.mark ≠ m := fun heq => h.1 (heq ▸ x.mark_mem_marks)
    rw [cons_append, edit_cons_of_ne hne, Node.editInside_of_not_mem x h.1, ih h.2, cons_append]

lemma edit_append_of_not_mem_right (h : m ∉ marksOf ys) : edit m f (xs ++ ys) = edit m f xs ++ ys := by
  induction xs with
  | nil => rw [nil_append, edit_of_not_mem ys h, edit_nil, nil_append]
  | cons x xs ih =>
    by_cases hx : x.mark = m
    · rw [cons_append, edit_cons_of_eq hx, edit_cons_of_eq hx, List.append_assoc]
    · rw [cons_append, edit_cons_of_ne hx, edit_cons_of_ne hx, ih, cons_append]

lemma edit_append (h : (marksOf (xs ++ ys)).Nodup) : edit m f (xs ++ ys) = edit m f xs ++ edit m f ys := by
  rw [marksOf_append] at h
  by_cases hm : m ∈ marksOf xs
  · have hys : m ∉ marksOf ys := fun hme => (nodup_append.mp h).2.2 m hm m hme rfl
    rw [edit_append_of_not_mem_right hys, edit_of_not_mem ys hys]
  · rw [edit_append_of_not_mem_left hm, edit_of_not_mem xs hm]

/-! ## The place of an edit -/

/-- Relations between nodes that neighbours and elements around keep. -/
structure Congruent (R : List Node → List Node → Prop) : Prop where
  append : ∀ {xs ys : List Node} (pre post : List Node), (marksOf (pre ++ xs ++ post)).Nodup → R xs ys →
    R (pre ++ xs ++ post) (pre ++ ys ++ post)
  element : ∀ {cs cs' : List Node} (k : Nat) (t : Tag), (Node.element k t cs).marks.Nodup → R cs cs' →
    R [.element k t cs] [.element k t cs']

section Principle

variable {R : List Node → List Node → Prop}

mutual

lemma Node.edit_rel (hR : Congruent R) (h : R [x] (f x)) : (n : Node) →
    n.marks.Nodup → n.find? m = some x → R [n] (edit m f [n])
  | .element k t cs, hn, hf => by
    by_cases hk : k = m
    · obtain rfl := Option.some.inj ((if_pos hk).symm.trans hf)
      rwa [edit_singleton_of_eq (n := .element ..) hk]
    · rw [edit_element_of_ne hk]
      exact hR.element k t hn (edit_rel hR h cs (nodup_cons.mp hn).2 ((if_neg hk).symm.trans hf))
  | .leaf k kind data, _, hf => by
    obtain ⟨hk, rfl⟩ := ite_some_none_eq_some.mp hf
    rwa [edit_singleton_of_eq (n := .leaf ..) hk]

/-- **What holds at a place holds for the whole**, if neighbours and elements around keep it. -/
lemma edit_rel (hR : Congruent R) (h : R [x] (f x)) : (ns : List Node) →
    (marksOf ns).Nodup → findIn? m ns = some x → R ns (edit m f ns)
  | n :: ns, hno, hf => by
    obtain ⟨hn, hns, ha⟩ := nodup_append.mp hno
    rw [findIn?_cons] at hf
    rcases or_eq_some_iff.mp hf with hf | ⟨hnon, hf⟩
    · have hm : m ∉ marksOf ns := fun hme => by
        obtain ⟨hmar, hma⟩ := Node.marks_of_find? n hf
        exact ha m (hma.subset (hmar ▸ x.mark_mem_marks)) m hme rfl
      rw [← singleton_append, edit_append_of_not_mem_right hm]
      exact hR.append [] ns hno (Node.edit_rel hR h n hn hf)
    · have hm : m ∉ marksOf [n] := by
        rw [marksOf_singleton]
        exact (Node.find?_eq_none n).mp hnon
      rw [← singleton_append, edit_append_of_not_mem_left hm]
      have hmo := hR.append [n] [] (by simpa using hno) (edit_rel hR h ns hns hf)
      rwa [append_nil, append_nil] at hmo

end

end Principle

lemma not_mem_of_mem_middle (hn : (marksOf (pre ++ xs ++ post)).Nodup)
    (hk : k ∈ marksOf xs) : k ∉ marksOf pre ∧ k ∉ marksOf post := by
  rw [marksOf_append, marksOf_append] at hn
  obtain ⟨hl, -, hr⟩ := nodup_append.mp hn
  refine ⟨fun hm => (nodup_append.mp hl).2.2 k hm k hk rfl, fun hm => ?_⟩
  exact hr k (mem_append_right _ hk) k hm rfl

lemma findIn?_middle (hn : (marksOf (pre ++ xs ++ post)).Nodup) (hk : k ∈ marksOf xs) :
    findIn? k (pre ++ xs ++ post) = findIn? k xs := by
  obtain ⟨hpr, hp⟩ := not_mem_of_mem_middle hn hk
  rw [findIn?_append, findIn?_append, (findIn?_eq_none pre).mpr hpr, (findIn?_eq_none post).mpr hp, or_none]
  rfl

lemma edit_middle (hpr : m ∉ marksOf pre) (hp : m ∉ marksOf post) :
    edit m f (pre ++ xs ++ post) = pre ++ edit m f xs ++ post := by
  rw [edit_append_of_not_mem_right hp, edit_append_of_not_mem_left hpr]

lemma ne_of_mem_children (hn : (Node.element m t cs).marks.Nodup) (hk : k ∈ marksOf cs) : m ≠ k := by
  exact fun heq => (nodup_cons.mp hn).1 (heq ▸ hk)

lemma Congruent.around {R : List Node → List Node → Prop} (m)
    (ha : ∀ {xs ys : List Node} (pre post : List Node), m ∉ marksOf pre → m ∉ marksOf post → R xs ys →
      R (pre ++ xs ++ post) (pre ++ ys ++ post))
    (he : ∀ {cs cs' : List Node} (k : Nat) (t : Tag), k ≠ m → R cs cs' → R [.element k t cs] [.element k t cs']) :
    Congruent fun xs ys => m ∈ marksOf xs ∧ R xs ys := by
  refine ⟨fun pre post hn hxs => ⟨?_, ?_⟩, fun k t hn hcs => ⟨?_, ?_⟩⟩
  · rw [marksOf_append, marksOf_append]
    exact mem_append_left _ (mem_append_right _ hxs.1)
  · obtain ⟨hpr, hp⟩ := not_mem_of_mem_middle hn hxs.1
    exact ha pre post hpr hp hxs.2
  · rw [marksOf_singleton]
    exact .tail _ hcs.1
  · exact he k t (ne_of_mem_children hn hcs.1) hcs.2

lemma edit_congr (hn : (marksOf ns).Nodup) (hf : findIn? m ns = some x) (h : f x = g x) : edit m f ns = edit m g ns := by
  have hx := mark_of_findIn? hf
  have hR : Congruent fun xs ys => m ∈ marksOf xs ∧ ys = edit m g xs :=
    .around m (fun pre post hpr hp hxs => by rw [edit_middle hpr hp, hxs])
      (fun k t hk hcs => by rw [edit_element_of_ne hk, hcs])
  refine (edit_rel hR ⟨?_, ?_⟩ ns hn hf).2
  · rw [marksOf_singleton, ← hx]
    exact x.mark_mem_marks
  · rw [h, edit_singleton_of_eq hx]

/-- **What was put in the place of a node** can be found and edited in turn. -/
lemma edit_placed (hno : (marksOf ns).Nodup) (hfi : findIn? m ns = some n)
    (hno' : (marksOf (edit m (fun _ => ys) ns)).Nodup) (hk : k ∈ marksOf ys) :
    k ∈ marksOf (edit m (fun _ => ys) ns) ∧ findIn? k (edit m (fun _ => ys) ns) = findIn? k ys ∧
      edit k f (edit m (fun _ => ys) ns) = edit m (fun _ => edit k f ys) ns := by
  have hn := mark_of_findIn? hfi
  have hR : Congruent fun xs zs => m ∈ marksOf xs ∧ ((marksOf zs).Nodup → k ∈ marksOf zs ∧
      findIn? k zs = findIn? k ys ∧ edit k f zs = edit m (fun _ => edit k f ys) xs) := by
    refine .around m (fun pre post hpr hp hxs hno => ?_) (fun j t hj hcs hno => ?_)
    · have hm := hno
      rw [marksOf_append, marksOf_append] at hm
      obtain ⟨hme, hf, he⟩ := hxs (nodup_append.mp (nodup_append.mp hm).1).2.1
      obtain ⟨hpr', hp'⟩ := not_mem_of_mem_middle hno hme
      rw [findIn?_middle hno hme, edit_middle hpr' hp', edit_middle hpr hp, he, marksOf_append, marksOf_append]
      exact ⟨mem_append_left _ (mem_append_right _ hme), hf, rfl⟩
    · rw [marksOf_singleton] at hno ⊢
      obtain ⟨hme, hf, he⟩ := hcs (nodup_cons.mp ((marks_element j t _) ▸ hno)).2
      have hne := ne_of_mem_children hno hme
      rw [findIn?_singleton, find?_element_of_ne hne, edit_element_of_ne hne, edit_element_of_ne hj, he]
      exact ⟨mem_cons_of_mem _ hme, hf, rfl⟩
  refine (edit_rel hR ⟨?_, fun _ => ⟨hk, rfl, ?_⟩⟩ ns hno hfi).2 hno'
  · rw [marksOf_singleton, ← hn]
    exact n.mark_mem_marks
  · rw [edit_singleton_of_eq hn]

lemma perm_marksOf_edit (hn : (marksOf ns).Nodup) (hf : findIn? m ns = some x) :
    (marksOf (edit m f ns) ++ x.marks).Perm (marksOf ns ++ marksOf (f x)) := by
  have hR : Congruent fun xs ys => (marksOf ys ++ x.marks).Perm (marksOf xs ++ marksOf (f x)) := by
    refine ⟨fun {xs ys} pre post _ hxs => ?_, fun j t _ hcs => ?_⟩
    · simp only [marksOf_append, List.append_assoc]
      refine List.Perm.append_left _ ?_
      calc (marksOf ys ++ (marksOf post ++ x.marks)).Perm (marksOf ys ++ (x.marks ++ marksOf post)) :=
            List.Perm.append_left _ perm_append_comm
        _ = marksOf ys ++ x.marks ++ marksOf post := (List.append_assoc ..).symm
        (marksOf ys ++ x.marks ++ marksOf post).Perm (marksOf xs ++ marksOf (f x) ++ marksOf post) := hxs.append_right _
        _ = marksOf xs ++ (marksOf (f x) ++ marksOf post) := List.append_assoc ..
        (marksOf xs ++ (marksOf (f x) ++ marksOf post)).Perm (marksOf xs ++ (marksOf post ++ marksOf (f x))) :=
            List.Perm.append_left _ perm_append_comm
    · rw [marksOf_singleton, marksOf_singleton]
      exact List.Perm.cons j hcs
  refine edit_rel hR ?_ ns hn hf
  rw [marksOf_singleton]
  exact perm_append_comm

mutual

lemma Node.marks_number (next : Nat) : (n : Node) →
    (n.number next).1.marks = List.range' next n.marks.length ∧ (n.number next).2 = next + n.marks.length
  | .element m t cs => by
    obtain ⟨hm, hn⟩ := marksOf_numberAll (next + 1) cs
    simp only [Node.number, marks_element, length_cons]
    refine ⟨?_, ?_⟩
    · rw [hm, range'_succ]
    · omega
  | .leaf m kind data => by exact ⟨rfl, rfl⟩

lemma marksOf_numberAll (next : Nat) : (ns : List Node) →
    marksOf (numberAll next ns).1 = List.range' next (marksOf ns).length ∧ (numberAll next ns).2 = next + (marksOf ns).length
  | [] => by rw [numberAll, marksOf_nil]; exact ⟨rfl, rfl⟩
  | n :: ns => by
    obtain ⟨hm, hn⟩ := Node.marks_number next n
    obtain ⟨hm', hn'⟩ := marksOf_numberAll (n.number next).2 ns
    simp only [numberAll, marksOf_cons, length_append]
    refine ⟨?_, ?_⟩
    · rw [hm, hm', hn, range'_append_1]
    · rw [hn', hn]
      omega

end

/-! ## Elements inside -/

variable {e : Node}

lemma marks_elementsOf : (ns : List Node) → ((elementsOf ns).map (·.mark)).Sublist (marksOf ns)
  | [] => List.Sublist.refl _
  | .leaf j kind s :: ns => (marks_elementsOf ns).trans (sublist_append_right _ _)
  | .element j t cs :: ns => by
    rw [elementsOf, map_append, marksOf_cons]
    exact ((marks_elementsOf cs).cons_cons j).append (marks_elementsOf ns)

lemma mem_marksOf_of_mem_elementsOf (ns) (he : e ∈ elementsOf ns) : e.mark ∈ marksOf ns :=
  (marks_elementsOf ns).subset (mem_map_of_mem he)

lemma mem_marksOf_of_mem_named {name} (h : e ∈ named name ns) : e.mark ∈ marksOf ns :=
  mem_marksOf_of_mem_elementsOf ns (mem_filter.mp h).1

lemma mem_marks_of_mem_inside {name} (h : e ∈ n.inside name) : e.mark ∈ n.marks := by
  have hm := mem_marksOf_of_mem_named h
  cases n with
  | element m t cs => exact .tail _ hm
  | leaf m kind data => exact absurd hm not_mem_nil

mutual

lemma Node.find?_of_mem_elements : (n : Node) → n.marks.Nodup → e ∈ n.elements → n.find? e.mark = some e
  | .element m t cs, hn, he => by
    obtain ⟨hm, hcs⟩ := nodup_cons.mp hn
    rcases mem_cons.mp he with rfl | he
    · exact find?_self _
    · have hne : m ≠ e.mark := fun heq => hm (heq ▸ mem_marksOf_of_mem_elementsOf cs he)
      rw [find?_element_of_ne hne, findIn?_of_mem_elementsOf cs hcs he]

lemma findIn?_of_mem_elementsOf : (ns : List Node) → (marksOf ns).Nodup → e ∈ elementsOf ns →
    findIn? e.mark ns = some e
  | n :: ns, hno, he => by
    obtain ⟨hn, hns, ha⟩ := nodup_append.mp hno
    rw [findIn?_cons]
    rcases mem_append.mp he with he | he
    · rw [Node.find?_of_mem_elements n hn he]
      rfl
    · have hm := mem_marksOf_of_mem_elementsOf ns he
      rw [(Node.find?_eq_none n).mpr fun hme => ha _ hme _ hm rfl, findIn?_of_mem_elementsOf ns hns he]
      rfl

end

mutual

lemma Node.mem_elements_of_around {as : List Node} : (n : Node) → n.around? m = some as →
    m ∈ n.marks ∧ ∀ a ∈ as, a ∈ n.elements ∧ m ∈ a.marks
  | .element k t cs, h => by
    by_cases hk : k = m
    · obtain rfl := Option.some.inj ((if_pos hk).symm.trans h)
      exact ⟨hk ▸ .head _, by simp⟩
    · obtain ⟨_, hi, rfl⟩ := map_eq_some_iff.mp ((if_neg hk).symm.trans h)
      obtain ⟨hm, hal⟩ := mem_elementsOf_of_around cs hi
      refine ⟨.tail _ hm, fun a ha => ?_⟩
      rcases mem_append.mp ha with ha | ha
      · exact (hal a ha).imp_left (.tail _)
      · rw [mem_singleton.mp ha]
        exact ⟨.head _, .tail _ hm⟩
  | .leaf k kind data, h => by
    obtain ⟨hk, rfl⟩ := ite_some_none_eq_some.mp h
    exact ⟨hk ▸ .head _, by simp⟩

lemma mem_elementsOf_of_around {as : List Node} : (ns : List Node) → aroundIn? m ns = some as →
    m ∈ marksOf ns ∧ ∀ a ∈ as, a ∈ elementsOf ns ∧ m ∈ a.marks
  | n :: ns, h => by
    rw [aroundIn?] at h
    split at h
    · rename_i found hf
      cases h
      obtain ⟨hm, hal⟩ := Node.mem_elements_of_around n hf
      exact ⟨mem_append_left _ hm, fun a ha => (hal a ha).imp_left (mem_append_left _)⟩
    · obtain ⟨hm, hal⟩ := mem_elementsOf_of_around ns h
      exact ⟨mem_append_right _ hm, fun a ha => (hal a ha).imp_left (mem_append_right _)⟩

end

end Sluice.Dom
