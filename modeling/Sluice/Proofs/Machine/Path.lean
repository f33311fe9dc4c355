import Mathlib.Data.List.TakeWhile
import Sluice.Machine.FileTree
import Sluice.Proofs.Text.Split

/-!
# Paths and the places they lead to

* A resolved path leads where the path led (`find?_resolve`).
* In a proper tree a path with one more name leads somewhere exactly if that name stands in the directory
  (`Proper.pathExists_child`).
* What is saved at a place is found there, and all other files stay as they were (`Saved`).
-/

namespace Sluice

open List
open String (ofList ofList_toList toList_ofList)

variable {cs : Chars} {names seen : List String} {p : Path}

namespace Path

variable {n : String}

lemma collapse_of_no_dots (h : ".." ∉ names) : collapse seen names = seen.reverse ++ names := by
  induction names generalizing seen with
  | nil => simp [collapse]
  | cons n names ih =>
    have hn : n ≠ ".." := fun he => h (he ▸ .head _)
    have hna : ".." ∉ names := fun hm => h (.tail _ hm)
    simp [collapse, hn, ih hna]

lemma no_dots_collapse (h : ".." ∉ seen) : ".." ∉ collapse seen names := by
  induction names generalizing seen with
  | nil => simpa [collapse] using h
  | cons n names ih =>
    rw [collapse]
    split
    · exact ih fun hm => h (mem_of_mem_tail hm)
    · rename_i hn
      exact ih (by simp [h, Ne.symm hn])

lemma isAbsolute_resolve (p : Path) : p.resolve.isAbsolute := by
  rw [resolve, join]
  split
  · rename_i h
    exact h
  · rfl

lemma root_join_resolve (p : Path) : root.join p.resolve = p.resolve := by rw [join, if_pos (isAbsolute_resolve p)]

lemma no_dots_resolve (p : Path) : ".." ∉ p.resolve.parts := no_dots_collapse (by simp)

@[simp] lemma resolve_resolve (p : Path) : p.resolve.resolve = p.resolve := by
  have hp : collapse [] p.resolve.parts = p.resolve.parts := collapse_of_no_dots (no_dots_resolve p)
  rw [resolve, root_join_resolve, hp]

/-- A path that is its own place, below an anchor. -/
structure Placed (p : Path) : Prop where
  resolve : p.resolve = p
  parts : p.parts ≠ []

@[simp] lemma name_child (p : Path) (n) : (p.child n).name = n := by simp [name, child]

@[simp] lemma parent_child (p : Path) (n) : (p.child n).parent = p := by simp [parent, child]

lemma child_name_parent (h : p.parts ≠ []) : p.parent.child p.name = p := by
  obtain ⟨_, parts⟩ := p
  have hp : parts.dropLast ++ [parts.getLastD ""] = parts := by
    rw [getLastD_eq_getLast?, getLast?_eq_some_getLast h]
    exact dropLast_concat_getLast h
  simp only [child, parent, name, hp]

lemma root_join_child (p n) : root.join (p.child n) = (root.join p).child n := by
  by_cases h : p.isAbsolute
  · have hc : (p.child n).isAbsolute := h
    rw [join, join, if_pos h, if_pos hc]
  · have hc : ¬ (p.child n).isAbsolute := h
    rw [join, join, if_neg h, if_neg hc, child, child, List.append_assoc]

lemma collapse_concat (h : n ≠ "..") : collapse seen (names ++ [n]) = collapse seen names ++ [n] := by
  induction names generalizing seen with
  | nil => simp [collapse, h]
  | cons m names ih =>
    rw [cons_append, collapse, collapse]
    split
    · exact ih
    · exact ih

lemma resolve_child (p : Path) (h : n ≠ "..") : (p.child n).resolve = p.resolve.child n := by
  simp only [resolve, root_join_child]
  simp [child, collapse_concat h]

/-! ## Text at the end of a path -/

/-- Text that goes on the last name of a path: it has no slash, and it is more than dots. -/
def IsTail (b : Chars) : Prop := '/' ∉ b ∧ '-' ∈ b

lemma exists_namesOf_append (a) : ∃ names last, ∀ b, IsTail b → namesOf (a ++ b) = names ++ [ofList (last ++ b)] := by
  obtain ⟨pieces, last, h⟩ := Text.exists_splitWhere_append (· == '/') a
  refine ⟨(pieces.map ofList).filter fun n => n != "" && n != ".", last, fun b hb => ?_⟩
  have hs : Text.splitAtChar '/' (a ++ b) = pieces ++ [last ++ b] := by
    refine h b fun c hc => ?_
    have hne : c ≠ '/' := fun he => hb.1 (he ▸ hc)
    simpa using hne
  have hm : '-' ∈ (ofList (last ++ b)).toList := by simp [hb.2]
  have hem : ofList (last ++ b) ≠ "" := fun he => by simp [he] at hm
  have hd : ofList (last ++ b) ≠ "." := fun he => by simp [he] at hm
  rw [namesOf, hs, map_append, map_singleton]
  generalize ofList (last ++ b) = name at hem hd
  simp [hem, hd]

lemma ofString_of_head (h : cs.head? ≠ some '/') : ofString (ofList cs) =
      if marks.contains (ofList (cs.takeWhile (· != '/'))) then
        ⟨ofList (cs.takeWhile (· != '/')), namesOf (cs.dropWhile (· != '/'))⟩
      else ⟨"", namesOf cs⟩ := by
  rw [ofString]
  split <;> simp_all

lemma ne_slash (h : '/' ∉ cs) : ∀ c ∈ cs, (c != '/') := fun _ hc => bne_iff_ne.mpr (ne_of_mem_of_not_mem hc h)

lemma joinText_of_name (p : Path) (hs : '/' ∉ n.toList) (he : n ≠ "") (hd : n ≠ ".")
    (hm : n ∉ marks) : p.joinText n = p.child n := by
  have hh : n.toList.head? ≠ some '/' := fun h => hs (mem_of_mem_head? h)
  have hn : namesOf n.toList = [n] := by
    rw [namesOf, Text.splitAtChar_of_not_mem hs]
    simp [he, hd]
  have hr : ofString n = ⟨"", [n]⟩ := by
    have h := ofString_of_head hh
    rw [takeWhile_eq_self_iff.mpr (ne_slash hs), ofList_toList, hn, if_neg (by simpa using hm)] at h
    exact h
  rw [joinText, hr]
  rfl

lemma ofString_slash (h : cs.head? ≠ some '/') : ofString (ofList ('/' :: cs)) = ⟨"/", namesOf cs⟩ := by
  rw [ofString]
  split <;> simp_all

lemma ofString_two_slashes (hne : cs ≠ []) (h : cs.head? ≠ some '/') :
    ofString (ofList ('/' :: '/' :: cs)) = ⟨"//", namesOf cs⟩ := by
  obtain ⟨c, r, rfl⟩ := exists_cons_of_ne_nil hne
  have hc : c ≠ '/' := by simpa using h
  rw [ofString, toList_ofList]
  exact if_neg hc

lemma ofString_three_slashes (cs : Chars) : ofString (ofList ('/' :: '/' :: '/' :: cs)) = ⟨"/", namesOf cs⟩ := by
  rw [ofString, toList_ofList]
  rfl

variable {a b : Chars}

lemma IsTail.head?_append (hb : IsTail b) (ha : a.head? ≠ some '/') : (a ++ b).head? ≠ some '/' := by
  cases a with
  | nil => exact fun h => hb.1 (mem_of_mem_head? h)
  | cons c a => exact ha

lemma IsTail.not_mark (hb : IsTail b) : marks.contains (ofList (a ++ b)) = false := by
  have hme : '-' ∈ (ofList (a ++ b)).toList := by simp [hb.2]
  generalize ofList (a ++ b) = name at hme
  rw [← Bool.not_eq_true, contains_iff_mem]
  intro hm
  simp only [marks, mem_cons, not_mem_nil, or_false] at hm
  rcases hm with rfl | rfl | rfl <;> simp at hme

lemma exists_ofString_append (a : Chars) : ∃ anchor names last, ∀ b, IsTail b →
      ofString (ofList (a ++ b)) = ⟨anchor, names ++ [ofList (last ++ b)]⟩ := by
  by_cases ha : a.head? = some '/'
  · obtain ⟨a, rfl⟩ := head?_eq_some_iff.mp ha
    by_cases ha' : a.head? = some '/'
    · obtain ⟨a, rfl⟩ := head?_eq_some_iff.mp ha'
      by_cases ha'' : a.head? = some '/'
      · obtain ⟨a, rfl⟩ := head?_eq_some_iff.mp ha''
        obtain ⟨names, last, h⟩ := exists_namesOf_append a
        exact ⟨"/", names, last, fun b hb => by rw [cons_append, cons_append, cons_append, ofString_three_slashes, h b hb]⟩
      · obtain ⟨names, last, h⟩ := exists_namesOf_append a
        refine ⟨"//", names, last, fun b hb => ?_⟩
        have hne : a ++ b ≠ [] := append_ne_nil_of_right_ne_nil a (ne_nil_of_mem hb.2)
        rw [cons_append, cons_append, ofString_two_slashes hne (hb.head?_append ha''), h b hb]
    · obtain ⟨names, last, h⟩ := exists_namesOf_append a
      exact ⟨"/", names, last, fun b hb => by rw [cons_append, ofString_slash (hb.head?_append ha'), h b hb]⟩
  · obtain ⟨names, last, h⟩ := exists_namesOf_append a
    by_cases hs : '/' ∈ a
    · -- the f name ends before the tail: it is a mark or not, whatever follows
      obtain ⟨f, r, rfl, hf⟩ := eq_append_cons_of_mem hs
      by_cases hma : ofList f ∈ marks
      · obtain ⟨names, last, h⟩ := exists_namesOf_append ('/' :: r)
        refine ⟨ofList f, names, last, fun b hb => ?_⟩
        rw [ofString_of_head (hb.head?_append ha), ← h b hb, List.append_assoc, takeWhile_append_of_pos (ne_slash hf),
          dropWhile_append_of_pos (ne_slash hf)]
        simp [hma]
      · refine ⟨"", names, last, fun b hb => ?_⟩
        rw [ofString_of_head (hb.head?_append ha), ← h b hb, List.append_assoc, takeWhile_append_of_pos (ne_slash hf)]
        simp [hma]
    · refine ⟨"", names, last, fun b hb => ?_⟩
      have hal : '/' ∉ a ++ b := fun hm => (mem_append.mp hm).elim hs hb.1
      rw [ofString_of_head (hb.head?_append ha), takeWhile_eq_self_iff.mpr (ne_slash hal), hb.not_mark, h b hb]
      rfl

lemma exists_toString_concat (anchor names) : ∃ front, ∀ name, toString ⟨anchor, names ++ [name]⟩ = front ++ name := by
  obtain ⟨front, h⟩ : ∃ front, ∀ name, String.intercalate "/" (names ++ [name]) = front ++ name := by
    by_cases hn : names = []
    · exact ⟨"", fun name => by simp [hn]⟩
    · exact ⟨String.intercalate "/" names ++ "/", fun name => by
        rw [String.intercalate_append_of_ne_nil hn (by simp), String.intercalate_singleton]⟩
  by_cases ha : anchor = ""
  · exact ⟨front, fun name => by simp [toString, ha, h]⟩
  · by_cases hs : anchor = "/" ∨ anchor = "//"
    · refine ⟨anchor ++ front, fun name => ?_⟩
      rw [toString, if_neg ha, if_pos hs, h, String.append_assoc]
    · refine ⟨anchor ++ "/" ++ front, fun name => ?_⟩
      rw [toString, if_neg ha, if_neg hs, h]
      simp [String.append_assoc]

/-- **The tail of a path's text** without a slash is the end of its last name; what comes before does not depend on it. -/
lemma exists_toString_joinText_append (p : Path) (a) :
    ∃ front, ∀ b : String, IsTail b.toList → (p.joinText (a ++ b)).toString = front ++ b := by
  obtain ⟨anchor, names, last, h⟩ := exists_ofString_append a.toList
  have hr : ∀ b : String, IsTail b.toList → ofString (a ++ b) = ⟨anchor, names ++ [ofList last ++ b]⟩ := by
    intro b hb
    have ht : ofList (a.toList ++ b.toList) = a ++ b := by rw [← String.toList_append, ofList_toList]
    rw [← ht, h b.toList hb, String.ofList_append, ofList_toList]
  -- an absolute path replaces the one it is joined to
  by_cases ha : anchor = ""
  · obtain ⟨front, hf⟩ := exists_toString_concat p.anchor (p.parts ++ names)
    refine ⟨front ++ ofList last, fun b hb => ?_⟩
    rw [joinText, hr b hb, join, if_neg (by simp [isAbsolute, ha]), ← List.append_assoc, hf, String.append_assoc]
  · obtain ⟨front, hf⟩ := exists_toString_concat anchor names
    refine ⟨front ++ ofList last, fun b hb => ?_⟩
    rw [joinText, hr b hb, join, if_pos (by simp [isAbsolute, ha]), hf, String.append_assoc]

end Path

namespace FileTree

lemma leads_of_no_dots (t : FileTree) (anchor) (h : ".." ∉ names) : t.leads anchor seen names := by
  induction names generalizing seen with
  | nil => rfl
  | cons n names ih =>
    have hn : n ≠ ".." := fun he => h (he ▸ .head _)
    rw [leads, if_neg hn]
    exact ih fun hm => h (.tail _ hm)

open Path

lemma find?_resolve {t : FileTree} {n} (h : t.find? p = some n) : t.find? p.resolve = some n := by
  have hn : t.node? p.resolve = some n := by
    rw [find?] at h
    split at h
    · exact h
    · exact absurd h (by simp)
  rw [find?, root_join_resolve, resolve_resolve, hn]
  exact if_pos (t.leads_of_no_dots _ (no_dots_resolve p))

/-! ## Directories -/

lemma leads_concat (t : FileTree) (anchor) {n} (h : n ≠ "..") :
    t.leads anchor seen (names ++ [n]) = t.leads anchor seen names := by
  induction names generalizing seen with
  | nil => simp [leads, h]
  | cons m names ih =>
    rw [cons_append, leads, leads]
    split
    · rw [ih]
    · exact ih

structure Proper (t : FileTree) : Prop where
  parents : ∀ e ∈ t.entries, t.node? e.1.parent = some .directory
  names : ∀ e ∈ t.entries, '/' ∉ e.1.name.toList

variable {t : FileTree} {p : Path} {n : String}

lemma mem_children_iff : n ∈ (t.children p).map (·.1) ↔ ∃ e ∈ t.entries, e.1 = p.resolve.child n := by
  simp only [children, mem_map, mem_mergeSort, mem_filterMap]
  constructor
  · rintro ⟨_, ⟨e, he, hh⟩, rfl⟩
    obtain ⟨⟨hpar, hpa⟩, hn⟩ := Option.ite_none_right_eq_some.mp hh
    obtain rfl := Option.some.inj hn
    exact ⟨e, he, by rw [← hpa, child_name_parent hpar]⟩
  · rintro ⟨e, he, hp⟩
    have hh : e.1.parts ≠ [] ∧ e.1.parent = p.resolve := by
      rw [hp]
      exact ⟨by simp [child], parent_child ..⟩
    exact ⟨(e.1.name, e.2), ⟨e, he, if_pos hh⟩, by rw [hp, name_child]⟩

lemma find?_child (h : n ≠ "..") : t.find? (p.child n) =
      if t.leads (root.join p).anchor [] (root.join p).parts then t.node? (p.resolve.child n) else none := by
  rw [find?, root_join_child, resolve_child p h]
  simp [child, leads_concat t _ h]

lemma node?_child_isSome (q : Path) : (t.node? (q.child n)).isSome ↔ ∃ e ∈ t.entries, e.1 = q.child n := by
  rw [node?, if_neg (by simp [child]), Option.isSome_map]
  simp [beq_iff_eq]

/-- **What a directory of a proper tree has**: a path with one more name leads somewhere exactly if the path does and the
name is there. -/
lemma Proper.pathExists_child (ht : t.Proper) (h : n ≠ "..") :
    t.pathExists (p.child n) ↔ t.pathExists p ∧ n ∈ (t.children p).map (·.1) := by
  rw [pathExists, pathExists, find?_child h, find?, mem_children_iff]
  by_cases hl : t.leads (root.join p).anchor [] (root.join p).parts
  · rw [if_pos hl, if_pos hl, node?_child_isSome]
    refine ⟨fun hth => ⟨?_, hth⟩, And.right⟩
    obtain ⟨e, he, hpl⟩ := hth
    have hp := ht.parents e he
    rw [hpl, parent_child] at hp
    rw [hp]
    rfl
  · rw [if_neg hl, if_neg hl]
    simp

lemma Proper.slash_not_mem (ht : t.Proper) (h : n ∈ (t.children p).map (·.1)) : '/' ∉ n.toList := by
  obtain ⟨e, he, hp⟩ := mem_children_iff.mp h
  have hn := ht.names e he
  rwa [hp, name_child] at hn

/-! ## Saving -/

variable {q : Path} {c c' : Content} {shown : String} {node : Node}

lemma find?_replaced (es : List (Path × Node)) (q) :
    (es.map fun e => if e.1 = p then (p, node) else e).find? (·.1 == q) =
      if q = p ∧ es.any (·.1 == p) then some (p, node) else es.find? (·.1 == q) := by
  induction es with
  | nil => simp
  | cons e es ih =>
    rw [map_cons, find?_cons, find?_cons, any_cons, ih]
    grind

lemma node?_put (hq : q.parts ≠ []) : (t.put p node).node? q = if q = p then some node else t.node? q := by
  have hem : q.parts.isEmpty = false := by simpa using hq
  simp only [node?, hem, Bool.false_eq_true, if_false, put]
  by_cases ha : t.entries.any (·.1 == p)
  · split_ifs with heq
    · rw [heq, find?_replaced, if_pos ⟨rfl, ha⟩]
      rfl
    · rw [find?_replaced, if_neg (heq ·.1)]
  · rw [if_neg ha, List.find?_append]
    split_ifs with heq
    · have hn : t.entries.find? (·.1 == p) = none := by
        rw [List.find?_eq_none]
        exact fun e he hep => ha (any_eq_true.mpr ⟨e, he, hep⟩)
      rw [heq, hn]
      simp
    · have hl : [(p, node)].find? (·.1 == q) = none := by simpa using Ne.symm heq
      rw [hl, Option.or_none]

lemma node?_makeDirs (hq : q.parts ≠ []) :
    (t.makeDirs p).node? q = t.node? q ∨ t.node? q = none ∧ (t.makeDirs p).node? q = some .directory := by
  rw [makeDirs]
  generalize p.resolve.parents.reverse ++ [p.resolve] = places
  induction places generalizing t with
  | nil => exact .inl rfl
  | cons r places ih =>
    rw [foldl_cons]
    by_cases hr : (r.parts.isEmpty || (t.node? r).isSome)
    · rw [if_pos hr]
      exact ih
    · rw [if_neg hr]
      have hp : (t.put r .directory).node? q = if q = r then some .directory else t.node? q := node?_put hq
      by_cases heq : q = r
      · -- the directory that was made stays
        have hn : t.node? q = none := by
          rw [Bool.or_eq_true, not_or] at hr
          simpa [heq] using hr.2
        rw [if_pos heq] at hp
        rcases ih (t := t.put r .directory) with h | h
        · exact .inr ⟨hn, h.trans hp⟩
        · rw [hp] at h
          cases h.1
      · rw [if_neg heq] at hp
        rw [← hp]
        exact ih

lemma find?_of_placed (hq : q.Placed) : t.find? q = t.node? q := by
  have hd : ".." ∉ q.parts := hq.resolve ▸ q.no_dots_resolve
  have hj : root.join q = q := by rw [← hq.resolve, root_join_resolve]
  rw [find?, hj, hq.resolve]
  exact if_pos (t.leads_of_no_dots _ hd)

/-- **What saving a content at a place does** to files. -/
structure Saved (t : FileTree) (p : Path) (c : Content) (t' : FileTree) : Prop where
  content : ∀ shown, t'.open? p shown = .ok c
  others : ∀ {q}, q.Placed → q ≠ p → ∀ shown c', t'.open? q shown = .ok c' ↔ t.open? q shown = .ok c'
  stays : ∀ {q}, q.Placed → t.pathExists q → t'.pathExists q

lemma open?_eq_ok : t.open? p shown = .ok c ↔ ∃ executable, t.find? p = some (.file c executable) := by
  rw [open?]
  split
  · rename_i c' executable hf
    rw [hf]
    simp
  · rename_i hf
    simp [hf]
  · rename_i hf
    simp [hf]

lemma saveAs_cases (t : FileTree) (p shown c) :
    t.saveAs p shown c = .ok (t.write p c) ∨ ∃ f, t.saveAs p shown c = .error f ∧ f.kind ≠ .value := by
  rw [saveAs, absence]
  split
  · exact .inr ⟨_, rfl, Fault.Kind.noConfusion⟩
  · split
    · exact .inl rfl
    · exact .inr ⟨_, rfl, Fault.Kind.noConfusion⟩
    · split <;> exact .inr ⟨_, rfl, Fault.Kind.noConfusion⟩

lemma saved_of_saveAs (hp : p.Placed) {t'} (h : t.saveAs p shown c = .ok t') : Saved t p c t' := by
  have hw : t' = t.write p c := by
    rcases saveAs_cases t p shown c with h' | ⟨f, h', -⟩
    · exact Except.ok.inj (h.symm.trans h')
    · cases h.symm.trans h'
  have hn : ∀ {q}, q.Placed → ∃ e, t'.find? q =
      if q = p then some (.file c e) else (t.makeDirs p.parent).node? q := by
    intro q hq
    rw [find?_of_placed hq, hw, write, hp.resolve, node?_put hq.parts]
    exact ⟨_, rfl⟩
  refine ⟨fun shown => ?_, fun {q} hq hne shown c' => ?_, fun {q} hq ht => ?_⟩
  · obtain ⟨e, hf⟩ := hn hp
    rw [if_pos rfl] at hf
    exact open?_eq_ok.mpr ⟨e, hf⟩
  · obtain ⟨e, hf⟩ := hn hq
    rw [if_neg hne] at hf
    rw [open?_eq_ok, open?_eq_ok, hf, find?_of_placed hq]
    rcases node?_makeDirs (t := t) (p := p.parent) hq.parts with h | ⟨hno, h⟩
    · rw [h]
    · rw [h, hno]
      simp
  · obtain ⟨e, hf⟩ := hn hq
    rw [pathExists, hf]
    rw [pathExists, find?_of_placed hq] at ht
    split_ifs
    · rfl
    · rcases node?_makeDirs (t := t) (p := p.parent) hq.parts with h | ⟨hno, h⟩
      · rw [h]
        exact ht
      · rw [h]
        rfl

lemma Saved.pathExists {t'} (h : Saved t p c t') : t'.pathExists p := by
  obtain ⟨_, hf⟩ := open?_eq_ok.mp (h.content "")
  rw [FileTree.pathExists, hf]
  rfl

end FileTree

end Sluice
