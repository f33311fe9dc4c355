import Sluice.Markup.Command
import Sluice.Proofs.Text.Split
import Sluice.Proofs.Value.Fields

/-!
# Grouping by a key

`groupBy` gives the keys in order of first occurrence, each with its items in their order (`groupBy_eq`).
-/

namespace Sluice.Markup.Tree

open List

variable {α β : Type} {ks : List String} {k : String} {items : List α} {f : String → List α} {a : α}

def firstKeys (key : α → String) (items : List α) : List String := (items.map key).eraseDups

def withKey (key : α → String) (items : List α) (k : String) : List α := items.filter (key · == k)

variable {key : α → String}

lemma nodup_firstKeys (items) : (firstKeys key items).Nodup := nodup_eraseDups _

lemma mem_firstKeys : k ∈ firstKeys key items ↔ ∃ a ∈ items, key a = k := by rw [firstKeys, mem_eraseDups, mem_map]

lemma firstKeys_concat (items a) : firstKeys key (items ++ [a]) =
    if key a ∈ firstKeys key items then firstKeys key items else firstKeys key items ++ [key a] := by
  simp only [firstKeys, map_append, map_singleton, eraseDups_concat, mem_eraseDups]

lemma withKey_concat (items a k) :
    withKey key (items ++ [a]) k = if key a = k then withKey key items k ++ [a] else withKey key items k := by
  by_cases h : key a = k <;> simp [withKey, h]

lemma withKey_eq_nil (h : k ∉ firstKeys key items) : withKey key items k = [] := by
  rw [mem_firstKeys] at h
  refine filter_eq_nil_iff.mpr fun a ha hak => h ⟨a, ha, ?_⟩
  simpa using hak

lemma withKey_ne_nil (h : k ∈ firstKeys key items) : withKey key items k ≠ [] := by
  obtain ⟨a, ha, hak⟩ := mem_firstKeys.mp h
  exact ne_nil_of_mem (mem_filter.mpr ⟨ha, by simpa using hak⟩)

/-- **Groups are found at once**: the keys in order of first occurrence, each with its items. -/
lemma groupBy_eq (items) : groupBy key items = (firstKeys key items).map fun k => (k, withKey key items k) := by
  induction items using List.reverseRecOn with
  | nil => rfl
  | append_singleton items a ih =>
    -- one more item either joins its group or opens a new one
    rw [groupBy, foldl_append, foldl_cons, foldl_nil]
    rw [groupBy] at ih
    rw [ih]
    by_cases h : key a ∈ firstKeys key items
    · rw [if_pos (by simpa using h), firstKeys_concat, if_pos h, map_map]
      refine map_congr_left fun k _ => ?_
      rw [withKey_concat]
      by_cases hk : k = key a
      · simp [hk]
      · simp [hk, Ne.symm hk]
    · rw [if_neg (by simpa using h), firstKeys_concat, if_neg h, map_append, map_singleton]
      congr 1
      · refine map_congr_left fun k hk => ?_
        have hne : key a ≠ k := fun hak => h (hak ▸ hk)
        rw [withKey_concat, if_neg hne]
      · rw [withKey_concat, if_pos rfl, withKey_eq_nil h, nil_append]

lemma regroup_eq (items) : regroup key items = (firstKeys key items).flatMap (withKey key items) := by
  rw [regroup, groupBy_eq, List.flatMap_map]

variable {key' : β → String}

lemma groupBy_map {f} (hf : ∀ a, key' (f a) = key a) (items) :
    groupBy key' (items.map f) = (groupBy key items).map fun g => (g.1, g.2.map f) := by
  have hk : firstKeys key' (items.map f) = firstKeys key items := by simp [firstKeys, Function.comp_def, hf]
  have hw : ∀ k, withKey key' (items.map f) k = (withKey key items k).map f := by
    simp [withKey, filter_map, Function.comp_def, hf]
  simp [groupBy_eq, hk, hw]

lemma regroup_map {f} (hf : ∀ a, key' (f a) = key a) (items) : regroup key' (items.map f) = (regroup key items).map f := by
  rw [regroup, groupBy_map hf, List.flatMap_map, regroup, map_flatMap]

/-! ## Items that stand group by group -/

lemma firstKeys_flatMap (hks : ks.Nodup) (hne : ∀ k ∈ ks, f k ≠ []) (hf : ∀ k ∈ ks, ∀ a ∈ f k, key a = k) :
    firstKeys key (ks.flatMap f) = ks := by
  induction ks with
  | nil => rfl
  | cons k ks ih =>
    obtain ⟨hk, hn⟩ := nodup_cons.mp hks
    have ih' := ih hn (fun j hj => hne j (.tail _ hj))
      fun j hj => hf j (.tail _ hj)
    obtain ⟨a, as, hfk⟩ := exists_cons_of_ne_nil (hne k (.head _))
    have ha : ∀ b ∈ f k, key b = k := hf k (.head _)
    rw [hfk] at ha
    -- the rest of the first group has the key again, the other groups never
    have hfi : (as.map key).filter (!· == k) = [] := by
      refine filter_eq_nil_iff.mpr fun b hb => ?_
      obtain ⟨c, hc, rfl⟩ := mem_map.mp hb
      simp [ha c (.tail _ hc)]
    have hr : ((ks.flatMap f).map key).filter (!· == k) = (ks.flatMap f).map key := by
      refine filter_eq_self.mpr fun b hb => ?_
      obtain ⟨c, hc, rfl⟩ := mem_map.mp hb
      obtain ⟨j, hj, hcj⟩ := List.mem_flatMap.mp hc
      have hjk : j ≠ k := fun hjk => hk (hjk ▸ hj)
      simp [hf j (.tail _ hj) c hcj, hjk]
    rw [firstKeys, flatMap_cons, hfk, cons_append, map_cons, eraseDups_cons,
      ha a (.head _), map_append, filter_append, hfi, hr]
    exact congrArg (List.cons k) ih'

lemma withKey_flatMap (hks : ks.Nodup) (hf : ∀ k ∈ ks, ∀ a ∈ f k, key a = k) (hk : k ∈ ks) :
    withKey key (ks.flatMap f) k = f k := by
  induction ks with
  | nil => cases hk
  | cons j js ih =>
    obtain ⟨hj, hn⟩ := nodup_cons.mp hks
    have hfj : ∀ i ∈ js, ∀ a ∈ f i, key a = i := fun i hi => hf i (.tail _ hi)
    rw [flatMap_cons, withKey, filter_append]
    rcases mem_cons.mp hk with rfl | hm
    · have how : (f k).filter (key · == k) = f k := filter_eq_self.mpr fun a ha => by simp [hf k (.head _) a ha]
      have ho : (js.flatMap f).filter (key · == k) = [] := by
        refine filter_eq_nil_iff.mpr fun a ha hak => ?_
        obtain ⟨i, hi, hai⟩ := List.mem_flatMap.mp ha
        rw [hfj i hi a hai, beq_iff_eq] at hak
        exact hj (hak ▸ hi)
      rw [how, ho, append_nil]
    · have hot : (f j).filter (key · == k) = [] := by
        refine filter_eq_nil_iff.mpr fun a ha hak => ?_
        rw [hf j (.head _) a ha, beq_iff_eq] at hak
        exact hj (hak ▸ hm)
      rw [hot]
      exact ih hn hfj hm

lemma groupBy_flatMap (hks : ks.Nodup) (hne : ∀ k ∈ ks, f k ≠ []) (hf : ∀ k ∈ ks, ∀ a ∈ f k, key a = k) :
    groupBy key (ks.flatMap f) = ks.map fun k => (k, f k) := by
  rw [groupBy_eq, firstKeys_flatMap hks hne hf]
  exact map_congr_left fun k hk => by rw [withKey_flatMap hks hf hk]

/-- **Regrouping keeps the groups.** -/
lemma groupBy_regroup (items) : groupBy key (regroup key items) = groupBy key items := by
  rw [regroup_eq, groupBy_flatMap (nodup_firstKeys items) (fun _ => withKey_ne_nil)
    (fun _ _ _ h => by simpa using (mem_filter.mp h).2), groupBy_eq]

end Sluice.Markup.Tree

/-!
## Tree records are normal forms

A tree record describes the normal form (`norm`) of its element. The children of an element make one field for each
group (`childRecords_eq`).
-/

namespace Sluice.Markup

open List Text Fields
open Fields (get? get?_append get?_table set)

variable {ts : List Tree} {key : String} {t : Tree} {f : Tree → Draft} {u : Tree} {text : String}

namespace Tree

@[elab_as_elim] lemma inductionOn {P : Tree → Prop} (node : ∀ tag attributes text tail children, (∀ c ∈ children, P c) →
      P (.node tag attributes text tail children)) (t) : P t := by
  obtain ⟨tag, attributes, text, tail, children⟩ := t
  exact node tag attributes text tail children fun c _ => inductionOn node c
termination_by sizeOf t
decreasing_by
  have hlt := sizeOf_lt_of_mem ‹c ∈ children›
  simp only [Tree.node.sizeOf_spec]
  omega

def Distinct (t : Tree) : Prop := ∀ u ∈ t.flatten, (u.attributes.map Prod.fst).Nodup

instance (t : Tree) : Decidable t.Distinct := inferInstanceAs (Decidable (∀ u ∈ t.flatten, (u.attributes.map Prod.fst).Nodup))

lemma mem_flattenAll : u ∈ flattenAll ts ↔ ∃ t ∈ ts, u ∈ t.flatten := by
  induction ts with
  | nil => simp [flattenAll]
  | cons t ts ih => simp [flattenAll, ih]

variable {tail : String}

lemma Distinct.attributes {tag attributes children} (h : (node tag attributes text tail children).Distinct) : (attributes.map Prod.fst).Nodup :=
  h (node tag attributes text tail children) (by rw [flatten]; exact mem_cons_self ..)

lemma Distinct.children {tag attributes children} (h : (node tag attributes text tail children).Distinct) : ∀ c ∈ children, c.Distinct := by
  intro c hc u hu
  refine h u ?_
  exact .tail _ (mem_flattenAll.mpr ⟨c, hc, hu⟩)

lemma normAll_eq_map (ts) : normAll ts = ts.map norm := by
  induction ts with
  | nil => rfl
  | cons t ts ih => rw [normAll, ih, map_cons]

@[simp] lemma tag_norm (t : Tree) : t.norm.tag = t.tag := by
  obtain ⟨tag, _, _, _, _⟩ := t
  rw [norm, Tree.tag, Tree.tag]

def groupRecord : List Tree → Value
  | [t] => t.toRecord
  | ts => .list (ts.map toRecord)

lemma childRecords_append (acc ts us) : childRecords acc (ts ++ us) = childRecords (childRecords acc ts) us := by
  induction ts generalizing acc with
  | nil => rfl
  | cons t ts ih => rw [cons_append, childRecords, childRecords, ih]

lemma addChild_of_get? {acc} (hts : ts ≠ []) (h : get? t.tag acc = some (groupRecord ts)) :
    addChild t.tag t.toRecord acc = set t.tag (groupRecord (ts ++ [t])) acc := by
  match ts with
  | [] => exact absurd rfl hts
  | [u] =>
    obtain ⟨tag, _, _, _, _⟩ := u
    simp [addChild, h, groupRecord, toRecord]
  | u :: v :: us =>
    rw [groupRecord] at h
    · simp only [addChild, h]
      simp [groupRecord]
    · simp

/-- **The records of children are one field for each group**, in the order in which the tags first
occur. -/
lemma childRecords_eq (ts) : childRecords [] ts = (firstKeys tag ts).map fun k => (k, groupRecord (withKey tag ts k)) := by
  induction ts using List.reverseRecOn with
  | nil => rfl
  | append_singleton ts t ih =>
    rw [childRecords_append, ih, childRecords]
    by_cases h : t.tag ∈ firstKeys tag ts
    · -- the tag came before: the field of its group changes, all others stay
      have hg := get?_table (firstKeys tag ts) (fun k => groupRecord (withKey tag ts k)) t.tag
      rw [if_pos h] at hg
      rw [addChild_of_get? (withKey_ne_nil h) hg, set_table_of_mem (nodup_firstKeys ts) h, firstKeys_concat, if_pos h]
      refine map_congr_left fun k _ => ?_
      by_cases hk : k = t.tag
      · rw [if_pos hk, withKey_concat, if_pos hk.symm, hk]
      · rw [if_neg hk, withKey_concat, if_neg (Ne.symm hk)]
    · -- a new tag gets a new field at the end
      have hg := get?_table (firstKeys tag ts) (fun k => groupRecord (withKey tag ts k)) t.tag
      rw [if_neg h] at hg
      have hke : t.tag ∉ keys ((firstKeys tag ts).map fun k => (k, groupRecord (withKey tag ts k))) := by rwa [keys_table]
      simp only [addChild, hg]
      rw [set_of_not_mem hke, firstKeys_concat, if_neg h, map_append, map_singleton,
        withKey_concat, if_pos rfl, withKey_eq_nil h]
      refine congrArg₂ (· ++ ·) (map_congr_left fun k hk => ?_) rfl
      have hne : t.tag ≠ k := fun htk => h (htk ▸ hk)
      rw [withKey_concat, if_neg hne]

lemma childRecords_eq_groupBy (ts) : childRecords [] ts = (groupBy tag ts).map fun g => (g.1, groupRecord g.2) := by
  rw [childRecords_eq, groupBy_eq, map_map]
  rfl

end Tree

/-! ## What a record says

The fields of a tree record have five different names, so each can be looked up by itself. -/

def childrenField (children : List Tree) : Fields :=
  if children.isEmpty then [] else [("_children", .map (Tree.childRecords [] children))]

def recordFields (tag : String) (attributes : Pairs) (text tail : String) (children : List Tree) : Fields :=
  ("_tag", .str tag) :: attributesField attributes ++ textField "_text" text ++ childrenField children ++
    textField "_tail" tail

lemma toRecord_eq (tag attributes text tail children) :
    (Tree.node tag attributes text tail children).toRecord = .map (recordFields tag attributes text tail children) := by
  rw [Tree.toRecord, recordFields, childrenField]

open Draft

lemma get?_textField_self (key text) : (get? key (textField key text)).getD .null = ofText (S.strip text) := by
  by_cases h : S.strip text = ""
  · simp [textField, h, get?, ofText]
  · simp [textField, h, get?, ofText]

lemma get?_textField_of_ne {other} (h : key ≠ other) (text) : get? other (textField key text) = none := by
  by_cases hs : S.strip text = ""
  · simp [textField, hs, get?]
  · simp [textField, hs, get?, h]

lemma get?_attributesField_of_ne (h : "_attributes" ≠ key) (attributes) : get? key (attributesField attributes) = none := by
  cases attributes with
  | nil => rfl
  | cons a as => simp [attributesField, get?, h]

lemma recordAttributes_attributesField {attributes} (h : (attributes.map Prod.fst).Nodup) :
    recordAttributes (attributesField attributes) = .ok attributes := by
  have hf : attributeFields attributes = attributes.map fun kv => (kv.1, Value.str kv.2) := by
    refine ofPairs_of_distinct ?_
    rw [Distinct, Fields.keys, map_map]
    exact h
  cases attributes with
  | nil => rfl
  | cons a as =>
    simp only [recordAttributes, attributesField, isEmpty_cons, Bool.false_eq_true, if_false,
      get?, hf, attributesOf, fieldsOf]
    simp [bind, Except.bind, pure, Except.pure, Value.text, Function.comp_def]

lemma draftsUnder_eq (fs : Fields) : draftsUnder fs = match get? "_children" fs with
      | some (.map groups) => draftsOfGroups groups
      | some _ => .error noFields
      | none => .ok [] := by
  induction fs with
  | nil => rfl
  | cons kv r ih =>
    obtain ⟨k, v⟩ := kv
    by_cases h : k = "_children"
    · cases v <;> simp [draftsUnder, get?, h]
    · cases v <;> simp [draftsUnder, get?, h, ih]

lemma get?_childrenField_of_ne (h : "_children" ≠ key) (children) : get? key (childrenField children) = none := by
  cases children with
  | nil => rfl
  | cons c cs => simp [childrenField, get?, h]

section Lookup

variable (tag : String) (attributes : Pairs) (text tail : String) (children : List Tree)

lemma get?_recordFields_texts :
    (get? "_text" (recordFields tag attributes text tail children)).getD .null = ofText (S.strip text) ∧
      (get? "_tail" (recordFields tag attributes text tail children)).getD .null = ofText (S.strip tail) := by
  rw [← get?_textField_self "_text", ← get?_textField_self "_tail"]
  simp [recordFields, get?_append, get?, get?_textField_of_ne, get?_attributesField_of_ne, get?_childrenField_of_ne]

variable {attributes} in
lemma recordAttributes_recordFields (h : (attributes.map Prod.fst).Nodup) :
    recordAttributes (recordFields tag attributes text tail children) = .ok attributes := by
  rw [← recordAttributes_attributesField h, recordAttributes, recordAttributes]
  simp [recordFields, get?_append, get?, get?_textField_of_ne, get?_childrenField_of_ne]

lemma draftsUnder_recordFields : draftsUnder (recordFields tag attributes text tail children) =
      draftsOfGroups (Tree.childRecords [] children) := by
  have hg : get? "_children" (recordFields tag attributes text tail children) =
      get? "_children" (childrenField children) := by
    simp [recordFields, get?_append, get?, get?_textField_of_ne, get?_attributesField_of_ne]
  rw [draftsUnder_eq, hg]
  cases children with
  | nil => rfl
  | cons c cs => simp [childrenField, get?]

end Lookup

/-! ## Reading records back -/

lemma draftsOfRecords_map (h : ∀ t ∈ ts, draftOfRecord t.toRecord = .ok (f t)) :
    draftsOfRecords (ts.map Tree.toRecord) = .ok (ts.map f) := by
  induction ts with
  | nil => rfl
  | cons t ts ih =>
    have ht := h t (.head _)
    have hts := ih fun u hu => h u (.tail _ hu)
    rw [map_cons, draftsOfRecords, ht, hts]
    rfl

lemma draftsOfGroups_cons {k} (hts : ts ≠ []) (h : ∀ t ∈ ts, draftOfRecord t.toRecord = .ok (f t)) (rest : Fields) :
    draftsOfGroups ((k, Tree.groupRecord ts) :: rest) = (draftsOfGroups rest).map fun others => ts.map f ++ others := by
  match ts with
  | [] => exact absurd rfl hts
  | [t] =>
    have ht := h t (.head _)
    obtain ⟨_, _, _, _, _⟩ := t
    rw [Tree.toRecord] at ht
    rw [Tree.groupRecord, Tree.toRecord, draftsOfGroups]
    simp only [ht]
    cases draftsOfGroups rest <;> rfl
  | t :: u :: us =>
    have hl := draftsOfRecords_map h
    have hg : Tree.groupRecord (t :: u :: us) = .list ((t :: u :: us).map Tree.toRecord) := by simp [Tree.groupRecord]
    rw [hg, draftsOfGroups]
    simp only [hl]
    cases draftsOfGroups rest <;> rfl

lemma draftsOfGroups_table {ks : List String} {group}
    (hne : ∀ k ∈ ks, group k ≠ []) (h : ∀ k ∈ ks, ∀ t ∈ group k, draftOfRecord t.toRecord = .ok (f t)) :
    draftsOfGroups (ks.map fun k => (k, Tree.groupRecord (group k))) = .ok ((ks.flatMap group).map f) := by
  induction ks with
  | nil => rfl
  | cons k ks ih =>
    have hr := ih (fun j hj => hne j (.tail _ hj))
      fun j hj => h j (.tail _ hj)
    rw [map_cons, draftsOfGroups_cons (hne k (.head _)) (h k (.head _)), hr, flatMap_cons, map_append]
    rfl

lemma ofTrees_eq_map (ts) : ofTrees ts = ts.map ofTree := by
  induction ts with
  | nil => rfl
  | cons t ts ih => rw [ofTrees, ih, map_cons]

lemma draftsOfGroups_childRecords {children} (h : ∀ c ∈ children, draftOfRecord c.toRecord = .ok (ofTree c.norm)) :
    draftsOfGroups (Tree.childRecords [] children) = .ok (ofTrees (Tree.regroup Tree.tag (Tree.normAll children))) := by
  rw [Tree.childRecords_eq, draftsOfGroups_table (fun _ => Tree.withKey_ne_nil)
    fun _ _ t ht => h t (mem_filter.mp ht).1, ofTrees_eq_map, Tree.normAll_eq_map,
    Tree.regroup_map Tree.tag_norm, map_map, Tree.regroup_eq]
  rfl

/-- **A tree record describes the normal form** of the element that it was made of. -/
lemma draftOfRecord_toRecord (e : Tree) (he : e.Distinct) : draftOfRecord e.toRecord = .ok (ofTree e.norm) := by
  induction e using Tree.inductionOn with
  | node tag attributes text tail children ih =>
    have hch := draftsOfGroups_childRecords fun c hc => ih c hc (he.children c hc)
    obtain ⟨htext, htail⟩ := get?_recordFields_texts tag attributes text tail children
    rw [toRecord_eq, draftOfRecord, recordAttributes_recordFields _ _ _ _ he.attributes, htext, htail,
      draftsUnder_recordFields, hch]
    rfl

/-! ## The record of a normal form -/

lemma textField_congr {text'} (h : S.strip text = S.strip text') (key) : textField key text = textField key text' := by
  rw [textField, h, textField]

namespace Tree

lemma tag_eq_of_toRecord_eq (h : t.toRecord = u.toRecord) : t.tag = u.tag := by
  obtain ⟨tag, _, _, _, _⟩ := t
  obtain ⟨_, _, _, _, _⟩ := u
  rw [toRecord_eq, toRecord_eq, recordFields, recordFields] at h
  simp only [cons_append, Value.map.injEq, List.cons.injEq, Prod.mk.injEq, Value.str.injEq] at h
  exact h.1.2

variable {us : List Tree}

lemma childRecords_congr (h : ts.map toRecord = us.map toRecord) (acc) : childRecords acc ts = childRecords acc us := by
  induction ts generalizing us acc with
  | nil =>
    obtain rfl : us = [] := map_eq_nil_iff.mp h.symm
    rfl
  | cons t ts ih =>
    obtain ⟨u, us, rfl, hu, hus⟩ := map_eq_cons_iff.mp h.symm
    rw [childRecords, childRecords, hu, tag_eq_of_toRecord_eq hu, ih hus.symm]

lemma childrenField_congr (h : childRecords [] ts = childRecords [] us)
    (he : ts = [] ↔ us = []) : childrenField ts = childrenField us := by simp [childrenField, he, h]

variable {α : Type} {key : α → String} {items : List α}

lemma mem_regroup {a} : a ∈ regroup key items ↔ a ∈ items := by
  rw [regroup_eq, List.mem_flatMap]
  constructor
  · rintro ⟨k, -, hk⟩
    exact (mem_filter.mp hk).1
  · intro ha
    exact ⟨key a, mem_firstKeys.mpr ⟨a, ha, rfl⟩, mem_filter.mpr ⟨ha, by simp⟩⟩

lemma regroup_eq_nil_iff : regroup key items = [] ↔ items = [] := by simp [eq_nil_iff_forall_not_mem, mem_regroup]

/-- **The record of a normal form** is the record of the element. -/
lemma toRecord_norm (t : Tree) : t.norm.toRecord = t.toRecord := by
  induction t using Tree.inductionOn with
  | node tag attributes text tail children ih =>
    have hr : ((regroup Tree.tag children).map norm).map toRecord = (regroup Tree.tag children).map toRecord := by
      rw [map_map]
      exact map_congr_left fun c hc => ih c (mem_regroup.mp hc)
    have hch : childRecords [] (regroup Tree.tag (normAll children)) = childRecords [] children := by
      rw [normAll_eq_map, regroup_map tag_norm, childRecords_congr hr, childRecords_eq_groupBy,
        groupBy_regroup, ← childRecords_eq_groupBy]
    have he : regroup Tree.tag (normAll children) = [] ↔ children = [] := by
      rw [regroup_eq_nil_iff, normAll_eq_map, map_eq_nil_iff]
    rw [norm, toRecord_eq, toRecord_eq, recordFields, recordFields, childrenField_congr hch he,
      textField_congr (S.strip_strip text), textField_congr (S.strip_strip tail)]

lemma toRecord_withTail {s} (h : S.strip s = S.strip t.tail) : (t.withTail s).toRecord = t.toRecord := by
  obtain ⟨_, _, _, tail, _⟩ := t
  rw [withTail, toRecord_eq, recordFields, textField_congr h]
  rfl

end Tree

/-!
## Indenting

`indent` never fails on an element that was read, and the texts that it replaces are blank before and after.
-/

namespace Draft

variable (level : Nat)

def breakText : String := "\n" ++ S.repeated (2 * level) " "

lemma lineBreak_eq : lineBreak level = ofText (breakText level) := by rfl

lemma strip_breakText : S.strip (breakText level) = "" := by
  refine S.strip_eq_empty fun c hc => ?_
  simp only [breakText, S.repeated, String.toList_append, String.toList_ofList, mem_append] at hc
  rcases hc with hc | hc
  · obtain rfl : c = '\n' := by simpa using hc
    rfl
  · obtain ⟨l, hl, hcl⟩ := mem_flatten.mp hc
    rw [eq_of_mem_replicate hl] at hcl
    obtain rfl : c = ' ' := by simpa using hcl
    rfl

lemma isVoid_ofText (s) : isVoid (ofText s) = .ok (S.strip s == "") := by
  by_cases h : s = ""
  · subst h
    rfl
  · simp [isVoid, ofText, h, Value.truthy]

lemma orBreak_ofText (s) : ∃ s', orBreak level (ofText s) = .ok (ofText s') ∧ S.strip s' = S.strip s := by
  by_cases h : S.strip s = ""
  · refine ⟨breakText level, ?_, by rw [strip_breakText, h]⟩
    rw [orBreak, isVoid_ofText, h]
    rfl
  · refine ⟨s, ?_, rfl⟩
    rw [orBreak, isVoid_ofText, beq_false_of_ne h]
    rfl

lemma tail_ofTree (t) : (ofTree t).tail = ofText t.tail := by
  obtain ⟨_, _, _, tail, _⟩ := t
  rw [ofTree, Draft.tail, Tree.tail]

lemma withTail_ofTree (t s) : (ofTree t).withTail (ofText s) = ofTree (t.withTail s) := by
  obtain ⟨_, _, _, _, _⟩ := t
  rw [ofTree, withTail, Tree.withTail, ofTree]

lemma indentChildren_ofTrees
    (h : ∀ t ∈ ts, ∀ level, ∃ t', indentAt level (ofTree t) = .ok (ofTree t') ∧ t'.toRecord = t.toRecord) (level) :
    ∃ ts', indentChildren level (ofTrees ts) = .ok (ofTrees ts') ∧ ts'.map Tree.toRecord = ts.map Tree.toRecord := by
  induction ts with
  | nil => exact ⟨[], rfl, rfl⟩
  | cons t ts ih =>
    obtain ⟨t', ht', hre⟩ := h t (.head _) (level + 1)
    obtain ⟨ts', hts', hr⟩ := ih fun u hu => h u (.tail _ hu)
    -- the tail behind the child is kept, or is blank and becomes a line break
    obtain ⟨s, hs, hst⟩ : ∃ s, (if (S.strip t'.tail == "") then
        (ofTree t').withTail (lineBreak (if (ofTrees ts).isEmpty then level else level + 1))
        else ofTree t') = ofTree (t'.withTail s) ∧ S.strip s = S.strip t'.tail := by
      by_cases hb : S.strip t'.tail = ""
      · refine ⟨breakText (if (ofTrees ts).isEmpty then level else level + 1), ?_, ?_⟩
        · rw [if_pos (by simpa using hb), lineBreak_eq, withTail_ofTree]
        · rw [strip_breakText, hb]
      · refine ⟨t'.tail, ?_, rfl⟩
        rw [if_neg (by simpa using hb), ← withTail_ofTree, ← tail_ofTree]
        cases ofTree t'
        rfl
    refine ⟨t'.withTail s :: ts', ?_, ?_⟩
    · rw [ofTrees, indentChildren, ht']
      simp only [bind, Except.bind, tail_ofTree, isVoid_ofText, hts', hs, pure, Except.pure, ofTrees]
    · rw [map_cons, map_cons, Tree.toRecord_withTail hst, hre, hr]

lemma indentAt_ofTree (t level) : ∃ t', indentAt level (ofTree t) = .ok (ofTree t') ∧ t'.toRecord = t.toRecord := by
  induction t using Tree.inductionOn generalizing level with
  | node tag attributes text tail children ih =>
    cases children with
    | nil => exact ⟨.node tag attributes text tail [], by rw [ofTree]; rfl, rfl⟩
    | cons c cs =>
      obtain ⟨text', ht, hs⟩ := orBreak_ofText (level + 1) text
      obtain ⟨cs', hcs, hr⟩ := indentChildren_ofTrees ih level
      refine ⟨.node tag attributes text' tail cs', ?_, ?_⟩
      · rw [ofTree, indentAt, ht, hcs]
        rfl
      · have he : cs' = [] ↔ c :: cs = [] := by
          rw [← map_eq_nil_iff (f := Tree.toRecord), hr, map_eq_nil_iff]
        rw [toRecord_eq, toRecord_eq, recordFields, recordFields, textField_congr hs,
          Tree.childrenField_congr (Tree.childRecords_congr hr []) he]

end Draft

/-- **Tree records are normal forms.** The element that the record of `e` describes is `e.norm`; indented, it is again an
element with the record of `e`. -/
theorem toRecord_normal_form (e : Tree) (he : e.Distinct) : draftOfRecord e.toRecord = .ok (Draft.ofTree e.norm) ∧
      ∃ e' : Tree, (draftOfRecord e.toRecord >>= Draft.indent) = .ok (Draft.ofTree e') ∧ e'.toRecord = e.toRecord := by
  have hdraft := draftOfRecord_toRecord e he
  obtain ⟨e', hindent, hrecord⟩ := indentAt_ofTree e.norm 0
  refine ⟨hdraft, e', ?_, ?_⟩
  · rw [hdraft]
    exact hindent
  · rw [hrecord, Tree.toRecord_norm]

/-- An element whose children's tags interleave, with blank and padded texts and a tail. -/
def interleaved : Tree :=
  .node "a" [("x", "1"), ("y", "")] "\n t " ""
    [.node "b" [] " " "\n" [], .node "c" [("z", "2")] "" " v" [], .node "b" [] "u" "" []]

theorem toRecord_normal_form_interleaved : draftOfRecord interleaved.toRecord =
        .ok (Draft.ofTree (.node "a" [("x", "1"), ("y", "")] "t" ""
          [.node "b" [] "" "" [], .node "b" [] "u" "" [], .node "c" [("z", "2")] "" "v" []])) ∧
      ∃ e' : Tree, (draftOfRecord interleaved.toRecord >>= Draft.indent) = .ok (Draft.ofTree e') ∧
        e'.toRecord = interleaved.toRecord :=
  toRecord_normal_form interleaved (by decide)

end Sluice.Markup
