import Sluice.Proofs.Markup.NormalForm

/-!
# Records and the elements that they stand for

When a flat record identifies its element (`Identifies`), and when an element carries a plain record (`Carries`).
-/

namespace Sluice.Markup

open List Text Fields

variable {fs : Fields} {above : List String} {key : String}

structure Place where
  tags : List String
  element : Tree

def Place.path (p : Place) : String := S.join "/" p.tags

namespace Tree

mutual

def places (above : List String) : Tree → List Place
  | node tag attributes text tail children =>
    ⟨above ++ [tag], node tag attributes text tail children⟩ :: placesAll (above ++ [tag]) children

def placesAll (above : List String) : List Tree → List Place
  | [] => []
  | t :: ts => places above t ++ placesAll above ts

end

lemma placesAll_eq (above ts) : placesAll above ts = ts.flatMap (places above) := by
  induction ts with
  | nil => rw [placesAll, flatMap_nil]
  | cons t ts ih => rw [placesAll, ih, flatMap_cons]

lemma flattenAll_eq (ts) : flattenAll ts = ts.flatMap flatten := by
  induction ts with
  | nil => rw [flattenAll, flatMap_nil]
  | cons t ts ih => rw [flattenAll, ih, flatMap_cons]

lemma flatChildren_eq (parent ts) : flatChildren parent ts = ts.flatMap (flatRecords parent) := by
  induction ts with
  | nil => rw [flatChildren, flatMap_nil]
  | cons t ts ih => rw [flatChildren, ih, flatMap_cons]

lemma elements_places (t : Tree) (above) : (t.places above).map Place.element = t.flatten := by
  induction t using inductionOn generalizing above with
  | node tag attributes text tail children ih =>
    rw [places, flatten, map_cons, placesAll_eq, flattenAll_eq, map_flatMap]
    exact congrArg _ (flatMap_congr fun c hc => ih c hc _)

lemma join_concat {tags} (h : tags ≠ []) (tag) : S.join "/" (tags ++ [tag]) = S.join "/" tags ++ "/" ++ tag := by
  have hc : ∀ (l : List Chars) (x : Chars), l ≠ [] → join ['/'] (l ++ [x]) = join ['/'] l ++ ['/'] ++ x := by
    intro l x hl
    induction l with
    | nil => exact absurd rfl hl
    | cons a l ih =>
      cases l with
      | nil => rfl
      | cons b l =>
        rw [cons_append, cons_append, join, ← cons_append, ih (cons_ne_nil b l), join]
        simp only [List.append_assoc]
  rw [← String.toList_inj]
  simp only [S.join, String.toList_ofList, String.toList_append, map_append]
  exact hc _ _ (by simpa using h)

lemma pathUnder_join (h : above = [] ∨ S.join "/" above ≠ "") (tag) :
    pathUnder (S.join "/" above) tag = S.join "/" (above ++ [tag]) := by
  by_cases ha : above = []
  · rw [ha, pathUnder]
    exact String.ofList_toList.symm
  · rw [pathUnder, if_neg (h.resolve_left ha), join_concat ha]

lemma join_ne_empty {tag} (h : above ≠ [] ∨ tag ≠ "") : S.join "/" (above ++ [tag]) ≠ "" := by
  intro hj
  have hl := congrArg String.toList hj
  by_cases ha : above = []
  · rw [ha, S.join, String.toList_ofList] at hl
    exact (h.resolve_left fun hne => hne ha) (String.toList_inj.mp hl)
  · rw [join_concat ha] at hl
    simp at hl

/-- **Flat records are one record for each place.** -/
lemma flatRecords_eq (t : Tree) (h : above = [] ∨ S.join "/" above ≠ "") (hr : above ≠ [] ∨ t.tag ≠ "") :
    t.flatRecords (S.join "/" above) = (t.places above).map fun p => flatRecord p.path p.element := by
  induction t using inductionOn generalizing above with
  | node tag attributes text tail children ih =>
    rw [flatRecords, places, map_cons, pathUnder_join h, flatChildren_eq, placesAll_eq, map_flatMap]
    refine congrArg _ (flatMap_congr fun c hc => ih c hc (.inr (join_ne_empty hr)) (.inl ?_))
    simp

end Tree

/-! ## What a flat record says -/

/-- What a record says about an element whatever its attributes are called. -/
structure Describes (p : Place) (fs : Fields) : Prop where
  attributes : p.element.attributes ≠ [] →
    get? "_attributes" fs = some (.map (p.element.attributes.map fun a => (a.1, .str a.2)))
  count : p.element.children ≠ [] → get? "_children_count" fs = some (.int p.element.children.length)
  text : S.strip p.element.text ≠ "" → get? "text" fs = some (.str (S.strip p.element.text))

/-- **A record identifies the element at a place**: besides, it names its tag and its path. -/
structure Identifies (p : Place) (fs : Fields) : Prop extends Describes p fs where
  tag : get? "tag" fs = some (.str p.element.tag)
  path : get? "path" fs = some (.str p.path)

/-- No attribute of an element says something else under a name that its record uses for itself. -/
structure Place.Clear (p : Place) : Prop where
  tag : ∀ v, ("tag", v) ∈ p.element.attributes → v = p.element.tag
  path : ∀ v, ("path", v) ∈ p.element.attributes → v = p.path

lemma attributeFields_eq {attributes} (h : (attributes.map Prod.fst).Nodup) :
    attributeFields attributes = attributes.map fun a => (a.1, .str a.2) := by
  refine ofPairs_of_distinct ?_
  rw [Distinct, Fields.keys, map_map]
  exact h

lemma get?_update {gs} (h : Distinct gs) (key) : get? key (update fs gs) = (get? key gs).or (get? key fs) := by
  induction gs generalizing fs with
  | nil => rfl
  | cons kv gs ih =>
    obtain ⟨k, v⟩ := kv
    obtain ⟨hk, hgs⟩ := nodup_cons.mp h
    refine (ih hgs).trans ?_
    by_cases hke : k = key
    · subst hke
      have hn : get? k gs = none := get?_eq_none_iff.mpr hk
      rw [hn]
      simp [get?]
    · rw [get?_set_of_ne (Ne.symm hke)]
      simp [get?, hke]

lemma get?_unless {c} [Decidable c] {other} (h : other ≠ key) (v fs) :
    get? other (if c then fs else set key v fs) = get? other fs := by
  split
  · rfl
  · exact get?_set_of_ne h v fs

variable {path : String} {t : Tree}

/-- What stands under a name that is not set later: the attribute of that name, or else what was there first. -/
lemma get?_flatRecord (hd : (t.attributes.map Prod.fst).Nodup)
    (hr : t.flatRecord path = .map fs) (hk : key ≠ "_attributes" ∧ key ≠ "text" ∧ key ≠ "_children_count") :
    get? key fs = (get? key (t.attributes.map fun a => (a.1, Value.str a.2))).or
      (get? key [("path", path), ("tag", t.tag)]) := by
  obtain ⟨tag, attributes, text, _, _⟩ := t
  obtain ⟨ha, ht, hc⟩ := hk
  rw [Tree.flatRecord, Value.map.injEq] at hr
  rw [← hr, get?_unless hc, get?_unless ht]
  simp only [Tree.attributes] at hd ⊢
  cases attributes with
  | nil => rfl
  | cons a as =>
    rw [isEmpty_cons, if_neg Bool.false_ne_true, get?_set_of_ne ha, attributeFields_eq hd]
    refine get?_update ?_ key
    rw [Distinct, Fields.keys, map_map]
    exact hd

/-- A record says something under a name of its own unless an attribute says something else. -/
lemma get?_own_iff {value} (hd : (t.attributes.map Prod.fst).Nodup)
    (hr : t.flatRecord path = .map fs) (hk : key ≠ "_attributes" ∧ key ≠ "text" ∧ key ≠ "_children_count")
    (ho : get? key [("path", path), ("tag", t.tag)] = some (.str value)) :
    get? key fs = some (.str value) ↔ ∀ v, (key, v) ∈ t.attributes → v = value := by
  have hap : Distinct (t.attributes.map fun a => (a.1, Value.str a.2)) := by
    rw [Distinct, Fields.keys, map_map]
    exact hd
  rw [get?_flatRecord hd hr hk, ho]
  constructor
  · intro h v hv
    have hv' : (key, Value.str v) ∈ t.attributes.map fun a => (a.1, Value.str a.2) := mem_map.mpr ⟨(key, v), hv, rfl⟩
    rw [get?_of_mem hap hv', Option.some_or, Option.some.injEq, Value.str.injEq] at h
    exact h
  · intro h
    cases hf : get? key (t.attributes.map fun a => (a.1, Value.str a.2)) with
    | none => rfl
    | some w =>
      obtain ⟨a, ha, heq⟩ := mem_map.mp (mem_of_get? hf)
      obtain ⟨rfl, rfl⟩ := Prod.mk.inj heq
      rw [Option.some_or, h a.2 ha]

lemma describes_flatRecord {p} (hd : (p.element.attributes.map Prod.fst).Nodup) (hr : p.element.flatRecord path = .map fs) :
    Describes p fs := by
  obtain ⟨_, _, attributes, text, _, children⟩ := p
  rw [Tree.flatRecord, Value.map.injEq] at hr
  subst hr
  simp only [Tree.attributes] at hd
  refine ⟨fun (h : attributes ≠ []) => ?_, fun (h : children ≠ []) => ?_, fun (h : S.strip text ≠ "") => ?_⟩
  · rw [get?_unless (by decide), get?_unless (by decide), if_neg (by simpa using h), get?_set_self,
      attributeFields_eq hd]
    rfl
  · rw [if_neg (by simpa using h), get?_set_self]
    rfl
  · rw [get?_unless (by decide), if_neg h, get?_set_self]
    rfl

lemma identifies_iff {p} (hd : (p.element.attributes.map Prod.fst).Nodup)
    (hr : p.element.flatRecord p.path = .map fs) : Identifies p fs ↔ p.Clear := by
  have ht : get? "tag" fs = some (.str p.element.tag) ↔ _ := get?_own_iff hd hr (by decide) rfl
  have hp : get? "path" fs = some (.str p.path) ↔ _ := get?_own_iff hd hr (by decide) rfl
  constructor
  · intro h
    exact ⟨ht.mp h.tag, hp.mp h.path⟩
  · intro h
    exact ⟨describes_flatRecord hd hr, ht.mpr h.tag, hp.mpr h.path⟩

lemma exists_flatRecord (path) (t : Tree) : ∃ fs, t.flatRecord path = .map fs := by
  obtain ⟨_, _, _, _, _⟩ := t
  exact ⟨_, by rw [Tree.flatRecord]⟩

/-- **Flat records and the elements of a tree.** There is one record for each element, in document order, with its
attributes, number of children and text. It identifies its element exactly if no attribute named like the tag or the path
says something else. -/
theorem flatRecords_identify_iff {t : Tree} (hroot : t.tag ≠ "") (hdistinct : t.Distinct) :
    (t.places []).map Place.element = t.flatten ∧ ∃ records : List Fields, t.flatRecords "" = records.map Value.map ∧
        List.Forall₂ (fun p fs => Describes p fs ∧ (Identifies p fs ↔ p.Clear)) (t.places []) records := by
  refine ⟨t.elements_places [], ?_⟩
  have hrecords : t.flatRecords "" = _ := t.flatRecords_eq (.inl rfl) (.inr hroot)
  have hnodup : ∀ p ∈ t.places [], (p.element.attributes.map Prod.fst).Nodup := by
    intro p hp
    refine hdistinct p.element ?_
    rw [← t.elements_places []]
    exact List.mem_map_of_mem hp
  rw [hrecords]
  generalize t.places [] = ps at hnodup
  induction ps with
  | nil => exact ⟨[], rfl, .nil⟩
  | cons p ps ih =>
    obtain ⟨hp, hps⟩ := List.forall_mem_cons.mp hnodup
    obtain ⟨records, heq, hrest⟩ := ih hps
    obtain ⟨fs, hfs⟩ := exists_flatRecord p.path p.element
    refine ⟨fs :: records, ?_, .cons ⟨describes_flatRecord hp hfs, identifies_iff hp hfs⟩ hrest⟩
    rw [List.map_cons, List.map_cons, heq, hfs]

def shelf : Tree :=
  .node "shelf" [] "" "" [.node "item" [("id", "1")] "pen" "" [],
    .node "item" [("id", "2")] "" "" [.node "remark" [] " red " "" []]]

/-- All four elements of a shelf are identified by their records. -/
theorem flatRecords_identify_shelf :
    shelf.tag ≠ "" ∧ shelf.Distinct ∧ ∃ records : List Fields, shelf.flatRecords "" = records.map Value.map ∧
      List.Forall₂ Identifies (shelf.places []) records := by
  have hdistinct : shelf.Distinct := by decide
  obtain ⟨-, records, heq, hall⟩ := flatRecords_identify_iff (t := shelf) (by decide) hdistinct
  have hclear : ∀ p ∈ shelf.places [], p.Clear := by
    have hnames : ∀ p ∈ shelf.places [], ∀ a ∈ p.element.attributes, a.1 = "id" := by decide
    refine fun p hp => ⟨fun v hv => ?_, fun v hv => ?_⟩
    · exact absurd (hnames p hp _ hv) (by simp)
    · exact absurd (hnames p hp _ hv) (by simp)
  refine ⟨by decide, hdistinct, records, heq, ?_⟩
  clear heq
  generalize shelf.places [] = ps at hall hclear
  induction hall with
  | nil => exact .nil
  | cons h _ ih =>
    obtain ⟨hfirst, hrest⟩ := List.forall_mem_cons.mp hclear
    exact .cons (h.2.mpr hfirst) (ih hrest)

/-- An element with an attribute that is called like the field for its tag. -/
theorem flatRecord_tag_hidden :
    ∃ fs, (Tree.node "a" [("tag", "b")] "" "" []).flatRecords "" = [.map fs] ∧ Fields.get? "tag" fs = some (.str "b") ∧
      ¬ Identifies ⟨["a"], .node "a" [("tag", "b")] "" "" []⟩ fs := by
  refine ⟨[("path", "a"), ("tag", "b"), ("_attributes", .map [("tag", "b")])], rfl, rfl, fun h => ?_⟩
  have htag : some (Value.str "b") = some (.str "a") := h.tag
  simp at htag

/-! ## What an element carries -/

/-- The text in front of an element's children, empty if there is none. -/
def Draft.ownText (d : Draft) : String :=
  match d.text with
  | .str s => s
  | _ => ""

/-- **An element carries a record**: each field is a child of its name with its text, or, if it is called a text, the
text of the element itself. -/
def Draft.Carries (d : Draft) (fs : Fields) : Prop :=
  ∀ k v, (k, v) ∈ fs → (∃ c ∈ d.children, c.tag = .str k ∧ c.text = .str v.text) ∨ k = "text" ∧ d.ownText = v.text

/-- A record whose fields have no meaning of their own besides that of a text. -/
def IsPlain (fs : Fields) : Prop := ∀ k ∈ keys fs, S.startsWith "_" k = false ∧ k ≠ "tag"

def others (fs : Fields) : Fields := fs.filter (·.1 != "text")

lemma IsPlain.not_mem (h : IsPlain fs) (hk : S.startsWith "_" key) : key ∉ keys fs := by
  intro hm
  rw [(h key hm).1] at hk
  cases hk

lemma IsPlain.tail {kv} (h : IsPlain (kv :: fs)) : IsPlain fs := fun k hk => h k (.tail _ hk)

lemma splitFields_plain (hp : IsPlain fs) (hd : Distinct fs) (acc) : splitFields (.map []) fs acc =
      .ok ⟨(get? "text" fs).getD acc.text, acc.children ++ others fs⟩ := by
  induction fs generalizing acc with
  | nil => simp [splitFields, get?, others]
  | cons kv fs ih =>
    obtain ⟨key, v⟩ := kv
    obtain ⟨hk, hfs⟩ := nodup_cons.mp hd
    have hf := hp key (.head _)
    have hs : ["_tag", "tag", "_attributes", "_children", "_children_count"].contains key = false := by
      by_contra h
      simp only [Bool.not_eq_false, contains_eq_mem, decide_eq_true_eq, mem_cons, not_mem_nil, or_false] at h
      rcases h with rfl | rfl | rfl | rfl | rfl
      · exact absurd hf.1 (by decide)
      · exact hf.2 rfl
      · exact absurd hf.1 (by decide)
      · exact absurd hf.1 (by decide)
      · exact absurd hf.1 (by decide)
    have hu : key ≠ "_text" := by
      rintro rfl
      exact absurd hf.1 (by decide)
    rw [splitFields, if_neg (by rw [hs]; exact Bool.false_ne_true)]
    by_cases ht : key = "text"
    · subst ht
      have hn : get? "text" fs = none := get?_eq_none_iff.mpr hk
      rw [ih hp.tail hfs]
      simp [get?, hn, others]
    · rw [if_neg (by simp [ht, hu])]
      have ha : keyAmong (.map []) key = .ok false := rfl
      rw [ha]
      refine (ih hp.tail hfs _).trans ?_
      simp [get?, ht, others]

lemma shownFields_of_plain (h : IsPlain fs) : shownFields fs = fs := by
  refine filter_eq_self.mpr fun kv hkv => ?_
  obtain ⟨hf, ht⟩ := h kv.1 (mem_map_of_mem hkv)
  simp [hf, ht]

/-- **The element of a plain record**: its text alone if it has one that counts, else a child for each of the other
fields, or for the text if there are none. -/
lemma elementOfRecord_plain (hp : IsPlain fs) (hd : Distinct fs) (defaultTag) :
    ∃ tag, elementOfRecord defaultTag (.map fs) = .ok
      (let text := (get? "text" fs).getD .null
       if text.truthy then .node tag [] (.str text.text) .null []
       else .node tag [] .null .null (fieldDrafts (if (others fs).isEmpty then fs else others fs))) := by
  have ha : get? "_attributes" fs = none := get?_eq_none_iff.mpr (hp.not_mem (by decide))
  refine ⟨orElse (orElse ((get? "_tag" fs).getD .null) ((get? "tag" fs).getD .null)) defaultTag, ?_⟩
  simp only [elementOfRecord, fieldsOf, ha, Option.getD_none, bind, Except.bind, splitFields_plain hp hd,
    nil_append, attributesOf, pure, Except.pure, shownFields_of_plain hp]
  split
  · rfl
  · split <;> rfl

variable {k : String}

lemma mem_fieldDrafts {v} (h : (k, v) ∈ fs) : ∃ c ∈ fieldDrafts fs, c.tag = .str k ∧ c.text = .str v.text :=
  ⟨_, mem_map_of_mem h, rfl, rfl⟩

lemma tag_of_mem_fieldDrafts {c} (hc : c ∈ fieldDrafts fs) (hk : c.tag = .str k) : k ∈ keys fs := by
  obtain ⟨kv, hkv, rfl⟩ := mem_map.mp hc
  rw [← Value.str.inj hk]
  exact mem_map_of_mem hkv

/-- **When an element carries its record**: exactly if the record has no text, nothing but a text, or a text that is empty.
-/
theorem carries_iff {fs : Fields} (hplain : IsPlain fs) (hdistinct : Fields.Distinct fs) (defaultTag : Value) :
    ∃ d, elementOfRecord defaultTag (.map fs) = .ok d ∧
      (d.Carries fs ↔ ∀ v, Fields.get? "text" fs = some v → others fs = [] ∨ v.truthy = false ∧ v.text = "") := by
  obtain ⟨tag, hd⟩ := elementOfRecord_plain hplain hdistinct defaultTag
  refine ⟨_, hd, ?_⟩
  dsimp only
  cases hget : get? "text" fs with
  | none =>
    -- no text: the other fields are all fields
    have hall : others fs = fs := by
      refine List.filter_eq_self.mpr fun kv hkv => ?_
      have hne : kv.1 ≠ "text" := fun heq => get?_eq_none_iff.mp hget (heq ▸ List.mem_map_of_mem hkv)
      simpa using hne
    have hchildren : (if (others fs).isEmpty then fs else others fs) = fs := by rw [hall]; split <;> rfl
    simp only [Option.getD_none, Value.truthy, Bool.false_eq_true, if_false, hchildren]
    simp only [reduceCtorEq, false_imp_iff, implies_true, iff_true]
    exact fun k v hkv => .inl (mem_fieldDrafts hkv)
  | some text =>
    have hmem := mem_of_get? hget
    simp only [Option.getD_some, Option.some.injEq, forall_eq']
    cases htruthy : text.truthy with
    | true =>
      simp only [if_true, Bool.true_eq_false, false_and, or_false]
      constructor
      · intro h
        refine List.filter_eq_nil_iff.mpr fun kv hkv hne => ?_
        rcases h kv.1 kv.2 hkv with ⟨c, hc, -⟩ | ⟨htext, -⟩
        · cases hc
        · simp [htext] at hne
      · intro h k v hkv
        have hk : k = "text" := by
          by_contra hne
          exact List.filter_eq_nil_iff.mp h (k, v) hkv (by simpa using hne)
        subst hk
        rw [get?_of_mem hdistinct hkv] at hget
        exact .inr ⟨rfl, by rw [Option.some.inj hget]; rfl⟩
    | false =>
      simp only [Bool.false_eq_true, if_false, true_and]
      by_cases hempty : others fs = []
      · simp only [hempty, List.isEmpty_nil, if_true, true_or, iff_true]
        exact fun k v hkv => .inl (mem_fieldDrafts hkv)
      · have hisEmpty : (others fs).isEmpty = false := by simpa using hempty
        simp only [hisEmpty, Bool.false_eq_true, if_false, hempty, false_or]
        constructor
        · intro h
          rcases h "text" text hmem with ⟨c, hc, htag, -⟩ | ⟨-, hown⟩
          · -- the text is none of the other fields
            obtain ⟨kv, hkv, hk⟩ := List.mem_map.mp (tag_of_mem_fieldDrafts hc htag)
            exact absurd hk (by simpa using (List.mem_filter.mp hkv).2)
          · exact hown.symm
        · intro h k v hkv
          by_cases hk : k = "text"
          · subst hk
            rw [get?_of_mem hdistinct hkv] at hget
            exact .inr ⟨rfl, by rw [Option.some.inj hget, h]; rfl⟩
          · exact .inl (mem_fieldDrafts (List.mem_filter.mpr ⟨hkv, by simpa using hk⟩))

def order : Fields := [("name", "pen"), ("count", .int 0), ("note", .null)]

theorem carries_order :
    IsPlain order ∧ Fields.Distinct order ∧ ∃ d, elementOfRecord (.str "item") (.map order) = .ok d ∧ d.Carries order := by
  have hplain : IsPlain order := by
    simp only [IsPlain, order, Fields.keys]
    decide
  have hdistinct : Distinct order := by
    simp only [Distinct, order, Fields.keys]
    decide
  obtain ⟨d, hd, hcarries⟩ := carries_iff hplain hdistinct (.str "item")
  refine ⟨hplain, hdistinct, d, hd, hcarries.mpr fun v hv => ?_⟩
  cases hv

/-- A text beside another field: the element has the text, and the other field is lost. -/
theorem not_carries_beside_text : elementOfRecord (.str "item") (.map [("text", .str "hello"), ("a", .int 1)]) =
        .ok (.node (.str "item") [] (.str "hello") .null []) ∧
      ¬ (Draft.node (.str "item") [] (.str "hello") .null []).Carries [("text", .str "hello"), ("a", .int 1)] := by
  refine ⟨rfl, fun h => ?_⟩
  rcases h "a" (.int 1) (by simp) with ⟨c, hc, -⟩ | ⟨ha, -⟩
  · cases hc
  · exact absurd ha (by decide)

end Sluice.Markup
