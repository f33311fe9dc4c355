import Sluice.Form.Filling
import Sluice.Proofs.Machine.Session
import Sluice.Proofs.Value.Fields

/-!
# Values of form fields are checked

The check looks for what a description says by the type alone. `Answers`: it is there, but for a checkbox that has not
two states.
-/

namespace Sluice.Form

open List Act Fields

def HasOptions (key : String) (info : Fields) : Prop :=
  ∃ options, get? key info = some (.list options) ∧ ∀ o ∈ options, ∃ v, o.item "value" = .ok v

def stateCount (field : Value) : Result Nat := do
  (← field.itemD "/_States_" (.list [])).size

/-- What a description has for the check of a value. -/
def Answers (fields : Fields) (id : String) (info : Fields) : Prop :=
  get? "field_id" info = some (.str id) ∧ ∃ type : String, get? "type" info = some (.str type) ∧
    (type = "radio_group" → HasOptions "radio_options" info) ∧ (type = "choice" → HasOptions "choice_options" info) ∧
    (type = "checkbox" → ∃ field n, (id, field) ∈ fields ∧ stateCount field = .ok n ∧
      has info "checked_value" = (n == 2) ∧ has info "unchecked_value" = (n == 2))

variable {fields info : Fields} {id : String} {field v : Value} {s s' : Session}

lemma Answers.placed (h : Answers fields id info) (page rect) :
    Answers fields id (set "rect" rect (set "page" page info)) := by
  simpa [Answers, HasOptions, has, get?_set_of_ne] using h

lemma checkValues_cases {found} (h : (checkValues id field).outcome s = (.ok found, s')) : ∃ n, stateCount field = .ok n ∧
      (n ≠ 2 ∧ found = [] ∨ n = 2 ∧ ∃ on off, found = [("checked_value", on), ("unchecked_value", off)]) := by
  unfold checkValues at h
  obtain ⟨sta, _, hs, h⟩ := outcome_bind_eq_ok.mp h
  obtain ⟨n, _, hn, h⟩ := outcome_bind_eq_ok.mp h
  refine ⟨n, bind_eq_ok.mpr ⟨sta, (outcome_ofResult_eq_ok hs).1, (outcome_ofResult_eq_ok hn).1⟩, ?_⟩
  by_cases ht : n = 2
  · rw [if_neg (by simp [ht])] at h
    obtain ⟨_, _, -, h⟩ := outcome_bind_eq_ok.mp h
    obtain ⟨_, _, -, h⟩ := outcome_bind_eq_ok.mp h
    obtain ⟨off, _, -, h⟩ := outcome_bind_eq_ok.mp h
    refine .inr ⟨ht, ?_⟩
    split at h
    · cases h
      exact ⟨_, _, rfl⟩
    · obtain ⟨_, _, -, h⟩ := outcome_bind_eq_ok.mp h
      cases h
      exact ⟨_, _, rfl⟩
  · rw [if_pos (by simpa using ht)] at h
    cases h
    exact .inl ⟨ht, rfl⟩

lemma answers_fieldInfo (hm : (id, field) ∈ fields) (h : (fieldInfo id field).outcome s = (.ok info, s')) :
    Answers fields id info := by
  unfold fieldInfo at h
  obtain ⟨_, _, -, h⟩ := outcome_bind_eq_ok.mp h
  dsimp only at h
  split at h
  · cases h
    exact ⟨rfl, "text", rfl, by simp, by simp, by simp⟩
  · obtain ⟨_, _, hf, h⟩ := outcome_bind_eq_ok.mp h
    obtain ⟨n, hn, ⟨htw, rfl⟩ | ⟨rfl, on, _, rfl⟩⟩ := checkValues_cases hf
    · cases h
      exact ⟨rfl, "checkbox", rfl, by simp, by simp, fun _ => ⟨field, n, hm, hn, by simp [has, get?, htw]⟩⟩
    · cases h
      exact ⟨rfl, "checkbox", rfl, by simp, by simp, fun _ => ⟨field, 2, hm, hn, rfl, rfl⟩⟩
  · obtain ⟨op, _, hr, h⟩ := outcome_bind_eq_ok.mp h
    obtain ⟨_, -, hs⟩ := bind_eq_ok.mp (outcome_ofResult_eq_ok hr).1
    obtain ⟨_, -, hop⟩ := bind_eq_ok.mp hs
    cases h
    refine ⟨rfl, "choice", rfl, by simp, fun _ => ⟨op, rfl, fun o ho => ?_⟩, by simp⟩
    obtain ⟨_, -, hst⟩ := exists_of_mem_mapM hop ho
    obtain ⟨value, -, hv⟩ := bind_eq_ok.mp hst
    obtain ⟨text, -, ht⟩ := bind_eq_ok.mp hv
    cases ht
    exact ⟨value, rfl⟩
  · cases h
    refine ⟨rfl, _, rfl, ?_, ?_, ?_⟩ <;>
    · intro hty
      have hsta := congrArg (fun t => t.toList.head?) hty
      simp [toString] at hsta

/-! ## Places -/

def IsGroup (id : String) (info : Fields) : Prop :=
  get? "field_id" info = some (.str id) ∧ get? "type" info = some (.str "radio_group") ∧ HasOptions "radio_options" info ∧
    has info "page"

structure Survey.Sound (fields : Fields) (s : Survey) : Prop where
  single : ∀ p ∈ s.single, Answers fields p.1 p.2
  pressed : ∀ p ∈ s.pressed, IsGroup p.1 p.2

lemma IsGroup.answers (h : IsGroup id info) : Answers fields id info :=
  ⟨h.1, "radio_group", h.2.1, fun _ => h.2.2.1, by simp, by simp⟩

lemma IsGroup.addOption (h : IsGroup id info) (value rect) :
    IsGroup id (Form.addOption (.map [("value", value), ("rect", rect)]) info) := by
  obtain ⟨hid, ht, ⟨_, hop, ha⟩, hp⟩ := h
  rw [Form.addOption, hop]
  simp only [IsGroup, has, HasOptions, get?_set_self, get?_set_of_ne, ne_eq, String.reduceEq, not_false_eq_true]
  refine ⟨hid, ht, ⟨_, rfl, fun o ho => ?_⟩, hp⟩
  rcases mem_append.mp ho with ho | ho
  · exact ha o ho
  · rw [mem_singleton.mp ho]
    exact ⟨value, rfl⟩

variable {st st' : Survey}

lemma sound_describeAll {more} (hm : more ⊆ fields) (hst : st.Sound fields)
    (h : (describeAll more st).outcome s = (.ok st', s')) : st'.Sound fields := by
  induction more generalizing st s with
  | nil =>
    cases h
    exact hst
  | cons p more ih =>
    obtain ⟨id, _⟩ := p
    have hr := (cons_subset.mp hm).2
    obtain ⟨_, _, -, h⟩ := outcome_bind_eq_ok.mp h
    split at h
    · obtain ⟨_, _, -, h⟩ := outcome_bind_eq_ok.mp h
      refine ih hr ?_ h
      split
      · exact ⟨hst.single, hst.pressed⟩
      · exact hst
    · obtain ⟨info, _, hi, h⟩ := outcome_bind_eq_ok.mp h
      have hi := answers_fieldInfo (hm (.head _)) hi
      refine ih hr ?_ h
      refine ⟨fun p hp => ?_, hst.pressed⟩
      rcases mem_append.mp hp with hp | hp
      · exact hst.single p hp
      · rw [mem_singleton.mp hp]
        exact hi

lemma of_mem_change {P : String → Fields → Prop} {name f kept p} (hp : p ∈ change name f kept) (h : ∀ p ∈ kept, P p.1 p.2)
    (hf : ∀ id info, P id info → P id (f info)) : P p.1 p.2 := by
  obtain ⟨q, hq, rfl⟩ := mem_map.mp hp
  dsimp only
  split
  · exact hf _ _ (h q hq)
  · exact h q hq

lemma sound_locate {page note} (hst : st.Sound fields) (h : locate page st note = .ok st') : st'.Sound fields := by
  unfold locate at h
  obtain ⟨_?, -, h⟩ := bind_eq_ok.mp h
  split at h
  · cases h
    exact hst
  split at h
  · obtain ⟨r, -, h⟩ := bind_eq_ok.mp h
    cases h
    exact ⟨fun p hp => of_mem_change hp hst.single fun _ _ h => h.placed _ _, hst.pressed⟩
  split at h
  · obtain ⟨_?, -, h⟩ := bind_eq_ok.mp h
    split at h
    · rename_i value
      obtain ⟨r, -, h⟩ := bind_eq_ok.mp h
      cases h
      refine ⟨hst.single, fun p hp => of_mem_change hp (fun p hp => ?_) fun _ _ h => h.addOption value r⟩
      split at hp
      · exact hst.pressed p hp
      · rcases mem_append.mp hp with hp | hp
        · exact hst.pressed p hp
        · rw [mem_singleton.mp hp]
          exact ⟨rfl, rfl, ⟨[], rfl, by simp⟩, rfl⟩
    · cases h
      exact hst
  · cases h
    exact hst

lemma sound_locateAll {page notes} (hst : st.Sound fields) (h : locateAll page st notes = .ok st') : st'.Sound fields := by
  induction notes generalizing st with
  | nil =>
    cases h
    exact hst
  | cons note notes ih =>
    obtain ⟨_, hn, h⟩ := bind_eq_ok.mp h
    exact ih (sound_locate hst hn) h

lemma sound_locatePages {page pages} (hst : st.Sound fields)
    (h : locatePages page st pages = .ok st') : st'.Sound fields := by
  induction pages generalizing page st with
  | nil =>
    cases h
    exact hst
  | cons p pages ih =>
    obtain ⟨_, -, h⟩ := bind_eq_ok.mp h
    obtain ⟨_, -, h⟩ := bind_eq_ok.mp h
    obtain ⟨_, hn, h⟩ := bind_eq_ok.mp h
    exact ih (sound_locateAll hst hn) h

variable {pages : List Value} {infos : List Fields}

/-- **What the descriptions of a form have**: a page, and what is asked of them. -/
lemma answers_describe (h : (describe ⟨.map fields, pages⟩).outcome s = (.ok infos, s')) (hi : info ∈ infos) :
    has info "page" ∧ ∃ id, Answers fields id info := by
  unfold describe at h
  obtain ⟨_, _, hf, h⟩ := outcome_bind_eq_ok.mp h
  cases hf
  obtain ⟨st, _, hst, h⟩ := outcome_bind_eq_ok.mp h
  obtain ⟨_, _, hst', h⟩ := outcome_bind_eq_ok.mp h
  obtain ⟨_, _, -, h⟩ := outcome_bind_eq_ok.mp h
  obtain ⟨_, _, hk, h⟩ := outcome_bind_eq_ok.mp h
  have hso := sound_locatePages (sound_describeAll (Subset.refl _) ⟨by simp, by simp⟩ hst) (outcome_ofResult_eq_ok hst').1
  cases h
  obtain ⟨p, hp, rfl⟩ := mem_map.mp hi
  obtain ⟨info, hpl, hke⟩ := exists_of_mem_mapM (outcome_ofResult_eq_ok hk).1 (mem_mergeSort.mp hp)
  obtain ⟨_, -, hpa⟩ := bind_eq_ok.mp hke
  cases hpa
  rcases mem_append.mp hpl with hs | hpr
  · obtain ⟨hs, hpag⟩ := mem_filter.mp hs
    obtain ⟨q, hq, rfl⟩ := mem_map.mp hs
    exact ⟨hpag, q.1, hso.single q hq⟩
  · obtain ⟨q, hq, rfl⟩ := mem_map.mp hpr
    exact ⟨(hso.pressed q hq).2.2.2, q.1, (hso.pressed q hq).answers⟩

/-! ## Checks -/

lemma item_of_get? {key} (h : get? key info = some v) : (Value.map info).item key = .ok v := by rw [Value.item, h]

lemma exists_optionValues {key} (h : HasOptions key info) : ∃ vs, optionValues (.map info) key = .ok vs := by
  obtain ⟨_, ho, ha⟩ := h
  obtain ⟨vs, hvs⟩ := exists_mapM_eq_ok ha
  exact ⟨vs, by rw [optionValues, item_of_get? ho]; exact hvs⟩

lemma exists_fault_of_answers (h : Answers fields id info)
    (hb : get? "type" info = some (.str "checkbox") → has info "checked_value" ∧ has info "unchecked_value") (value) :
    ∃ r, valueFault? (.map info) value = .ok r := by
  obtain ⟨hid, type, ht, hr, hc, -⟩ := h
  unfold valueFault?
  simp only [item_of_get? ht, item_of_get? hid, bind, Except.bind]
  split
  · rename_i heq
    obtain ⟨hon, ho⟩ := hb (ht.trans (congrArg some heq))
    obtain ⟨on, hon⟩ := Option.isSome_iff_exists.mp hon
    obtain ⟨_, ho⟩ := Option.isSome_iff_exists.mp ho
    rw [item_of_get? hon, item_of_get? ho]
    dsimp only
    split <;> exact ⟨_, rfl⟩
  · rename_i heq
    obtain ⟨vs, hvs⟩ := exists_optionValues (hr (Value.str.inj heq))
    rw [hvs]
    dsimp only
    split <;> exact ⟨_, rfl⟩
  · rename_i heq
    obtain ⟨vs, hvs⟩ := exists_optionValues (hc (Value.str.inj heq))
    rw [hvs]
    dsimp only
    split <;> exact ⟨_, rfl⟩
  · exact ⟨none, rfl⟩

/-- A value for a field that says which field and on which page. -/
def IsEntry (e : Value) : Prop := ∃ id page, e.item "field_id" = .ok id ∧ id.hashed = .ok id ∧ e.item "page" = .ok page

lemma exists_entryFault (hp : ∀ info ∈ infos, has info "page")
    (hi : ∀ info ∈ infos, ∀ value, ∃ r, valueFault? (.map info) value = .ok r) {e} (he : IsEntry e) :
    ∃ r, entryFault? infos e = .ok r := by
  obtain ⟨id, page, hid, hh, hp'⟩ := he
  unfold entryFault?
  simp only [hid, hh, hp', bind, Except.bind]
  split
  · exact ⟨_, rfl⟩
  · rename_i info hf
    have hm := mem_reverse.mp (mem_of_find?_eq_some hf)
    obtain ⟨_, hr⟩ := Option.isSome_iff_exists.mp (hp info hm)
    rw [item_of_get? hr]
    dsimp only
    split
    · exact ⟨_, rfl⟩
    · cases e with
      | map fs =>
        rw [Value.hasItem]
        dsimp only
        split
        · obtain ⟨value, hv⟩ := Option.isSome_iff_exists.mp ‹has fs "value" = true›
          rw [item_of_get? hv]
          exact hi info hm value
        · exact ⟨_, rfl⟩
      | _ => cases hid

lemma outcome_reportFaults {entries faults} (hs : s.reader.limit? = none)
    (h : entries.mapM (entryFault? infos) = .ok faults) :
    (reportFaults infos entries).outcome s = (.ok (faults.any (·.isSome)), s.printed (faults.filterMap fun f => f)) := by
  induction entries generalizing faults s with
  | nil =>
    cases h
    rfl
  | cons e entries ih =>
    obtain ⟨fault?, _, he, hr, rfl⟩ := mapM_cons_eq_ok.mp h
    rw [reportFaults, he, bind_of_ok (outcome_ofResult_ok _ _)]
    cases fault? with
    | none => simpa using ih hs hr
    | some text =>
      dsimp only
      rw [bind_of_ok (outcome_print hs text), bind_of_ok (ih (s := s.printed [text]) hs hr)]
      simp [Session.printed]

/-- **When the check of values ends with all faults told**: exactly if every checkbox that is described has two states. -/
theorem checks_end_iff (hfields : Distinct fields) (h : (describe ⟨.map fields, pages⟩).outcome s = (.ok infos, s')) :
    ((∀ info ∈ infos, ∀ value, ∃ r, valueFault? (.map info) value = .ok r) ∧
      ∀ entries, (∀ e ∈ entries, IsEntry e) → ∃ faults, entries.mapM (entryFault? infos) = .ok faults ∧
        ∀ t : Session, t.reader.limit? = none →
          (reportFaults infos entries).outcome t = (.ok (faults.any (·.isSome)), t.printed (faults.filterMap fun f => f))) ↔
    ∀ info ∈ infos, get? "type" info = some (.str "checkbox") → ∃ id field, get? "field_id" info = some (.str id) ∧
      get? id fields = some field ∧ stateCount field = .ok 2 := by
  constructor
  · rintro ⟨hvalues, -⟩ info hinfo hbox
    obtain ⟨-, id, hid, type, htype, -, -, hcheck⟩ := answers_describe h hinfo
    obtain rfl := Value.str.inj (Option.some.inj (htype.symm.trans hbox))
    obtain ⟨field, n, hmem, hn, hon, -⟩ := hcheck rfl
    refine ⟨id, field, hid, get?_of_mem hfields hmem, ?_⟩
    obtain ⟨r, hr⟩ := hvalues info hinfo .null
    unfold valueFault? at hr
    simp only [item_of_get? htype, item_of_get? hid, bind, Except.bind] at hr
    cases hget : get? "checked_value" info with
    | none =>
      rw [Value.item, hget] at hr
      cases hr
    | some on =>
      rw [has, hget] at hon
      rw [hn, eq_of_beq hon.symm]
  · intro hboxes
    have hvalues : ∀ info ∈ infos, ∀ value, ∃ r, valueFault? (.map info) value = .ok r := by
      intro info hinfo value
      obtain ⟨-, id, hanswers⟩ := answers_describe h hinfo
      refine exists_fault_of_answers hanswers (fun hbox => ?_) value
      obtain ⟨hid, type, htype, -, -, hcheck⟩ := hanswers
      obtain rfl := Value.str.inj (Option.some.inj (htype.symm.trans hbox))
      obtain ⟨field, n, hmem, hn, hon, hoff⟩ := hcheck rfl
      obtain ⟨id', field', hid', hfield', hn'⟩ := hboxes info hinfo hbox
      obtain rfl := Value.str.inj (Option.some.inj (hid.symm.trans hid'))
      obtain rfl := Option.some.inj ((get?_of_mem hfields hmem).symm.trans hfield')
      obtain rfl := Except.ok.inj (hn.symm.trans hn')
      exact ⟨hon, hoff⟩
    refine ⟨hvalues, fun entries hentries => ?_⟩
    obtain ⟨faults, hfaults⟩ := exists_mapM_eq_ok fun e he =>
      exists_entryFault (fun info hinfo => (answers_describe h hinfo).1) hvalues (hentries e he)
    exact ⟨faults, hfaults, fun t ht => outcome_reportFaults ht hfaults⟩

/-- A form with a box to check on its only page, with two states or with none. -/
def boxForm (two : Bool) : Document :=
  ⟨.map [("a", .map [("/FT", "/Btn"), ("/_States_", .list (if two then ["/On", "/Off"] else []))])],
    [.map [("/Annots", .list [.map [("/T", "a")]])]]⟩

def boxInfo (two : Bool) : Fields :=
  [("field_id", .str "a"), ("type", .str "checkbox")] ++
    if two then [("checked_value", .str "/On"), ("unchecked_value", .str "/Off")] else []

lemma outcome_describe_box (two) :
    (describe (boxForm two)).outcome {} = (.ok [boxInfo two ++ [("page", .int 1), ("rect", .null)]], {}) := by
  have hn : namesUp (.map [("/T", "a")]) = .ok [.str "a"] := by
    rw [namesUp]
    rfl
  have hp : locatePages 1 { single := [("a", boxInfo two)] } (boxForm two).pages =
      .ok { single := [("a", boxInfo two ++ [("page", .int 1), ("rect", .null)])] } := by
    change (locate 1 _ (.map [("/T", "a")]) >>= _) >>= _ = _
    rw [locate, fullName?, hn]
    cases two <;> rfl
  have ha : (describeAll (boxForm two).fields.entries {}).outcome {} = (.ok { single := [("a", boxInfo two)] }, {}) := by
    cases two <;> rfl
  refine (bind_of_ok rfl).trans ((bind_of_ok ha).trans ?_)
  rw [hp, bind_of_ok (outcome_ofResult_ok _ _)]
  cases two <;>
  · refine (bind_of_ok rfl).trans ((bind_of_ok rfl).trans ?_)
    rw [reverse_singleton, mergeSort_singleton]
    rfl

theorem checks_end_two_states : ∃ faults, [Value.map [("field_id", "a"), ("page", .int 1), ("value", "/Yes")]].mapM
      (entryFault? [boxInfo true ++ [("page", .int 1), ("rect", .null)]]) = .ok faults :=
  have hentry : IsEntry (.map [("field_id", "a"), ("page", .int 1), ("value", "/Yes")]) := ⟨.str "a", .int 1, rfl, rfl, rfl⟩
  have hboxes := (checks_end_iff (by simp [Distinct, Fields.keys]) (outcome_describe_box true)).mpr fun info hinfo _ =>
    ⟨"a", _, mem_singleton.mp hinfo ▸ rfl, rfl, rfl⟩
  (hboxes.2 _ (by simpa using hentry)).imp fun _ h => h.1

/-- A box without states. -/
theorem check_of_box_fails : ∃ info, (describe (boxForm false)).outcome {} = (.ok [info], {}) ∧
    valueFault? (.map info) "/On" = .error (Value.noKey "checked_value") := ⟨_, outcome_describe_box false, rfl⟩

end Sluice.Form
