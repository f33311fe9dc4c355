import Sluice.Markdown.Command
import Sluice.Proofs.Machine.Session
import Sluice.Proofs.Markdown.Boundary
import Sluice.Proofs.Value.Distinct

/-!
# Documents that survive reading and writing

Of a document that is read and written again, three things can go wrong: names that a document has for its own parts, a
`type` in metadata, and content that begins with something like metadata. That YAML reads back what it writes is assumed
(`ReadsBack`).
-/

namespace Sluice.Markdown

open List Text Act
open String (ofList ofList_toList toList_ofList)

variable {texts : Pairs} {entries : List (Value × Yaml.Datum)} {rs : List Value} {s : Session} {lines : String}
  {fields : Fields} {content text : String}

/-! ## Metadata -/

def IsFree (fields : Fields) : Prop := ∀ name ∈ reservedNames, name ∉ fields.keys

instance (fields : Fields) : Decidable (IsFree fields) :=
  inferInstanceAs (Decidable (∀ name ∈ reservedNames, name ∉ fields.keys))

lemma isFree_nil : IsFree [] := fun _ _ => not_mem_nil

def refused : Fault := .badType "metadata names"

lemma freelyNamed_iff (hna : Yaml.Named entries) : FreelyNamed entries ↔ IsFree (Yaml.Datum.toFields entries) := by
  rw [IsFree, Yaml.keys_toFields]
  constructor
  · intro ha name hn hm
    obtain ⟨e, he, rfl⟩ := mem_map.mp hm
    obtain ⟨k, hk, hf⟩ := ha e he
    rw [hk] at hn
    exact hf hn
  · intro hf e he
    obtain ⟨k, hk⟩ := hna e he
    exact ⟨k, hk, fun hn => hf k hn (mem_map.mpr ⟨e, he, by rw [hk]; rfl⟩)⟩

lemma jsonMetadata_map (fields : Fields) :
    jsonMetadata (.map fields) = if IsFree fields then .ok fields else .error refused := by
  have ha : (fields.any (reservedNames.contains ·.1)) ↔ ¬ IsFree fields := by
    simp only [any_eq_true, contains_iff_mem, IsFree, Fields.keys, mem_map, not_forall, not_not]
    constructor
    · rintro ⟨f, hf, hn⟩
      exact ⟨f.1, hn, f, hf, rfl⟩
    · rintro ⟨_, hn, f, hf, rfl⟩
      exact ⟨f, hf, hn⟩
  exact (if_congr ha rfl rfl).trans (ite_not ..)

/-- A text, the metadata that it begins with, and its content. -/
inductive Divides (text : String) : Fields → String → Prop
  | dashes {head rest : Chars} {entries : List (Value × Yaml.Datum)}
      (between : between? dashesEnd? (strip text.toList) = some (head, rest))
      (loads : Yaml.load {} (ofList head) = .ok (.table entries)) (named : Yaml.Named entries) :
      Divides text (Yaml.Datum.toFields entries) (ofList (strip rest))
  | braces {head rest : Chars} {fields : Fields} (noDashes : dashesEnd? (strip text.toList) = none)
      (between : between? braceEnd? (strip text.toList) = some (head, rest))
      (reads : Json.read ("\x7b" ++ ofList head ++ "\x7d") = .ok (.map fields)) :
      Divides text fields (ofList (strip rest))
  /-- no metadata -/
  | none (undivided : isDivided (strip text.toList) = false) : Divides text [] (ofList (strip text.toList))

namespace Divides

variable {text : String} {fields : Fields} {content : String}

lemma distinct (h : Divides text fields content) : fields.Distinct := by
  cases h with
  | dashes _ loads named => exact Yaml.distinct_of_load loads named
  | braces _ _ reads => exact Json.distinct_of_read reads
  | none => exact nodup_nil

lemma content_infix (h : Divides text fields content) : content.toList <:+: text.toList := by
  have ht : strip text.toList <:+: text.toList := trim_infix _
  have hr {boundary? : Chars → Option Chars} (hb : Shortens boundary?) {head rest : Chars}
      (hbe : between? boundary? (strip text.toList) = some (head, rest)) :
      (ofList (strip rest)).toList <:+: text.toList := by
    rw [toList_ofList]
    exact ( trim_infix rest).trans ((between?_suffix hb hbe).1.isInfix.trans ht)
  cases h with
  | dashes between _ _ => exact hr shortens_dashesEnd? between
  | braces _ between _ => exact hr shortens_braceEnd? between
  | none => rwa [toList_ofList]

lemma strip_content (h : Divides text fields content) : strip content.toList = content.toList := by cases h <;> simp [strip]

lemma parse_eq (h : Divides text fields content) :
    Page.parse text = if IsFree fields then .ok ⟨fields, content⟩ else .error refused := by
  cases h with
  | dashes between loads named =>
    have := decidable_of_iff' _ (freelyNamed_iff named)
    exact (parse_of_table between loads).trans (if_congr (freelyNamed_iff named) rfl rfl)
  | braces noDashes between reads =>
    rw [parse_of_braces noDashes between, reads]
    simp only [bind, Except.bind, jsonMetadata_map]
    split <;> rfl
  | none undivided => exact (parse_of_not_divided undivided).trans (if_pos isFree_nil).symm

lemma parse_of_free (h : Divides text fields content) (hf : IsFree fields) : Page.parse text = .ok ⟨fields, content⟩ :=
  h.parse_eq.trans (if_pos hf)

end Divides

def frontRecord (fields : Fields) : Value := .map (("type", "frontmatter") :: fields)

def contentRecord (content : String) : Value := .map [("type", "content"), ("content", content)]

lemma records_eq_ofList : records {} text = .ofList rs ↔ ∃ page, Page.parse text = .ok page ∧ rs = page.records {} := by
  rw [records]
  cases Page.parse text with
  | error e => exact iff_of_false (fun h => by cases congrArg Feed.fault? h) fun ⟨_, h, _⟩ => by cases h
  | ok page => simp [Feed.bindResult_ok, Feed.ofList_inj, eq_comm]

lemma records_bare (content) : Page.records {} ⟨[], content⟩ = [contentRecord content] := rfl

lemma records_of_fields (hne : fields ≠ []) (hd : fields.Distinct) (content) : Page.records {} ⟨fields, content⟩ =
      [.map (("type", (Fields.get? "type" fields).getD (.str "frontmatter")) :: Fields.erase "type" fields),
        contentRecord content] := by
  have he : fields.isEmpty = false := by simpa using hne
  rw [Page.records, Fields.update_singleton hd]
  simp [he, contentRecord]

lemma getLast?_records (page : Page) : (page.records {}).getLast? = some (contentRecord page.content) := by
  simp [Page.records, contentRecord]

lemma sorted_contentRecord {content content'}
    (h : Yaml.sorted (contentRecord content) = Yaml.sorted (contentRecord content')) : content = content' := by
  have hm := (Yaml.perm_of_sorted h).mem_iff (a := ("content", .str content))
  simpa [Yaml.sortedEach, Yaml.sorted] using hm

lemma add_frontRecord (hd : fields.Distinct) (ht : "type" ∉ fields.keys) :
    Draft.add { fields := .map [] } (frontRecord fields) = .ok { fields := .map fields } := by
  have he : Fields.erase "type" (("type", "frontmatter") :: fields) = fields := Fields.erase_of_not_mem ht
  have hu : Fields.update [] fields = fields := Fields.ofPairs_of_distinct hd
  simp [Draft.add, frontRecord, Fields.get?, he, hu]

lemma documentText_of_free (hfr : IsFree fields) (content) :
    documentText fields content = .ok (Page.render ⟨fields, content⟩) := by
  have ho : (fields.any fun f => f.1 == "content" || f.1 == "self") = false := by
    rw [any_eq_false]
    intro f hf
    have hn (name : String) (hn : name ∈ reservedNames) : f.1 ≠ name := fun he => hfr name hn (he ▸ mem_map_of_mem hf)
    simp [hn "content" (by decide), hn "self" (by decide)]
  have hh : "handler" ∉ fields.keys := hfr "handler" (by decide)
  rw [documentText, ho]
  simp [Fields.get?_eq_none_iff.mpr hh, Fields.erase_of_not_mem hh]

/-- What is written for metadata and content; without metadata the content stands alone. -/
def document (fields : Fields) (content : String) : String :=
  if fields.isEmpty then content else Page.render ⟨fields, content⟩

lemma render_of_draft {records : List Value} (hd : records.foldlM Draft.add { fields := .map [] } =
      (.ok { fields := .map fields, parts := [content] } : Result Draft))
    (hf : IsFree fields) : render true .null records = .ok (document fields content) := by
  have hs : startFields .null = .ok (.map []) := rfl
  have hp : joinParts [content] = .ok content := by simp [joinParts, Value.str?, S.join, join]
  refine bind_eq_ok.mpr ⟨_, hs, bind_eq_ok.mpr ⟨_, hd, bind_eq_ok.mpr ⟨_, hp, ?_⟩⟩⟩
  cases fields with
  | nil => rfl
  | cons f fields => exact documentText_of_free hf content

lemma render_content (content) : render true .null [contentRecord content] = .ok content := render_of_draft rfl isFree_nil

lemma render_front (hd : fields.Distinct) (ht : "type" ∉ fields.keys) (hf : IsFree fields) (content) :
    render true .null [frontRecord fields, contentRecord content] = .ok (document fields content) := by
  refine render_of_draft ?_ hf
  rw [foldlM_cons, add_frontRecord hd ht]
  rfl

/-! ## Reading what was written -/

def yamlBetween (fields : Fields) : String := ofList ('\n' :: (S.strip (Yaml.render fields)).toList ++ ['\n'])

def ReadsBack (fields : Fields) : Prop :=
  ∃ entries, Yaml.load {} (yamlBetween fields) = .ok (.table entries) ∧ Yaml.Named entries ∧
    Yaml.sorted (.map (Yaml.Datum.toFields entries)) = Yaml.sorted (.map fields)

lemma strip_line (h : strip text.toList = text.toList) : strip (text ++ "\n").toList = text.toList := by
  rw [String.toList_append, strip_append_blanks (by decide), h]

lemma divides_render (hne : fields ≠ []) (hc : strip content.toList = content.toList)
    (hl : Yaml.load {} (yamlBetween fields) = .ok (.table entries)) (hn : Yaml.Named entries) :
    Divides (Page.render ⟨fields, content⟩ ++ "\n") (Yaml.Datum.toFields entries) content := by
  obtain ⟨_, hb, ha⟩ := between?_render hne hc
  have hs : strip (Page.render ⟨fields, content⟩).toList = (Page.render ⟨fields, content⟩).toList := by
    simp [Page.render, S.strip, strip]
  rw [← toList_render hc, ← strip_line hs] at hb
  have hd := Divides.dashes hb hl hn
  rwa [ha, ofList_toList] at hd

/-- **Metadata and content come back.** -/
lemma records_render (hne : fields ≠ []) (ht : "type" ∉ fields.keys) (hf : IsFree fields)
    (hc : strip content.toList = content.toList) (hy : ReadsBack fields) :
    ∃ rs, records {} (Page.render ⟨fields, content⟩ ++ "\n") = .ofList rs ∧
      rs.map Yaml.sorted = [frontRecord fields, contentRecord content].map Yaml.sorted := by
  obtain ⟨entries, hl, hn, hs⟩ := hy
  have hd := divides_render hne hc hl hn
  have hk := Yaml.keys_perm_of_sorted hs
  have hr : Yaml.Datum.toFields entries ≠ [] := by
    intro hni
    rw [hni] at hk
    exact hne (map_eq_nil_iff.mp hk.symm.eq_nil)
  have ht' : "type" ∉ Fields.keys (Yaml.Datum.toFields entries) := fun h => ht (hk.mem_iff.mp h)
  have hf' : IsFree (Yaml.Datum.toFields entries) := fun name hna h => hf name hna (hk.mem_iff.mp h)
  refine ⟨_, records_eq_ofList.mpr ⟨_, hd.parse_of_free hf', rfl⟩, ?_⟩
  rw [records_of_fields hr hd.distinct, Fields.get?_eq_none_iff.mpr ht', Fields.erase_of_not_mem ht']
  have hfr := Yaml.sorted_cons hs (k := "type") (v := .str "frontmatter")
    (nodup_cons.mpr ⟨ht', hd.distinct⟩)
  simp only [map_cons, Option.getD_none, frontRecord, hfr]

/-- **Content alone comes back** exactly if it does not begin with metadata itself. -/
lemma records_content_iff (hc : strip content.toList = content.toList) (hla : rs.getLast? = some (contentRecord content)) :
    (∃ rs', records {} (content ++ "\n") = .ofList rs' ∧ rs'.map Yaml.sorted = rs.map Yaml.sorted) ↔
      isDivided content.toList = false ∧ rs = [contentRecord content] := by
  have hs := strip_line hc
  constructor
  · rintro ⟨rs', hr, hso⟩
    obtain ⟨page, hp, rfl⟩ := records_eq_ofList.mp hr
    have hpa : page.content = content := by
      have hb := congrArg List.getLast? hso
      rw [getLast?_map, getLast?_map, getLast?_records, hla] at hb
      exact sorted_contentRecord (Option.some.inj hb)
    have hu : isDivided content.toList = false := by
      rw [← hs, Bool.eq_false_iff]
      intro hd
      have hl := length_content_of_divided hp hd
      rw [hs, hpa] at hl
      exact Nat.lt_irrefl _ hl
    refine ⟨hu, ?_⟩
    rw [← hs] at hu
    obtain rfl := Except.ok.inj ((parse_of_not_divided hu).symm.trans hp)
    obtain ⟨r, rfl⟩ : ∃ r, rs = [r] := by
      have hl := congrArg List.length hso
      simp only [length_map] at hl
      exact length_eq_one_iff.mp hl.symm
    exact congrArg (fun r => [r]) (Option.some.inj hla)
  · rintro ⟨hu, rfl⟩
    rw [← hs] at hu
    refine ⟨_, records_eq_ofList.mpr ⟨_, parse_of_not_divided hu, rfl⟩, ?_⟩
    rw [hs, ofList_toList, records_bare]

lemma return_not_mem_document (hc : strip content.toList = content.toList) (hr : '\r' ∉ content.toList) :
    '\r' ∉ (document fields content).toList := by
  rw [document]
  split
  · exact hr
  · rename_i hne
    have hy : '\r' ∉ (S.strip (Yaml.render fields)).toList := by
      have hf : fields ≠ [] := by simpa using hne
      have hg := Yaml.isGood_scan_render hf
      rw [S.strip, toList_ofList]
      exact fun hm => Yaml.Lead.return_not_mem hg.ne_spoiled (( trim_infix _).subset hm)
    have hb : '\r' ∉ behindRule content.toList := by
      rw [behindRule]
      split <;> simp [hr]
    simp [toList_render hc, rule, hy, hb]

/-! ## The round trip -/

def Yields (s : Session) (rs : List Value) : Prop :=
  ∃ text, readInput.outcome s = (.ok text, s) ∧ records {} text = .ofList rs

/-- The records on the lines of standard input come back from the document written for them, up to the order of fields. -/
def ComesBack (s : Session) (rs : List Value) : Prop :=
  ∃ document rs', (writeRecords true .null).outcome s = (.ok (), { s with out := document :: s.out }) ∧
    (∀ s' : Session, s'.input = .text document → Yields s' rs') ∧ rs'.map Yaml.sorted = rs.map Yaml.sorted

def Announces (fields : Fields) (rs : List Value) : Prop :=
  ∃ first more, rs = .map first :: more ∧ Fields.get? "type" first = some (.str "frontmatter") ∧
    ∀ f ∈ fields, Fields.get? f.1 first = some f.2

/-- The text on one standard input has records, these come back when the other one holds them, and the first of them
announces the metadata, if any. -/
def Survives (given held : Session) (fields : Fields) : Prop :=
  ∃ rs, Yields given rs ∧ ComesBack held rs ∧ (fields ≠ [] → Announces fields rs)

structure Ordinary (fields : Fields) (content : String) : Prop where
  free : IsFree fields
  /-- a record has its own use for the name of its kind -/
  typed : fields ≠ [] → Fields.get? "type" fields = none ∨
    (Fields.get? "type" fields = some (.str "frontmatter") ∧ Fields.erase "type" fields ≠ [])
  /-- content stands at the start of a document without metadata -/
  bare : fields = [] → isDivided content.toList = false

lemma yields_iff (hr : readInput.outcome s = (.ok text, s)) : Yields s rs ↔ records {} text = .ofList rs := by
  constructor
  · rintro ⟨_, hr', hre⟩
    rw [hr] at hr'
    rwa [Except.ok.inj (Prod.mk.inj hr').1]
  · intro hre
    exact ⟨text, hr, hre⟩

variable {document : String}

lemma outcome_writeRecords (hi : streamInput.outcome s = (.ok (lines, none), s)) (hr : s.readerGone = false)
    (hl : Json.readEveryLine lines none = .ok rs) (hre : render true .null rs = .ok document) :
    (writeRecords true .null).outcome s = (.ok (), { s with out := (document ++ "\n") :: s.out }) := by
  rw [writeRecords, bind_of_ok hi]
  dsimp only
  rw [hl, bind_of_ok (outcome_ofResult_ok rs s), hre,
    bind_of_ok (outcome_ofResult_ok document s), print, write,
    bind_of_ok (outcome_get s), if_neg (by simp [hr])]
  rfl

lemma comesBack_iff (hi : streamInput.outcome s = (.ok (lines, none), s)) (hrea : s.readerGone = false)
    (hl : Json.readEveryLine lines none = .ok rs) (hren : render true .null rs = .ok document)
    (hr : '\r' ∉ document.toList) :
    ComesBack s rs ↔ ∃ rs', records {} (document ++ "\n") = .ofList rs' ∧ rs'.map Yaml.sorted = rs.map Yaml.sorted := by
  have hw := outcome_writeRecords hi hrea hl hren
  have hr' : '\r' ∉ (document ++ "\n").toList := by simpa using hr
  constructor
  · rintro ⟨written, rs', hwr, hy, hs⟩
    obtain rfl : document ++ "\n" = written := by
      have ho := congrArg Session.out (Prod.mk.inj (hw.symm.trans hwr)).2
      exact (List.cons.inj ho).1
    refine ⟨rs', ?_, hs⟩
    have hread := outcome_readInput (s := { s with input := .text (document ++ "\n") }) rfl hr'
    exact (yields_iff hread).mp (hy _ rfl)
  · rintro ⟨rs', hre, hs⟩
    refine ⟨_, rs', hw, fun s' hs' => ?_, hs⟩
    exact (yields_iff (outcome_readInput hs' hr')).mpr hre

lemma announces_iff (hne : fields ≠ []) (hd : fields.Distinct) (content) :
    Announces fields (Page.records {} ⟨fields, content⟩) ↔
      Fields.get? "type" fields = none ∨ Fields.get? "type" fields = some (.str "frontmatter") := by
  rw [records_of_fields hne hd]
  constructor
  · rintro ⟨_, _, hrs, ht, -⟩
    obtain ⟨hfi, -⟩ := List.cons.inj hrs
    rw [← Value.map.inj hfi, Fields.get?] at ht
    cases hg : Fields.get? "type" fields with
    | none => exact .inl rfl
    | some v =>
      rw [hg] at ht
      exact .inr ht
  · intro ht
    refine ⟨_, _, rfl, ?_, ?_⟩
    · rcases ht with ht | ht <;> rw [ht] <;> rfl
    · rintro ⟨k, v⟩ hf
      have hv := Fields.get?_of_mem hd hf
      by_cases hk : k = "type"
      · subst hk
        rw [Fields.get?, hv]
        rfl
      · rw [Fields.get?, if_neg (Ne.symm hk), Fields.get?_erase_of_ne hk, hv]

/-- **Records of a page come back** if there is metadata besides its kind, or none and content that does not begin with
metadata. -/
lemma comesBack_page_iff (hd : Divides text fields content) (hr : '\r' ∉ text.toList) (hf : IsFree fields)
    (ht : fields ≠ [] → Fields.get? "type" fields = none ∨ Fields.get? "type" fields = some (.str "frontmatter"))
    (hi : streamInput.outcome s = (.ok (lines, none), s)) (hre : s.readerGone = false)
    (hl : Json.readEveryLine lines none = .ok (Page.records {} ⟨fields, content⟩))
    (hy : Fields.erase "type" fields ≠ [] → ReadsBack (Fields.erase "type" fields)) :
    ComesBack s (Page.records {} ⟨fields, content⟩) ↔
      (fields ≠ [] → Fields.erase "type" fields ≠ []) ∧ (fields = [] → isDivided content.toList = false) := by
  have hc := hd.strip_content
  have hr' : '\r' ∉ content.toList := fun hm => hr (hd.content_infix.subset hm)
  by_cases hne : fields = []
  · subst hne
    rw [comesBack_iff hi hre hl (render_content content) hr',
      records_content_iff hc (getLast?_records _)]
    simp [records_bare]
  · have hrec : Page.records {} ⟨fields, content⟩ = [frontRecord (Fields.erase "type" fields), contentRecord content] := by
      rw [records_of_fields hne hd.distinct]
      rcases ht hne with ht | ht <;> rw [ht] <;> rfl
    have hk : "type" ∉ Fields.keys (Fields.erase "type" fields) := fun h => (Fields.mem_keys_erase.mp h).2 rfl
    have hf' : IsFree (Fields.erase "type" fields) := fun name hn h => hf name hn (Fields.mem_keys_erase.mp h).1
    have hren := render_front (hd.distinct.erase "type") hk hf' content
    rw [hrec] at hl ⊢
    rw [comesBack_iff hi hre hl hren (return_not_mem_document hc hr')]
    by_cases he : Fields.erase "type" fields = []
    · -- the record of metadata is lost
      rw [he]
      refine (records_content_iff hc (by rfl)).trans ?_
      simp [hne]
    · have hdo : document (Fields.erase "type" fields) content =
          Page.render ⟨Fields.erase "type" fields, content⟩ := if_neg (by simpa using he)
      rw [hdo]
      have hb := records_render he hk hf' hc (hy he)
      simp only [hb, true_iff]
      exact ⟨fun _ => he, fun h => absurd h hne⟩

/-! ## Metadata of texts

Metadata whose values are all texts is compared by evaluation. -/

/-- The texts under names that a table holds, if it holds nothing else. -/
def textEntries? : List (Value × Yaml.Datum) → Option Pairs
  | [] => some []
  | (.str k, .leaf (.str v)) :: rest => (textEntries? rest).map ((k, v) :: ·)
  | _ => none

/-- The texts under names that YAML holds, if it holds nothing else. -/
def loadedTexts? (text : String) : Option Pairs :=
  match Yaml.load {} text with
  | .ok (.table entries) => textEntries? entries
  | _ => none

def textEntries (texts : Pairs) : List (Value × Yaml.Datum) := texts.map fun t => (.str t.1, .leaf (.str t.2))

lemma eq_of_textEntries? (h : textEntries? entries = some texts) : entries = textEntries texts := by
  fun_induction textEntries? entries generalizing texts with
  | case1 =>
    obtain rfl := Option.some.inj h
    rfl
  | case2 k v rest ih =>
    obtain ⟨_, hr, rfl⟩ := Option.map_eq_some_iff.mp h
    rw [ih hr]
    rfl
  | case3 => cases h

lemma load_of_loadedTexts? (h : loadedTexts? text = some texts) : Yaml.load {} text = .ok (.table (textEntries texts)) := by
  unfold loadedTexts? at h
  split at h
  · rename_i entries hl
    rw [hl, eq_of_textEntries? h]
  · cases h

lemma named_textEntries (texts) : Yaml.Named (textEntries texts) := by
  intro e he
  obtain ⟨t, -, rfl⟩ := mem_map.mp he
  exact ⟨t.1, rfl⟩

lemma divides_of_texts (head rest : String) (hb : between? dashesEnd? (strip text.toList) = some (head.toList, rest.toList))
    (hl : loadedTexts? head = some texts) : Divides text (Yaml.Datum.toFields (textEntries texts)) (S.strip rest) := by
  refine Divides.dashes hb ?_ (named_textEntries texts)
  rw [ofList_toList]
  exact load_of_loadedTexts? hl

def noteContent : String := "---\nb: 2\n---\nz"

/-- A document with such content, whose metadata has a `type`. -/
def noteText : String := "---\na: x\ntype: frontmatter\n---\n---\nb: 2\n---\nz"

def noteFields : Fields := [("a", "x"), ("type", "frontmatter")]

def noteRecords : List Value := [frontRecord [("a", "x")], contentRecord noteContent]

def noteLines : String :=
  "\x7b\"type\":\"frontmatter\",\"a\":\"x\"\x7d\n\x7b\"type\":\"content\",\"content\":\"---\\nb: 2\\n---\\nz\"\x7d"

lemma divides_note : Divides noteText noteFields noteContent := by
  have hl : loadedTexts? "\na: x\ntype: frontmatter\n" = some [("a", "x"), ("type", "frontmatter")] := by decide +kernel
  refine divides_of_texts "\na: x\ntype: frontmatter\n" "\n---\nb: 2\n---\nz" ?_ hl
  decide +kernel

lemma readsBack_note : ReadsBack [("a", "x")] := by
  have hl : loadedTexts? (yamlBetween [("a", "x")]) = some [("a", "x")] := by decide +kernel
  exact ⟨_, load_of_loadedTexts? hl, named_textEntries _, rfl⟩

lemma outcome_readInput_note :
    readInput.outcome { input := .text noteText } = (.ok noteText, { input := .text noteText }) := by
  refine outcome_readInput rfl ?_
  rw [toList_eq (s := noteText) rfl]
  decide

lemma yields_note (h : Yields { input := .text noteText } rs) : rs = noteRecords := by
  obtain ⟨_, hp, rfl⟩ := records_eq_ofList.mp ((yields_iff outcome_readInput_note).mp h)
  obtain rfl := Except.ok.inj (hp.symm.trans (divides_note.parse_of_free (by decide)))
  rfl

lemma outcome_streamInput_note :
    streamInput.outcome { input := .text noteLines } = (.ok (noteLines, none), { input := .text noteLines }) := by
  refine outcome_streamInput rfl ?_
  rw [toList_eq (s := noteLines) rfl]
  decide

lemma readEveryLine_note : Json.readEveryLine noteLines none = .ok noteRecords := by
  have hl : Json.keptLines noteLines = ["\x7b\"type\":\"frontmatter\",\"a\":\"x\"\x7d\n",
      "\x7b\"type\":\"content\",\"content\":\"---\\nb: 2\\n---\\nz\"\x7d"] := by
    rw [Json.keptLines, toList_eq (s := noteLines) rfl]
    rfl
  have hf : Json.read "\x7b\"type\":\"frontmatter\",\"a\":\"x\"\x7d\n" = .ok (frontRecord [("a", "x")]) :=
    Json.read_of_chars rfl rfl
  have hs : Json.read "\x7b\"type\":\"content\",\"content\":\"---\\nb: 2\\n---\\nz\"\x7d" =
      .ok (contentRecord noteContent) := Json.read_of_chars rfl rfl
  rw [Json.readEveryLine, hl]
  simp only [mapM_cons, mapM_nil, hf, hs]
  rfl

/-! ## When a document survives -/

/-- **A document survives being read, written and read again exactly if it is ordinary.** Its metadata, if any, is a table
of named values, and its records are held on lines. They come back, and the first of them announces the metadata, exactly
if no name of the metadata is one that a document has for its own parts, `type` is not among the names or says just what
the record would say and is not the only one, and content without metadata does not begin with metadata. Empty metadata is
never announced. -/
theorem page_survives_iff (given held : Session) (text lines : String) (fields : Fields) (content : String)
    (hread : Act.readInput.outcome given = (.ok text, given)) (hdivides : Divides text fields content)
    (hinput : Act.streamInput.outcome held = (.ok (lines, none), held)) (hreader : held.readerGone = false)
    (hlines : ∀ rs, Yields given rs → Json.readEveryLine lines none = .ok rs)
    (hyaml : Fields.erase "type" fields ≠ [] → ReadsBack (Fields.erase "type" fields)) :
    (Survives given held fields ↔ Ordinary fields content) ∧ (fields = [] → Yields given [contentRecord content]) := by
  have hreturn := Act.return_not_mem_readInput hread
  have hyields (hfree : IsFree fields) : Yields given (Page.records {} ⟨fields, content⟩) :=
    (yields_iff hread).mpr (records_eq_ofList.mpr ⟨_, hdivides.parse_of_free hfree, rfl⟩)
  constructor
  · constructor
    · rintro ⟨rs, hrs, hback, hannounces⟩
      obtain ⟨page, hparse, rfl⟩ := records_eq_ofList.mp ((yields_iff hread).mp hrs)
      have hfree : IsFree fields := by
        by_contra hfree
        cases hparse.symm.trans (hdivides.parse_eq.trans (if_neg hfree))
      obtain rfl := Except.ok.inj (hparse.symm.trans (hdivides.parse_of_free hfree))
      have htype := fun hne => (announces_iff hne hdivides.distinct content).mp (hannounces hne)
      have hpage := (comesBack_page_iff hdivides hreturn hfree htype hinput hreader (hlines _ hrs) hyaml).mp hback
      exact ⟨hfree, fun hne => (htype hne).imp_right fun h => ⟨h, hpage.1 hne⟩, hpage.2⟩
    · rintro ⟨hfree, htyped, hbare⟩
      have htype := fun hne => (htyped hne).imp_right And.left
      have hrs := hyields hfree
      refine ⟨_, hrs, ?_, fun hne => (announces_iff hne hdivides.distinct content).mpr (htype hne)⟩
      refine (comesBack_page_iff hdivides hreturn hfree htype hinput hreader (hlines _ hrs) hyaml).mpr ⟨?_, hbare⟩
      intro hne
      rcases htyped hne with hnone | ⟨-, hsome⟩
      · rwa [Fields.erase_of_not_mem (Fields.get?_eq_none_iff.mp hnone)]
      · exact hsome
  · rintro rfl
    exact hyields isFree_nil

theorem page_survives_note : Divides noteText noteFields noteContent ∧ Ordinary noteFields noteContent ∧
      Survives { input := .text noteText } { input := .text noteLines } noteFields := by
  have hordinary : Ordinary noteFields noteContent :=
    ⟨by decide, fun _ => .inr ⟨rfl, List.cons_ne_nil _ _⟩, fun h => absurd h (List.cons_ne_nil _ _)⟩
  have hiff := (page_survives_iff { input := .text noteText } { input := .text noteLines } noteText noteLines
    noteFields noteContent outcome_readInput_note divides_note
    outcome_streamInput_note rfl (fun rs h => yields_note h ▸ readEveryLine_note) fun _ => readsBack_note).1
  exact ⟨divides_note, hordinary, hiff.mpr hordinary⟩

/-- A document whose metadata has the name `content` has no records. -/
theorem not_yields_content :
    Divides "---\ncontent: x\n---\nbody" [("content", .str "x")] "body" ∧
      ∀ rs, ¬ Yields { input := .text "---\ncontent: x\n---\nbody" } rs := by
  have htext := Text.toList_eq (s := "---\ncontent: x\n---\nbody") rfl
  have hrest := Text.toList_eq (s := "\nbody") rfl
  have hload : loadedTexts? "\ncontent: x\n" = some [("content", "x")] := by decide +kernel
  have hcontent : "body" = Text.S.strip "\nbody" := by
    rw [Text.S.strip, hrest]
    rfl
  have hdivides : Divides "---\ncontent: x\n---\nbody" [("content", .str "x")] "body" := by
    rw [hcontent]
    refine divides_of_texts "\ncontent: x\n" "\nbody" ?_ hload
    rw [htext, hrest, Text.toList_eq (s := "\ncontent: x\n") rfl]
    decide +kernel
  have hread : Act.readInput.outcome { input := .text "---\ncontent: x\n---\nbody" } =
      (.ok "---\ncontent: x\n---\nbody", { input := .text "---\ncontent: x\n---\nbody" }) := by
    refine outcome_readInput rfl ?_
    rw [htext]
    decide
  refine ⟨hdivides, fun rs hyields => ?_⟩
  obtain ⟨page, hparse, -⟩ := records_eq_ofList.mp ((yields_iff hread).mp hyields)
  cases hparse.symm.trans (hdivides.parse_eq.trans (if_neg (by decide)))

end Sluice.Markdown
