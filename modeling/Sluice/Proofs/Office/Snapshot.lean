import Mathlib.Data.List.Nodup
import Sluice.Office.Document
import Sluice.Proofs.Machine.Path
import Sluice.Proofs.Office.Desk

/-!
# What changes of a document keep
-/

namespace Sluice.Office

open List Dom Edit CommentPart

variable {id : Int} {f : Node → List Node} {p : Part} {element text : String} {u : Unit}

/-! ## Places of parts -/

def registryParts : List String := [relationshipPart, typePart]

def knownParts : List String := registryParts ++ [mainPart, settingsPart, "word/people.xml"] ++ all.map name

def placeOf (name : String) : Path := Document.copyPath.joinText name

lemma placed_placeOf {name} (h : name ∈ knownParts) : (placeOf name).Placed := by
  have ha : ∀ name ∈ knownParts, (placeOf name).resolve = placeOf name ∧ (placeOf name).parts ≠ [] := by decide +kernel
  exact ⟨(ha name h).1, (ha name h).2⟩

lemma placeOf_injective {a b} (ha : a ∈ knownParts) (hb : b ∈ knownParts) (h : placeOf a = placeOf b) : a = b := by
  have hn : (knownParts.map placeOf).Nodup := by decide +kernel
  exact inj_on_of_nodup_map hn ha hb h

open Desk

variable {d : Desk} {m : Nat}

/-- What is watched while a document is revised: open registries, files, and parts that are there. -/
structure Snapshot where
  signature : Signature
  part? : String → Option Part
  files : FileTree
  there : List String

variable {new : List Node}

namespace Snapshot

variable {v : Snapshot} {d d' : Desk} {m : Nat} {name : String}

/-- **A desk on which the registries are as they were**, and so are their files. -/
structure Fits (v : Snapshot) (d : Desk) : Prop where
  tidy : d.Tidy
  base : d.base = Document.copyPath
  signature : d.signature? = some v.signature
  known : ∀ q ∈ d.parts, q.1 ∈ knownParts ∧ q.2.path = placeOf q.1
  distinct : (d.parts.map (·.1)).Nodup
  registries : ∀ name ∈ registryParts, d.part? name = v.part? name
  files : ∀ name ∈ registryParts, ∀ shown c, d.files.open? (placeOf name) shown = .ok c →
    v.files.open? (placeOf name) shown = .ok c
  there : ∀ name ∈ v.there, name ∈ knownParts ∧ d.files.pathExists (placeOf name)

def Free (v : Snapshot) (m : Nat) : Prop := ∀ name ∈ registryParts, ∀ p, v.part? name = some p → m ∉ marksOf p.roots

lemma mem_knownParts (h : name ∈ registryParts) : name ∈ knownParts := mem_append_left _ (mem_append_left _ h)

lemma Fits.later {next} (hd : v.Fits d) (h : d.next ≤ next) : v.Fits { d with next } :=
  { hd with tidy := ⟨hd.tidy.nodup, fun m hm => Nat.lt_of_lt_of_le (hd.tidy.below m hm) h⟩ }

lemma Fits.editAs {part?} (hd : v.Fits d) (ht : (d.edit m f).Tidy)
    (h : ∀ name ∈ registryParts, (d.edit m f).part? name = part? name) : Fits { v with part? } (d.edit m f) := by
  refine { hd with tidy := ht, registries := h, known := fun q hq => ?_, distinct := by rw [Desk.edit, map_map]; exact hd.distinct }
  obtain ⟨q', hq', rfl⟩ := mem_map.mp hq
  exact hd.known q' hq'

lemma Fits.edit (hd : v.Fits d) (hm : v.Free m) (ht : (d.edit m f).Tidy) : v.Fits (d.edit m f) := by
  refine hd.editAs ht fun name hname => ?_
  rw [part?_edit, hd.registries name hname]
  cases hp : v.part? name with
  | none => rfl
  | some p => rw [Option.map_some, edit_of_not_mem _ (hm name hname p hp)]

lemma Fits.free_of_mem (hd : v.Fits d) (hname : name ∉ registryParts) (hp : d.part? name = some p)
    (hm : m ∈ marksOf p.roots) : v.Free m := by
  intro r hr q hq
  rw [← hd.registries r hr] at hq
  exact hd.tidy.not_mem_other hp hq (fun heq => hname (heq ▸ hr)) hm

lemma Fits.free_of_away (hd : v.Fits d) (hm : m ∉ marksOf d.forest) : v.Free m := by
  intro r hr q hq hme
  rw [← hd.registries r hr] at hq
  exact hm (mem_marksOf_forest hq hme)

lemma Fits.free_of_inside {n k} (hd : v.Fits d) (hm : v.Free m) (hn : d.find? m = some n)
    (hk : k ∈ n.marks) : v.Free k := by
  intro r hr p hp hme
  have hp' := hp
  rw [← hd.registries r hr] at hp'
  exact hm r hr p hp (hd.tidy.mem_part_of_inside hp' hn hk hme)

def put (v : Snapshot) (name : String) (p : Part) : Snapshot :=
  { v with part? := fun other => if other = name then some p else v.part? other }

lemma part?_put {other} : (v.put name p).part? other = if other = name then some p else v.part? other := rfl

lemma Fits.openPart (hd : v.Fits d) (hk : name ∈ knownParts) (h : Gives (Edit.part name) d p d') :
    (v.put name p).Fits d' := by
  have ht := hd.tidy.part h
  have hl : ∀ r ∈ registryParts, d'.part? r = (v.put name p).part? r := by
    intro r hr
    rw [part?_of_gives h, part?_put, hd.registries r hr]
  rcases gives_part h with ⟨-, rfl⟩ | ⟨hn, _, _, -, -, hp, rfl⟩
  · exact { hd with tidy := ht, registries := hl }
  · refine { hd with tidy := ht, registries := hl, known := fun q hq => ?_, distinct := ?_ }
    · rcases mem_append.mp hq with hq | hq
      · exact hd.known q hq
      · rw [mem_singleton.mp hq, hp, placeOf, ← hd.base]
        exact ⟨hk, rfl⟩
    · rw [map_append]
      refine nodup_append.mpr ⟨hd.distinct, nodup_singleton _, ?_⟩
      intro a ha b hb heq
      obtain ⟨q, hq, rfl⟩ := mem_map.mp ha
      rw [mem_singleton.mp hb] at heq
      rw [Desk.part?, Option.map_eq_none_iff, List.find?_eq_none] at hn
      exact hn q hq (by simpa using heq)

lemma Fits.editPart (hd : v.Fits d) (hp : d.part? name = some p) (hm : m ∈ marksOf p.roots) (ht : (d.edit m f).Tidy) :
    (v.put name { p with roots := Dom.edit m f p.roots }).Fits (d.edit m f) := by
  refine hd.editAs ht fun r hr => ?_
  rw [part?_edit]
  split
  · rename_i heq
    rw [heq, hp]
    rfl
  · rename_i hne
    rw [← hd.registries r hr]
    cases hr' : d.part? r with
    | none => rfl
    | some q => rw [Option.map_some, edit_of_not_mem _ (hd.tidy.not_mem_other hp hr' hne hm)]

def IsOther (name : String) : Prop := name ∈ knownParts ∧ name ∉ registryParts

instance (name : String) : Decidable (IsOther name) := inferInstanceAs (Decidable (_ ∧ _))

lemma Fits.part (hd : v.Fits d) (hname : IsOther name) (h : Gives (Edit.part name) d p d') :
    v.Fits d' ∧ d'.part? name = some p := by
  have ho := hd.openPart hname.1 h
  refine ⟨{ ho with registries := fun r hr => ?_ }, ?_⟩
  · have hne : r ≠ name := fun heq => hname.2 (heq ▸ hr)
    rw [ho.registries r hr, part?_put, if_neg hne]
  · rw [part?_of_gives h, if_pos rfl]

lemma Fits.fragment {xml} (hd : v.Fits d) (hname : IsOther name) (h : Gives (Edit.fragment name xml) d new d') :
    v.Fits d' ∧ (d'.part? name).isSome ∧ d'.Spare (marksOf new) ∧ ∀ m ∈ marksOf new, v.Free m := by
  obtain ⟨ht, hs⟩ := hd.tidy.fragment h
  obtain ⟨p, d1, _, next, hpa, hr, -, rfl⟩ := gives_fragment h
  obtain ⟨hd1, hp⟩ := hd.part hname hpa
  have hf := hd1.later (marks_of_read hr).2.1
  refine ⟨hf, ?_, hs, fun m hm => hf.free_of_away (hs.away m hm)⟩
  change (d1.part? name).isSome
  rw [hp]
  rfl

end Snapshot

lemma signing_fits (v : Snapshot) {name} (hname : Snapshot.IsOther name) :
    Signing v.signature name v.Free fun d => v.Fits d ∧ (d.part? name).isSome := by
  have hc {d : Desk} {m : Nat} {f : List Attribute → List Attribute} (hd : v.Fits d ∧ (d.part? name).isSome)
      (hm : v.Free m) : v.Fits (d.edit m fun n => [n.changeAttributes f]) ∧
        ((d.edit m fun n => [n.changeAttributes f]).part? name).isSome := by
    refine ⟨hd.1.edit hm hd.1.tidy.changeAttributes, ?_⟩
    rw [part?_edit, Option.isSome_map]
    exact hd.2
  exact {
    signature hd := hd.1.signature
    opened hd := hd.2
    change hd hm _ _ := hc hd hm
    draw hd := ⟨{ hd.1 with tidy := ⟨hd.1.tidy.nodup, hd.1.tidy.below⟩ }, hd.2⟩
    inside hd hm hn hk := hd.1.free_of_inside hm hn hk
    root hd hp hroot _ := hc hd (hd.1.free_of_mem hname.2 hp (mem_marksOf_of_mem (mem_of_find?_eq_some hroot))) }

namespace Snapshot

lemma isOther_comment (p : CommentPart) : IsOther p.name := by cases p <;> decide +kernel

lemma isOther_main : IsOther mainPart := by decide +kernel

variable {v : Snapshot} {name xml : String} {m? : Option Nat}

lemma Fits.insert {d1 d'} (hd : v.Fits d) (hname : IsOther name) (hm : v.Free m)
    (hne : Gives (Edit.fragment name xml) d new d1) (ht : d1.Tidy → d1.Spare (marksOf new) → (d1.edit m f).Tidy)
    (hsi : Gives (Edit.sign name (new.map (·.mark))) (d1.edit m f) u d') : v.Fits d' := by
  obtain ⟨hd1, ho, hs, hf⟩ := hd.fragment hname hne
  refine ((signing_fits v hname).sign (fun m hm => ?_) hsi ⟨hd1.edit hm (ht hd1.tidy hs), ?_⟩).1
  · obtain ⟨n, hn, rfl⟩ := mem_map.mp hm
    exact hf _ (mem_marksOf_of_mem hn)
  · rw [part?_edit, Option.isSome_map]
    exact ho

section

variable (hname : IsOther name)

include hname

section

variable (hm : ∀ m, m? = some m → v.Free m)

include hm

lemma preserves_insertMarkupBefore : Preserves (insertMarkupBefore name m? xml) v.Fits := by
  intro d ms d' h hd
  obtain ⟨m, _, d1, rfl, hn, hs, -⟩ := gives_insertMarkup insertBefore gives_insertBefore h
  exact hd.insert hname (hm m rfl) hn (·.insertBefore) hs

lemma preserves_insertMarkupAfter : Preserves (insertMarkupAfter name m? xml) v.Fits := by
  intro d ms d' h hd
  obtain ⟨m, _, d1, rfl, hn, hs, -⟩ := gives_insertMarkup insertAfter gives_insertAfter h
  exact hd.insert hname (hm m rfl) hn (·.insertAfter) hs

lemma preserves_appendMarkup : Preserves (appendMarkup name m? xml) v.Fits := by
  intro d ms d' h hd
  obtain ⟨m, _, d1, n, rfl, hne, hn, he, hsi, -⟩ := gives_appendMarkup h
  exact hd.insert hname (hm m rfl) hne (fun ht hs => ht.append hs hn he) hsi

end

lemma leads_namedIn : Leads v.Fits (namedIn name element) fun ns d => v.Fits d ∧ ∀ n ∈ ns, v.Free n.mark := by
  intro d ns d' h hd
  obtain ⟨p, hpa, rfl⟩ := gives_bind_pure.mp h
  obtain ⟨hd1, hp⟩ := hd.part hname hpa
  exact ⟨hd1, fun n hn => hd1.free_of_mem hname.2 hp (mem_marksOf_of_mem_named hn)⟩

lemma leads_find {q} : Leads v.Fits (Edit.find name q) fun n d => v.Fits d ∧ v.Free n.mark := by
  intro d n d' h hd
  obtain ⟨p, d1, hpa, hr⟩ := gives_bind.mp h
  obtain ⟨hf, rfl⟩ := gives_ofResult.mp hr
  obtain ⟨hd1, hp⟩ := hd.part hname hpa
  have hme : n ∈ (named q.name p.roots).filter q.fits := by
    rw [Description.find] at hf
    split at hf
    · rename_i heq
      cases hf
      rw [heq]
      exact mem_singleton_self n
    · cases hf
    · cases hf
  exact ⟨hd1, hd1.free_of_mem hname.2 hp (mem_marksOf_of_mem_named (mem_filter.mp hme).1)⟩

lemma preserves_hasEntry {key value} : Preserves (hasEntry name element key value) v.Fits :=
  (leads_namedIn hname).bind fun _ => leads_and fun _ => preserves_pure

lemma leads_firstNamed? : Leads v.Fits (firstNamed? name element) fun m? d => v.Fits d ∧ ∀ m, m? = some m → v.Free m := by
  refine (leads_namedIn hname).bind fun ns d m? d' h hd => ?_
  obtain ⟨rfl, rfl⟩ := gives_pure.mp h
  refine ⟨hd.1, fun m hm => ?_⟩
  obtain ⟨n, hn, rfl⟩ := Option.map_eq_some_iff.mp hm
  exact hd.2 n (mem_of_head? hn)

/-! ## Comments -/

lemma preserves_addTo {root} : Preserves (addTo name root xml) v.Fits :=
  (leads_find hname).bind fun _ => leads_and fun hf =>
    (preserves_appendMarkup hname (by simpa using hf)).bind fun _ => preserves_pure

def adding (v : Snapshot) (names : List String) : Snapshot := { v with there := names ++ v.there }

lemma leads_ensureFile : Leads v.Fits (ensureFile name text) fun _ => (v.adding [name]).Fits := by
  intro d u d' h hd
  rw [ensureFile, gives_get_bind, hd.base] at h
  dsimp only at h
  have hp := placed_placeOf hname.1
  split at h
  · rw [gives_ofResult_bind] at h
    obtain ⟨files, hsa, h⟩ := h
    rw [gives_set] at h
    have hs := FileTree.saved_of_saveAs hp hsa
    rw [h]
    refine { hd with tidy := ⟨hd.tidy.nodup, hd.tidy.below⟩, base := rfl, files := ?_, there := ?_ }
    · intro r hr shown c hop
      refine hd.files r hr shown c ((hs.others (placed_placeOf (mem_knownParts hr)) (fun heq => ?_) shown c).mp hop)
      exact hname.2 (placeOf_injective (mem_knownParts hr) hname.1 heq ▸ hr)
    · intro other ho
      rcases mem_cons.mp ho with rfl | ho
      · exact ⟨hname.1, hs.pathExists⟩
      · obtain ⟨hk, ht⟩ := hd.there other ho
        exact ⟨hk, hs.stays (placed_placeOf hk) ht⟩
  · rename_i ht
    rw [gives_pure] at h
    rw [h.2]
    refine { hd with there := fun other ho => ?_ }
    rcases mem_cons.mp ho with rfl | ho
    · exact ⟨hname.1, by simpa [placeOf] using ht⟩
    · exact hd.there other ho

end

lemma leads_eachPart {entry : CommentPart → String} {ps} : Leads v.Fits (each (fun p => do
      ensureFile p.name p.blank
      addTo p.name p.root (entry p)) ps) fun _ => (v.adding (ps.map (·.name))).Fits := by
  induction ps generalizing v with
  | nil => exact preserves_pure
  | cons p ps ih =>
    have hp := isOther_comment p
    refine ((leads_ensureFile hp).bind fun _ => preserves_addTo hp).bind fun _ d u d' hr hd => ?_
    have hdo := ih hr hd
    refine { hdo with there := fun name hname => hdo.there name ?_ }
    rcases mem_append.mp hname with hname | hname
    · rcases mem_cons.mp hname with rfl | hname
      · exact mem_append_right _ (.head _)
      · exact mem_append_left _ hname
    · exact mem_append_right _ (.tail _ hname)

/-- **A comment is filed**, and then all parts for comments are there. -/
lemma leads_fileComment {n paragraph durable parent?} : Leads v.Fits (do
      fileComment id paragraph durable text parent?
      noteComment n paragraph) fun _ => (v.adding (all.map (·.name))).Fits := by
  refine leads_eachPart.bind fun _ d n d' h hd => ?_
  rw [noteComment, gives_modify_bind, gives_pure] at h
  rw [h.2]
  exact { hd with tidy := ⟨hd.tidy.nodup, hd.tidy.below⟩ }

lemma preserves_drawId : Preserves Edit.drawId v.Fits := by
  intro d s d' h hd
  rw [Edit.drawId, gives_get_bind, gives_set_bind, gives_pure] at h
  rw [h.2]
  exact { hd with tidy := ⟨hd.tidy.nodup, hd.tidy.below⟩ }

lemma Fits.free_of_around {a} (hd : v.Fits d) (hm : v.Free m) (ha : a ∈ d.around m) : v.Free a.mark := by
  intro r hr p hp hme
  have hp' := hp
  rw [← hd.registries r hr] at hp'
  exact hm r hr p hp (hd.tidy.mem_part_of_around hp' ha hme)

/-- **Adding a comment** leaves the registries alone, and all parts for comments are there. -/
lemma leads_addComment {start? end?} (hs : ∀ m, start? = some m → v.Free m) (he : ∀ m, end? = some m → v.Free m) :
    Leads v.Fits (addComment start? end? text) fun _ => (v.adding (all.map (·.name))).Fits := by
  refine leads_get_bind fun _ _ => preserves_drawId.bind fun _ => preserves_drawId.bind fun _ => ?_
  refine (preserves_insertMarkupBefore isOther_main hs).bind fun _ => preserves_kept.bind fun _ => leads_node_bind fun n => ?_
  refine leads_guard ?_
  split
  · exact (preserves_appendMarkup isOther_main he).bind fun _ => leads_fileComment
  · exact (preserves_insertMarkupAfter isOther_main he).bind fun _ => leads_fileComment

/-- **Answering a comment** does so, too. -/
lemma leads_answerComment {parent} :
    Leads v.Fits (answerComment parent text) fun _ => (v.adding (all.map (·.name))).Fits := by
  refine leads_get_bind fun _ _ => ?_
  dsimp only
  split
  · exact fun _ _ _ h => absurd h gives_throw
  refine preserves_drawId.bind fun _ => preserves_drawId.bind fun _ => ?_
  refine (leads_find isOther_main).bind fun start => leads_and fun hs => ?_
  refine (leads_find isOther_main).bind fun r => leads_and fun hr => ?_
  refine (preserves_insertMarkupAfter isOther_main (by simpa using hs)).bind fun _ => leads_get_bind fun d hd => ?_
  have hru : ∀ m, (d.around r.mark).head?.map Node.mark = some m → v.Free m := by
    intro m hm
    obtain ⟨a, ha, rfl⟩ := Option.map_eq_some_iff.mp hm
    exact hd.free_of_around hr (mem_of_head? ha)
  refine (preserves_insertMarkupAfter isOther_main hru).bind fun _ => ?_
  exact (preserves_insertMarkupAfter isOther_main hru).bind fun _ => leads_fileComment

end Snapshot

inductive CommentCall
  | add (start? end? : Option Nat) (text : String)
  | answer (parent : Value) (text : String)

namespace CommentCall

def make : CommentCall → Edit Unit
  | add start? end? text => do
    let _ ← Edit.addComment start? end? text
  | answer parent text => do
    let _ ← Edit.answerComment parent text

def places : CommentCall → List Nat
  | add start? end? _ => start?.toList ++ end?.toList
  | answer .. => []

end CommentCall

namespace Snapshot

variable {v : Snapshot} {d d' : Desk}

lemma leads_make {c : CommentCall} (hc : ∀ m ∈ c.places, v.Free m) :
    Leads v.Fits c.make fun _ => (v.adding (all.map (·.name))).Fits := by
  cases c with
  | add start? end? text =>
    refine (leads_addComment (fun m hm => hc m ?_) (fun m hm => hc m ?_)).bind fun _ => preserves_pure
    · simp [CommentCall.places, hm]
    · simp [CommentCall.places, hm]
  | answer parent text => exact leads_answerComment.bind fun _ => preserves_pure

/-- **After some comments** the registries are as before, and all parts for comments are there. -/
lemma leads_makeAll {calls} (hne : calls ≠ []) (hc : ∀ c ∈ calls, ∀ m ∈ c.places, v.Free m) :
    Leads v.Fits (each CommentCall.make calls) fun _ => (v.adding (all.map (·.name))).Fits := by
  cases calls with
  | nil => exact absurd rfl hne
  | cons c calls =>
    refine (leads_make (hc c (.head _))).bind fun _ => preserves_each fun c' hc' d u d' hr hd => ?_
    have hma := leads_make (v := v.adding _) (hc c' (.tail _ hc')) hr hd
    exact { hma with there := fun name hname => hma.there name (mem_append_right _ hname) }

/-! ## Preparing a document -/

lemma isOther_settings : IsOther settingsPart := by decide +kernel

lemma isOther_people : IsOther "word/people.xml" := by decide +kernel

lemma preserves_loadComments : Preserves loadComments v.Fits := by
  refine leads_get_bind fun _ _ => ?_
  split
  · refine (leads_namedIn (isOther_comment .contents)).bind fun cs => leads_and fun _ d u d' h hd => ?_
    obtain ⟨_, -, h⟩ := gives_ofResult_bind.mp h
    rw [gives_modify] at h
    rw [h]
    exact { hd with tidy := ⟨hd.tidy.nodup, hd.tidy.below⟩ }
  · exact preserves_pure

section

variable {root : Nat} (hroot : v.Free root)

include hroot

lemma preserves_trackRevisions : Preserves (trackRevisions root) v.Fits := by
  refine (leads_firstNamed? isOther_settings).bind fun tracked? => leads_and fun _ => ?_
  split
  · refine (leads_firstNamed? isOther_settings).bind fun protection? => leads_and fun hpr => ?_
    refine (leads_firstNamed? isOther_settings).bind fun tabStop? => leads_and fun ht d u d' h hd => ?_
    obtain ⟨n, hn, h⟩ := gives_node_bind.mp h
    split at h
    · rename_i m hp
      refine (preserves_insertMarkupBefore isOther_settings fun k hk => ?_).bind (fun _ => preserves_pure) h hd
      cases hk
      cases protection? with
      | some _ => exact hpr m hp
      | none =>
        cases tabStop? with
        | some _ => exact ht m hp
        | none =>
          obtain ⟨c, hc, rfl⟩ := Option.map_eq_some_iff.mp hp
          refine hd.free_of_inside hroot hn ?_
          cases n with
          | leaf k kind data => cases hc
          | element k t cs => exact .tail _ (mem_marksOf_of_mem (mem_of_head? hc))
    · exact (preserves_appendMarkup isOther_settings (by simpa using hroot)).bind (fun _ => preserves_pure) h hd
  · exact preserves_pure

lemma preserves_noteSession {rsid} : Preserves (noteSession root rsid) v.Fits := by
  refine (leads_firstNamed? isOther_settings).bind fun rsids? => leads_and fun hr => ?_
  split
  · refine (leads_firstNamed? isOther_settings).bind fun compat? => leads_and fun hc => ?_
    split
    · exact (preserves_insertMarkupAfter isOther_settings hc).bind fun _ => preserves_pure
    · refine (leads_firstNamed? isOther_settings).bind fun mapping? => leads_and fun hma => ?_
      split
      · exact (preserves_insertMarkupBefore isOther_settings hma).bind fun _ => preserves_pure
      · exact (preserves_appendMarkup isOther_settings (by simpa using hroot)).bind fun _ => preserves_pure
  · refine leads_node_bind fun n => ?_
    split
    · exact (preserves_appendMarkup isOther_settings hr).bind fun _ => preserves_pure
    · exact preserves_pure

end

lemma preserves_addAuthor {author} : Preserves (addAuthor author) v.Fits := by
  refine (leads_find isOther_people).bind fun r => leads_and fun hf => (preserves_hasEntry isOther_people).bind fun b => ?_
  split
  · exact (preserves_appendMarkup isOther_people (by simpa using hf)).bind fun _ => preserves_pure
  · exact preserves_pure

/-- **Each part that is saved is in its file**, and all other files are as they were. -/
lemma saved_of_each {ps : List (String × Part)}
    (hk : ∀ q ∈ ps, q.1 ∈ knownParts ∧ q.2.path = placeOf q.1) (hd : (ps.map (·.1)).Nodup)
    (h : Gives (each (Edit.save ·.2) ps) d u d') :
    (∃ files, d' = { d with files }) ∧ (∀ q ∈ ps, ∀ shown, d'.files.open? (placeOf q.1) shown = .ok (.text q.2.text)) ∧
      (∀ name ∈ knownParts, name ∉ ps.map (·.1) → ∀ shown c,
        d'.files.open? (placeOf name) shown = .ok c ↔ d.files.open? (placeOf name) shown = .ok c) ∧
      ∀ name ∈ knownParts, d.files.pathExists (placeOf name) → d'.files.pathExists (placeOf name) := by
  induction ps generalizing d with
  | nil =>
    obtain ⟨-, rfl⟩ := gives_pure.mp h
    exact ⟨⟨_, rfl⟩, fun q hq => (by cases hq), fun _ _ _ _ _ => Iff.rfl, fun _ _ ht => ht⟩
  | cons q ps ih =>
    obtain ⟨_, d1, hsa, hr⟩ := gives_bind.mp h
    obtain ⟨files, hf, hse⟩ := gives_ofResult_bind.mp (gives_get_bind.mp hsa)
    obtain rfl := gives_set.mp hse
    obtain ⟨hq, hpa⟩ := hk q (.head _)
    rw [hpa] at hf
    have hs := FileTree.saved_of_saveAs (placed_placeOf hq) hf
    rw [map_cons, nodup_cons] at hd
    obtain ⟨⟨files', rfl⟩, hp, ho, ht⟩ := ih (fun q' hq' => hk q' (.tail _ hq')) hd.2 hr
    refine ⟨⟨files', rfl⟩, fun q' hq' shown => ?_, fun name hname hn shown c => ?_, fun name hname he => ?_⟩
    · rcases mem_cons.mp hq' with rfl | hq'
      · exact (ho _ hq hd.1 shown _).mpr (hs.content shown)
      · exact hp q' hq' shown
    · rw [map_cons, mem_cons, not_or] at hn
      rw [ho name hname hn.2 shown c]
      exact hs.others (placed_placeOf hname) (fun heq => hn.1 (placeOf_injective hname hq heq)) shown c
    · exact ht name hname (hs.stays (placed_placeOf hname) he)

end Snapshot

end Sluice.Office
