import Sluice.Mail.Command
import Sluice.Proofs.Feed
import Sluice.Proofs.Value.Fields

/-!
# Attachments in records of messages

The record of a message lists the leaves with a file name. A payload that is itself a leaf is not asked for a name.
-/

namespace Sluice.Mail

open List Fields

mutual

/-- **A tree of parts** with its leaves in document order. -/
inductive IsTree : Value → List Fields → Prop
  | leaf {fields : Fields} (h : get? "parts" fields = none) : IsTree (.map fields) [fields]
  | holder {fields : Fields} {parts : List Value} {ends : List Fields} (h : get? "parts" fields = some (.list parts))
    (hparts : AreTrees parts ends) : IsTree (.map fields) ends

inductive AreTrees : List Value → List Fields → Prop
  | nil : AreTrees [] []
  | cons {part : Value} {parts : List Value} {ends more : List Fields} (h : IsTree part ends) (hparts : AreTrees parts more) :
    AreTrees (part :: parts) (ends ++ more)

end

mutual

lemma leaves_of_isTree {part : Value} {ends : List Fields} : IsTree part ends → leaves part = ends.map .ok
  | .leaf h => by
    rw [leaves]
    split <;> simp_all
  | .holder h hp => by
    rw [leaves]
    split
    · simp_all
    · rename_i heq
      rw [h] at heq
      cases heq
      simpa using leaves_of_areTrees hp
    · simp_all

lemma leaves_of_areTrees {parts : List Value} {ends : List Fields} : AreTrees parts ends → parts.flatMap leaves = ends.map .ok
  | .nil => rfl
  | .cons h hp => by rw [flatMap_cons, leaves_of_isTree h, leaves_of_areTrees hp, map_append]

end

/-! ## Records -/

variable (part : Fields)

def isFile : Bool := ((get? "filename" part).getD .null).truthy

def bodyOf : Fields :=
  match get? "body" part with
  | some (.map body) => body
  | _ => []

/-- What is listed of a part. -/
def card : Value :=
  .map [("filename", (get? "filename" part).getD .null), ("mime_type", (get? "mimeType" part).getD ""),
    ("size", (get? "size" (bodyOf part)).getD (.int 0)), ("attachment_id", (get? "attachmentId" (bodyOf part)).getD .null)]

/-- **The field `attachments`** that belongs to leaves. -/
def listed (ends : List Fields) : Option Value :=
  if (ends.filter isFile).isEmpty then none else some (.list ((ends.filter isFile).map card))

/-- A part that can be read: its body is a record, and the text in it can be decoded. -/
structure IsSound (part : Fields) : Prop where
  body : ∀ v, get? "body" part = some v → v = .map (bodyOf part)
  text : ∃ text?, bodyText? (.map part) = .ok text?

lemma describe?_of_isSound {part} (h : IsSound part) :
    describe? part ((get? "mimeType" part).getD "") = .ok (if isFile part then some (card part) else none) := by
  have hb : (get? "body" part).getD (.map []) = .map (bodyOf part) := by
    cases hp : get? "body" part with
    | none =>
      rw [bodyOf, hp]
      rfl
    | some v => exact h.body v hp
  rw [describe?, isFile]
  split <;> (simp_all; rfl)

lemma ofLeaf_of_isSound {part} (h : IsSound part) :
    ∃ piece, Piece.ofLeaf part = .ok piece ∧ piece.attachment? = if isFile part then some (card part) else none := by
  obtain ⟨text?, ht⟩ := h.text
  have hl : Piece.ofLeaf part = .ok ⟨(get? "mimeType" part).getD "", text?, if isFile part then some (card part) else none⟩ := by
    rw [Piece.ofLeaf, ht, describe?_of_isSound h]
    rfl
  exact ⟨_, hl, rfl⟩

lemma mapM_ofLeaf {ends : List Fields} (h : ∀ part ∈ ends, IsSound part) :
    ∃ pieces : List Piece, (ends.map Except.ok).mapM (fun leaf : Result Fields => leaf.bind Piece.ofLeaf) = .ok pieces ∧
      pieces.filterMap (·.attachment?) = (ends.filter isFile).map card := by
  induction ends with
  | nil => exact ⟨[], rfl, rfl⟩
  | cons part ends ih =>
    obtain ⟨p, hpi, _⟩ := ofLeaf_of_isSound (h part (.head _))
    obtain ⟨pieces, hp, hc⟩ := ih fun o ho => h o (.tail _ ho)
    refine ⟨p :: pieces, mapM_cons_eq_ok.mpr ⟨p, pieces, hpi, hp, rfl⟩, ?_⟩
    cases hf : isFile part <;> simp_all

variable {msg payload : Fields} {ends : List Fields}

lemma ofPayload_of_isSound (h : IsSound payload) :
    ∃ pieces, Piece.ofPayload (.map payload) = .ok pieces ∧ pieces.filterMap (·.attachment?) = [] := by
  obtain ⟨text?, ht⟩ := h.text
  rw [Piece.ofPayload, ht]
  cases text? with
  | none => exact ⟨[], rfl, rfl⟩
  | some text => exact ⟨[⟨_, some text, none⟩], rfl, rfl⟩

lemma ofParts_of_isTree (ht : IsTree (.map payload) ends) (hs : ∀ part ∈ ends, IsSound part) :
    ∃ pieces, Piece.ofParts (.map payload) = .ok pieces ∧
      pieces.filterMap (·.attachment?) = if has payload "parts" then (ends.filter isFile).map card else [] := by
  cases ht with
  | leaf h =>
    refine ⟨[], ?_, by simp [has, h]⟩
    simp [Piece.ofParts, Value.hasItem, has, h]
    rfl
  | @holder _ parts _ h hpa =>
    obtain ⟨pieces, hp, hc⟩ := mapM_ofLeaf hs
    refine ⟨pieces, ?_, by simp [has, h, hc]⟩
    rw [← hp, ← leaves_of_areTrees hpa]
    simp [Piece.ofParts, Value.hasItem, Value.item, has, h]
    rfl

/-- **The parts of a payload** are listed; the payload itself is not. -/
lemma bodyFields_of_isTree (ht : IsTree (.map payload) ends) (hs : ∀ part ∈ payload :: ends, IsSound part) :
    ∃ fields, bodyFields (.map payload) = .ok fields ∧
      get? "attachments" fields = if has payload "parts" then listed ends else none := by
  obtain ⟨_, ho, hn⟩ := ofPayload_of_isSound (hs payload (.head _))
  obtain ⟨_, hp, hc⟩ := ofParts_of_isTree ht fun part hpa => hs part (.tail _ hpa)
  rw [bodyFields, ho, hp]
  refine ⟨_, rfl, ?_⟩
  rw [filterMap_append, hn, hc]
  split
  · rw [nil_append, isEmpty_map, listed]
    split <;> rfl
  · rfl

/-! ## Messages -/

lemma headerFields_whole {payload headers} (h : headerFields false payload = .ok headers) :
    ∃ whole, headerFields true payload = .ok whole ∧ get? "attachments" whole = none := by
  obtain ⟨v, hv, h⟩ := bind_eq_ok.mp h
  obtain ⟨items, hi, h⟩ := bind_eq_ok.mp h
  obtain ⟨pairs, hp, -⟩ := bind_eq_ok.mp h
  exact ⟨_, bind_eq_ok.mpr ⟨v, hv, bind_eq_ok.mpr ⟨items, hi, bind_eq_ok.mpr ⟨pairs, hp, rfl⟩⟩⟩, rfl⟩

variable {fields : Fields}

lemma payloadFields_whole (hp : get? "payload" msg = some (.map payload))
    (h : payloadFields false (.map msg) = .ok fields) {body} (hb : bodyFields (.map payload) = .ok body) :
    ∃ headers, payloadFields true (.map msg) = .ok (headers ++ body) ∧ get? "attachments" headers = none := by
  simp only [payloadFields, Value.hasItem, Value.item, has, hp, bind, Except.bind] at h ⊢
  cases hh : get? "headers" payload with
  | none =>
    simp only [hb]
    exact ⟨[], rfl, rfl⟩
  | some v =>
    cases hr : headerFields false (.map payload) with
    | error f => simp [hh, hr] at h
    | ok headers =>
      obtain ⟨whole, hw, hn⟩ := headerFields_whole hr
      simp only [hw, hb]
      exact ⟨whole, rfl, hn⟩

lemma get?_taken {v key name} (hn : name ≠ "attachments") (h : taken v key name = .ok fields) :
    get? "attachments" fields = none := by
  obtain ⟨_, -, h⟩ := bind_eq_ok.mp h
  split at h
  · obtain ⟨w, -, h⟩ := bind_eq_ok.mp h
    cases h
    simp [get?, hn]
  · cases h
    rfl

lemma get?_dateFields {v} (h : dateFields v = .ok fields) : get? "attachments" fields = none := by
  obtain ⟨_, -, h⟩ := bind_eq_ok.mp h
  split at h
  · cases h
    rfl
  · obtain ⟨w, -, h⟩ := bind_eq_ok.mp h
    obtain ⟨n, -, h⟩ := bind_eq_ok.mp h
    obtain ⟨m, -, h⟩ := bind_eq_ok.mp h
    cases h
    rfl

/-- **When all attachments are listed.** A message that can be read has a record, and its attachments are the leaves of the
payload with a file name, exactly if the payload has parts or no file name. -/
theorem attachments_listed_iff (hpayload : get? "payload" msg = some (.map payload)) (htree : IsTree (.map payload) ends)
    (hrecord : ∃ v, record "metadata" (.map msg) = .ok v) (hsound : ∀ part ∈ payload :: ends, IsSound part) :
    ∃ fields, record "full" (.map msg) = .ok (.map fields) ∧
      (get? "attachments" fields = listed ends ↔ (get? "parts" payload = none → isFile payload = false)) := by
  obtain ⟨v, hrecord⟩ := hrecord
  obtain ⟨body, hbody, hlisted⟩ := bodyFields_of_isTree htree hsound
  obtain ⟨id, hid, h⟩ := bind_eq_ok.mp hrecord
  obtain ⟨thread, hthread, h⟩ := bind_eq_ok.mp h
  obtain ⟨labels, hlabels, h⟩ := bind_eq_ok.mp h
  obtain ⟨snippet, hsnippet, h⟩ := bind_eq_ok.mp h
  obtain ⟨date, hdate, h⟩ := bind_eq_ok.mp h
  obtain ⟨fields, hfields, -⟩ := bind_eq_ok.mp h
  obtain ⟨headers, hwhole, hheaders⟩ := payloadFields_whole hpayload hfields hbody
  refine ⟨[("id", id), ("thread_id", thread)] ++ labels ++ snippet ++ date ++ (headers ++ body), ?_, ?_⟩
  · exact bind_eq_ok.mpr ⟨id, hid, bind_eq_ok.mpr ⟨thread, hthread, bind_eq_ok.mpr ⟨labels, hlabels, bind_eq_ok.mpr
      ⟨snippet, hsnippet, bind_eq_ok.mpr ⟨date, hdate, bind_eq_ok.mpr ⟨_, hwhole, rfl⟩⟩⟩⟩⟩⟩
  · have hget : get? "attachments" ([("id", id), ("thread_id", thread)] ++ labels ++ snippet ++ date ++ (headers ++ body)) =
        if has payload "parts" then listed ends else none := by
      simp only [get?_append, get?_taken (by decide) hlabels, get?_taken (by decide) hsnippet, get?_dateFields hdate, hheaders,
        hlisted]
      rfl
    rw [hget]
    cases htree with
    | leaf h => simp [has, h, listed]
    | holder h hparts => simp [has, h]

def note : Fields := [("mimeType", "text/plain"), ("filename", ""), ("body", .map [("data", "aGk=")])]

def sheet : Fields := [("mimeType", "text/csv"), ("filename", "a.csv"), ("body", .map [("size", .int 3), ("attachmentId", "x")])]

def mixed : Fields :=
  [("body", .map [("size", .int 0)]), ("parts", .list [.map note, .map [("parts", .list [.map sheet])]])]

def letter (payload : Fields) : Fields := [("id", "m"), ("threadId", "t"), ("payload", .map payload)]

/-- A file is listed wherever it stands among the parts. -/
theorem attachments_listed_mixed : IsTree (.map mixed) [note, sheet] ∧
    ∃ fields, record "full" (.map (letter mixed)) = .ok (.map fields) ∧ get? "attachments" fields = some (.list [card sheet]) := by
  have htree : IsTree (.map mixed) [note, sheet] :=
    .holder rfl (.cons (.leaf rfl) (.cons (.holder rfl (.cons (.leaf rfl) .nil)) .nil))
  have hsound : ∀ part ∈ [mixed, note, sheet], IsSound part := by
    simp only [forall_mem_cons, not_mem_nil, false_imp_iff, implies_true, and_true]
    exact ⟨⟨fun v h => (Option.some.inj h).symm, none, rfl⟩, ⟨fun v h => (Option.some.inj h).symm, some "hi", rfl⟩,
      ⟨fun v h => (Option.some.inj h).symm, none, rfl⟩⟩
  have hrecord : ∃ v, record "metadata" (.map (letter mixed)) = .ok v := ⟨_, rfl⟩
  obtain ⟨fields, hrecord, hiff⟩ := attachments_listed_iff rfl htree hrecord hsound
  exact ⟨htree, fields, hrecord, hiff.mpr fun _ => rfl⟩

/-- A file that is all of the payload is not listed. -/
theorem attachments_lost : IsTree (.map sheet) [sheet] ∧ listed [sheet] = some (.list [card sheet]) ∧
    record "full" (.map (letter sheet)) =
      .ok (.map [("id", "m"), ("thread_id", "t"), ("body_text", .null), ("body_html", .null)]) :=
  ⟨.leaf rfl, rfl, rfl⟩

end Sluice.Mail
