import Sluice.Proofs.Number.Whole
import Sluice.Proofs.Office.Snapshot

/-!
# Parts for comments are made known
-/

namespace Sluice.Office

open List Dom Edit Text Number Node String
open Attribute (get isPlain)

variable {p : Part} {s : String} {u : Unit} {m : Nat} {n : Node}

/-! ## Registries -/

/-- The parts that list the other parts of a document. -/
inductive Registry
  /-- the relationships of the text -/
  | relationships
  /-- the types of contents -/
  | types
deriving DecidableEq

namespace Registry

def part : Registry → String
  | relationships => relationshipPart
  | types => typePart

def element : Registry → String
  | relationships => "Relationship"
  | types => "Override"

def key : Registry → String
  | relationships => "Target"
  | types => "PartName"

def value : Registry → CommentPart → String
  | relationships, p => p.file
  | types, p => "/" ++ p.name

def entries (r : Registry) (roots : List Node) (value : String) : Nat :=
  (named r.element roots).countP (·.valueOf r.key == value)

end Registry

def tagsOf (ns : List Node) : List Tag := (elementsOf ns).filterMap tag?

lemma tagsOf_nil : tagsOf [] = [] := by rw [tagsOf]; rfl

lemma tagsOf_append (xs ys) : tagsOf (xs ++ ys) = tagsOf xs ++ tagsOf ys := by
  rw [tagsOf, tagsOf, tagsOf, ← filterMap_append]
  congr 1
  induction xs with
  | nil => rw [elementsOf]; rfl
  | cons x xs ih => rw [cons_append, elementsOf, elementsOf, ih, List.append_assoc]

lemma tagsOf_element (m t cs) : tagsOf [.element m t cs] = t :: tagsOf cs := by
  rw [tagsOf, elementsOf, elements, elementsOf, append_nil]
  rfl

lemma tagsOf_leaf (m kind s) : tagsOf [.leaf m kind s] = [] := by rfl

lemma tagsOf_cons (n ns) : tagsOf (n :: ns) = tagsOf [n] ++ tagsOf ns := by rw [← tagsOf_append, singleton_append]

mutual

lemma tagsOf_number (next : Nat) : (n : Node) → tagsOf [(n.number next).1] = tagsOf [n]
  | .element m t cs => by simp only [number, tagsOf_element, tagsOf_numberAll (next + 1) cs]
  | .leaf m kind s => by simp only [number, tagsOf_leaf]

lemma tagsOf_numberAll (next : Nat) : (ns : List Node) → tagsOf (numberAll next ns).1 = tagsOf ns
  | [] => by rw [numberAll]
  | n :: ns => by
    simp only [numberAll]
    rw [tagsOf_cons, tagsOf_cons n, tagsOf_number next n, tagsOf_numberAll _ ns]

end

variable {r : Registry} {count : CommentPart → Nat}

namespace Registry

lemma entries_eq (r : Registry) (roots value) : r.entries roots value =
      (tagsOf roots).countP fun t => t.name == r.element && get t.attributes r.key == value := by
  rw [entries, named, tagsOf, countP_filter, countP_filterMap]
  refine countP_congr fun e _ => ?_
  cases e <;> simp [isNamed, valueOf, attributes, tag?, and_comm]

/-- A registry with an element without a prefix as its root, whose namespaces are written without references. -/
structure Lists (r : Registry) (roots : List Node) (count : CommentPart → Nat) : Prop where
  root : ∃ n, roots.find? (·.isElement) = some n ∧ Markup.prefixOf? n.name = none ∧
    ∀ a ∈ n.attributes, S.startsWith "xmlns" a.name → a.isPlain
  entries : ∀ p, r.entries roots (r.value p) = count p

lemma find?_numberAll (next ns) : ((numberAll next ns).1.find? (·.isElement)).map (fun n => (n.name, n.attributes)) =
      (ns.find? (·.isElement)).map (fun n => (n.name, n.attributes)) := by
  induction ns generalizing next with
  | nil => rw [numberAll]
  | cons n ns ih =>
    simp only [numberAll]
    cases n with
    | element m t cs => simp [number, isElement, name, attributes]
    | leaf m kind data => simpa [number, isElement] using ih (next + 1)

lemma Lists.numberAll {next next' ns} (h : r.Lists (numberAll next ns).1 count) : r.Lists (numberAll next' ns).1 count := by
  obtain ⟨n, hn, _, hp⟩ := h.root
  have hr := (find?_numberAll next ns).trans (find?_numberAll next' ns).symm
  rw [hn] at hr
  obtain ⟨n', hn', heq⟩ := Option.map_eq_some_iff.mp hr.symm
  obtain ⟨hna', ha⟩ := Prod.mk.inj heq
  refine ⟨⟨n', hn', by rwa [hna'], by rwa [ha]⟩, fun p => ?_⟩
  rw [← h.entries p, entries_eq, entries_eq, tagsOf_numberAll, tagsOf_numberAll]

variable {roots : List Node}

lemma Lists.append {new} (h : r.Lists roots count) (hn : (marksOf roots).Nodup)
    (hr : roots.find? (·.isElement) = some n) (hm : n.mark = m) :
    r.Lists (Dom.edit m (fun n => [n.changeChildren (· ++ new)]) roots) fun p => count p + r.entries new (r.value p) := by
  obtain ⟨n', hn', hna, hp⟩ := h.root
  rw [hr] at hn'
  obtain rfl := Option.some.inj hn'
  obtain ⟨he, pre, po, hs, hpr⟩ := find?_eq_some_iff_append.mp hr
  rw [hs, ← singleton_append, ← List.append_assoc] at hn
  have hme : m ∈ marksOf [n] := by
    rw [marksOf_singleton, ← hm]
    exact n.mark_mem_marks
  obtain ⟨hl, hri⟩ := not_mem_of_mem_middle hn hme
  have hed : Dom.edit m (fun n => [n.changeChildren (· ++ new)]) roots = pre ++ n.changeChildren (· ++ new) :: po := by
    rw [hs, ← singleton_append, ← List.append_assoc, edit_middle hl hri, edit_singleton_of_eq hm]
    simp
  rw [hed]
  cases n with
  | leaf k kind data => cases he
  | element k t cs =>
    refine ⟨⟨.element k t (cs ++ new), ?_, hna, hp⟩, fun p => ?_⟩
    · refine find?_eq_some_iff_append.mpr ⟨rfl, pre, po, rfl, hpr⟩
    · rw [← h.entries p, hs, entries_eq, entries_eq, entries_eq]
      simp only [Node.changeChildren, tagsOf_append, tagsOf_cons _ po, tagsOf_element, countP_append, countP_cons]
      omega

end Registry

def isKeptChar (c : Char) : Bool := Markup.isBare c && !Markup.isSpace c

/-- Whether a text can be a value that is read again as it was written. -/
def isKept (s : String) : Bool := s.toList.all isKeptChar

lemma isPlain_of_isKept {a : Attribute} (hn : Markup.isName a.name.toList) (hv : isKept a.value) : a.isPlain := by
  rw [isPlain, Markup.isBareAttribute, hn]
  refine all_eq_true.mpr fun c hc => ?_
  exact (Bool.and_eq_true_iff.mp (all_eq_true.mp hv c hc)).1

lemma reread_of_isKept (h : isKept s) : reread s = s := by
  have ha : ∀ cs : Chars, cs.all isKeptChar → Markup.blankSpaces cs = cs := by
    intro cs hcs
    induction cs with
    | nil => rfl
    | cons c cs ih =>
      rw [all_cons, Bool.and_eq_true, isKeptChar, Bool.and_eq_true] at hcs
      have hs : Markup.isSpace c = false := by simpa using hcs.1.2
      have hc : c ≠ '\r' := by
        rintro rfl
        cases hs
      have hr := ih hcs.2
      rw [Markup.blankSpaces] at hr ⊢
      rw [Markup.unifyEnds_cons hc, map_cons, hr, hs]
      rfl
  rw [reread, ha s.toList h, ofList_toList]

lemma isKept_intText (n) : isKept (intText n) := by
  have hw : wholeChars.all isKeptChar := by decide +kernel
  exact all_eq_true.mpr fun c hc => all_eq_true.mp hw c (mem_wholeChars_of_mem_intText hc)

lemma isKept_of_chars {l : Chars} (hs : s = ofList l) (hl : l.all isKeptChar) : isKept s := by
  rw [isKept, toList_eq hs]
  exact hl

lemma isKept_append {a b} (ha : isKept a) (hb : isKept b) : isKept (a ++ b) := by
  rw [isKept, toList_append, all_append, Bool.and_eq_true]
  exact ⟨ha, hb⟩

lemma isKept_get {attributes} (h : ∀ a ∈ attributes, isKept a.value) (key : String) : isKept (get attributes key) := by
  rw [Attribute.get, Attribute.get?]
  cases hf : attributes.find? (·.name == key) with
  | none => exact isKept_of_chars rfl rfl
  | some a => exact h a (mem_of_find?_eq_some hf)

/-! ## Registries on a desk -/

open Registry

lemma Registry.part_mem (r : Registry) : r.part ∈ registryParts := by cases r <;> simp [part, registryParts]

lemma Registry.part_injective {r'} (h : r.part = r'.part) : r = r' := by
  cases r <;> cases r' <;> first | rfl | exact absurd h (by decide +kernel)

def Registry.ListedIn (r : Registry) (files : FileTree) (count : CommentPart → Nat) : Prop :=
  ∃ content roots after, files.open? (placeOf r.part) (placeOf r.part).toString = .ok content ∧
    readTracked (readableText content) 0 = .ok (roots, after) ∧ r.Lists roots count

lemma Registry.Lists.isPlain (h : r.Lists p.roots count) : ∀ a ∈ declared p, a.isPlain := by
  obtain ⟨n, hn, -, hp⟩ := h.root
  intro a ha
  have hr : p.root? = some n := hn
  rw [declared, hr] at ha
  obtain ⟨hm, hs⟩ := mem_filter.mp ha
  exact hp a hm hs

lemma Registry.Lists.readTracked {text next after after' roots roots'} (h : r.Lists roots count) (hr : readTracked text 0 = .ok (roots, after))
    (hr' : readTracked text next = .ok (roots', after')) : r.Lists roots' count := by
  simp only [Dom.readTracked] at hr hr'
  split at hr
  · rename_i no hn
    rw [hn] at hr'
    have hro := congrArg Prod.fst (Except.ok.inj hr)
    have hro' := congrArg Prod.fst (Except.ok.inj hr')
    dsimp only at hro hro'
    rw [← hro] at h
    rw [← hro']
    exact h.numberAll
  · cases hr

namespace Snapshot

variable {v : Snapshot} {d d₁ d' : Desk} {r : Registry} {opened : List Registry} {count : Registry → CommentPart → Nat}

/-- How many entries the registries have: on the desk where they are open, else in their files. -/
def Lists (v : Snapshot) (count : Registry → CommentPart → Nat) : Prop :=
  ∀ r : Registry, (∀ p, v.part? r.part = some p → r.Lists p.roots (count r)) ∧
    (v.part? r.part = none → r.ListedIn v.files (count r))

def onDesk (v : Snapshot) (d : Desk) : Snapshot := { v with part? := d.part? }

/-- **The registries on a desk have so many entries**, and some of them are open. -/
structure Counted (v : Snapshot) (opened : List Registry) (count : Registry → CommentPart → Nat) (d : Desk) : Prop where
  fits : (v.onDesk d).Fits d
  lists : (v.onDesk d).Lists count
  opened : ∀ r ∈ opened, (d.part? r.part).isSome

lemma Fits.counted {w : Snapshot} (hd : w.Fits d) (hw : w.Lists count)
    (ho : ∀ r ∈ opened, (w.part? r.part).isSome) (hs : w.onDesk d = v.onDesk d) : v.Counted opened count d := by
  have hp : ∀ r : Registry, w.part? r.part = d.part? r.part := fun r => (hd.registries _ r.part_mem).symm
  refine ⟨hs ▸ ?_, hs ▸ fun r => ?_, fun r hr => ?_⟩
  · exact { hd with registries := fun _ _ => rfl }
  · have hr := hw r
    rw [hp] at hr
    exact hr
  · rw [← hp]
    exact ho r hr

lemma Counted.tail (hd : v.Counted (r :: opened) count d) : v.Counted opened count d :=
  ⟨hd.fits, hd.lists, fun r' hr' => hd.opened r' (.tail _ hr')⟩

lemma Lists.put {count' : Registry → CommentPart → Nat} (hv : v.Lists count)
    (hp : r.Lists p.roots (count' r)) (hre : ∀ r', r' ≠ r → count' r' = count r') : (v.put r.part p).Lists count' := by
  intro r'
  by_cases hr : r' = r
  · subst hr
    rw [part?_put, if_pos rfl]
    exact ⟨fun q hq => Option.some.inj hq ▸ hp, fun hn => by cases hn⟩
  · rw [part?_put, if_neg fun heq => hr (part_injective heq), hre r' hr]
    exact hv r'

lemma Counted.part (hd : v.Counted opened count d) (h : Gives (Edit.part r.part) d p d') :
    v.Counted (r :: opened) count d' ∧ d'.part? r.part = some p ∧ r.Lists p.roots (count r) := by
  have hl : r.Lists p.roots (count r) := by
    rcases gives_part h with ⟨ho, -⟩ | ⟨hn, content, _, ho, hre, -, -⟩
    · exact (hd.lists r).1 p ho
    · obtain ⟨content', roots, _, ho', hre', hl⟩ := (hd.lists r).2 hn
      rw [hd.fits.base] at ho
      have hs : v.files.open? (placeOf r.part) (placeOf r.part).toString = .ok content := hd.fits.files _ r.part_mem _ _ ho
      obtain rfl : content' = content := Except.ok.inj (ho'.symm.trans hs)
      exact hl.readTracked hre' hre
  have hf := hd.fits.openPart (mem_knownParts r.part_mem) h
  refine ⟨hf.counted (hd.lists.put hl fun _ _ => rfl) (fun r' hr' => ?_) rfl, ?_, hl⟩
  · rw [part?_put]
    split
    · rfl
    · rename_i hne
      rcases mem_cons.mp hr' with rfl | hr'
      · exact absurd rfl hne
      · exact hd.opened r' hr'
  · rw [Desk.part?_of_gives h, if_pos rfl]

/-- The entries after a registry got more of them. -/
def withMore (count : Registry → CommentPart → Nat) (r : Registry) (more : CommentPart → Nat) : Registry → CommentPart → Nat :=
  fun r' p => count r' p + if r' = r then more p else 0

lemma withMore_zero {more} (h : ∀ p, more p = 0) : withMore count r more = count := by
  funext r' p
  simp [withMore, h]

lemma withMore_withMore (f g) : withMore (withMore count r f) r g = withMore count r fun p => f p + g p := by
  funext r' p
  by_cases hr : r' = r <;> simp [withMore, hr, Nat.add_assoc]

def withEntry (count : Registry → CommentPart → Nat) (r : Registry) (value : String) : Registry → CommentPart → Nat :=
  withMore count r fun p => if r.value p = value then 1 else 0

lemma eq_of_sign {t part} (hf : d.find? m = some (.element m t []))
    (hna : t.name = r.element) (h : Gives (Edit.sign part [m]) d u d') : d' = d := by
  rw [Edit.sign, gives_get_bind] at h
  split at h
  · rename_i sig hs
    obtain ⟨_, ha, -⟩ := gives_bind_pure.mp h
    obtain ⟨n, hn, ha⟩ := gives_node_bind.mp ha
    obtain rfl := Option.some.inj (hf.symm.trans hn)
    obtain ⟨_, d2, ho, hi⟩ := gives_bind.mp ha
    have hp : signByName sig part r.element m = pure () := by cases r <;> rfl
    rw [name, hna, hp] at ho
    obtain ⟨-, rfl⟩ := gives_pure.mp ho
    refine preserves_each (I := fun d => d = d2) (fun name _ d u d' hr hd => ?_) hi rfl
    subst hd
    obtain ⟨n, hn, hr⟩ := gives_node_bind.mp hr
    obtain rfl := Option.some.inj (hf.symm.trans hn)
    exact (gives_pure.mp hr).2
  · exact (gives_pure.mp h).2

/-- **An entry is added.** -/
lemma Counted.addEntry {xml ms} (hd : v.Counted opened count d) (attributes names) (hat : attributes.map (·.name) = names)
    (hna : names.all fun name => Markup.isName name.toList && (Markup.declaredPrefix? name).isNone)
    (hk : ∀ a ∈ attributes, isKept a.value) (hx : xml = emptyElement r.element attributes)
    (hro : Gives (root r.part) d n d₁) (h : Gives (appendMarkup r.part (some n.mark) xml) d₁ ms d') :
    v.Counted opened (withEntry count r (get attributes r.key)) d' := by
  obtain ⟨p, hp, hn⟩ := gives_root hro
  obtain ⟨hd1, ho, hl⟩ := hd.part hp
  obtain ⟨m, new, d2, n', hm, hf, hfi, hel, hsi, -⟩ := gives_appendMarkup h
  obtain rfl := Option.some.inj hm
  obtain ⟨ht, hs⟩ := hd1.fits.tidy.fragment hf
  obtain ⟨p', d3, roots, next, hp', hr, hnew, rfl⟩ := gives_fragment hf
  rcases gives_part hp' with ⟨ho', rfl⟩ | ⟨hno, -⟩
  · obtain rfl := Option.some.inj (ho.symm.trans ho')
    have hnam : Markup.isName r.element.toList := by cases r <;> decide +kernel
    have hpl : ∀ a ∈ attributes, a.isPlain ∧ Markup.declaredPrefix? a.name = none := fun a ha => by
      have := Bool.and_eq_true_iff.mp (all_eq_true.mp hna a.name (hat ▸ mem_map_of_mem ha))
      exact ⟨isPlain_of_isKept this.1 (hk a ha), Option.isNone_iff_eq_none.mp this.2⟩
    obtain ⟨t, he, hta, hg⟩ := exists_entry hl.isPlain hnam hpl hx hr
    rw [← hnew] at he
    have hme : n.mark ∈ marksOf p.roots := mem_marksOf_of_mem (mem_of_find?_eq_some hn)
    have hnex := hd1.fits.later (Desk.marks_of_read hr).2.1
    have hed := hnex.editPart ho hme (ht.append hs hfi hel)
    have hse : findIn? (d3.next + 1) new = some (.element (d3.next + 1) t []) := by
      rw [he, findIn?_singleton]
      exact find?_self (.element (d3.next + 1) t [])
    have hma : new.map (·.mark) = [d3.next + 1] := by
      rw [he]
      rfl
    rw [hma] at hsi
    rw [eq_of_sign (ht.find?_append hs hfi hel hse) hta hsi]
    refine hed.counted (hd1.lists.put ?_ fun r' hne => ?_) (fun r' hr' => ?_) rfl
    · have hc : (fun q => count r q + r.entries new (r.value q)) = withEntry count r (get attributes r.key) r := by
        funext q
        rw [withEntry, withMore, he, entries_eq, tagsOf_element, tagsOf_nil, countP_singleton, hta, hg,
          reread_of_isKept (isKept_get hk _)]
        simp [eq_comm (a := r.value q)]
      rw [← hc]
      exact hl.append (hd1.fits.tidy.nodup_part ho) hn rfl
    · funext q
      simp [withEntry, withMore, hne]
    · rw [part?_put]
      split
      · rfl
      · exact hd1.opened r' (.tail _ hr')
  · rw [ho] at hno
    cases hno

/-! ## Registering parts -/

variable {number : Int} {name type value : String}

lemma leads_addRelationship {target} (hty : isKept type) (ht : isKept target) :
    Leads (v.Counted opened count) (addRelationship number type target) fun _ =>
      v.Counted opened (withEntry count .relationships target) := by
  intro d u d' h hd
  obtain ⟨_, d₁, hp, hr⟩ := gives_bind.mp h
  obtain ⟨n, d2, hro, hr⟩ := gives_bind.mp hr
  obtain ⟨_, ha, -⟩ := gives_bind_pure.mp hr
  obtain ⟨n', hro', rfl⟩ := gives_bind_pure.mp hp
  obtain ⟨q, hpa, hq⟩ := gives_root hro'
  obtain ⟨hd1, -, hl⟩ := hd.part (r := .relationships) hpa
  -- the root has no prefix
  have hn : Markup.prefixOf? n'.name = none := by
    obtain ⟨k, hk, hna, -⟩ := hl.root
    have hs : some k = some n' := hk.symm.trans hq
    rw [← Option.some.inj hs]
    exact hna
  simp only [hn] at ha
  refine hd1.tail.addEntry (r := .relationships) [⟨"Id", none, "rId" ++ intText number⟩, ⟨"Type", none, type⟩,
    ⟨"Target", none, target⟩] ["Id", "Type", "Target"] rfl (by decide +kernel) ?_ (String.toList_injective ?_) hro ha
  · simp [hty, ht, isKept_append (isKept_of_chars rfl (by decide) : isKept "rId") (isKept_intText number)]
  · simp [Registry.element, emptyElement]

lemma leads_addType {type} (hn : isKept name) (ht : isKept type) :
    Leads (v.Counted opened count) (addType name type) fun _ => v.Counted opened (withEntry count .types name) := by
  intro d u d' h hd
  obtain ⟨n, d₁, hr, hre⟩ := gives_bind.mp h
  obtain ⟨_, ha, -⟩ := gives_bind_pure.mp hre
  refine hd.addEntry (r := .types) [⟨"PartName", none, name⟩, ⟨"ContentType", none, type⟩]
    ["PartName", "ContentType"] rfl (by decide +kernel) (by simp [hn, ht]) (String.toList_injective ?_) hr ha
  simp [Registry.element, emptyElement]

lemma leads_hasEntry : Leads (v.Counted opened count) (hasEntry r.part r.element r.key value) fun b d =>
    v.Counted (r :: opened) count d ∧ ∀ p, r.value p = value → (b ↔ count r p ≠ 0) := by
  intro d b d' h hd
  obtain ⟨ns, hn, rfl⟩ := gives_bind_pure.mp h
  obtain ⟨q, hpa, rfl⟩ := gives_bind_pure.mp hn
  obtain ⟨hd2, -, hl⟩ := hd.part hpa
  refine ⟨hd2, fun p hp => ?_⟩
  rw [← hl.entries p, hp, entries, any_eq_true, ← Nat.pos_iff_ne_zero, countP_pos_iff]

lemma isKept_comment (p : CommentPart) :
    isKept p.file ∧ isKept p.relationship ∧ isKept ("/" ++ p.name) ∧ isKept p.contentType := by
  have hn : isKept p.file → isKept ("/" ++ p.name) := fun h =>
    isKept_append (isKept_of_chars rfl (by decide)) (isKept_append (isKept_of_chars rfl (by decide)) h)
  have hf : isKept p.file := by cases p <;> exact isKept_of_chars rfl (by decide)
  refine ⟨hf, ?_, hn hf, ?_⟩ <;> cases p <;> exact isKept_of_chars rfl (by decide)

lemma value_injective {p q} (h : r.value p = r.value q) : p = q := by
  cases r <;> cases p <;> cases q <;> first | rfl | exact absurd h (by decide +kernel)

lemma preserves_of_people {e : Edit Unit} (hv : value = "people.xml" ∨ value = "/word/people.xml")
    (h : Leads (v.Counted opened count) e fun _ => v.Counted opened (withEntry count r value)) :
    Preserves e (v.Counted opened count) := by
  have hs : withEntry count r value = count := withMore_zero fun p => if_neg (by
    rcases hv with rfl | rfl <;> cases r <;> cases p <;> decide +kernel)
  rwa [hs] at h

lemma withMore_withEntry (p ps) :
    withMore (withEntry count r (r.value p)) r (ps.count ·) = withMore count r ((p :: ps).count ·) := by
  rw [withEntry, withMore_withMore]
  congr
  funext q
  have hv : r.value q = r.value p ↔ p = q := ⟨fun h => (value_injective h).symm, fun h => by rw [h]⟩
  simp [count_cons, hv, Nat.add_comm]

lemma leads_addRelationships : Leads (v.Counted opened count)
    (addRelationships number ps) fun _ => v.Counted opened (withMore count .relationships (ps.count ·)) := by
  induction ps generalizing number count with
  | nil =>
    rw [withMore_zero fun _ => count_nil]
    exact preserves_pure
  | cons p ps ih =>
    obtain ⟨hf, ht, -, -⟩ := isKept_comment p
    rw [← withMore_withEntry p ps]
    exact (leads_addRelationship ht hf).bind fun _ => ih

lemma leads_addTypes : Leads (v.Counted opened count)
    (each (fun p => addType ("/" ++ p.name) p.contentType) ps) fun _ => v.Counted opened (withMore count .types (ps.count ·)) := by
  induction ps generalizing count with
  | nil =>
    rw [withMore_zero fun _ => count_nil]
    exact preserves_pure
  | cons p ps ih =>
    obtain ⟨-, -, hn, ht⟩ := isKept_comment p
    rw [← withMore_withEntry p ps]
    exact (leads_addType hn ht).bind fun _ => ih

lemma preserves_nextRelationship : Preserves (nextRelationship relationshipPart) (v.Counted opened count) := by
  intro d n d' h hd
  obtain ⟨ns, hn, -⟩ := gives_bind_pure.mp h
  obtain ⟨q, hp, -⟩ := gives_bind_pure.mp hn
  exact (hd.part (r := .relationships) hp).1.tail

/-- The entries after the parts for comments were made known: a registry without an entry about their contents gets one
about each part. -/
def registered (count : Registry → CommentPart → Nat) (r : Registry) (p : CommentPart) : Nat :=
  count r p + if count r .contents = 0 then 1 else 0

def registeredIn (count : Registry → CommentPart → Nat) (r : Registry) : Registry → CommentPart → Nat :=
  withMore count r fun _ => if count r .contents = 0 then 1 else 0

lemma registeredIn_of_ne_zero (h : count r .contents ≠ 0) : registeredIn count r = count := withMore_zero fun _ => if_neg h

lemma registeredIn_of_eq_zero (h : count r .contents = 0) :
    registeredIn count r = withMore count r (CommentPart.all.count ·) := by
  rw [registeredIn, if_pos h]
  congr
  funext p
  cases p <;> rfl

lemma registeredIn_registeredIn : registeredIn (registeredIn count .relationships) .types = registered count := by
  funext r p
  cases r <;> simp [registeredIn, withMore, registered]

/-- **The parts for comments are made known**, in each registry all of them or none. -/
lemma leads_registerComments :
    Leads (v.Counted opened count) registerComments fun _ => v.Counted opened (registered count) := by
  have ht (count : Registry → CommentPart → Nat) : Leads (v.Counted opened count) (do
      let b ← hasEntry typePart "Override" "PartName" ("/" ++ CommentPart.contents.name)
      if (!b) = true then each (fun p => addType ("/" ++ p.name) p.contentType) CommentPart.all else pure ())
      fun _ => v.Counted opened (registeredIn count .types) := by
    refine (leads_hasEntry (r := .types)).bind fun b => leads_and fun hb d u d' h hd => ?_
    cases b with
    | false =>
      rw [registeredIn_of_eq_zero (by simpa using hb .contents rfl)]
      exact leads_addTypes h hd.tail
    | true =>
      rw [registeredIn_of_ne_zero (by simpa using hb .contents rfl)]
      exact preserves_pure h hd.tail
  rw [← registeredIn_registeredIn]
  refine (leads_hasEntry (r := .relationships)).bind fun b => leads_and fun hb d u d' h hd => ?_
  cases b with
  | false =>
    rw [registeredIn_of_eq_zero (r := .relationships) (by simpa using hb .contents rfl)]
    exact preserves_nextRelationship.bind (fun _ => leads_addRelationships.bind fun _ => ht _) h hd.tail
  | true =>
    rw [registeredIn_of_ne_zero (r := .relationships) (by simpa using hb .contents rfl)]
    exact ht count h hd.tail

lemma leads_registerPeople (hv : v.Lists count) : Leads v.Fits registerPeople fun _ =>
    (v.adding ["word/people.xml"]).Counted [.relationships, .types] count := by
  have hc : Leads v.Fits (ensureFile "word/people.xml" blankPeople) fun _ => (v.adding ["word/people.xml"]).Counted [] count :=
    fun d _ d' h hd => (leads_ensureFile isOther_people h hd).counted hv (fun r hr => by cases hr) rfl
  have hre : Leads ((v.adding ["word/people.xml"]).Counted [.types] count) (do
      let b ← hasEntry relationshipPart "Relationship" "Target" "people.xml"
      if (!b) = true then do
          let n ← nextRelationship relationshipPart
          addRelationship n "http://schemas.microsoft.com/office/2011/relationships/people" "people.xml"
        else pure ()) fun _ => (v.adding ["word/people.xml"]).Counted [.relationships, .types] count := by
    refine (leads_hasEntry (r := .relationships)).bind fun b => leads_and fun _ => ?_
    split
    · refine preserves_nextRelationship.bind fun _ => preserves_of_people (.inl rfl) (leads_addRelationship ?_ ?_)
      all_goals exact isKept_of_chars rfl (by decide)
    · exact preserves_pure
  refine hc.bind fun _ => (leads_hasEntry (r := .types)).bind fun b => leads_and fun _ => ?_
  cases b with
  | false =>
    refine (preserves_of_people (.inr rfl) (leads_addType ?_ ?_)).bind fun _ => hre
    all_goals exact isKept_of_chars rfl (by decide)
  | true => exact hre

/-- **Preparing a document** changes no entry about a part for comments. -/
lemma leads_prepare {tracking} (hv : v.Lists count) : Leads v.Fits (prepare tracking) fun _ =>
    (v.adding ["word/people.xml"]).Counted [.relationships, .types] count := by
  have hs : Preserves Edit.signature v.Fits := leads_get_bind fun d _ => by
    split
    · exact preserves_pure
    · exact fun _ _ _ h => absurd h gives_throw
  have hm : Preserves (Edit.part mainPart) v.Fits := fun _ _ _ h hd => (hd.part isOther_main h).1
  refine hs.bind fun sig => preserves_loadComments.bind fun _ => hm.bind fun _ =>
    (leads_registerPeople hv).bind fun _ d u d' h hd => Fits.counted ?_ hd.lists hd.opened rfl
  refine ((leads_find isOther_settings).bind fun r => leads_and fun hr => ?_ : Preserves _ _) h hd.fits
  have hl : Preserves (do noteSession r.mark sig.rsid; addAuthor sig.author) (onDesk _ d).Fits :=
    (preserves_noteSession hr).bind fun _ => preserves_addAuthor
  cases tracking with
  | false => exact hl
  | true => exact (preserves_trackRevisions hr).bind fun _ => hl

lemma registered_eq_one_iff (r) : (∀ p, registered count r p = 1) ↔ (∀ p, count r p = 1) ∨ ∀ p, count r p = 0 := by
  by_cases hz : count r .contents = 0
  · have hn : ¬ ∀ p, count r p = 1 := fun h => by
      have := h .contents
      omega
    simp [registered, hz, hn]
  · have hn : ¬ ∀ p, count r p = 0 := fun h => hz (h .contents)
    simp [registered, hz, hn]

lemma Counted.saveAll (hd : v.Counted [.relationships, .types] count d) (ht : CommentPart.contents.name ∈ v.there)
    (h : Gives Edit.saveAll d u d') :
    (∀ name ∈ v.there, d'.files.pathExists (placeOf name)) ∧ ∀ r : Registry, ∃ q, d'.part? r.part = some q ∧
        d'.files.open? (placeOf r.part) (placeOf r.part).toString = .ok (.text q.text) ∧
        ∀ p, r.entries q.roots (r.value p) = registered count r p := by
  have he : d.files.pathExists (d.base.joinText CommentPart.contents.name) := by
    rw [hd.fits.base]
    exact (hd.fits.there _ ht).2
  rw [Edit.saveAll, gives_get_bind] at h
  rw [if_pos he] at h
  obtain ⟨_, d₁, hr, hre⟩ := gives_bind.mp h
  have hd1 := leads_registerComments hr hd
  obtain ⟨⟨files, rfl⟩, hp, -, hs⟩ := saved_of_each hd1.fits.known hd1.fits.distinct (gives_get_bind.mp hre)
  refine ⟨fun name hn => ?_, fun r => ?_⟩
  · obtain ⟨hk, hf⟩ := hd1.fits.there name hn
    exact hs name hk hf
  · obtain ⟨q, hq⟩ := Option.isSome_iff_exists.mp (hd1.opened r (by cases r <;> simp))
    exact ⟨q, hq, hp (r.part, q) (Desk.mem_parts_of_part? hq) _, ((hd1.lists r).1 q hq).entries⟩

end Snapshot

open Snapshot

lemma Snapshot.fits_empty (sig : Signature) (files : FileTree) (draws : Nat) :
    Fits ⟨sig, fun _ => none, files, []⟩ { files, draws, base := Document.copyPath, signature? := some sig } where
  tidy := by constructor <;> simp [Desk.forest, marksOf_nil]
  base := rfl
  signature := rfl
  known _ hq := by cases hq
  distinct := nodup_nil
  registries _ _ := rfl
  files _ _ _ _ ho := ho
  there _ hn := by cases hn

def commentOn (tracking : Bool) (calls : List CommentCall) : Edit Desk := do
  prepare tracking
  let d ← get
  each CommentCall.make calls
  saveAll
  pure d

def AreBesideRegistries (d : Desk) (calls : List CommentCall) : Prop :=
  ∀ c ∈ calls, ∀ m ∈ c.places, ∀ (r : Registry) p, d.part? r.part = some p → m ∉ marksOf p.roots

/-- **When a document with new comments is saved**, all parts for comments are there. A registry without an entry about the
contents of comments has got one about each part, any other one has the entries that it had; so all parts are registered
once exactly if each registry knew all of them or none. -/
theorem registered_of_comments {sig : Signature} {files : FileTree} {draws : Nat} {tracking : Bool}
    {calls : List CommentCall} {count : Registry → CommentPart → Nat}
    (hbefore : ∀ r : Registry, r.ListedIn files (count r)) (hcalls : calls ≠ []) :
    Ensures (commentOn tracking calls) { files, draws, base := Document.copyPath, signature? := some sig } fun d₁ d₂ =>
      AreBesideRegistries d₁ calls → (∀ p : CommentPart, d₂.files.pathExists (placeOf p.name) = true) ∧
        ∃ after : Registry → Part,
          (∀ r : Registry, d₂.files.open? (placeOf r.part) (placeOf r.part).toString = .ok (.text (after r).text) ∧
            ∀ p, r.entries (after r).roots (r.value p) = count r p + if count r .contents = 0 then 1 else 0) ∧
          ((∀ (r : Registry) p, r.entries (after r).roots (r.value p) = 1) ↔
            ∀ r, (∀ p, count r p = 1) ∨ ∀ p, count r p = 0) := by
  intro d₁ d₂ hrun hplaces
  obtain ⟨_, d, hprepare, hrun⟩ := gives_bind.mp hrun
  obtain ⟨_, d₃, hcomments, hrun⟩ := gives_bind.mp (gives_get_bind.mp hrun)
  obtain ⟨_, d₄, hsave, hrun⟩ := gives_bind.mp hrun
  obtain ⟨rfl, rfl⟩ := gives_pure.mp hrun
  have hlists : Lists ⟨sig, fun _ => none, files, []⟩ count :=
    fun r => ⟨fun p hp => (by cases hp), fun _ => hbefore r⟩
  obtain ⟨hd₁, hlists₁, hopened⟩ := leads_prepare hlists hprepare (fits_empty sig files draws)
  have hd₃ := leads_makeAll hcalls (fun c hc m hm name hname p hp => ?_) hcomments hd₁
  · have hcounted := hd₃.counted (v := adding _ _) hlists₁ hopened rfl
    obtain ⟨hthere, hafter⟩ := hcounted.saveAll (List.mem_append_left _ (List.mem_map_of_mem (by decide))) hsave
    choose after _ hfiles hentries using hafter
    refine ⟨fun p => hthere _ (List.mem_append_left _ (List.mem_map_of_mem (by cases p <;> decide))), after,
      fun r => ⟨hfiles r, hentries r⟩, ?_⟩
    simp only [hentries]
    exact forall_congr' registered_eq_one_iff
  · obtain ⟨r, rfl⟩ : ∃ r : Registry, r.part = name := by
      rcases List.mem_cons.mp hname with rfl | hname
      · exact ⟨.relationships, rfl⟩
      · exact ⟨.types, (List.mem_singleton.mp hname).symm⟩
    exact hplaces c hc m hm r p hp

def letterTexts : Pairs :=
  [("word/document.xml", "<w:document xmlns:w=\"u\"><w:p/></w:document>"),
   ("word/settings.xml", "<w:settings xmlns:w=\"u\"/>"),
   ("word/comments.xml", "<w:comments xmlns:w=\"u\" xmlns:w14=\"v\"/>"),
   ("word/_rels/document.xml.rels", "<Relationships><Relationship Target=\"comments.xml\"/></Relationships>"),
   ("[Content_Types].xml", "<Types><Override PartName=\"/word/comments.xml\"/></Types>")]

def letter : FileTree :=
  ⟨(["", "word", "word/_rels"].map fun name => (placeOf name, .directory)) ++
    letterTexts.map fun (name, text) => (placeOf name, .file (.text text) false)⟩

lemma readableText_of_ascii (h : (s.toList.all (·.toNat < 128))) : readableText (.text s) = s := by
  have hs : s.toList.map (fun x => if x.toNat < 128 then x else '\x01') = s.toList := by
    conv_rhs => rw [← map_id s.toList]
    exact map_congr_left fun c hc => if_pos (of_decide_eq_true (all_eq_true.mp h c hc))
  rw [readableText]
  split
  · exact (congrArg ofList hs).trans ofList_toList
  · rfl

lemma lists_single {root entry} (hp : Markup.prefixOf? root.name = none)
    (hr : root.attributes = []) (hn : root.name ≠ r.element) (he : entry.name = r.element)
    (hv : get entry.attributes r.key = r.value .contents) (m n) :
    r.Lists [.element m root [.element n entry []]] fun p => if p = .contents then 1 else 0 := by
  refine ⟨⟨_, rfl, hp, fun a ha => ?_⟩, fun p => ?_⟩
  · rw [show (element m root [.element n entry []]).attributes = root.attributes from rfl, hr] at ha
    cases ha
  · have hi : r.value .contents = r.value p ↔ p = .contents :=
      ⟨fun h => (value_injective h).symm, fun h => by rw [h]⟩
    rw [entries_eq, tagsOf_element, tagsOf_element, tagsOf_nil]
    simp [hn, he, hv, hi]

lemma listedIn_letter (r : Registry) : r.ListedIn letter fun p => if p = .contents then 1 else 0 := by
  cases r with
  | relationships =>
    refine ⟨.text "<Relationships><Relationship Target=\"comments.xml\"/></Relationships>",
      [.element 0 ⟨"Relationships", [], some 1⟩
        [.element 1 ⟨"Relationship", [⟨"Target", none, "comments.xml"⟩], some 1⟩ []]], 2,
      rfl, ?_, lists_single (by decide) rfl (by decide) rfl rfl 0 1⟩
    rw [readableText_of_ascii (by rw [toList_eq rfl]; decide), readTracked, toList_eq rfl]
    rfl
  | types =>
    refine ⟨.text "<Types><Override PartName=\"/word/comments.xml\"/></Types>", [.element 0 ⟨"Types", [], some 1⟩
        [.element 1 ⟨"Override", [⟨"PartName", none, "/word/comments.xml"⟩], some 1⟩ []]], 2,
      rfl, ?_, lists_single (by decide) rfl (by decide) rfl rfl 0 1⟩
    rw [readableText_of_ascii (by rw [toList_eq rfl]; decide), readTracked, toList_eq rfl]
    rfl

/-- **The letter gets parts that no registry knows** when a comment is added to it. -/
theorem unregistered_in_letter : Ensures (commentOn true [.add (some 2) (some 2) "Why?"])
      { files := letter, base := Document.copyPath, signature? := some ⟨"00AB12CD", "Ada", "A", "2024-01-01T00:00:00Z"⟩ }
      fun d₁ d₂ => AreBesideRegistries d₁ [.add (some 2) (some 2) "Why?"] →
        d₂.files.pathExists (placeOf CommentPart.answers.name) = true ∧
        ∀ r : Registry, ∃ q : Part, d₂.files.open? (placeOf r.part) (placeOf r.part).toString = .ok (.text q.text) ∧
          r.entries q.roots (r.value .contents) = 1 ∧ r.entries q.roots (r.value .answers) = 0 := by
  intro d₁ d₂ hrun hplaces
  obtain ⟨hthere, after, hafter, -⟩ := registered_of_comments listedIn_letter (List.cons_ne_nil _ _) d₁ d₂ hrun hplaces
  exact ⟨hthere .answers, fun r => ⟨after r, (hafter r).1, (hafter r).2 .contents, (hafter r).2 .answers⟩⟩

end Sluice.Office
