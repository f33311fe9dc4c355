import Sluice.Proofs.Office.Tracking

/-!
# Editors that track changes

What the check reads of a document is kept by every sequence of edits that note a deletion or take a change back.
-/

namespace Sluice.Office

open List Dom Edit Stays
open Attribute (copied get? has set)

variable {name : String}

/-! ## The document on a desk -/

/-- A document at a desk: its part, who edits it, and its root element. -/
structure Place where
  part : String
  sig : Signature
  root : Nat

structure Shows (D : Place) (cs : List Node) (d : Desk) : Prop where
  tidy : d.Tidy
  signature : d.signature? = some D.sig
  root : ∃ p pre t post, d.part? D.part = some p ∧ p.roots = pre ++ [.element D.root t cs] ++ post ∧
    ∀ n ∈ pre, n.isElement = false

variable {g : List Attribute → List Attribute}

namespace Shows

variable {D : Place} {m k : Nat} {cs xs ns : List Node} {d d' : Desk} {f : Node → List Node} {t : Tag} {n : Node}
  (h : Shows D cs d)

include h

lemma of_eq (ht : d'.Tidy) (hp : d'.parts = d.parts) (hs : d'.signature? = d.signature?) : Shows D cs d' :=
  ⟨ht, hs ▸ h.signature, by simpa only [Desk.part?, hp] using h.root⟩

lemma nodup : (D.root :: marksOf cs).Nodup := by
  obtain ⟨p, _, t, _, hp, hr, -⟩ := h.root
  have hn := h.tidy.nodup_part hp
  rw [hr, marksOf_append, marksOf_append, marksOf_singleton] at hn
  exact (nodup_append.mp (nodup_append.mp hn).1).2.1

lemma nodup_inside : (marksOf cs).Nodup := (nodup_cons.mp h.nodup).2

lemma find (hk : k ∈ marksOf cs) : d.find? k = findIn? k cs := by
  obtain ⟨p, _, t, _, hp, hr, -⟩ := h.root
  have hm : k ∈ marksOf [Node.element D.root t cs] := by
    rw [marksOf_singleton]
    exact .tail _ hk
  have hn := hr ▸ h.tidy.nodup_part hp
  have hro : k ∈ marksOf p.roots := by
    rw [hr, marksOf_append, marksOf_append]
    exact mem_append_left _ (mem_append_right _ hm)
  have hne : D.root ≠ k := fun heq => (nodup_cons.mp h.nodup).1 (heq ▸ hk)
  rw [h.tidy.find?_eq hp hro, hr, findIn?_middle hn hm, findIn?_singleton, find?_element_of_ne hne]

lemma editRoot (hk : k ∈ D.root :: marksOf cs) (ht : (d.edit k f).Tidy)
    {t' : Tag → Tag} {cs'} (hf : ∀ t, edit k f [.element D.root t cs] = [.element D.root (t' t) cs']) :
    Shows D cs' (d.edit k f) := by
  obtain ⟨p, pre, t, po, hp, hr, hpr⟩ := h.root
  refine ⟨ht, h.signature, { p with roots := edit k f p.roots }, pre, t' t, po, ?_, ?_, hpr⟩
  · rw [Desk.part?_edit, hp, Option.map_some]
  · have hm : k ∈ marksOf [Node.element D.root t cs] := by rwa [marksOf_singleton]
    obtain ⟨hpr', hpo⟩ := not_mem_of_mem_middle (hr ▸ h.tidy.nodup_part hp) hm
    rw [hr, edit_middle hpr' hpo, hf]

lemma edited (hk : k ∈ marksOf cs) (ht : (d.edit k f).Tidy) : Shows D (edit k f cs) (d.edit k f) := by
  have hne : D.root ≠ k := fun heq => (nodup_cons.mp h.nodup).1 (heq ▸ hk)
  exact h.editRoot (.tail _ hk) ht fun t => edit_element_of_ne hne

lemma root_eq {p} (hp : d.part? D.part = some p) : ∃ t, p.root? = some (.element D.root t cs) := by
  obtain ⟨q, pre, t, _, hq, hr, hpr⟩ := h.root
  rw [hp] at hq
  cases hq
  have hno : pre.find? (·.isElement) = none := List.find?_eq_none.mpr fun n hn => by simp [hpr n hn]
  refine ⟨t, ?_⟩
  rw [Part.root?, hr, List.find?_append, List.find?_append, hno]
  rfl

lemma part_eq {p} (hr : Gives (Edit.part D.part) d p d') : d' = d := by
  obtain ⟨q, _, _, _, hq, -⟩ := h.root
  rcases gives_part hr with ⟨-, hd⟩ | ⟨hn, -⟩
  · exact hd
  · rw [hq] at hn
    cases hn

lemma changeRoot : Shows D cs (d.edit D.root fun n => [n.changeAttributes g]) :=
  have he (t : Tag) : edit D.root (fun n => [n.changeAttributes g]) [.element D.root t cs] =
      [.element D.root ((fun t => { t with attributes := g t.attributes } : Tag → Tag) t) cs] := edit_singleton_of_eq rfl
  h.editRoot (.head _) h.tidy.changeAttributes he

lemma fresh : Shows D cs { d with next := d.next + 1 } ∧ ({ d with next := d.next + 1 } : Desk).Spare [d.next] := by
  have hb := h.tidy.below
  refine ⟨h.of_eq ⟨h.tidy.nodup, fun m hm => Nat.lt_succ_of_lt (hb m hm)⟩ rfl rfl, ?_, ?_, ?_⟩
  · simp
  · simp
  · simp only [mem_singleton, forall_eq]
    exact fun hm => Nat.lt_irrefl _ (hb _ hm)

lemma supplanted {w} (tag) (hk : k ∈ marksOf cs) (hs : d.Spare [w])
    (hn : d.find? k = some n) : Shows D (edit k (fun x => [.element w tag x.children]) cs)
      ((d.edit k fun x => [.element w tag x.children]).keepLoose (n.changeChildren fun _ => [])) := by
  let d1 := d.edit k fun x => [.element w tag x.children]
  have hf : d1.forest = edit k (fun x => [.element w tag x.children]) d.forest := h.tidy.forest_edit
  have hke : (d1.keepLoose (n.changeChildren fun _ => [])).forest = d1.forest ++ [n.changeChildren fun _ => []] :=
    (List.append_assoc ..).symm
  have hma : n.marks = marksOf [n.changeChildren fun _ => []] ++ marksOf n.children := by
    cases n <;> simp [Node.changeChildren, Node.children, marksOf_singleton, marks_element, marksOf_nil]
  have hp : (marksOf (d1.keepLoose (n.changeChildren fun _ => [])).forest).Perm (marksOf d.forest ++ [w]) := by
    refine (perm_append_right_iff (marksOf n.children)).mp ?_
    have he := perm_marksOf_edit (f := fun x => [.element w tag x.children]) h.tidy.nodup hn
    rw [hke, marksOf_append, List.append_assoc, ← hma, hf]
    simpa [marksOf_singleton, marks_element] using he
  have ht := h.tidy.of_perm hp hs.nodup hs.away hs.below (Nat.le_refl _)
  have hsu : (marksOf d1.forest).Sublist (marksOf (d1.keepLoose (n.changeChildren fun _ => [])).forest) := by
    rw [hke, marksOf_append]
    exact sublist_append_left _ _
  exact (h.edited hk ⟨ht.nodup.sublist hsu, fun m hm => ht.below m (hsu.subset hm)⟩).of_eq ht rfl rfl

end Shows

/-! ## Elements of a document -/

variable {k : Nat} {n : Node}

lemma elements_of_find : (ns : List Node) → findIn? k ns = some n → ∀ e ∈ n.elements, e ∈ elementsOf ns
  | [], h, _, _ => by cases h
  | .leaf j kind s :: ns, h, e, he => by
    rw [findIn?_cons, Node.find?] at h
    split at h
    · cases h
      cases he
    · exact mem_append_right _ (elements_of_find ns h e he)
  | .element j t cs :: ns, h, e, he => by
    rw [findIn?_cons, Node.find?] at h
    split at h
    · cases h
      exact mem_append_left _ he
    · rcases Option.or_eq_some_iff.mp h with h | ⟨-, h⟩
      · exact mem_append_left _ (.tail _ (elements_of_find cs h e he))
      · exact mem_append_right _ (elements_of_find ns h e he)

lemma exists_of_mem_elementsOf {e : Node} : (ns : List Node) → e ∈ elementsOf ns → ∃ t cs, e = .element e.mark t cs
  | .leaf j kind s :: ns, he => exists_of_mem_elementsOf ns he
  | .element j t cs :: ns, he => by
    rcases mem_append.mp he with he | he
    · rcases mem_cons.mp he with rfl | he
      · exact ⟨t, cs, rfl⟩
      · exact exists_of_mem_elementsOf cs he
    · exact exists_of_mem_elementsOf ns he

lemma perm_marksOf {xs ys} (h : xs.Perm ys) : (marksOf xs).Perm (marksOf ys) := by
  induction h with
  | nil => exact .refl _
  | cons x _ ih => exact ih.append_left _
  | swap x y ns =>
    simp only [marksOf_cons, ← List.append_assoc]
    exact perm_append_comm.append_right _
  | trans _ _ ih ih' => exact ih.trans ih'

variable {ns : List Node}

lemma find_of_namesIn (hn : (marksOf ns).Nodup) (hk : (k, name) ∈ namesIn ns) :
    ∃ t cs, findIn? k ns = some (.element k t cs) ∧ t.name = name := by
  obtain ⟨e, he, heq⟩ := mem_map.mp hk
  obtain ⟨rfl, rfl⟩ := Prod.mk.inj heq
  obtain ⟨t, cs, heq⟩ := exists_of_mem_elementsOf ns he
  refine ⟨t, cs, (findIn?_of_mem_elementsOf ns hn he).trans (congrArg some heq), ?_⟩
  rw [heq]
  rfl

lemma mem_namesIn_of_mem_named {ks e} (hs : e ∈ elementsOf ks → e ∈ elementsOf ns)
    (he : e ∈ named name ks) : (e.mark, name) ∈ namesIn ns := by
  obtain ⟨he, hn⟩ := mem_filter.mp he
  refine mem_map.mpr ⟨e, hs he, ?_⟩
  cases e with
  | leaf => cases hn
  | element j t cs => exact congrArg (Prod.mk j) (eq_of_beq hn)

lemma namesIn_edit {x f} (hn : (marksOf ns).Nodup)
    (hf : findIn? k ns = some x) (hx : ∀ p ∈ namesIn [x], p.1 ≠ k → p ∈ namesIn (f x)) :
    ∀ p ∈ namesIn ns, p.1 ≠ k → p ∈ namesIn (edit k f ns) := by
  have hR : Congruent fun xs ys => ∀ p ∈ namesIn xs, p.1 ≠ k → p ∈ namesIn ys := by
    refine ⟨fun pre po _ h p hp hne => ?_, fun j t _ h p hp hne => ?_⟩
    · simp only [namesIn_append, mem_append] at hp ⊢
      exact hp.imp_left (·.imp_right fun hp => h p hp hne)
    · rw [namesIn_element] at hp ⊢
      exact mem_cons.mpr ((mem_cons.mp hp).imp_right fun hp => h p hp hne)
  exact edit_rel hR hx ns hn hf

/-! ## Work in a node -/

structure Works (D : Place) (cs : List Node) (m w : Nat) (t : Tag) (ns : List Node) (d : Desk) : Prop where
  found : ∃ n, findIn? m cs = some n
  nodup : (marksOf cs).Nodup
  shows : Shows D (edit m (fun _ => [.element w t ns]) cs) d

namespace Works

variable {D : Place} {m w k : Nat} {cs ns : List Node} {d d' : Desk} {f : Node → List Node} {t : Tag} {n : Node} {u : Unit}

/-- Work in a node has gone on from these children. -/
def Continues (D : Place) (cs : List Node) (m w : Nat) (t : Tag) (ns : List Node) (d : Desk) : Prop :=
  ∃ ns', Works D cs m w t ns' d ∧ Stays true ns ns'

lemma start (h : Shows D cs d) (hf : findIn? m cs = some (.element m t ns)) : Works D cs m m t ns d := by
  have hs : Congruent fun xs ys : List Node => ys = xs := ⟨fun _ _ _ h => by rw [h], fun _ _ _ h => by rw [h]⟩
  refine ⟨⟨_, hf⟩, h.nodup_inside, ?_⟩
  rwa [edit_rel hs (f := fun _ => [.element m t ns]) rfl cs h.nodup_inside hf]

section

variable (h : Works D cs m w t ns d)

include h

lemma placed (hk : k ∈ w :: marksOf ns) :
    k ∈ marksOf (edit m (fun _ => [.element w t ns]) cs) ∧ d.find? k = findIn? k [.element w t ns] ∧
      ∀ f, edit k f (edit m (fun _ => [.element w t ns]) cs) = edit m (fun _ => edit k f [.element w t ns]) cs := by
  obtain ⟨n, hn⟩ := h.found
  have hm : k ∈ marksOf [Node.element w t ns] := by rwa [marksOf_singleton]
  have hp (f : Node → List Node) := edit_placed (f := f) h.nodup hn h.shows.nodup_inside hm
  obtain ⟨hm', hf, -⟩ := hp fun _ => []
  exact ⟨hm', (h.shows.find hm').trans hf, fun f => (hp f).2.2⟩

lemma find : d.find? w = some (.element w t ns) := by
  rw [(h.placed (.head _)).2.1, findIn?_singleton]
  exact find?_self (.element w t ns)

lemma nodup_marks : (w :: marksOf ns).Nodup := by
  have hs := (marks_of_findIn? _ h.find).2
  exact h.shows.tidy.nodup.sublist hs

lemma nodup_inside : (marksOf ns).Nodup := h.nodup_marks.of_cons

lemma inside (hk : k ∈ marksOf ns) : k ∈ marksOf (edit m (fun _ => [.element w t ns]) cs) ∧ d.find? k = findIn? k ns ∧
      ∀ f, edit k f (edit m (fun _ => [.element w t ns]) cs) = edit m (fun _ => [.element w t (edit k f ns)]) cs := by
  obtain ⟨hm, hf, he⟩ := h.placed (.tail _ hk)
  have hne : w ≠ k := fun heq => (nodup_cons.mp h.nodup_marks).1 (heq ▸ hk)
  refine ⟨hm, hf.trans (by rw [findIn?_singleton, find?_element_of_ne hne]), fun f => ?_⟩
  rw [he f, edit_element_of_ne hne]

lemma fresh : Works D cs m w t ns { d with next := d.next + 1 } ∧ ({ d with next := d.next + 1 } : Desk).Spare [d.next] :=
  h.shows.fresh.imp_left fun hs => ⟨h.found, h.nodup, hs⟩

lemma edited (hk : k ∈ marksOf ns) (ht : (d.edit k f).Tidy) : Works D cs m w t (edit k f ns) (d.edit k f) := by
  obtain ⟨hm, -, he⟩ := h.inside hk
  exact ⟨h.found, h.nodup, he f ▸ h.shows.edited hm ht⟩

lemma changed {v t' ns'} (ht : (d.edit w f).Tidy)
    (hf : f (.element w t ns) = [.element v t' ns']) : Works D cs m v t' ns' (d.edit w f) := by
  obtain ⟨hm, -, he⟩ := h.placed (.head _)
  have hs := h.shows.edited hm ht
  rw [he f, edit_element_self, hf] at hs
  exact ⟨h.found, h.nodup, hs⟩

lemma changeAttributes (g : List Attribute → List Attribute) :
    Works D cs m w { t with attributes := g t.attributes } ns (d.edit w fun n => [n.changeAttributes g]) :=
  h.changed h.shows.tidy.changeAttributes rfl

lemma deleteEach {l : List Node} (hl : (l.map (·.mark)).Nodup)
    (hna : ∀ e ∈ l, (e.mark, "w:t") ∈ namesIn ns)
    (hru : Gives (each (fun e => do
      let e ← node e.mark
      supplant e.mark ⟨"w:delText", copied e.attributes, none⟩) l) d u d') :
    Continues D cs m w t ns d' := by
  induction l generalizing ns d with
  | nil =>
    rw [(gives_pure.mp hru).2]
    exact ⟨ns, h, .refl _⟩
  | cons e l ih =>
    obtain ⟨_, d1, hs, hru⟩ := gives_bind.mp hru
    have hno := h.nodup_inside
    obtain ⟨t1, ks, hf, hnam⟩ := find_of_namesIn hno (hna e (.head _))
    obtain ⟨hm, hd, he⟩ := h.inside (mem_marksOf_of_findIn? hf)
    rw [gives_found_bind (hd.trans hf)] at hs
    -- the text is the node that is found, and a deleted text with a new mark takes its place
    rw [supplant, gives_node_bind] at hs
    obtain ⟨n, hn, hs⟩ := hs
    rw [gives_fresh_bind] at hs
    obtain ⟨hsh, hsp⟩ := h.shows.fresh
    have hnew := hsh.supplanted ⟨"w:delText", copied t1.attributes, none⟩ hm hsp hn
    rw [he] at hnew
    have hst : Stays true ns (edit e.mark (fun x => [.element d.next ⟨"w:delText", copied t1.attributes, none⟩
        x.children]) ns) := edit_rel congruent (.deleteText _ _ hnam rfl ks) ns hno hf
    have hr := namesIn_edit (f := fun x => [.element d.next ⟨"w:delText", copied t1.attributes, none⟩ x.children])
      hno hf fun p hp hne => by exact .tail _ ((mem_cons.mp hp).resolve_left fun heq => hne (heq ▸ rfl))
    obtain ⟨hnot, hl⟩ := nodup_cons.mp hl
    rw [gives_modify.mp hs] at hru
    obtain ⟨ns', hw, hst'⟩ := ih ⟨h.found, h.nodup, hnew⟩ hl (fun x hx => hr _ (hna x (.tail _ hx))
      fun heq => hnot (mem_map.mpr ⟨x, hx, heq⟩)) hru
    exact ⟨ns', hw, hst.trans hst'⟩

lemma deleteTexts (hk : k = w ∨ k ∈ marksOf ns) (hr : Gives (Edit.deleteTexts k) d u d') : Continues D cs m w t ns d' := by
  rw [Edit.deleteTexts, gives_node_bind] at hr
  obtain ⟨n, hn, hr⟩ := hr
  have hs : ∀ e ∈ elementsOf n.children, e ∈ elementsOf ns := by
    rcases hk with rfl | hk
    · rw [h.find] at hn
      cases hn
      exact fun e he => he
    · rw [(h.inside hk).2.1] at hn
      cases n with
      | leaf => exact fun e he => nomatch he
      | element j t1 ks => exact fun e he => elements_of_find ns hn e (.tail _ he)
  refine h.deleteEach ?_ (fun e he => ?_) hr
  · have hm : (marksOf n.children).Sublist n.marks := by
      cases n with
      | leaf => exact nil_sublist _
      | element j t1 ks => exact (marks_element j t1 ks) ▸ sublist_cons_self ..
    exact h.shows.tidy.nodup.sublist (((filter_sublist.map _).trans (marks_elementsOf _)).trans
      (hm.trans (marks_of_findIn? _ hn).2))
  · exact mem_namesIn_of_mem_named (hs e) he

lemma changeRun (hk : (k, "w:r") ∈ namesIn ns) : Continues D cs m w t ns (d.edit k fun n => [n.changeAttributes g]) := by
  have hn := h.nodup_inside
  obtain ⟨t1, ks, hf, hna⟩ := find_of_namesIn hn hk
  have hs : Stays true [.element k t1 ks] [.element k { t1 with attributes := g t1.attributes } ks] :=
    .tag_of_ne rfl (by simp [hna]) (by simp [hna])
  exact ⟨_, h.edited (mem_marksOf_of_findIn? hf) h.shows.tidy.changeAttributes, edit_rel congruent hs ns hn hf⟩

lemma eachRun {f} {l : List Node} (hl : ∀ r ∈ l, (r.mark, "w:r") ∈ namesIn ns)
    (hf : ∀ {r ns d d' u}, Works D cs m w t ns d → (r.mark, "w:r") ∈ namesIn ns → Gives (f r) d u d' →
      Continues D cs m w t ns d') (hru : Gives (each f l) d u d') : Continues D cs m w t ns d' := by
  refine preserves_each (I := Continues D cs m w t ns) ?_ hru ⟨ns, h, .refl _⟩
  rintro r hr d1 _ d2 hst ⟨_, h1, hs1⟩
  obtain ⟨ns2, h2, hs2⟩ := hf h1 (hs1.names _ (hl r hr) (by simp)) hst
  exact ⟨ns2, h2, hs1.trans hs2⟩

lemma put {g own} (hk : (k, own) ∈ namesIn ns) (ho : own = "w:pPr" ∨ own = "w:rPr") (hna : name = "w:rPr" ∨ name = "w:del")
    (hg : ∀ ks, ∃ pre post, ks = pre ++ post ∧ g ks = pre ++ [.element d.next ⟨name, [], none⟩ []] ++ post) :
    ∃ ns', Works D cs m w t ns' (({ d with next := d.next + 1 } : Desk).edit k fun n => [n.changeChildren g]) ∧
      Stays true ns ns' ∧ (d.next, name) ∈ namesIn ns' := by
  obtain ⟨hb, hs⟩ := h.fresh
  have hno := h.nodup_inside
  obtain ⟨t1, ks, hf, rfl⟩ := find_of_namesIn hno hk
  have hme := mem_marksOf_of_findIn? hf
  obtain ⟨pre, post, rfl, hne⟩ := hg ks
  have ht : (({ d with next := d.next + 1 } : Desk).edit k fun n => [n.changeChildren g]).Tidy :=
    hb.shows.tidy.edit hs fun n hn => by
      rw [(hb.inside hme).2.1, hf] at hn
      cases hn
      simp only [Node.changeChildren, hne, marksOf_singleton, marks_element, marksOf_append, List.append_assoc]
      have hm : (marksOf pre ++ ([d.next] ++ marksOf post)).Perm (marksOf pre ++ marksOf post ++ [d.next]) := by
        rw [List.append_assoc]
        exact perm_append_comm.append_left _
      exact hm.cons k
  have hst : Stays true [.element k t1 (pre ++ post)] [(Node.element k t1 (pre ++ post)).changeChildren g] := by
    rw [Node.changeChildren, hne]
    exact .put ho hna
  refine ⟨_, hb.edited hme ht, edit_rel congruent hst ns hno hf, ?_⟩
  have hR : Congruent fun _ ys => (d.next, name) ∈ namesIn ys := by
    refine ⟨fun pre post _ hys => ?_, fun j t _ hys => ?_⟩
    · simp only [namesIn_append, mem_append]
      exact .inl (.inr hys)
    · rw [namesIn_element]
      exact .tail _ hys
  refine edit_rel hR ?_ ns hno hf
  simp only [Node.changeChildren, hne, namesIn_element, namesIn_append, mem_cons, mem_append, true_or, or_true]

lemma ensureInside (hk : (k, "w:pPr") ∈ namesIn ns) {e} (hr : Gives (Edit.ensureInside k "w:rPr") d e d') :
    ∃ ns', Works D cs m w t ns' d' ∧ Stays true ns ns' ∧ (e, "w:rPr") ∈ namesIn ns' := by
  obtain ⟨t1, ks, hf, -⟩ := find_of_namesIn h.nodup_inside hk
  rw [Edit.ensureInside, gives_found_bind ((h.inside (mem_marksOf_of_findIn? hf)).2.1.trans hf)] at hr
  split at hr
  · rename_i e' l hl
    obtain ⟨rfl, rfl⟩ := gives_pure.mp hr
    have hm : e' ∈ (Node.element k t1 ks).inside "w:rPr" := hl ▸ .head _
    exact ⟨ns, h, .refl _, mem_namesIn_of_mem_named
      (fun he => elements_of_find ns hf e' (.tail _ he)) hm⟩
  · rw [gives_fresh_bind] at hr
    obtain ⟨_, hc, rfl⟩ := gives_bind_pure.mp hr
    rw [gives_changeChildren.mp hc]
    exact h.put hk (.inl rfl) (.inl rfl) fun ks => ⟨ks, [], by simp, by simp⟩

end

def IsSigned (D : Place) (cs : List Node) (m w : Nat) (name : String) (ns : List Node) (d : Desk) : Prop :=
  ∃ t ns', Works D cs m w t ns' d ∧ isOwn name t ∧ Stays true ns ns' ∧ marksOf ns' = marksOf ns

lemma isOwn_of_signed {t'} (ho : isOwn name t) (hn : t'.name = t.name)
    (h : Signed D.sig t.attributes t'.attributes) : isOwn name t' := by
  simp only [isOwn, Bool.and_eq_true] at ho ⊢
  rcases author_of_signed h with ha | ⟨hno, -⟩
  · rwa [hn, ha]
  · rw [hno] at ho
    cases ho.2

lemma signing (name : String) : Signing D.sig D.part (· ∈ w :: marksOf ns) (IsSigned D cs m w name ns) where
  signature := fun ⟨_, _, h, _⟩ => h.shows.signature
  opened := fun ⟨_, _, h, _⟩ => by
    obtain ⟨p, _, _, _, hp, -⟩ := h.shows.root
    simp [hp]
  change := by
    rintro d k n f ⟨t, ns', h, ho, hst, hm⟩ hk hn hs
    rcases mem_cons.mp hk with rfl | hk
    · rw [h.find] at hn
      cases hn
      exact ⟨_, ns', h.changeAttributes f, isOwn_of_signed ho rfl hs, hst, hm⟩
    · rw [← hm] at hk
      rw [(h.inside hk).2.1] at hn
      have hno := h.nodup_inside
      have hste : Stays true [n] [n.changeAttributes f] := by
        cases n with
        | leaf => exact .refl _
        | element j t1 ks => exact .signed rfl hs
      have hsa : Congruent fun xs ys : List Node => marksOf ys = marksOf xs :=
        ⟨fun _ _ _ h => by simp only [marksOf_append, h], fun _ _ _ h => by simp only [marksOf_singleton, marks_element, h]⟩
      have hn' : marksOf [n.changeAttributes f] = marksOf [n] := by
        cases n <;> simp [Node.changeAttributes, marksOf_singleton, marks_element]
      exact ⟨t, _, h.edited hk h.shows.tidy.changeAttributes, ho,
        hst.trans (edit_rel congruent hste ns' hno hn), (edit_rel hsa hn' ns' hno hn).trans hm⟩
  draw := fun ⟨t, ns', h, hr⟩ => ⟨t, ns', ⟨h.found, h.nodup, h.shows.of_eq ⟨h.shows.tidy.nodup, h.shows.tidy.below⟩ rfl rfl⟩, hr⟩
  inside := by
    rintro d k n j ⟨t, ns', h, -, -, hm⟩ hk hn hj
    rw [← hm] at hk ⊢
    rcases mem_cons.mp hk with rfl | hk
    · rw [h.find] at hn
      cases hn
      rwa [marks_element] at hj
    · rw [(h.inside hk).2.1] at hn
      exact .tail _ ((marks_of_findIn? _ hn).2.subset hj)
  root := by
    rintro d p n f ⟨t, ns', h, hr⟩ hp hro -
    obtain ⟨t0, hn⟩ := h.shows.root_eq hp
    rw [hro] at hn
    cases hn
    exact ⟨t, ns', ⟨h.found, h.nodup, h.shows.changeRoot⟩, hr⟩

/-- **A new change is signed by the author.** -/
lemma sign {l} (h : Works D cs m w ⟨name, [], l⟩ ns d) (hauthor : D.sig.author = reviser)
    (hna : name = "w:ins" ∨ name = "w:del") (hr : Gives (Edit.sign D.part [w]) d u d') : IsSigned D cs m w name ns d' := by
  rw [Edit.sign, gives_get_bind, h.shows.signature] at hr
  obtain ⟨_, ha, -⟩ := gives_bind_pure.mp hr
  rw [signAll, gives_node_bind] at ha
  obtain ⟨n, hn, ha⟩ := ha
  rw [h.find] at hn
  cases hn
  obtain ⟨_, d1, ho, ha⟩ := gives_bind.mp ha
  refine (signing name).signInside (.head _) ha ?_
  have hc : Gives (signChange D.sig D.part w) d () d1 := by rcases hna with rfl | rfl <;> exact ho
  obtain ⟨_, e1, hid, hc⟩ := gives_bind.mp hc
  obtain ⟨_, e2, hs, hc⟩ := gives_bind.mp hc
  obtain ⟨_, e3, hd, hmo⟩ := gives_bind.mp hc
  -- first the change gets a number
  rw [setMissing, gives_found_bind h.find] at hid
  obtain ⟨v, e, hm, hse⟩ := gives_bind.mp hid
  obtain ⟨_, _, hne, hm⟩ := gives_bind.mp hm
  obtain ⟨q, _, hp, hne⟩ := gives_bind.mp hne
  obtain rfl := (gives_ofResult.mp hm).2
  obtain rfl := (gives_pure.mp hne).2
  obtain rfl := h.shows.part_eq hp
  have h1 : Works D cs m w ⟨name, set [] "w:id" v, l⟩ ns e1 := by
    rw [gives_changeAttributes.mp hse]
    exact h.changeAttributes (set · "w:id" v)
  -- then the author, and everything after that keeps them
  have hf : has (set [] "w:id" v) "w:author" = false := by rfl
  rw [setMissing, gives_found_bind h1.find] at hs
  rw [Node.attributes, hf, Bool.not_false, if_pos rfl, pure_bind, gives_changeAttributes] at hs
  have h2 : IsSigned D cs m w name ns e2 := by
    refine ⟨⟨name, set (set [] "w:id" v) "w:author" D.sig.author, l⟩, ns, ?_, ?_, .refl _, rfl⟩
    · rw [hs]
      exact h1.changeAttributes (set · "w:author" D.sig.author)
    · simp [isOwn, get?_set_new _ hf, hauthor]
  have h3 := (signing name).setMissing (.head _) (by decide) preserves_pure hd h2
  exact (signing name).signMoment (.head _) hmo h3

lemma wrapped {picks} (h : Works D cs m m t ns d) (hauthor : D.sig.author = reviser)
    (hwr : Gives (wrapChildren m "w:del" picks) d w d') {d''} (hsig : Gives (Edit.sign D.part [w]) d' u d'') :
    ∃ t' zs, isOwn "w:del" t' ∧ Stays true (ns.filter picks) zs ∧
      Shows D (edit m (fun _ => [.element m t (ns.filter (!picks ·) ++ [.element w t' zs])]) cs) d'' := by
  rw [wrapChildren, gives_fresh_bind] at hwr
  obtain ⟨_, hc, rfl⟩ := gives_bind_pure.mp hwr
  obtain rfl := gives_changeChildren.mp hc
  obtain ⟨hb, hsp⟩ := h.fresh
  let after := ns.filter (!picks ·) ++ [.element d.next ⟨"w:del", [], none⟩ (ns.filter picks)]
  have hm : (marksOf after).Perm (marksOf ns ++ [d.next]) := by
    have hs := perm_marksOf ((perm_append_comm).trans (filter_append_perm picks ns))
    rw [marksOf_append] at hs ⊢
    rw [marksOf_singleton]
    exact perm_middle.trans (((perm_append_singleton _ _).symm.trans (hs.append_right _)))
  have ht : (({ d with next := d.next + 1 } : Desk).edit m fun n => [n.changeChildren fun cs => cs.filter (!picks ·) ++
      [.element d.next ⟨"w:del", [], none⟩ (cs.filter picks)]]).Tidy := hb.shows.tidy.edit hsp fun n hn => by
    rw [hb.find] at hn
    cases hn
    simp only [marksOf_singleton]
    exact hm.cons m
  have hw : Works D cs m m t after _ := hb.changed ht rfl
  -- the new element is the last one of the children
  have hme : d.next ∈ marksOf after := hm.symm.subset (mem_append_right _ (mem_singleton_self _))
  have hnot : d.next ∉ marksOf (ns.filter (!picks ·)) := fun hl => by
    have hno := hw.nodup_inside
    rw [marksOf_append, marksOf_singleton] at hno
    exact (nodup_append.mp hno).2.2 _ hl _ (.head _) rfl
  have hla : findIn? d.next after = some (.element d.next ⟨"w:del", [], none⟩ (ns.filter picks)) := by
    rw [findIn?_append, (findIn?_eq_none _).mpr hnot, findIn?_singleton]
    exact find?_self (.element d.next ..)
  obtain ⟨hp, hf, he⟩ := hw.inside hme
  have hne := (hw.shows.find hp).symm.trans (hf.trans hla)
  obtain ⟨t', zs, hsi, ho, hst, -⟩ := (start hw.shows hne).sign hauthor (.inr rfl) hsig
  refine ⟨t', zs, ho, hst, ?_⟩
  have hsh' := hsi.shows
  rwa [he, edit_append_of_not_mem_left hnot, edit_element_self] at hsh'

end Works

/-! ## The edits -/

/-- What a document holds is kept, as far as the check reads it. -/
def Keeps (D : Place) (cs : List Node) (d : Desk) : Prop := ∃ cs', Shows D cs' d ∧ Stays false cs cs'

def ReadsInsertion (D : Place) (m : Nat) (d : Desk) : Prop :=
  ∀ n new d₁, d.find? m = some n →
    Gives (fragment D.part (Node.element 0 ⟨"w:ins", [], none⟩ ((n.inside "w:r").map (Edit.restored D.sig.rsid))).toMarkup) d new d₁ →
    ∃ k l ns, new = [.element k ⟨"w:ins", [], l⟩ ns]

/-- This holds for each of some deletions when its turn comes. -/
def ReadsInsertions (D : Place) : List Nat → Desk → Prop
  | [], _ => True
  | m :: ms, d => ReadsInsertion D m d ∧ ∀ x d', Gives (Edit.rejectDeletion D.sig D.part m) d x d' → ReadsInsertions D ms d'

section Edits

variable {D : Place} {m k : Nat} {cs ns : List Node} {d d' : Desk} {t : Tag} {u : Unit}

lemma ne_of_named_isEmpty (h : (named name ns).isEmpty) : ∀ p ∈ namesIn ns, p.2 ≠ name := by
  rintro p hp rfl
  obtain ⟨e, he, rfl⟩ := mem_map.mp hp
  obtain ⟨t, cs, heq⟩ := exists_of_mem_elementsOf ns he
  have hm : e ∈ named e.name ns := mem_filter.mpr ⟨he, by rw [heq]; exact beq_self_eq_true _⟩
  rw [List.isEmpty_iff.mp h] at hm
  cases hm

namespace Shows

section

variable (h : Shows D cs d) (hauthor : D.sig.author = reviser)

include h hauthor

lemma deleteRun (hn : findIn? m cs = some (.element m t ns))
    (hna : t.name = "w:r") (hr : Gives (Edit.deleteRun D.sig D.part m) d k d') : Keeps D cs d' := by
  have hw := Works.start h hn
  rw [Edit.deleteRun, gives_found_bind hw.find] at hr
  obtain ⟨he, hr⟩ := gives_guard.mp hr
  have hpl (live : Bool) : told live [.element m t ns] = told true [.element m t ns] := told_plain _ fun p hp => by
    rw [namesIn_element] at hp
    rcases mem_cons.mp hp with rfl | hp
    · simp [hna]
    · exact ne_of_named_isEmpty (by simpa [Node.inside, Node.children] using he) p hp
  -- the texts, then the attributes of the run
  obtain ⟨_, d1, ht, hr⟩ := gives_bind.mp hr
  obtain ⟨ns1, hw1, hs1⟩ := hw.deleteTexts (.inl rfl) ht
  obtain ⟨_, d2, hc, hr⟩ := gives_bind.mp hr
  obtain rfl := gives_changeAttributes.mp hc
  let t1 : Tag := { t with attributes := deletedRun D.sig.rsid t.attributes }
  have hw2 := hw1.changeAttributes (deletedRun D.sig.rsid)
  obtain ⟨-, hr⟩ := gives_guard.mp hr
  -- the run is put into a deletion, which is signed
  rw [gives_fresh_bind, gives_modify_bind] at hr
  obtain ⟨_, hsig, -⟩ := gives_bind_pure.mp hr
  obtain ⟨hb, hsp⟩ := hw2.fresh
  have hti := hb.shows.tidy.edit (f := fun n => [.element _ ⟨"w:del", [], none⟩ [n]]) (m := m) hsp fun n _ => by
    rw [marksOf_singleton, marks_element, marksOf_singleton]
    exact (perm_append_singleton _ _).symm
  have hne : Works D cs m _ ⟨"w:del", [], none⟩ [.element m t1 ns1] _ := hb.changed hti rfl
  obtain ⟨t', _, hsi, ho, hs, -⟩ := hne.sign hauthor (.inr rfl) hsig
  have ha : Stays true [.element m t ns1] [.element m t1 ns1] := .tag_of_ne rfl (by simp [hna]) (by simp [hna])
  have hk := ((hs1.element m t).trans ha).trans hs
  exact ⟨_, hsi.shows, edit_rel congruent (.delete rfl ho hpl hk) cs hsi.nodup hn⟩

lemma rejectInsertion (hm : (m, "w:ins") ∈ namesIn cs)
    (hrun : Gives (Edit.rejectInsertion D.sig D.part m) d u d') : Keeps D cs d' := by
  obtain ⟨t, ns, hn, hna⟩ := find_of_namesIn h.nodup_inside hm
  have hwo := Works.start h hn
  rw [Edit.rejectInsertion, gives_found_bind hwo.find] at hrun
  dsimp only at hrun
  split at hrun
  · obtain ⟨_, d1, hru, hrun⟩ := gives_bind.mp hrun
    obtain ⟨w, d2, hwr, hsi⟩ := gives_bind.mp hrun
    obtain ⟨_, hwo1, hs1⟩ := hwo.eachRun (fun r hr => mem_namesIn_of_mem_named id hr) (fun {r} _ _ _ _ hw hr hst => by
      obtain ⟨_, _, hc, ht⟩ := gives_bind.mp hst
      obtain ⟨_, hw2, hs2⟩ := hw.changeRun (g := deletedRun D.sig.rsid) hr
      rw [← gives_changeAttributes.mp hc] at hw2
      obtain ⟨_, _, hr2, -⟩ := find_of_namesIn hw2.nodup_inside (hs2.names _ hr (by simp))
      obtain ⟨ns3, hw3, hs3⟩ := hw2.deleteTexts (.inr (mem_marksOf_of_findIn? hr2)) ht
      exact ⟨ns3, hw3, hs2.trans hs3⟩) hru
    obtain ⟨t', zs, ho, hre, hsh⟩ := hwo1.wrapped hauthor hwr hsi
    have hl := wrap (m := m) (w := w) (.inl hna) ho (fun _ hso => hso.insertion hna) hs1
      (fun _ hno => by cases hno) hre
    exact ⟨_, hsh, edit_rel congruent hl cs hwo.nodup hn⟩
  · obtain ⟨-, rfl⟩ := gives_pure.mp hrun
    exact ⟨cs, h, .refl _⟩

lemma deleteParagraph (hn : findIn? m cs = some (.element m t ns))
    (hna : t.name = "w:p") (hrun : Gives (Edit.deleteParagraph D.sig D.part m) d k d') : Keeps D cs d' := by
  have hwo := Works.start h hn
  rw [Edit.deleteParagraph, gives_found_bind hwo.find] at hrun
  obtain ⟨hem, hrun⟩ := gives_guard.mp hrun
  have hno : ¬hasChanges ns := by
    simp only [Bool.or_eq_true, Bool.not_eq_true', not_or, Bool.not_eq_false] at hem
    rintro ⟨p, hp, hp' | hp'⟩
    · exact ne_of_named_isEmpty hem.1 p hp hp'
    · exact ne_of_named_isEmpty hem.2 p hp hp'
  -- the mark of a paragraph with a number is marked as deleted
  obtain ⟨d1, ns1, hwo1, hs1, hrun⟩ : ∃ d1 ns1, Works D cs m m t ns1 d1 ∧ Stays true ns ns1 ∧ Gives (do
      Edit.deleteTexts m
      let n ← node m
      each (changeAttributes ·.mark (deletedRun D.sig.rsid)) (n.inside "w:r")
      let w ← wrapChildren m "w:del" (·.name != "w:pPr")
      sign D.part [w]
      pure m) d1 k d' := by
    split at hrun
    · rename_i properties l hl
      have hm : properties ∈ (Node.element m t ns).inside "w:pPr" := hl ▸ .head _
      split at hrun
      · obtain ⟨e, d1, hen, hrun⟩ := gives_bind.mp hrun
        obtain ⟨ns1, hwo1, hs1, he⟩ := hwo.ensureInside (mem_namesIn_of_mem_named id hm) hen
        rw [gives_fresh_bind] at hrun
        obtain ⟨_, d2, hc, hrun⟩ := gives_bind.mp hrun
        obtain ⟨ns2, hwo2, hs2, -⟩ := hwo1.put (g := (.element d1.next ⟨"w:del", [], none⟩ [] :: ·)) he
          (.inr rfl) (.inr rfl) fun ks => ⟨[], ks, rfl, rfl⟩
        rw [← gives_changeChildren.mp hc] at hwo2
        exact ⟨d2, ns2, hwo2, hs1.trans hs2, hrun⟩
      · exact ⟨d, ns, hwo, .refl _, hrun⟩
    · exact ⟨d, ns, hwo, .refl _, hrun⟩
  obtain ⟨_, d2, ht, hrun⟩ := gives_bind.mp hrun
  obtain ⟨ns2, hwo2, hs2⟩ := hwo1.deleteTexts (.inl rfl) ht
  rw [gives_found_bind hwo2.find] at hrun
  obtain ⟨_, d3, hru, hrun⟩ := gives_bind.mp hrun
  obtain ⟨_, hwo3, hs3⟩ := hwo2.eachRun (fun r hr => mem_namesIn_of_mem_named id hr) (fun {r} _ _ _ _ hw hr hst => by
    rw [gives_changeAttributes.mp hst]
    exact hw.changeRun hr) hru
  obtain ⟨w, d4, hwr, hrun⟩ := gives_bind.mp hrun
  obtain ⟨_, hsi, -⟩ := gives_bind_pure.mp hrun
  obtain ⟨t', zs, ho, hre, hsh⟩ := hwo3.wrapped hauthor hwr hsi
  have hlo := wrap (m := m) (w := w) (.inr hna) ho (fun _ hso => hso.paragraph hna hno)
    ((hs1.trans hs2).trans hs3) (fun _ hno => by simpa using hno) hre
  exact ⟨_, hsh, edit_rel congruent hlo cs hwo.nodup hn⟩

lemma rejectDeletion (hm : (m, "w:del") ∈ namesIn cs)
    (hr : ReadsInsertion D m d) {x} (hru : Gives (Edit.rejectDeletion D.sig D.part m) d x d') : Keeps D cs d' := by
  have hno := h.nodup_inside
  obtain ⟨t, ns, hn, -⟩ := find_of_namesIn hno hm
  have hme := mem_marksOf_of_findIn? hn
  have hfo := (h.find hme).trans hn
  rw [Edit.rejectDeletion, gives_found_bind hfo] at hru
  dsimp only at hru
  split at hru
  · obtain ⟨-, rfl⟩ := gives_pure.mp hru
    exact ⟨cs, h, .refl _⟩
  obtain ⟨_, hi, -⟩ := gives_bind_pure.mp hru
  obtain ⟨_, new, d1, heq, hf, hsig, -⟩ := gives_insertMarkup insertAfter gives_insertAfter hi
  cases heq
  obtain ⟨w, l, ks, rfl⟩ := hr _ new d1 hfo hf
  obtain ⟨ht, hs⟩ := h.tidy.fragment hf
  have h1 : Shows D cs d1 := by
    obtain ⟨p, _, _, _, hpa, -, -, rfl⟩ := gives_fragment hf
    obtain rfl := h.part_eq hpa
    exact h.of_eq ht rfl rfl
  -- the insertion stands behind the deletion, and is signed there
  have hnot : w ∉ (Node.element m t ns).marks := fun hw => by
    refine hs.away w (by simp [marksOf_singleton, marks_element]) ?_
    exact (marks_of_findIn? d1.forest ((h1.find hme).trans hn)).2.subset hw
  have h2 := h1.edited hme (ht.insertAfter hs)
  rw [edit_congr (g := fun _ => [.element m t ns, .element w ⟨"w:ins", [], l⟩ ks]) hno hn rfl] at h2
  have hp (f : Node → List Node) := edit_placed (f := f) (k := w) hno hn h2.nodup_inside
    (by simp [marksOf_cons, marks_element])
  have hfi : findIn? w [.element m t ns, .element w ⟨"w:ins", [], l⟩ ks] = some (.element w ⟨"w:ins", [], l⟩ ks) := by
    rw [findIn?_cons, (Node.find?_eq_none _).mpr hnot, findIn?_singleton]
    exact find?_self (.element w ..)
  obtain ⟨t', _, hsi, ho, -⟩ := (Works.start h2 ((hp fun _ => []).2.1.trans hfi)).sign hauthor (.inl rfl) hsig
  have hsh := hsi.shows
  have hne : (Node.element m t ns).mark ≠ w := fun heq => hnot (heq ▸ Node.mark_mem_marks _)
  rw [(hp _).2.2, edit_cons_of_ne hne, Node.editInside_of_not_mem _ hnot,
    edit_element_self] at hsh
  exact ⟨_, hsh, edit_rel congruent (.restore ho) cs hno hn⟩

end

lemma keeps (h : Keeps D cs d) (hst : ∀ {cs'}, Shows D cs' d → Stays false cs cs' → Keeps D cs' d') : Keeps D cs d' := by
  obtain ⟨cs', hsh, hs⟩ := h
  obtain ⟨cs'', hsh', hs'⟩ := hst hsh hs
  exact ⟨cs'', hsh', hs.trans hs'⟩

lemma rejectDeletions {ms} (h : Shows D cs d) (hauthor : D.sig.author = reviser)
    (hms : ∀ m ∈ ms, (m, "w:del") ∈ namesIn cs) (hr : ReadsInsertions D ms d) {x}
    (hru : Gives (Edit.rejectDeletions D.sig D.part ms) d x d') : Keeps D cs d' := by
  induction ms generalizing cs d x with
  | nil =>
    obtain ⟨-, rfl⟩ := gives_pure.mp hru
    exact ⟨cs, h, .refl _⟩
  | cons m ms ih =>
    obtain ⟨_, d1, hf, hru⟩ := gives_bind.mp hru
    obtain ⟨_, hl, -⟩ := gives_bind_pure.mp hru
    refine keeps (h.rejectDeletion hauthor (hms m (.head _)) hr.1 hf) fun hs hst => ?_
    refine ih hs (fun k hk => ?_) (hr.2 _ _ hf) hl
    exact hst.names _ (hms k (.tail _ hk)) (by simp)

lemma names_of_changesIn {changes} (hn : findIn? m cs = some n)
    (hc : changesIn n name = .ok changes) : ∀ e ∈ changes, (e.mark, name) ∈ namesIn cs := by
  cases n with
  | leaf => cases hc
  | element j t ns =>
    have ha := elements_of_find cs hn
    rw [changesIn] at hc
    split at hc
    · cases hc
    split at hc
    · rename_i hna
      cases hc
      intro e he
      obtain rfl := mem_singleton.mp he
      exact mem_namesIn_of_mem_named id (mem_filter.mpr ⟨ha _ (.head _), hna⟩)
    · cases hc
      exact fun e he => mem_namesIn_of_mem_named (fun he => ha e (.tail _ he)) he

end Shows

end Edits

/-! ## Sequences of edits -/

/-- The edits that note changes, each with the node that it is about. -/
inductive Redline where
  | delete (m : Nat)
  | takeInsertion (m : Nat)
  | takeDeletion (m : Nat)

namespace Redline

def mark : Redline → Nat
  | delete m | takeInsertion m | takeDeletion m => m

def make (part : String) : Redline → Edit Unit
  | delete m => do let _ ← suggestDeletion part (some m)
  | takeInsertion m => do let _ ← revertInsertion part (some m)
  | takeDeletion m => do let _ ← revertDeletion part (some m)

/-- The node is in the root element of the document, and what is inserted can be read. -/
structure IsAllowed (D : Place) (d : Desk) (r : Redline) : Prop where
  inside : ∃ p root, d.part? D.part = some p ∧ p.root? = some root ∧ r.mark ∈ marksOf root.children
  reads : ∀ m n changes, r = takeDeletion m → d.find? m = some n → changesIn n "w:del" = .ok changes →
    ReadsInsertions D (changes.map (·.mark)) d

def AreAllowed (D : Place) : List Redline → Desk → Prop
  | [], _ => True
  | r :: rs, d => r.IsAllowed D d ∧ ∀ u d', Gives (r.make D.part) d u d' → AreAllowed D rs d'

variable {D : Place} {cs : List Node} {d d' : Desk} {r : Redline} {rs : List Redline} {u : Unit}

lemma gives_addressed {α : Type} {f : Signature → Nat → Node → Edit α} {a m} (h : d.signature? = some D.sig) :
    Gives (do let sig ← signature; let m ← kept (some m); let n ← node m; f sig m n) d a d' ↔
      ∃ n, d.find? m = some n ∧ Gives (f D.sig m n) d a d' := by
  rw [signature, bind_assoc, gives_get_bind, h]
  exact gives_node_bind

lemma keeps_of_make (h : Shows D cs d) (hauthor : D.sig.author = reviser) (ha : r.IsAllowed D d)
    (hru : Gives (r.make D.part) d u d') : Keeps D cs d' := by
  obtain ⟨p, _, hp, hr, hm⟩ := ha.inside
  obtain ⟨t0, hcs⟩ := h.root_eq hp
  rw [hr] at hcs
  cases hcs
  have hf := h.find hm
  cases r with
  | delete m =>
    obtain ⟨_, hru, -⟩ := gives_bind_pure.mp hru
    rw [suggestDeletion, gives_addressed h.signature] at hru
    obtain ⟨n, hn, hru⟩ := hru
    have hn' := hf.symm.trans hn
    obtain ⟨_, hru⟩ := gives_guard.mp hru
    cases n with
    | leaf j kind s =>
      split at hru
      · simp_all [Node.isElement]
      · simp_all [Node.isElement]
      · cases gives_throw hru
    | element j t ns =>
      obtain rfl : j = m := mark_of_findIn? hn'
      split at hru
      · exact h.deleteRun hauthor hn' ‹_› hru
      · exact h.deleteParagraph hauthor hn' ‹_› hru
      · cases gives_throw hru
  | takeInsertion m =>
    obtain ⟨_, hru, -⟩ := gives_bind_pure.mp hru
    rw [revertInsertion, gives_addressed h.signature] at hru
    obtain ⟨n, hn, hru⟩ := hru
    obtain ⟨changes, hc, hru⟩ := gives_ofResult_bind.mp hru
    obtain ⟨-, hru⟩ := gives_guard.mp hru
    obtain ⟨_, hru, -⟩ := gives_bind_pure.mp hru
    have hna := Shows.names_of_changesIn (hf.symm.trans hn) hc
    refine preserves_each (I := Keeps D cs) (fun e he _ _ _ hste hke => ?_) hru ⟨cs, h, .refl _⟩
    exact Shows.keeps hke fun hs hst => hs.rejectInsertion hauthor (hst.names _ (hna e he) (by simp)) hste
  | takeDeletion m =>
    obtain ⟨_, hru, -⟩ := gives_bind_pure.mp hru
    rw [revertDeletion, gives_addressed h.signature] at hru
    obtain ⟨n, hn, hru⟩ := hru
    obtain ⟨changes, hc, hru⟩ := gives_ofResult_bind.mp hru
    obtain ⟨-, hru⟩ := gives_guard.mp hru
    obtain ⟨_, hru, -⟩ := gives_bind_pure.mp hru
    refine h.rejectDeletions hauthor (fun k hk => ?_) (ha.reads m n changes rfl hn hc) hru
    obtain ⟨e, he, rfl⟩ := mem_map.mp hk
    exact Shows.names_of_changesIn (hf.symm.trans hn) hc e he

lemma keeps_of_each (h : Shows D cs d) (hauthor : D.sig.author = reviser) (ha : AreAllowed D rs d)
    (hr : Gives (each (make D.part) rs) d u d') : Keeps D cs d' := by
  induction rs generalizing cs d with
  | nil =>
    obtain ⟨-, rfl⟩ := gives_pure.mp hr
    exact ⟨cs, h, .refl _⟩
  | cons r rs ih =>
    obtain ⟨_, d1, hs, hr⟩ := gives_bind.mp hr
    exact Shows.keeps (keeps_of_make h hauthor ha.1 hs) fun hsh _ => ih hsh (ha.2 _ _ hs) hr

end Redline

def textIn (part : String) (d : Desk) : Option String := ((d.part? part).bind (·.root?)).bind comparedText

variable {D : Place} {cs : List Node} {d : Desk}

lemma Shows.textIn_eq (h : Shows D cs d) :
    textIn D.part d = some (Text.S.join "\n" ((told false cs).paragraphs.filter (· != ""))) := by
  obtain ⟨p, _, _, _, hp, -⟩ := h.root
  obtain ⟨t, hr⟩ := h.root_eq hp
  rw [textIn, hp, Option.bind_some, hr, Option.bind_some, comparedText_element]

open Redline

/-- **Edits that note changes pass the check**: when the changes of the author are taken back, the text of an orderly
document is the one that it had, whatever deletions were suggested and changes taken back. -/
theorem textIn_of_redlines {D : Place} {cs : List Node} {d : Desk} {rs : List Redline} (h : Shows D cs d)
    (hauthor : D.sig.author = reviser) (horderly : areOrderly false cs) (hallowed : Redline.AreAllowed D rs d) :
    ∃ text, textIn D.part d = some text ∧
      Ensures (each (Redline.make D.part) rs) d fun _ d' => textIn D.part d' = some text := by
  refine ⟨_, h.textIn_eq, fun u d' hrun => ?_⟩
  obtain ⟨cs', hshows, hstays⟩ := keeps_of_each h hauthor hallowed hrun
  obtain ⟨-, htold⟩ := hstays.keeps false (fun hno => nomatch hno) horderly
  rw [hshows.textIn_eq, htold]

/-! ## A document under revision -/

/-- Elements other than texts are there when later edits are made, so that deletions of them may be suggested and
insertions taken back. -/
lemma Redline.areAllowed_of_names {rs} (h : Shows D cs d) (hauthor : D.sig.author = reviser)
    (hrs : ∀ r ∈ rs, (∃ name, (r.mark, name) ∈ namesIn cs ∧ name ≠ "w:t") ∧ ∀ m, r ≠ takeDeletion m) : AreAllowed D rs d := by
  induction rs generalizing cs d with
  | nil => trivial
  | cons r rs ih =>
    obtain ⟨⟨⟨name, hn, -⟩, hk⟩, hl⟩ := forall_mem_cons.mp hrs
    have ha : r.IsAllowed D d := by
      obtain ⟨p, _, _, _, hp, -⟩ := h.root
      obtain ⟨t, hro⟩ := h.root_eq hp
      obtain ⟨e, he, heq⟩ := mem_map.mp hn
      have hm : e.mark = r.mark := congrArg Prod.fst heq
      exact ⟨⟨p, _, hp, hro, hm ▸ mem_marksOf_of_mem_elementsOf cs he⟩, fun m _ _ hr => absurd hr (hk m)⟩
    refine ⟨ha, fun u d' hru => ?_⟩
    obtain ⟨_, hs, hst⟩ := keeps_of_make h hauthor ha hru
    refine ih hs fun r' hr' => ?_
    obtain ⟨⟨name', hn', hne⟩, hk'⟩ := hl r' hr'
    exact ⟨⟨name', hst.names _ hn' hne, hne⟩, hk'⟩

lemma exists_gives {α : Type} {e : Edit α} (h : (e.run.run d).1.toOption.isSome) : ∃ a, Gives e d a (e.run.run d).2 := by
  rcases hr : e.run.run d with ⟨f | a, d'⟩
  · rw [hr] at h
    cases h
  · exact ⟨a, hr⟩

def sheet (ns : List Node) : Desk where
  parts := [("word/document.xml", { path := ⟨"", []⟩, roots := [.element 0 ⟨"w:document", [⟨"xmlns:w", none, "urn:w"⟩], none⟩
    [.element 1 ⟨"w:p", [], none⟩ ns]] })]
  next := 20
  signature? := some ⟨"00AB12CD", reviser, "C", "2024-01-01T00:00:00Z"⟩

def runOf (m : Nat) (name text : String) : Node :=
  .element m ⟨"w:r", [], none⟩ [.element (m + 1) ⟨name, [], none⟩ [.leaf (m + 2) .text text]]

def byAda (m : Nat) (name : String) (ns : List Node) : Node := .element m ⟨name, [⟨"w:author", some "urn:w", "Ada"⟩], none⟩ ns

def reviewed : List Node :=
  [runOf 2 "w:t" "a", byAda 5 "w:ins" [runOf 6 "w:t" "b"], byAda 9 "w:del" [runOf 10 "w:delText" "c"]]

def reviewedRedlines : List Redline := [.takeDeletion 9, .delete 2, .takeInsertion 5]

def reviewedPlace : Place := ⟨"word/document.xml", ⟨"00AB12CD", reviser, "C", "2024-01-01T00:00:00Z"⟩, 0⟩

lemma shows_reviewed : Shows reviewedPlace [.element 1 ⟨"w:p", [], none⟩ reviewed] (sheet reviewed) where
  tidy := ⟨by decide, by decide⟩
  signature := rfl
  root := ⟨_, [], _, [], rfl, rfl, fun n hn => by cases hn⟩

lemma isOrderly_runOf (m) (hn : name = "w:t" ∨ name = "w:delText") (text) : isOrderly false (runOf m name text) := by
  have hr : IsSound false ⟨"w:r", [], none⟩ [.element (m + 1) ⟨name, [], none⟩ [.leaf (m + 2) .text text]] := by
    constructor <;> simp
  have ht : IsSound false ⟨name, [], none⟩ [.leaf (m + 2) .text text] := by
    constructor <;> rcases hn with rfl | rfl <;> simp
  have ho : isOwn "w:del" ⟨name, [], none⟩ = false := by simp [isOwn, get?]
  exact .inr (.inr ⟨rfl, hr, .inr (.inr ⟨ho, ht, trivial, trivial⟩), trivial⟩)

lemma areOrderly_reviewed : areOrderly false [.element 1 ⟨"w:p", [], none⟩ reviewed] := by
  have hp : IsSound false ⟨"w:p", [], none⟩ reviewed := by
    have hc : hasChanges reviewed := ⟨(5, "w:ins"), by decide, .inl rfl⟩
    constructor <;> simp [hc]
  have hi : IsSound false ⟨"w:ins", [⟨"w:author", some "urn:w", "Ada"⟩], none⟩ [runOf 6 "w:t" "b"] := by
    have ht : told false [runOf 6 "w:t" "b"] = told true [runOf 6 "w:t" "b"] := by decide
    constructor <;> simp [ht, has]
  have hd : IsSound false ⟨"w:del", [⟨"w:author", some "urn:w", "Ada"⟩], none⟩ [runOf 10 "w:delText" "c"] := by
    constructor <;> simp
  exact ⟨.inr (.inr ⟨rfl, hp, isOrderly_runOf 2 (.inl rfl) "a",
    .inr (.inr ⟨rfl, hi, isOrderly_runOf 6 (.inl rfl) "b", trivial⟩),
    .inr (.inr ⟨rfl, hd, isOrderly_runOf 10 (.inr rfl) "c", trivial⟩), trivial⟩), trivial⟩

def isInsertion : List Node → Bool
  | [.element _ t _] => t.name == "w:ins" && t.attributes.isEmpty
  | _ => false

lemma readsInsertion_reviewed : ReadsInsertion reviewedPlace 9 (sheet reviewed) := by
  intro n new d1 hn hg
  have hf : (sheet reviewed).find? 9 = some (byAda 9 "w:del" [runOf 10 "w:delText" "c"]) := rfl
  obtain rfl := Option.some.inj (hn.symm.trans hf)
  have ho : (((fragment reviewedPlace.part (Node.element 0 ⟨"w:ins", [], none⟩
      (((byAda 9 "w:del" [runOf 10 "w:delText" "c"]).inside "w:r").map
        (Edit.restored reviewedPlace.sig.rsid))).toMarkup).run.run (sheet reviewed)).1.toOption.all isInsertion) := by
    decide +kernel
  rw [hg] at ho
  replace ho : isInsertion new := ho
  unfold isInsertion at ho
  split at ho
  · rename_i k t ns
    obtain ⟨hna, ha⟩ := Bool.and_eq_true_iff.mp ho
    obtain ⟨name, attributes, l⟩ := t
    obtain rfl : name = "w:ins" := beq_iff_eq.mp hna
    obtain rfl : attributes = [] := List.isEmpty_iff.mp ha
    exact ⟨k, l, ns, rfl⟩
  · cases ho

lemma areAllowed_reviewed : AreAllowed reviewedPlace reviewedRedlines (sheet reviewed) := by
  have hf : (takeDeletion 9).IsAllowed reviewedPlace (sheet reviewed) := by
    refine ⟨⟨_, _, rfl, rfl, by decide⟩, fun m n changes hr hn hc => ?_⟩
    cases hr
    have hfi : (sheet reviewed).find? 9 = some (byAda 9 "w:del" [runOf 10 "w:delText" "c"]) := rfl
    obtain rfl := Option.some.inj (hn.symm.trans hfi)
    have hd : changesIn (byAda 9 "w:del" [runOf 10 "w:delText" "c"]) "w:del" =
        .ok [byAda 9 "w:del" [runOf 10 "w:delText" "c"]] := rfl
    obtain rfl := Except.ok.inj (hc.symm.trans hd)
    exact ⟨readsInsertion_reviewed, fun _ _ _ => trivial⟩
  refine ⟨hf, fun u d' hru => ?_⟩
  obtain ⟨cs', hs, hst⟩ := keeps_of_make shows_reviewed rfl hf hru
  have hk (m : Nat) (name : String) (h : (m, name) ∈ namesIn [.element 1 ⟨"w:p", [], none⟩ reviewed])
      (hne : name ≠ "w:t") : ∃ name, (m, name) ∈ namesIn cs' ∧ name ≠ "w:t" := ⟨name, hst.names _ h hne, hne⟩
  refine areAllowed_of_names hs rfl fun r hr => ?_
  simp only [mem_cons, not_mem_nil, or_false] at hr
  rcases hr with rfl | rfl
  · exact ⟨hk 2 "w:r" (by decide) (by decide), fun m h => by cases h⟩
  · exact ⟨hk 5 "w:ins" (by decide) (by decide), fun m h => by cases h⟩

theorem textIn_of_redlines_reviewed : textIn "word/document.xml" (sheet reviewed) = some "ab" ∧
      ∃ u d', Gives (each (Redline.make "word/document.xml") reviewedRedlines) (sheet reviewed) u d' ∧
        textIn "word/document.xml" d' = some "ab" := by
  have hbefore : textIn "word/document.xml" (sheet reviewed) = some "ab" := by decide +kernel
  have hends : ((each (make "word/document.xml") reviewedRedlines).run.run (sheet reviewed)).1.toOption.isSome =
      true := by decide +kernel
  obtain ⟨u, hgives⟩ := exists_gives hends
  obtain ⟨text, htext, hensures⟩ := textIn_of_redlines shows_reviewed rfl areOrderly_reviewed areAllowed_reviewed
  exact ⟨hbefore, u, _, hgives, (hensures u _ hgives).trans (htext.symm.trans hbefore)⟩

/-- An insertion whose text was deleted again. Both changes are Ada's. -/
def nested : List Node := [byAda 2 "w:ins" [byAda 3 "w:del" [runOf 4 "w:delText" "x"]]]

/-- The insertion is taken back, and the deleted text in it comes alive. -/
theorem textIn_of_nested_deletion : textIn "word/document.xml" (sheet nested) = some "" ∧
      ∃ u d', Gives (Redline.make "word/document.xml" (.takeInsertion 2)) (sheet nested) u d' ∧
        textIn "word/document.xml" d' = some "x" := by
  have hends : ((make "word/document.xml" (.takeInsertion 2)).run.run (sheet nested)).1.toOption.isSome = true := by
    decide +kernel
  obtain ⟨u, hgives⟩ := exists_gives hends
  exact ⟨by decide +kernel, u, _, hgives, by decide +kernel⟩

end Sluice.Office
