import Sluice.Proofs.Office.Desk
import Sluice.Proofs.Office.Withdrawal

/-!
# Tracked edits keep the text

When the changes are taken back, the text is what it was, if a rejected insertion holds no text that another author
deleted (`areOrderly`). Inside a node to be deleted, only what is told with deleted text as live is kept (`Stays`).
-/

namespace Sluice.Office

open List Dom Edit
open Attribute (get? has)

variable {as : List Attribute} {w : Nat} {n : Node} {name : String}

/-! ## Orderly documents -/

def namesIn (ns : List Node) : List (Nat × String) := (elementsOf ns).map fun e => (e.mark, e.name)

def hasChanges (ns : List Node) : Prop := ∃ p ∈ namesIn ns, p.2 = "w:ins" ∨ p.2 = "w:del"

/-- What an element must be like if a deletion of the author may be put into it. -/
structure IsSound (live : Bool) (t : Tag) (cs : List Node) : Prop where
  author : t.name = "w:ins" → has t.attributes "w:author" = true
  insertion : t.name = "w:ins" → told live cs = told true cs
  paragraph : t.name = "w:p" → ¬hasChanges cs → told live cs = told true cs
  properties : t.name = "w:pPr" → told true cs = {}

mutual

def isOrderly (live : Bool) : Node → Prop
  | .element _ t cs => isOwn "w:ins" t ∨ isOwn "w:del" t ∧ areOrderly true cs ∨
      isOwn "w:del" t = false ∧ IsSound live t cs ∧ areOrderly live cs
  | .leaf .. => True

def areOrderly (live : Bool) : List Node → Prop
  | [] => True
  | n :: ns => isOrderly live n ∧ areOrderly live ns

end

variable {live only : Bool} {k m : Nat} {t t' : Tag} {xs ys zs cs : List Node}

lemma namesIn_append (xs ys) : namesIn (xs ++ ys) = namesIn xs ++ namesIn ys := by
  induction xs with
  | nil => rfl
  | cons x xs ih =>
    simp only [namesIn, cons_append, elementsOf, map_append, List.append_assoc] at ih ⊢
    rw [ih]

lemma namesIn_element (m t cs) : namesIn [.element m t cs] = (m, t.name) :: namesIn cs := by
  simp [namesIn, elementsOf, Node.elements, Node.mark, Node.name]

lemma told_append (live xs ys) : told live (xs ++ ys) = told live xs ++ told live ys := by
  induction xs with
  | nil => simp [told]
  | cons x xs ih => simp [told, ih]

lemma told_singleton (live n) : told live [n] = toldOf live n := by simp [told]

lemma areOrderly_append : areOrderly live (xs ++ ys) ↔ areOrderly live xs ∧ areOrderly live ys := by
  induction xs with
  | nil => simp [areOrderly]
  | cons x xs ih => simp [areOrderly, ih, and_assoc]

lemma areOrderly_singleton : areOrderly live [n] ↔ isOrderly live n := by simp [areOrderly]

lemma orderly_true : (ns : List Node) → areOrderly live ns → areOrderly true ns
  | [], _ => trivial
  | .leaf .. :: ns, h => ⟨trivial, orderly_true ns h.2⟩
  | .element m t cs :: ns, h => by
    refine ⟨?_, orderly_true ns h.2⟩
    rcases h.1 with ho | hd | ⟨hd, hs, hcs⟩
    · exact .inl ho
    · exact .inr (.inl hd)
    · exact .inr (.inr ⟨hd, ⟨hs.author, fun _ => rfl, fun _ _ => rfl, hs.properties⟩, orderly_true cs hcs⟩)

/-! ## What steps keep -/

/-- Other nodes stand for some nodes: orderly as they are, the same is told of them, and all elements but texts are still
there. With `only`, just inside of a deletion of the author. -/
structure Stays (only : Bool) (xs ys : List Node) : Prop where
  lead : ∀ post, leadText (ys ++ post) = leadText (xs ++ post)
  keeps : ∀ live, (only = true → live = true) → areOrderly live xs → areOrderly live ys ∧ told live ys = told live xs
  names : ∀ p ∈ namesIn xs, p.2 ≠ "w:t" → p ∈ namesIn ys

lemma Stays.refl (xs) : Stays only xs xs := ⟨fun _ => rfl, fun _ _ h => ⟨h, rfl⟩, fun _ h _ => h⟩

lemma Stays.trans (h : Stays only xs ys) (h' : Stays only ys zs) : Stays only xs zs where
  lead post := (h'.lead post).trans (h.lead post)
  keeps live hl hxs := by
    obtain ⟨hys, hxy⟩ := h.keeps live hl hxs
    obtain ⟨hzs, hyz⟩ := h'.keeps live hl hys
    exact ⟨hzs, hyz.trans hxy⟩
  names p hp hn := h'.names p (h.names p hp hn) hn

lemma hasChanges_of_names (h : ∀ p ∈ namesIn xs, p.2 ≠ "w:t" → p ∈ namesIn ys) (hxs : hasChanges xs) : hasChanges ys := by
  obtain ⟨p, hp, hn⟩ := hxs
  refine ⟨p, h p hp ?_, hn⟩
  rcases hn with hn | hn <;> rw [hn] <;> decide

lemma leadText_append (pre) (h : leadText ys = leadText xs) : leadText (pre ++ ys) = leadText (pre ++ xs) := by
  induction pre with
  | nil => exact h
  | cons n pre ih =>
    cases n with
    | element m t cs => rfl
    | leaf m kind s => cases kind <;> simp [leadText, ih]

lemma Stays.inner (k : Nat) (t : Tag) (hl : t.name = "w:t" ∨ t.name = "w:delText" → leadText ys = leadText xs)
    (h : ∀ live, (only = true → live = true) → areOrderly live xs → areOrderly live ys ∧ told live ys = told live xs)
    (hn : ∀ p ∈ namesIn xs, p.2 ≠ "w:t" → p ∈ namesIn ys) : Stays only [.element k t xs] [.element k t ys] where
  lead _ := rfl
  keeps live hli ho := by
    rw [areOrderly_singleton] at ho ⊢
    rw [told_singleton, told_singleton, toldOf, toldOf]
    rcases ho with how | ⟨hd, hxs⟩ | ⟨hd, hs, hxs⟩
    · exact ⟨.inl how, by simp [how]⟩
    · obtain ⟨hys, hto⟩ := h true (fun _ => rfl) hxs
      exact ⟨.inr (.inl ⟨hd, hys⟩), by simp [hd, hto]⟩
    · obtain ⟨hys, hto⟩ := h live hli hxs
      obtain ⟨-, htr⟩ := h true (fun _ => rfl) (orderly_true xs hxs)
      refine ⟨.inr (.inr ⟨hd, ⟨hs.author, fun ht => ?_, fun ht hno => ?_, fun ht => ?_⟩, hys⟩), ?_⟩
      · rw [hto, htr, hs.insertion ht]
      · rw [hto, htr, hs.paragraph ht fun hxs => hno (hasChanges_of_names hn hxs)]
      · rw [htr, hs.properties ht]
      · by_cases ht : t.name = "w:t" ∨ t.name = "w:delText"
        · simp [hd, hto, hl ht]
        · obtain ⟨hno, hno'⟩ := not_or.mp ht
          simp [hd, hto, ownGist, hno, hno']
  names p hp hna := by
    rw [namesIn_element] at hp ⊢
    rcases mem_cons.mp hp with rfl | hp
    · exact mem_cons_self ..
    · exact .tail _ (hn p hp hna)

lemma Stays.element (k t) (h : Stays only xs ys) : Stays only [.element k t xs] [.element k t ys] :=
  .inner k t (fun _ => by simpa using h.lead []) h.keeps h.names

lemma Stays.append (pre post : List Node) (h : Stays only xs ys) : Stays only (pre ++ xs ++ post) (pre ++ ys ++ post) where
  lead rest := by
    simp only [List.append_assoc]
    exact leadText_append pre (h.lead _)
  keeps live hl ho := by
    simp only [areOrderly_append, told_append] at ho ⊢
    obtain ⟨hys, ht⟩ := h.keeps live hl ho.1.2
    exact ⟨⟨⟨ho.1.1, hys⟩, ho.2⟩, by rw [ht]⟩
  names p hp hn := by
    simp only [namesIn_append, mem_append] at hp ⊢
    exact hp.imp_left (·.imp_right fun hp => h.names p hp hn)

lemma Stays.congruent : Congruent (Stays only) := ⟨fun pre post _ h => h.append pre post, fun k t _ h => h.element k t⟩

lemma Stays.tag (hn : t'.name = t.name) (hi : isOwn "w:ins" t' = isOwn "w:ins" t)
    (hd : isOwn "w:del" t' = isOwn "w:del" t)
    (ha : t.name = "w:ins" → has t.attributes "w:author" = true → has t'.attributes "w:author" = true) :
    Stays only [.element m t cs] [.element m t' cs] where
  lead _ := rfl
  keeps live _ ho := by
    rw [areOrderly_singleton, isOrderly] at ho ⊢
    rw [told_singleton, told_singleton, toldOf, hi, hd, hn]
    have hs' (hs : IsSound live t cs) : IsSound live t' cs := by
      refine ⟨fun ht => ?_, ?_, ?_, ?_⟩
      · rw [hn] at ht
        exact ha ht (hs.author ht)
      all_goals rw [hn]
      · exact hs.insertion
      · exact hs.paragraph
      · exact hs.properties
    exact ⟨ho.imp_right (.imp_right fun h => ⟨h.1, hs' h.2.1, h.2.2⟩), rfl⟩
  names p hp _ := by
    rw [namesIn_element] at hp ⊢
    rwa [hn]

lemma isOwn_of_ne (h : t.name ≠ name) : isOwn name t = false := by simp [isOwn, h]

lemma Stays.tag_of_ne (hn : t'.name = t.name) (hi : t.name ≠ "w:ins") (hd : t.name ≠ "w:del") :
    Stays only [.element m t cs] [.element m t' cs] := by
  have hno {name : String} (h : t.name ≠ name) : isOwn name t' = isOwn name t := by rw [isOwn_of_ne h, isOwn_of_ne (hn ▸ h)]
  exact .tag hn (hno hi) (hno hd) fun h => absurd h hi

lemma toldOf_of_ne (hi : t.name ≠ "w:ins") (hd : t.name ≠ "w:del") : toldOf live (.element m t cs) =
    ownGist (t.name = "w:t" ∨ live ∧ t.name = "w:delText") (t.name = "w:p") (leadText cs) (told live cs) := by
  simp [toldOf, isOwn_of_ne hi, isOwn_of_ne hd]

lemma isOrderly_of_ne (hi : t.name ≠ "w:ins") (hd : t.name ≠ "w:del") :
    isOrderly live (.element m t cs) ↔ IsSound live t cs ∧ areOrderly live cs := by
  simp [isOrderly, isOwn_of_ne hi, isOwn_of_ne hd]

lemma Stays.deleteText (m k : Nat) (ht : t.name = "w:t") (ht' : t'.name = "w:delText") (cs : List Node) :
    Stays true [.element m t cs] [.element k t' cs] where
  lead _ := rfl
  keeps live hl ho := by
    obtain rfl : live = true := hl rfl
    rw [areOrderly_singleton, isOrderly_of_ne (by simp [ht]) (by simp [ht])] at ho
    rw [areOrderly_singleton, isOrderly_of_ne (by simp [ht']) (by simp [ht']), told_singleton, told_singleton,
      toldOf_of_ne (by simp [ht']) (by simp [ht']), toldOf_of_ne (by simp [ht]) (by simp [ht])]
    refine ⟨⟨⟨?_, ?_, ?_, ?_⟩, ho.2⟩, ownGist_congr (by simp [ht, ht']) (by simp [ht, ht']) _ _⟩
    all_goals simp [ht']
  names p hp hn := by
    rcases mem_cons.mp hp with rfl | hp
    · exact absurd ht hn
    · exact .tail _ hp

/-! ## Authors -/

lemma has_eq (as a) : has as a = (get? as a).isSome := by
  rw [has, get?, Option.isSome_map, Bool.eq_iff_iff, find?_isSome, any_eq_true]

lemma get?_set_new (value) (h : has as name = false) : get? (Attribute.set as name value) name = some value := by
  have hn (p : Attribute → Bool) : (as.filter p).find? (·.name == name) = none :=
    List.find?_eq_none.mpr fun a ha => any_eq_false.mp h a (mem_filter.mp ha).1
  rw [Attribute.set, h, if_neg Bool.false_ne_true, Attribute.add, get?, List.find?_append, hn]
  simp

lemma get?_set_of_ne {value a} (hn : name ≠ a) (hl : localName name ≠ localName a) :
    get? (Attribute.set as name value) a = get? as a := by
  rw [Attribute.set]
  split
  · have hc : ((fun b : Attribute => b.name == a) ∘ fun b => if b.name == name then { b with value } else b) =
        fun b => b.name == a := funext fun b => by simp only [Function.comp]; split <;> simp_all
    rw [get?, find?_map, hc, get?]
    cases hb : as.find? (·.name == a) with
    | none => rfl
    | some b =>
      have hba : b.name = a := by simpa using find?_some hb
      simp [hba, hn.symm]
  · rw [Attribute.add, get?, get?, List.find?_append, find?_filter]
    have hk (b : Attribute) : ((!(b.name == name || b.space? == none && localName b.name == localName name)) ∧
        (b.name == a)) ↔ (b.name == a) := by
      refine ⟨And.right, fun hb => ⟨?_, hb⟩⟩
      simp [eq_of_beq hb, hn.symm, hl.symm]
    simp only [hk, Bool.decide_eq_true]
    simp [hn]

variable {sig : Signature}

lemma author_of_signed {bs} (h : Signed sig as bs) : get? bs "w:author" = get? as "w:author" ∨
      get? as "w:author" = none ∧ get? bs "w:author" = some sig.author := by
  cases h with
  | same => exact .inl rfl
  | note hna =>
    have hn : ∀ name ∈ notes, name ≠ "w:author" ∧ localName name ≠ localName "w:author" := by decide
    exact .inl (get?_set_of_ne (hn _ hna).1 (hn _ hna).2)
  | author hne => exact .inr ⟨by simpa [has_eq] using hne, get?_set_new _ hne⟩
  | space e _ => cases e <;> exact .inl (get?_set_of_ne (by decide) (by decide))

lemma toldOf_deletion (hn : t.name = "w:del") : toldOf true (.element m t cs) = told true cs := by
  rw [toldOf, isOwn_of_ne (by simp [hn])]
  split
  · cases ‹false = true›
  · split
    · rfl
    · simp [ownGist, hn]

lemma isOrderly_deletion (hn : t.name = "w:del") (h : areOrderly true cs) : isOrderly true (.element m t cs) := by
  cases ho : isOwn "w:del" t with
  | true => exact .inr (.inl ⟨ho, h⟩)
  | false => exact .inr (.inr ⟨ho, ⟨by simp [hn], by simp [hn], by simp [hn], by simp [hn]⟩, h⟩)

lemma areOrderly_of_deletion (hn : t.name = "w:del") (h : isOrderly live (.element m t cs)) : areOrderly true cs := by
  rcases h with ho | ⟨-, hcs⟩ | ⟨-, -, hcs⟩
  · rw [isOwn_of_ne (by simp [hn])] at ho
    cases ho
  · exact hcs
  · exact orderly_true cs hcs

lemma Stays.signed (hn : t'.name = t.name) (h : Signed sig t.attributes t'.attributes) :
    Stays true [.element m t cs] [.element m t' cs] := by
  have how (name : String) (ha : get? t'.attributes "w:author" = get? t.attributes "w:author") :
      isOwn name t' = isOwn name t := by rw [isOwn, isOwn, ha, hn]
  rcases author_of_signed h with ha | ⟨hno, -⟩
  · exact .tag hn (how _ ha) (how _ ha) fun _ hh => by rwa [has_eq, ha, ← has_eq]
  have hna : namesIn [.element m t' cs] = namesIn [.element m t cs] := by rw [namesIn_element, namesIn_element, hn]
  refine ⟨fun _ => rfl, fun live hl ho => ?_, fun p hp _ => by rwa [hna]⟩
  obtain rfl : live = true := hl rfl
  by_cases hi : t.name = "w:ins"
  · -- an insertion without an author is not orderly
    rcases areOrderly_singleton.mp ho with how | ⟨hd, -⟩ | ⟨-, hs, -⟩
    · simp [isOwn, hno] at how
    · simp [isOwn, hno] at hd
    · have hh := hs.author hi
      rw [has_eq, hno] at hh
      cases hh
  by_cases hd : t.name = "w:del"
  · rw [areOrderly_singleton] at ho ⊢
    rw [told_singleton, told_singleton, toldOf_deletion hd, toldOf_deletion (hn.trans hd)]
    exact ⟨isOrderly_deletion (hn.trans hd) (areOrderly_of_deletion hd ho), rfl⟩
  · exact (.tag_of_ne hn hi hd : Stays true _ _).keeps true hl ho

/-! ## Deletions of the author -/

lemma told_plain : (ns : List Node) → (∀ p ∈ namesIn ns, p.2 ≠ "w:delText") → told live ns = told true ns
  | [], _ => rfl
  | .leaf m kind s :: ns, h => by simp only [told, toldOf, told_plain ns h]
  | .element m t cs :: ns, h => by
    have hs : namesIn (.element m t cs :: ns) = (m, t.name) :: namesIn cs ++ namesIn ns := by
      rw [← singleton_append, namesIn_append, namesIn_element]
    simp only [hs, cons_append, mem_cons, mem_append, forall_eq_or_imp] at h
    have hcs := told_plain cs fun p hp => h.2 p (.inl hp)
    simp only [told, toldOf, hcs, told_plain ns fun p hp => h.2 p (.inr hp), h.1, and_false]

lemma Gist.append_eq_empty {a b : Gist} : a ++ b = {} ↔ a = {} ∧ b = {} := by
  simp only [Gist.ext_iff, Gist.text_append, Gist.paragraphs_append, String.append_eq_empty_iff, append_eq_nil_iff]
  exact and_and_and_comm

open Gist

lemma told_nothing : (ns : List Node) → told true ns = {} → told live ns = {} ∧ (areOrderly true ns → areOrderly live ns)
  | [], _ => ⟨rfl, id⟩
  | .leaf m kind s :: ns, h => by
    obtain ⟨ht, ho⟩ := told_nothing ns h
    exact ⟨ht, fun h => ⟨trivial, ho h.2⟩⟩
  | .element m t cs :: ns, h => by
    obtain ⟨how, hns⟩ := append_eq_empty.mp h
    obtain ⟨ht, ho⟩ := told_nothing ns hns
    rw [told, ht, append_empty]
    rw [toldOf] at how ⊢
    split at how
    · rename_i hi
      exact ⟨if_pos hi, fun h => ⟨.inl hi, ho h.2⟩⟩
    · split at how
      · rename_i hi hd
        refine ⟨by rw [if_neg hi, if_pos hd, how], fun h => ⟨.inr (.inl ⟨hd, ?_⟩), ho h.2⟩⟩
        exact areOrderly_of_deletion (name_of_isOwn hd) h.1
      · rename_i hi hd
        obtain ⟨hs, hcs⟩ := append_eq_empty.mp how
        obtain ⟨hcsTold, hcsOrderly⟩ := told_nothing cs hcs
        have hsa := hcsTold.trans hcs.symm
        simp only [mk.injEq, ite_eq_right_iff, reduceCtorEq, true_and] at hs
        refine ⟨?_, fun h => ⟨?_, ho h.2⟩⟩
        · rw [if_neg hi, if_neg hd, ownGist, hcsTold, if_neg hs.2, append_empty]
          congr 1
          exact ite_eq_right_iff.mpr fun hn => hs.1 (hn.imp_right And.right)
        · rcases h.1 with how | ⟨how, -⟩ | ⟨hno, hso, hcsTrue⟩
          · exact absurd how hi
          · exact absurd how hd
          · exact .inr (.inr ⟨hno, ⟨hso.author, fun _ => hsa, fun _ _ => hsa, hso.properties⟩, hcsOrderly hcsTrue⟩)

/-- **What stands in a deletion of the author is told as before**, if nothing comes alive with it. -/
lemma Stays.delete (hn : n.isElement) (ht : isOwn "w:del" t)
    (hpl : ∀ live, told live [n] = told true [n]) (h : Stays true [n] ys) : Stays false [n] [.element w t ys] where
  lead post := by
    cases n with
    | leaf => cases hn
    | element => rfl
  keeps live _ ho := by
    obtain ⟨hys, hto⟩ := h.keeps true (fun _ => rfl) (orderly_true _ ho)
    have hi : isOwn "w:ins" t = false := isOwn_of_ne (by rw [name_of_isOwn ht]; decide)
    rw [areOrderly_singleton, hpl live, ← hto, told_singleton, toldOf]
    exact ⟨.inr (.inl ⟨ht, hys⟩), by simp [hi, ht]⟩
  names p hp hna := by
    rw [namesIn_element]
    exact .tail _ (h.names p hp hna)

lemma areOrderly_iff : areOrderly live xs ↔ ∀ n ∈ xs, isOrderly live n := by
  induction xs with
  | nil => simp [areOrderly]
  | cons x xs ih => simp [areOrderly, ih]

lemma mem_namesIn {p} : p ∈ namesIn xs ↔ ∃ n ∈ xs, p ∈ namesIn [n] := by
  induction xs with
  | nil => simp [namesIn, elementsOf]
  | cons x xs ih =>
    rw [← singleton_append, namesIn_append, mem_append, ih]
    simp

lemma told_filter {picks} (h : ∀ n ∈ xs, picks n = false → toldOf true n = {}) :
    told true (xs.filter (!picks ·)) = {} ∧ told true (xs.filter picks) = told true xs := by
  induction xs with
  | nil => exact ⟨rfl, rfl⟩
  | cons x xs ih =>
    obtain ⟨hl, hp⟩ := ih fun n hn => h n (.tail _ hn)
    cases hx : picks x with
    | true => simp [hx, told, hl, hp]
    | false => simp [hx, told, hl, hp, h x (.head _) hx]

lemma toldOf_properties (h : isOrderly true n) (hn : n.name = "w:pPr") : toldOf true n = {} := by
  cases n with
  | leaf => rfl
  | element m t cs =>
    have ht : t.name = "w:pPr" := hn
    rw [isOrderly_of_ne (by simp [ht]) (by simp [ht])] at h
    rw [toldOf_of_ne (by simp [ht]) (by simp [ht]), h.1.properties ht]
    simp [ownGist, ht]

/-- **What is put into a deletion inside of an element is told as before**, if nothing comes alive in it and nothing is told
of what stays outside. -/
lemma Stays.wrap {picks : Node → Bool} (hna : t.name = "w:ins" ∨ t.name = "w:p") (how : isOwn "w:del" t')
    (hs : ∀ live, IsSound live t xs → told live xs = told true xs) (h : Stays true xs ys)
    (hpicks : ∀ n, picks n = false → n.name = "w:pPr") (hr : Stays true (ys.filter picks) zs) :
    Stays false [.element m t xs] [.element m t (ys.filter (!picks ·) ++ [.element w t' zs])] where
  lead _ := rfl
  keeps live _ ho := by
    have hi' : isOwn "w:ins" t' = false := isOwn_of_ne (by rw [name_of_isOwn how]; decide)
    rw [areOrderly_singleton] at ho ⊢
    rw [told_singleton, told_singleton, toldOf, toldOf]
    rcases ho with hi | ⟨hd, -⟩ | ⟨hd, hx, hxs⟩
    · exact ⟨.inl hi, by simp [hi]⟩
    · rcases hna with hna | hna <;> rw [name_of_isOwn hd] at hna <;> simp at hna
    obtain ⟨hys, hto⟩ := h.keeps true (fun _ => rfl) (orderly_true _ hxs)
    have ha := areOrderly_iff.mp hys
    obtain ⟨hl, hpic⟩ := told_filter fun n hn hno => toldOf_properties (ha n hn) (hpicks n hno)
    obtain ⟨hzs, hzsTold⟩ := hr.keeps true (fun _ => rfl) (areOrderly_iff.mpr fun n hn => ha n (mem_filter.mp hn).1)
    have hle : areOrderly true (ys.filter (!picks ·)) := areOrderly_iff.mpr fun n hn => ha n (mem_filter.mp hn).1
    have hnew (live : Bool) : told live (ys.filter (!picks ·) ++ [.element w t' zs]) = told true xs := by
      rw [told_append, (told_nothing _ hl).1, told_singleton, toldOf]
      simp [hi', how, hzsTold, hpic, hto]
    refine ⟨.inr (.inr ⟨hd, ⟨hx.author, fun _ => (hnew live).trans (hnew true).symm, fun _ _ => (hnew live).trans (hnew true).symm,
      fun ht => ?_⟩, areOrderly_append.mpr ⟨(told_nothing _ hl).2 hle, areOrderly_singleton.mpr (.inr (.inl ⟨how, hzs⟩))⟩⟩), ?_⟩
    · rcases hna with hna | hna <;> rw [ht] at hna <;> simp at hna
    · rcases hna with hna | hna <;> simp [ownGist, hna, hnew, hs live hx]
  names p hp hne := by
    rw [namesIn_element] at hp ⊢
    rcases mem_cons.mp hp with rfl | hp
    · exact mem_cons_self ..
    obtain ⟨n, hn, hp⟩ := mem_namesIn.mp (h.names p hp hne)
    rw [namesIn_append, namesIn_element]
    cases hpi : picks n with
    | true =>
      have hz := hr.names p (mem_namesIn.mpr ⟨n, mem_filter.mpr ⟨hn, hpi⟩, hp⟩) hne
      exact .tail _ (mem_append_right _ (.tail _ hz))
    | false =>
      have hl : (!picks n) := by simp [hpi]
      exact .tail _ (mem_append_left _ (mem_namesIn.mpr ⟨n, mem_filter.mpr ⟨hn, hl⟩, hp⟩))

lemma Stays.restore (how : isOwn "w:ins" t') : Stays false [.element m t xs] [.element m t xs, .element w t' ys] where
  lead _ := rfl
  keeps live _ ho := by
    rw [areOrderly_singleton] at ho
    refine ⟨⟨ho, .inl how, trivial⟩, ?_⟩
    simp [told, toldOf, how]
  names p hp _ := by
    rw [← singleton_append, namesIn_append]
    exact mem_append_left _ hp

lemma Stays.put {e pre post} (ht : t.name = "w:pPr" ∨ t.name = "w:rPr") (hn : name = "w:rPr" ∨ name = "w:del") :
    Stays true [.element m t (pre ++ post)] [.element m t (pre ++ [.element e ⟨name, [], none⟩ []] ++ post)] := by
  have hne (live : Bool) : isOrderly live (.element e ⟨name, [], none⟩ []) ∧ toldOf live (.element e ⟨name, [], none⟩ []) = {} := by
    have how (x : String) : isOwn x ⟨name, [], none⟩ = false := by simp [isOwn, get?]
    refine ⟨.inr (.inr ⟨how _, ⟨fun h => ?_, fun _ => rfl, fun _ _ => rfl, fun _ => rfl⟩, trivial⟩), ?_⟩
    · rcases hn with rfl | rfl <;> simp at h
    · rcases hn with rfl | rfl <;> simp [toldOf, ownGist, told]
  refine .inner m t (fun h => ?_) (fun live _ ho => ?_) fun p hp _ => ?_
  · rcases ht with ht | ht <;> simp [ht] at h
  · rw [areOrderly_append] at ho
    simp only [areOrderly_append, areOrderly_singleton, told_append, told_singleton, hne live, append_empty]
    exact ⟨⟨⟨ho.1, trivial⟩, ho.2⟩, trivial⟩
  · simp only [namesIn_append, mem_append] at hp ⊢
    exact hp.imp_left .inl

end Sluice.Office
