import Sluice.Office.Package
import Sluice.Proofs.Text.Split

/-!
# Formatting is taken out again

To write a tree in lines is to write a tree with more texts as it stands (`render_inLines`). Condensing takes these out
again (`areLoose`).
-/

namespace Sluice.Office

open List Dom Text Node
open Layout (inLines plain)

variable {cs : List Node} {n : Node}

/-! ## Trees in lines -/

def isInline : List Node → Bool
  | [] => true
  | [.leaf _ .text _] => true
  | [.leaf _ .section _] => true
  | _ => false

mutual

def laid (indent : String) : Node → List Node
  | .element m t cs =>
    [.leaf 0 .text indent, .element m t (if isInline cs then cs
      else .leaf 0 .text "\n" :: (laidAll (indent ++ "  ") cs ++ [.leaf 0 .text indent])), .leaf 0 .text "\n"]
  | .leaf m .text s => [.leaf m .text (indent ++ s ++ "\n")]
  | .leaf m .section s => [.leaf m .section s]
  | .leaf m kind s => [.leaf 0 .text indent, .leaf m kind s, .leaf 0 .text "\n"]

def laidAll (indent : String) : List Node → List Node
  | [] => []
  | n :: ns => laid indent n ++ laidAll indent ns

end

variable (roots : List Node)

/-- **The tree that is written when a document is put in lines.** -/
def laidOut : List Node := .leaf 0 .text "\n" :: laidAll "" roots

lemma escape_append (a b) : escape (a ++ b) = escape a ++ escape b := by simp [escape, S.referred]

lemma writeAllAt_append (l indent xs ys) :
    writeAllAt l indent (xs ++ ys) = writeAllAt l indent xs ++ writeAllAt l indent ys := by
  induction xs with
  | nil => simp [writeAllAt]
  | cons x xs ih => simp [writeAllAt, ih, String.append_assoc]

variable (m : Nat) (t : Tag)

lemma writeAt_plain (h : cs ≠ []) :
    (element m t cs).writeAt .plain "" = "<" ++ t.name ++ writeAttributes t.attributes ++ ">" ++
      writeAllAt .plain "" cs ++ "</" ++ t.name ++ ">" := by
  rw [writeAt.eq_def, ← String.toList_inj]
  dsimp only
  split
  · exact absurd rfl h
  all_goals simp [plain, writeAllAt, writeAt]

lemma writeAt_inLines (cs indent) :
    (element m t cs).writeAt .inLines indent = indent ++ (if isInline cs then (element m t cs).writeAt .plain ""
      else "<" ++ t.name ++ writeAttributes t.attributes ++ ">" ++
        ("\n" ++ (writeAllAt .inLines (indent ++ "  ") cs ++ indent)) ++ "</" ++ t.name ++ ">") ++ "\n" := by
  rw [writeAt.eq_def, ← String.toList_inj]
  dsimp only
  split
  · simp [isInline, writeAt, inLines, plain]
  · simp [isInline, writeAt, inLines, plain]
  · simp [isInline, writeAt, inLines, plain]
  · rename_i c cs ht hs
    have hl : isInline (c :: cs) = false := by
      rw [isInline.eq_def]
      split
      · cases ‹c :: cs = []›
      · exact absurd ‹c :: cs = _› (by simpa using ht _ _)
      · exact absurd ‹c :: cs = _› (by simpa using hs _ _)
      · rfl
    simp [hl, inLines]

variable (s : String)

lemma writeAt_text : (leaf m .text s).writeAt .plain "" = escape s := by simp [writeAt, plain]

lemma escape_feed : escape "\n" = "\n" := rfl

mutual

/-- **A node is written in lines** as the laid out tree is written as it stands. -/
lemma writeAt_laid {indent : String} (h : escape indent = indent) :
    (n : Node) → n.writeAt .inLines indent = writeAllAt .plain "" (laid indent n)
  | .element m t cs => by
    rw [writeAt_inLines, laid]
    split
    · simp [writeAllAt, writeAt_text, h, escape_feed, String.append_assoc]
    · rw [writeAllAt_laid (by rw [escape_append, h]; rfl) cs]
      simp [writeAllAt, writeAt_plain _ _ (cons_ne_nil _ _), writeAllAt_append, writeAt_text, h, escape_feed,
        String.append_assoc]
  | .leaf m .text s => by simp [laid, writeAllAt, writeAt, inLines, plain]
  | .leaf m .section s => by simp [laid, writeAllAt, writeAt]
  | .leaf m .comment s => by
    simp only [laid, writeAllAt, writeAt_text, h, escape_feed]
    simp [writeAt, inLines, plain, String.append_assoc]
  | .leaf m (.instruction target) s => by
    simp only [laid, writeAllAt, writeAt_text, h, escape_feed]
    simp [writeAt, inLines, plain, String.append_assoc]

lemma writeAllAt_laid {indent : String} (h : escape indent = indent) :
    (ns : List Node) → writeAllAt .inLines indent ns = writeAllAt .plain "" (laidAll indent ns)
  | [] => rfl
  | n :: ns => by rw [writeAllAt, laidAll, writeAllAt_append, writeAt_laid h n, writeAllAt_laid h ns]

end

lemma writeAllAt_laidOut : inLines.lineEnd ++ writeAllAt .inLines "" roots =
    plain.lineEnd ++ writeAllAt .plain "" (laidOut roots) := by
  rw [writeAllAt_laid (by decide) roots, laidOut, writeAllAt, writeAt_text, escape_feed]
  simp [inLines, plain]

/-- **A document is put in lines** by writing more texts. -/
lemma render_inLines (encoding roots) : render .inLines encoding roots = render .plain encoding (laidOut roots) := by
  unfold render
  rw [String.append_assoc, writeAllAt_laidOut, ← String.append_assoc]

def textLeaf : List Node := if s = "" then [] else [.leaf 0 .text s]

mutual

/-- A node as it is read again: without a mark, and with its texts joined. -/
def settled : Node → Node
  | .element _ t cs => .element 0 t (joined "" cs)
  | .leaf _ kind s => .leaf 0 kind s

def joined : String → List Node → List Node
  | t, [] => textLeaf t
  | t, .leaf _ .text s :: ns => joined (t ++ s) ns
  | t, n :: ns => textLeaf t ++ settled n :: joined "" ns

end

/-- A document as it is read again. Texts beside the root element are lost. -/
def settledAll : List Node := (roots.filter (!·.isText)).map settled

mutual

def unmarked : Node → Node
  | .element _ t cs => .element 0 t (unmarkedAll cs)
  | .leaf _ kind s => .leaf 0 kind s

def unmarkedAll : List Node → List Node
  | [] => []
  | n :: ns => unmarked n :: unmarkedAll ns

end

variable (ns : List Node)

lemma unmarkedAll_eq : unmarkedAll ns = ns.map unmarked := by
  induction ns with
  | nil => rfl
  | cons n ns ih => rw [unmarkedAll, ih, map_cons]

lemma condenseAll_eq : condenseAll ns = ns.map condense := by
  induction ns with
  | nil => rfl
  | cons n ns ih => rw [condenseAll, ih, map_cons]

lemma isFormatting_condense (n) : isFormatting (condense n) = isFormatting n := by cases n <;> rfl

def bare (n : Node) : Node := unmarked (condense n)

lemma bare_element (cs) : bare (.element m t cs) =
    .element 0 t ((if holdsText t.name then cs else cs.filter (!isFormatting ·)).map bare) := by
  have hc : unmarked ∘ condense = bare := rfl
  have hk : ((fun c => !isFormatting c) ∘ condense) = fun c => !isFormatting c :=
    funext fun c => by simp [isFormatting_condense]
  rw [bare, condense, unmarked, unmarkedAll_eq, condenseAll_eq]
  split <;> simp [filter_map, hc, hk]

lemma bare_leaf (m kind s) : bare (.leaf m kind s) = .leaf 0 kind s := rfl

/-! ## Texts between nodes -/

def isVoid : Bool := s.toList.all isBlank

lemma isVoid_append {a b} (ha : isVoid a) (hb : isVoid b) : isVoid (a ++ b) := by simp_all [isVoid]

def isGap : Node → Bool
  | .leaf _ .text s => isVoid s
  | _ => true

def isSolid (n : Node) : Bool := !n.isText && !isFormatting n

lemma isFormatting_of_isVoid {s} (h : isVoid s) (hs : s ≠ "") : isFormatting (.leaf m .text s) := by
  have hb : S.strip s = "" := S.strip_eq_empty (by simpa [isVoid] using h)
  simp [isFormatting, hb, hs]

lemma isGap_of_not_isText (h : n.isText = false) : isGap n := by
  unfold isGap
  split
  · cases h
  · rfl

lemma isGap_of_isFormatting (h : isFormatting n) : isGap n := by
  unfold isFormatting at h
  split at h
  · rename_i m s
    have hs : trim isBlank s.toList = [] := by
      have he := congrArg String.toList (eq_of_beq (Bool.and_eq_true_iff.mp h).2)
      simpa [S.strip, strip] using he
    rcases trimLeft_eq_nil_or (p := isBlank) s.toList with hl | ⟨c, r, hco, hc⟩
    · exact all_eq_true.mpr (trimLeft_eq_nil_iff.mp hl)
    · -- the first character that is not blank would stay
      rw [trim, hco] at hs
      have ha := rdropWhile_eq_nil_iff.mp hs c (.head _)
      exact absurd ha (by simp [hc])
  · rfl
  · cases h

lemma textLeaf_dropped {t} (h : isVoid t) : (textLeaf t).filter (!isFormatting ·) = [] := by
  unfold textLeaf
  split
  · rfl
  · rename_i ht
    simp [isFormatting_of_isVoid 0 h ht]

lemma isFormatting_settled (n) : isFormatting (settled n) = isFormatting n := by
  rcases n with _ | ⟨_, kind, _⟩ <;> [rfl; (cases kind <;> rfl)]

/-- **What is kept of nodes that are read again.** Between them there are blanks only. -/
lemma kept_joined {ns} (hns : ∀ n ∈ ns, isGap n) {t} (ht : isVoid t) :
    (joined t ns).filter (!isFormatting ·) = (ns.filter isSolid).map settled := by
  induction ns generalizing t with
  | nil => rw [joined, textLeaf_dropped ht]; rfl
  | cons n ns ih =>
    have hr : ∀ n ∈ ns, isGap n := fun m hm => hns m (.tail _ hm)
    have hn : isGap n := hns n (.head _)
    by_cases hte : n.isText
    · obtain ⟨m, s, rfl⟩ : ∃ m s, n = .leaf m .text s := by
        unfold isText at hte
        split at hte
        · exact ⟨_, _, rfl⟩
        · cases hte
      rw [joined, ih hr (isVoid_append ht hn), filter_cons_of_neg (by simp [isSolid, hte])]
    · have hj : joined t (n :: ns) = textLeaf t ++ settled n :: joined "" ns := by
        cases n with
        | element m t cs => rw [joined]; simp
        | leaf m kind s => cases kind <;> first | (simp [isText] at hte; done) | (rw [joined]; simp)
      rw [hj, filter_append, textLeaf_dropped ht, filter_cons, filter_cons, isFormatting_settled, ih hr rfl]
      have hs : isSolid n = !isFormatting n := by simp [isSolid, hte]
      rw [hs]
      split <;> simp

/-! ## Loose trees -/

mutual

def isLoose : Node → Bool
  | .element _ t cs => match cs with
    | [] => true
    | [.leaf _ .text s] => s != ""
    | cs => !holdsText t.name && cs.all (fun c => !c.isText || isFormatting c) && areLoose cs
  | .leaf _ .text _ => true
  | .leaf _ .comment _ => true
  | .leaf _ _ _ => false

def areLoose : List Node → Bool
  | [] => true
  | n :: ns => isLoose n && areLoose ns

end

lemma isGap_laid {indent} (h : isVoid indent) (hn : isGap n) : ∀ c ∈ laid indent n, isGap c := by
  have hf : isVoid "\n" = true := by decide
  cases n with
  | element m t cs => rw [laid]; simp [isGap, h, hf]
  | leaf m kind s =>
    cases kind with
    | text =>
      have hs := isVoid_append (isVoid_append h hn) hf
      simpa [laid, isGap] using hs
    | _ => simp [laid, isGap, h, hf]

lemma isGap_laidAll {indent} (h : isVoid indent) {ns} (hns : ∀ n ∈ ns, isGap n) : ∀ c ∈ laidAll indent ns, isGap c := by
  induction ns with
  | nil => simp [laidAll]
  | cons n ns ih =>
    intro c hc
    rcases mem_append.mp hc with hc | hc
    · exact isGap_laid h (hns n (.head _)) c hc
    · exact ih (fun m hm => hns m (.tail _ hm)) c hc

lemma kept_eq_solid (h : ∀ c ∈ cs, (!c.isText || isFormatting c)) : cs.filter (!isFormatting ·) = cs.filter isSolid := by
  refine filter_congr fun c hc => ?_
  have hc' := h c hc
  cases hf : isFormatting c <;> simp_all [isSolid]

lemma isLoose_lines {m t} (hl : ¬isInline cs) (h : isLoose (.element m t cs)) : holdsText t.name = false ∧
      (∀ c ∈ cs, (!c.isText || isFormatting c)) ∧ areLoose cs := by
  rw [isLoose.eq_def] at h
  dsimp only at h
  split at h
  · exact absurd rfl hl
  · exact absurd rfl hl
  · simp only [Bool.and_eq_true, Bool.not_eq_true', all_eq_true] at h
    exact ⟨h.1.1, h.1.2, h.2⟩

lemma bare_settled_inline : (cs : List Node) → isInline cs →
    isLoose (.element m t cs) → bare (settled (.element m t cs)) = bare (.element m t cs)
  | [], _, _ => by rw [settled]; rfl
  | [.leaf k .text s], _, hl => by
    have hs : s ≠ "" := by simpa [isLoose] using hl
    have ho : joined "" [.leaf k .text s] = [.leaf 0 .text s] := by simp [joined, textLeaf, hs]
    rw [settled, ho, bare_element, bare_element]
    split
    · simp [bare_leaf]
    · simp only [filter_cons, isFormatting]
      split <;> simp [bare_leaf]
  | [.leaf k .section s], _, hl => by simp [isLoose, areLoose] at hl

mutual

/-- **A node that was put in lines is condensed as it was**: if it is kept, then with the same nodes in it. -/
lemma bare_laid {indent : String} (h : isVoid indent) : (n : Node) → isLoose n →
    ((laid indent n).filter isSolid).map (fun c => bare (settled c)) = ([n].filter isSolid).map bare
  | .element m t cs, hl => by
    have hs (cs : List Node) : isSolid (.element m t cs) := rfl
    have hga (s : String) : isSolid (.leaf 0 .text s) = false := rfl
    rw [laid]
    simp only [filter_cons, hs, hga, if_true, Bool.false_eq_true, if_false, map_cons]
    congr 1
    split
    · rename_i hlin
      exact bare_settled_inline m t cs hlin hl
    · rename_i hli
      have hi : isVoid (indent ++ "  ") := isVoid_append h (by decide)
      obtain ⟨hn, ht, hcs⟩ := isLoose_lines hli hl
      have hg : ∀ c ∈ cs, isGap c := fun c hc => by
        rcases Bool.or_eq_true_iff.mp (ht c hc) with hte | hf
        · exact isGap_of_not_isText (by simpa using hte)
        · exact isGap_of_isFormatting hf
      have hin : ∀ c ∈ .leaf 0 .text "\n" :: (laidAll (indent ++ "  ") cs ++ [.leaf 0 .text indent]), isGap c := by
        simp only [mem_cons, mem_append, not_mem_nil, or_false]
        rintro c (rfl | hc | rfl)
        · exact (by decide : isVoid "\n" = true)
        · exact isGap_laidAll hi hg c hc
        · exact h
      rw [settled, bare_element, bare_element, hn, if_neg Bool.false_ne_true, if_neg Bool.false_ne_true,
        kept_joined hin rfl, kept_eq_solid ht, ← bare_laidAll hi cs hcs, map_map]
      simp only [filter_cons, filter_append, filter_nil, hga, Bool.false_eq_true, if_false, append_nil]
      rfl
  | .leaf m .text s, _ => rfl
  | .leaf m .comment s, _ => rfl
  | .leaf m .section s, hl => by simp [isLoose] at hl
  | .leaf m (.instruction target) s, hl => by simp [isLoose] at hl

lemma bare_laidAll {indent : String} (h : isVoid indent) : (ns : List Node) → areLoose ns →
    ((laidAll indent ns).filter isSolid).map (fun c => bare (settled c)) = (ns.filter isSolid).map bare
  | [], _ => rfl
  | n :: ns, hl => by
    obtain ⟨hn, hns⟩ := Bool.and_eq_true_iff.mp hl
    rw [laidAll, filter_append, map_append, bare_laid h n hn, bare_laidAll h ns hns, ← map_append,
      ← filter_append, singleton_append]

end

/-! ## Documents -/

def IsReadAs (text : String) (roots : List Node) : Prop :=
  ∃ r next, read text 0 = .ok (r, next) ∧ unmarkedAll r = settledAll roots

lemma isFormatting_unmarked (n) : isFormatting (unmarked n) = isFormatting n := by
  rcases n with _ | ⟨_, kind, _⟩ <;> [rfl; (cases kind <;> rfl)]

mutual

lemma bare_unmarked : (n : Node) → bare (unmarked n) = bare n
  | .element m t cs => by
    rw [unmarked, bare_element, bare_element]
    congr 1
    split
    · simpa using bare_unmarkedAll (p := fun _ => true) (fun _ => rfl) cs
    · exact bare_unmarkedAll (fun n => by rw [isFormatting_unmarked]) cs
  | .leaf m kind s => by rw [unmarked, bare_leaf, bare_leaf]

lemma bare_unmarkedAll {p : Node → Bool} (hp : ∀ n, p (unmarked n) = p n) : (ns : List Node) →
    ((unmarkedAll ns).filter p).map bare = (ns.filter p).map bare
  | [] => rfl
  | n :: ns => by
    rw [unmarkedAll, filter_cons, filter_cons, hp]
    split
    · rw [map_cons, map_cons, bare_unmarked n, bare_unmarkedAll hp ns]
    · exact bare_unmarkedAll hp ns

end

lemma map_bare_unmarked : (unmarkedAll ns).map bare = ns.map bare := by
  simpa using bare_unmarkedAll (p := fun _ => true) (fun _ => rfl) ns

lemma unmarked_condenseAll : unmarkedAll (condenseAll ns) = ns.map bare := by
  rw [unmarkedAll_eq, condenseAll_eq, map_map]
  rfl

mutual

lemma writeAt_unmarked : (n : Node) → (unmarked n).writeAt .plain "" = n.writeAt .plain ""
  | .element m t [] => by rw [unmarked, unmarkedAll, writeAt, writeAt]
  | .element m t (c :: cs) => by
    rw [unmarked, unmarkedAll, writeAt_plain _ _ (cons_ne_nil _ _), writeAt_plain _ _ (cons_ne_nil _ _),
      writeAllAt, writeAllAt, writeAt_unmarked c, writeAllAt_unmarked cs]
  | .leaf m kind s => by cases kind <;> rw [unmarked, writeAt, writeAt]

lemma writeAllAt_unmarked : (ns : List Node) → writeAllAt .plain "" (unmarkedAll ns) = writeAllAt .plain "" ns
  | [] => rfl
  | n :: ns => by rw [unmarkedAll, writeAllAt, writeAllAt, writeAt_unmarked n, writeAllAt_unmarked ns]

end

lemma render_congr {encoding xs ys} (h : unmarkedAll xs = unmarkedAll ys) :
    render .plain encoding xs = render .plain encoding ys := by
  unfold render
  rw [← writeAllAt_unmarked xs, h, writeAllAt_unmarked]

lemma bare_root (ht : n.isText = false) (hl : isLoose n) :
    ((laid "" n).filter (!·.isText)).map (fun c => bare (settled c)) = [bare n] := by
  cases n with
  | element m t cs =>
    have hv : isVoid "" = true := rfl
    have hla := bare_laid hv (.element m t cs) hl
    exact hla
  | leaf m kind s =>
    cases kind with
    | text => simp [isText] at ht
    | comment => simp [laid, isText, settled, bare_leaf]
    | _ => simp [isLoose] at hl

lemma bare_roots {roots} (ht : ∀ n ∈ roots, n.isText = false) (hl : areLoose roots) :
    (settledAll (laidOut roots)).map bare = roots.map bare := by
  have hf : (leaf 0 .text "\n").isText := rfl
  rw [settledAll, laidOut, filter_cons_of_neg (by simp [hf]), map_map]
  induction roots with
  | nil => rfl
  | cons n ns ih =>
    obtain ⟨hn, hns⟩ := Bool.and_eq_true_iff.mp hl
    rw [laidAll, filter_append, map_append, ih (fun m hm => ht m (.tail _ hm)) hns]
    exact congrArg (· ++ ns.map bare) (bare_root (ht n (.head _)) hn)

/-- **Unpacking and packing a part changes only formatting.** The document is a tree of elements, texts and comments with
no text beside other nodes but blanks, and the markup of the laid out tree is read as that tree. Then what is written in
lines is read as a document that is condensed as the first one, and packing writes the same text for both. -/
theorem condensed_inLines {roots : List Node} (htext : ∀ n ∈ roots, n.isText = false) (hloose : areLoose roots = true)
    (hread : IsReadAs (toAscii (render .plain "ascii" (laidOut roots))) (laidOut roots)) :
    (∃ r next, read (toAscii (render .inLines "ascii" roots)) 0 = .ok (r, next) ∧
      unmarkedAll (condenseAll r) = unmarkedAll (condenseAll roots)) ∧
    ∀ text next, read text 0 = .ok (roots, next) → ∃ out, formatText text = .ok out ∧ condenseText out = condenseText text := by
  obtain ⟨r, next, hr, hsettled⟩ := hread
  rw [← render_inLines] at hr
  have hsame : unmarkedAll (condenseAll r) = unmarkedAll (condenseAll roots) := by
    rw [unmarked_condenseAll, ← map_bare_unmarked, hsettled, bare_roots htext hloose, unmarked_condenseAll]
  refine ⟨⟨r, next, hr, hsame⟩, fun text k htree => ⟨toAscii (render .inLines "ascii" roots), ?_, ?_⟩⟩
  · rw [formatText, htree]
    rfl
  · rw [condenseText, condenseText, hr, htree]
    exact congrArg Except.ok (render_congr hsame)

lemma toList_toAscii : (toAscii s).toList = s.toList.flatMap fun c =>
    if c.toNat < 128 then [c] else ['&', '#'] ++ Number.natText c.toNat ++ [';'] := by
  rw [toAscii, String.toList_join, List.flatMap_map]
  congr 1
  funext c
  split <;> simp

def slip : List Node :=
  [.element 1 ⟨"a:p", [⟨"xmlns:a", some Markup.xmlnsSpace, "u"⟩], none⟩
    [.leaf 2 .text " ", .element 3 ⟨"a:t", [], none⟩ [.leaf 4 .text "é "]]]

set_option maxRecDepth 4000 in
lemma slip_read : IsReadAs (toAscii (render .plain "ascii" (laidOut slip))) (laidOut slip) := by
  have hr : render .plain "ascii" (laidOut slip) =
      "<?xml version=\"1.0\" encoding=\"ascii\"?>\n<a:p xmlns:a=\"u\">\n   \n  <a:t>é </a:t>\n</a:p>\n" := by
    unfold render
    simp [slip, laidOut, laidAll, laid, isInline, writeAllAt, writeAt, plain, escape, S.referred, lookup_cons, writeAttributes]
  have ha : toAscii (render .plain "ascii" (laidOut slip)) =
      "<?xml version=\"1.0\" encoding=\"ascii\"?>\n<a:p xmlns:a=\"u\">\n   \n  <a:t>&#233; </a:t>\n</a:p>\n" := by
    refine String.toList_inj.mp ?_
    rw [hr, toList_toAscii, toList_eq rfl, toList_eq rfl]
    rfl
  refine ⟨[.element 0 ⟨"a:p", [⟨"xmlns:a", some Markup.xmlnsSpace, "u"⟩], none⟩
    [.leaf 1 .text "\n   \n  ", .element 2 ⟨"a:t", [], none⟩ [.leaf 3 .text "é "], .leaf 4 .text "\n"]], 5, ?_, ?_⟩
  · rw [ha]
    unfold Dom.read
    rw [toList_eq rfl]
    rfl
  · simp [slip, laidOut, laidAll, laid, isInline, settledAll, settled, joined, textLeaf, unmarkedAll, unmarked, isText]

/-- The paragraph is condensed as it was after it was put in lines. -/
theorem slip_condensed : ∃ r next, Dom.read (toAscii (render .inLines "ascii" slip)) 0 = .ok (r, next) ∧
    unmarkedAll (condenseAll r) = unmarkedAll (condenseAll slip) :=
  (condensed_inLines (by simp [slip, isText]) (by decide) slip_read).1

/-! ## Texts that packing keeps -/

lemma elementsOf_dropped (ns) : elementsOf (ns.filter (!isFormatting ·)) = elementsOf ns := by
  induction ns with
  | nil => rfl
  | cons n ns ih =>
    rw [filter_cons, elementsOf]
    split
    · rw [elementsOf, ih]
    · -- formatting has no elements in it
      have hl : n.elements = [] := by
        cases n with
        | element m t cs => simp [isFormatting] at *
        | leaf m kind s => rfl
      rw [ih, hl, nil_append]

mutual

lemma elements_condense : (n : Node) → (condense n).elements = n.elements.map condense
  | .element m t cs => by
    have hcs := elementsOf_condenseAll cs
    rw [elements, map_cons, ← hcs, condense]
    split
    · rw [elements]
    · rw [elements, elementsOf_dropped]
  | .leaf m kind s => by rw [elements]; rfl

/-- **Packing keeps the elements of a document**, each condensed. -/
lemma elementsOf_condenseAll : (ns : List Node) → elementsOf (condenseAll ns) = (elementsOf ns).map condense
  | [] => rfl
  | n :: ns => by rw [condenseAll, elementsOf, elementsOf, map_append, elements_condense n, elementsOf_condenseAll ns]

end

/-- The names of elements whose texts are part of the document. -/
def textNames : List String := ["w:t", "w:delText", "w:instrText", "a:t", "t"]

/-- **Packing keeps the texts**: an element for text that holds just one is still there with it. -/
def KeepsTexts (roots : List Node) : Prop := ∀ (i m k : Nat) (t : Tag) (s : String), t.name ∈ textNames →
  (elementsOf roots)[i]? = some (.element m t [.leaf k .text s]) →
    (elementsOf (condenseAll roots))[i]? = some (.element m t [.leaf k .text s])

lemma condense_eq_self_iff (m k t s) : condense (.element m t [.leaf k .text s]) =
    .element m t [.leaf k .text s] ↔ holdsText t.name ∨ s = "" ∨ S.strip s ≠ "" := by
  rw [condense, condenseAll, condenseAll, condense]
  by_cases hs : s = "" <;> by_cases hb : S.strip s = "" <;> simp_all [isFormatting]

/-- **When packing keeps all texts.** A blank text is kept only in an element whose name has `t` behind a prefix. -/
theorem texts_kept_iff (roots : List Node) : KeepsTexts roots ↔
    ∀ e ∈ elementsOf roots, e.name ∈ ["w:delText", "w:instrText", "t"] →
      ∀ k s, e.children = [.leaf k .text s] → s = "" ∨ S.strip s ≠ "" := by
  constructor
  · intro hkeeps e he hname k s hcs
    obtain ⟨i, hi⟩ := mem_iff_getElem?.mp he
    cases e with
    | leaf => cases hcs
    | element m t cs =>
      obtain rfl : cs = [.leaf k .text s] := hcs
      have hnames : ∀ name ∈ ["w:delText", "w:instrText", "t"], name ∈ textNames ∧ holdsText name = false := by decide
      obtain ⟨hmem, hother⟩ := hnames t.name hname
      have hkept := hkeeps i m k t s hmem hi
      rw [elementsOf_condenseAll, getElem?_map, hi, Option.map_some, Option.some_inj, condense_eq_self_iff] at hkept
      exact hkept.resolve_left (by simp [hother])
  · intro hsolid i m k t s hname hi
    have hnames : ∀ name ∈ textNames, holdsText name ∨ name ∈ ["w:delText", "w:instrText", "t"] := by decide
    rw [elementsOf_condenseAll, getElem?_map, hi, Option.map_some, Option.some_inj, condense_eq_self_iff]
    exact (hnames t.name hname).imp_right fun hother => hsolid _ (mem_of_getElem? hi) hother k s rfl

/-- A blank that was deleted under tracking is lost. -/
theorem not_keepsTexts_deleted : ¬ KeepsTexts [.element 0 ⟨"w:delText", [], none⟩ [.leaf 1 .text " "]] := by
  intro hkeeps
  have hlost := hkeeps 0 0 1 ⟨"w:delText", [], none⟩ " " (by decide) rfl
  rw [elementsOf_condenseAll] at hlost
  exact absurd ((condense_eq_self_iff ..).mp (Option.some.inj hlost)) (by decide)

end Sluice.Office
