import Mathlib.Tactic.Lemma
import Sluice.Office.Check.Redlining

/-!
# What the check of tracked changes reads

The live text is read in one walk (`told`): insertions of the author are passed over, and in their deletions deleted
text counts.
-/

namespace Sluice.Office

open Dom String
open Markup (Tree)

def leadText : List Node → String
  | .leaf _ .text s :: ns => s ++ leadText ns
  | .leaf _ .section s :: ns => s ++ leadText ns
  | .leaf _ _ _ :: ns => leadText ns
  | _ => ""

/-- A name in its namespace, where only the prefix of word processing stands for it. -/
def expandedName (name : String) : String :=
  match name.toList with
  | 'w' :: ':' :: r => wordName (ofList r)
  | _ => inSpace "" name

mutual

def treeOf (behind : List Node) : Node → List Tree
  | .element _ t cs => [.node (expandedName t.name) (t.attributes.map fun a => (expandedName a.name, a.value))
      (leadText cs) (leadText behind) (treesOf cs)]
  | .leaf .. => []

def treesOf : List Node → List Tree
  | [] => []
  | n :: ns => treeOf ns n ++ treesOf ns

end

lemma wordName_inj {a b} : wordName a = wordName b ↔ a = b := by
  refine ⟨fun h => ?_, congrArg wordName⟩
  rw [wordName, wordName, inSpace, inSpace, ← toList_inj] at h
  simp only [toList_append, List.append_assoc] at h
  exact toList_inj.mp (List.append_cancel_left (List.append_cancel_left (List.append_cancel_left h)))

lemma expandedName_eq_iff (name x) : expandedName name = wordName x ↔ name = "w:" ++ x := by
  have hsp : wordSpaceName.toList.head? = some 'h' := by decide
  have hw : ("w:" ++ x).toList = 'w' :: ':' :: x.toList := by simp
  unfold expandedName
  split
  · rename_i r hr
    rw [wordName_inj, ← toList_inj, ← toList_inj, hr]
    simp
  · rename_i hno
    refine ⟨fun h => ?_, fun h => absurd (h ▸ hw) (hno _)⟩
    -- the namespace of one name is empty, that of the other one is not
    rw [wordName, inSpace, inSpace, ← toList_inj] at h
    cases hs : wordSpaceName.toList with
    | nil => simp [hs] at hsp
    | cons c cs => simp_all

/-! ## What is read -/

@[ext] structure Gist where
  text : String := ""
  paragraphs : List String := []
deriving DecidableEq

namespace Gist

instance : Append Gist := ⟨fun a b => ⟨a.text ++ b.text, a.paragraphs ++ b.paragraphs⟩⟩

variable (a b c : Gist)

@[simp] lemma text_append : (a ++ b).text = a.text ++ b.text := rfl

@[simp] lemma paragraphs_append : (a ++ b).paragraphs = a.paragraphs ++ b.paragraphs := rfl

@[simp] lemma append_assoc : a ++ b ++ c = a ++ (b ++ c) := by ext1 <;> simp [String.append_assoc]

@[simp] lemma empty_append : ({} : Gist) ++ a = a := by ext1 <;> simp

@[simp] lemma append_empty : a ++ ({} : Gist) = a := by ext1 <;> simp

end Gist

def gistOf (ts : List Tree) : Gist where
  text := join (((treeAll ts).filter (·.tag == wordName "t")).map (·.text))
  paragraphs := ((treeAll ts).filter (·.tag == wordName "p")).map paragraphText

lemma treeAll_append (xs ys) : treeAll (xs ++ ys) = treeAll xs ++ treeAll ys := by
  induction xs with
  | nil => rfl
  | cons x xs ih => simp [treeAll, ih]

lemma gistOf_append (xs ys) : gistOf (xs ++ ys) = gistOf xs ++ gistOf ys := by ext1 <;> simp [gistOf, treeAll_append]

def ownGist (isText isParagraph : Prop) [Decidable isText] [Decidable isParagraph] (text : String) (inner : Gist) : Gist :=
  ⟨if isText then text else "", if isParagraph then [inner.text] else []⟩ ++ inner

lemma ownGist_congr {p q p' q'} [Decidable p] [Decidable q] [Decidable p'] [Decidable q'] (hp : p ↔ p')
    (hq : q ↔ q') (text inner) : ownGist p q text inner = ownGist p' q' text inner := by simp [hp, hq]

lemma gistOf_node (tag as text tail cs) :
    gistOf [.node tag as text tail cs] = ownGist (tag = wordName "t") (tag = wordName "p") text (gistOf cs) := by
  ext1
  · by_cases h : tag = wordName "t" <;> simp [gistOf, ownGist, treeAll, treeInside, Tree.tag, Tree.text, h]
  · by_cases h : tag = wordName "p"
    · subst h
      simp [gistOf, treeAll]
      rfl
    · simp [gistOf, ownGist, treeAll, treeInside, Tree.tag, h]

def isOwn (name : String) (t : Tag) : Bool := t.name == name && Attribute.get? t.attributes "w:author" == some reviser

mutual

/-- **What the check reads of a node.** Where deleted text is `live`, it counts as text. -/
def toldOf (live : Bool) : Node → Gist
  | .element _ t cs =>
    if isOwn "w:ins" t then {}
    else if isOwn "w:del" t then told true cs
    else ownGist (t.name = "w:t" ∨ live ∧ t.name = "w:delText") (t.name = "w:p") (leadText cs) (told live cs)
  | .leaf .. => {}

def told (live : Bool) : List Node → Gist
  | [] => {}
  | n :: ns => toldOf live n ++ told live ns

end

lemma isRevision_expanded (kind t) :
    isRevision kind (expandedName t.name) (t.attributes.map fun a => (expandedName a.name, a.value)) =
      isOwn ("w:" ++ kind) t := by
  have hn : (expandedName t.name == wordName kind) = (t.name == "w:" ++ kind) := by
    rw [Bool.eq_iff_iff, beq_iff_eq, beq_iff_eq, expandedName_eq_iff]
  have ha : ((fun x : String × String => x.1 == wordName "author") ∘ fun a : Attribute => (expandedName a.name, a.value)) =
      fun a => a.name == "w:author" := funext fun a => by
    rw [Function.comp, Bool.eq_iff_iff, beq_iff_eq, beq_iff_eq, expandedName_eq_iff]
    rfl
  rw [isRevision, isOwn, hn, List.find?_map, ha, Option.map_map]
  rfl

lemma gistOf_restored (live name as text tail ts) : gistOf [restored live (.node (expandedName name) as text tail ts)] =
      ownGist (name = "w:t" ∨ live ∧ name = "w:delText") (name = "w:p") text (gistOf (restoredAll live ts)) := by
  have ht : expandedName name = wordName "t" ↔ name = "w:t" := expandedName_eq_iff name "t"
  have hd : expandedName name = wordName "delText" ↔ name = "w:delText" := expandedName_eq_iff name "delText"
  have hp : expandedName name = wordName "p" ↔ name = "w:p" := expandedName_eq_iff name "p"
  rw [restored, gistOf_node]
  refine ownGist_congr ?_ ?_ _ _ <;> split <;> rename_i hl <;>
    simp only [Bool.and_eq_true, beq_iff_eq, hd] at hl
  · simp [hl]
  · rw [ht]
    exact ⟨.inl, fun h => h.resolve_right hl⟩
  · simp [hl, wordName_inj]
  · rw [hp]

lemma name_of_isOwn {name t} (h : isOwn name t) : t.name = name := by
  simp only [isOwn, Bool.and_eq_true, beq_iff_eq] at h
  exact h.1

/-- The trees of nodes, read where deleted text is live or not, or right inside of an opened deletion. -/
lemma gistOf_treesOf : (ns : List Node) →
    (∀ live, gistOf (restoredAll live (withoutInsertionsAll (treesOf ns))) = told live ns) ∧
      gistOf (restoredEach (withoutInsertionsAll (treesOf ns))) = told true ns
  | [] => ⟨fun _ => rfl, rfl⟩
  | .leaf m kind s :: ns => by
    have hl (live : Bool) : told live (.leaf m kind s :: ns) = told live ns := by simp [told, toldOf]
    simpa only [treesOf, treeOf, List.nil_append, hl] using gistOf_treesOf ns
  | .element m t cs :: ns => by
    obtain ⟨hcs, he⟩ := gistOf_treesOf cs
    obtain ⟨hns, hnsEach⟩ := gistOf_treesOf ns
    have hin : isRevision "ins" _ _ = isOwn "w:ins" t := isRevision_expanded "ins" t
    have hde : isRevision "del" _ _ = isOwn "w:del" t := isRevision_expanded "del" t
    have hc (x : Tree) (xs : List Tree) : gistOf (x :: xs) = gistOf [x] ++ gistOf xs := gistOf_append [x] xs
    simp only [treesOf, treeOf, List.singleton_append, withoutInsertionsAll, hin, told, toldOf]
    by_cases hi : isOwn "w:ins" t
    · simpa only [hi] using ⟨hns, hnsEach⟩
    · simp only [hi, Bool.false_eq_true, if_false, withoutInsertions, restoredAll, restoredEach, hde]
      by_cases hd : isOwn "w:del" t
      · have hn := name_of_isOwn hd
        simp only [hd, if_true, gistOf_append, he, hns]
        rw [hc, gistOf_restored, hcs, hnsEach, hn]
        simp [ownGist]
      · simp only [hd, Bool.false_eq_true, if_false]
        refine ⟨fun live => ?_, ?_⟩ <;> rw [hc, gistOf_restored, hcs]
        · rw [hns]
        · rw [hnsEach]
          exact congrArg (· ++ told true ns) (ownGist_congr (by simp) Iff.rfl _ _)

/-- The text that the check compares: that of the tree with the author's changes taken back. -/
def comparedText (root : Node) : Option String := (treesOf [root]).head?.map fun t => liveText (withdraw t)

/-- **The check compares what the walk tells.** -/
lemma comparedText_element (m t cs) : comparedText (.element m t cs) =
    some (Text.S.join "\n" ((told false cs).paragraphs.filter (· != ""))) := by
  rw [← (gistOf_treesOf cs).1 false]
  rfl

end Sluice.Office
