import Mathlib.Tactic.Lemma
import Sluice.Office.Tracked

/-!
# Paragraphs that are suggested

The properties of a paragraph, and the look in them, are searched at any depth.
-/

namespace Sluice.Office.Edit

open List Dom Node

variable {name : String} {f : Node → Node} {cs : List Node} {n p : Node}

/-! ## What is found first -/

/-- What is found first by a name, if anything, is one of the nodes themselves. -/
def findsOwn (name : String) : List Node → Bool
  | [] => true
  | n :: ns => n.isNamed name || (n.name != name && (named name n.children).isEmpty && findsOwn name ns)

def changeOwn? (name : String) (f : Node → Node) : List Node → Option (List Node)
  | [] => none
  | n :: ns => if n.isNamed name then some (f n :: ns) else (changeOwn? name f ns).map (n :: ·)

lemma named_cons_eq_nil (h : named name (n :: cs) = []) :
    n.isNamed name = false ∧ named name n.children = [] ∧ named name cs = [] := by
  rw [named, elementsOf, filter_append, append_eq_nil_iff] at h
  cases n with
  | leaf => exact ⟨rfl, rfl, h.2⟩
  | element m t cs =>
    rw [elements, filter_cons] at h
    split at h
    · cases h.1
    · exact ⟨eq_false_of_ne_true ‹_›, h⟩

mutual

lemma changeInside?_eq_none : (n : Node) → named name n.children = [] → changeInside? name f n = none
  | .element m t cs, h => by rw [changeInside?, changeFirst?_eq_none cs h]; rfl
  | .leaf .., _ => rfl

lemma changeFirst?_eq_none : (cs : List Node) → named name cs = [] → changeFirst? name f cs = none
  | [], _ => rfl
  | n :: cs, h => by
    obtain ⟨hn, hi, hcs⟩ := named_cons_eq_nil h
    rw [changeFirst?, hn, changeInside?_eq_none n hi, changeFirst?_eq_none cs hcs]
    rfl

end

lemma findsOwn_cons (h : findsOwn name (n :: cs)) (hn : ¬n.isNamed name) :
    n.name ≠ name ∧ named name n.children = [] ∧ findsOwn name cs := by simpa [findsOwn, hn, and_assoc] using h

lemma changeFirst?_eq (h : findsOwn name cs) : changeFirst? name f cs = changeOwn? name f cs := by
  induction cs with
  | nil => rfl
  | cons n cs ih =>
    rw [changeFirst?, changeOwn?]
    split
    · rfl
    · obtain ⟨-, hi, hcs⟩ := findsOwn_cons h ‹_›
      rw [changeInside?_eq_none n hi, ih hcs]

/-- **A change of the one node of a name.** It is changed and the others are kept. -/
lemma changeOwn?_cases (hf : ∀ n, (f n).name = n.name) (h : findsOwn name cs) (hon : (cs.filter (·.name == name)).length ≤ 1) :
    (cs.find? (·.isNamed name) = none ∧ changeOwn? name f cs = none ∧ cs.filter (·.name == name) = []) ∨
    ∃ e ds, cs.find? (·.isNamed name) = some e ∧ changeOwn? name f cs = some ds ∧ ds.filter (·.name == name) = [f e] ∧
      ds.filter (·.name != name) = cs.filter (·.name != name) := by
  induction cs with
  | nil => exact .inl ⟨rfl, rfl, rfl⟩
  | cons n cs ih =>
    by_cases hn : n.isNamed name
    · have hna : n.name = name := by
        cases n with
        | element m t cs => exact eq_of_beq hn
        | leaf => cases hn
      rw [filter_cons_of_pos (by simp [hna]), length_cons] at hon
      have hr : cs.filter (·.name == name) = [] := eq_nil_of_length_eq_zero (by omega)
      exact .inr ⟨n, f n :: cs, by simp [hn], by simp [changeOwn?, hn], by simp [hf, hna, hr], by simp [hf, hna]⟩
    · obtain ⟨hna, -, hcs⟩ := findsOwn_cons h hn
      rw [filter_cons_of_neg (by simp [hna])] at hon ⊢
      rw [find?_cons_of_neg hn, changeOwn?, if_neg hn]
      rcases ih hcs hon with ⟨hfi, hc, hno⟩ | ⟨e, ds, hfi, hc, how, ho⟩
      · exact .inl ⟨hfi, by rw [hc]; rfl, hno⟩
      · exact .inr ⟨e, n :: ds, hfi, by rw [hc]; rfl, by simp [hna, how], by simp [hna, ho]⟩

/-! ## The paragraph -/

def propertiesIn (cs : List Node) : Node := (cs.find? (·.isNamed "w:pPr")).getD (made "w:pPr")

/-- **The paragraph as a whole**: its own properties with a marker in front in their own look, and one insertion of all
else. -/
def wholly (p : Node) : Node :=
  p.changeChildren fun cs =>
    [(propertiesIn cs).changeChildren fun ds => (changeOwn? "w:rPr" markLook ds).getD (ds ++ [markLook (made "w:rPr")]),
      made "w:ins" (cs.filter (·.name != "w:pPr"))]

/-- The properties are there once at most, and what is found first is they, and their own look. -/
def isPlain (cs : List Node) : Bool :=
  findsOwn "w:pPr" cs && (cs.filter (·.name == "w:pPr")).length ≤ 1 && findsOwn "w:rPr" (propertiesIn cs).children

lemma name_markProperties (n) : (markProperties n).name = n.name := by cases n <;> rfl

lemma markProperties_eq (h : findsOwn "w:rPr" n.children) : markProperties n = n.changeChildren fun ds =>
    (changeOwn? "w:rPr" markLook ds).getD (ds ++ [markLook (made "w:rPr")]) := by
  cases n with
  | element m t cs =>
    rw [children] at h
    rw [markProperties, Node.changeChildren, changeFirst?_eq h]
    rfl
  | leaf => rfl

lemma suggested_eq (h : isPlain p.children) : suggested p = wholly p := by
  cases p with
  | leaf => rfl
  | element m t cs =>
    replace h : isPlain cs := h
    simp only [isPlain, Bool.and_eq_true, decide_eq_true_eq] at h
    obtain ⟨⟨how, hon⟩, hl⟩ := h
    rw [suggested, wholly, Node.changeChildren, Node.changeChildren, ← markProperties_eq hl, changeFirst?_eq how]
    rcases changeOwn?_cases name_markProperties how hon with ⟨hf, hc, hn⟩ | ⟨e, ds, hf, hc, hds, ho⟩
    · have hna : (markProperties (made "w:pPr")).name = "w:pPr" := name_markProperties _
      simp [hf, hc, hna, hn, propertiesIn]
    · simp [hc, hds, ho, propertiesIn, hf]

/-- **A paragraph is suggested as a whole** if the properties and the look that are found first are its own. -/
theorem suggestParagraph_eq {xml : String} {roots rest : List Node} {next : Nat}
    (hread : read s!"<root xmlns:w=\"{wordSpace}\">{xml}</root>" 0 = .ok (roots, next))
    (hp : named "w:p" roots = p :: rest) (hplain : isPlain p.children) : suggestParagraph xml = .ok (wholly p).toMarkup := by
  rw [suggestParagraph, hread, ← suggested_eq hplain]
  show (match named "w:p" roots with | [] => _ | p :: _ => _) = _
  rw [hp]
  rfl

def boxed : String := "<w:p><w:pPr/><w:r><w:p><w:pPr/></w:p></w:r></w:p>"

/-- A paragraph around a box with another one, which is left as it is. -/
theorem suggestParagraph_boxed : ∃ p, (p.children.map (·.name)) = ["w:pPr", "w:r"] ∧
    suggestParagraph boxed = .ok (wholly p).toMarkup := by
  have hboxed : (read s!"<root xmlns:w=\"{wordSpace}\">{boxed}</root>" 0).toOption.any fun r =>
      (named "w:p" r.1).head?.any fun p => p.children.map (·.name) == ["w:pPr", "w:r"] && isPlain p.children := by decide +kernel
  cases hread : read s!"<root xmlns:w=\"{wordSpace}\">{boxed}</root>" 0 with
  | error f => rw [hread] at hboxed; cases hboxed
  | ok r =>
    cases hp : named "w:p" r.1 with
    | nil => simp [hread, hp, Except.toOption] at hboxed
    | cons p rest =>
      obtain ⟨hnames, hplain⟩ : p.children.map (·.name) = ["w:pPr", "w:r"] ∧ isPlain p.children := by
        simpa [hread, hp, Except.toOption] using hboxed
      exact ⟨p, hnames, suggestParagraph_eq hread hp hplain⟩

/-- Where only the one in the box has properties, it is that one that is marked. -/
theorem suggested_ne_wholly : ∃ p, p.name = "w:p" ∧ suggested p ≠ wholly p :=
  ⟨made "w:p" [made "w:r" [made "w:p" [made "w:pPr"]]], rfl, fun h => by cases congrArg (·.children.length) h⟩

end Sluice.Office.Edit
