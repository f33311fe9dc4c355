import Mathlib.Tactic.SplitIfs
import Sluice.Markup.Document

/-!
# Tags that were written

Scanning a written tag ends right where it was written, as names and plain values do.
-/

namespace Sluice.Markup

open List

variable {α β : Type}

variable {closed : Bool} {c d : Char} {known : Known} {as : Pairs} {rest rest' : Chars} {fuel left : Nat}
  {name : String}

variable {x : Scanned α} {b : β}

lemma Scanned.map_eq_ok {f} (h : x.map f = .ok b rest) : ∃ a, x = .ok a rest ∧ f a = b := by
  cases x with
  | ok a r =>
    obtain ⟨hb, hr⟩ := Scanned.ok.inj h
    exact ⟨a, by rw [hr], hb⟩
  | invalid place => cases h
  | cut => cases h

lemma Scanned.bind_eq_ok {f} (h : x.bind f = .ok b rest) : ∃ a r, x = .ok a r ∧ f a r = .ok b rest := by
  cases x with
  | ok a r => exact ⟨a, r, rfl, h⟩
  | invalid place => cases h
  | cut => cases h

def isName : Chars → Bool
  | [] => false
  | c :: rest =>
    isNameStart c && (match nameTail true false rest with
        | .ok _ [] => true
        | _ => false)

lemma isName_cons : isName (c :: rest) ↔ isNameStart c ∧ ∃ tail, nameTail true false rest = .ok tail [] := by
  rw [isName, Bool.and_eq_true]
  refine and_congr_right fun _ => ⟨fun h => ?_, fun ⟨tail, h⟩ => by rw [h]⟩
  split at h
  · exact ⟨_, by assumption⟩
  · cases h

/-- Tails of names: characters of names, and one colon behind which a name starts anew. -/
lemma nameTail_induction {P : Bool → Chars → Prop} (hn : ∀ colon, P colon [])
    (hch : ∀ colon c rest, isNameChar c → P colon rest → P colon (c :: rest))
    (hco : ∀ e after, isNameStart e → P true after → P false (':' :: e :: after)) :
    ∀ (s : Chars) {colon : Bool} {tail : Chars}, nameTail true colon s = .ok tail [] → P colon s
  | [], colon, _, _ => hn colon
  | c :: rest, colon, tail, h => by
    rw [nameTail.eq_def] at h
    dsimp only at h
    split_ifs at h with hc hc' ho hco'
    · obtain ⟨t, ht, -⟩ := Scanned.map_eq_ok h
      exact hch colon c rest hc (nameTail_induction hn hch hco rest ht)
    · cases ho
    · obtain rfl : colon = false := by simpa using hco'
      subst hc'
      cases rest with
      | nil => cases h
      | cons e after =>
        dsimp only at h
        split_ifs at h with he
        obtain ⟨t, ht, -⟩ := Scanned.map_eq_ok h
        exact hco e after he (nameTail_induction hn hch hco after ht)
    · cases h

variable {colon : Bool} {tail : Chars}

lemma nameTail_stop (hd : isNameChar d = false) (hco : d ≠ ':') (more s : Chars) (h : nameTail true colon s = .ok tail []) :
    nameTail true colon (s ++ d :: more) = .ok s (d :: more) := by
  refine nameTail_induction (P := fun colon s => nameTail true colon (s ++ d :: more) = .ok s (d :: more))
    (fun colon => ?_) (fun colon c rest hc ih => ?_) (fun e a he ih => ?_) s h
  · rw [nameTail.eq_def]
    simp [hd, hco]
  · rw [cons_append, nameTail.eq_def]
    dsimp only
    rw [if_pos hc, ih]
    rfl
  · rw [nameTail.eq_def]
    simp [he, ih, show isNameChar ':' = false from rfl, Scanned.map]

def isBare (c : Char) : Bool := c != '&' && c != '<' && c != '"'

lemma unifyEnds_cons (hc : c ≠ '\r') (rest : Chars) : unifyEnds (c :: rest) = c :: unifyEnds rest := by
  rw [unifyEnds.eq_def]
  split <;> simp_all

def barePieces (v : Chars) : List Piece := if v.isEmpty then [] else [.data v]

/-- **A value is scanned up to its closing mark.** -/
lemma scanValue_bare {v run} (hv : v.all isBare) {acc pieces}
    (h : scanValue true '"' fuel (v ++ '"' :: rest) run acc = .ok pieces rest') :
    rest' = rest ∧ pieces = acc.reverse ++ barePieces (run.reverse ++ v) := by
  induction v generalizing fuel run with
  | nil =>
    cases fuel with
    | zero => cases h
    | succ fuel =>
      obtain ⟨hp, hr⟩ := Scanned.ok.inj h
      refine ⟨hr.symm, ?_⟩
      rw [← hp, barePieces]
      cases run <;> simp
  | cons c v ih =>
    rw [all_cons, Bool.and_eq_true] at hv
    have hc : c ≠ '"' ∧ c ≠ '<' ∧ c ≠ '&' := by
      have hb := hv.1
      simp only [isBare, Bool.and_eq_true, bne_iff_ne] at hb
      exact ⟨hb.2, hb.1.2, hb.1.1⟩
    cases fuel with
    | zero => cases h
    | succ fuel =>
      rw [cons_append, scanValue] at h
      simp only [hc, if_false] at h
      split at h
      · cases h
      · obtain ⟨hr, hp⟩ := ih hv.2 h
        refine ⟨hr, ?_⟩
        rw [hp, reverse_cons, List.append_assoc, singleton_append]

lemma resolve_barePieces {v s} (h : known.resolve true fuel [] (barePieces v) = .ok s) : s = blankSpaces v := by
  rw [barePieces] at h
  split at h
  · rename_i he
    rw [List.isEmpty_iff.mp he]
    cases fuel with
    | zero => cases h
    | succ fuel => exact (Except.ok.inj h).symm
  · match fuel, h with
    | 0, h => cases h
    | 1, h => cases h
    | fuel + 2, h =>
      simp [Known.resolve, bind, Except.bind, pure, Except.pure] at h
      exact h.symm

/-! ## Tags -/

lemma ne_of_isNameStart (hc : isNameStart c) (hd : isNameStart d = false) : c ≠ d := by
  rintro rfl
  rw [hc] at hd
  cases hd

lemma isSpace_of_isNameStart (hc : isNameStart c) : isSpace c = false := by
  have hb : c ≠ ' ' := ne_of_isNameStart hc rfl
  have ht : c ≠ '\t' := ne_of_isNameStart hc rfl
  have hl : c ≠ '\n' := ne_of_isNameStart hc rfl
  have hr : c ≠ '\r' := ne_of_isNameStart hc rfl
  simp [isSpace, hb, ht, hl, hr]

def attributeText (a : String × String) : Chars := a.1.toList ++ '=' :: '"' :: (a.2.toList ++ ['"'])

def tagEnd (closed : Bool) : Chars := if closed then ['/', '>'] else ['>']

def attributesText (as : Pairs) : Chars := as.flatMap (' ' :: attributeText ·)

def isBareAttribute (a : String × String) : Bool := isName a.1.toList && a.2.toList.all isBare

lemma head_tagEnd (closed) (rest : Chars) : ∃ d more, tagEnd closed ++ rest = d :: more ∧ (d = '/' ∨ d = '>') := by
  cases closed with
  | true => exact ⟨'/', '>' :: rest, rfl, .inl rfl⟩
  | false => exact ⟨'>', rest, rfl, .inr rfl⟩

lemma head_attributesText (as closed) (rest : Chars) :
    ∃ d more, attributesText as ++ (tagEnd closed ++ rest) = d :: more ∧ (isSpace d || d == '/' || d == '>') ∧
      isNameChar d = false ∧ d ≠ ':' := by
  cases as with
  | nil =>
    obtain ⟨d, more, h, hd⟩ := head_tagEnd closed rest
    refine ⟨d, more, h, ?_⟩
    rcases hd with rfl | rfl <;> exact ⟨rfl, rfl, by decide⟩
  | cons a as => exact ⟨' ', _, rfl, rfl, rfl, by decide⟩

lemma dropWhile_attributesText {a} (ha : isName a.1.toList) (as : Pairs) (s) :
    (attributesText (a :: as) ++ s).dropWhile isSpace = attributeText a ++ (attributesText as ++ s) := by
  rw [attributesText, flatMap_cons, List.append_assoc, cons_append, attributeText]
  cases hn : a.1.toList with
  | nil => rw [hn] at ha; cases ha
  | cons c tail =>
    rw [hn] at ha
    have hc : ¬ isSpace c := by simp [isSpace_of_isNameStart (isName_cons.mp ha).1]
    exact dropWhile_cons_of_neg hc

lemma scanAssign_written (s : Chars) : scanAssign ('=' :: '"' :: s) = .ok '"' s := rfl

def Scans (raws : List RawAttribute) (as : Pairs) : Prop :=
  raws.map (fun r => (r.name, r.value)) = as.map fun a => (a.1, barePieces a.2.toList)

/-- **The attributes of a tag are scanned up to its end.** -/
lemma scanAttributes_written (has : ∀ a ∈ as, isBareAttribute a) {acc tag}
    (h : scanAttributes true name fuel ((attributesText as ++ (tagEnd closed ++ rest)).dropWhile isSpace) acc = .ok tag rest') :
    rest' = rest ∧ ∃ raws, tag = ⟨name, acc.reverse ++ raws, closed⟩ ∧ Scans raws as := by
  induction as generalizing fuel acc with
  | nil =>
    cases fuel with
    | zero => cases h
    | succ fuel =>
      refine ⟨?_, [], ?_, rfl⟩
      · cases closed <;> cases h <;> rfl
      · cases closed <;> cases h <;> simp
  | cons a as ih =>
    obtain ⟨hb, hr⟩ := forall_mem_cons.mp has
    obtain ⟨ha, hv⟩ := Bool.and_eq_true_iff.mp hb
    cases fuel with
    | zero => cases h
    | succ fuel =>
      rw [dropWhile_attributesText ha, attributeText] at h
      cases hn : a.1.toList with
      | nil => rw [hn] at ha; cases ha
      | cons c tail =>
        rw [hn] at ha h
        obtain ⟨hs, t, ht⟩ := isName_cons.mp ha
        have he : c ≠ '>' := ne_of_isNameStart hs rfl
        have hsl : c ≠ '/' := ne_of_isNameStart hs rfl
        simp only [cons_append, List.append_assoc, nil_append] at h
        rw [scanAttributes.eq_def] at h
        dsimp only at h
        split at h
        · cases h
        · rename_i heq
          exact absurd (List.cons.inj heq).1 he
        · rename_i heq
          exact absurd (List.cons.inj heq).1 hsl
        · rename_i heq
          obtain ⟨rfl, rfl⟩ := List.cons.inj heq
          rw [if_pos (by rw [startsName, hs]; rfl), nameTail_stop rfl (by decide) _ tail ht, Scanned.bind,
            scanAssign_written, Scanned.bind] at h
          obtain ⟨_, _, hp, h⟩ := Scanned.bind_eq_ok h
          obtain ⟨rfl, rfl⟩ := scanValue_bare hv hp
          obtain ⟨d, _, hh, hst, -, -⟩ := head_attributesText as closed rest
          rw [hh] at h
          dsimp only at h
          rw [if_pos hst, ← hh] at h
          obtain ⟨hr', raws, hta, hra⟩ := ih hr h
          rw [reverse_cons, List.append_assoc, singleton_append] at hta
          refine ⟨hr', _, hta, ?_⟩
          rw [Scans, map_cons, hra, ← hn]
          simp

lemma scanContent_start (hc : isNameStart c) (s : Chars) :
    scanContent true ('<' :: c :: s) = (scanStartTag true (c :: s)).map .open := by
  have hb : c ≠ '!' := ne_of_isNameStart hc rfl
  have hq : c ≠ '?' := ne_of_isNameStart hc rfl
  have hs : c ≠ '/' := ne_of_isNameStart hc rfl
  simp [scanContent, startsName, hc]

/-- **A start tag is scanned up to its end.** There may be several blanks before its attributes. -/
lemma scanContent_open (hn : isName name.toList) (has : ∀ a ∈ as, isBareAttribute a) {more : Chars} {token}
    (hd : (isSpace d || d == '/' || d == '>'))
    (hm : (d :: more).dropWhile isSpace = (attributesText as ++ (tagEnd closed ++ rest)).dropWhile isSpace)
    (h : scanContent true ('<' :: (name.toList ++ d :: more)) = .ok token rest') :
    rest' = rest ∧ ∃ raws, token = .open ⟨name, raws, closed⟩ ∧ Scans raws as := by
  cases hc : name.toList with
  | nil => rw [hc] at hn; cases hn
  | cons c tail =>
    rw [hc] at hn h
    obtain ⟨hs, t, ht⟩ := isName_cons.mp hn
    have hno : isNameChar d = false ∧ d ≠ ':' := by
      simp only [isSpace, Bool.or_eq_true, beq_iff_eq] at hd
      rcases hd with ((((rfl | rfl) | rfl) | rfl) | rfl) | rfl <;> exact ⟨rfl, by decide⟩
    rw [cons_append, scanContent_start hs, scanStartTag.eq_def] at h
    dsimp only at h
    rw [nameTail_stop hno.1 hno.2 _ tail ht, Scanned.bind] at h
    obtain ⟨_, hta, rfl⟩ := Scanned.map_eq_ok h
    dsimp only at hta
    rw [if_pos hd, hm] at hta
    obtain ⟨hr, raws, rfl, hra⟩ := scanAttributes_written has hta
    refine ⟨hr, raws, ?_, hra⟩
    rw [← hc, String.ofList_toList]
    rfl

/-! ## The events of tags -/

def readPairs (as : Pairs) : Pairs := as.map fun a => (a.1, String.ofList (blankSpaces a.2.toList))

def declaredPairs (as : Pairs) : Pairs := (readPairs as).filterMap fun a => (declaredPrefix? a.1).map (·, a.2)

def plainPairs (as : Pairs) : Pairs := (readPairs as).filter fun a => (declaredPrefix? a.1).isNone

variable {raws : List RawAttribute}

lemma attributeValues_bare (hk : known.attributes = []) {tag} (hr : Scans raws as)
    {acc values} (h : attributeValues {} known tag left raws acc = .ok values) : values = acc.reverse ++ readPairs as := by
  induction raws generalizing acc as with
  | nil =>
    obtain rfl : as = [] := map_eq_nil_iff.mp hr.symm
    rw [attributeValues, hk] at h
    exact (Except.ok.inj h).symm
  | cons r raws ih =>
    obtain ⟨a, as, rfl, ha, hre⟩ := map_eq_cons_iff.mp hr.symm
    obtain ⟨hn, hv⟩ := Prod.mk.inj ha
    rw [attributeValues, hk, ← hv] at h
    split at h
    · cases h
    · split at h
      · cases h
      · rename_i s hs
        have hst : attributeValues {} known tag left raws ((r.name, String.ofList s) :: acc) = .ok values := by
          simp only [if_true] at h
          split at h
          · split at h
            · cases h
            · exact h
          · exact h
        rw [ih hre.symm hst, resolve_barePieces hs, ← hn]
        simp [readPairs]

lemma resolveAttributes_ok {spaces plain acc attributes} (h : resolveAttributes spaces left plain acc = .ok attributes) :
    attributes = acc.reverse ++ plain.map fun (n, v) => (⟨n, (prefixOf? n).bind (meaning? spaces)⟩, v) := by
  induction plain generalizing acc with
  | nil => simpa [resolveAttributes] using h.symm
  | cons a plain ih =>
    rw [resolveAttributes] at h
    split at h
    · rename_i hn
      rw [ih h]
      simp [hn]
    · rename_i p hs
      split at h
      · cases h
      · rename_i u hu
        dsimp only at h
        split at h
        · cases h
        · rw [ih h]
          simp [hs, hu]

/-- **The event of a start tag** tells its name and the attributes that declare nothing. -/
def IsStart (e : Event) (name : String) (as : Pairs) (left : Nat) : Prop :=
  ∃ (own : Option String) (space : String → Option String),
    e = .start ⟨name, own⟩ ((plainPairs as).map fun (n, v) => (⟨n, space n⟩, v)) (declaredPairs as) left

lemma openTag_bare (hk : known.attributes = []) {outer} (hra : Scans raws as) {event element}
    (h : openTag {} known outer ⟨name, raws, closed⟩ left = .ok (event, element)) :
    IsStart event name as left ∧ element.written = name := by
  cases hv : attributeValues {} known ⟨name, raws, closed⟩ left raws [] with
  | error e =>
    rw [openTag, hv] at h
    cases h
  | ok v =>
    obtain rfl : v = readPairs as := attributeValues_bare hk hra hv
    rw [openTag, hv] at h
    change (resolveAttributes ((declaredPairs as).reverse ++ outer) left (plainPairs as) [] >>= _) = _ at h
    cases hr : resolveAttributes ((declaredPairs as).reverse ++ outer) left (plainPairs as) [] with
    | error e =>
      rw [hr] at h
      cases h
    | ok attributes =>
      obtain rfl := resolveAttributes_ok hr
      rw [hr] at h
      cases hp : prefixOf? name with
      | none =>
        simp only [hp] at h
        cases h
        exact ⟨⟨_, fun n => (prefixOf? n).bind (meaning? _), rfl⟩, rfl⟩
      | some p =>
        simp only [hp] at h
        split at h
        · cases h
          exact ⟨⟨_, fun n => (prefixOf? n).bind (meaning? _), rfl⟩, rfl⟩
        · cases h

end Sluice.Markup
