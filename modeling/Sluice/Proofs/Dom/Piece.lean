import Sluice.Dom.Node
import Sluice.Proofs.Markup.Tags

/-!
# Pieces of markup

A piece of markup is read inside an element that declares prefixes, an empty element with the values that were written.
-/

namespace Sluice.Dom

open List Text

open Markup (Event OpenElement Known buildNodes contentEvents scanContent openTag isSpace isName isBareAttribute
  attributesText attributeText tagEnd readPairs declaredPairs plainPairs declaredPrefix?)

variable {attributes : List Attribute} {text : Chars} {name : String}

/-! ## Events -/

section Events

variable {known : Known} {stack : List OpenElement} {acc : List Event} {fuel : Nat} {r : List Event × Chars}

/-- Goes on behind a token, unless the root element was closed. -/
def proceed (known : Known) (fuel : Nat) (text : Chars) (stack : List OpenElement) (acc : List Event) :
    Except Markup.Malformed (List Event × Chars) :=
  if stack.isEmpty then .ok (acc, text) else contentEvents {} known fuel [⟨text, 0, none⟩] stack acc

lemma exists_token (hne : text ≠ []) (h : contentEvents {} known fuel [⟨text, 0, none⟩] stack acc = .ok r) :
    ∃ k token rest, fuel = k + 1 ∧ scanContent true text = .ok token rest := by
  cases fuel with
  | zero => cases h
  | succ k =>
    cases hs : scanContent true text with
    | ok token rest => exact ⟨k, token, rest, rfl, rfl⟩
    | invalid place =>
      rw [contentEvents] at h
      simp [hne, hs] at h
    | cut =>
      rw [contentEvents] at h
      simp [hne, hs] at h

variable {rest : Chars}

lemma exists_event {tag} (hne : text ≠ []) (hs : scanContent true text = .ok (.open tag) rest)
    (h : contentEvents {} known (fuel + 1) [⟨text, 0, none⟩] stack acc = .ok r) :
    ∃ left event element, openTag {} known ((stack.head?.map (·.spaces)).getD []) tag left = .ok (event, element) ∧
      (if tag.closed then proceed known fuel rest stack (.finish :: event :: acc)
        else proceed known fuel rest (element :: stack) (event :: acc)) = .ok r := by
  rw [contentEvents] at h
  simp only [List.isEmpty_iff, hne, hs, getLast?_nil] at h
  cases ho : openTag {} known ((stack.head?.map (·.spaces)).getD []) tag text.length with
  | error e =>
    rw [ho] at h
    cases h
  | ok found =>
    rw [ho] at h
    refine ⟨text.length, found.1, found.2, ho, ?_⟩
    rw [← h]
    simp only [proceed, List.isEmpty_iff]
    split <;> rfl

/-- **A written start tag is read** as an event, whether it also ends the element or not. -/
lemma exists_start {as} (hk : known.attributes = [])
    (hn : isName name.toList) (has : ∀ a ∈ as, isBareAttribute a) (closed) {d}
    {after more : Chars} (hd : (isSpace d || d == '/' || d == '>'))
    (ha : (d :: after).dropWhile isSpace = (attributesText as ++ (tagEnd closed ++ more)).dropWhile isSpace)
    (h : contentEvents {} known fuel [⟨'<' :: (name.toList ++ d :: after), 0, none⟩] stack acc = .ok r) :
    ∃ k e spaces, (∃ left, Markup.IsStart e name as left) ∧ (if closed then proceed known k more stack (.finish :: e :: acc)
      else proceed known k more (⟨name, spaces⟩ :: stack) (e :: acc)) = .ok r := by
  obtain ⟨k, _, _, rfl, hs⟩ := exists_token (cons_ne_nil _ _) h
  obtain ⟨rfl, _, rfl, hr⟩ := Markup.scanContent_open hn has hd ha hs
  obtain ⟨left, _, element, he, hgo⟩ := exists_event (cons_ne_nil _ _) hs h
  obtain ⟨hst, rfl⟩ := Markup.openTag_bare hk hr he
  exact ⟨k, _, element.spaces, ⟨left, hst⟩, hgo⟩

end Events

/-! ## Documents -/

def Aside (e : Event) : Prop := (∃ s, e = .comment s) ∨ ∃ target s, e = .instruction target s

lemma asides_of_tailEvents {fuel s acc es}
    (h : Markup.tailEvents true fuel s acc = .ok es) : ∃ more, es = more ++ acc ∧ ∀ e ∈ more, Aside e := by
  induction fuel generalizing s acc with
  | zero => exact ⟨[], (Except.ok.inj h).symm, fun e he => by cases he⟩
  | succ fuel ih =>
    have hgo : ∀ {e s}, Aside e → Markup.tailEvents true fuel s (e :: acc) = .ok es →
        ∃ more, es = more ++ acc ∧ ∀ e ∈ more, Aside e := by
      intro e s he h
      obtain ⟨more, rfl, hm⟩ := ih h
      refine ⟨more ++ [e], by simp, fun x hx => ?_⟩
      rcases mem_append.mp hx with hx | hx
      · exact hm x hx
      · rw [mem_singleton.mp hx]
        exact he
    rw [Markup.tailEvents] at h
    split at h
    · exact ⟨[], (Except.ok.inj h).symm, fun e he => by cases he⟩
    · split at h
      · exact hgo (.inl ⟨_, rfl⟩) h
      · exact hgo (.inr ⟨_, _, rfl⟩) h
      all_goals cases h

/-- Nodes that stand beside the root element change nothing about those before them. -/
lemma buildNodes_asides {es} (h : ∀ e ∈ es, Aside e) (top) : ∃ nodes, buildNodes es top [] = top.reverse ++ nodes := by
  induction es generalizing top with
  | nil => exact ⟨[], by rw [append_nil]; rfl⟩
  | cons e es ih =>
    obtain ⟨he, hr⟩ := forall_mem_cons.mp h
    have hgo : ∀ n : Markup.Node, ∃ nodes, buildNodes es (n :: top) [] = top.reverse ++ nodes := by
      intro n
      obtain ⟨nodes, hb⟩ := ih hr (n :: top)
      exact ⟨n :: nodes, by rw [hb, reverse_cons, List.append_assoc]; rfl⟩
    rcases he with ⟨s, rfl⟩ | ⟨_, s, rfl⟩
    · exact hgo _
    · exact hgo _

lemma exists_content_of_headEvents {known whole fuel typed evs} (hr : ∃ c s, text = '<' :: c :: s ∧ Markup.isNameStart c)
    (h : Markup.headEvents {} whole fuel known typed text [] = .ok evs) :
    ∃ k acc rest more, contentEvents {} known k [⟨text, 0, none⟩] [] [] = .ok (acc, rest) ∧
      evs = more ++ acc ∧ ∀ e ∈ more, Aside e := by
  obtain ⟨c, s, rfl, hc⟩ := hr
  cases fuel with
  | zero => cases h
  | succ fuel =>
    have hh : Markup.scanHead true ('<' :: c :: s) = .ok .root ('<' :: c :: s) := by
      have hb : c ≠ '!' := Markup.ne_of_isNameStart hc rfl
      have hq : c ≠ '?' := Markup.ne_of_isNameStart hc rfl
      have hs : (c.isAlpha || c == '_' || decide (c.toNat ≥ 128)) := by
        rw [Markup.isNameStart] at hc
        split at hc
        · rw [hc]; rfl
        · have hle : c.toNat ≥ 128 := Nat.le_of_not_lt (by assumption)
          simp [hle]
      simp [Markup.scanHead, hs]
    have hn : Markup.nextHead true ('<' :: c :: s) = .ok (.root, '<' :: c :: s, ('<' :: c :: s).length) := by
      rw [Markup.nextHead, dropWhile_cons_of_neg (by decide), hh]
      rfl
    rw [Markup.headEvents, hn] at h
    cases hco : contentEvents {} known (100 * ('<' :: c :: s).length + 1000) [⟨'<' :: c :: s, 0, none⟩] [] [] with
    | error e =>
      change (contentEvents {} known _ _ [] [] >>= _) = _ at h
      rw [hco] at h
      cases h
    | ok found =>
      change (contentEvents {} known _ _ [] [] >>= _) = _ at h
      rw [hco] at h
      obtain ⟨more, hm, ha⟩ := asides_of_tailEvents (show Markup.tailEvents true _ found.2 found.1 = _ from h)
      exact ⟨_, found.1, found.2, more, hco, hm, ha⟩

/-! ## Pieces -/

def Attribute.isPlain (a : Attribute) : Bool := isBareAttribute (a.name, a.value)

def pairsOf (attributes : List Attribute) : Pairs := attributes.map fun a => (a.name, a.value)

lemma isBareAttribute_pairsOf (h : ∀ a ∈ attributes, a.isPlain) : ∀ a ∈ pairsOf attributes, isBareAttribute a := by
  intro a ha
  obtain ⟨b, hb, rfl⟩ := mem_map.mp ha
  exact h b hb

/-- A piece of markup inside an element that declares what prefixes mean in it. -/
def wrapped (attributes : List Attribute) (xml : String) : String :=
  "<root " ++ S.join " " (attributes.map fun a => a.name ++ "=\"" ++ a.value ++ "\"") ++ ">" ++ xml ++ "</root>"

lemma join_attributeTexts (a) (as : Pairs) :
    ' ' :: join [' '] ((a :: as).map attributeText) = attributesText (a :: as) := by
  induction as generalizing a with
  | nil => simp [join, attributesText]
  | cons b as ih =>
    have hj := ih b
    rw [map_cons, map_cons, join, ← map_cons, List.append_assoc, singleton_append, hj]
    rfl

lemma toList_wrapped (attributes xml) : (wrapped attributes xml).toList = '<' :: ("root".toList ++ ' ' ::
      (join [' '] ((pairsOf attributes).map attributeText) ++ '>' ::
        (xml.toList ++ '<' :: '/' :: ("root".toList ++ ['>'])))) := by
  have ht : (attributes.map fun a => a.name ++ "=\"" ++ a.value ++ "\"").map String.toList =
      (pairsOf attributes).map attributeText := by
    rw [map_map, pairsOf, map_map]
    exact map_congr_left fun a _ => by simp [attributeText]
  rw [wrapped, S.join, ht]
  simp

def emptyElement (name : String) (attributes : List Attribute) : String :=
  "<" ++ name ++ String.join (attributes.map fun a => " " ++ a.name ++ "=\"" ++ a.value ++ "\"") ++ "/>"

lemma toList_emptyElement (name attributes) : (emptyElement name attributes).toList =
      '<' :: (name.toList ++ (attributesText (pairsOf attributes) ++ tagEnd true)) := by
  have ht : (String.join (attributes.map fun a => " " ++ a.name ++ "=\"" ++ a.value ++ "\"")).toList =
      attributesText (pairsOf attributes) := by
    induction attributes with
    | nil => rfl
    | cons a as ih =>
      rw [map_cons, String.join_cons, String.toList_append, ih]
      simp [pairsOf, attributesText, attributeText]
  simp [emptyElement, ht, tagEnd]

lemma buildNodes_entry {more} (hm : ∀ e ∈ more, Aside e) (n1 n2)
    (as1 as2 : List (Markup.Name × String)) (ds1 ds2 left1 left2) :
    ∃ rest, buildNodes (.start n1 as1 ds1 left1 :: .start n2 as2 ds2 left2 :: .finish :: .finish :: more) [] [] =
      .element n1 as1 ds1 left1 [.element n2 as2 ds2 left2 []] :: rest := by
  obtain ⟨rest, hr⟩ := buildNodes_asides hm [.element n1 as1 ds1 left1 [.element n2 as2 ds2 left2 []]]
  exact ⟨rest, hr⟩

variable {spaces : List Attribute} {xml : String}

lemma nodesOf_wrapped (hs : ∀ a ∈ spaces, a.isPlain) (hna : isName name.toList)
    (ha : ∀ a ∈ attributes, a.isPlain) (hxm : xml = emptyElement name attributes)
    {nodes} (h : Markup.nodesOf {} (wrapped spaces xml).toList = .ok nodes) :
    ∃ (own : Option String) (space : String → Option String), ∃ around os ds left place rest, nodes =
      .element around os ds left [.element ⟨name, own⟩ ((plainPairs (pairsOf attributes)).map fun (n, v) => (⟨n, space n⟩, v))
        (declaredPairs (pairsOf attributes)) place []] :: rest := by
  have ht : isName "root".toList := by decide
  have haf : ∀ m, (' ' :: (join [' '] ((pairsOf spaces).map attributeText) ++ '>' :: m)).dropWhile isSpace =
      (attributesText (pairsOf spaces) ++ (tagEnd false ++ m)).dropWhile isSpace := by
    intro m
    cases pairsOf spaces with
    | nil => rfl
    | cons a as => rw [← cons_append, join_attributeTexts]; rfl
  have hr : ∀ m, ∃ c s, '<' :: ("root".toList ++ m) = '<' :: c :: s ∧ Markup.isNameStart c := fun m =>
    ⟨'r', 'o' :: 'o' :: 't' :: m, rfl, rfl⟩
  have hm : ∀ s, Markup.dropMark ('<' :: s) = '<' :: s := fun s => rfl
  rw [Markup.nodesOf, Markup.events, toList_wrapped, hxm, toList_emptyElement, hm] at h
  cases hh : Markup.headEvents {} _ _ {} false ('<' :: ("root".toList ++ ' ' ::
      (join [' '] ((pairsOf spaces).map attributeText) ++ '>' ::
        ('<' :: (name.toList ++ (attributesText (pairsOf attributes) ++ tagEnd true)) ++
          '<' :: '/' :: ("root".toList ++ ['>']))))) [] with
  | error e =>
    rw [hh] at h
    cases h
  | ok evs =>
    rw [hh] at h
    obtain ⟨k, _, rest, m, hc, rfl, hmo⟩ := exists_content_of_headEvents (hr _) hh
    obtain ⟨k, e1, s1, ⟨left, own, space, rfl⟩, hgo⟩ :=
      exists_start rfl ht (isBareAttribute_pairsOf hs) false (by decide) (haf _) hc
    obtain ⟨d, _, hd, hst, -, -⟩ := Markup.head_attributesText (pairsOf attributes) true
      ('<' :: '/' :: ("root".toList ++ ['>']))
    simp only [cons_append, List.append_assoc] at hgo
    rw [hd] at hgo
    obtain ⟨k, e, s2, he, hgo⟩ := exists_start rfl hna (isBareAttribute_pairsOf ha) true hst (by rw [hd]) hgo
    obtain ⟨k, -, -, rfl, -⟩ := exists_token (cons_ne_nil _ _) hgo
    obtain ⟨rfl, -⟩ := Prod.mk.inj (Except.ok.inj hgo)
    obtain ⟨left', own', space', rfl⟩ := he
    have hn := Except.ok.inj h
    rw [reverse_append] at hn
    obtain ⟨p, hp⟩ := buildNodes_entry (fun x (hx : x ∈ m.reverse) => hmo x (mem_reverse.mp hx)) _ _ _ _ _ _ _ _
    exact ⟨own', space', _, _, _, left, left', p, hn.symm.trans hp⟩

def reread (s : String) : String := String.ofList (Markup.blankSpaces s.toList)

lemma get_map {g} (hn : ∀ a, (g a).name = a.name) (hv : ∀ a, (g a).value = reread a.value)
    (as key) : Attribute.get (as.map g) key = reread (Attribute.get as key) := by
  rw [Attribute.get, Attribute.get, Attribute.get?, Attribute.get?]
  induction as with
  | nil => rfl
  | cons a as ih =>
    rw [map_cons, find?_cons, find?_cons, hn]
    cases a.name == key with
    | true => exact hv a
    | false => exact ih

lemma exists_entry {next after roots} (hs : ∀ a ∈ spaces, a.isPlain) (hna : Markup.isName name.toList)
    (hat : ∀ a ∈ attributes, a.isPlain ∧ Markup.declaredPrefix? a.name = none) (hx : xml = emptyElement name attributes)
    (h : read (wrapped spaces xml) next = .ok (roots, after)) :
    ∃ t, ((roots.find? (·.isElement)).map (·.children)).getD [] = [.element (next + 1) t []] ∧ t.name = name ∧
      ∀ key, Attribute.get t.attributes key = reread (Attribute.get attributes key) := by
  rw [read] at h
  cases hn : Markup.nodesOf {} (wrapped spaces xml).toList with
  | error e =>
    rw [hn] at h
    cases h
  | ok n =>
    obtain ⟨_, s, _, _, _, _, _, _, rfl⟩ := nodesOf_wrapped hs hna (fun a ha => (hat a ha).1) hx hn
    rw [hn] at h
    rw [← (Prod.mk.inj (Except.ok.inj h)).1]
    refine ⟨_, rfl, rfl, fun key => ?_⟩
    -- nothing is declared, so that all attributes are read
    have hno : ∀ a ∈ readPairs (pairsOf attributes), declaredPrefix? a.1 = none := by
      intro a ha
      obtain ⟨b, hb, rfl⟩ := mem_map.mp ha
      obtain ⟨c, hc, rfl⟩ := mem_map.mp hb
      exact (hat c hc).2
    have hd : declaredPairs (pairsOf attributes) = [] := filterMap_eq_nil_iff.mpr fun a ha => by rw [hno a ha]; rfl
    have hf : plainPairs (pairsOf attributes) = readPairs (pairsOf attributes) :=
      filter_eq_self.mpr fun a ha => by rw [hno a ha]; rfl
    rw [hd, hf, readPairs, pairsOf, map_map, map_map, map_map]
    exact get_map (g := fun a => ⟨a.name, s a.name, reread a.value⟩) (fun _ => rfl) (fun _ => rfl) attributes key

end Sluice.Dom
