import Sluice.Markdown.FrontMatter
import Sluice.Proofs.Text.Split
import Sluice.Proofs.Yaml.Written

/-!
# Where metadata ends

A page is taken apart at the first two lines of dashes. These are the ones it was written with, because no line of
written metadata is like them.
-/

namespace Sluice.Markdown

open List Text Yaml Option Page
open String (ofList toList_ofList)

variable {fields : Fields} {head rest s : Chars} {text : String} {entries : List (Value × Datum)}

/-! ## Boundaries -/

def rule : Chars := ['-', '-', '-']

lemma dashesEnd?_of_not_dashes (h : ¬ rule <+: s) : dashesEnd? s = none := by
  have hs : s.length < (s.dropWhile (· == '-')).length + 3 := by
    match s with
    | [] | [_] | [_, _] => simp
    | a :: b :: c :: s =>
      by_cases ha : a = '-'
      · by_cases hb : b = '-'
        · have hc : c ≠ '-' := by
            rintro rfl
            exact h ⟨s, by rw [ha, hb]; rfl⟩
          simp [ha, hb, hc]
        · simp [ha, hb]
      · simp [ha]
  exact if_pos hs

lemma dashesEnd?_of_mark {a} (ha : '\n' ∉ a) {m} (hd : m ≠ '-')
    (hbl : isBlank m = false) (b : Chars) : dashesEnd? (a ++ m :: b) = none := by
  have haf : (a ++ m :: b).dropWhile (· == '-') = a.dropWhile (· == '-') ++ m :: b :=
    trimLeft_around (by simpa using hd) a b
  have ha' : '\n' ∉ a.dropWhile (· == '-') := fun hm => ha (dropWhile_subset _ hm)
  rw [dashesEnd?]
  simp only [haf]
  generalize a.dropWhile (· == '-') = front at ha'
  split
  · rfl
  · -- the blanks end on the line of the dashes, before the mark
    have hb := takeWhile_around hbl front b
    have hl : (front ++ m :: b).drop (front.takeWhile isBlank).length ≠ [] := by
      have hle := ( takeWhile_prefix isBlank (l := front)).length_le
      intro hn
      have := congrArg List.length hn
      simp only [length_drop, length_append, length_cons, length_nil] at this
      omega
    have hli : (front.takeWhile isBlank).reverse.takeWhile (· != '\n') = (front.takeWhile isBlank).reverse := by
      rw [takeWhile_eq_self_iff]
      intro c hc
      have hne : c ≠ '\n' := fun he => ha' (he ▸ takeWhile_subset _ (mem_reverse.mp hc))
      simpa using hne
    simp [hb, marginLength, hl, hli]

lemma dashesEnd?_rule (blank after) (hbl : blank.all isBlank)
    (ha : ∀ c ∈ after.head?, isBlank c = false) (hd : (blank ++ after).head? ≠ some '-') :
    dashesEnd? (rule ++ (blank ++ after)) = (marginLength blank after).map fun n => (blank ++ after).drop n := by
  have hda : (rule ++ (blank ++ after)).dropWhile (· == '-') = blank ++ after := by
    rw [dropWhile_append_of_pos (by simp [rule])]
    generalize blank ++ after = s at hd
    cases s with
    | nil => rfl
    | cons c s =>
      have hc : c ≠ '-' := by simpa using hd
      simp [hc]
  have hb : (blank ++ after).takeWhile isBlank = blank := by
    rw [takeWhile_append_of_pos (all_eq_true.mp hbl)]
    cases after with
    | nil => simp
    | cons c after => simp [ha c rfl]
  rw [dashesEnd?]
  simp only [hda, hb]
  simp [rule]

lemma rule_prefix_of_append {u : Chars} (h : rule <+: s ++ '\n' :: u) : rule <+: s := by
  match s with
  | [] | [_] | [_, _] => simp [rule] at h
  | a :: b :: c :: s =>
    simp only [rule, cons_append, cons_prefix_cons] at h
    obtain ⟨rfl, rfl, rfl, -⟩ := h
    exact ⟨s, rfl⟩

/-- **The text up to the next rule**, if no line of it is one. -/
lemma cutAt_dashes {after} (hr : dashesEnd? (rule ++ rest) = some after)
    (hl : ∀ a b, s = a ++ '\n' :: b → ¬ rule <+: b) (lineStart : Bool)
    (hf : lineStart → dashesEnd? (s ++ '\n' :: (rule ++ rest)) = none) :
    cutAt dashesEnd? lineStart (s ++ '\n' :: (rule ++ rest)) = some (s ++ ['\n'], after) := by
  have hc {c : Char} {u : Chars} {lineStart : Bool} (h : lineStart → dashesEnd? (c :: u) = none) :
      cutAt dashesEnd? lineStart (c :: u) = (cutAt dashesEnd? (c == '\n') u).map fun p => (c :: p.1, p.2) := by
    cases lineStart with
    | true => simp [cutAt, h]
    | false => simp [cutAt]
  induction s generalizing lineStart with
  | nil =>
    have he : cutAt dashesEnd? true (rule ++ rest) = some ([], after) := by
      have hr : dashesEnd? ('-' :: '-' :: '-' :: rest) = some after := hr
      simp [rule, cutAt, hr]
    rw [nil_append] at hf ⊢
    rw [hc hf]
    exact congrArg (Option.map _) he
  | cons c s ih =>
    rw [cons_append] at hf ⊢
    rw [hc hf, ih]
    · rfl
    · intro a b hs
      exact hl (c :: a) b (by rw [hs, cons_append])
    · intro hb
      obtain rfl : c = '\n' := by simpa using hb
      exact dashesEnd?_of_not_dashes fun h => hl [] s rfl (rule_prefix_of_append h)

/-! ## Written pages -/

def behindRule (content : Chars) : Chars := if content = [] then [] else '\n' :: '\n' :: content

lemma toList_render {content} (hco : strip content.toList = content.toList) : (Page.render ⟨fields, content⟩).toList =
      rule ++ '\n' :: ((S.strip (Yaml.render fields)).toList ++ '\n' :: (rule ++ behindRule content.toList)) := by
  have ht : (Page.render ⟨fields, content⟩).toList = strip
      (rule ++ '\n' :: ((S.strip (Yaml.render fields)).toList ++
        '\n' :: (rule ++ '\n' :: '\n' :: (content.toList ++ ['\n'])))) := by
    simp only [Page.render, S.strip, rule, toString, String.toList_append, toList_ofList,
      String.reduceToList, List.append_assoc, cons_append, nil_append]
  rw [ht, behindRule]
  generalize (S.strip (Yaml.render fields)).toList = y
  split
  · rename_i he
    rw [he]
    have hb := strip_append_blanks (b := ['\n', '\n', '\n']) (by decide)
      ('-' :: (['-', '-', '\n'] ++ y ++ ['\n', '-', '-'] ++ ['-']))
    rw [strip_of_ends (by decide) (by decide)] at hb
    simpa [rule] using hb
  · rename_i hne
    obtain ⟨r, c, hl, hc⟩ := exists_concat_of_trim hco hne
    rw [hl]
    have hb := strip_append_blanks (b := ['\n']) (by decide)
      ('-' :: (['-', '-', '\n'] ++ y ++ ['\n', '-', '-', '-', '\n', '\n'] ++ r ++ [c]))
    rw [strip_of_ends (by decide) hc] at hb
    simpa [rule] using hb

variable {content : Chars}

lemma dashesEnd?_behindRule (hco : strip content = content) :
    ∃ after, dashesEnd? (rule ++ behindRule content) = some after ∧ strip after = content := by
  by_cases he : content = []
  · rw [behindRule, he]
    exact ⟨[], rfl, rfl⟩
  · obtain ⟨c, r, hf, hc⟩ := exists_cons_of_trim hco he
    have hen := dashesEnd?_rule ['\n', '\n'] content (by decide) (by simp [hf, hc]) (by simp)
    rw [behindRule, if_neg he]
    refine ⟨'\n' :: content, hen.trans ?_, ?_⟩
    · simp [marginLength, he]
    · have hbr : ['\n'].all isBlank := by decide
      have hb := trim_surrounded (p := isBlank) (b := []) (all_eq_true.mp hbr) (by simp) content
      rw [append_nil] at hb
      exact hb.trans hco

lemma not_rule_of_render (hf : fields ≠ []) {a b : Chars}
    (h : (S.strip (Yaml.render fields)).toList = a ++ '\n' :: b) : ¬ rule <+: b := by
  have hs : strip (Yaml.render fields).toList = a ++ '\n' :: b := by simpa [S.strip] using h
  obtain ⟨bef, be, ht⟩ := trim_infix (p := isBlank) (Yaml.render fields).toList
  have hsp : (Yaml.render fields).toList = (bef ++ a) ++ '\n' :: (b ++ be) := by
    rw [← ht, ← strip, hs]
    simp
  have hg := (isGood_scan_render hf).ne_spoiled
  rw [hsp] at hg
  exact fun hr => Lead.not_dashes_after_break hg (hr.trans (prefix_append b be))

lemma exists_mark_of_render (hf : fields ≠ []) :
    ∃ a m b, (S.strip (Yaml.render fields)).toList = a ++ m :: b ∧ '\n' ∉ a ∧ m ≠ '-' ∧ isBlank m = false := by
  obtain ⟨a, m, b, ht, ha, hm⟩ := Lead.exists_mark (isGood_scan_render hf)
  have hma : m ≠ '-' ∧ isBlank m = false := by rcases hm with rfl | rfl <;> decide
  refine ⟨trimLeft isBlank a, m, trimRight isBlank b, ?_, fun hme => ha (dropWhile_subset _ hme), hma⟩
  rw [S.strip, toList_ofList, ht]
  exact trim_around hma.2 a b

/-- **A written page is taken apart where it was put together.** -/
lemma between?_render (hf : fields ≠ []) (hco : strip content = content) : ∃ after, between? dashesEnd?
        (rule ++ '\n' :: ((S.strip (Yaml.render fields)).toList ++ '\n' :: (rule ++ behindRule content))) =
      some ('\n' :: (S.strip (Yaml.render fields)).toList ++ ['\n'], after) ∧ strip after = content := by
  obtain ⟨after, haf, hs⟩ := dashesEnd?_behindRule hco
  obtain ⟨a, m, b, hm, ha, hd, hb⟩ := exists_mark_of_render hf
  have hl := fun u v => not_rule_of_render (a := u) (b := v) hf
  have hfi : strip (S.strip (Yaml.render fields)).toList = (S.strip (Yaml.render fields)).toList := by simp [S.strip, strip]
  generalize (S.strip (Yaml.render fields)).toList = y at hm hl hfi
  obtain ⟨c, r, hcon, hc⟩ := exists_cons_of_trim hfi (by simp [hm])
  have ho : dashesEnd? (rule ++ '\n' :: (y ++ '\n' :: (rule ++ behindRule content))) =
      some ('\n' :: (y ++ '\n' :: (rule ++ behindRule content))) := by
    refine (dashesEnd?_rule ['\n'] _ (by decide) (by simp [hcon, hc]) (by simp)).trans ?_
    simp [marginLength]
  refine ⟨after, ?_, hs⟩
  rw [between?, ho, bind_some, cutAt]
  have hr := cutAt_dashes haf hl true fun _ => by
    rw [hm, List.append_assoc]
    exact dashesEnd?_of_mark ha hd hb _
  simp [hr]

/-! ## Texts with metadata -/

def isDivided (s : Chars) : Bool :=
  if (dashesEnd? s).isSome then (between? dashesEnd? s).isSome else (between? braceEnd? s).isSome

/-- A boundary takes something off the front of a text. -/
def Shortens (boundary? : Chars → Option Chars) : Prop :=
  ∀ s after, boundary? s = some after → after <:+ s ∧ after.length < s.length

lemma shortens_dashesEnd? : Shortens dashesEnd? := by
  intro s a h
  rw [dashesEnd?] at h
  split at h
  · cases h
  · obtain ⟨n, -, rfl⟩ := map_eq_some_iff.mp h
    refine ⟨(drop_suffix n _).trans (dropWhile_suffix _), ?_⟩
    rw [length_drop]
    omega

lemma shortens_braceEnd? : Shortens braceEnd? := by
  intro s a h
  cases s with
  | nil => cases h
  | cons c s =>
    rw [braceEnd?] at h
    split at h
    · obtain rfl := some.inj h
      exact ⟨suffix_cons .., by simp⟩
    · cases h

variable {boundary? : Chars → Option Chars}

lemma cutAt_suffix (hb : Shortens boundary?) {lineStart} (h : cutAt boundary? lineStart s = some (head, rest)) :
    rest <:+ s ∧ rest.length < s.length := by
  induction s generalizing lineStart head with
  | nil => cases h
  | cons c s ih =>
    rw [cutAt] at h
    split at h
    · rename_i a ha
      obtain ⟨-, rfl⟩ := Prod.mk.inj (some.inj h)
      split at ha
      · exact hb _ _ ha
      · cases ha
    · obtain ⟨⟨_, _⟩, hc, heq⟩ := map_eq_some_iff.mp h
      obtain ⟨-, rfl⟩ := Prod.mk.inj heq
      obtain ⟨hs, hl⟩ := ih hc
      exact ⟨hs.trans (suffix_cons c s), by rw [length_cons]; omega⟩

lemma between?_suffix (hb : Shortens boundary?) (h : between? boundary? s = some (head, rest)) :
    rest <:+ s ∧ rest.length < s.length := by
  obtain ⟨a, ha, hc⟩ := bind_eq_some_iff.mp h
  obtain ⟨hs, hl⟩ := cutAt_suffix hb hc
  obtain ⟨hs', hl'⟩ := hb s a ha
  exact ⟨hs.trans hs', Nat.lt_trans hl hl'⟩

lemma parse_of_dashes (h : between? dashesEnd? (strip text.toList) = some (head, rest)) :
    parse text = (load {} (ofList head) >>= metadata).map fun fields => ⟨fields, ofList (strip rest)⟩ := by
  have hd : (dashesEnd? (strip text.toList)).isSome := by
    obtain ⟨_, ha, -⟩ := bind_eq_some_iff.mp h
    rw [ha, isSome_some]
  rw [parse, if_pos hd]
  simp only [h]
  cases load {} (ofList head) with
  | error e => rfl
  | ok d => rfl

/-- All keys are texts, and none is a name that a document has for its own parts. -/
def FreelyNamed (entries : List (Value × Datum)) : Prop := ∀ e ∈ entries, ∃ k, e.1 = .str k ∧ k ∉ reservedNames

lemma metadata_table (entries) [Decidable (FreelyNamed entries)] : metadata (.table entries) =
      if FreelyNamed entries then .ok (Datum.toFields entries) else .error (.badType "metadata names") := by
  refine if_congr ?_ rfl rfl
  rw [List.all_eq_true]
  refine forall₂_congr fun e _ => ?_
  obtain ⟨key, d⟩ := e
  cases key <;> simp

lemma parse_of_table (hh : between? dashesEnd? (strip text.toList) = some (head, rest))
    (hl : load {} (ofList head) = .ok (.table entries)) [Decidable (FreelyNamed entries)] :
    parse text = if FreelyNamed entries
      then .ok ⟨Datum.toFields entries, ofList (strip rest)⟩ else .error (.badType "metadata names") := by
  rw [parse_of_dashes hh, hl]
  change (metadata (.table entries)).map _ = _
  rw [metadata_table]
  split <;> rfl

lemma parse_of_braces (hd : dashesEnd? (strip text.toList) = none)
    (h : between? braceEnd? (strip text.toList) = some (head, rest)) :
    parse text = (Json.read ("\x7b" ++ ofList head ++ "\x7d") >>= jsonMetadata).map
      fun fields => ⟨fields, ofList (strip rest)⟩ := by
  rw [parse, if_neg (by simp [hd])]
  simp only [h]
  cases Json.read ("\x7b" ++ ofList head ++ "\x7d") with
  | error e => rfl
  | ok v => rfl

lemma parse_of_not_divided (h : isDivided (strip text.toList) = false) :
    parse text = .ok ⟨[], ofList (strip text.toList)⟩ := by
  have hs : strip (strip text.toList) = strip text.toList := trim_trim _
  rw [isDivided] at h
  rw [parse]
  split at h
  · rename_i hd
    rw [if_pos hd]
    simp only [isSome_eq_false_iff, isNone_iff_eq_none] at h
    simp only [h, hs]
    rfl
  · rename_i hd
    rw [if_neg hd]
    simp only [isSome_eq_false_iff, isNone_iff_eq_none] at h
    simp only [h, hs]
    rfl

/-- **Content is shorter than the text that it was taken from**, if that begins with metadata. -/
lemma length_content_of_divided {page} (h : parse text = .ok page) (hd : isDivided (strip text.toList)) :
    page.content.toList.length < (strip text.toList).length := by
  have hs {boundary? : Chars → Option Chars} (hb : Shortens boundary?) {head rest : Chars}
      (hbe : between? boundary? (strip text.toList) = some (head, rest)) :
      (strip rest).length < (strip text.toList).length :=
    Nat.lt_of_le_of_lt ( trim_infix rest).length_le (between?_suffix hb hbe).2
  have hp {r : Result Fields} {rest : Chars}
      (h : (r.map fun fields => (⟨fields, ofList (strip rest)⟩ : Page)) = .ok page) :
      page.content.toList = strip rest := by
    cases r with
    | error e => cases h
    | ok fields => rw [← Except.ok.inj h, toList_ofList]
  rw [isDivided] at hd
  split at hd
  · obtain ⟨⟨head, rest⟩, hbe⟩ := isSome_iff_exists.mp hd
    rw [parse_of_dashes hbe] at h
    rw [hp h]
    exact hs shortens_dashesEnd? hbe
  · rename_i hda
    obtain ⟨⟨head, rest⟩, hbe⟩ := isSome_iff_exists.mp hd
    rw [parse_of_braces (by simpa using hda) hbe] at h
    rw [hp h]
    exact hs shortens_braceEnd? hbe

end Sluice.Markdown
