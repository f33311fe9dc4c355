import Mathlib.Data.List.Forall2
import Sluice.Mcp.Command

/-!
# Variables in the texts of a profile

A text with values filled in is cut at all of its mentions of variables (`Filled`).
-/

namespace Sluice.Mcp

open List Text

variable {env : String → Option String} {c : Char} {cs name : Chars}

/-! ## Mentions -/

def IsName : Chars → Prop
  | [] => False
  | c :: cs => isNameStart c ∧ ∀ d ∈ cs, isNameChar d

def mention (name : Chars) : Chars := '$' :: '\x7b' :: (name ++ ['\x7d'])

/-- A text refers to a variable of this name, anywhere in it. -/
def Mentions (text name : Chars) : Prop := IsName name ∧ mention name <:+: text

/-- **A text with the values of its variables filled in**, as they are. What stands between the mentions has none. -/
inductive FilledText (env : String → Option String) : Chars → Chars → Prop
  | plain {t : Chars} (h : ∀ n, ¬ Mentions t n) : FilledText env t t
  | filled {name t rest out : Chars} {value : String} (h : ∀ n, ¬ Mentions t n) (hname : IsName name)
      (hvalue : env (String.ofList name) = some value) (hrest : FilledText env rest out) :
      FilledText env (t ++ mention name ++ rest) (t ++ value.toList ++ out)

lemma isNameChar_of_isNameStart (h : isNameStart c) : isNameChar c := by
  simp only [isNameStart, isNameChar, Char.isAlphanum, Bool.or_eq_true] at h ⊢
  exact h.imp_left .inl

lemma IsName.isNameChar (h : IsName name) : ∀ d ∈ name, isNameChar d := by
  cases name with
  | nil => exact h.elim
  | cons c cs => exact forall_mem_cons.mpr ⟨isNameChar_of_isNameStart h.1, h.2⟩

lemma reference?_mention (h : IsName name) (rest) : reference? (mention name ++ rest) = some name := by
  cases name with
  | nil => exact h.elim
  | cons c cs =>
    have ht : (cs ++ '\x7d' :: rest).takeWhile isNameChar = cs := by
      rw [takeWhile_append_of_pos h.2, takeWhile_cons_of_neg (by decide), append_nil]
    have hd : (cs ++ '\x7d' :: rest).dropWhile isNameChar = '\x7d' :: rest := by
      rw [dropWhile_append_of_pos h.2, dropWhile_cons_of_neg (by decide)]
    simp [mention, reference?, ht, hd, h.1]

lemma reference?_eq_some_iff : reference? cs = some name ↔ IsName name ∧ ∃ rest, cs = mention name ++ rest := by
  constructor
  · intro h
    unfold reference? at h
    split at h
    next c rest =>
      simp only [Option.ite_none_right_eq_some, Bool.and_eq_true, beq_iff_eq, Option.some.injEq] at h
      obtain ⟨⟨hs, he⟩, rfl⟩ := h
      obtain ⟨a, ha⟩ := head?_eq_some_iff.mp he
      refine ⟨⟨hs, all_eq_true.mp all_takeWhile⟩, a, ?_⟩
      have hr := takeWhile_append_dropWhile (p := isNameChar) (l := rest)
      rw [ha] at hr
      simp [mention, hr]
    · cases h
  · rintro ⟨hn, rest, rfl⟩
    exact reference?_mention hn rest

variable {n : Chars}

lemma mentions_cons : Mentions (c :: cs) n ↔ reference? (c :: cs) = some n ∨ Mentions cs n := by
  rw [reference?_eq_some_iff, Mentions, Mentions, infix_cons_iff, and_or_left]
  simp only [IsPrefix, eq_comm]

variable {text : Chars}

lemma mentions_append (h : '$' ∉ cs) : Mentions (cs ++ text) n ↔ Mentions text n := by
  induction cs with
  | nil => rfl
  | cons c cs ih =>
    have hn : reference? (c :: (cs ++ text)) ≠ some n := by
      intro hs
      obtain ⟨-, _, heq⟩ := reference?_eq_some_iff.mp hs
      exact h ((cons.inj heq).1 ▸ mem_cons_self)
    rw [cons_append, mentions_cons, ih fun hm => h (mem_cons_of_mem c hm)]
    exact or_iff_right hn

lemma mentions_mention (h : IsName name) : Mentions (mention name ++ text) n ↔ name = n ∨ Mentions text n := by
  have hi : '$' ∉ '\x7b' :: (name ++ ['\x7d']) := by
    have hn : '$' ∉ name := fun hm => absurd (h.isNameChar _ hm) (by decide)
    simp [hn]
  have hs := reference?_mention h text
  rw [mention, cons_append] at hs ⊢
  rw [mentions_cons, mentions_append hi, hs, Option.some.injEq]

/-! ## Texts and values -/

/-- Replacing variables: a fault if one that is mentioned is not set, and otherwise what is filled in. -/
def Exact {α : Type} (unset : Prop) (filled : α → Prop) : Result α → Prop
  | .ok a => ¬ unset ∧ filled a
  | .error f => f.kind = .profile ∧ unset

section Exact

variable {α β γ : Type} {p q u : Prop} {P : α → Prop} {Q : β → Prop} {R : γ → Prop} {r : Result α} {r' : Result β}

lemma Exact.map {g} (h : Exact p P r) (hu : q ↔ p) (hf : ∀ a, P a → Q (g a)) : Exact q Q (r.map g) := by
  cases r with
  | ok a => exact ⟨fun hq => h.1 (hu.mp hq), hf a h.2⟩
  | error f => exact ⟨h.1, hu.mpr h.2⟩

lemma Exact.both {g : α → β → γ} (h : Exact p P r) (h' : Exact q Q r') (hun : u ↔ p ∨ q)
    (hf : ∀ a b, P a → Q b → R (g a b)) :
    Exact u R (do let a ← r; let b ← r'; pure (g a b)) := by
  cases r with
  | error f => exact ⟨h.1, hun.mpr (.inl h.2)⟩
  | ok a =>
    cases r' with
    | error f => exact ⟨h'.1, hun.mpr (.inr h'.2)⟩
    | ok b => exact ⟨fun hu => (hun.mp hu).elim h.1 h'.1, hf a b h.2 h'.2⟩

end Exact

def UnsetIn (env : String → Option String) (text : Chars) : Prop :=
  ∃ name, Mentions text name ∧ env (String.ofList name) = none

lemma unsetIn_cons (h : reference? (c :: cs) = none) : UnsetIn env (c :: cs) ↔ UnsetIn env cs := by
  simp [UnsetIn, mentions_cons, h]

lemma FilledText.cons {out} (h : FilledText env cs out) (hno : reference? (c :: cs) = none) :
    FilledText env (c :: cs) (c :: out) := by
  cases h with
  | plain h => exact .plain fun n hn => (mentions_cons.mp hn).elim (by simp [hno]) (h n)
  | @filled name t rest out value h hna hv hr =>
    refine .filled (t := c :: t) (fun n hn => ?_) hna hv hr
    rcases mentions_cons.mp hn with hs | hn
    -- a mention that begins with the new character would have been found there
    · obtain ⟨hn, af, heq⟩ := reference?_eq_some_iff.mp hs
      have hw : c :: (t ++ mention name ++ rest) = mention n ++ (af ++ mention name ++ rest) := by
        simp only [← List.append_assoc, ← heq, cons_append]
      rw [hw, reference?_mention hn] at hno
      cases hno
    · exact h n hn

lemma expandFrom_drop (skip cs) : expandFrom env skip cs = expandFrom env 0 (cs.drop skip) := by
  induction skip generalizing cs with
  | zero => rfl
  | succ skip ih =>
    cases cs with
    | nil => rfl
    | cons c cs => exact ih cs

lemma expandFrom_exact (cs) : Exact (UnsetIn env cs) (FilledText env cs) (expandFrom env 0 cs) := by
  -- by length, as a mention is passed over as a whole
  induction hl : cs.length using Nat.strongRecOn generalizing cs with
  | ind n ih =>
    subst hl
    cases cs with
    | nil =>
      have hn (n : Chars) : ¬ Mentions [] n := fun h => by simpa [mention] using h.2
      exact ⟨fun h => hn _ h.choose_spec.1, .plain hn⟩
    | cons c cs =>
      unfold expandFrom
      cases href : reference? (c :: cs) with
      | none => exact (ih _ (Nat.lt_succ_self _) cs rfl).map (unsetIn_cons href) fun out h => h.cons href
      | some name =>
        obtain ⟨hna, re, heq⟩ := reference?_eq_some_iff.mp href
        have hm (n : Chars) : Mentions (c :: cs) n ↔ name = n ∨ Mentions re n := heq ▸ mentions_mention hna
        dsimp only
        cases hv : env (String.ofList name) with
        | none => exact ⟨rfl, name, (hm name).mpr (.inl rfl), hv⟩
        | some value =>
          have hr : cs.drop (name.length + 2) = re := by
            rw [(cons.inj heq).2]
            simp
          have hl : re.length < (c :: cs).length := by
            rw [heq, mention]
            simp
            omega
          rw [expandFrom_drop, hr]
          refine (ih _ hl re rfl).map ?_ fun out h => heq ▸ .filled (t := []) (by simp [Mentions, mention]) hna hv h
          simp only [UnsetIn, hm]
          simp [hv]

/-- A text in a value, at any depth; the names of fields are not counted. -/
inductive HasText (s : String) : Value → Prop
  | here : HasText s (.str s)
  | item {v : Value} {items : List Value} (hv : v ∈ items) (h : HasText s v) : HasText s (.list items)
  | field {v : Value} {fields : Fields} {k : String} (hv : (k, v) ∈ fields) (h : HasText s v) : HasText s (.map fields)

def MentionsUnset (env : String → Option String) (v : Value) : Prop := ∃ s, HasText s v ∧ UnsetIn env s.toList

/-- **A value with the variables in its texts filled in**, with the same names in the same order and the same values that
are no texts. -/
inductive Filled (env : String → Option String) : Value → Value → Prop
  | text {s t : String} (h : FilledText env s.toList t.toList) : Filled env (.str s) (.str t)
  | list {vs ws : List Value} (h : Forall₂ (Filled env) vs ws) : Filled env (.list vs) (.list ws)
  | map {fs gs : Fields} (hkeys : fs.map (·.1) = gs.map (·.1))
      (h : Forall₂ (Filled env) (fs.map (·.2)) (gs.map (·.2))) : Filled env (.map fs) (.map gs)
  | same {v : Value} (h : ∀ s vs fs, v ≠ .str s ∧ v ≠ .list vs ∧ v ≠ .map fs) : Filled env v v

lemma mentionsUnset_str {s} : MentionsUnset env (.str s) ↔ UnsetIn env s.toList := by
  constructor
  · rintro ⟨_, ⟨⟩, h⟩
    exact h
  · exact fun h => ⟨s, .here, h⟩

lemma mentionsUnset_list {vs} : MentionsUnset env (.list vs) ↔ ∃ v ∈ vs, MentionsUnset env v := by
  constructor
  · rintro ⟨s, h | ⟨hv, hs⟩, h⟩
    exact ⟨_, hv, s, hs, h⟩
  · rintro ⟨v, hv, s, hs, h⟩
    exact ⟨s, .item hv hs, h⟩

lemma mentionsUnset_map {fs : Fields} : MentionsUnset env (.map fs) ↔ ∃ kv ∈ fs, MentionsUnset env kv.2 := by
  constructor
  · rintro ⟨s, h | _ | ⟨hv, hs⟩, h⟩
    exact ⟨_, hv, s, hs, h⟩
  · rintro ⟨kv, hv, s, hs, h⟩
    exact ⟨s, .field hv hs, h⟩

lemma exact_same {v} (h : ∀ s vs fs, v ≠ .str s ∧ v ≠ .list vs ∧ v ≠ .map fs) :
    Exact (MentionsUnset env v) (Filled env v) (.ok v) := by
  refine ⟨?_, .same h⟩
  rintro ⟨s, ⟨⟩ | ⟨⟩ | ⟨⟩, -⟩
  · exact (h s [] []).1 rfl
  · exact (h s _ []).2.1 rfl
  · exact (h s [] _).2.2 rfl

lemma expandItems_exact {vs} (h : ∀ v ∈ vs, Exact (MentionsUnset env v) (Filled env v) (expand env v)) :
    Exact (∃ v ∈ vs, MentionsUnset env v) (Forall₂ (Filled env) vs) (expandItems env vs) := by
  induction vs with
  | nil => exact ⟨by simp, .nil⟩
  | cons v vs ih =>
    obtain ⟨hv, hvs⟩ := forall_mem_cons.mp h
    exact hv.both (ih hvs) (by simp) fun w ws => .cons

lemma expandFields_exact {fs : Fields} (h : ∀ kv ∈ fs, Exact (MentionsUnset env kv.2) (Filled env kv.2) (expand env kv.2)) :
    Exact (∃ kv ∈ fs, MentionsUnset env kv.2)
      (fun gs => fs.map (·.1) = gs.map (·.1) ∧ Forall₂ (Filled env) (fs.map (·.2)) (gs.map (·.2))) (expandFields env fs) := by
  induction fs with
  | nil => exact ⟨by simp, rfl, .nil⟩
  | cons kv fs ih =>
    obtain ⟨hv, hfs⟩ := forall_mem_cons.mp h
    exact hv.both (ih hfs) (by simp) fun w gs hw hgs => ⟨congrArg (kv.1 :: ·) hgs.1, .cons hw hgs.2⟩

/-- **Replacing variables is exact**, whatever the value and the variables that are set. -/
theorem expand_exact (env : String → Option String) (v : Value) :
    Exact (MentionsUnset env v) (Filled env v) (expand env v) := by
  match v with
  | .str s =>
    rw [expand, expandText]
    have htext : Exact (UnsetIn env s.toList) (fun t => FilledText env s.toList t.toList)
        ((expandFrom env 0 s.toList).map String.ofList) :=
      (expandFrom_exact s.toList).map Iff.rfl fun out h => by rwa [String.toList_ofList]
    exact htext.map mentionsUnset_str fun t => .text
  | .list vs =>
    rw [expand]
    exact (expandItems_exact fun v hv => expand_exact env v).map mentionsUnset_list fun ws => .list
  | .map fs =>
    rw [expand]
    exact (expandFields_exact fun kv hv => expand_exact env kv.2).map mentionsUnset_map fun gs h => .map h.1 h.2
  | .null | .bool _ | .int _ | .float _ | .date _ | .datetime _ | .time _ | .duration _ | .bytes _ => exact exact_same (by simp)
termination_by v
decreasing_by
  · exact Nat.lt_trans (sizeOf_lt_of_mem hv) (by simp)
  · have hlt := sizeOf_lt_of_mem hv
    rw [Prod.mk.sizeOf_spec] at hlt
    simp
    omega

end Sluice.Mcp
