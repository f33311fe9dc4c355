import Sluice.Proofs.Source.Seen

/-!
# Definitions and their callers

Wherever the walk for calls goes on, that for definitions goes on with the same owner (`follows`), so each caller is
listed.
-/

namespace Sluice.Source

open List Sluice.Source.Tree

variable {language : Language} {code : List UInt8} {owner? : Option String} {above? : Option Tree} {t : Tree} {c : Call}

/-! ## Callers -/

lemma Tree.exists_of_mem_walk {α : Type} {rule} {x : α} (h : x ∈ (t.walk rule owner? above?).items) :
    ∃ owner? above? n, x ∈ (rule owner? above? n).found.items := by
  induction t using inductionOn generalizing owner? above? with
  | step t ih =>
    rw [walk_eq] at h
    rcases Feed.mem_append h with h | h
    · exact ⟨_, _, _, h⟩
    · split at h
      · obtain ⟨child, hc, h⟩ := Feed.mem_flatMap h
        exact ih child hc h
      · cases h

lemma caller_of_mem_bodyCalls {caller} (h : c ∈ (bodyCalls language code t caller).found.items) : c.caller = caller := by
  rw [bodyCalls] at h
  split at h
  · obtain ⟨_, _, n, h⟩ := exists_of_mem_walk h
    simp only [callRule] at h
    split at h
    · cases hc : callee? language code n with
      | error f =>
        rw [hc] at h
        cases h
      | ok name? =>
        simp only [hc, Visit.bind] at h
        split at h
        · rw [mem_singleton.mp h]
        · cases h
    · cases h
  · cases h

/-- **A call has this definition as its caller**: under the listed name, or that of a function behind its class. -/
def IsCaller (language : Language) (c : Call) (d : Definition) : Prop :=
  c.caller = d.name ∨
    language = .javascript ∧ d.sort = .function ∧ ∃ name, named? d.owner? = some name ∧ c.caller = name ++ "." ++ d.name

/-- What is found at a node in the two walks, and where they go on. -/
structure Follows (language : Language) (calls : Visit Call) (listed : Visit Definition) : Prop where
  caller : ∀ c ∈ calls.found.items, ∃ d ∈ listed.found.items, IsCaller language c d
  inside : ∀ inside?, calls.inside? = some inside? → listed.found.fault? = none →
    listed.inside? = some inside? ∧ (language = .go → inside? = none)

variable {v : Visit Definition}

lemma Follows.of_on (owner?) (hgo : language = .go → owner? = none)
    (hv : v.found.fault? = none → v.inside? = some owner?) : Follows language { inside? := some owner? } v :=
  ⟨fun _ hc => absurd hc not_mem_nil, fun _ hi hf => by cases hi; exact ⟨hv hf, hgo⟩⟩

lemma Follows.of_failed {f} : Follows language (.failed f) v := ⟨fun _ hc => absurd hc not_mem_nil, fun _ hi => by cases hi⟩

lemma Follows.of_body {caller name : String} {sort : Sort_} {inside? : Option (Option String)}
    (h : caller = name ∨ language = .javascript ∧ sort = .function ∧ caller = qualified "." owner? name) :
    Follows language (bodyCalls language code t caller) { found := defined language t name sort owner?, inside? } where
  caller c hc := by
    refine ⟨_, mem_singleton_self _, ?_⟩
    rw [IsCaller, caller_of_mem_bodyCalls hc]
    rcases h with hca | ⟨hl, hs, hca⟩
    · exact .inl hca
    rw [qualified] at hca
    split at hca
    · exact .inr ⟨hl, hs, _, ‹_›, hca⟩
    · exact .inl hca
  inside _ hi _ := by
    rw [bodyCalls] at hi
    split at hi <;> cases hi

lemma Follows.withField {holder} {field} {a} {b} {f} {g : String → Visit Definition}
    (hn : (holder.field? field).isSome = false → Follows language a b) (hs : ∀ name, Follows language (f name) (g name)) :
    Follows language (withField code holder field a f) (withField code holder field b g) := by
  unfold Source.withField
  cases hf : holder.field? field with
  | none => exact hn (by rw [hf]; rfl)
  | some n =>
    simp only [Visit.bind]
    cases n.text code with
    | error e => exact .of_failed
    | ok name => exact hs name

/-- Nodes that the walk for definitions enters only if they have a name. -/
def needsName : Language → List String
  | .python => ["class_definition", "function_definition"]
  | _ => []

/-- **The two walks go the same way.** -/
lemma follows (hna : t.kind ∈ needsName language → (t.field? "name").isSome = true) (hgo : language = .go → owner? = none) :
    Follows language (callerRule language code owner? above? t) (definitionRule language code owner? above? t) := by
  have hon : Follows language { inside? := some owner? } { inside? := some owner? } := .of_on owner? hgo fun _ => rfl
  cases language with
  | python =>
    simp only [callerRule, definitionRule, pythonRule]
    split
    next hc => exact .withField (fun hn => by simp_all [needsName]) fun name => .of_on (some name) (by simp) fun _ => rfl
    split
    next hf => exact .withField (fun hn => by simp_all [needsName]) fun name => .of_body (.inl rfl)
    next => exact hon
  | javascript =>
    simp only [callerRule, definitionRule, javascriptRule]
    by_cases hc : t.kind = "class_declaration"
    · simp only [hc]
      exact .withField (fun _ => hon) fun name => .of_on (some name) (by simp) fun _ => rfl
    by_cases hf : t.kind = "function_declaration"
    · simp only [hf]
      exact .withField (fun _ => hon) fun name => .of_body (.inr ⟨rfl, rfl, rfl⟩)
    by_cases hm : t.kind = "method_definition"
    · simp only [hm]
      exact .withField (fun _ => hon) fun name => .of_body (.inl rfl)
    by_cases ha : t.kind = "arrow_function"
    · simp only [ha, String.reduceBEq, Bool.or_self, Bool.false_eq_true, if_false, if_true]
      split
      · exact .withField (fun _ => hon) fun name => .of_body (.inl rfl)
      · exact hon
    simp only [beq_eq_false_iff_ne.mpr, hc, hf, hm, ha, ne_eq, not_false_eq_true, Bool.false_eq_true, if_false]
    -- other functions are listed, but not taken for callers
    refine .of_on owner? hgo fun hfa => ?_
    split at hfa
    next hk =>
      rw [if_pos hk]
      obtain h | ⟨-, h⟩ | ⟨-, name, h⟩ := withField_cases code t "name" _ _
      · exact absurd hfa h
      · rw [h]
      · rw [h]
    next hk => rw [if_neg hk]
  | go =>
    simp only [callerRule, definitionRule, goRule]
    obtain rfl := hgo rfl
    split
    next hf => exact .withField (fun _ => hon) fun name => .of_body (.inl rfl)
    split
    next hm =>
      refine .withField (fun _ => hon) fun name => ?_
      cases receiverType code t with
      | error e => exact .of_failed
      | ok receiver? => exact .of_body (.inl rfl)
    next => exact hon
  | rust =>
    simp only [callerRule, definitionRule, rustRule]
    split
    next hf => exact .withField (fun _ => hon) fun name => .of_body (.inl rfl)
    split
    next hi =>
      exact .withField (fun _ => .of_on none (by simp) fun _ => rfl) fun name => .of_on (some name) (by simp) fun _ => rfl
    next => exact hon

lemma exists_caller_of_walk (hna : ∀ n, Below t n → n.kind ∈ needsName language → (n.field? "name").isSome = true)
    (hgo : language = .go → owner? = none) (hl : (t.walk (definitionRule language code) owner? above?).fault? = none)
    (hc : c ∈ (t.walk (callerRule language code) owner? above?).items) :
    ∃ d ∈ (t.walk (definitionRule language code) owner? above?).items, IsCaller language c d := by
  induction t using Tree.inductionOn generalizing owner? above? with
  | step t ih =>
    have hf : Follows language (callerRule language code owner? above? t) (definitionRule language code owner? above? t) :=
      follows (hna t (.here t)) hgo
    have hfo := found_of_walk hl
    rw [walk_eq] at hc
    rcases Feed.mem_append hc with hc | hc
    · obtain ⟨d, hd, hca⟩ := hf.caller c hc
      rw [walk_eq, Feed.items_append hfo]
      exact ⟨d, mem_append_left _ hd, hca⟩
    · split at hc
      next inside? hi =>
        obtain ⟨child, hch, hc⟩ := Feed.mem_flatMap hc
        obtain ⟨hi, hgo⟩ := hf.inside inside? hi hfo
        obtain ⟨hchi, hm⟩ := mem_walk_of_some hl hi
        exact (hm _).mpr (.inr ⟨child, hch,
          ih child hch (fun n hn => hna n (.child hch hn)) hgo (hchi child hch) hc⟩)
      next => cases hc

/-- **Callers are listed.** If the definitions of a source can be listed, each of its calls has one as its caller. The
names differ only for a function in a class. -/
theorem callers_listed (hnamed : ∀ n, Below t n → n.kind ∈ needsName language → (n.field? "name").isSome = true)
    (hlisted : (definitions language code t).fault? = none) :
    ∀ c ∈ (calls language code t).items, ∃ d ∈ (definitions language code t).items, IsCaller language c d :=
  fun _ hc => exists_caller_of_walk hnamed (fun _ => rfl) hlisted hc

/-- The source of `staticBlock`: a function in a class that is no method. -/
def staticCode : List UInt8 := Utf8.encode "class A \x7b static \x7b function f() \x7b g(); \x7d \x7d \x7d"

def staticBlock : Tree :=
  .node "class_declaration" ⟨0, 0, 0, 44⟩ [("name", 0), ("body", 1)]
    [leaf "identifier" 0 6 7,
     .node "class_static_block" ⟨0, 10, 0, 42⟩ []
      [.node "function_declaration" ⟨0, 19, 0, 40⟩ [("name", 0), ("body", 1)]
        [leaf "identifier" 0 28 29,
         .node "statement_block" ⟨0, 32, 0, 40⟩ []
          [.node "call_expression" ⟨0, 34, 0, 37⟩ [("function", 0)] [leaf "identifier" 0 34 35]]]]]

theorem callers_listed_static : ∃ c ∈ (calls .javascript staticCode staticBlock).items,
    ∃ d ∈ (definitions .javascript staticCode staticBlock).items, IsCaller .javascript c d := by
  obtain ⟨c, hc⟩ := exists_mem_of_ne_nil (calls .javascript staticCode staticBlock).items (by decide +kernel)
  exact ⟨c, hc, callers_listed (by simp [needsName]) (by decide +kernel) c hc⟩

/-- **A function in a class** is listed as `f` and calls as `A.f`. -/
theorem caller_not_listed :
    (calls .javascript staticCode staticBlock).items.map (·.caller) = ["A.f"] ∧
    (definitions .javascript staticCode staticBlock).items.map (·.name) = ["A", "f"] := by
  decide +kernel

/-! ## Bodies -/

/-- The nodes in a node stand one after another, in its rows. -/
structure IsOrderly (t : Tree) : Prop where
  rows : t.span.startRow ≤ t.span.endRow
  inside : ∀ n ∈ t.children, t.span.startRow ≤ n.span.startRow ∧ n.span.endRow ≤ t.span.endRow
  order : t.children.Pairwise fun a b => a.span.endRow ≤ b.span.startRow

def Nested (t : Tree) : Prop := ∀ n, Below t n → IsOrderly n

lemma Nested.node (h : IsOrderly t) (hc : ∀ n ∈ t.children, Nested n) : Nested t := by
  intro n hn
  cases hn with
  | here => exact h
  | child hch hn => exact hc _ hch n hn

variable {n : Tree}

lemma Nested.of_mem (h : Nested t) (hn : n ∈ t.children) : Nested n := fun k hk => h k (.child hn hk)

lemma Nested.rows_of_mem (h : Nested t) (hn : n ∈ t.children) :
    t.span.startRow ≤ n.span.startRow ∧ n.span.startRow ≤ n.span.endRow ∧ n.span.endRow ≤ t.span.endRow := by
  have hi := (h t (.here t)).inside n hn
  have hr := (h.of_mem hn n (.here n)).rows
  exact ⟨hi.1, hr, hi.2⟩

def IsBlock (t : Tree) : Prop := t.kind = "block" ∨ t.kind = "statement_block"

/-- The first node of a body is passed over. -/
def IsPassed (language : Language) (body a : Tree) : Prop :=
  IsBlock body ∧ a.kind = "\x7b" ∨ language = .python ∧ isDocumentation a = true

/-- **A definition with nothing in it**: on one line without a body, or with a body that ends behind what is passed over, on a
later line. -/
def IsHollow (language : Language) (t : Tree) : Prop :=
  match t.field? "body" with
  | none => t.span.startRow = t.span.endRow
  | some body => ∃ a b, body.children = [a, b] ∧ IsPassed language body a ∧ IsBlock body ∧ b.kind = "\x7d" ∧
    a.span.endRow < b.span.startRow

section Cases

variable {body a b : Tree}

lemma bracedLines_fst_cases (language body) : (bracedLines body).1 = body.firstLine ∨
    ∃ a b rest, body.children = a :: b :: rest ∧ IsPassed language body a ∧ (bracedLines body).1 = b.firstLine := by
  unfold bracedLines
  split
  next hb =>
    simp only
    split
    next a b rest hc =>
      split
      next hbr => exact .inr ⟨a, b, rest, hc, .inl ⟨by simpa [IsBlock] using hb, beq_iff_eq.mp hbr⟩, rfl⟩
      next => exact .inl rfl
    next => exact .inl rfl
  next => exact .inl rfl

lemma bodyLines_fst_cases (language) (hb : t.field? "body" = some body) :
    (bodyLines language t).1 = body.firstLine ∨ (∃ a, body.children = [a] ∧ (bodyLines language t).1 = a.lastLine) ∨
    ∃ a b rest, body.children = a :: b :: rest ∧ IsPassed language body a ∧ (bodyLines language t).1 = b.firstLine := by
  unfold bodyLines
  rw [hb]
  dsimp only
  split
  next doc rest hc =>
    split
    next hd =>
      cases rest with
      | nil => exact .inr (.inl ⟨doc, hc, rfl⟩)
      | cons next rest => exact .inr (.inr ⟨doc, next, rest, hc, .inr ⟨rfl, hd⟩, rfl⟩)
    next => exact (bracedLines_fst_cases _ body).imp_right .inr
  next => exact (bracedLines_fst_cases _ body).imp_right .inr

lemma bodyLines_snd_cases (language) (hbo : t.field? "body" = some body) : (bodyLines language t).2 = body.lastLine ∨
    ∃ front a b, body.children = front ++ [a, b] ∧ IsBlock body ∧ b.kind = "\x7d" ∧ (bodyLines language t).2 = a.lastLine := by
  simp only [bodyLines, hbo, bracedLines]
  split
  next hb =>
    simp only
    split
    next b a rest hc =>
      split
      next hbr =>
        have hf : body.children = rest.reverse ++ [a, b] := by simpa using congrArg reverse hc
        exact .inr ⟨_, a, b, hf, by simpa [IsBlock] using hb, beq_iff_eq.mp hbr, rfl⟩
      next => exact .inl rfl
    next => exact .inl rfl
  next => exact .inl rfl

lemma bodyLines_of_pair (hbo : t.field? "body" = some body) (hc : body.children = [a, b])
    (ha : IsPassed language body a) (hbl : IsBlock body) (hb : b.kind = "\x7d") :
    bodyLines language t = (b.firstLine, a.lastLine) := by
  have hk : (body.kind == "block" || body.kind == "statement_block") = true := by simpa [IsBlock] using hbl
  rcases ha with ⟨-, ha⟩ | ⟨rfl, ha⟩
  · cases language <;> simp [bodyLines, hbo, bracedLines, hk, hc, hb, ha]
  · simp [bodyLines, hbo, bracedLines, hk, hc, hb, ha]

end Cases

lemma Tree.mem_of_field? {field} (h : t.field? field = some n) : n ∈ t.children := by
  obtain ⟨_, _, _, children⟩ := t
  obtain ⟨f, -, hf⟩ := Option.bind_eq_some_iff.mp h
  exact mem_of_getElem? hf

lemma bodyLines_inside (language) (h : Nested t) :
    t.firstLine ≤ (bodyLines language t).1 ∧ (bodyLines language t).2 ≤ t.lastLine := by
  cases hbo : t.field? "body" with
  | none => simp [bodyLines, hbo, firstLine]
  | some body =>
    have hm := mem_of_field? hbo
    have hr := h.rows_of_mem hm
    have hf := bodyLines_fst_cases language hbo
    have hl := bodyLines_snd_cases language hbo
    simp only [firstLine, lastLine] at hf hl ⊢
    constructor
    · rcases hf with hf | ⟨a, ha, hf⟩ | ⟨a, b, _, hab, -, hf⟩
      · omega
      · have ha := (h.of_mem hm).rows_of_mem (n := a) (by simp [ha])
        omega
      · have hb := (h.of_mem hm).rows_of_mem (n := b) (by simp [hab])
        omega
    · rcases hl with hl | ⟨_, y, z, hyz, -, -, hl⟩
      · omega
      · have hy := (h.of_mem hm).rows_of_mem (n := y) (by simp [hyz])
        omega

/-- **A body with something in it** begins before it ends. -/
lemma bodyLines_ordered (h : Nested t) (hfu : ¬ IsHollow language t) :
    (bodyLines language t).1 ≤ (bodyLines language t).2 := by
  have hs := (h t (.here t)).rows
  cases hbo : t.field? "body" with
  | none =>
    simp only [IsHollow, hbo] at hfu
    simp only [bodyLines, hbo, lastLine]
    omega
  | some body =>
    have hn := h.of_mem (mem_of_field? hbo)
    have hr := (hn body (.here body)).rows
    have hf := bodyLines_fst_cases language hbo
    have hl := bodyLines_snd_cases language hbo
    simp only [firstLine, lastLine] at hf hl
    rcases hf with hf | ⟨a, ha, hf⟩ | ⟨a, b, _, hab, hp, hf⟩
    · rcases hl with hl | ⟨f, y, z, hyz, -, -, hl⟩
      · omega
      · have hy := hn.rows_of_mem (n := y) (by simp [hyz])
        omega
    · rcases hl with hl | ⟨f, y, z, hyz, -, -, -⟩
      · have ha := hn.rows_of_mem (n := a) (by simp [ha])
        omega
      · have hlen := congrArg length (ha.symm.trans hyz)
        simp at hlen
    · have hb := hn.rows_of_mem (n := b) (by simp [hab])
      rcases hl with hl | ⟨f, y, z, hyz, hbl, hbr, hl⟩
      · omega
      have hy := hn.rows_of_mem (n := y) (by simp [hyz])
      have he := hab.symm.trans hyz
      rcases f with _ | ⟨_, _ | ⟨_, f⟩⟩ <;> cases he
      · simp only [IsHollow, hbo] at hfu
        have hle := Nat.le_of_not_lt fun hlt => hfu ⟨a, b, hab, hp, hbl, hbr, hlt⟩
        omega
      · omega
      · have hbe := (hn body (.here body)).order
        rw [hyz] at hbe
        have hle := (pairwise_cons.mp (pairwise_cons.mp hbe).2).1 y (by simp)
        omega

/-- **Where the lines of a body lie.** They are lines of the definition, and the first one is not behind the last one, exactly
if there is something in the definition. -/
theorem bodyLines_within (h : Nested t) :
    t.firstLine ≤ (bodyLines language t).1 ∧ (bodyLines language t).2 ≤ t.lastLine ∧
      ((bodyLines language t).1 ≤ (bodyLines language t).2 ↔ ¬ IsHollow language t) := by
  obtain ⟨hfirst, hlast⟩ := bodyLines_inside language h
  refine ⟨hfirst, hlast, fun hle hhollow => ?_, bodyLines_ordered h⟩
  rw [IsHollow] at hhollow
  split at hhollow
  next hbody =>
    simp only [bodyLines, hbody, lastLine] at hle
    omega
  next body hbody =>
    obtain ⟨a, b, hpair, hpassed, hblock, hbrace, hlt⟩ := hhollow
    rw [bodyLines_of_pair hbody hpair hpassed hblock hbrace] at hle
    simp only [firstLine, lastLine] at hle
    omega

/-- A function with a body in braces, one line below the other. -/
def functionWith (inner : List Tree) (last : Nat) : Tree :=
  .node "function_declaration" ⟨0, 0, last, 30⟩ [("body", 0)]
    [.node "statement_block" ⟨0, 13, last, 30⟩ [] (leaf "\x7b" 0 13 14 :: inner ++ [leaf "\x7d" last 29 30])]

lemma nested_leaf {kind row first last} : Nested (leaf kind row first last) :=
  .node ⟨Nat.le_refl row, by simp [leaf, Tree.children], .nil⟩ (by simp [leaf, Tree.children])

theorem bodyLines_within_plain : bodyLines .javascript (functionWith [leaf "expression_statement" 1 17 27] 2) = (2, 2) ∧
    ¬ IsHollow .javascript (functionWith [leaf "expression_statement" 1 17 27] 2) := by
  refine ⟨rfl, (bodyLines_within (.node ⟨by decide, by decide, by decide⟩ ?_)).2.2.mp (by decide)⟩
  exact forall_mem_singleton.mpr <| .node ⟨by decide, by decide, by decide⟩ <|
    forall_mem_cons.mpr ⟨nested_leaf, forall_mem_cons.mpr ⟨nested_leaf, forall_mem_singleton.mpr (nested_leaf)⟩⟩

/-- **The lines of an empty body** are in the wrong order. -/
theorem bodyLines_empty : bodyLines .javascript (functionWith [] 1) = (2, 1) := rfl

end Sluice.Source
