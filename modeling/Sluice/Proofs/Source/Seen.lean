import Sluice.Proofs.Source.Callers

/-!
# Calls that are seen

A node is **seen** if, on the way down to it, the first function with a name is entered through its body
(`mem_calls_iff`).
-/

namespace Sluice.Source

open List Option

variable {caller name : String} {t : Tree}

namespace Tree

/-! ## Walks that end well -/

@[elab_as_elim] lemma inductionOn {P : Tree → Prop} (t) (step : ∀ t, (∀ c ∈ t.children, P c) → P t) : P t := by
  obtain ⟨_, _, _, children⟩ := t
  exact step _ fun c _ => inductionOn c step
termination_by sizeOf t
decreasing_by
  have hlt := sizeOf_lt_of_mem (show c ∈ children from ‹_›)
  simp only [Tree.node.sizeOf_spec]
  omega

variable {α : Type} {rule : Rule α}

lemma walkAll_eq (rule : Rule α) (owner? above ts) :
    walkAll rule owner? above ts = Feed.flatMap (walk rule owner? (some above)) ts := by
  induction ts with
  | nil => rw [walkAll]; rfl
  | cons t ts ih => rw [walkAll, Feed.flatMap, ih]

lemma walk_eq (rule : Rule α) (owner? : Option String) (above? : Option Tree) (t : Tree) :
    t.walk rule owner? above? = (rule owner? above? t).found.append fun _ =>
      match (rule owner? above? t).inside? with
      | some inside? => Feed.flatMap (walk rule inside? (some t)) t.children
      | none => .empty := by
  obtain ⟨_, _, _, children⟩ := t
  rw [walk]
  simp only [walkAll_eq]
  rfl

section Ended

variable {owner? : Option String} {above? : Option Tree} {t : Tree}

lemma found_of_walk (h : (t.walk rule owner? above?).fault? = none) : (rule owner? above? t).found.fault? = none := by
  rw [walk_eq] at h
  exact (Feed.fault?_append.mp h).1

/-- A walk that ends well and does not visit the children delivers what is found at the top. -/
lemma items_walk_of_none (h : (t.walk rule owner? above?).fault? = none) (hi : (rule owner? above? t).inside? = none) :
    (t.walk rule owner? above?).items = (rule owner? above? t).found.items := by
  have hf := found_of_walk h
  rw [walk_eq, Feed.items_append hf, hi]
  exact append_nil _

/-- A walk that ends well and visits the children delivers what is found at the top and in the walks over the children,
which end well. -/
lemma mem_walk_of_some {inside?} (h : (t.walk rule owner? above?).fault? = none)
    (hi : (rule owner? above? t).inside? = some inside?) :
    (∀ c ∈ t.children, (c.walk rule inside? (some t)).fault? = none) ∧
    ∀ p : α → Prop, (∃ x ∈ (t.walk rule owner? above?).items, p x) ↔ (∃ x ∈ (rule owner? above? t).found.items, p x) ∨
      ∃ c ∈ t.children, ∃ x ∈ (c.walk rule inside? (some t)).items, p x := by
  rw [walk_eq, hi] at h ⊢
  obtain ⟨hf, hch⟩ := Feed.fault?_append.mp h
  have ha := Feed.fault?_flatMap.mp hch
  refine ⟨ha, fun p => ?_⟩
  simp only [Feed.items_append hf, Feed.items_flatMap ha, mem_append, List.mem_flatMap, or_and_right, exists_or]
  refine or_congr_right ⟨?_, ?_⟩
  · rintro ⟨x, ⟨c, hc, hx⟩, hp⟩
    exact ⟨c, hc, x, hx, hp⟩
  · rintro ⟨c, hc, x, hx, hp⟩
    exact ⟨x, ⟨c, hc, hx⟩, hp⟩

end Ended

/-- A node stands in a tree. -/
inductive Below : Tree → Tree → Prop
  | here (t : Tree) : Below t t
  | child {t c n : Tree} (hc : c ∈ t.children) (hn : Below c n) : Below t n

lemma exists_below {p : Tree → Prop} : (∃ n, Below t n ∧ p n) ↔ p t ∨ ∃ c ∈ t.children, ∃ n, Below c n ∧ p n := by
  constructor
  · rintro ⟨n, hn, hp⟩
    cases hn with
    | here => exact .inl hp
    | child hc hn => exact .inr ⟨_, hc, n, hn, hp⟩
  · rintro (hp | ⟨c, hc, n, hn, hp⟩)
    · exact ⟨t, .here t, hp⟩
    · exact ⟨n, .child hc hn, hp⟩

end Tree

open Text Sluice.Source.Tree

structure Names (language : Language) (code : List UInt8) (n : Tree) (name : String) : Prop where
  kind : n.kind = callKind language
  callee : callee? language code n = .ok (some name)
  named : name ≠ ""

variable {language : Language} {code : List UInt8} {owner? : Option String} {above? : Option Tree}

variable (language code caller owner? above?) in
/-- What the rule for calls says at a node, unless it fails: the name of the call, if it has one, and to visit the
children. -/
lemma callRule_cases (n : Tree) : (callRule language code caller owner? above? n).found.fault? ≠ none ∨
    (callRule language code caller owner? above? n).inside? = some none ∧
      ∀ name, (∃ c ∈ (callRule language code caller owner? above? n).found.items, c.callee = name) ↔
        Names language code n name := by
  simp only [callRule]
  by_cases hk : n.kind = callKind language
  · rw [if_pos (beq_iff_eq.mpr hk)]
    cases hca : callee? language code n with
    | error f => exact .inl (some_ne_none f)
    | ok name? =>
      simp only [Visit.bind]
      cases hna : named? name? with
      | none =>
        refine .inr ⟨rfl, fun name => ⟨fun ⟨c, hc, _⟩ => absurd hc not_mem_nil, fun hn => ?_⟩⟩
        rw [Except.ok.inj (hca.symm.trans hn.callee)] at hna
        simp [named?, hn.named] at hna
      | some ca =>
        obtain ⟨hs, hne⟩ := filter_eq_some_iff.mp hna
        refine .inr ⟨rfl, fun name => ⟨?_, fun hn => ?_⟩⟩
        · rintro ⟨c, hc, rfl⟩
          obtain rfl := mem_singleton.mp hc
          exact ⟨hk, hca.trans (congrArg Except.ok hs), by simpa using hne⟩
        · rw [Except.ok.inj (hca.symm.trans hn.callee)] at hs
          exact ⟨_, mem_singleton_self _, (some.inj hs).symm⟩
  · rw [if_neg (mt beq_iff_eq.mp hk)]
    exact .inr ⟨rfl, fun name => ⟨fun ⟨c, hc, _⟩ => absurd hc not_mem_nil, fun hn => absurd hn.kind hk⟩⟩

/-- **The calls below a node** are all calls that stand there and have a name. -/
lemma mem_walk_callRule (h : (t.walk (callRule language code caller) owner? above?).fault? = none) :
    (∃ c ∈ (t.walk (callRule language code caller) owner? above?).items, c.callee = name) ↔
      ∃ n, Below t n ∧ Names language code n name := by
  induction t using Tree.inductionOn generalizing owner? above? with
  | step t ih =>
    obtain hf | ⟨hi, hfo⟩ := callRule_cases caller language code owner? above? t
    · exact absurd (found_of_walk h) hf
    obtain ⟨hch, hm⟩ := mem_walk_of_some h hi
    rw [hm, hfo, exists_below]
    exact or_congr_right (exists_congr fun c => and_congr_right fun hc => ih c hc (hch c hc))

/-! ## Functions with a name -/

def functionKinds : Language → List String
  | .python => ["function_definition"]
  | .javascript => ["function_declaration", "method_definition"]
  | .go => ["function_declaration", "method_declaration"]
  | .rust => ["function_item"]

def isNamedFunction (language : Language) (above? : Option Tree) (t : Tree) : Bool :=
  (functionKinds language).contains t.kind && (t.field? "name").isSome ||
  language == .javascript && t.kind == "arrow_function" &&
    above?.any fun above => above.kind == "variable_declarator" && (above.field? "name").isSome

lemma withField_cases {α : Type} (code t field otherwise) (f : String → Visit α) :
    (withField code t field otherwise f).found.fault? ≠ none ∨
    ((t.field? field).isSome = false ∧ withField code t field otherwise f = otherwise) ∨
    ((t.field? field).isSome ∧ ∃ text, withField code t field otherwise f = f text) := by
  rw [withField]
  cases t.field? field with
  | none => exact .inr (.inl ⟨rfl, rfl⟩)
  | some n =>
    simp only [Visit.bind]
    cases n.text code with
    | error e => exact .inl (some_ne_none e)
    | ok text => exact .inr (.inr ⟨rfl, text, rfl⟩)

/-- The rule for functions fails at a node, gives the calls in the body of a function with a name, or has the children
visited. -/
inductive EntersNamed (language : Language) (code : List UInt8) (above? : Option Tree) (t : Tree) : Visit Call → Prop
  | fails {v : Visit Call} (h : v.found.fault? ≠ none) : EntersNamed language code above? t v
  | enters (h : isNamedFunction language above? t = true) (caller : String) :
    EntersNamed language code above? t (bodyCalls language code t caller)
  | passes (h : isNamedFunction language above? t = false) (inside? : Option String) :
    EntersNamed language code above? t { inside? := some inside? }

section Rules

variable {owner? : Option String} {above? : Option Tree} {t : Tree}

lemma entersNamed_owner (hn : isNamedFunction language above? t = false) (field) : EntersNamed language code above? t
      (withField code t field { inside? := some owner? } fun name => { inside? := some (some name) }) := by
  obtain h | ⟨-, h⟩ | ⟨-, name, h⟩ := withField_cases code t field { inside? := some owner? }
    (fun name => { inside? := some (some name) } : String → Visit Call)
  · exact .fails h
  · rw [h]
    exact .passes hn owner?
  · rw [h]
    exact .passes hn (some name)

variable {f : String → Visit Call}

lemma entersNamed_holder {holder} (hn : isNamedFunction language above? t = (holder.field? "name").isSome)
    (hf : ∀ name, (f name).found.fault? ≠ none ∨ ∃ caller, f name = bodyCalls language code t caller) :
    EntersNamed language code above? t (withField code holder "name" { inside? := some owner? } f) := by
  obtain h | ⟨hno, h⟩ | ⟨hs, name, h⟩ := withField_cases code holder "name" { inside? := some owner? } f
  · exact .fails h
  · rw [h]
    exact .passes (hn.trans hno) owner?
  · rw [h]
    obtain hfa | ⟨caller, hc⟩ := hf name
    · exact .fails hfa
    · exact hc ▸ .enters (hn.trans hs) caller

lemma entersNamed_function (hk : (functionKinds language).contains t.kind)
    (hf : ∀ name, (f name).found.fault? ≠ none ∨ ∃ caller, f name = bodyCalls language code t caller) :
    EntersNamed language code above? t (withField code t "name" { inside? := some owner? } f) := by
  have ha : (language == .javascript && t.kind == "arrow_function") = false := by
    rw [Bool.eq_false_iff]
    intro h
    rw [Bool.and_eq_true, beq_iff_eq, beq_iff_eq] at h
    obtain ⟨rfl, h⟩ := h
    rw [h] at hk
    exact absurd hk (by decide)
  refine entersNamed_holder ?_ hf
  rw [isNamedFunction, hk, ha, Bool.true_and, Bool.false_and, Bool.or_false]

lemma entersNamed_arrow (hk : t.kind = "arrow_function") : EntersNamed .javascript code above? t
      (match above?.filter (·.kind == "variable_declarator") with
      | some above => withField code above "name" { inside? := some owner? } (bodyCalls .javascript code t)
      | none => { inside? := some owner? }) := by
  have hn : isNamedFunction .javascript above? t =
      above?.any fun above => above.kind == "variable_declarator" && (above.field? "name").isSome := by
    simp [isNamedFunction, hk, functionKinds]
  cases above? with
  | none => exact .passes hn owner?
  | some above =>
    rw [any_some] at hn
    by_cases hv : above.kind = "variable_declarator"
    · rw [beq_iff_eq.mpr hv] at hn
      rw [filter_some, if_pos (beq_iff_eq.mpr hv)]
      exact entersNamed_holder hn fun name => .inr ⟨name, rfl⟩
    · rw [beq_eq_false_iff_ne.mpr hv] at hn
      rw [filter_some, if_neg (mt beq_iff_eq.mp hv)]
      exact .passes hn owner?

attribute [local simp] isNamedFunction functionKinds in
variable (language code owner? above? t) in
/-- **The rule for functions** looks into the bodies of functions with a name and passes all other nodes. -/
lemma entersNamed_callerRule : EntersNamed language code above? t (callerRule language code owner? above? t) := by
  cases language <;> simp only [callerRule] <;> split
  case python.isTrue hc => exact entersNamed_owner (by simp_all) "name"
  case python.isFalse =>
    split
    next hf => exact entersNamed_function (by simp_all) fun name => .inr ⟨_, rfl⟩
    next => exact .passes (by simp_all) owner?
  case javascript.isTrue hc => exact entersNamed_owner (by simp_all) "name"
  case javascript.isFalse =>
    split
    next hf => exact entersNamed_function (by simpa using hf) fun name => .inr ⟨_, rfl⟩
    split
    next ha => exact entersNamed_arrow (beq_iff_eq.mp ha)
    next => exact .passes (by simp_all) owner?
  case go.isTrue hf => exact entersNamed_function (by simp_all) fun name => .inr ⟨_, rfl⟩
  case go.isFalse =>
    split
    next hm =>
      refine entersNamed_function (by simp_all) fun name => ?_
      cases receiverType code t with
      | error e => exact .inl (some_ne_none e)
      | ok receiver? => exact .inr ⟨_, rfl⟩
    next => exact .passes (by simp_all) owner?
  case rust.isTrue hf => exact entersNamed_function (by simp_all) fun name => .inr ⟨_, rfl⟩
  case rust.isFalse =>
    split
    next hi => exact entersNamed_owner (by simp_all) "type"
    next => exact .passes (by simp_all) owner?

lemma callerRule_of_walk (h : (t.walk (callerRule language code) owner? above?).fault? = none) :
    (isNamedFunction language above? t ∧
      ∃ caller, callerRule language code owner? above? t = bodyCalls language code t caller) ∨
    (isNamedFunction language above? t = false ∧
      ∃ inside?, callerRule language code owner? above? t = { inside? := some inside? }) := by
  have hf := found_of_walk h
  generalize callerRule language code owner? above? t = v, entersNamed_callerRule language code owner? above? t = he
    at hf
  cases he with
  | fails hfa => exact absurd hf hfa
  | enters hn caller => exact .inl ⟨hn, caller, rfl⟩
  | passes hno inside? => exact .inr ⟨hno, inside?, rfl⟩

end Rules

/-- **A node that is seen**: on the way down to it, the first function with a name is entered through its
body. -/
inductive Seen (language : Language) : Option Tree → Tree → Tree → Prop
  | body {above? : Option Tree} {t body n : Tree} (ht : isNamedFunction language above? t = true)
    (hbody : t.field? "body" = some body) (hn : Below body n) : Seen language above? t n
  | child {above? : Option Tree} {t c n : Tree} (ht : isNamedFunction language above? t = false)
    (hc : c ∈ t.children) (hn : Seen language (some t) c n) : Seen language above? t n

lemma mem_bodyCalls (h : (bodyCalls language code t caller).found.fault? = none) :
    (∃ c ∈ (bodyCalls language code t caller).found.items, c.callee = name) ↔
      ∃ body, t.field? "body" = some body ∧ ∃ n, Below body n ∧ Names language code n name := by
  rw [bodyCalls] at h ⊢
  cases hb : t.field? "body" with
  | none => simp [Feed.empty]
  | some body =>
    rw [hb] at h
    simpa [callsWithin] using mem_walk_callRule h

/-- **The calls of a source are the calls that are seen and have a name.** -/
lemma mem_calls_iff (h : (t.walk (callerRule language code) owner? above?).fault? = none) :
    (∃ c ∈ (t.walk (callerRule language code) owner? above?).items, c.callee = name) ↔
      ∃ n, Seen language above? t n ∧ Names language code n name := by
  induction t using Tree.inductionOn generalizing owner? above? with
  | step t ih =>
    obtain ⟨hnam, _, hr⟩ | ⟨hno, inside?, hr⟩ := callerRule_of_walk h
    -- the way down ends at a function with a name: only its body counts
    · have hi : (callerRule language code owner? above? t).inside? = none := by
        rw [hr, bodyCalls]
        split <;> rfl
      rw [items_walk_of_none h hi, hr, mem_bodyCalls (hr ▸ found_of_walk h)]
      constructor
      · rintro ⟨body, hb, n, hn, hna⟩
        exact ⟨n, .body hnam hb hn, hna⟩
      · rintro ⟨n, hn, hna⟩
        cases hn with
        | body _ hb hn => exact ⟨_, hb, n, hn, hna⟩
        | child hno => exact absurd hnam (Bool.eq_false_iff.mp hno)
    -- nothing is found at any other node itself, even at a call
    · obtain ⟨hch, hm⟩ := mem_walk_of_some h (congrArg Visit.inside? hr)
      have hbe (c : Tree) (hc : c ∈ t.children) := ih c hc (hch c hc)
      rw [hm, hr, or_iff_right (fun ⟨_, hc, _⟩ => not_mem_nil hc)]
      constructor
      · rintro ⟨c, hc, hca⟩
        obtain ⟨n, hn, hna⟩ := (hbe c hc).mp hca
        exact ⟨n, .child hno hc hn, hna⟩
      · rintro ⟨n, hn, hna⟩
        cases hn with
        | body hnam => exact absurd hnam (Bool.eq_false_iff.mp hno)
        | child _ hc hn => exact ⟨_, hc, (hbe _ hc).mpr ⟨n, hn, hna⟩⟩

lemma callee_of_below {n} (hn : Below t n) (h : (t.walk (callRule language code caller) owner? above?).fault? = none)
    (hki : n.kind = callKind language) : ∃ name?, callee? language code n = .ok name? := by
  induction hn generalizing owner? above? with
  | here t =>
    have hf := found_of_walk h
    simp only [callRule] at hf
    rw [if_pos (beq_iff_eq.mpr hki)] at hf
    cases hc : callee? language code t with
    | error f =>
      rw [hc] at hf
      exact absurd hf (some_ne_none f)
    | ok name? => exact ⟨name?, rfl⟩
  | child hk _ ih =>
    obtain hfa | ⟨hi, -⟩ := callRule_cases caller language code owner? above? _
    · exact absurd (found_of_walk h) hfa
    · exact ih ((mem_walk_of_some h hi).1 _ hk) hki

lemma callee_of_seen {n}
    (hn : Seen language above? t n) (h : (t.walk (callerRule language code) owner? above?).fault? = none)
    (hki : n.kind = callKind language) : ∃ name?, callee? language code n = .ok name? := by
  induction hn generalizing owner? with
  | body ht hb hn =>
    obtain ⟨-, _, hr⟩ | ⟨hno, -⟩ := callerRule_of_walk h
    · have hf := found_of_walk h
      rw [hr, bodyCalls, hb] at hf
      exact callee_of_below hn hf hki
    · exact absurd ht (Bool.eq_false_iff.mp hno)
  | child ht hk _ ih =>
    obtain ⟨hna, -⟩ | ⟨-, inside?, hr⟩ := callerRule_of_walk h
    · exact absurd hna (Bool.eq_false_iff.mp ht)
    · exact ih ((mem_walk_of_some h (congrArg Visit.inside? hr)).1 _ hk) hki

/-! ## Names as they are written -/

lemma simpleName_append_dot (object name) : simpleName (object ++ "." ++ name) = simpleName name := by
  have ht : (object ++ "." ++ name).toList = object.toList ++ '.' :: name.toList := by simp
  have hc : splitAtChar '.' (object.toList ++ '.' :: name.toList) =
      splitAtChar '.' object.toList ++ splitAtChar '.' name.toList :=
    splitWhere_cut (p := (· == '.')) (by decide) _ _
  rw [simpleName_eq, simpleName_eq]
  simp only [ht, hc]
  rw [getLast_append_of_ne_nil]

def memberNode : Language → String × String
  | .python => ("attribute", "attribute")
  | .javascript => ("member_expression", "property")
  | .go => ("selector_expression", "field")
  | .rust => ("field_expression", "field")

/-- A node spells a name: alone, as a member of an object, or at the end of a path. -/
inductive Spells (language : Language) (code : List UInt8) (f : Tree) : String → Prop
  | name {w : String} (hkind : f.kind = "identifier") (hw : f.text code = .ok w) : Spells language code f w
  | member {m : Tree} {w : String} (hkind : f.kind = (memberNode language).1)
    (hm : f.field? (memberNode language).2 = some m) (hw : m.text code = .ok w) : Spells language code f w
  | rooted {m : Tree} {w : String} (hrust : language = .rust) (hkind : f.kind = "scoped_identifier")
    (hm : f.field? "name" = some m) (hw : m.text code = .ok w) (hp : f.field? "path" = none) :
    Spells language code f w
  | path {m p : Tree} {w path : String} (hrust : language = .rust) (hkind : f.kind = "scoped_identifier")
    (hm : f.field? "name" = some m) (hw : m.text code = .ok w) (hp : f.field? "path" = some p)
    (hpath : p.text code = .ok path) : Spells language code f (path ++ "::" ++ w)

structure CallsTo (language : Language) (code : List UInt8) (n : Tree) (w : String) : Prop where
  kind : n.kind = callKind language
  spells : ∃ f, n.field? "function" = some f ∧ Spells language code f w

variable {w : String} {name? : Option String}

lemma simpleName_of_memberName {m object?} (hw : m.text code = .ok w)
    (hne : w ≠ "") (h : memberName code (some m) object? "." = .ok name?) :
    ∃ name, name? = some name ∧ name ≠ "" ∧ simpleName name = simpleName w := by
  obtain ⟨_, hw', h⟩ := bind_eq_ok.mp h
  obtain rfl := Except.ok.inj (hw.symm.trans hw')
  cases object? with
  | none => exact ⟨w, (Except.ok.inj h).symm, hne, rfl⟩
  | some o =>
    obtain ⟨object, -, h⟩ := bind_eq_ok.mp h
    refine ⟨object ++ "." ++ w, (Except.ok.inj h).symm, fun he => ?_, simpleName_append_dot object w⟩
    have hem := congrArg String.toList he
    simp at hem

section Callee

variable {n f : Tree}

lemma callee?_member (code) (hf : n.field? "function" = some f) (hk : f.kind = (memberNode language).1) :
    ∃ object?, callee? language code n = memberName code (f.field? (memberNode language).2) object? "." := by
  rw [callee?, hf]
  dsimp only
  rw [hk]
  cases language with
  | python => exact ⟨_, rfl⟩
  | javascript => exact ⟨_, rfl⟩
  | go => exact ⟨_, rfl⟩
  | rust => exact ⟨none, rfl⟩

lemma callee?_scoped (hf : n.field? "function" = some f) (hk : f.kind = "scoped_identifier") :
    callee? .rust code n = memberName code (f.field? "name") (f.field? "path") "::" := by
  rw [callee?, hf]
  dsimp only
  rw [hk]
  rfl

/-- **The name of a call**, where it can be read, has the last part of what is written. -/
lemma names_of_callsTo (h : CallsTo language code n w) (hne : w ≠ "") (hc : callee? language code n = .ok name?) :
    ∃ name, Names language code n name ∧ simpleName name = simpleName w := by
  suffices hna : ∃ name, name? = some name ∧ name ≠ "" ∧ simpleName name = simpleName w by
    obtain ⟨name, rfl, hn, hl⟩ := hna
    exact ⟨name, ⟨h.kind, hc, hn⟩, hl⟩
  obtain ⟨f, hf, hs⟩ := h.spells
  cases hs with
  | name hk hw =>
    simp only [callee?, hf] at hc
    rw [if_pos (beq_iff_eq.mpr hk), hw] at hc
    exact ⟨w, (Except.ok.inj hc).symm, hne, rfl⟩
  | member hk hm hw =>
    obtain ⟨_?, hme⟩ := callee?_member code hf hk
    rw [hme, hm] at hc
    exact simpleName_of_memberName hw hne hc
  | rooted hr hk hm hw hp =>
    subst hr
    rw [callee?_scoped hf hk, hm, hp] at hc
    simp only [memberName, hw] at hc
    exact ⟨w, (Except.ok.inj hc).symm, hne, rfl⟩
  | path hr hk hm hw hp hpa =>
    subst hr
    rw [callee?_scoped hf hk, hm, hp] at hc
    simp only [memberName, hw, hpa] at hc
    exact ⟨_, (Except.ok.inj hc).symm, hne, rfl⟩

end Callee

end Sluice.Source
