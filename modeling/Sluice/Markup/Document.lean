import Sluice.Markup.Doctype

/-!
# Documents

Tokens become events, events a tree of nodes. A **reading** says whether prefixes are resolved and what becomes of
references to entities.
-/

namespace Sluice.Markup

/-- What becomes of a reference to an entity that is not written out. -/
inductive Unwritten
  /-- it stands for nothing -/
  | drop
  | refuse

structure Reading where
  namespaces : Bool := true
  expands : Bool := true
  /-- what becomes of references to entities that stand elsewhere or are not known -/
  unwritten : Unwritten := .refuse

structure Name where
  written : String
  space? : Option String := none

namespace Name

def localPart (n : Name) : String :=
  match Text.cutOnce [':'] n.written.toList with
  | some (_, s) => String.ofList s
  | none => n.written

def expanded (n : Name) : String :=
  match n.space? with
  | some u => "\x7b" ++ u ++ "\x7d" ++ n.localPart
  | none => n.written

end Name

/-- What happens while a document is read. -/
inductive Event
  /-- an element starts: its name, its attributes, the prefixes that it declares, and how much text
  there is from its tag on -/
  | start (name : Name) (attributes : List (Name × String)) (declared : Pairs) (left : Nat)
  | finish
  | text (s : Chars)
  | section (s : Chars)
  | comment (s : Chars)
  | instruction (target data : Chars)

/-- An element that is open: its written name, and what prefixes mean inside it. -/
structure OpenElement where
  written : String
  spaces : Pairs

structure Source where
  text : Chars
  /-- how many elements were open where it started -/
  depth : Nat
  entity? : Option String

def xmlSpace : String := "http://www.w3.org/XML/1998/namespace"

def xmlnsSpace : String := "http://www.w3.org/2000/xmlns/"

def prefixOf? (written : String) : Option String := (Text.cutOnce [':'] written.toList).map fun (p, _) => String.ofList p

def declaredPrefix? (written : String) : Option String :=
  if written = "xmlns" then some ""
  else if prefixOf? written = some "xmlns" then some ((⟨written, none⟩ : Name).localPart)
  else none

def checkBinding (pre uri : String) : Except Cause Unit :=
  if pre = "xmlns" then .error .reservedXmlns
  else if pre = "xml" then if uri = xmlSpace then .ok () else .error .reservedXml
  else if uri = "" ∧ pre ≠ "" then .error .undeclaredPrefix
  else if uri = xmlSpace ∨ uri = xmlnsSpace then .error .reservedName
  else .ok ()

variable (reading : Reading) (known : Known) (spaces : Pairs) (text : Chars)

/-- What a prefix means; the empty one means nothing when it is bound to the empty namespace. -/
def meaning? (pre : String) : Option String :=
  if pre = "xml" then some xmlSpace
  else
    match spaces.find? (·.1 == pre) with
    | some (_, "") => none
    | some (_, u) => some u
    | none => none

def attributeValues (tag : RawTag) (left : Nat) :
    List RawAttribute → Pairs → Except Malformed Pairs
  | [], acc =>
    let given := acc.reverse
    let rules := known.attributes.filter (·.element == tag.name)
    let added := rules.filterMap fun r => if given.any (·.1 == r.name) then none else r.default?.map fun v => (r.name, v)
    .ok (given ++ added)
  | a :: rest, acc =>
    if acc.any (·.1 == a.name) then .error ⟨.duplicateAttribute, a.left⟩
    else
      match known.resolve reading.namespaces (100000 + a.value.length) [] a.value with
      | .error cause => .error ⟨cause, left⟩
      | .ok s =>
        let rule? := known.attributes.find? fun r => r.element == tag.name && r.name == a.name
        let s := if rule?.any fun r => !r.verbatim then collapse s else s
        if reading.namespaces then
          match declaredPrefix? a.name with
          | some p =>
            match checkBinding p (String.ofList s) with
            | .error cause => .error ⟨cause, left⟩
            | .ok () => attributeValues tag left rest ((a.name, String.ofList s) :: acc)
          | none => attributeValues tag left rest ((a.name, String.ofList s) :: acc)
        else attributeValues tag left rest ((a.name, String.ofList s) :: acc)

def resolveAttributes (left : Nat) : Pairs → List (Name × String) → Except Malformed (List (Name × String))
  | [], acc => .ok acc.reverse
  | (written, v) :: rest, acc =>
    match prefixOf? written with
    | none => resolveAttributes left rest ((⟨written, none⟩, v) :: acc)
    | some p =>
      match meaning? spaces p with
      | none => .error ⟨.unboundPrefix, left⟩
      | some u =>
        let name : Name := ⟨written, some u⟩
        if acc.any fun a => a.1.space? == some u && a.1.localPart == name.localPart then
          .error ⟨.duplicateAttribute, left⟩
        else resolveAttributes left rest ((name, v) :: acc)

def openTag (tag : RawTag) (left : Nat) : Except Malformed (Event × OpenElement) := do
  let values ← attributeValues reading known tag left tag.attributes []
  if !reading.namespaces then
    pure (.start ⟨tag.name, none⟩ (values.map fun (n, v) => (⟨n, none⟩, v)) [] left, ⟨tag.name, []⟩)
  else
    let declared := values.filterMap fun (n, v) => (declaredPrefix? n).map fun p => (p, v)
    let spaces := declared.reverse ++ spaces
    let plain := values.filter fun (n, _) => (declaredPrefix? n).isNone
    let attributes ← resolveAttributes spaces left plain []
    let space? ← match prefixOf? tag.name with
      | none => pure (meaning? spaces "")
      | some p =>
        match meaning? spaces p with
        | some u => pure (some u)
        | none => .error ⟨.unboundPrefix, left⟩
    pure (.start ⟨tag.name, space?⟩ attributes declared left, ⟨tag.name, spaces⟩)

/-- What becomes of a reference to an entity inside an element. -/
inductive Expansion
  | chars (s : Chars)
  | nothing
  | source (s : Chars)
  | error (cause : Cause)

def expansion (busy : List String) (name : String) : Expansion :=
  let skipped : Expansion := match reading.unwritten with
    | .drop => .nothing
    | .refuse => .error (.unknownEntity name)
  match predefined? name with
  | some c => .chars [c]
  | none =>
    match known.entities.find? (·.1 == name) with
    | none => if known.more && !known.standalone then skipped else .error .undefinedEntity
    | some (_, e) =>
      if busy.contains name then .error .recursiveEntity
      else
        match e with
        | .binary => .error .binaryEntity
        | .external => skipped
        | .text s => if reading.expands then .source s else .nothing

def contentEvents : (fuel : Nat) → List Source → List OpenElement → List Event → Except Malformed (List Event × Chars)
  | 0, _, _, _ => .error ⟨.noElement, 0⟩
  | _, [], _, _ => .error ⟨.noElement, 0⟩
  | fuel + 1, source :: outer, stack, acc =>
    -- places inside an entity are told by the reference to it
    let place (n : Nat) : Nat := match outer.getLast? with
      | some s => s.text.length
      | none => n
    let go (rest : Chars) (stack : List OpenElement) (acc : List Event) : Except Malformed (List Event × Chars) :=
      if stack.isEmpty then .ok (acc, rest)
      else contentEvents fuel ({ source with text := rest } :: outer) stack acc
    if source.text.isEmpty then
      if outer.isEmpty then .error ⟨.noElement, 0⟩
      else if stack.length ≠ source.depth then .error ⟨.straddlingEntity, place 0⟩
      else contentEvents fuel outer stack acc
    else
      let left := place source.text.length
      match scanContent reading.namespaces source.text with
      | .invalid at_ => .error ⟨.invalidToken, place at_.length⟩
      | .cut => .error ⟨.unclosedToken, left⟩
      | .ok token rest =>
        match token with
        | .data s => go rest stack (.text (unifyEnds s) :: acc)
        | .section s => go rest stack (.section (unifyEnds s) :: acc)
        | .openSection => .error ⟨.unclosedSection, left⟩
        | .comment s => go rest stack (.comment (unifyEnds s) :: acc)
        | .instruction t d => go rest stack (.instruction t (unifyEnds d) :: acc)
        | .declaration _ => .error ⟨.misplacedDeclaration, left⟩
        | .open tag => do
          let spaces := (stack.head?.map (·.spaces)).getD []
          let (event, element) ← openTag reading known spaces tag left
          if tag.closed then go rest stack (.finish :: event :: acc)
          else go rest (element :: stack) (event :: acc)
        | .close name =>
          if stack.length ≤ source.depth then .error ⟨.straddlingEntity, left⟩
          else
            match stack with
            | [] => .error ⟨.tagMismatch, left⟩
            | top :: stack =>
              if top.written = name then go rest stack (.finish :: acc)
              else .error ⟨.tagMismatch, place (source.text.length - 2)⟩
        | .reference (.char c?) =>
          match c? with
          | none => .error ⟨.badCharacterNumber, left⟩
          | some c => go rest stack (.text [c] :: acc)
        | .reference (.entity name) =>
          match expansion reading known ((source :: outer).filterMap (·.entity?)) name with
          | .chars s => go rest stack (.text s :: acc)
          | .nothing => go rest stack acc
          | .error cause => .error ⟨cause, left⟩
          | .source s =>
            contentEvents fuel
              (⟨s, stack.length, some name⟩ :: { source with text := rest } :: outer) stack acc

def tailEvents (namespaces : Bool) : (fuel : Nat) → Chars → List Event → Except Malformed (List Event)
  | 0, _, acc => .ok acc
  | fuel + 1, s, acc =>
    let s := s.dropWhile isSpace
    if s.isEmpty then .ok acc
    else
      match scanHead namespaces s with
      | .ok (.comment c) rest => tailEvents namespaces fuel rest (.comment (unifyEnds c) :: acc)
      | .ok (.instruction t d) rest => tailEvents namespaces fuel rest (.instruction t (unifyEnds d) :: acc)
      | .ok _ _ => .error ⟨.junkAfterRoot, s.length⟩
      | .invalid place => .error ⟨.invalidToken, place.length⟩
      | .cut => .error ⟨.unclosedToken, s.length⟩

def headEvents (whole : Nat) :
    (fuel : Nat) → (known : Known) → (typed : Bool) → Chars → List Event → Except Malformed (List Event)
  | 0, _, _, _, _ => .error ⟨.noElement, 0⟩
  | fuel + 1, known, typed, s, acc => do
    let (t, rest, left) ← nextHead reading.namespaces s
    match t with
    | .comment c => headEvents whole fuel known typed rest (.comment (unifyEnds c) :: acc)
    | .instruction t d => headEvents whole fuel known typed rest (.instruction t (unifyEnds d) :: acc)
    | .declaration d =>
      if left = whole then
        match declaration? d with
        | some alone => headEvents whole fuel { known with standalone := alone } typed rest acc
        | none => .error ⟨.badDeclaration, left⟩
      else .error ⟨.misplacedDeclaration, left⟩
    | .declare "DOCTYPE" =>
      if typed then .error ⟨.misspelled, left⟩
      else do
        let (known, rest) ← Head.doctype known reading.namespaces rest
        headEvents whole fuel known true rest acc
    | .root => do
      let (acc, rest) ← contentEvents reading known (100 * rest.length + 1000) [⟨rest, 0, none⟩] [] acc
      tailEvents reading.namespaces (rest.length + 1) rest acc
    | t => unexpected t left

def dropMark (s : Chars) : Chars := if s.head? = some '﻿' then s.drop 1 else s

def events : Except Malformed (List Event) := do
  let s := dropMark text
  pure (← headEvents reading s.length (s.length + 1) {} false s []).reverse

inductive Node
  | element (name : Name) (attributes : List (Name × String)) (declared : Pairs)
      (left : Nat) (children : List Node)
  | text (s : Chars)
  | section (s : Chars)
  | comment (s : Chars)
  | instruction (target data : Chars)

/-- An element whose children are still being collected, the last one first. -/
structure PartialElement where
  name : Name
  attributes : List (Name × String)
  declared : Pairs
  left : Nat
  children : List Node

/-- Adds a character run behind the nodes collected so far; neighbouring runs are one text. -/
def addText (s : Chars) : List Node → List Node
  | .text t :: rest => .text (t ++ s) :: rest
  | nodes => .text s :: nodes

def buildNodes : List Event → (top : List Node) → (stack : List PartialElement) → List Node
  | [], top, _ => top.reverse
  | e :: rest, top, stack =>
    let add (f : List Node → List Node) : List Node := 
      match stack with
      | [] => buildNodes rest (f top) []
      | p :: stack => buildNodes rest top ({ p with children := f p.children } :: stack)
    match e with
    | .start name attributes declared left => buildNodes rest top (⟨name, attributes, declared, left, []⟩ :: stack)
    | .finish =>
      match stack with
      | [] => buildNodes rest top []
      | p :: stack =>
        let node := Node.element p.name p.attributes p.declared p.left p.children.reverse
        match stack with
        | [] => buildNodes rest (node :: top) []
        | q :: stack => buildNodes rest top ({ q with children := node :: q.children } :: stack)
    | .text s => add (addText s)
    | .section s => add (.section s :: ·)
    | .comment s => add (.comment s :: ·)
    | .instruction t d => add (.instruction t d :: ·)

/-- The nodes of a text: those before the root element, the root element, those behind it. -/
def nodesOf : Except Malformed (List Node) := (events reading text).map (buildNodes · [] [])

def Node.isElement : Node → Bool
  | .element .. => true
  | _ => false

def placeOf (left : Nat) : Nat × Nat :=
  let before := text.take (text.length - left)
  let lines := Text.splitAtChar '\n' (unifyEnds before)
  (lines.length, (lines.getLast?.getD []).length)

end Sluice.Markup
