import Sluice.Markup.Token

/-!
# What stands before the root element

The grammar of a document type declaration and what it makes known: entities, and attributes with defaults.
-/

namespace Sluice.Markup

open String (ofList)
open Text (oneOf)

/-- Why a text is no document. -/
inductive Cause
  | invalidToken
  | unclosedToken
  | unclosedSection
  | noElement
  | misspelled
  | tagMismatch
  | duplicateAttribute
  | unboundPrefix
  | undeclaredPrefix
  | reservedXml
  | reservedXmlns
  | reservedName
  | undefinedEntity
  | unknownEntity (name : String)
  | recursiveEntity
  | straddlingEntity
  | externalInAttribute
  | binaryEntity
  | parameterReference
  | badCharacterNumber
  | misplacedDeclaration
  | badDeclaration
  | badPublicId
  | junkAfterRoot

def Cause.message : Cause → String
  | .invalidToken => "not well-formed (invalid token)"
  | .unclosedToken => "unclosed token"
  | .unclosedSection => "unclosed CDATA section"
  | .noElement => "no element found"
  | .misspelled => "syntax error"
  | .tagMismatch => "mismatched tag"
  | .duplicateAttribute => "duplicate attribute"
  | .unboundPrefix => "unbound prefix"
  | .undeclaredPrefix => "must not undeclare prefix"
  | .reservedXml => "reserved prefix (xml) must not be undeclared or bound to another namespace name"
  | .reservedXmlns => "reserved prefix (xmlns) must not be declared or undeclared"
  | .reservedName => "prefix must not be bound to one of the reserved namespace names"
  | .undefinedEntity => "undefined entity"
  | .unknownEntity name => s!"undefined entity &{name};"
  | .recursiveEntity => "recursive entity reference"
  | .straddlingEntity => "asynchronous entity"
  | .externalInAttribute => "reference to external entity in attribute"
  | .binaryEntity => "reference to binary entity"
  | .parameterReference => "illegal parameter entity reference"
  | .badCharacterNumber => "reference to invalid character number"
  | .misplacedDeclaration => "XML or text declaration not at start of entity"
  | .badDeclaration => "XML declaration not well-formed"
  | .badPublicId => "illegal character(s) in public id"
  | .junkAfterRoot => "junk after document element"

/-- A text that is no document: why, and how much text there is from the place on. -/
structure Malformed where
  cause : Cause
  left : Nat

/-! ## Tokens of the head -/

inductive HeadToken
  | space
  | comment (s : Chars)
  | instruction (target data : Chars)
  | declaration (s : Chars)
  | declare (keyword : String)
  | root
  | literal (s : Chars)
  | name (s : String)
  | nameToken (s : String)
  | repeated (s : String)
  | mark (c : Char)
  | groupEnd
  | percent
  | parameter (name : String)
  | pound (name : String)
  | conditional
deriving DecidableEq

def scanLiteral (mark : Char) (s : Chars) : Scanned HeadToken :=
  let rec body : Chars → Chars → Scanned HeadToken
    | [], _ => .cut
    | c :: rest, acc =>
      if c = mark then
        match rest with
        | [] => .ok (.literal acc.reverse) []
        | d :: _ => if isSpace d || oneOf ">%[" d then .ok (.literal acc.reverse) rest else .invalid rest
      else if !isMarkupChar c then .invalid (c :: rest)
      else body rest (c :: acc)
  body s []

variable (namespaces : Bool) (s : Chars) (known : Known)

def scanDeclaration : Scanned HeadToken :=
  let isLetter (c : Char) : Bool := c.isAlpha || c == '_' || (!namespaces && c == ':')
  match s with
  | [] => .cut
  | '-' :: rest => (scanComment rest).map .comment
  | '[' :: rest => .ok .conditional rest
  | c :: _ =>
    if !isLetter c then .invalid s
    else
      let word := s.takeWhile isLetter
      match s.drop word.length with
      | [] => .cut
      | '%' :: rest =>
        match rest with
        | [] => .cut
        | d :: _ =>
          if isSpace d || d == '%' then .invalid ('%' :: rest)
          else .ok (.declare (ofList word)) ('%' :: rest)
      | d :: rest => if isSpace d then .ok (.declare (ofList word)) (d :: rest) else .invalid (d :: rest)

def scanPercent : Scanned HeadToken :=
  match s with
  | [] => .cut
  | c :: _ =>
    if isSpace c || c == '%' then .ok .percent s
    else if !isNameStart c then .invalid s
    else
      let name := s.takeWhile isNameChar
      match s.drop name.length with
      | [] => .cut
      | ';' :: rest => .ok (.parameter (ofList name)) rest
      | place => .invalid place

def scanPound : Scanned HeadToken :=
  match s with
  | [] => .cut
  | c :: _ =>
    if !isNameStart c then .invalid s
    else
      let name := s.takeWhile isNameChar
      match s.drop name.length with
      | [] => .ok (.pound (ofList name)) []
      | d :: rest => if isSpace d || oneOf ")>%|" d then .ok (.pound (ofList name)) (d :: rest) else .invalid (d :: rest)

def scanWord : Scanned HeadToken :=
  let word := s.takeWhile fun c => isNameChar c || c == ':'
  let text := ofList word
  let isName := match word with
    | c :: _ => startsName namespaces c && (!namespaces || match Text.cutOnce [':'] word with
      | some (_, tail) => !tail.isEmpty && !tail.contains ':'
      | none => true)
    | [] => false
  let token : HeadToken := if isName then .name text else .nameToken text
  let startsAsName := word.head?.any isNameStart
  match s.drop word.length with
  | [] => if namespaces && startsAsName && word.count ':' == 1 && word.getLast? == some ':' then .cut
    else .ok token []
  | c :: rest =>
    if isSpace c || oneOf ">),|[%" c then .ok token (c :: rest)
    else if oneOf "+*?" c then
      if isName then .ok (.repeated text) rest else .invalid (c :: rest)
    else .invalid (c :: rest)

def scanHead : Scanned HeadToken :=
  match s with
  | [] => .cut
  | '<' :: rest =>
    match rest with
    | [] => .cut
    | '!' :: after => scanDeclaration namespaces after
    | '?' :: after => (scanInstruction namespaces after).map fun t => match t with
      | .declaration d => .declaration d
      | .instruction t d => .instruction t d
      | _ => .space
    | c :: _ =>
      if c.isAlpha || c == '_' || c.toNat ≥ 128 || (!namespaces && c == ':') then .ok .root s
      else .invalid rest
  | '"' :: rest => scanLiteral '"' rest
  | '\x27' :: rest => scanLiteral '\x27' rest
  | '%' :: rest => scanPercent rest
  | '#' :: rest => scanPound rest
  | ')' :: rest =>
    match rest with
    | [] => .ok (.mark ')') []
    | c :: after =>
      if oneOf "+*?" c then .ok .groupEnd after
      else if isSpace c || oneOf ">,|)" c then .ok (.mark ')') rest
      else .invalid rest
  | ']' :: rest =>
    match rest with
    | [']'] => .cut
    | ']' :: '>' :: after => .ok .conditional after
    | _ => .ok (.mark ']') rest
  | c :: rest =>
    if isSpace c then .ok .space (rest.dropWhile isSpace)
    else if oneOf ",[(|>" c then .ok (.mark c) rest
    else if isNameChar c || c == ':' then scanWord namespaces s
    else .invalid s

def nextHead : Except Malformed (HeadToken × Chars × Nat) :=
  let s := s.dropWhile isSpace
  if s.isEmpty then .error ⟨.noElement, 0⟩
  else
    match scanHead namespaces s with
    | .ok t rest => .ok (t, rest, s.length)
    | .invalid place => .error ⟨.invalidToken, place.length⟩
    | .cut => .error ⟨.unclosedToken, s.length⟩

/-! ## What a declaration makes known -/

inductive Entity
  | text (s : Chars)
  | external
  | binary

structure AttributeRule where
  element : String
  name : String
  /-- whether white space in its value is kept -/
  verbatim : Bool
  default? : Option String

structure Known where
  entities : List (String × Entity) := []
  attributes : List AttributeRule := []
  more : Bool := false
  /-- whether the document says that none of those matter -/
  standalone : Bool := false
  counting : Bool := true

def predefined? : String → Option Char
  | "lt" => some '<'
  | "gt" => some '>'
  | "amp" => some '&'
  | "quot" => some '"'
  | "apos" => some '\x27'
  | _ => none

def unifyEnds : Chars → Chars
  | [] => []
  | '\r' :: '\n' :: rest => '\n' :: unifyEnds rest
  | '\r' :: rest => '\n' :: unifyEnds rest
  | c :: rest => c :: unifyEnds rest

def blankSpaces : Chars := (unifyEnds s).map fun c => if isSpace c then ' ' else c

/-- The parts of a text in which references are resolved but tags are not looked for. -/
def piecesOf : (fuel : Nat) → Chars → Chars → List Piece → Except Cause (List Piece)
  | 0, _, _, acc => .ok acc.reverse
  | fuel + 1, s, run, acc =>
    let flushed := if run.isEmpty then acc else .data run.reverse :: acc
    match s with
    | [] => .ok flushed.reverse
    | '&' :: rest =>
      match scanReference namespaces rest with
      | .ok r after => piecesOf fuel after [] (.reference r :: flushed)
      | _ => .error .invalidToken
    | '<' :: _ => .error .invalidToken
    | c :: rest => piecesOf fuel rest (c :: run) acc

/-- The value of the parts of an attribute. An entity may not occur in its own text. -/
def Known.resolve (namespaces : Bool) : (fuel : Nat) → (busy : List String) → List Piece → Except Cause Chars
  | 0, _, _ => .error .recursiveEntity
  | _, _, [] => .ok []
  | fuel + 1, busy, .data s :: rest => do
    pure (blankSpaces s ++ (← resolve namespaces fuel busy rest))
  | fuel + 1, busy, .reference (.char c?) :: rest =>
    match c? with
    | none => .error .badCharacterNumber
    | some c => do
      pure (c :: (← resolve namespaces fuel busy rest))
  | fuel + 1, busy, .reference (.entity name) :: rest => do
    let value ←
      match predefined? name with
      | some c => pure [c]
      | none =>
        match known.entities.find? (·.1 == name) with
        | none => if known.more && !known.standalone then pure [] else .error .undefinedEntity
        | some (_, e) =>
          if busy.contains name then .error .recursiveEntity
          else
            match e with
            | .binary => .error .binaryEntity
            | .external => .error .externalInAttribute
            | .text s => do resolve namespaces fuel (name :: busy) (← piecesOf namespaces (s.length + 1) s [] [])
    pure (value ++ (← resolve namespaces fuel busy rest))

def entityText : (fuel : Nat) → Chars → Except Cause Chars
  | 0, _ => .ok []
  | _, [] => .ok []
  | fuel + 1, '&' :: rest =>
    match scanReference namespaces rest with
    | .ok (.char none) _ => .error .badCharacterNumber
    | .ok (.char (some c)) after => do
      pure (c :: (← entityText fuel after))
    | .ok (.entity name) after => do
      pure ('&' :: name.toList ++ ';' :: (← entityText fuel after))
    | _ => .error .invalidToken
  | _ + 1, '%' :: rest =>
    match scanPercent rest with
    | .ok (.parameter _) _ => .error .parameterReference
    | _ => .error .invalidToken
  | fuel + 1, c :: rest => do pure (c :: (← entityText fuel rest))

def collapse : Chars := Text.join [' '] (Text.wordsBy (· == ' ') s)

/-! ## The grammar -/

def unexpected {α : Type} (t : HeadToken) (left : Nat) : Except Malformed α :=
  match t with
  | .parameter _ => .error ⟨.parameterReference, left⟩
  | .declaration _ => .error ⟨.misplacedDeclaration, left⟩
  | _ => .error ⟨.misspelled, left⟩

/-- Reads on in a head, with or without namespaces. -/
abbrev Head := ReaderT Bool (StateT Chars (Except Malformed))

namespace Head

def next : Head (HeadToken × Nat) := do
  let (t, rest, left) ← nextHead (← read) (← get)
  set rest
  pure (t, left)

def ofCause {α : Type} (left : Nat) (r : Except Cause α) : Head α := r.mapError (Malformed.mk · left)

def expect {α : Type} (part? : HeadToken → Option α) : Head α := do
  let (t, left) ← next
  match part? t with
  | some a => pure a
  | none => unexpected t left

def literal : Head Chars := expect fun
  | .literal l => some l
  | _ => none

def name : Head String := expect fun
  | .name n => some n
  | _ => none

def close : Head Unit := expect fun t => if t = .mark '>' then some () else none

def isPublicIdChar (c : Char) : Bool := c.isAlphanum || oneOf " \n\r-'()+,./:=?;!*#@$_%" c

def publicId : Head Unit := do
  let l ← literal
  if !l.all isPublicIdChar then throw ⟨.badPublicId, (← get).length + l.length + 2⟩

def skipDeclaration : (fuel : Nat) → Head Unit
  | 0 => throw ⟨.noElement, 0⟩
  | fuel + 1 => do
    let (t, left) ← next
    match t with
    | .mark '>' => pure ()
    | .name _ | .nameToken _ | .repeated _ | .literal _ | .mark '(' | .mark ')' | .mark ',' | .mark '|'
    | .groupEnd | .pound _ => skipDeclaration fuel
    | t => unexpected t left

def entityDeclaration (known : Known) : Head Known := do
  let (t, left) ← next
  let parameter := t == .percent
  let name ← match t with
    | .percent => name
    | .name n => if (← read) && n.toList.contains ':' then unexpected t left else pure n
    | t => unexpected t left
  let add (e : Entity) : Known :=
    if parameter || !known.counting || (predefined? name).isSome || known.entities.any (·.1 == name) then known
    else { known with entities := known.entities ++ [(name, e)] }
  let outside : Head Known := do
    let _ ← literal
    let (t, left) ← next
    match t with
    | .mark '>' => pure (add .external)
    | .name "NDATA" =>
      if parameter then unexpected t left
      let _ ← Head.name
      close
      pure (add .binary)
    | t => unexpected t left
  let (t, left) ← next
  match t with
  | .literal l =>
    let text ← ofCause left (entityText (← read) (l.length + 1) l)
    close
    pure (add (.text (unifyEnds text)))
  | .name "SYSTEM" => outside
  | .name "PUBLIC" =>
    publicId
    outside
  | t => unexpected t left

def valueGroup : (fuel : Nat) → Head Unit
  | 0 => throw ⟨.noElement, 0⟩
  | fuel + 1 => do
    expect fun
      | .name _ | .nameToken _ => some ()
      | _ => none
    let (t, left) ← next
    match t with
    | .mark ')' => pure ()
    | .mark '|' => valueGroup fuel
    | t => unexpected t left

/-- Whether white space in the values of an attribute is kept. -/
def valueType : Head Bool := do
  let group : Head Bool := do
    valueGroup (← get).length
    pure false
  let (t, left) ← next
  match t with
  | .name "CDATA" => pure true
  | .name "ID" | .name "IDREF" | .name "IDREFS" | .name "ENTITY" | .name "ENTITIES" | .name "NMTOKEN"
  | .name "NMTOKENS" => pure false
  | .name "NOTATION" =>
    expect fun t => if t = .mark '(' then some () else none
    group
  | .mark '(' => group
  | t => unexpected t left

def attributeDeclarations (element : String) : (fuel : Nat) → Known → Head Known
  | 0, _ => throw ⟨.noElement, 0⟩
  | fuel + 1, known => do
    let (t, left) ← next
    match t with
    | .mark '>' => pure known
    | .name label =>
      let verbatim ← valueType
      let (t, left) ← next
      let value (l : Chars) : Head (Option String) := do
        let namespaces ← read
        let s ← ofCause left (piecesOf namespaces (l.length + 1) l [] [] >>= known.resolve namespaces 10000 [])
        pure (some (ofList (if verbatim then s else collapse s)))
      let default? ← match t with
        | .pound "IMPLIED" | .pound "REQUIRED" => pure none
        | .pound "FIXED" => literal >>= value
        | .literal l => value l
        | t => unexpected t left
      let seen := known.attributes.any fun r => r.element == element && r.name == label && r.default?.isSome
      attributeDeclarations element fuel (if known.counting && !seen then
          { known with attributes := known.attributes ++ [⟨element, label, verbatim, default?⟩] }
        else known)
    | t => unexpected t left

def innerDeclarations : (fuel : Nat) → Known → Head Known
  | 0, _ => throw ⟨.noElement, 0⟩
  | fuel + 1, known => do
    let (t, left) ← next
    match t with
    | .mark ']' => pure known
    | .comment _ | .instruction _ _ => innerDeclarations fuel known
    | .parameter _ => innerDeclarations fuel { known with more := true, counting := known.standalone }
    | .declare "ENTITY" => innerDeclarations fuel (← entityDeclaration known)
    | .declare "ATTLIST" =>
      let element ← name
      innerDeclarations fuel (← attributeDeclarations element (← get).length known)
    | .declare "ELEMENT" | .declare "NOTATION" =>
      let _ ← name
      skipDeclaration (← get).length
      innerDeclarations fuel known
    | t => unexpected t left

def inside (known : Known) (t : HeadToken) (left : Nat) : Head Known :=
  match t with
  | .mark '>' => pure known
  | .mark '[' => do
    let known ← innerDeclarations (← get).length known
    close
    pure known
  | t => unexpected t left

def system (known : Known) : Head Known := do
  let _ ← literal
  let (t, left) ← next
  inside { known with more := true } t left

def doctype (known : Known) : Head Known := do
  let _ ← name
  let (t, left) ← next
  match t with
  | .name "SYSTEM" => system known
  | .name "PUBLIC" =>
    publicId
    system known
  | t => inside known t left

end Head

def setting? : Option (Option (String × String) × Chars) :=
  match s with
  | [] => some (none, [])
  | c :: _ =>
    if !isSpace c then none
    else
      let s := s.dropWhile isSpace
      if s.isEmpty then some (none, [])
      else
        let name := s.takeWhile fun d => d != '=' && !isSpace d
        match (s.drop name.length).dropWhile isSpace with
        | '=' :: rest =>
          if name.isEmpty || name.any (·.toNat ≥ 128) then none
          else
            match rest.dropWhile isSpace with
            | q :: rest =>
              if q != '"' && q != '\x27' then none
              else
                let value := rest.takeWhile fun d => d.isAlphanum || oneOf ".-_" d
                match rest.drop value.length with
                | e :: rest => if e == q then some (some (ofList name, ofList value), rest) else none
                | [] => none
            | [] => none
        | _ => none

/-- What the declaration at the start says about standing alone; none if it is malformed. -/
def declaration? : Option Bool := do
  let (first?, rest) ← setting? (if s.isEmpty then [] else ' ' :: s)
  let (name, _) ← first?
  if name != "version" then none
  else
    let (second?, rest) ← setting? rest
    match second? with
    | none => some false
    | some (name, value) =>
      let (third?, rest) ←
        if name = "encoding" then
          if value.toList.head?.any Char.isAlpha then setting? rest else none
        else some (some (name, value), rest)
      match third? with
      | none => some false
      | some (name, value) =>
        if name != "standalone" || !(rest.dropWhile isSpace).isEmpty then none
        else if value = "yes" then some true
        else if value = "no" then some false
        else none

end Sluice.Markup
