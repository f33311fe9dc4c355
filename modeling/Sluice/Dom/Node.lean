import Sluice.Markup.Document
import Sluice.Number.Decimal

/-!
# Documents that are edited

The nodes of a document carry **marks**. A mark occurs once, so that `edit m f` changes one place: it puts `f n` where
the node `n` with the mark `m` stands.
-/

namespace Sluice.Dom

open String (join ofList)

structure Attribute where
  name : String
  space? : Option String := none
  value : String

def localName (name : String) : String := (⟨name, none⟩ : Markup.Name).localPart

namespace Attribute

variable (attributes : List Attribute) (name : String)

def get? : Option String := (attributes.find? (·.name == name)).map (·.value)

def get : String := (get? attributes name).getD ""

def has : Bool := attributes.any (·.name == name)

def add (a : Attribute) : List Attribute :=
  attributes.filter (fun b => !(b.name == a.name || (b.space? == a.space? && localName b.name == localName a.name))) ++ [a]

def set (name value : String) : List Attribute :=
  if has attributes name then attributes.map fun a => if a.name == name then { a with value } else a
  else add attributes ⟨name, none, value⟩

def setNew (name value : String) : List Attribute := if has attributes name then attributes else set attributes name value

def erase : List Attribute := attributes.filter (·.name != name)

def copied : List Attribute := attributes.foldl (fun acc a => set acc a.name a.value) []

end Attribute

/-! ## Nodes -/

structure Tag where
  name : String
  attributes : List Attribute := []
  line? : Option Nat := none

/-- What a node without children holds. -/
inductive Leaf
  | text
  | section
  | comment
  | instruction (target : String)

inductive Node
  | element (mark : Nat) (tag : Tag) (children : List Node)
  | leaf (mark : Nat) (kind : Leaf) (data : String)

namespace Node

def mark : Node → Nat
  | element m _ _ => m
  | leaf m _ _ => m

def children : Node → List Node
  | element _ _ cs => cs
  | leaf .. => []

def tag? : Node → Option Tag
  | element _ t _ => some t
  | leaf .. => none

def isElement : Node → Bool
  | element .. => true
  | leaf .. => false

def isText : Node → Bool
  | leaf _ .text _ => true
  | _ => false

def name : Node → String
  | element _ t _ => t.name
  | leaf _ .text _ => "#text"
  | leaf _ .section _ => "#cdata-section"
  | leaf _ .comment _ => "#comment"
  | leaf _ (.instruction target) _ => target

def attributes : Node → List Attribute
  | element _ t _ => t.attributes
  | leaf .. => []

def valueOf (n : Node) (name : String) : String := Attribute.get n.attributes name

def changeAttributes (f : List Attribute → List Attribute) : Node → Node
  | element m t cs => element m { t with attributes := f t.attributes } cs
  | n => n

def changeChildren (f : List Node → List Node) : Node → Node
  | element m t cs => element m t (f cs)
  | n => n

def isNamed (name : String) : Node → Bool
  | element _ t _ => t.name == name
  | leaf .. => false

end Node

/-! ## Views -/

mutual

def Node.elements : Node → List Node
  | .element m t cs => .element m t cs :: elementsOf cs
  | .leaf .. => []

def elementsOf : List Node → List Node
  | [] => []
  | n :: ns => n.elements ++ elementsOf ns

end

def named (name : String) (nodes : List Node) : List Node := (elementsOf nodes).filter (·.isNamed name)

def Node.inside (n : Node) (name : String) : List Node := named name n.children

mutual

def Node.marks : Node → List Nat
  | .element m _ cs => m :: marksOf cs
  | .leaf m _ _ => [m]

def marksOf : List Node → List Nat
  | [] => []
  | n :: ns => n.marks ++ marksOf ns

end

mutual

def Node.find? (m : Nat) : Node → Option Node
  | .element k t cs => if k = m then some (.element k t cs) else findIn? m cs
  | .leaf k kind data => if k = m then some (.leaf k kind data) else none

def findIn? (m : Nat) : List Node → Option Node
  | [] => none
  | n :: ns =>
    match n.find? m with
    | some found => some found
    | none => findIn? m ns

end

mutual

def Node.around? (m : Nat) : Node → Option (List Node)
  | .element k t cs => if k = m then some [] else (aroundIn? m cs).map (· ++ [.element k t cs])
  | .leaf k _ _ => if k = m then some [] else none

def aroundIn? (m : Nat) : List Node → Option (List Node)
  | [] => none
  | n :: ns =>
    match n.around? m with
    | some found => some found
    | none => aroundIn? m ns

end

mutual

def Node.editInside (m : Nat) (f : Node → List Node) : Node → Node
  | .element k t cs => .element k t (edit m f cs)
  | .leaf k kind data => .leaf k kind data

/-- **Puts `f n` in the place of the node `n` with a mark.** -/
def edit (m : Nat) (f : Node → List Node) : List Node → List Node
  | [] => []
  | n :: ns => if n.mark = m then f n ++ ns else n.editInside m f :: edit m f ns

end

mutual

def Node.number (next : Nat) : Node → Node × Nat
  | .element _ t cs =>
    let (cs, after) := numberAll (next + 1) cs
    (.element next t cs, after)
  | .leaf _ kind data => (.leaf next kind data, next + 1)

def numberAll (next : Nat) : List Node → List Node × Nat
  | [] => ([], next)
  | n :: ns =>
    let (n, next) := n.number next
    let (ns, next) := numberAll next ns
    (n :: ns, next)

end

mutual

def Node.mapInside (name : String) (f : Tag → Tag) : Node → Node
  | .element m t cs => .element m t (mapNamed name f cs)
  | .leaf m kind data => .leaf m kind data

def mapNamed (name : String) (f : Tag → Tag) : List Node → List Node
  | [] => []
  | n :: ns =>
    (match n.mapInside name f with
      | .element m t cs => .element m (if t.name = name then f t else t) cs
      | leaf => leaf) :: mapNamed name f ns

end

/-!
## Reading documents

Read **as written**, names keep their prefixes, and comments and sections are kept. Read **tracked**, elements know
their lines, a name gets the prefix last bound to its namespace, and sections are text.
-/

inductive Manner
  | asWritten
  | tracked
deriving DecidableEq

def declarations (declared : Pairs) : List Attribute :=
  declared.map fun (p, uri) => ⟨if p = "" then "xmlns" else "xmlns:" ++ p, some Markup.xmlnsSpace, uri⟩

def reprefixed (bound : Pairs) (n : Markup.Name) : String :=
  match n.space? with
  | none => n.written
  | some uri =>
    match bound.find? (·.1 == uri) with
    | some (_, "") => n.localPart
    | some (_, p) => s!"{p}:{n.localPart}"
    | none => n.written

/-- The namespaces with the prefixes last bound to them, after more declarations. -/
def bind (bound declared : Pairs) : Pairs := (declared.map fun (p, uri) => (uri, p)).reverse ++ bound

def joinTexts : List Node → List Node
  | [] => []
  | n :: ns =>
    match n, joinTexts ns with
    | .leaf m .text a, .leaf _ .text b :: rest => .leaf m .text (a ++ b) :: rest
    | n, rest => n :: rest

mutual

def ofMarkup (manner : Manner) (lineOf : Nat → Nat) (bound : Pairs) : Markup.Node → List Node
  | .element name attributes declared left children =>
    match manner with
    | .asWritten =>
      [.element 0 ⟨name.written, declarations declared ++ attributes.map (fun (n, v) => ⟨n.written, n.space?, v⟩), none⟩
        (ofMarkups manner lineOf bound children)]
    | .tracked =>
      let bound := bind bound declared
      let own := attributes.map fun (n, v) => (⟨reprefixed bound n, n.space?, v⟩ : Attribute)
      [.element 0 ⟨reprefixed bound name, (own ++ declarations declared).foldl Attribute.add [], some (lineOf left)⟩
        (joinTexts (ofMarkups manner lineOf bound children))]
  | .text s => [.leaf 0 .text (ofList s)]
  | .section s =>
    if s.isEmpty then []
    else [.leaf 0 (if manner = .tracked then .text else .section) (ofList s)]
  | .comment s => if manner = .tracked then [] else [.leaf 0 .comment (ofList s)]
  | .instruction t d => [.leaf 0 (.instruction (ofList t)) (ofList d)]

def ofMarkups (manner : Manner) (lineOf : Nat → Nat) (bound : Pairs) : List Markup.Node → List Node
  | [] => []
  | n :: ns => ofMarkup manner lineOf bound n ++ ofMarkups manner lineOf bound ns

end

def placeText (sep₁ sep₂ : String) (text : Chars) (left : Nat) : String :=
  let (line, column) := Markup.placeOf text left
  sep₁ ++ ofList (Number.natText line) ++ sep₂ ++ ofList (Number.natText column)

def malformed (text : Chars) (e : Markup.Malformed) : Fault :=
  ⟨.markupEvents, e.cause.message ++ placeText ": line " ", column " text e.left⟩

def read (text : String) (next : Nat) : Result (List Node × Nat) :=
  match Markup.nodesOf {} text.toList with
  | .ok nodes => .ok (numberAll next (ofMarkups .asWritten (fun _ => 0) [] nodes))
  | .error e => .error (malformed text.toList e)

def initialBinding : Pairs := [(Markup.xmlSpace, "xml")]

def readTracked (text : String) (next : Nat) : Result (List Node × Nat) :=
  let s := text.toList
  match Markup.nodesOf {} s with
  | .ok nodes =>
    let lineOf (left : Nat) : Nat := (Markup.placeOf (Markup.dropMark s) left).1
    .ok (numberAll next (ofMarkups .tracked lineOf initialBinding nodes))
  | .error e => .error ⟨.markupPart, "<unknown>" ++ placeText ":" ":" s e.left ++ ": " ++ e.cause.message⟩

/-!
## Writing documents

A node is written as it stands or **in lines**: every child on its own line, except an only text.
-/

structure Layout where
  /-- what one more level adds in front of a line -/
  step : String := ""
  lineEnd : String := ""

def Layout.plain : Layout := {}

def Layout.inLines : Layout := ⟨"  ", "\n"⟩

/-- Text with its special characters written as references. -/
def escape (s : String) : String := Text.S.referred [('"', "&quot;")] s

def writeAttributes (attributes : List Attribute) : String :=
  String.join (attributes.map fun a => " " ++ a.name ++ "=\"" ++ escape a.value ++ "\"")

mutual

def Node.writeAt (l : Layout) (indent : String) : Node → String
  | .element _ t cs =>
    let head := indent ++ "<" ++ t.name ++ writeAttributes t.attributes
    let tail := "</" ++ t.name ++ ">" ++ l.lineEnd
    match cs with
    | [] => head ++ "/>" ++ l.lineEnd
    | [.leaf _ .text s] => head ++ ">" ++ escape s ++ tail
    | [.leaf _ .section s] => head ++ "><![CDATA[" ++ s ++ "]]>" ++ tail
    | c :: cs => head ++ ">" ++ l.lineEnd ++ writeAllAt l (indent ++ l.step) (c :: cs) ++ indent ++ tail
  | .leaf _ .text s => escape (indent ++ s ++ l.lineEnd)
  | .leaf _ .section s => "<![CDATA[" ++ s ++ "]]>"
  | .leaf _ .comment s => indent ++ "<!--" ++ s ++ "-->" ++ l.lineEnd
  | .leaf _ (.instruction target) s => indent ++ "<?" ++ target ++ " " ++ s ++ "?>" ++ l.lineEnd

def writeAllAt (l : Layout) (indent : String) : List Node → String
  | [] => ""
  | n :: ns => n.writeAt l indent ++ writeAllAt l indent ns

end

def Node.toMarkup (n : Node) : String := n.writeAt .plain ""

/-- The markup of a document with its declaration, which names an encoding if there is one. -/
def render (l : Layout) (encoding : String) (roots : List Node) : String :=
  "<?xml version=\"1.0\" " ++ (if encoding = "" then "" else "encoding=\"" ++ encoding ++ "\"") ++ "?>" ++
    l.lineEnd ++ writeAllAt l "" roots

def toAscii (s : String) : String :=
  join (s.toList.map fun c => if c.toNat < 128 then c.toString else "&#" ++ ofList (Number.natText c.toNat) ++ ";")

end Sluice.Dom
