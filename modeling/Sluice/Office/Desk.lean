import Sluice.Dom.Node
import Sluice.Html.Reference
import Sluice.Machine.FileTree

/-!
# Desks

The parts of an office document that are being edited: trees of nodes, all with different marks, and **loose** nodes. An
`Edit` changes the desk and may fail; what it changed stays changed.
-/

namespace Sluice.Office

open Dom Text Number

structure Part where
  path : Path
  ascii : Bool := false
  roots : List Node

structure Signature where
  rsid : String
  author : String := "Claude"
  initials : String := "C"
  stamp : String

structure Desk where
  files : FileTree := {}
  base : Path := ⟨"", []⟩
  parts : List (String × Part) := []
  loose : List Node := []
  next : Nat := 0
  draws : Nat := 0
  /-- who signs changes, if anyone does -/
  signature? : Option Signature := none
  comments : List (Int × String) := []
  nextComment : Int := 0

abbrev Edit := ExceptT Fault (StateM Desk)

namespace Desk

variable (d : Desk) (m : Nat)

def forest : List Node := d.parts.flatMap (·.2.roots) ++ d.loose

def find? : Option Node := findIn? m d.forest

def around : List Node := (aroundIn? m d.forest).getD []

def isLoose : Bool := d.loose.any (·.mark == m)

def isTop : Bool := d.parts.any fun p => p.2.roots.any (·.mark == m)

def isLastTop : Bool := d.parts.any fun p => p.2.roots.getLast?.any (·.mark == m)

/-- **Puts `f n` in the place of the node `n` with a mark.** -/
def edit (d : Desk) (m : Nat) (f : Node → List Node) : Desk :=
  { d with
    parts := d.parts.map fun (name, p) => (name, { p with roots := Dom.edit m f p.roots })
    loose := Dom.edit m f d.loose }

def keepLoose (n : Node) : Desk := { d with loose := d.loose ++ [n] }

def part? (name : String) : Option Part := (d.parts.find? (·.1 == name)).map (·.2)

end Desk

variable (p : Part)

def Part.root? : Option Node := p.roots.find? (·.isElement)

def Part.encoding : String := if p.ascii then "ascii" else "utf-8"

def Part.text : String :=
  let s := Dom.render .plain p.encoding p.roots
  if p.ascii then toAscii s else s

namespace Edit

def ofResult {α : Type} : Result α → Edit α
  | .ok a => pure a
  | .error f => throw f

def each {α : Type} (f : α → Edit Unit) : List α → Edit Unit
  | [] => pure ()
  | a :: as => do
    f a
    each f as

variable (m : Nat) (new : List Node)

def node : Edit Node := do
  match (← get).find? m with
  | some n => pure n
  | none => throw (.noField "parentNode")

def kept (m? : Option Nat) : Edit Nat :=
  match m? with
  | some m => pure m
  | none => throw (.noField "parentNode")

def changeAttributes (m : Nat) (f : List Attribute → List Attribute) : Edit Unit :=
  modify fun d => d.edit m fun n => [n.changeAttributes f]

def changeChildren (m : Nat) (f : List Node → List Node) : Edit Unit := modify fun d => d.edit m fun n => [n.changeChildren f]

def fresh : Edit Nat := do
  let d ← get
  set { d with next := d.next + 1 }
  pure d.next

def drawId : Edit String := do
  let d ← get
  set { d with draws := d.draws + 1 }
  pure (String.ofList ((hexDigits 8 (d.draws + 1)).map Char.toUpper))

def contentText : Content → String
  | .text s => s
  | c => Utf8.decodeLossy (FileTree.Content.toOctets c)

def namesAscii (c : Content) : Bool :=
  S.contains "encoding=\"ascii\"" (Utf8.decodeLossy ((FileTree.Content.toOctets c).take 200))

/-- The text of a part as it is read: where ASCII is named as the encoding, other characters stand for one that is refused.
-/
def readableText (c : Content) : String :=
  let text := contentText c
  if namesAscii c then String.ofList (text.toList.map fun x => if x.toNat < 128 then x else '\x01') else text

def load (path : Path) : Edit Part := do
  let d ← get
  let content ← ofResult (d.files.open? path path.toString)
  let (roots, next) ← ofResult (readTracked (readableText content) d.next)
  set { d with next }
  pure { path, ascii := namesAscii content, roots }

def part (name : String) : Edit Part := do
  let d ← get
  match d.part? name with
  | some p => pure p
  | none =>
    let path := d.base.joinText name
    if !d.files.pathExists path then throw (.badValue ("XML file not found: " ++ name))
    let p ← load path
    modify fun d => { d with parts := d.parts ++ [(name, p)] }
    pure p

def root (name : String) : Edit Node := do
  match (← part name).root? with
  | some n => pure n
  | none => throw (.noField "documentElement")

def save : Edit Unit := do
  let d ← get
  let files ← ofResult (d.files.saveAs p.path p.path.toString (.text p.text))
  set { d with files }

/-! ## Inserting -/

/-- The nodes of a piece of markup: the prefixes of the part's root are known in it, and there is an element. -/
def fragment (name xml : String) : Edit (List Node) := do
  let p ← part name
  let declared := match p.root? with
    | some root => (root.attributes.filter (S.startsWith "xmlns" ·.name)).map fun a => a.name ++ "=\"" ++ a.value ++ "\""
    | none => []
  let d ← get
  let (roots, next) ← ofResult
    (read ("<root " ++ S.join " " declared ++ ">" ++ xml ++ "</root>") d.next)
  let nodes := ((roots.find? (·.isElement)).map (·.children)).getD []
  if !nodes.any (·.isElement) then throw ⟨.required, "Fragment must contain at least one element"⟩
  set { d with next }
  pure nodes

def misplaced (message : String) : Fault := ⟨.other "HierarchyRequestErr", message⟩

def mayStandAtTop : Node → Bool
  | .leaf _ .text _ | .leaf _ .section _ => false
  | _ => true

/-- Inserts nodes in front of another one. Texts cannot stand beside the root element. -/
def insertBefore : Edit Unit := do
  let d ← get
  if d.isLoose m then throw (.noField "insertBefore")
  else if d.isTop m then
    let fitting := new.takeWhile mayStandAtTop
    set (d.edit m fun n => fitting ++ [n])
    if fitting.length < new.length then throw (misplaced "")
  else set (d.edit m fun n => new ++ [n])

/-- Inserts nodes behind another one. A second root element cannot be put behind everything. -/
def insertAfter : Edit Unit := do
  let d ← get
  if d.isLoose m then throw (.noField "appendChild")
  else if d.isTop m then
    let last := d.isLastTop m
    let fitting := new.takeWhile fun n => mayStandAtTop n && !(last && n.isElement)
    set (d.edit m (· :: fitting))
    match new.drop fitting.length with
    | [] => pure ()
    | n :: _ => throw (misplaced (if n.isElement then "two document elements disallowed" else ""))
  else set (d.edit m (· :: new))

def append : Edit Unit := do
  let n ← node m
  if n.isElement then changeChildren m (· ++ new)
  else throw (misplaced (n.name ++ " nodes cannot have children"))

def detach : Edit Unit := do
  let n ← node m
  modify fun d => (d.edit m fun _ => []).keepLoose n

/-- Puts a new element in the place of another one, whose children it takes over. That one is kept without them. -/
def supplant (tag : Tag) : Edit Unit := do
  let n ← node m
  let new ← fresh
  modify fun d => (d.edit m fun n => [.element new tag n.children]).keepLoose (n.changeChildren fun _ => [])

end Edit

/-! ## Finding elements: exactly one must fit -/

inductive Lines
  | line (n : Int)
  /-- from a line on, up to but without another -/
  | range (first stop : Int)

namespace Lines

def contains : Lines → Nat → Bool
  | line n, k => (k : Int) == n
  | range first stop, k => decide (first ≤ k ∧ k < stop)

def isProper : Lines → Bool
  | line n => n != 0
  | range first stop => decide (first < stop)

def text : Lines → String
  | line n => "line " ++ intText n
  | range first stop => s!"lines {intText first}-{intText (stop - 1)}"

end Lines

structure Description where
  name : String
  attributes? : Option Fields := none
  lines? : Option Lines := none
  contains? : Option String := none

mutual

def content : Node → String
  | .element _ _ cs => contentOf cs
  | .leaf _ .text s => if S.strip s = "" then "" else s
  | .leaf _ _ _ => ""

def contentOf : List Node → String
  | [] => ""
  | n :: ns => content n ++ contentOf ns

end

namespace Description

variable (q : Description)

def fits (n : Node) : Bool :=
  (match q.lines? with
    | none => true
    | some lines => (n.tag?.bind (·.line?)).any lines.contains) &&
  (match q.attributes? with
    | none => true
    | some fields => fields.all fun (k, v) => v == (n.valueOf k)) &&
  (match q.contains? with
    | none => true
    | some part => contains (Html.unescape part.toList) (content n).toList)

def text (q : Description) : String :=
  S.join " "
    ((q.lines?.map ("at " ++ ·.text)).toList ++
      (q.attributes?.map fun fs => "with attributes " ++ Value.quoted (.map fs)).toList ++
      (q.contains?.map ("containing '" ++ · ++ "'")).toList)

def hint : String :=
  if q.contains?.any (· != "") then "Text may be split across elements or use different wording."
  else if q.lines?.any (·.isProper) then "Line numbers may have changed if document was modified."
  else if q.attributes?.any (!·.isEmpty) then "Verify attribute values are correct."
  else "Try adding filters (attrs, line_number, or contains)."

/-- **The element that fits a description** among and in some nodes. -/
def find (nodes : List Node) : Result Node :=
  match (named q.name nodes).filter q.fits with
  | [n] => .ok n
  | [] => .error (.badValue (S.strip ("Node not found: <" ++ q.name ++ "> " ++ q.text) ++ ". " ++ q.hint))
  | _ :: _ :: _ =>
    .error (.badValue ("Multiple nodes found: <" ++ q.name ++
      ">. Add more filters (attrs, line_number, or contains) to narrow the search."))

end Description

namespace Edit

def find (part : String) (q : Description) : Edit Node := do ofResult (q.find (← Edit.part part).roots)

def namedIn (part name : String) : Edit (List Node) := do pure (named name (← Edit.part part).roots)

def largest (least : Int) (texts : List String) : Int :=
  texts.foldl (fun best s => match readInt? s.toList with
    | some n => max best n
    | none => best) least

def nextRelationship (part : String) : Edit Int := do
  let ids := (← namedIn part "Relationship").filterMap fun n => S.dropStart? "rId" (n.valueOf "Id")
  pure (largest 0 ids + 1)

end Edit

end Sluice.Office
