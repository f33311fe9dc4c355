import Sluice.Dom.Node
import Sluice.Machine.Glob
import Sluice.Machine.Session

/-!
# Packages

**Unpacking** an archive puts its parts into a directory, with their markup in lines; **packing** takes that formatting
out again (`condense`): blank texts and comments, except in elements that hold text.
-/

namespace Sluice.Office

open Dom Text Act

def holdsText (name : String) : Bool := S.endsWith ":t" name

def isFormatting : Node → Bool
  | .leaf _ .text s => s != "" && S.strip s == ""
  | .leaf _ .comment _ => true
  | _ => false

mutual

/-- **A node without the formatting inside it.** -/
def condense : Node → Node
  | .element m t cs =>
    .element m t (if holdsText t.name then condenseAll cs
      else (condenseAll cs).filter (!isFormatting ·))
  | .leaf m kind data => .leaf m kind data

def condenseAll : List Node → List Node
  | [] => []
  | n :: ns => condense n :: condenseAll ns

end

def condenseText (text : String) : Result String := do
  let (roots, _) ← read text 0
  pure (render .plain "UTF-8" (condenseAll roots))

def formatText (text : String) : Result String := do
  let (roots, _) ← read text 0
  pure (toAscii (render .inLines "ascii" roots))

def rewriteFiles (f : String → Result String) : List Path → FileTree → Result FileTree
  | [], t => .ok t
  | p :: ps, t => do rewriteFiles f ps (← t.saveText p (← f (← t.readText p)))

variable (t : FileTree) (dir : Path)

/-- The parts of a package that hold markup: first those named so, then the relationships. -/
def markupFiles : List Path := t.matchingBelow dir "*.xml" ++ t.matchingBelow dir "*.rels"

variable (p : Path)

def openArchive (shown : String) : Result Pairs :=
  match t.open? p shown with
  | .error f => .error f
  | .ok (.archive ms) => .ok ms
  | .ok _ => .error ⟨.archive, "File is not a zip file"⟩

/-- Where a member of an archive is put in a directory: it never leaves it. -/
def memberPath (name : String) : Path := ⟨dir.anchor, dir.parts ++ (Path.namesOf name.toList).filter (· != "..")⟩

def extract (ms : Pairs) (dir : Path) : FileTree :=
  ms.foldl (fun t (name, text) =>
    if S.endsWith "/" name then t.makeDirs (memberPath dir name)
    else t.write (memberPath dir name) (.text text)) t

/-- **The members of the archive that a directory is packed into.** -/
def pack : Result Pairs := do
  let place := temporary.child "content"
  let t := t.copy dir place
  pure ((← rewriteFiles condenseText (markupFiles t place) t).members place place)

/-- **Unpacks an archive into a directory** and puts its markup in lines. What was unpacked before a
fault stays. -/
def unpack (ms : Pairs) (dir : Path) : Act Unit := do
  modify fun s => { s with tree := extract s.tree ms dir }
  let files := markupFiles (← get).tree dir
  forEach files fun p => changeTree (rewriteFiles formatText [p])

inductive Kind
  | text
  | slides
  | sheets

def Kind.ofPath? : Option Kind :=
  match S.lower p.suffix with
  | ".docx" => some .text
  | ".pptx" => some .slides
  | ".xlsx" => some .sheets
  | _ => none

def Kind.conversion : Kind → String
  | .text => "html:HTML"
  | .slides => "html:impress_html_Export"
  | .sheets => "html:HTML (StarCalc)"

/-- Whether the office program can open a document. Without the program it is taken to be good. -/
def opens (kind : Kind) (p : Path) : Act Bool := do
  let argv := ["soffice", "--headless", "--convert-to", kind.conversion, "--outdir",
    Act.temporary.toString, p.toString]
  match ← Act.attempt (Act.withTemporary do
      let r ← Act.runCommand argv (.int 10)
      let made := (← get).tree.pathExists (Act.temporary.child s!"{p.stem}.html")
      pure (r, made)) with
  | .ok (_, true) => pure true
  | .ok (r, false) =>
    let why := S.strip r.err
    Act.printErr ("Validation error: " ++ (if why = "" then "Document validation failed" else why))
    pure false
  | .error f =>
    match f.kind with
    | .missingPath =>
      Act.printErr "Warning: soffice not found. Skipping validation."
      pure true
    | .timeout =>
      Act.printErr "Validation error: Timeout during conversion"
      pure false
    | _ =>
      Act.printErr s!"Validation error: {f.message}"
      pure false

def packInto (dir out : Path) (checked : Bool) : Act Bool := do
  let t := (← get).tree
  if !t.isDir dir then Act.fail (.badValue s!"{dir.toString} is not a directory")
  match Kind.ofPath? out with
  | none => Act.fail (.badValue s!"{out.toString} must be a .docx, .pptx, or .xlsx file")
  | some kind =>
    let ms ← Act.ofResult (pack t dir)
    Act.changeTree fun t => t.makeAll out.parent
    Act.changeTree fun t => t.saveAs out out.toString (.archive ms)
    if checked then
      let good ← opens kind out
      if !good then modify fun s => { s with tree := s.tree.remove out }
      pure good
    else pure true

open CommandLine in
def packArguments : List Argument :=
  [.word "input_directory", .word "output_file",
   .switch "--force"]

def packCommand (argv : List String) : Act Unit := do
  let args ← arguments (CommandLine.parse packArguments argv)
  let path (name : String) : Path := .ofString (args.text name)
  let force := (args.get "force").truthy
  catchFault (do
    let good ← packInto (path "input_directory") (path "output_file") (!force)
    if force then printErr "Warning: Skipped validation, file may be corrupt"
    else if !good then
      printErr "Contents would produce a corrupt file."
      printErr "Please validate XML before repacking."
      printErr "Use --force to skip validation and pack anyway."
      Act.exit 1) fun f =>
    if f.kind.blamesValue then throw (.farewell s!"Error: {f.message}") else Act.fail f

def unpackCommand (argv : List String) : Act Unit := do
  match argv with
  | [input, output] =>
    let dir := Path.ofString output
    Act.changeTree fun t => t.makeAll dir
    unpack (← Act.ofResult (openArchive (← get).tree (.ofString input) input)) dir
    if S.endsWith ".docx" input then
      Act.print s!"Suggested RSID for edit session: {← Act.drawId}"
  | _ => Act.fail ⟨.required, "Usage: python unpack.py <office_file> <output_dir>"⟩

/-!
## Inspections

A **check** looks at the parts of an unpacked document and reports line by line. What parsers and schemas say is known
from a **laboratory**.
-/

/-! ## Elements of parts: tags and attributes carry their namespaces in braces -/

structure Head where
  tag : String
  attributes : Pairs := []
  declared : List String := []
  line : Nat := 0

inductive Element
  | node (head : Head) (text? : Option String) (children : List Element) (tail? : Option String)
  | comment (text : String) (tail? : Option String)

namespace Element

def head? : Element → Option Head
  | node h _ _ _ => some h
  | comment .. => none

def children : Element → List Element
  | node _ _ cs _ => cs
  | comment .. => []

def text? : Element → Option String
  | node _ t _ _ => t
  | comment t _ => some t

def hasTag (tag : String) : Element → Bool
  | node h _ _ _ => h.tag == tag
  | comment .. => false

variable (name : String)

def attribute? : Element → Option String
  | node h _ _ _ => (h.attributes.find? (·.1 == name)).map (·.2)
  | comment .. => none

def line : Element → Nat
  | node h _ _ _ => h.line
  | comment .. => 0

def withTail (tail? : Option String) : Element → Element
  | node h t cs _ => node h t cs tail?
  | comment t _ => comment t tail?

def plainName : String :=
  match Text.S.cutLast "\x7d" name with
  | some (_, n) => n
  | none => name

def spaceOf? : Option String :=
  match Text.S.dropStart? "\x7b" name with
  | some rest => some (((Text.S.cutOnce "\x7d" rest).map (·.1)).getD rest)
  | none => none

mutual

def all : Element → List Element
  | node h t cs tail => node h t cs tail :: allOf cs
  | comment t tail => [comment t tail]

def allOf : List Element → List Element
  | [] => []
  | e :: es => e.all ++ allOf es

end

def inside (e : Element) (tag : String) : List Element := (allOf e.children).filter (·.hasTag tag)

mutual

/-- The elements with a tag inside those with another: each with whether something around it has a third. -/
def within (outer tag third : String) (isIn isBarred : Bool) : Element → List (Element × Bool)
  | node h t cs tail =>
    let rest := withinAll outer tag third (isIn || h.tag == outer) (isBarred || h.tag == third) cs
    if isIn && h.tag == tag then (node h t cs tail, isBarred) :: rest else rest
  | comment .. => []

def withinAll (outer tag third : String) (isIn isBarred : Bool) : List Element → List (Element × Bool)
  | [] => []
  | e :: es => within outer tag third isIn isBarred e ++ withinAll outer tag third isIn isBarred es

end

mutual

def prune (drop : Head → Bool) : Element → Element
  | node h t cs tail => node h t (pruneAll drop cs) tail
  | comment t tail => comment t tail

/-- Elements without those that are to be dropped, at any depth. Their tails go with them. -/
def pruneAll (drop : Head → Bool) : List Element → List Element
  | [] => []
  | e :: es =>
    if (match e.head? with
      | some h => drop h
      | none => false) then pruneAll drop es
    else e.prune drop :: pruneAll drop es

end

mutual

def mapAttributes (f : Pairs → Pairs) : Element → Element
  | node h t cs tail => node { h with attributes := f h.attributes } t (mapAllAttributes f cs) tail
  | comment t tail => comment t tail

def mapAllAttributes (f : Pairs → Pairs) : List Element → List Element
  | [] => []
  | e :: es => e.mapAttributes f :: mapAllAttributes f es

end

mutual

/-- An element as a record for schemas: tag, attributes, text, children, and a tail that is not empty. -/
def toValue : Element → Value
  | node h t cs tail =>
    .list ([.str h.tag, .map (h.attributes.map fun (k, v) => (k, v)), optional t, .list (toValues cs)] ++ tailValue tail)
  | comment t tail => .list ([.str "!--", .map [], .str t, .list []] ++ tailValue tail)
where
  optional : Option String → Value
    | some s => s
    | none => .null
  tailValue : Option String → List Value
    | some s => if s = "" then [] else [s]
    | none => []

def toValues : List Element → List Value
  | [] => []
  | e :: es => e.toValue :: toValues es

end

def joinText (a : Chars) (b? : Option String) : Option String :=
  if a.isEmpty then b? else some (String.ofList a ++ b?.getD "")

mutual

def ofNode? (lineOf : Nat → Nat) : Markup.Node → Option Element
  | .element name attributes declared left children =>
    let (text?, elements) := ofNodes lineOf children
    some (node
      { tag := name.expanded
        attributes := attributes.map fun (n, v) => (n.expanded, v)
        declared := (declared.map (·.1)).filter (· != "")
        line := lineOf left } text? elements none)
  | .comment s => some (comment (String.ofList s) none)
  | _ => none

/-- The text in front of the first child among some nodes, and the children with their tails. -/
def ofNodes (lineOf : Nat → Nat) : List Markup.Node → Option String × List Element
  | [] => (none, [])
  | n :: rest =>
    let (text?, elements) := ofNodes lineOf rest
    match ofNode? lineOf n, n with
    | some e, _ => (none, e.withTail text? :: elements)
    | none, .text s => (joinText s text?, elements)
    | none, .section s => (joinText s text?, elements)
    | none, _ => (text?, elements)

end

def parse (text : String) : Except (Nat × String) Element :=
  let s := text.toList
  let lineOf (left : Nat) : Nat := (Markup.placeOf (Markup.dropMark s) left).1
  match Markup.nodesOf {} s with
  | .error e => .error (lineOf e.left, (Dom.malformed s e).message)
  | .ok nodes =>
    match (nodes.filter (·.isElement)).findSome? (ofNode? lineOf) with
    | some e => .ok e
    | none => .error (1, Markup.Cause.noElement.message)

end Element

/-! ## Inspections -/

/-- What the machine's parsers and schemas say about files. -/
structure Laboratory where
  /-- files that cannot be parsed, with the line and the wording; without a line they cannot be read -/
  unreadable : List (String × Option Nat × String) := []
  complaints : List (String × List String) := []

structure Inspection where
  files : FileTree
  dir : Path
  archive : Path
  verbose : Bool := false
  laboratory : Laboratory := {}

/-- Why a part has no element. -/
inductive Unread
  | malformed (line : Nat) (text : String)
  | fault (f : Fault)

def Unread.text : Unread → String
  | malformed _ s => s
  | fault f => f.message

def fileLabel : String := (if p.anchor == Act.temporary.anchor then "original:" else "") ++ Text.S.join "/" p.parts

namespace Inspection

variable (i : Inspection)

def parts : List Path := markupFiles i.files i.dir

def shown : String := ((p.relativeTo? i.dir).getD p).toString

def element (lab : Laboratory) (files : FileTree) (p : Path) : Except Unread Element :=
  match lab.unreadable.find? (·.1 == fileLabel p) with
  | some (_, some line, text) => .error (.malformed line text)
  | some (_, none, text) => .error (.fault ⟨.machine, text⟩)
  | none =>
    match files.readText p with
    | .error f => .error (.fault f)
    | .ok text =>
      match Element.parse text with
      | .ok e => .ok e
      | .error (line, text) => .error (.malformed line text)

def root : Except Unread Element := element i.laboratory i.files p

end Inspection

structure Report where
  passed : Bool
  lines : List String

/-- The findings of a check between a heading and closing lines, or, if details are wanted, that it passed. -/
def Report.of (verbose : Bool) (findings : List String) (heading good : String)
    (closing : List String := []) : Report :=
  if findings.isEmpty then ⟨true, if verbose then [good] else []⟩
  else ⟨false, heading :: findings ++ closing⟩

def countText {α : Type} (items : List α) : String := Number.intText items.length

def Report.found (i : Inspection) (findings : List String) (what good : String) (closing : List String := []) : Report :=
  .of i.verbose findings s!"FAILED - Found {countText findings} {what}:" ("PASSED - " ++ good) closing

def Report.print (r : Report) : Act Bool := do
  Act.forEach r.lines Act.print
  pure r.passed

def partFindings (i : Inspection) (p : Path) (f : Element → List String) : List String :=
  match i.root p with
  | .ok e => (f e).map fun s => s!"  {i.shown p}: {s}"
  | .error u => [s!"  {i.shown p}: Error: {u.text}"]

def atLine (e : Element) (text : String) : String := s!"Line {Number.intText e.line}: {text}"

def compatibilitySpace : String := "http://schemas.openxmlformats.org/markup-compatibility/2006"

def packageRelations : String := "http://schemas.openxmlformats.org/package/2006/relationships"

def officeRelations : String := "http://schemas.openxmlformats.org/officeDocument/2006/relationships"

def contentTypes : String := "http://schemas.openxmlformats.org/package/2006/content-types"

def wordSpaceName : String := "http://schemas.openxmlformats.org/wordprocessingml/2006/main"

def slideSpaceName : String := "http://schemas.openxmlformats.org/presentationml/2006/main"

def inSpace (space name : String) : String := "\x7b" ++ space ++ "\x7d" ++ name

def relationshipsIn (e : Element) : List Element := e.inside (inSpace packageRelations "Relationship")

end Sluice.Office
