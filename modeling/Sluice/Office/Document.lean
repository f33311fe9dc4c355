import Sluice.Office.Check.Markup
import Sluice.Office.Check.Redlining
import Sluice.Office.Check.References
import Sluice.Office.Check.Schema
import Sluice.Office.Comments

/-!
# Documents under revision

A document is revised in a copy of its directory, which is packed at the start for comparison and put back when it is
saved.
-/

namespace Sluice.Office

/-! ## Validation

Each check is run even if one before it failed, unless a part cannot be parsed. -/

open Act

variable (lab : Laboratory)

def Inspection.begin (dir archive : Path) (verbose : Bool) : Act Inspection := do
  let i : Inspection := { files := (← get).tree, dir := dir.resolve, archive, verbose, laboratory := lab }
  if i.parts.isEmpty then print s!"Warning: No XML files found in {i.dir.toString}"
  pure i

inductive Check
  | wellFormed
  | prefixes
  | numbers
  | files
  | references
  | types
  | schemas
  | blanks
  | deletions
  | insertions
  | identifiers
  | layouts
  | oneLayout
  | notes

variable (s : Standard) (i : Inspection)

def Check.run : Check → Act Bool
  | wellFormed => (checkWellFormed i).print
  | prefixes => do
    (← ofResult (checkPrefixes i)).print
  | numbers => (checkNumbers i).print
  | files => (checkFiles i).print
  | references => (checkReferences s i).print
  | types => (checkTypes i).print
  | schemas => do
    (← checkSchemas i).print
  | blanks => (checkBlanks i).print
  | deletions => (checkDeletions i).print
  | insertions => (checkInsertions i).print
  | identifiers => (checkIdentifiers i).print
  | layouts => (checkLayouts i).print
  | oneLayout => (checkOneLayout i).print
  | notes => (checkNotes i).print

def Standard.checks : Standard → List Check
  | .common => []
  | .text => [.prefixes, .numbers, .files, .types, .schemas, .blanks, .deletions, .insertions, .references]
  | .slides => [.prefixes, .numbers, .identifiers, .files, .layouts, .types, .schemas, .notes, .references, .oneLayout]

def runChecks : List Check → Act Bool
  | [] => pure true
  | c :: cs => do pure ((← c.run s i) && (← runChecks cs))

/-- **Inspects a document by a standard** and says whether it passed. -/
def Standard.validate : Act Bool := do
  match s with
  | .common => fail ⟨.unsupported, "Subclasses must implement the validate method"⟩
  | _ =>
    if !(← Check.wellFormed.run s i) then pure false
    else
      let good ← runChecks s i s.checks
      if s = .text then compareParagraphs i
      pure good

open CommandLine in
def validateArguments : List Argument :=
  [.word "unpacked_dir",
   { flags := ["--original"], required := true },
   { flags := ["-v", "--verbose"], arity := .zero,
     default := false }]

def require (condition : Bool) (message : String) : Act Unit := if condition then pure () else fail ⟨.required, message⟩

def validateCommand (argv : List String) : Act Unit := do
  let args ← arguments (CommandLine.parse validateArguments argv)
  let path (name : String) : Path := .ofString (args.text name)
  let dir := path "unpacked_dir"
  let archive := path "original"
  let verbose := (args.get "verbose").truthy
  let tree := (← get).tree
  require (tree.isDir dir) s!"Error: {dir.toString} is not a directory"
  require (tree.isFile archive) s!"Error: {archive.toString} is not a file"
  match Kind.ofPath? archive with
  | none => fail ⟨.required, s!"Error: {archive.toString} must be a .docx, .pptx, or .xlsx file"⟩
  | some .sheets =>
    print s!"Error: Validation not supported for file type {Text.S.lower archive.suffix}"
    exit 1
  | some .text =>
    let i ← Inspection.begin lab dir archive verbose
    finish ((← Standard.text.validate i) && (← checkRevisions dir archive verbose))
  | some .slides => finish (← Standard.slides.validate (← Inspection.begin lab dir archive verbose))
where
  finish (good : Bool) : Act Unit := do
    if good then print "All validations PASSED!"
    exit (if good then 0 else 1)

/-! ## Documents under revision -/

structure Document where
  desk : Desk
  source : Path

namespace Document

def copyPath : Path := temporary.child "unpacked"

def firstState : Path := temporary.child "original.docx"

/-- **Makes a change on the desk.** What was changed before a fault stays changed. -/
def perform {α : Type} (d : Document) (e : Edit α) : Act (Result α × Document) := do
  let s ← get
  let (r, desk) := e.run.run { d.desk with files := s.tree, draws := s.draws }
  set { s with tree := desk.files, draws := desk.draws }
  pure (r, { d with desk := { desk with files := {} } })

def openIn (dir rsid author initials stamp : String) (tracking : Bool) : Act Document := do
  let source := Path.ofString dir
  let tree := (← get).tree
  if !tree.isDir source then fail (.badValue s!"Directory not found: {dir}")
  let tree := tree.copy source copyPath
  modify fun s => { s with tree }
  let ms ← ofResult (pack tree source)
  modify fun s => { s with tree := s.tree.write firstState (.archive ms) }
  let rsid ← if rsid = "" then drawId else pure rsid
  print s!"Using RSID: {rsid}"
  let d : Document := { source, desk := { base := copyPath, signature? := some { rsid, author, initials, stamp } } }
  let (r, d) ← d.perform (Edit.prepare tracking)
  let () ← ofResult r
  pure d

def openPart (path : String) : Act Document := do
  let d : Document := { source := .ofString path, desk := {} }
  if !(← get).tree.pathExists d.source then fail (.badValue s!"XML file not found: {path}")
  let (r, d) ← d.perform (Edit.part path)
  let _ ← ofResult r
  pure d

def validate : Act Unit := do
  let i ← Inspection.begin lab copyPath firstState false
  if !(← Standard.text.validate i) then fail (.badValue "Schema validation failed")
  if !(← checkRevisions copyPath firstState false) then fail (.badValue "Redlining validation failed")

variable (d : Document)

def putBack (destination : String) : Act Unit := do
  let target := if destination = "" then d.source else Path.ofString destination
  changeTree fun t => (t.makeAll target).map (·.copy copyPath target)

/-- **Saves a document**: its parts into the copy, and, if the copy passes the checks, the copy into a directory. -/
def save (destination : String) (checked : Bool) : Act (Result Unit × Document) := do
  let (r, d) ← d.perform Edit.saveAll
  match r with
  | .error f => pure (.error f, d)
  | .ok () =>
    let r ← attempt (do
      if checked then validate lab
      d.putBack destination)
    pure (r, d)

def savePart : Act (Result Unit × Document) := do
  d.perform (do
    Edit.save (← Edit.part d.source.toString))

end Document

/-!
## Revisions

Steps find nodes, keep them under names and change what is kept.
-/

/-- A step of a revision. Nodes are given by the names under which they were kept. -/
inductive Step
  | find (q : Description)
  | child (node : String) (index : Int)
  | replace (node xml : String)
  | insertAfter (node xml : String)
  | insertBefore (node xml : String)
  | append (node xml : String)
  | revertInsertion (node : String)
  | revertDeletion (node : String)
  | suggestDeletion (node : String)
  | suggestParagraph (xml : String)
  | nextRelationship
  | encoding
  | dump
  | addComment (start stop text : String)
  | answer (parent : Value) (text : String)
  | comments
  | save (destination : String) (checked : Bool)
  | validate

def Step.needsDocument : Step → Bool
  | addComment .. | answer .. | comments | validate => true
  | _ => false

inductive Given
  | nothing
  | text (s : String)
  | number (n : Int)
  | node (m : Nat)
  | nodes (ms : List Nat)

def Given.first? : Given → Option Nat
  | node m => some m
  | nodes ms => ms.head?
  | _ => none

def Given.toValue (d : Desk) : Given → Value
  | nothing => .null
  | text s => s
  | number n => n
  | node m => written m
  | nodes ms => .list (ms.map written)
where
  written (m : Nat) : Value := ((d.find? m).map (Value.str ·.toMarkup)).getD .null

open Edit

structure Revision where
  document : Document
  defaultPart : String := mainPart
  single : Bool := false
  kept : List (String × Nat) := []

def Edit.childAt (m? : Option Nat) (index : Int) : Edit Nat := do
  let n ← node (← kept m?)
  let k := if index < 0 then index + n.children.length else index
  match if k < 0 then none else n.children[k.toNat]? with
  | some c => pure c.mark
  | none => throw ⟨.index, (if n.isElement then "list" else "tuple") ++ " index out of range"⟩

def commentsText (d : Desk) : String :=
  let sorted := d.comments.mergeSort fun a b => decide (a.1 ≤ b.1)
  Json.render {} (.list [d.nextComment, .list (sorted.map fun (n, p) => .list [n, .map [("para_id", p)]])])

def Step.edit (nodeOf : String → Option Nat) (part : String) : Step → Edit Given
  | find q => do
    pure (.node (← Edit.find part q).mark)
  | child n i => Given.node <$> childAt (nodeOf n) i
  | replace n xml => Given.nodes <$> replaceNode part (nodeOf n) xml
  | insertAfter n xml => Given.nodes <$> insertMarkupAfter part (nodeOf n) xml
  | insertBefore n xml => Given.nodes <$> insertMarkupBefore part (nodeOf n) xml
  | append n xml => Given.nodes <$> appendMarkup part (nodeOf n) xml
  | revertInsertion n => Given.nodes <$> Edit.revertInsertion part (nodeOf n)
  | revertDeletion n => Given.nodes <$> Edit.revertDeletion part (nodeOf n)
  | suggestDeletion n => Given.node <$> Edit.suggestDeletion part (nodeOf n)
  | suggestParagraph xml => Given.text <$> Edit.ofResult (Edit.suggestParagraph xml)
  | nextRelationship => do
    pure (.text s!"rId{Number.intText (← Edit.nextRelationship part)}")
  | encoding => do
    pure (.text (← Edit.part part).encoding)
  | dump => do
    pure (.text (Dom.render .plain "" (← Edit.part part).roots))
  | addComment a b text => Given.number <$> Edit.addComment (nodeOf a) (nodeOf b) text
  | answer parent text => Given.number <$> answerComment parent text
  | comments => do
    pure (.text (commentsText (← get)))
  | save .. | validate => pure .nothing

namespace Revision

variable (r : Revision)

def node? (name : String) : Option Nat := (r.kept.find? (·.1 == name)).map (·.2)

def keep (name : String) (m : Nat) : Revision := { r with kept := (name, m) :: r.kept }

def runStep (part? : Option String) (step : Step) : Act (Result Given × Document) :=
  if r.single && step.needsDocument then pure (.error (.noField "document"), r.document)
  else match step with
    | .save destination checked => do
      let (result, d) ← if r.single then r.document.savePart else r.document.save lab destination checked
      pure (result.map fun _ => .nothing, d)
    | .validate => do
      pure ((← Act.attempt (Document.validate lab)).map fun _ => .nothing, r.document)
    | step => r.document.perform (step.edit r.node? (part?.getD r.defaultPart))

/-- **Runs a step**, and keeps the first node that it gives under a name. -/
def run (part? name? : Option String) (step : Step) : Act (Result Value × Revision) := do
  let (result, document) ← r.runStep lab part? step
  let r := { r with document }
  match result with
  | .error f => pure (.error f, r)
  | .ok given =>
    let r := match name?, given.first? with
      | some name, some m => r.keep name m
      | _, _ => r
    pure (.ok (given.toValue document.desk), r)

end Revision

end Sluice.Office
