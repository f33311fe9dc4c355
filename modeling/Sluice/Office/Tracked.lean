import Sluice.Office.Desk

/-!
# Signing changes

Elements that come into a document are **signed** with session, author and time.
-/

namespace Sluice.Office.Edit

open Dom

inductive Extension
  | w14
  | w16du
  | w16cex

def Extension.declaration : Extension → String
  | .w14 => "xmlns:w14"
  | .w16du => "xmlns:w16du"
  | .w16cex => "xmlns:w16cex"

def Extension.uri : Extension → String
  | .w14 => "http://schemas.microsoft.com/office/word/2010/wordml"
  | .w16du => "http://schemas.microsoft.com/office/word/2023/wordml/word16du"
  | .w16cex => "http://schemas.microsoft.com/office/word/2018/wordml/cex"

variable (sig : Signature) (part : String) (m : Nat) (m? : Option Nat) (xml : String)

def declare (e : Extension) : Edit Unit := do changeAttributes (← root part).mark (Attribute.setNew · e.declaration e.uri)

def changeIds (nodes : List Node) : List String := (named "w:ins" nodes ++ named "w:del" nodes).map (·.valueOf "w:id")

def nextChangeId : Edit Int := do pure (largest (-1) (changeIds (← Edit.part part).roots) + 1)

def setMissing (name : String) (make : Edit String) : Edit Unit := do
  if !Attribute.has (← node m).attributes name then
    let value ← make
    changeAttributes m (Attribute.set · name value)

def signParagraph : Edit Unit := do
  setMissing m "w:rsidR" (pure sig.rsid)
  setMissing m "w:rsidRDefault" (pure sig.rsid)
  setMissing m "w:rsidP" (pure sig.rsid)
  let number : Edit String := do
    declare part .w14
    drawId
  setMissing m "w14:paraId" number
  setMissing m "w14:textId" number

def signRun : Edit Unit := do
  let deleted := ((← get).around m).any (·.isNamed "w:del")
  setMissing m (if deleted then "w:rsidDel" else "w:rsidR") (pure sig.rsid)

def signChange : Edit Unit := do
  setMissing m "w:id" do ofResult (Number.wholeText (← nextChangeId part))
  setMissing m "w:author" (pure sig.author)
  setMissing m "w:date" (pure sig.stamp)
  setMissing m "w16du:dateUtc" do
    declare part .w16du
    pure sig.stamp

def signComment : Edit Unit := do
  setMissing m "w:author" (pure sig.author)
  setMissing m "w:date" (pure sig.stamp)
  setMissing m "w:initials" (pure sig.initials)

def signExtension : Edit Unit :=
  setMissing m "w16cex:dateUtc" do
    declare part .w16cex
    pure sig.stamp

def hasOuterBlank (s : String) : Bool := s.toList.head?.any Text.isBlank || s.toList.getLast?.any Text.isBlank

def markText : Edit Unit := do
  match (← node m).children with
  | .leaf _ .text s :: _ => if hasOuterBlank s then setMissing m "xml:space" (pure "preserve")
  | _ => pure ()

def signByName (name : String) (m : Nat) : Edit Unit :=
  match name with
  | "w:p" => signParagraph sig part m
  | "w:r" => signRun sig m
  | "w:t" => markText m
  | "w:ins" | "w:del" => signChange sig part m
  | "w:comment" => signComment sig m
  | "w16cex:commentExtensible" => signExtension sig part m
  | _ => pure ()

def signedNames : List String := ["w:p", "w:r", "w:t", "w:ins", "w:del", "w:comment", "w16cex:commentExtensible"]

def signAll : Edit Unit := do
  let n ← node m
  if n.isElement then
    signByName sig part n.name m
    each (fun name => do
      let n ← node m
      each (signByName sig part name ·.mark) (n.inside name)) signedNames

/-- **Signs the elements among some nodes** and all that is in them, if the desk has a signature. -/
def sign (ms : List Nat) : Edit Unit := do
  match (← get).signature? with
  | some sig => each (signAll sig part) ms
  | none => pure ()

def replaceNode : Edit (List Nat) := do
  let m ← kept m?
  let new ← fragment part xml
  insertBefore m new
  detach m
  sign part (new.map (·.mark))
  pure (new.map (·.mark))

def insertMarkupAfter : Edit (List Nat) := do
  let m ← kept m?
  let new ← fragment part xml
  insertAfter m new
  sign part (new.map (·.mark))
  pure (new.map (·.mark))

def insertMarkupBefore : Edit (List Nat) := do
  let m ← kept m?
  let new ← fragment part xml
  insertBefore m new
  sign part (new.map (·.mark))
  pure (new.map (·.mark))

def appendMarkup : Edit (List Nat) := do
  let new ← fragment part xml
  append (← kept m?) new
  sign part (new.map (·.mark))
  pure (new.map (·.mark))

/-!
## Tracked changes

Deleted runs stand in `w:del`, and their texts are `w:delText` instead of `w:t`; inserted runs stand in `w:ins`.
-/

open Attribute (copied erase get has set setNew)

def signature : Edit Signature := do
  match (← get).signature? with
  | some sig => pure sig
  | none => throw (.noField "rsid")

variable (sig : Signature) (part : String) (m : Nat) (m? : Option Nat) (rsid name : String)

def deleteTexts : Edit Unit := do
  let n ← node m
  each (fun t => do
    let t ← node t.mark
    supplant t.mark ⟨"w:delText", copied t.attributes, none⟩) (n.inside "w:t")

variable (attributes : List Attribute)

def deletedRun : List Attribute :=
  if has attributes "w:rsidR" then
    erase (set attributes "w:rsidDel" (get attributes "w:rsidR")) "w:rsidR"
  else setNew attributes "w:rsidDel" rsid

def restoredRun : List Attribute :=
  if has attributes "w:rsidDel" then
    erase (set attributes "w:rsidR" (get attributes "w:rsidDel")) "w:rsidDel"
  else setNew attributes "w:rsidR" rsid

def wrapChildren (picks : Node → Bool) : Edit Nat := do
  let w ← fresh
  changeChildren m fun cs => cs.filter (!picks ·) ++ [.element w ⟨name, [], none⟩ (cs.filter picks)]
  pure w

def ensureInside : Edit Nat := do
  match (← node m).inside name with
  | e :: _ => pure e.mark
  | [] =>
    let e ← fresh
    changeChildren m (· ++ [.element e ⟨name, [], none⟩ []])
    pure e

def deleteRun : Edit Nat := do
  let n ← node m
  if !(n.inside "w:delText").isEmpty then throw (.badValue "w:r element already contains w:delText")
  deleteTexts m
  changeAttributes m (deletedRun sig.rsid)
  if (← get).isLoose m then throw (.noField "insertBefore")
  let w ← fresh
  modify fun d => d.edit m fun n => [.element w ⟨"w:del", [], none⟩ [n]]
  sign part [w]
  pure w

def deleteParagraph : Edit Nat := do
  let n ← node m
  if !(n.inside "w:ins").isEmpty || !(n.inside "w:del").isEmpty then
    throw (.badValue "w:p element already contains tracked changes")
  match n.inside "w:pPr" with
  | properties :: _ =>
    if !(properties.inside "w:numPr").isEmpty then
      let r ← ensureInside properties.mark "w:rPr"
      let marker ← fresh
      changeChildren r (.element marker ⟨"w:del", [], none⟩ [] :: ·)
  | [] => pure ()
  deleteTexts m
  let n ← node m
  each (changeAttributes ·.mark (deletedRun sig.rsid)) (n.inside "w:r")
  sign part [← wrapChildren m "w:del" (·.name != "w:pPr")]
  pure m

/-- **Suggests that a run or a paragraph be deleted.** -/
def suggestDeletion : Edit Nat := do
  let sig ← signature
  let m ← kept m?
  let n ← node m
  if !n.isElement && (n.name == "w:r" || n.name == "w:p") then throw (.noField "getElementsByTagName")
  match n.name with
  | "w:r" => deleteRun sig part m
  | "w:p" => deleteParagraph sig part m
  | name => throw (.badValue ("Element must be w:r or w:p, got " ++ name))

def changesIn (n : Node) (name : String) : Result (List Node) :=
  if !n.isElement then .error (.noField "tagName")
  else if n.isNamed name then .ok [n]
  else .ok (n.inside name)

def rejectInsertion : Edit Unit := do
  let runs := (← node m).inside "w:r"
  if !runs.isEmpty then
    each (fun r => do
      changeAttributes r.mark (deletedRun sig.rsid)
      deleteTexts r.mark) runs
    sign part [← wrapChildren m "w:del" (fun _ => true)]

/-- **Takes insertions back**: the one given, or all in the element given. -/
def revertInsertion : Edit (List Nat) := do
  let sig ← signature
  let m ← kept m?
  let n ← node m
  let changes ← ofResult (changesIn n "w:ins")
  if changes.isEmpty then
    throw (.badValue ("revert_insertion requires w:ins elements. The provided element <" ++ n.name ++
      "> contains no insertions. "))
  each (rejectInsertion sig part ·.mark) changes
  pure [m]

def restored (run : Node) : Node :=
  (run.mapInside "w:delText" fun t => { t with name := "w:t", attributes := copied t.attributes }).changeAttributes
    (restoredRun rsid)

def rejectDeletion : Edit (Option Nat) := do
  let runs := (← node m).inside "w:r"
  if runs.isEmpty then pure none
  else
    let insertion := Node.element 0 ⟨"w:ins", [], none⟩ (runs.map (restored sig.rsid))
    pure (← insertMarkupAfter part (some m) insertion.toMarkup).head?

/-- Takes deletions back one after another; gives the first insertion. -/
def rejectDeletions : List Nat → Edit (Option Nat)
  | [] => pure none
  | m :: ms => do
    let first ← rejectDeletion sig part m
    let later ← rejectDeletions ms
    pure (first.orElse fun _ => later)

/-- **Takes deletions back**: the one given, or all in the element given. -/
def revertDeletion : Edit (List Nat) := do
  let sig ← signature
  let m ← kept m?
  let n ← node m
  let changes ← ofResult (changesIn n "w:del")
  if changes.isEmpty then
    throw (.badValue ("revert_deletion requires w:del elements. The provided element <" ++ n.name ++
      "> contains no deletions. "))
  let created? ← rejectDeletions sig part (changes.map (·.mark))
  pure (if n.isNamed "w:del" then m :: created?.toList else [m])

def wordSpace : String := "http://schemas.openxmlformats.org/wordprocessingml/2006/main"

mutual

def changeInside? (name : String) (f : Node → Node) : Node → Option Node
  | .element m t cs => (changeFirst? name f cs).map (.element m t)
  | .leaf .. => none

def changeFirst? (name : String) (f : Node → Node) : List Node → Option (List Node)
  | [] => none
  | n :: ns =>
    if n.isNamed name then some (f n :: ns)
    else
      match changeInside? name f n with
      | some n => some (n :: ns)
      | none => (changeFirst? name f ns).map (n :: ·)

end

def made (name : String) (cs : List Node := []) : Node := .element 0 ⟨name, [], none⟩ cs

def markLook (look : Node) : Node := look.changeChildren (made "w:ins" :: ·)

def markProperties (properties : Node) : Node :=
  properties.changeChildren fun cs => (changeFirst? "w:rPr" markLook cs).getD (cs ++ [markLook (made "w:rPr")])

def suggested (p : Node) : Node :=
  p.changeChildren fun cs =>
    let cs := (changeFirst? "w:pPr" markProperties cs).getD (markProperties (made "w:pPr") :: cs)
    cs.filter (·.name == "w:pPr") ++ [made "w:ins" (cs.filter (·.name != "w:pPr"))]

/-- **A paragraph as a suggestion**: it is marked as inserted, and so is all that it holds besides its
properties. -/
def suggestParagraph (xml : String) : Result String := do
  let (roots, _) ← read s!"<root xmlns:w=\"{wordSpace}\">{xml}</root>" 0
  match named "w:p" roots with
  | [] => .error ⟨.index, "list index out of range"⟩
  | p :: _ => pure (suggested p).toMarkup

end Sluice.Office.Edit
