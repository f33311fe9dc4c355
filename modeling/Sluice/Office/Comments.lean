import Sluice.Office.Tracked

/-!
# Comments

A comment stands in four parts: its content, who answers whom, and two with its numbers. In the text, a range begins and
ends and a run refers to it.
-/

namespace Sluice.Office

open Dom Text Number

/-! ## New parts -/

def office (place : String) : String := "http://schemas.microsoft.com/office/" ++ place

def formats (place : String) : String := "http://schemas.openxmlformats.org/" ++ place

def commentSpaces : Pairs :=
  [("wpc", office "word/2010/wordprocessingCanvas"), ("cx", office "drawing/2014/chartex"),
   ("cx1", office "drawing/2015/9/8/chartex"), ("cx2", office "drawing/2015/10/21/chartex"),
   ("cx3", office "drawing/2016/5/9/chartex"), ("cx4", office "drawing/2016/5/10/chartex"),
   ("cx5", office "drawing/2016/5/11/chartex"), ("cx6", office "drawing/2016/5/12/chartex"),
   ("cx7", office "drawing/2016/5/13/chartex"), ("cx8", office "drawing/2016/5/14/chartex"),
   ("mc", formats "markup-compatibility/2006"), ("aink", office "drawing/2016/ink"), ("am3d", office "drawing/2017/model3d"),
   ("o", "urn:schemas-microsoft-com:office:office"), ("oel", office "2019/extlst"),
   ("r", formats "officeDocument/2006/relationships"), ("m", formats "officeDocument/2006/math"),
   ("v", "urn:schemas-microsoft-com:vml"), ("wp14", office "word/2010/wordprocessingDrawing"),
   ("wp", formats "drawingml/2006/wordprocessingDrawing"), ("w10", "urn:schemas-microsoft-com:office:word"),
   ("w", formats "wordprocessingml/2006/main"), ("w14", office "word/2010/wordml"), ("w15", office "word/2012/wordml"),
   ("w16cex", office "word/2018/wordml/cex"), ("w16cid", office "word/2016/wordml/cid"), ("w16", office "word/2018/wordml"),
   ("w16du", office "word/2023/wordml/word16du"), ("w16sdtdh", office "word/2020/wordml/sdtdatahash"),
   ("w16sdtfl", office "word/2024/wordml/sdtformatlock"), ("w16se", office "word/2015/wordml/symex"),
   ("wpg", office "word/2010/wordprocessingGroup"), ("wpi", office "word/2010/wordprocessingInk"),
   ("wne", office "word/2006/wordml"), ("wps", office "word/2010/wordprocessingShape")]

/-- The text of a new part for comments: its root element, more namespaces, and prefixes to ignore. -/
def newPart (root : String) (more : Pairs) (ignorable : String) : String :=
  "<?xml version=\"1.0\" encoding=\"UTF-8\" standalone=\"yes\"?>\n<" ++ root ++
    String.join ((commentSpaces ++ more).map fun (p, uri) => s!" xmlns:{p}=\"{uri}\"") ++
    s!" mc:Ignorable=\"{ignorable}\">\n</{root}>"

inductive CommentPart
  | contents
  | answers
  | numbers
  | times
deriving DecidableEq

namespace CommentPart

def all : List CommentPart := [contents, answers, numbers, times]

def file : CommentPart → String
  | contents => "comments.xml"
  | answers => "commentsExtended.xml"
  | numbers => "commentsIds.xml"
  | times => "commentsExtensible.xml"

def name (p : CommentPart) : String := "word/" ++ p.file

def root : CommentPart → String
  | contents => "w:comments"
  | answers => "w15:commentsEx"
  | numbers => "w16cid:commentsIds"
  | times => "w16cex:commentsExtensible"

def relationship : CommentPart → String
  | contents => "http://schemas.openxmlformats.org/officeDocument/2006/relationships/comments"
  | answers => "http://schemas.microsoft.com/office/2011/relationships/commentsExtended"
  | numbers => "http://schemas.microsoft.com/office/2016/09/relationships/commentsIds"
  | times => "http://schemas.microsoft.com/office/2018/08/relationships/commentsExtensible"

def contentType : CommentPart → String
  | contents => "application/vnd.openxmlformats-officedocument.wordprocessingml.comments+xml"
  | answers => "application/vnd.openxmlformats-officedocument.wordprocessingml.commentsExtended+xml"
  | numbers => "application/vnd.openxmlformats-officedocument.wordprocessingml.commentsIds+xml"
  | times => "application/vnd.openxmlformats-officedocument.wordprocessingml.commentsExtensible+xml"

def blank : CommentPart → String
  | times =>
    newPart "w16cex:commentsExtensible"
      [("cr", office "comments/2020/reactions")]
      "w14 w15 w16se w16cid w16 w16cex w16sdtdh w16sdtfl cr w16du wp14"
  | p => newPart p.root [] "w14 w15 w16se w16cid w16 w16cex w16sdtdh w16sdtfl w16du wp14"

end CommentPart

def blankPeople : String :=
  "<?xml version=\"1.0\" encoding=\"UTF-8\" standalone=\"yes\"?>\n<w15:people xmlns:w15=\"http://schemas.microsoft.com/office/word/2012/wordml\">\n</w15:people>"

namespace Edit

def mainPart : String := "word/document.xml"

def relationshipPart : String := "word/_rels/document.xml.rels"

def typePart : String := "[Content_Types].xml"

def ensureFile (name text : String) : Edit Unit := do
  let d ← get
  let path := d.base.joinText name
  if !d.files.pathExists path then
    let files ← ofResult (d.files.saveAs path path.toString (.text text))
    set { d with files }

def addTo (part root xml : String) : Edit Unit := do
  let _ ← appendMarkup part (some (← find part { name := root }).mark) xml
  pure ()

variable (id : Int)

def commentMarkup (paragraph text : String) : String :=
  s!"<w:comment w:id=\"{intText id}\">\n  <w:p w14:paraId=\"{paragraph}" ++
    "\" w14:textId=\"77777777\">\n    <w:r><w:rPr><w:rStyle w:val=\"CommentReference\"/></w:rPr><w:annotationRef/></w:r>\n    <w:r><w:rPr><w:color w:val=\"000000\"/><w:sz w:val=\"20\"/><w:szCs w:val=\"20\"/></w:rPr><w:t>" ++
    S.referred [] text ++ "</w:t></w:r>\n  </w:p>\n</w:comment>"

def referenceMarkup : String :=
  s!"<w:r>\n  <w:rPr><w:rStyle w:val=\"CommentReference\"/></w:rPr>\n  <w:commentReference w:id=\"{intText id}\"/>\n</w:r>"

def startMarkup : String := s!"<w:commentRangeStart w:id=\"{intText id}\"/>"

def endMarkup : String := s!"<w:commentRangeEnd w:id=\"{intText id}\"/>"

open CommentPart

def fileComment (paragraph durable text : String) (parent? : Option String) : Edit Unit := do
  let entry : CommentPart → String
    | .contents => commentMarkup id paragraph text
    | .answers =>
      s!"<w15:commentEx w15:paraId=\"{paragraph}\"" ++
        (match parent? with
          | some "" | none => ""
          | some p => s!" w15:paraIdParent=\"{p}\"") ++ " w15:done=\"0\"/>"
    | .numbers => s!"<w16cid:commentId w16cid:paraId=\"{paragraph}\" w16cid:durableId=\"{durable}\"/>"
    | .times => s!"<w16cex:commentExtensible w16cex:durableId=\"{durable}\"/>"
  each (fun p => do
    ensureFile p.name p.blank
    addTo p.name p.root (entry p)) all

def noteComment (paragraph : String) : Edit Int := do
  modify fun d =>
    { d with
      comments := d.comments.filter (·.1 != id) ++ [(id, paragraph)]
      nextComment := d.nextComment + 1 }
  pure id

/-- **Adds a comment** about the text from one element to another. -/
def addComment (start? end? : Option Nat) (text : String) : Edit Int := do
  let id := (← get).nextComment
  let paragraph ← drawId
  let durable ← drawId
  let _ ← insertMarkupBefore mainPart start? (startMarkup id)
  let n ← node (← kept end?)
  if !n.isElement then throw (.noField "tagName")
  let closing := endMarkup id ++ "\n" ++ referenceMarkup id
  let _ ← if n.isNamed "w:p" then appendMarkup mainPart end? closing
    else insertMarkupAfter mainPart end? closing
  fileComment id paragraph durable text none
  noteComment id paragraph

/-- **Answers a comment.** -/
def answerComment (parent : Value) (text : String) : Edit Int := do
  let d : Desk ← get
  let known? := match parent with
    | .int n => (d.comments.find? (·.1 == n)).map (·.2)
    | _ => none
  match known? with
  | none => throw (Fault.badValue ("Parent comment with id=" ++ parent.text ++ " not found"))
  | some parentParagraph =>
    let id := d.nextComment
    let paragraph ← drawId
    let durable ← drawId
    let number : Fields := [("w:id", parent.text)]
    let start ← find mainPart { name := "w:commentRangeStart", attributes? := some number }
    let reference ← find mainPart { name := "w:commentReference", attributes? := some number }
    let _ ← insertMarkupAfter mainPart (some start.mark) (startMarkup id)
    let d : Desk ← get
    let run? := (d.around reference.mark).head?.map Node.mark
    let _ ← insertMarkupAfter mainPart run? (endMarkup id)
    let _ ← insertMarkupAfter mainPart run? (referenceMarkup id)
    fileComment id paragraph durable text (some parentParagraph)
    noteComment id paragraph

def hasEntry (part element key value : String) : Edit Bool := do
  let es ← namedIn part element
  pure (es.any (·.valueOf key == value))

def rootPrefix (part : String) : Edit String := do
  let r ← root part
  pure (match Markup.prefixOf? r.name with
    | some p => p ++ ":"
    | none => "")

def addRelationship (number : Int) (type target : String) : Edit Unit := do
  let p ← rootPrefix relationshipPart
  let _ ← appendMarkup relationshipPart (some (← root relationshipPart).mark)
    ("<" ++ p ++ "Relationship Id=\"rId" ++ intText number ++ "\" Type=\"" ++ type ++ "\" Target=\"" ++ target ++ "\"/>")
  pure ()

def addType (partName contentType : String) : Edit Unit := do
  let _ ← appendMarkup typePart (some (← root typePart).mark)
    ("<Override PartName=\"" ++ partName ++ "\" ContentType=\"" ++ contentType ++ "\"/>")
  pure ()

def addRelationships : Int → List CommentPart → Edit Unit
  | _, [] => pure ()
  | n, p :: ps => do
    addRelationship n p.relationship p.file
    addRelationships (n + 1) ps

def registerComments : Edit Unit := do
  if !(← hasEntry relationshipPart "Relationship" "Target" contents.file) then
    addRelationships (← nextRelationship relationshipPart) all
  if !(← hasEntry typePart "Override" "PartName" s!"/{contents.name}") then
    each (fun p => addType s!"/{p.name}" p.contentType) all

/-! ## Preparing a document -/

def readComments : List Node → Result (List (Int × String))
  | [] => .ok []
  | c :: cs => do
    let id := c.valueOf "w:id"
    let paragraph? := ((c.inside "w:p").map (·.valueOf "w14:paraId")).find? (· != "")
    match id, paragraph? with
    | "", _ | _, none => readComments cs
    | id, some paragraph =>
      match readInt? id.toList with
      | none => .error (.badValue s!"invalid literal for int() with base 10: {S.quoted id}")
      | some n =>
        let rest ← readComments cs
        pure (if rest.any (·.1 == n) then rest else (n, paragraph) :: rest)

def loadComments : Edit Unit := do
  let d ← get
  if d.files.pathExists (d.base.joinText contents.name) then
    let cs ← namedIn contents.name "w:comment"
    let comments ← ofResult (readComments cs)
    let nextComment := largest (-1) (cs.map (·.valueOf "w:id")) + 1
    modify fun d => { d with comments, nextComment }

def registerPeople : Edit Unit := do
  ensureFile "word/people.xml" blankPeople
  if !(← hasEntry typePart "Override" "PartName" "/word/people.xml") then
    addType "/word/people.xml" "application/vnd.openxmlformats-officedocument.wordprocessingml.people+xml"
  if !(← hasEntry relationshipPart "Relationship" "Target" "people.xml") then
    let n ← nextRelationship relationshipPart
    addRelationship n "http://schemas.microsoft.com/office/2011/relationships/people" "people.xml"

def settingsPart : String := "word/settings.xml"

def firstNamed? (part name : String) : Edit (Option Nat) := do
  let es ← namedIn part name
  pure (es.head?.map (·.mark))

def trackRevisions (root : Nat) : Edit Unit := do
  if (← firstNamed? settingsPart "w:trackRevisions").isNone then
    let xml := "<w:trackRevisions/>"
    let protection? ← firstNamed? settingsPart "w:documentProtection"
    let tabStop? ← firstNamed? settingsPart "w:defaultTabStop"
    let r ← node root
    match (protection?.orElse fun _ => tabStop?).orElse fun _ => r.children.head?.map (·.mark) with
    | some m =>
      let _ ← insertMarkupBefore settingsPart (some m) xml
    | none =>
      let _ ← appendMarkup settingsPart (some root) xml

def noteSession (root : Nat) (rsid : String) : Edit Unit := do
  match ← firstNamed? settingsPart "w:rsids" with
  | none =>
    let xml := s!"<w:rsids>\n  <w:rsidRoot w:val=\"{rsid}\"/>\n  <w:rsid w:val=\"{rsid}\"/>\n</w:rsids>"
    match ← firstNamed? settingsPart "w:compat" with
    | some m =>
      let _ ← insertMarkupAfter settingsPart (some m) xml
    | none =>
      match ← firstNamed? settingsPart "w:clrSchemeMapping" with
      | some m =>
        let _ ← insertMarkupBefore settingsPart (some m) xml
      | none =>
        let _ ← appendMarkup settingsPart (some root) xml
  | some m =>
    if !((← node m).inside "w:rsid").any (·.valueOf "w:val" == rsid) then
      let _ ← appendMarkup settingsPart (some m) s!"<w:rsid w:val=\"{rsid}\"/>"

def addAuthor (author : String) : Edit Unit := do
  let r ← find "word/people.xml" { name := "w15:people" }
  if !(← hasEntry "word/people.xml" "w15:person" "w15:author" author) then
    let a := Html.escape author
    let _ ← appendMarkup "word/people.xml" (some r.mark)
      s!"<w15:person w15:author=\"{a}\">\n  <w15:presenceInfo w15:providerId=\"None\" w15:userId=\"{a}\"/>\n</w15:person>"

/-- **Prepares a document for changes** by its author. -/
def prepare (tracking : Bool) : Edit Unit := do
  let sig ← signature
  loadComments
  let _ ← part mainPart
  registerPeople
  let r ← find settingsPart { name := "w:settings" }
  if tracking then trackRevisions r.mark
  noteSession r.mark sig.rsid
  addAuthor sig.author

/-- Puts all parts back into their files. Parts for comments are made known first. -/
def saveAll : Edit Unit := do
  let d ← get
  if d.files.pathExists (d.base.joinText contents.name) then registerComments
  let d ← get
  each (save ·.2) d.parts

end Edit

end Sluice.Office
