import Sluice.Office.Package

/-! # Checks of references: relationships, their files and types, and content types -/

namespace Sluice.Office

open Text

def leadsOut (target : String) : Bool := S.startsWith "http" target || S.startsWith "mailto:" target

variable (i : Inspection) (s : Standard) (e : Element)

/-- Where the target of a relationship is looked for: from the directory of the package or of the part. -/
def targetPath (listing : Path) (target : String) : Path :=
  (if listing.name = ".rels" then i.dir else listing.parent.parent).joinText target |>.resolve

def innerTargets : List (Element × String) :=
  (relationshipsIn e).filterMap fun r => match r.attribute? "Target" with
    | some t => if t = "" || leadsOut t then none else some (r, t)
    | none => none

def listingFindings (listing : Path) : List String × List Path :=
  match i.root listing with
  | .error u => ([s!"  Error parsing {i.shown listing}: {u.text}"], [])
  | .ok e =>
    let targets := innerTargets e
    let found (t : String) : Bool := i.files.isFile (targetPath i listing t)
    ((targets.filter (!found ·.2)).map fun (r, t) => s!"  {i.shown listing}: " ++ atLine r s!"Broken reference to {t}",
      (targets.filter (found ·.2)).map (targetPath i listing ·.2))

def namesBefore : List String → List String → Bool
  | [], _ => true
  | _ :: _, [] => false
  | a :: as, b :: bs => if a = b then namesBefore as bs else decide (a < b)

def relatable : List Path :=
  (i.files.matchingBelow i.dir "*").filter fun p =>
    i.files.isFile p && p.name != "[Content_Types].xml" && !S.endsWith ".rels" p.name

/-- **Whether relationships lead to files, and to every file.** -/
def checkFiles : Report :=
  let listings := i.files.matchingBelow i.dir "*.rels"
  if listings.isEmpty then ⟨true, if i.verbose then ["PASSED - No .rels files found"] else []⟩
  else
    let files := relatable i
    let results := listings.map (listingFindings i)
    let reached := results.flatMap (·.2)
    let lost := (files.filter (!reached.contains ·)).mergeSort fun a b => namesBefore a.parts b.parts
    let findings := results.flatMap (·.1) ++ lost.map ("  Unreferenced file: " ++ i.shown ·)
    let report := Report.found i findings "relationship validation errors" "All references are valid and all files are properly referenced"
      ["CRITICAL: These errors will cause the document to appear corrupt. Broken references MUST be fixed, and unreferenced files MUST be referenced or removed."]
    { report with
      lines := (if i.verbose then [s!"Found {countText listings} .rels files and {countText files}" ++
        " target files"] else []) ++ report.lines }

/-! ## Numbers of relationships -/

inductive Standard
  | common
  | text
  | slides
deriving DecidableEq

/-- The types of the relationships that elements refer to, where their names do not tell. -/
def Standard.relationTypes : Standard → Pairs
  | .common | .text => []
  | .slides =>
    [("sldid", "slide"), ("sldmasterid", "slidemaster"), ("notesmasterid", "notesmaster"),
     ("sldlayoutid", "slidelayout"), ("themeid", "theme"), ("tablestyleid", "tablestyles")]

/-- The type of the relationship that an element refers to, if it is known or its name tells. -/
def Standard.expectedType? (name : String) : Option String :=
  let low := S.lower name
  match s.relationTypes.find? (·.1 == low) with
  | some (_, type) => some type
  | none =>
    match S.dropEnd? "id" low, S.dropEnd? "reference" low with
    | some "", _ => none
    | some start, _ => some (if start = "sld" then "slide" else start)
    | none, some "" => none
    | none, some start => some start
    | none, none => none

def numberedRelations : List (String × String × Nat) :=
  (relationshipsIn e).filterMap fun r => match r.attribute? "Id" with
    | some id =>
      let type := (r.attribute? "Type").getD ""
      if id = "" then none else some (id, ((S.splitOn "/" type).getLast?).getD type, r.line)
    | none => none

/-- The relationships whose number was used before in a listing. -/
def repeated : (seen : List String) → List (String × String × Nat) → List (String × Nat)
  | _, [] => []
  | seen, (id, _, line) :: rest => (if seen.contains id then [(id, line)] else []) ++ repeated (id :: seen) rest

def referenceFinding? (relations : List (String × String × Nat)) (e : Element) : Option String :=
  match e.attribute? (inSpace officeRelations "id"), e.head? with
  | some id, some h =>
    let name := Element.plainName h.tag
    let ids := (relations.map (·.1)).eraseDups
    if id = "" then none
    else match relations.reverse.find? (·.1 == id) with
      | none =>
        let some5 := (ids.mergeSort fun a b => decide (a ≤ b)).take 5
        some (atLine e (s!"<{name}> references non-existent relationship '{id}' (valid IDs: " ++
          S.join ", " some5 ++ (if 5 < ids.length then "..." else "") ++ ")"))
      | some (_, type, _) =>
        if s.relationTypes.isEmpty then none
        else match s.expectedType? name with
          | some expected =>
            if expected = "" || S.contains expected (S.lower type) then none
            else some (atLine e (s!"<{name}> references '{id}' which points to '{type}" ++
              s!"' but should point to a '{expected}' relationship"))
          | none => none
  | _, _ => none

def referenceFindings (i : Inspection) (p : Path) : List String :=
  let listing := (p.parent.child "_rels").child s!"{p.name}.rels"
  if p.suffix = ".rels" || !i.files.pathExists listing then []
  else
    let broken (u : Unread) : String := s!"  Error processing {i.shown p}: {u.text}"
    match i.root listing with
    | .error u => [broken u]
    | .ok listed =>
      let relations := numberedRelations listed
      let twice := (repeated [] relations).map fun (id, line) =>
        s!"  {i.shown listing}: Line {Number.intText line}: Duplicate relationship ID '{id}' (IDs must be unique)"
      twice ++ match i.root p with
        | .error u => [broken u]
        | .ok e => (e.all.filterMap (referenceFinding? s relations)).map (s!"  {i.shown p}: " ++ ·)

/-- **Whether elements refer to relationships that exist and have the right type.** -/
def checkReferences (i : Inspection) : Report :=
  let findings := i.parts.flatMap (referenceFindings s i)
  .found i findings "relationship ID reference errors" "All relationship ID references are valid"
    ["\nThese ID mismatches will cause the document to appear corrupt!"]

def declarableRoots : List String :=
  ["sld", "sldLayout", "sldMaster", "presentation", "document", "workbook", "worksheet", "theme"]

def mediaTypes : Pairs :=
  [("png", "image/png"), ("jpg", "image/jpeg"), ("jpeg", "image/jpeg"), ("gif", "image/gif"),
   ("bmp", "image/bmp"), ("tiff", "image/tiff"), ("wmf", "image/x-wmf"), ("emf", "image/x-emf")]

def declaredValues (name key : String) : List String := (e.inside (inSpace contentTypes name)).filterMap (·.attribute? key)

def partTypeFinding? (declared : List String) (p : Path) : Option String :=
  let shown := i.shown p
  if [".rels", "[Content_Types]", "docProps/", "_rels/"].any fun s => S.contains s shown then none
  else match i.root p with
    | .error _ => none
    | .ok e =>
      let name := Element.plainName ((e.head?.map (·.tag)).getD "")
      if declarableRoots.contains name && !declared.contains shown then
        some s!"  {shown}: File with <{name}> root not declared in [Content_Types].xml"
      else none

def mediaTypeFinding? (declared : List String) (p : Path) : Option String :=
  let suffix := S.lower p.suffix
  if suffix = ".xml" || suffix = ".rels" || p.parts.contains "_rels" || p.parts.contains "docProps" then none
  else
    let ext := S.lower (String.ofList (p.suffix.toList.dropWhile (· == '.')))
    if declared.contains ext then none
    else match mediaTypes.find? (·.1 == ext) with
      | some (_, type) =>
        some (s!"  {i.shown p}: File with extension '{ext}" ++
          "' not declared in [Content_Types].xml - should add: <Default Extension=\"" ++ ext ++
          s!"\" ContentType=\"{type}\"/>")
      | none => none

/-- **Whether the types of all contents are declared.** -/
def checkTypes : Report :=
  let listing := i.dir.child "[Content_Types].xml"
  if !i.files.pathExists listing then ⟨false, ["FAILED - [Content_Types].xml file not found"]⟩
  else
    let findings := match i.root listing with
      | .error u => ["  Error parsing [Content_Types].xml: " ++ u.text]
      | .ok e =>
        let parts := (declaredValues e "Override" "PartName").map fun s => String.ofList (s.toList.dropWhile (· == '/'))
        let suffixes := (declaredValues e "Default" "Extension").map S.lower
        let files := (i.files.matchingBelow i.dir "*").filter i.files.isFile
        i.parts.filterMap (partTypeFinding? i parts) ++ files.filterMap (mediaTypeFinding? i suffixes)
    .found i findings "content type declaration errors" "All content files are properly declared in [Content_Types].xml"

end Sluice.Office
