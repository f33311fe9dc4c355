import Sluice.Office.Package

/-!
# Checks against schemas

Each part is handed to its schema without what the schema does not know. Complaints about the archived document do not
count.
-/

namespace Sluice.Office

open Text Act

def schemaNames : Pairs :=
  let iso (s : String) : String := "ISO-IEC29500-4_2016/" ++ s
  let ecma (s : String) : String := "ecma/fouth-edition/" ++ s
  [("word", iso "wml.xsd"), ("ppt", iso "pml.xsd"), ("xl", iso "sml.xsd"),
   ("[Content_Types].xml", ecma "opc-contentTypes.xsd"),
   ("app.xml", iso "shared-documentPropertiesExtended.xsd"),
   ("core.xml", ecma "opc-coreProperties.xsd"),
   ("custom.xml", iso "shared-documentPropertiesCustom.xsd"),
   (".rels", ecma "opc-relationships.xsd"), ("people.xml", "microsoft/wml-2012.xsd"),
   ("commentsIds.xml", "microsoft/wml-cid-2016.xsd"),
   ("commentsExtensible.xml", "microsoft/wml-cex-2018.xsd"),
   ("commentsExtended.xml", "microsoft/wml-2012.xsd"), ("chart", iso "dml-chart.xsd"),
   ("theme", iso "dml-main.xsd"), ("drawing", iso "dml-main.xsd")]

def mainFolders : List String := ["word", "ppt", "xl"]

def schemaOf? (p : Path) : Option Path :=
  let named (key : String) : Option Path := (schemaNames.find? (·.1 == key)).map (Path.ofString ·.2)
  let isIn (folder start : String) : Bool := S.contains folder p.toString && S.startsWith start p.name
  if (named p.name).isSome then named p.name
  else if p.suffix = ".rels" then named ".rels"
  else if isIn "charts/" "chart" then named "chart"
  else if isIn "theme/" "theme" then named "theme"
  else if mainFolders.contains p.parent.name then named p.parent.name
  else none

/-! ## What a schema gets to see -/

def knownSpaces : List String :=
  let office (s : String) : String := "http://schemas.openxmlformats.org/" ++ s
  [office "officeDocument/2006/math", office "officeDocument/2006/relationships",
   office "schemaLibrary/2006/main", office "drawingml/2006/main", office "drawingml/2006/chart",
   office "drawingml/2006/chartDrawing", office "drawingml/2006/diagram", office "drawingml/2006/picture",
   office "drawingml/2006/spreadsheetDrawing", office "drawingml/2006/wordprocessingDrawing",
   office "wordprocessingml/2006/main", office "presentationml/2006/main",
   office "spreadsheetml/2006/main", office "officeDocument/2006/sharedTypes",
   "http://www.w3.org/XML/1998/namespace"]

def isForeign (name : String) : Bool :=
  match Element.spaceOf? name with
  | some space => !knownSpaces.contains space
  | none => false

def placeholder? (s : Chars) : Option (Chars × Chars) :=
  match s with
  | '\x7b' :: '\x7b' :: rest =>
    let body := rest.takeWhile (· != '\x7d')
    match rest.drop body.length with
    | '\x7d' :: '\x7d' :: after => some ('\x7b' :: '\x7b' :: body ++ ['\x7d', '\x7d'], after)
    | _ => none
  | _ => none

def splitPlaceholders : (fuel : Nat) → Chars → Chars × List String
  | 0, s => (s, [])
  | _ + 1, [] => ([], [])
  | fuel + 1, c :: cs =>
    match placeholder? (c :: cs) with
    | some (p, rest) =>
      let (text, ps) := splitPlaceholders fuel rest
      (text, String.ofList p :: ps)
    | none =>
      let (text, ps) := splitPlaceholders fuel cs
      (c :: text, ps)

def withoutPlaceholders (place : String) : Option String → Option String × List String
  | none => (none, [])
  | some s =>
    let (text, ps) := splitPlaceholders s.length s.toList
    (some (String.ofList text), ps.map (s!"Found template tag in {place}: " ++ ·))

mutual

def dropPlaceholders : Element → Element × List String
  | .node h t cs tail =>
    let (cs, later) := dropAllPlaceholders cs
    if S.endsWith "\x7dt" h.tag || h.tag == "t" then (.node h t cs tail, later)
    else
      let (t, first) := withoutPlaceholders "text content" t
      let (tail, second) := withoutPlaceholders "tail content" tail
      (.node h t cs tail, first ++ second ++ later)
  | .comment t tail => (.comment t tail, [])

def dropAllPlaceholders : List Element → List Element × List String
  | [] => ([], [])
  | e :: es =>
    let (e, first) := dropPlaceholders e
    let (es, later) := dropAllPlaceholders es
    (e :: es, first ++ later)

end

def dropIgnorable : Element → Element
  | .node h t cs tail =>
    .node { h with attributes := h.attributes.filter (·.1 != inSpace compatibilitySpace "Ignorable") } t cs tail
  | e => e

def dropForeign (e : Element) : Element :=
  (e.mapAttributes fun as => as.filter (!isForeign ·.1)).prune fun h => isForeign h.tag

/-- What the schema gets to see of a part; foreign names are taken out in the main folders only. -/
def schemaView (inMain : Bool) (e : Element) : Element :=
  let e := dropIgnorable (dropPlaceholders e).1
  if inMain then dropForeign e else e

/-! ## Complaints -/

def notBelow (p base : Path) : Fault :=
  .badValue (s!"{S.quoted p.toString} is not in the subpath of {S.quoted base.toString}" ++
    " OR one path is relative and the other is absolute.")

def complaints? (lab : Laboratory) (files : FileTree) (base p : Path) : Act (Option (List String)) := do
  match schemaOf? p with
  | none => pure none
  | some schema =>
    match Inspection.element lab files p, p.relativeTo? base with
    | .error u, _ => pure (some [u.text])
    | .ok _, none => pure (some [(notBelow p base).message])
    | .ok e, some q =>
      let view := schemaView (q.parts.head?.any mainFolders.contains) e
      log (.list ["schema", schema.name, fileLabel p, view.toValue])
      let found := (lab.complaints.find? (·.1 == fileLabel p)).map (·.2)
      pure (some (found.getD []).eraseDups)

variable (i : Inspection)

def archivedComplaints (p : Path) : Act (List String) := do
  match p.relativeTo? i.dir with
  | none => fail (notBelow p i.dir)
  | some q =>
    let files := extract {} (← ofResult (openArchive (← get).tree i.archive i.archive.toString)) temporary
    let old := temporary.join q
    if files.pathExists old then
      pure ((← complaints? i.laboratory files temporary old).getD [])
    else pure []

inductive SchemaVerdict
  | skipped
  | valid
  | worse (complaints : List String)

def cutComplaint (s : String) : String := if 250 < s.length then S.take 250 s ++ "..." else s

/-- **What a schema says about a part**, compared with its archived state. -/
def schemaVerdict (p : Path) (verbose : Bool) : Act SchemaVerdict := do
  let p := p.resolve
  match ← complaints? i.laboratory i.files i.dir p with
  | none => pure .skipped
  | some [] => pure .valid
  | some now =>
    let before ← archivedComplaints i p
    let new := now.filter (!before.contains ·)
    if new.isEmpty then
      if verbose then
        print s!"PASSED - No new errors (original had {countText now} errors)"
      pure .valid
    else
      if verbose then
        print s!"FAILED - {i.shown p}: {countText new} new error(s)"
        forEach (new.take 3) fun c => print s!"  - {cutComplaint c}"
      pure (.worse new)

def schemaVerdicts : List Path → Act (List (Path × SchemaVerdict))
  | [] => pure []
  | p :: ps => do pure ((p, ← schemaVerdict i p false) :: (← schemaVerdicts ps))

def schemaReport (verdicts : List (Path × SchemaVerdict)) : Report :=
  let findings := verdicts.flatMap fun (p, v) => match v with
    | .worse cs => s!"  {i.shown p}: {countText cs} new error(s)" ::
        (cs.take 3).map ("    - " ++ cutComplaint ·)
    | _ => []
  let valid := verdicts.filter fun (_, v) => match v with
    | .valid => true
    | _ => false
  let skipped := verdicts.filter fun (_, v) => match v with
    | .skipped => true
    | _ => false
  let summary := if i.verbose then
      [s!"Validated {countText verdicts} files:", "  - Valid: " ++ countText valid,
       "  - Skipped (no schema): " ++ countText skipped,
       "  - With NEW errors: " ++ countText (findings.filter (!S.startsWith "    " ·))]
    else []
  let report := Report.of i.verbose findings "\nFAILED - Found NEW validation errors:"
    "\nPASSED - No new XSD validation errors introduced"
  { report with lines := summary ++ report.lines }

/-- **Whether the schemas have new complaints.** -/
def checkSchemas : Act Report := do pure (schemaReport i (← schemaVerdicts i i.parts))

end Sluice.Office
