import Sluice.Office.Package

/-! # Checks of the markup: well-formed parts, declared prefixes, unique numbers -/

namespace Sluice.Office

open Number Text

variable (i : Inspection)

def checkWellFormed : Report :=
  let findings := i.parts.filterMap fun p => match i.root p with
    | .ok _ => none
    | .error (.malformed line text) => some s!"  {i.shown p}: Line {intText line}: {text}"
    | .error (.fault f) => some s!"  {i.shown p}: Unexpected error: {f.message}"
  .found i findings "XML violations" "All XML files are well-formed"

def undeclared (root : Element) : List String :=
  match root.head? with
  | none => []
  | some h =>
    (h.attributes.filter (S.endsWith "Ignorable" ·.1)).flatMap fun a =>
      ((S.words a.2).filter (!h.declared.contains ·)).eraseDups

/-- Findings about prefixes, part by part; parts that are not well formed are passed over. -/
def prefixFindings : List Path → Result (List String)
  | [] => .ok []
  | p :: ps => do
    let here ← match i.root p with
      | .ok e => pure ((undeclared e).map fun w => s!"  {i.shown p}: Namespace '{w}' in Ignorable but not declared")
      | .error (.malformed ..) => pure []
      | .error (.fault f) => throw f
    pure (here ++ (← prefixFindings ps))

def checkPrefixes : Result Report := do
  let findings ← prefixFindings i i.parts
  pure (.of i.verbose findings s!"FAILED - {countText findings} namespace issues:"
    "PASSED - All namespace prefixes properly declared")

/-! ## Unique numbers -/

/-- How far a number must be unique. -/
inductive Scope
  | file
  | package

def numbered : List (String × String × Scope) :=
  [("comment", "id", .file), ("commentrangestart", "id", .file), ("commentrangeend", "id", .file),
   ("bookmarkstart", "id", .file), ("bookmarkend", "id", .file), ("sldid", "id", .file),
   ("sldmasterid", "id", .package), ("sldlayoutid", "id", .package), ("cm", "authorid", .file),
   ("sheet", "sheetid", .file), ("definedname", "id", .file), ("cxnsp", "id", .file), ("sp", "id", .file),
   ("pic", "id", .file), ("grpsp", "id", .file)]

structure Seen where
  package : List (String × String × Nat × String) := []
  /-- in the part: element and number with the line -/
  file : List ((String × String) × Nat) := []
  findings : List String := []

def looseAttribute? (attributes : Pairs) (name : String) : Option String :=
  (attributes.find? fun a => S.lower (Element.plainName a.1) == name).map (·.2)

def Seen.note (s : Seen) (file : String) (h : Head) : Seen :=
  let tag := S.lower (Element.plainName h.tag)
  match numbered.find? (·.1 == tag) with
  | none => s
  | some (_, key, scope) =>
    match looseAttribute? h.attributes key with
    | none => s
    | some id =>
      let place := s!"  {file}: Line {intText h.line}: "
      match scope with
      | .package =>
        match s.package.find? (·.1 == id) with
        | some (_, file, line, other) =>
          { s with findings := (s!"{place}Global ID '{id}' in <{tag}> already used in " ++
              s!"{file} at line {intText line} in <{other}>") :: s.findings }
        | none => { s with package := s.package ++ [(id, file, h.line, tag)] }
      | .file =>
        match s.file.find? (·.1 == (tag, id)) with
        | some (_, line) =>
          { s with findings := (s!"{place}Duplicate {key}='{id}' in <{tag}" ++
              s!"> (first occurrence at line {intText line})") :: s.findings }
        | none => { s with file := s.file ++ [((tag, id), h.line)] }

/-- Takes note of the numbers of elements up to the first comment, which has no tag to look at. -/
def Seen.noteAll (file : String) : List Element → Seen → Seen
  | [], s => s
  | e :: es, s =>
    match e.head? with
    | some h => noteAll file es (s.note file h)
    | none => { s with findings := s!"  {file}: Error: argument of type 'function' is not iterable" :: s.findings }

/-- Takes note of the numbers of a part. Alternatives between which programs choose do not count. -/
def Seen.notePart (s : Seen) (p : Path) : Seen :=
  let s := { s with file := [] }
  match i.root p with
  | .error u => { s with findings := s!"  {i.shown p}: Error: {u.text}" :: s.findings }
  | .ok e => s.noteAll (i.shown p) (e.prune fun h => h.tag == inSpace compatibilitySpace "AlternateContent").all

/-- **Whether numbers that must be unique are.** -/
def checkNumbers : Report :=
  let findings := (i.parts.foldl (Seen.notePart i) {}).findings.reverse
  .found i findings "ID uniqueness violations" "All required IDs are unique"

def isBrace : Char → Bool := Text.oneOf "\x7b\x7d()"

def looksLikeIdentifier (s : Chars) : Bool :=
  let bare := (trim isBrace s).filter (· != '-')
  bare.length == 32 && bare.all isAlnum

/-- What follows hexadecimal digits in groups, between which dashes may stand. -/
def dropGroups : List Nat → Chars → Option Chars
  | [], s => some s
  | n :: ns, s =>
    if (s.take n).length == n && (s.take n).all fun c => (hexValue? c).isSome then
      let rest := s.drop n
      if ns.isEmpty then some rest
      else dropGroups ns (if rest.head? == some '-' then rest.tail else rest)
    else none

/-- Whether a text is an identifier. A line feed behind it does not count. -/
def isIdentifier (s : Chars) : Bool :=
  let s := if s.head?.any (fun c => c == '\x7b' || c == '(') then s.tail else s
  match dropGroups [8, 4, 4, 4, 12] s with
  | none => false
  | some rest =>
    let rest := if rest.head?.any (fun c => c == '\x7d' || c == ')') then rest.tail else rest
    rest.isEmpty || rest == ['\n']

variable (i : Inspection)

def checkIdentifiers : Report :=
  let findings := i.parts.flatMap fun p => partFindings i p fun root =>
    root.all.flatMap fun e =>
      let attributes := (e.head?.map (·.attributes)).getD []
      attributes.filterMap fun (name, value) =>
        if S.endsWith "id" (S.lower (Element.plainName name)) &&
            looksLikeIdentifier value.toList && !isIdentifier value.toList then
          some (atLine e s!"ID '{value}' appears to be a UUID but contains invalid hex characters")
        else none
  .found i findings "UUID ID validation errors" "All UUID-like IDs contain valid hex values"

def relationsOfType (e : Element) (word : String) : List Element :=
  (relationshipsIn e).filter fun r => S.contains word ((r.attribute? "Type").getD "")

def layoutFindings (master : Path) : List String :=
  let listing := (master.parent.child "_rels").child s!"{master.name}.rels"
  let place := s!"  {i.shown master}: "
  match i.root master with
  | .error u => [s!"{place}Error: {u.text}"]
  | .ok root =>
    if !i.files.pathExists listing then
      [s!"{place}Missing relationships file: {i.shown listing}"]
    else match i.root listing with
      | .error u => [s!"{place}Error: {u.text}"]
      | .ok listed =>
        let ids := (relationsOfType listed "slideLayout").filterMap (·.attribute? "Id")
        (root.inside (inSpace slideSpaceName "sldLayoutId")).filterMap fun e =>
          match e.attribute? (inSpace officeRelations "id") with
          | some id =>
            if id = "" || ids.contains id then none
            else some (place ++ atLine e ("sldLayoutId with id='" ++ (e.attribute? "id").getD "None" ++
              s!"' references r:id='{id}' which is not found in slide layout relationships"))
          | none => none

def inFolder (folder : List String) (pattern : String) : List Path :=
  let dir := folder.foldl Path.child i.dir
  if i.files.isDir dir then i.files.matching dir pattern else []

def checkLayouts : Report :=
  let masters := inFolder i ["ppt", "slideMasters"] "*.xml"
  if masters.isEmpty then ⟨true, if i.verbose then ["PASSED - No slide masters found"] else []⟩
  else
    let findings := masters.flatMap (layoutFindings i)
    .found i findings "slide layout ID validation errors" "All slide layout IDs reference valid slide layouts"
      ["Remove invalid references or add missing slide layouts to the relationships file."]

def slideListings : List Path := inFolder i ["ppt", "slides", "_rels"] "*.xml.rels"

def checkOneLayout : Report :=
  let findings := (slideListings i).flatMap fun p => partFindings i p fun root =>
    let n := (relationsOfType root "slideLayout").length
    if 1 < n then [s!"has {Number.intText n} slideLayout references"] else []
  .of i.verbose findings "FAILED - Found slides with duplicate slideLayout references:"
    "PASSED - All slides have exactly one slideLayout reference"

def notesIn (root : Element) : List String :=
  (relationsOfType root "notesSlide").filterMap fun r => match r.attribute? "Target" with
    | some t => if t = "" then none else some (S.replaceAll "../" "" t)
    | none => none

def groupNotes (refs : List (String × Path)) : List (String × List Path) :=
  (refs.map (·.1)).eraseDups.map fun n => (n, (refs.filter (·.1 == n)).map (·.2))

def checkNotes : Report :=
  let listings := slideListings i
  if listings.isEmpty then
    ⟨true, if i.verbose then ["PASSED - No slide relationship files found"] else []⟩
  else
    let broken := listings.flatMap fun p => partFindings i p fun _ => []
    let refs := listings.flatMap fun p => match i.root p with
      | .ok e => (notesIn e).map fun n => (n, p)
      | .error _ => []
    let shared := (groupNotes refs).filter (1 < ·.2.length)
    let findings := broken ++ shared.flatMap fun (n, ps) =>
      (s!"  Notes slide '{n}' is referenced by multiple slides: " ++ S.join ", " (ps.map (S.replaceAll ".xml" "" ·.stem))) ::
        ps.map ("    - " ++ i.shown ·)
    let count := countText (findings.filter (!S.startsWith "    " ·))
    .of i.verbose findings s!"FAILED - Found {count} notes slide reference validation errors:"
      "PASSED - All notes slide references are unique"
      ["Each slide may optionally have its own slide file."]

end Sluice.Office
