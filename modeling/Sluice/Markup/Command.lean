import Sluice.Machine.Session
import Sluice.Markup.Tree

/-!
# Drafts

An element whose tag and texts may be any values; if they are texts, it can be written. `indent` puts every element on
its own line.
-/

namespace Sluice.Markup

open Text

inductive Draft
  | node (tag : Value) (attributes : Pairs) (text tail : Value) (children : List Draft)

namespace Draft

def tag : Draft → Value
  | node t _ _ _ _ => t

def text : Draft → Value
  | node _ _ t _ _ => t

def tail : Draft → Value
  | node _ _ _ t _ => t

def children : Draft → List Draft
  | node _ _ _ _ cs => cs

def ofTag (tag : Value) : Draft := node tag [] .null .null []

def leaf (tag text : String) : Draft := node tag [] text .null []

def withTail (tail : Value) : Draft → Draft
  | node t a x _ cs => node t a x tail cs

def append (more : List Draft) : Draft → Draft
  | node t a x y cs => node t a x y (cs ++ more)

def ofText (s : String) : Value := if s = "" then .null else s

mutual

def ofTree : Tree → Draft
  | .node tag attributes text tail children => node tag attributes (ofText text) (ofText tail) (ofTrees children)

def ofTrees : List Tree → List Draft
  | [] => []
  | t :: ts => ofTree t :: ofTrees ts

end

/-- Whether a text or tail may be replaced by white space: it is missing or blank. -/
def isVoid (v : Value) : Result Bool :=
  if !v.truthy then .ok true
  else
    match v with
    | .str s => .ok (S.strip s == "")
    | _ => .error (.noField "strip")

def lineBreak (level : Nat) : Value := ("\n" ++ S.repeated (2 * level) " ")

def orBreak (level : Nat) (v : Value) : Result Value := do pure (if (← isVoid v) then lineBreak level else v)

mutual

def indentAt (level : Nat) : Draft → Result Draft
  | node tag attributes text tail children =>
    if children.isEmpty then .ok (node tag attributes text tail children)
    else do pure (node tag attributes (← orBreak (level + 1) text) tail (← indentChildren level children))

def indentChildren (level : Nat) : List Draft → Result (List Draft)
  | [] => .ok []
  | c :: cs => do
    let c ← indentAt (level + 1) c
    let void ← isVoid c.tail
    let c := if void then c.withTail (lineBreak (if cs.isEmpty then level else level + 1)) else c
    pure (c :: (← indentChildren level cs))

end

def indent (d : Draft) : Result Draft := indentAt 0 d

def knownSpaces : Pairs :=
  [("http://www.w3.org/XML/1998/namespace", "xml"), ("http://www.w3.org/1999/xhtml", "html"),
   ("http://www.w3.org/1999/02/22-rdf-syntax-ns#", "rdf"),
   ("http://schemas.xmlsoap.org/wsdl/", "wsdl"),
   ("http://www.w3.org/2001/XMLSchema", "xs"),
   ("http://www.w3.org/2001/XMLSchema-instance", "xsi"),
   ("http://purl.org/dc/elements/1.1/", "dc")]

structure Names where
  written : Pairs := []
  spaces : Pairs := []

def Names.add (names : Names) (name : String) : Result Names :=
  if names.written.any (·.1 == name) then .ok names
  else
    match S.dropStart? "\x7b" name with
    | none => .ok { names with written := names.written ++ [(name, name)] }
    | some rest =>
      match S.cutLast "\x7d" rest with
      | none => .error (.badValue "not enough values to unpack (expected 2, got 1)")
      | some (uri, loc) =>
        match names.spaces.find? (·.1 == uri) with
        | some (_, p) => .ok { names with written := names.written ++ [(name, s!"{p}:{loc}")] }
        | none =>
          let p := match knownSpaces.find? (·.1 == uri) with
            | some (_, p) => p
            | none => "ns" ++ String.ofList (Number.natText names.spaces.length)
          .ok { written := names.written ++ [(name, s!"{p}:{loc}")]
                spaces := if p = "xml" then names.spaces else names.spaces ++ [(uri, p)] }

def Names.addAll (names : Names) : List String → Result Names
  | [] => .ok names
  | n :: ns => do (← names.add n).addAll ns

def unwritable : Fault := .badType "cannot serialize"

mutual

def collect (names : Names) : Draft → Result Names
  | node tag attributes _ _ children => do
    let names ← match tag with
      | .str t => names.add t
      | .null => pure names
      | _ => .error unwritable
    collectAll (← names.addAll (attributes.map (·.1))) children

def collectAll (names : Names) : List Draft → Result Names
  | [] => .ok names
  | d :: ds => do collectAll (← collect names d) ds

end

def Names.of (names : Names) (name : String) : String := ((names.written.find? (·.1 == name)).map (·.2)).getD name

/-- The value of an attribute with its special characters written as references. -/
def escapeAttribute (s : String) : String := S.referred [('"', "&quot;"), ('\r', "&#13;"), ('\n', "&#10;"), ('\t', "&#09;")] s

def content (v : Value) : Result String :=
  if !v.truthy then .ok ""
  else
    match v with
    | .str s => .ok (S.referred [] s)
    | _ => .error unwritable

def declarations (spaces : List (String × String)) : String :=
  String.join ((spaces.mergeSort fun a b => decide (a.2 ≤ b.2)).map fun (uri, p) => s!" xmlns:{p}=\"{escapeAttribute uri}\"")

mutual

def renderWith (names : Names) (declared : String) : Draft → Result String
  | node tag attributes text tail children => do
    let inner ← content text
    match tag with
    | .str t =>
      let name := names.of t
      let attrs := String.join (attributes.map fun (k, v) => s!" {names.of k}=\"{escapeAttribute v}\"")
      let body ← renderAll names children
      let after ← content tail
      if text.truthy || !children.isEmpty then
        pure s!"<{name}{declared}{attrs}>{inner}{body}</{name}>{after}"
      else pure s!"<{name}{declared}{attrs} />{after}"
    | _ => pure (inner ++ (← renderAll names children) ++ (← content tail))

def renderAll (names : Names) : List Draft → Result String
  | [] => .ok ""
  | d :: ds => do pure ((← renderWith names "" d) ++ (← renderAll names ds))

end

def render (d : Draft) : Result String := do
  let names ← collect {} d
  renderWith names (declarations names.spaces) d

end Draft

open CommandLine Text Fields Act

/-!
## Writing records as markup

A tree record becomes the element that it was made of, a plain record an element with a child per field.
-/

def noFields : Fault := .noField "get"

def fieldsOf : Value → Result Fields
  | .map fs => .ok fs
  | _ => .error noFields

def attributesOf (v : Value) : Result Pairs := do pure ((← fieldsOf v).map fun (k, v) => (k, v.text))

def recordAttributes (fs : Fields) : Result Pairs :=
  match get? "_attributes" fs with
  | some v => attributesOf v
  | none => .ok []

mutual

def draftOfRecord : Value → Result Draft
  | .map fs => do
    let tag := (get? "_tag" fs).getD "item"
    let attributes ← recordAttributes fs
    let text := (get? "_text" fs).getD .null
    let children ← draftsUnder fs
    let tail := (get? "_tail" fs).getD .null
    pure (.node tag attributes text tail children)
  | _ => .error noFields

def draftsUnder : List (String × Value) → Result (List Draft)
  | [] => .ok []
  | (key, v) :: rest =>
    if key = "_children" then
      match v with
      | .map groups => draftsOfGroups groups
      | _ => .error noFields
    else draftsUnder rest

def draftsOfGroups : List (String × Value) → Result (List Draft)
  | [] => .ok []
  | (_, v) :: rest => do
    let these ← match v with
      | .list records => draftsOfRecords records
      | .map fs => do
        pure [← draftOfRecord (.map fs)]
      | _ => pure []
    pure (these ++ (← draftsOfGroups rest))

def draftsOfRecords : List Value → Result (List Draft)
  | [] => .ok []
  | v :: rest => do pure ((← draftOfRecord v) :: (← draftsOfRecords rest))

end

def keyAmong (attributes : Value) (key : String) : Result Bool :=
  match attributes with
  | .map fs => .ok (has fs key)
  | .list items => .ok (items.any (·.equal key))
  | .str s => .ok (S.contains key s)
  | _ => .error (.badType "argument is not iterable")

structure Split where
  text : Value := .null
  children : Fields := []

def splitFields (attributes : Value) : List (String × Value) → Split → Result Split
  | [], acc => .ok acc
  | (key, v) :: rest, acc =>
    if ["_tag", "tag", "_attributes", "_children", "_children_count"].contains key then
      splitFields attributes rest acc
    else if key = "text" ∨ key = "_text" then splitFields attributes rest { acc with text := v }
    else do
      let among ← keyAmong attributes key
      splitFields attributes rest
        (if among then acc else { acc with children := acc.children ++ [(key, v)] })

def fieldDrafts (fields : Fields) : List Draft := fields.map fun (k, v) => Draft.leaf k v.text

def orElse (a b : Value) : Value := if a.truthy then a else b

def shownFields (fs : Fields) : Fields := fs.filter fun (k, _) => !S.startsWith "_" k && k != "tag"

def elementOfRecord (defaultTag record : Value) : Result Draft := do
  let fs ← fieldsOf record
  let tag := orElse (orElse ((get? "_tag" fs).getD .null) ((get? "tag" fs).getD .null)) defaultTag
  let attributes := (get? "_attributes" fs).getD (.map [])
  let split ← splitFields attributes fs {}
  let attrs ← attributesOf attributes
  if split.text.truthy then pure (.node tag attrs split.text.text .null [])
  else if split.children.isEmpty then pure (.node tag attrs .null .null (fieldDrafts (shownFields fs)))
  else pure (.node tag attrs .null .null (fieldDrafts split.children))

def mentions (v : Value) (name : String) : Result Bool := keyAmong v name

def elementOfTagged (itemTag record : Value) : Result Draft := do
  let first ← mentions record "_tag"
  let tagged ← if first then pure true else mentions record "tag"
  if tagged then elementOfRecord itemTag record
  else do pure (.node itemTag [] .null .null (fieldDrafts ((← fieldsOf record).filter fun (k, _) => !S.startsWith "_" k)))

inductive Style
  /-- an element each, with a child per field -/
  | plain
  | tree
  /-- an element each, tagged as it says -/
  | tagged

def Style.ofName : String → Style
  | "tree" => .tree
  | "raw" => .tagged
  | _ => .plain

structure Options where
  style : Style := .plain
  rootTag : Value := "root"
  itemTag : Value := "item"
  indented : Bool := true

variable (options : Options)

def rootDraft (records : List Value) : Result Draft :=
  let under (ds : List Draft) : Draft := (Draft.ofTag options.rootTag).append ds
  match options.style, records with
  | .tree, [r] => draftOfRecord r
  | .tree, rs => (draftsOfRecords rs).map under
  | .tagged, rs => (rs.mapM (elementOfTagged options.itemTag)).map under
  | .plain, rs => (rs.mapM (elementOfRecord options.itemTag)).map under

def declarationLine : String := "<?xml version=\"1.0\" encoding=\"UTF-8\"?>"

def documentLines (records : List Value) : Feed String :=
  if records.isEmpty then .ofList [declarationLine, s!"<{options.rootTag.text}/>"]
  else
    .bindResult (do
      let d ← rootDraft options records
      if options.indented then d.indent else pure d) fun d =>
        (Feed.ofList [declarationLine]).append fun _ => .bindResult d.render fun s => .ofList [s]

def writeRecords : Act Unit := do
  let (text, fault?) ← streamInput
  let feed := documentLines options (← ofResult (Json.readLines text fault?))
  forEach feed.items print
  match feed.fault? with
  | some f => fail f
  | none => pure ()

def commandArguments : List Argument :=
  [.choice "--mode" ["read", "write"],
   .choice "--parse-mode" ["flatten", "tree", "xmltodict", "coverage"] "flatten",
   .choice "--write-mode" ["records", "tree", "raw"] "records",
   .option "--root-tag" "root",
   .option "--item-tag" "item",
   .switch "--indent" true]

def command (argv : List String) : Act Unit := do
  let args ← arguments (CommandLine.parse commandArguments argv)
  match args.str? "mode" with
  | some "read" => printFeed (records (.ofName (args.text "parse_mode")) (← readInput))
  | some _ =>
    writeRecords
      { style := .ofName (args.text "write_mode")
        rootTag := args.get "root_tag", itemTag := args.get "item_tag" }
  | none => exit 2

end Sluice.Markup
