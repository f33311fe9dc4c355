import Sluice.Markup.Document
import Sluice.Value.Basic

/-!
# Element trees

A document reduced to its elements, with the text up to the first child and the text behind the end (its **tail**).
`norm` is the form of a tree that a tree record keeps: texts and tails stripped, children grouped by tag.
-/

namespace Sluice.Markup

inductive Tree
  | node (tag : String) (attributes : Pairs) (text tail : String) (children : List Tree)

namespace Tree

def tag : Tree → String
  | node t _ _ _ _ => t

def attributes : Tree → Pairs
  | node _ a _ _ _ => a

def text : Tree → String
  | node _ _ t _ _ => t

def tail : Tree → String
  | node _ _ _ t _ => t

def children : Tree → List Tree
  | node _ _ _ _ cs => cs

def withTail (tail : String) : Tree → Tree
  | node t a x _ cs => node t a x tail cs

variable (t : Tree)

def attribute? (name : String) : Option String := (t.attributes.find? (·.1 == name)).map (·.2)

def attributeD (name default : String) : String := (t.attribute? name).getD default

def childrenTagged (tag : String) : List Tree := t.children.filter (·.tag == tag)

def child? (tag : String) : Option Tree := t.children.find? (·.tag == tag)

mutual

def flatten : Tree → List Tree
  | node t a x y children => node t a x y children :: flattenAll children

def flattenAll : List Tree → List Tree
  | [] => []
  | t :: ts => flatten t ++ flattenAll ts

end

mutual

def ofNode? : Node → Option Tree
  | .element name attributes _ _ children =>
    let (text, elements) := ofNodes children
    some (node name.expanded (attributes.map fun (n, v) => (n.expanded, v)) text "" elements)
  | _ => none

def ofNodes : List Node → String × List Tree
  | [] => ("", [])
  | n :: rest =>
    let (text, elements) := ofNodes rest
    match n with
    | .text s => (String.ofList s ++ text, elements)
    | .section s => (String.ofList s ++ text, elements)
    | .comment _ => (text, elements)
    | .instruction _ _ => (text, elements)
    | .element .. =>
      match ofNode? n with
      | some t => ("", t.withTail text :: elements)
      | none => (text, elements)

end

def malformedFault (e : Malformed) : Fault := ⟨.markup, e.cause.message⟩

def parse (text : String) : Result Tree :=
  match nodesOf {} text.toList with
  | .error e => .error (malformedFault e)
  | .ok nodes =>
    match nodes.findSome? ofNode? with
    | some t => .ok t
    | none => .error ⟨.markup, Cause.noElement.message⟩

/-- Puts items with equal keys together, keys in order of first occurrence. -/
def groupBy {α : Type} (key : α → String) (items : List α) : List (String × List α) :=
  items.foldl (fun groups a =>
    if groups.any (·.1 == key a) then
      groups.map fun (k, as) => if k == key a then (k, as ++ [a]) else (k, as)
    else groups ++ [(key a, [a])]) []

def regroup {α : Type} (key : α → String) (items : List α) : List α := (groupBy key items).flatMap (·.2)

mutual

def norm : Tree → Tree
  | node tag attributes text tail children =>
    node tag attributes (Text.S.strip text) (Text.S.strip tail) (regroup Tree.tag (normAll children))

def normAll : List Tree → List Tree
  | [] => []
  | t :: ts => norm t :: normAll ts

end

end Tree

/-!
## Records of a document

One flat record per element, one nested record, one record per line of a coverage report, or a nested mapping.
-/

open Text Number
open Fields (get? ofPairs set)

def attributeFields (attributes : Pairs) : Fields := ofPairs (attributes.map fun (k, v) => (k, Value.str v))

def addChild (tag : String) (record : Value) (children : Fields) : Fields :=
  match get? tag children with
  | some (.list records) => set tag (.list (records ++ [record])) children
  | some other => set tag (.list [other, record]) children
  | none => set tag record children

def textField (key text : String) : Fields :=
  let s := S.strip text
  if s = "" then [] else [(key, s)]

def attributesField (attributes : Pairs) : Fields :=
  if attributes.isEmpty then [] else [("_attributes", .map (attributeFields attributes))]

namespace Tree

mutual

def toRecord : Tree → Value
  | node tag attributes text tail children =>
    .map (("_tag", .str tag) :: attributesField attributes ++ textField "_text" text ++
      (if children.isEmpty then [] else [("_children", .map (childRecords [] children))]) ++
      textField "_tail" tail)

def childRecords (acc : Fields) : List Tree → Fields
  | [] => acc
  | t :: ts => childRecords (addChild t.tag t.toRecord acc) ts

end

def pathUnder (parent tag : String) : String := if parent = "" then tag else parent ++ "/" ++ tag

def flatRecord (path : String) : Tree → Value
  | node tag attributes text _ children =>
    let base : Fields := [("path", path), ("tag", tag)]
    let withAttributes := if attributes.isEmpty then base
      else set "_attributes" (.map (attributeFields attributes))
        (Fields.update base (attributeFields attributes))
    let stripped := S.strip text
    let withText := if stripped = "" then withAttributes
      else set "text" stripped withAttributes
    .map (if children.isEmpty then withText
      else set "_children_count" (.int children.length) withText)

mutual

def flatRecords (parent : String) : Tree → List Value
  | node tag attributes text tail children =>
    flatRecord (pathUnder parent tag) (node tag attributes text tail children) ::
      flatChildren (pathUnder parent tag) children

def flatChildren (parent : String) : List Tree → List Value
  | [] => []
  | t :: ts => flatRecords parent t ++ flatChildren parent ts

end

def lineRecord (package : String) (cls line : Tree) : Result Value := do
  let lineRate ← parseFloat (cls.attributeD "line-rate" "0")
  let branchRate ← parseFloat (cls.attributeD "branch-rate" "0")
  let number ← parseInt (line.attributeD "number" "0")
  let hits ← parseInt (line.attributeD "hits" "0")
  let branch : Fields := if line.attribute? "branch" = some "true" then
      [("branch", true), ("condition_coverage", (line.attributeD "condition-coverage" "")),
       ("missing_branches", (line.attributeD "missing-branches" ""))]
    else []
  pure (.map ([("package", .str package), ("filename", .str (cls.attributeD "filename" "")),
    ("class", .str (cls.attributeD "name" "")), ("file_line_rate", .float lineRate),
    ("file_branch_rate", .float branchRate), ("line_number", .int number), ("hits", .int hits)] ++ branch))

def coverageRecords (root : Tree) : Feed Value :=
  match root.child? "packages" with
  | none => .empty
  | some packages =>
    .flatMap (fun package =>
      match package.child? "classes" with
      | none => .empty
      | some classes =>
        .flatMap (fun cls =>
          match cls.child? "lines" with
          | none => .empty
          | some lines => (Feed.ofList (lines.childrenTagged "line")).mapM (lineRecord (package.attributeD "name" "") cls))
          (classes.childrenTagged "class"))
      (packages.childrenTagged "package")

end Tree

def pushValue (key : String) (v : Value) (fields : Fields) : Fields := addChild key v fields

def nestedText : List Node → String
  | [] => ""
  | .text s :: rest => String.ofList s ++ nestedText rest
  | .section s :: rest => String.ofList s ++ nestedText rest
  | _ :: rest => nestedText rest

mutual

def nestedValue : Node → Value
  | .element _ attributes _ _ children =>
    let own := ofPairs (attributes.map fun (n, v) => ("@" ++ n.written, Value.str v))
    let fields := nestedFields own children
    let text := S.strip (nestedText children)
    if fields.isEmpty then if text = "" then .null else text
    else .map (if text = "" then fields else pushValue "#text" text fields)
  | _ => .null

def nestedFields (acc : Fields) : List Node → Fields
  | [] => acc
  | n :: rest =>
    match n with
    | .element name _ _ _ _ => nestedFields (pushValue name.written (nestedValue n) acc) rest
    | _ => nestedFields acc rest

end

def nestedRecord (text : String) : Result Value :=
  match nodesOf { namespaces := false, expands := false, unwritten := .drop } text.toList with
  | .error e => .error ⟨.markupEvents, e.cause.message⟩
  | .ok nodes => .ok (.map (nestedFields [] nodes))

inductive View
  | flat
  | tree
  | nested
  | coverage

def View.ofName : String → View
  | "tree" => .tree
  | "xmltodict" => .nested
  | "coverage" => .coverage
  | _ => .flat

def records (view : View) (text : String) : Feed Value :=
  let s := S.strip text
  if s = "" then .empty
  else
    match view with
    | .flat => .bindResult (Tree.parse s) fun t => .ofList (t.flatRecords "")
    | .tree => .bindResult (Tree.parse s) fun t => .ofList [t.toRecord]
    | .coverage => .bindResult (Tree.parse s) fun t => t.coverageRecords
    | .nested => .bindResult (nestedRecord s) fun v => .ofList [v]

end Sluice.Markup
