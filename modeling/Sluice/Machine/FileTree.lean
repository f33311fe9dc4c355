import Sluice.Workbook.Range

/-!
# Paths

The anchor of a path is empty, `/`, or a mark such as `$ROOT`. Empty names and single dots are dropped when a path is
read; double dots stay until it is resolved.
-/

namespace Sluice

structure Path where
  anchor : String
  parts : List String
deriving DecidableEq, Inhabited

namespace Path

def marks : List String := ["$ROOT", "$TMP", "$REPO"]

def root : Path := ⟨"$ROOT", []⟩

def namesOf (s : Chars) : List String := ((Text.splitAtChar '/' s).map String.ofList).filter fun n => n != "" && n != "."

def ofString (s : String) : Path :=
  match s.toList with
  | '/' :: '/' :: c :: rest => if c = '/' then ⟨"/", namesOf rest⟩ else ⟨"//", namesOf (c :: rest)⟩
  | '/' :: rest => ⟨"/", namesOf rest⟩
  | cs =>
    let first := String.ofList (cs.takeWhile (· != '/'))
    if marks.contains first then ⟨first, namesOf (cs.dropWhile (· != '/'))⟩ else ⟨"", namesOf cs⟩

variable (p : Path)

def toString : String :=
  let names := String.intercalate "/" p.parts
  if p.anchor = "" then (if p.parts.isEmpty then "." else names)
  else if p.anchor = "/" ∨ p.anchor = "//" then p.anchor ++ names
  else if p.parts.isEmpty then p.anchor
  else p.anchor ++ "/" ++ names

instance : ToString Path := ⟨toString⟩

def isAbsolute : Bool := p.anchor != ""

def join (p q : Path) : Path := if q.isAbsolute then q else ⟨p.anchor, p.parts ++ q.parts⟩

def child (name : String) : Path := ⟨p.anchor, p.parts ++ [name]⟩

def joinText (s : String) : Path := p.join (ofString s)

def name : String := p.parts.getLastD ""

def parent : Path := ⟨p.anchor, p.parts.dropLast⟩

def parents : List Path := (List.range p.parts.length).map fun i => ⟨p.anchor, p.parts.take (p.parts.length - 1 - i)⟩

/-- Stem and suffix of a name: the suffix starts at the last dot, unless that is the first or last character. -/
def splitSuffix (name : String) : String × String :=
  match Text.S.cutLast "." name with
  | some (stem, ext) => if stem = "" ∨ ext = "" then (name, "") else (stem, "." ++ ext)
  | none => (name, "")

def stem : String := (splitSuffix p.name).1

def suffix : String := (splitSuffix p.name).2

def relativeTo? (p base : Path) : Option Path :=
  if p.anchor = base.anchor ∧ base.parts.isPrefixOf p.parts then
    some ⟨"", p.parts.drop base.parts.length⟩
  else none

def collapse : (seen names : List String) → List String
  | seen, [] => seen.reverse
  | seen, n :: ns => if n = ".." then collapse seen.tail ns else collapse (n :: seen) ns

def resolve : Path :=
  let p := root.join p
  ⟨p.anchor, collapse [] p.parts⟩

end Path

/-!
## File trees

A tree lists what stands at each place, the directories above a file included.
-/

inductive Content
  | text (s : String)
  | octets (b : List UInt8)
  | archive (members : Pairs)
  | workbook (book : Workbook.Book)
  /-- so many octets that nobody reads -/
  | filler (size : Nat)

inductive FileTree.Node
  | directory
  | file (content : Content) (executable : Bool)

/-- A file tree: places with what stands there, in the order in which they were made. -/
structure FileTree where
  entries : List (Path × FileTree.Node) := []

namespace FileTree

variable (t : FileTree) (p : Path) (shown : String)

def node? : Option Node :=
  if p.parts.isEmpty then (if p.anchor = "" then none else some .directory)
  else (t.entries.find? (·.1 == p)).map (·.2)

def leads (anchor : String) : (seen names : List String) → Bool
  | _, [] => true
  | seen, n :: ns =>
    if n = ".." then
      (match t.node? ⟨anchor, seen.reverse⟩ with
        | some .directory => true
        | _ => false) && leads anchor seen.tail ns
    else leads anchor (n :: seen) ns

def find? : Option Node :=
  let q := Path.root.join p
  if t.leads q.anchor [] q.parts then t.node? p.resolve else none

def isDir : Bool :=
  match t.find? p with
  | some .directory => true
  | _ => false

def isFile : Bool :=
  match t.find? p with
  | some (.file ..) => true
  | _ => false

def pathExists : Bool := (t.find? p).isSome

def isExecutable : Bool :=
  match t.find? p with
  | some (.file _ executable) => executable
  | _ => false

/-- The names in a directory with what stands there, in order of their characters. -/
def children : List (String × Node) :=
  let p := p.resolve
  let here := t.entries.filterMap fun e => if e.1.parts ≠ [] ∧ e.1.parent = p then some (e.1.name, e.2) else none
  here.mergeSort fun a b => decide (a.1 ≤ b.1)

def put (n : Node) : FileTree :=
  if t.entries.any (·.1 == p) then ⟨t.entries.map fun e => if e.1 = p then (p, n) else e⟩
  else ⟨t.entries ++ [(p, n)]⟩

def makeDirs : FileTree :=
  let p := p.resolve
  (p.parents.reverse ++ [p]).foldl
    (fun t q => if q.parts.isEmpty || (t.node? q).isSome then t else t.put q .directory) t

def write (c : Content) : FileTree :=
  let p := p.resolve
  let executable := match t.node? p with
    | some (.file _ x) => x
    | _ => false
  (t.makeDirs p.parent).put p (.file c executable)

def remove : FileTree :=
  let p := p.resolve
  ⟨t.entries.filter fun e => !(e.1.anchor == p.anchor && p.parts.isPrefixOf e.1.parts)⟩

/-- Copies what stands at a place and below it to another place. -/
def copy (source target : Path) : FileTree :=
  let source := source.resolve
  let target := target.resolve
  let found := t.entries.filterMap fun e => (e.1.relativeTo? source).map fun q => (target.join q, e.2)
  found.foldl (fun t e => t.put e.1 e.2) (t.makeDirs target)

def allowRun : FileTree :=
  match t.find? p with
  | some (.file c _) => t.put p.resolve (.file c true)
  | _ => t

def pathFault (kind : Fault.Kind) (number : Nat) (what shown : String) : Fault :=
  ⟨kind, s!"[Errno {Number.intText number}] {what}: {Text.S.quoted shown}"⟩

def notFound : Fault := pathFault .missingPath 2 "No such file or directory" shown

def isADirectory : Fault := pathFault .isDirectory 21 "Is a directory" shown

def notADirectory : Fault := pathFault .notDirectory 20 "Not a directory" shown

def alreadyThere : Fault := pathFault .existingPath 17 "File exists" shown

def absence : Fault := if p.resolve.parents.any fun q => t.isFile q then notADirectory shown else notFound shown

def open? : Result Content :=
  match t.find? p with
  | some (.file c _) => .ok c
  | some .directory => .error (isADirectory shown)
  | none => .error (t.absence p shown)

def Content.toOctets : Content → List UInt8
  | .text s => Utf8.encode s
  | .octets b => b
  | .filler n => List.replicate n 0x67
  | .archive _ => Utf8.encode "PK"
  | .workbook _ => Utf8.encode "PK"

def Content.size : Content → Nat
  | .filler n => n
  | .text s => s.utf8ByteSize
  | c => (Content.toOctets c).length

def readTextAs : Result String :=
  match t.open? p shown with
  | .error f => .error f
  | .ok (.text s) => .ok (String.ofList (Text.unifyLineEnds s.toList))
  | .ok c => (Utf8.decode (Content.toOctets c)).map fun s => String.ofList (Text.unifyLineEnds s.toList)

def readText : Result String := t.readTextAs p p.toString

def makeAll : Result FileTree :=
  match t.find? p with
  | some .directory => .ok t
  | some (.file ..) => .error (alreadyThere p.toString)
  | none =>
    if p.resolve.parents.any fun q => t.isFile q then .error (notADirectory p.toString)
    else .ok (t.makeDirs p)

def saveAs (c : Content) : Result FileTree :=
  match t.find? p with
  | some .directory => .error (isADirectory shown)
  | _ =>
    match t.find? p.parent with
    | some .directory => .ok (t.write p c)
    | some (.file ..) => .error (notADirectory shown)
    | none => .error (t.absence p shown)

def saveText (s : String) : Result FileTree := t.saveAs p p.toString (.text s)

end FileTree

end Sluice
