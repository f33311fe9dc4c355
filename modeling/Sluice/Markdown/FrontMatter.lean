import Sluice.Yaml.Datum
import Sluice.Yaml.Writer

/-!
# Blocks of Markdown

* A **heading** is a line of one to six hash marks, white space and a text. It ends any open block.
* A **fence** is a line whose first characters, blanks aside, are three backquotes. It closes an open
  code block and opens one otherwise.
* Every other line belongs to the open block. A block without lines is not delivered.
-/

namespace Sluice.Markdown

open Text

inductive Line
  | heading (level : Nat) (text : String)
  | fence (language : String)
  | plain (text : String)

variable (s : Chars)

/-- The text of a heading behind its hash marks: white space and at least one character. -/
def headingText? : Option Chars :=
  let blank := s.takeWhile isBlank
  match s.drop blank.length with
  | [] => if 2 ≤ blank.length then blank.getLast?.map fun c => [c] else none
  | text => if blank.isEmpty then none else some text

def heading? : Option (Nat × String) :=
  let marks := (s.takeWhile (· == '#')).length
  if 1 ≤ marks && marks ≤ 6 then (headingText? (s.drop marks)).map fun t => (marks, String.ofList t) else none

def fenceMark : Chars := "\x60\x60\x60".toList

/-- **What a line is.** -/
def Line.ofText : Line :=
  match heading? s with
  | some (level, text) => .heading level text
  | none =>
    match dropStart? fenceMark (strip s) with
    | some language => .fence (String.ofList (strip language))
    | none => .plain (String.ofList s)

inductive Block
  | heading (level : Nat) (text : String)
  | text (lines : List String)
  | code (language : String) (lines : List String)
deriving DecidableEq

inductive Pending
  | text (lines : List String)
  | code (language : String) (lines : List String)

namespace Pending

def lines : Pending → List String
  | .text ls => ls
  | .code _ ls => ls

def add (line : String) : Pending → Pending
  | .text ls => .text (ls ++ [line])
  | .code language ls => .code language (ls ++ [line])

def toBlock : Pending → Block
  | .text ls => .text ls
  | .code language ls => .code language ls

def flush (p : Pending) : List Block := if p.lines.isEmpty then [] else [p.toBlock]

end Pending

def blocksFrom : Pending → List Line → List Block
  | p, [] => p.flush
  | p, .heading level text :: rest => p.flush ++ .heading level text :: blocksFrom (.text []) rest
  | p, .plain line :: rest => blocksFrom (p.add line) rest
  | .code language lines, .fence _ :: rest => .code language lines :: blocksFrom (.text []) rest
  | .text lines, .fence language :: rest => (Pending.text lines).flush ++ blocksFrom (.code language []) rest

def contentLines (content : String) : List Chars := splitAtChar '\n' content.toList

/-- **The blocks of content.** -/
def blocks (content : String) : List Block := blocksFrom (.text []) ((contentLines content).map Line.ofText)

def Block.toValue : Block → Value
  | .heading level title => .map [("type", "heading"), ("level", .int level), ("text", title)]
  | .text lines => .map [("type", "text"), ("content", (S.join "\n" lines))]
  | .code language lines => .map [("type", "code"), ("language", language), ("content", (S.join "\n" lines))]

/-!
## Front matter

A document may begin with **metadata**: YAML between two lines of dashes, or JSON between two lines of a brace. What
follows is the **content**. Metadata that is no table of named values counts as none.
-/

open Yaml

structure Page where
  fields : Fields := []
  content : String

/-- How much white space behind dashes belongs to their line: all of it at the end of the text, else what stands before its
last line end. -/
def marginLength (blank after : Chars) : Option Nat :=
  if after.isEmpty then some blank.length
  else
    let tail := (blank.reverse.takeWhile (· != '\n')).length
    if tail < blank.length then some (blank.length - tail - 1) else none

/-- What follows a line of three or more dashes at the start of a text. -/
def dashesEnd? (s : Chars) : Option Chars :=
  let after := s.dropWhile (· == '-')
  if s.length < after.length + 3 then none
  else
    let blank := after.takeWhile isBlank
    (marginLength blank (after.drop blank.length)).map (after.drop ·)

/-- What follows a line that holds only a brace at the start of a text. -/
def braceEnd? : Chars → Option Chars
  | c :: rest => if (c == '\x7b' || c == '\x7d') && (rest.isEmpty || rest.head? == some '\n') then some rest else none
  | [] => none

def cutAt (boundary? : Chars → Option Chars) : (lineStart : Bool) → Chars → Option (Chars × Chars)
  | _, [] => none
  | lineStart, c :: rest =>
    match if lineStart then boundary? (c :: rest) else none with
    | some after => some ([], after)
    | none => (cutAt boundary? (c == '\n') rest).map fun p => (c :: p.1, p.2)

/-- The text between the first two boundaries and the text behind them, if a text begins with a
boundary. -/
def between? (boundary? : Chars → Option Chars) (s : Chars) : Option (Chars × Chars) :=
  (boundary? s).bind (cutAt boundary? false)

def reservedNames : List String := ["content", "handler", "self"]

def metadata : Datum → Result Fields
  | .table entries =>
    if entries.all fun e => match e.1 with
      | .str k => !reservedNames.contains k
      | _ => false
    then .ok (Datum.toFields entries)
    else .error (.badType "metadata names")
  | _ => .ok []

def jsonMetadata : Value → Result Fields
  | .map fields => if fields.any fun f => reservedNames.contains f.1 then .error (.badType "metadata names") else .ok fields
  | _ => .ok []

/-- **Takes a text apart** into metadata and content. -/
def Page.parse (text : String) : Result Page := do
  let s := strip text.toList
  let page (fields : Fields) (content : Chars) : Page := ⟨fields, String.ofList (strip content)⟩
  if (dashesEnd? s).isSome then
    match between? dashesEnd? s with
    | some (head, content) => pure (page (← metadata (← load {} (String.ofList head))) content)
    | none => pure (page [] s)
  else
    match between? braceEnd? s with
    | some (head, content) => pure (page (← jsonMetadata (← Json.read ("\x7b" ++ String.ofList head ++ "\x7d"))) content)
    | none => pure (page [] s)

/-- Why the metadata of a text is not printed as a record, in which its type comes first. -/
def metadataRefusal? (text : String) : Option Fault :=
  match between? dashesEnd? (strip text.toList) with
  | none => none
  | some (head, _) =>
    match load {} (String.ofList head) with
    | .ok (.table entries) =>
      let isType (e : Value × Datum) : Bool := e.1 == "type"
      (refusalIn? (entries.filter isType)).or (refusalIn? (entries.filter (!isType ·)))
    | _ => none

/-- **Puts a document together**: its metadata between dashes, a blank line, its content. -/
def Page.render (p : Page) : String := S.strip s!"---\n{Text.S.strip (Yaml.render p.fields)}\n---\n\n{p.content}\n"

end Sluice.Markdown
