import Sluice.Machine.Session
import Sluice.Markdown.FrontMatter

/-! # The Markdown command -/

namespace Sluice.Markdown

open CommandLine Fields

structure Options where
  withMetadata : Bool := true
  inBlocks : Bool := false

def Page.records (options : Options) (page : Page) : List Value :=
  (if options.withMetadata && !page.fields.isEmpty then
    [.map (update [("type", "frontmatter")] page.fields)] else []) ++
  (if options.inBlocks then (blocks page.content).map Block.toValue
    else [.map [("type", "content"), ("content", page.content)]])

/-- **The records of a text.** -/
def records (options : Options) (text : String) : Feed Value :=
  .bindResult (Page.parse text) fun page => .ofList (page.records options)

def printed (options : Options) (text : String) : Feed Value :=
  .bindResult (Page.parse text) fun page =>
    match if options.withMetadata then metadataRefusal? text else none with
    | some f => .failed f
    | none => .ofList (page.records options)

/-! ## Writing -/

/-- What records add up to: metadata and parts of content. -/
structure Draft where
  fields : Value
  parts : List Value := []

def Draft.add (d : Draft) (v : Value) : Result Draft :=
  match v with
  | .map fields =>
    match get? "type" fields with
    | some (.str "frontmatter") =>
      match d.fields with
      | .map old => .ok { d with fields := .map (update old (erase "type" fields)) }
      | _ => .error (.noField "update")
    | some (.str "content") => .ok { d with parts := d.parts ++ [(get? "content" fields).getD ""] }
    | _ => do
      pure { d with parts := d.parts ++ [.str (← Json.write { indent? := some 2 } v)] }
  | _ => .error (.noField "get")

def startFields (given : Value) : Result Value :=
  if given.truthy then
    match given with
    | .map _ | .list _ => .ok given
    | _ => .error (.noField "copy")
  else .ok (.map [])

def joinParts (parts : List Value) : Result String :=
  match parts.mapM Value.str? with
  | some texts => .ok (Text.S.join "\n\n" texts)
  | none => .error (.badType "parts of content")

def placeName : Chars → Option (Chars × Chars)
  | [] => none
  | c :: rest => if c == '\x7d' then some ([], rest) else (placeName rest).map fun p => (c :: p.1, p.2)

/-- Fills a template with one text: a pair of braces, empty or around a zero, is the text, a doubled brace a brace. -/
def fillTemplate (text : Chars) : (fuel next : Nat) → Chars → Result Chars
  | 0, _, _ => .ok []
  | _ + 1, _, [] => .ok []
  | fuel + 1, next, '\x7b' :: '\x7b' :: rest => (fillTemplate text fuel next rest).map ('\x7b' :: ·)
  | fuel + 1, next, '\x7d' :: '\x7d' :: rest => (fillTemplate text fuel next rest).map ('\x7d' :: ·)
  | fuel + 1, next, c :: rest =>
    if c == '\x7d' then .error (.badValue "Single '\x7d' encountered in format string")
    else if c == '\x7b' then
      match placeName rest with
      | none => .error (.badValue
          (if rest.isEmpty then "Single '\x7b' encountered in format string" else "expected '\x7d' before end of string"))
      | some (name, rest) =>
        let index? : Option Nat := if name.isEmpty then some next
          else if name.all Char.isDigit then some (Text.digitsValue name) else none
        match index? with
        | some 0 => (fillTemplate text fuel (next + 1) rest).map (text ++ ·)
        | some n => .error ⟨.index, s!"Replacement index {n} out of range for positional args tuple"⟩
        | none => .error ⟨.key, Text.S.quoted (String.ofList name)⟩
    else (fillTemplate text fuel next rest).map (c :: ·)

def documentText (fields : Fields) (content : String) : Result String :=
  if fields.any fun f => f.1 == "content" || f.1 == "self" then .error (.badType "metadata names")
  else
    let page : Page := ⟨erase "handler" fields, content⟩
    match get? "handler" fields with
    | none => .ok page.render
    | some handler =>
      if handler.truthy then
        match handler with
        | .str template => (fillTemplate content.toList (template.length + 1) 0 template.toList).map String.ofList
        | _ => .error (.noField "format")
      else .ok page.render

/-- **The document that records add up to.** -/
def render (withMetadata : Bool) (given : Value) (records : List Value) : Result String := do
  let draft ← records.foldlM Draft.add { fields := ← startFields given }
  let content ← joinParts draft.parts
  if withMetadata && draft.fields.truthy then
    match draft.fields with
    | .map fields => documentText fields content
    | _ => throw (.badType "metadata names")
  else pure content

def writeRecords (withMetadata : Bool) (given : Value) : Act Unit := do
  let (text, fault?) ← Act.streamInput
  Act.print (← Act.ofResult (render withMetadata given (← Act.ofResult (Json.readEveryLine text fault?))))

def arguments : List Argument :=
  [ { flags := ["--mode"], choices := ["read", "write"], required := true },
    { dest := "metadata", flags := ["--include-frontmatter"], arity := .zero, default := true },
    { dest := "blocks", flags := ["--parse-structure"], arity := .zero, default := false } ]

def optionsOf (args : Parsed) : Options :=
  { withMetadata := (args.get "metadata").truthy, inBlocks := (args.get "blocks").truthy }

/-- **The program.** -/
def command (argv : List String) : Act Unit := do
  let args ← Act.arguments (parse arguments argv)
  let options := optionsOf args
  if args.str? "mode" = some "read" then do
    Act.printFeed (printed options (← Act.readInput))
  else writeRecords options.withMetadata .null

end Sluice.Markdown
