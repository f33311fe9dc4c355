import Sluice.Machine.FileTree

/-!
# Syntax trees of source files

Places count rows from 0 and octets. `Tree.walk` passes over a tree from the top: a rule says at each node what is found
there and with which owner the children are visited, if they are.
-/

namespace Sluice.Source

inductive Language
  | python | javascript | go | rust
deriving DecidableEq

def Language.name : Language → String
  | .python => "python"
  | .javascript => "javascript"
  | .go => "go"
  | .rust => "rust"

def Language.ofName? (name : String) : Option Language := [Language.python, .javascript, .go, .rust].find? (·.name == name)

def Language.ofSuffix? (suffix : String) : Option Language :=
  match suffix with
  | ".py" => some .python
  | ".js" | ".jsx" | ".ts" | ".tsx" => some .javascript
  | ".go" => some .go
  | ".rs" => some .rust
  | _ => none

def Language.ofPath? (path : String) : Option Language := Language.ofSuffix? (Text.S.lower (Path.ofString path).suffix)

/-- Where a node stands: the rows of its first and last character and its octets. -/
structure Span where
  startRow : Nat := 0
  startByte : Nat := 0
  endRow : Nat := 0
  endByte : Nat := 0
deriving Inhabited

/-- A syntax tree. A field names the number of a child. -/
inductive Tree
  | node (kind : String) (span : Span) (fields : List (String × Nat)) (children : List Tree)
deriving Inhabited

namespace Tree

def kind : Tree → String
  | .node k _ _ _ => k

def span : Tree → Span
  | .node _ s _ _ => s

def children : Tree → List Tree
  | .node _ _ _ cs => cs

def field? (name : String) : Tree → Option Tree
  | .node _ _ fields children => (fields.find? (·.1 == name)).bind fun f => children[f.2]?

def firstLine (t : Tree) : Nat := t.span.startRow + 1

def lastLine (t : Tree) : Nat := t.span.endRow + 1

def text (code : List UInt8) (t : Tree) : Result String := Utf8.decode ((code.take t.span.endByte).drop t.span.startByte)

structure Visit (α : Type) where
  found : Feed α := .empty
  /-- the owner for the children; they are not visited when there is none -/
  inside? : Option (Option String) := none

abbrev Rule (α : Type) := (owner? : Option String) → (above? : Option Tree) → Tree → Visit α

variable {α : Type}

def Visit.failed (f : Fault) : Visit α := { found := .failed f }

def Visit.bind {β : Type} (r : Result β) (f : β → Visit α) : Visit α :=
  match r with
  | .ok b => f b
  | .error e => .failed e

mutual

/-- **Walks over a tree** from the top, children from the left. -/
def walk (rule : Rule α) (owner? : Option String) (above? : Option Tree) : Tree → Feed α
  | .node k s fs cs =>
    let here := Tree.node k s fs cs
    let v := rule owner? above? here
    v.found.append fun _ => match v.inside? with
      | some owner? => walkAll rule owner? here cs
      | none => .empty

def walkAll (rule : Rule α) (owner? : Option String) (above : Tree) : List Tree → Feed α
  | [] => .empty
  | t :: ts => (walk rule owner? (some above) t).append fun _ => walkAll rule owner? above ts

end

end Tree

def named? (s? : Option String) : Option String := s?.filter (· != "")

def qualified (sep : String) (owner? : Option String) (name : String) : String :=
  match named? owner? with
  | some owner => owner ++ sep ++ name
  | none => name

open Sluice.Source.Tree

inductive Sort_
  | function | method | class_
deriving DecidableEq

def Sort_.word : Sort_ → String
  | .function => "function"
  | .method => "method"
  | .class_ => "class"

structure Definition where
  name : String
  sort : Sort_
  owner? : Option String
  lines : Nat × Nat

def Definition.toFields (file : String) (d : Definition) : Fields :=
  [("file", file), ("function", d.name), ("type", d.sort.word),
   ("class", match d.owner? with
    | some o => o
    | none => .null),
   ("start_line", .int d.lines.1), ("end_line", .int d.lines.2)]

def bracedLines (body : Tree) : Nat × Nat :=
  if body.kind == "block" || body.kind == "statement_block" then
    let cs := body.children
    let first := match cs with
      | a :: b :: _ => if a.kind == "\x7b" then b.firstLine else body.firstLine
      | _ => body.firstLine
    let last := match cs.reverse with
      | a :: b :: _ => if a.kind == "\x7d" then b.lastLine else body.lastLine
      | _ => body.lastLine
    (first, last)
  else (body.firstLine, body.lastLine)

variable (language : Language) (code : List UInt8) (t : Tree) (caller : String)

def isDocumentation : Bool := t.kind == "expression_statement" && t.children.head?.any (·.kind == "string")

/-- **The lines of the body of a definition**, without documentation at its start. Without a body these are the lines
behind its first. -/
def bodyLines : Nat × Nat :=
  match t.field? "body" with
  | none => (t.span.startRow + 2, t.lastLine)
  | some body =>
    let (first, last) := bracedLines body
    let first := match language, body.children with
      | .python, doc :: rest =>
        if isDocumentation doc then
          match rest with
          | next :: _ => next.firstLine
          | [] => doc.lastLine
        else first
      | _, _ => first
    (first, last)

/-! ## Rules -/

def defined (name : String) (sort : Sort_) (owner? : Option String) :
    Feed Definition := .ofList [⟨name, sort, owner?, bodyLines language t⟩]

def withField {α : Type} (code : List UInt8) (t : Tree) (field : String) (otherwise : Visit α)
    (f : String → Visit α) : Visit α :=
  match t.field? field with
  | some n => .bind (n.text code) f
  | none => otherwise

def pythonRule : Rule Definition := fun owner? _ t =>
  if t.kind == "class_definition" then
    withField code t "name" {} fun name => { found := defined .python t name .class_ none, inside? := some (some name) }
  else if t.kind == "function_definition" then
    withField code t "name" {} fun name =>
      let sort := if (named? owner?).isSome then Sort_.method else .function
      { found := defined .python t (qualified "." owner? name) sort owner? }
  else { inside? := some owner? }

def javascriptRule : Rule Definition := fun owner? above? t =>
  let on : Visit Definition := { inside? := some owner? }
  if t.kind == "function_declaration" || t.kind == "function" then
    withField code t "name" on fun name => { on with found := defined .javascript t name .function owner? }
  else if t.kind == "method_definition" then
    withField code t "name" on fun name =>
      { on with found := defined .javascript t (qualified "." owner? name) .method owner? }
  else if t.kind == "class_declaration" then
    withField code t "name" on fun name => { found := defined .javascript t name .class_ none, inside? := some (some name) }
  else if t.kind == "arrow_function" then
    match above?.filter (·.kind == "variable_declarator") with
    | some above => withField code above "name" on fun name =>
      { on with found := defined .javascript t name .function owner? }
    | none => on
  else on

def lastType : List Tree → Result (Option String)
  | [] => .ok none
  | t :: ts => do
    let here ← match (if t.kind == "parameter_declaration" then t.field? "type" else none) with
      | some n => (n.text code).map some
      | none => pure none
    pure ((← lastType ts).or here)

/-- The type that a method belongs to, without the stars of pointers. -/
def receiverType : Result (Option String) :=
  match t.field? "receiver" with
  | some r => (lastType code r.children).map fun s? => s?.map fun s => String.ofList (s.toList.dropWhile (· == '*'))
  | none => .ok none

def goRule : Rule Definition := fun _ _ t =>
  let on : Visit Definition := { inside? := some none }
  if t.kind == "function_declaration" then
    withField code t "name" on fun name => { on with found := defined .go t name .function none }
  else if t.kind == "method_declaration" then
    withField code t "name" on fun name =>
      .bind (receiverType code t) fun owner? => { on with found := defined .go t (qualified "." owner? name) .method owner? }
  else on

def rustRule : Rule Definition := fun owner? _ t =>
  let on : Visit Definition := { inside? := some owner? }
  if t.kind == "function_item" then
    withField code t "name" on fun name =>
      let sort := if (named? owner?).isSome then Sort_.method else .function
      { on with found := defined .rust t (qualified "::" owner? name) sort owner? }
  else if t.kind == "impl_item" then
    withField code t "type" { inside? := some none } fun name => { inside? := some (some name) }
  else on

def definitionRule : Rule Definition :=
  match language with
  | .python => pythonRule code
  | .javascript => javascriptRule code
  | .go => goRule code
  | .rust => rustRule code

/-- **What is defined in a source**, in the order of the text. -/
def definitions : Feed Definition := t.walk (definitionRule language code) none none

structure Call where
  caller : String
  callee : String
  line : Nat

def Call.toFields (file : String) (c : Call) : Fields :=
  [("file", file), ("caller", c.caller), ("callee", c.callee), ("line", .int c.line)]

def memberName (member object? : Option Tree) (sep : String) : Result (Option String) := do
  match member with
  | some m =>
    let name ← m.text code
    match object? with
    | some o => pure (some ((← o.text code) ++ sep ++ name))
    | none => pure (some name)
  | none => pure none

/-- **The name that a call calls**, if it has one. -/
def callee? (call : Tree) : Result (Option String) :=
  match call.field? "function" with
  | none => .ok none
  | some f =>
    let simple (t? : Option Tree) : Option Tree := t?.filter (·.kind == "identifier")
    if f.kind == "identifier" then (f.text code).map some
    else match language with
      | .python =>
        if f.kind == "attribute" then memberName code (f.field? "attribute") (f.field? "object") "."
        else .ok none
      | .javascript =>
        if f.kind == "member_expression" then
          memberName code (f.field? "property") (simple (f.field? "object")) "."
        else .ok none
      | .go =>
        if f.kind == "selector_expression" then
          memberName code (f.field? "field") (simple (f.field? "operand")) "."
        else .ok none
      | .rust =>
        if f.kind == "scoped_identifier" then memberName code (f.field? "name") (f.field? "path") "::"
        else if f.kind == "field_expression" then memberName code (f.field? "field") none "."
        else .ok none

def callKind : Language → String
  | .python => "call"
  | _ => "call_expression"

def callRule : Rule Call := fun _ _ t =>
  let on : Visit Call := { inside? := some none }
  if t.kind == callKind language then
    .bind (callee? language code t) fun name? => match named? name? with
      | some name => { on with found := .ofList [⟨caller, name, t.firstLine⟩] }
      | none => on
  else on

def callsWithin (t : Tree) : Feed Call := t.walk (callRule language code caller) none none

def bodyCalls : Visit Call :=
  match t.field? "body" with
  | some body => { found := callsWithin language code caller body }
  | none => {}

def callerRule : Rule Call := fun owner? above? t =>
  let on : Visit Call := { inside? := some owner? }
  let inClass : Visit Call := withField code t "name" on fun name => { inside? := some (some name) }
  let inFunction (sep : String) : Visit Call :=
    withField code t "name" on fun name => bodyCalls language code t (qualified sep owner? name)
  match language with
  | .python =>
    if t.kind == "class_definition" then inClass
    else if t.kind == "function_definition" then inFunction "."
    else on
  | .javascript =>
    if t.kind == "class_declaration" then inClass
    else if t.kind == "function_declaration" || t.kind == "method_definition" then inFunction "."
    else if t.kind == "arrow_function" then
      match above?.filter (·.kind == "variable_declarator") with
      | some above => withField code above "name" on (bodyCalls .javascript code t)
      | none => on
    else on
  | .go =>
    if t.kind == "function_declaration" then withField code t "name" on (bodyCalls .go code t)
    else if t.kind == "method_declaration" then
      withField code t "name" on fun name =>
        .bind (receiverType code t) fun receiver? => bodyCalls .go code t (qualified "." receiver? name)
    else on
  | .rust =>
    if t.kind == "function_item" then inFunction "::"
    else if t.kind == "impl_item" then
      withField code t "type" { inside? := some none } fun name => { inside? := some (some name) }
    else on

/-- **The calls in a source**, in the order of the text. -/
def calls : Feed Call := t.walk (callerRule language code) none none

end Sluice.Source
