import Sluice.Yaml.Scanner

/-!
# The nodes of a YAML document

Recursive descent over the tokens; references are resolved.
-/

namespace Sluice.Yaml

inductive Node
  | scalar (tag text : String)
  | sequence (tag : String) (items : List Node)
  | mapping (tag : String) (pairs : List (Node × Node))

def Node.tag : Node → String
  | .scalar t _ | .sequence t _ | .mapping t _ => t

structure Reading where
  tokens : List Token
  stop : Cause
  /-- the nodes that can be referred to; a node that is still open has none -/
  anchors : List (String × Option Node) := []
  handles : Pairs := []

abbrev Descent := StateT Reading (Except Cause)

namespace Descent

def peek : Descent Token := do
  match (← get).tokens with
  | t :: _ => pure t
  | [] => throw (← get).stop

def skip : Descent Unit := modify fun r => { r with tokens := r.tokens.drop 1 }

def accept (t : Token) : Descent Bool := do
  if (← peek) == t then
    skip
    pure true
  else pure false

open Kind

def emptyScalar : Node := .scalar null ""

def standardHandles : Pairs := [("!", "!"), ("!!", start)]

def fullTag (handle suffix : String) : Descent String := do
  if handle == "" then pure suffix
  else
    match ((← get).handles ++ standardHandles).find? (·.1 == handle) with
    | some (_, start) => pure (start ++ suffix)
    | none => throw .arrangement

structure Properties where
  anchor? : Option String := none
  tag? : Option String := none

def properties : Descent Properties := do
  let anchor? : Descent (Option String) := do
    let .anchor a ← peek | pure none
    skip
    pure (some a)
  let tag? : Descent (Option (String × String)) := do
    let .tag h s ← peek | pure none
    skip
    pure (some (h, s))
  let before? ← anchor?
  let tag? ← tag?
  let anchor? ← if before?.isNone && tag?.isSome then anchor? else pure before?
  let _ ← peek
  match tag? with
  | some (h, s) => pure ⟨anchor?, some (← fullTag h s)⟩
  | none => pure ⟨anchor?, none⟩

variable (p : Properties)

/-- Reads a node that may be referred to when it is complete. -/
def anchored (read : Descent Node) : Descent Node := do
  let some a := p.anchor? | read
  if (← get).anchors.any (·.1 == a) then throw .reference
  modify fun r => { r with anchors := (a, none) :: r.anchors }
  let n ← read
  modify fun r => { r with anchors := r.anchors.map fun e => if e.1 == a then (a, some n) else e }
  pure n

def referent (name : String) : Descent Node := do
  match (← get).anchors.find? (·.1 == name) with
  | some (_, some n) => pure n
  | some (_, none) => throw .value
  | none => throw .reference

def scalarTag (tag? : Option String) (text : String) (style : Style) : String :=
  match tag? with
  | some "!" => ofPlain text.toList
  | some t => t
  | none => if style == .plain then ofPlain text.toList else str

def collectionTag (tag? : Option String) (usual : String) : String :=
  match tag? with
  | none | some "!" => usual
  | some t => t

def sequence (items : Descent (List Node)) : Descent Node := anchored p (.sequence (collectionTag p.tag? seq) <$> items)

def mapping (pairs : Descent (List (Node × Node))) : Descent Node :=
  anchored p (.mapping (collectionTag p.tag? map) <$> pairs)

def bare : Descent Node :=
  if p.anchor?.isSome || p.tag?.isSome then anchored p (pure (.scalar (scalarTag p.tag? "" .plain) ""))
  else throw .arrangement

/-- Whether a bracket closes here; what follows another item follows a comma. -/
def closes (t : Token) (first : Bool) : Descent Bool := do
  if ← accept t then return true
  if !first then
    if !(← accept .comma) then throw .arrangement
  accept t

mutual

/-- A node. `block` says whether block collections may start here, `indentless` whether the entries of a sequence may stand
without deeper indentation. -/
def node : (fuel : Nat) → (block indentless : Bool) → Descent Node
  | 0, _, _ => throw .arrangement
  | fuel + 1, block, indentless => do
    if let .alias name ← peek then
      skip
      return ← referent name
    let p ← properties
    match ← peek with
    | .scalar text style =>
      skip
      anchored p (pure (.scalar (scalarTag p.tag? text style) text))
    | .entry => if indentless then sequence p (looseEntries fuel) else bare p
    | .sequenceOpen =>
      skip
      sequence p (flowItems fuel true)
    | .mappingOpen =>
      skip
      mapping p (flowPairs fuel true)
    | .blockSequence => if block then do skip; sequence p (blockEntries fuel) else bare p
    | .blockMapping => if block then do skip; mapping p (blockPairs fuel) else bare p
    | _ => bare p

def nodeUnless : (fuel : Nat) → (ends : List Token) → (block indentless : Bool) → Descent Node
  | 0, _, _, _ => throw .arrangement
  | fuel + 1, ends, block, indentless => do
    if ends.contains (← peek) then pure emptyScalar else node fuel block indentless

def blockEntries : (fuel : Nat) → Descent (List Node)
  | 0 => throw .arrangement
  | fuel + 1 => do
    if ← accept .entry then
      pure ((← nodeUnless fuel [.entry, .blockEnd] true false) :: (← blockEntries fuel))
    else if ← accept .blockEnd then pure []
    else throw .arrangement

def looseEntries : (fuel : Nat) → Descent (List Node)
  | 0 => throw .arrangement
  | fuel + 1 => do
    if ← accept .entry then
      pure ((← nodeUnless fuel [.entry, .key, .value, .blockEnd] true false) :: (← looseEntries fuel))
    else pure []

def blockPairs : (fuel : Nat) → Descent (List (Node × Node))
  | 0 => throw .arrangement
  | fuel + 1 => do
    if ← accept .key then
      let k ← nodeUnless fuel [.key, .value, .blockEnd] true true
      pure ((k, ← valueUnless fuel [.key, .value, .blockEnd] true) :: (← blockPairs fuel))
    else if ← accept .blockEnd then pure []
    else throw .arrangement

def valueUnless : (fuel : Nat) → (ends : List Token) → (block : Bool) → Descent Node
  | 0, _, _ => throw .arrangement
  | fuel + 1, ends, block => do
    if ← accept .value then nodeUnless fuel ends block block else pure emptyScalar

/-- The items of a bracketed sequence. A pair stands for a mapping that holds it alone. -/
def flowItems : (fuel : Nat) → (first : Bool) → Descent (List Node)
  | 0, _ => throw .arrangement
  | fuel + 1, first => do
    if ← closes .sequenceClose first then return []
    if ← accept .key then
      let k ← if [Token.value, .comma, .sequenceClose].contains (← peek) then do
          skip
          pure emptyScalar
        else node fuel false false
      pure (.mapping map [(k, ← valueUnless fuel [.comma, .sequenceClose] false)] :: (← flowItems fuel false))
    else pure ((← node fuel false false) :: (← flowItems fuel false))

def flowPairs : (fuel : Nat) → (first : Bool) → Descent (List (Node × Node))
  | 0, _ => throw .arrangement
  | fuel + 1, first => do
    if ← closes .mappingClose first then return []
    if ← accept .key then
      let k ← nodeUnless fuel [.value, .comma, .mappingClose] false false
      pure ((k, ← valueUnless fuel [.comma, .mappingClose] false) :: (← flowPairs fuel false))
    else pure ((← node fuel false false, emptyScalar) :: (← flowPairs fuel false))

end

def directives : (fuel : Nat) → (versions : Nat) → Descent Unit
  | 0, _ => throw .arrangement
  | fuel + 1, versions => do
    match ← peek with
    | .version major minor =>
      if versions != 0 || major != 1 || !(minor == 1 || minor == 2) then throw .arrangement
      skip
      directives fuel 1
    | .tagDirective handle start =>
      if (← get).handles.any (·.1 == handle) then throw .arrangement
      modify fun r => { r with handles := (handle, start) :: r.handles }
      skip
      directives fuel versions
    | _ => pure ()

def skipEnds : (fuel : Nat) → Descent Unit
  | 0 => throw .arrangement
  | fuel + 1 => do if ← accept .documentEnd then skipEnds fuel

def isHead : Token → Bool
  | .version .. | .tagDirective .. | .documentStart => true
  | _ => false

def document : Descent (Option Node) := do
  let fuel := 4 * (← get).tokens.length + 8
  let ahead ← peek
  if ahead == .streamEnd then pure none
  else
    let root ←
      if isHead ahead then do
        directives fuel 0
        if !(← accept .documentStart) then throw .arrangement
        let ahead ← peek
        if isHead ahead || ahead == .documentEnd || ahead == .streamEnd then pure emptyScalar
        else node fuel true false
      else node fuel true false
    let _ ← accept .documentEnd
    skipEnds fuel
    if (← peek) == .streamEnd then pure (some root)
    else do
      directives fuel 0
      if ← accept .documentStart then throw .reference else throw .arrangement

end Descent

/-- **The node of a YAML text**, if it has a document at all. -/
def compose (dialect : Dialect) (text : String) : Except Cause (Option Node) :=
  let (tokens, stop?) := scan dialect text.toList
  (Descent.document.run { tokens, stop := stop?.getD .arrangement }).map (·.1)

end Sluice.Yaml
