/-!
# Faults

A fault has a **kind** and a **message**. A **feed** is what a run over records delivers: the records made before it
ended, and the fault that ended it, if any.
-/

namespace Sluice

/-- What sort of thing went wrong. -/
inductive Fault.Kind
  | value
  /-- a kind of value that the operation is not defined on -/
  | type
  /-- a name that is not in a table -/
  | key
  | index
  /-- a part that the value at hand does not have -/
  | field
  | division
  | overflow
  | depth
  | decoding
  | encoding
  | json
  | base64
  | yamlToken
  | yamlStructure
  | yamlReference
  | yamlValue
  | yamlCharacter
  | markup
  | markupEvents
  | markupPart
  | archive
  | sheetCharacter
  | workbook
  | profile
  | service
  | database
  | failure
  /-- something that is not provided -/
  | unsupported
  /-- a condition that was required and does not hold -/
  | required
  /-- a sequence that has no next element -/
  | exhausted
  | pattern
  | missingPath
  | existingPath
  | isDirectory
  /-- a path at which no directory stands and one is wanted -/
  | notDirectory
  | permission
  | machine
  /-- a reader that has gone away -/
  | brokenPipe
  | interrupted
  | noProcess
  | timeout
  | endOfFile
  | other (name : String)
deriving DecidableEq

structure Fault where
  /-- what sort of thing went wrong -/
  kind : Fault.Kind
  message : String
deriving DecidableEq

namespace Fault

variable (message : String)

def badValue : Fault := ⟨.value, message⟩

/-- An operation on a kind of value that it is not defined on. Its wording is free. -/
def badType : Fault := ⟨.type, message⟩

/-- A part that the value at hand does not have. Its wording is free. -/
def noField : Fault := ⟨.field, message⟩

def Kind.name : Kind → String
  | .value => "ValueError"
  | .type => "TypeError"
  | .key => "KeyError"
  | .index => "IndexError"
  | .field => "AttributeError"
  | .division => "ZeroDivisionError"
  | .overflow => "OverflowError"
  | .depth => "RecursionError"
  | .decoding => "UnicodeDecodeError"
  | .encoding => "UnicodeEncodeError"
  | .json => "JSONDecodeError"
  | .base64 => "Error"
  | .yamlToken => "ScannerError"
  | .yamlStructure => "ParserError"
  | .yamlReference => "ComposerError"
  | .yamlValue => "ConstructorError"
  | .yamlCharacter => "ReaderError"
  | .markup => "ParseError"
  | .markupEvents => "ExpatError"
  | .markupPart => "SAXParseException"
  | .archive => "BadZipFile"
  | .sheetCharacter => "IllegalCharacterError"
  | .workbook => "InvalidFileException"
  | .profile => "ProfileError"
  | .service => "HttpError"
  | .database => "Error"
  | .failure => "RuntimeError"
  | .unsupported => "NotImplementedError"
  | .required => "AssertionError"
  | .exhausted => "StopIteration"
  | .pattern => "error"
  | .missingPath => "FileNotFoundError"
  | .existingPath => "FileExistsError"
  | .isDirectory => "IsADirectoryError"
  | .notDirectory => "NotADirectoryError"
  | .permission => "PermissionError"
  | .machine => "OSError"
  | .brokenPipe => "BrokenPipeError"
  | .interrupted => "KeyboardInterrupt"
  | .noProcess => "ProcessLookupError"
  | .timeout => "TimeoutExpired"
  | .endOfFile => "EOFError"
  | .other name => name

def Kind.blamesValue : Kind → Bool
  | .value | .json | .decoding | .encoding | .base64 => true
  | _ => false

def Kind.blamesRun : Kind → Bool
  | .failure | .depth | .unsupported => true
  | _ => false

/-- Whether a program may go on after a fault of this kind. -/
def Kind.isOrdinary (k : Kind) : Bool := k != .interrupted

end Fault

abbrev Result := Except Fault

structure Feed (α : Type) where
  items : List α
  /-- what ended the run, if it did not end by itself -/
  fault? : Option Fault := none

namespace Feed

variable {α β : Type}

def empty : Feed α := ⟨[], none⟩

def ofList (items : List α) : Feed α := ⟨items, none⟩

def failed (f : Fault) : Feed α := ⟨[], some f⟩

/-- One run after another: the second starts only if the first ended well. -/
def append (a : Feed α) (b : Unit → Feed α) : Feed α :=
  match a.fault? with
  | some f => ⟨a.items, some f⟩
  | none =>
    let rest := b ()
    ⟨a.items ++ rest.items, rest.fault?⟩

/-- A run for each element of a list, in order, up to the first failure. -/
def flatMap (f : β → Feed α) : List β → Feed α
  | [] => empty
  | b :: bs => append (f b) fun _ => flatMap f bs

def mapM (f : α → Result β) (a : Feed α) : Feed β :=
  append (flatMap (fun x => match f x with
    | .ok y => ofList [y]
    | .error e => failed e) a.items) fun _ => ⟨[], a.fault?⟩

def bindResult (r : Result β) (f : β → Feed α) : Feed α :=
  match r with
  | .ok b => f b
  | .error e => failed e

def toResult (a : Feed α) : Result (List α) :=
  match a.fault? with
  | some f => .error f
  | none => .ok a.items

end Feed

end Sluice
