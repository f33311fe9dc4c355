import Sluice.Value.Basic

/-!
# JSON texts

Reading accepts `NaN` and the infinities and refuses whole numbers of too many digits. Of a name that occurs twice in an
object the last value counts, at the first one's place. Writing follows a `Layout`.
-/

namespace Sluice.Json

open Text Number String

/-! ## Reading -/

inductive Cause
  | byteOrderMark
  | noValue
  | noName
  | noColon
  | noComma
  | openString
  | controlCharacter
  | badEscape
  | badCodePoint
  | extraData

def Cause.text : Cause → String
  | .byteOrderMark => "Unexpected UTF-8 BOM (decode using utf-8-sig)"
  | .noValue => "Expecting value"
  | .noName => "Expecting property name enclosed in double quotes"
  | .noColon => "Expecting ':' delimiter"
  | .noComma => "Expecting ',' delimiter"
  | .openString => "Unterminated string starting at"
  | .controlCharacter => "Invalid control character at"
  | .badEscape => "Invalid \\escape"
  | .badCodePoint => "Invalid \\uXXXX escape"
  | .extraData => "Extra data"

/-- What stopped the reader: a malformed text, at a position, or a value that is refused. -/
inductive Stop
  | malformed (cause : Cause) (at_ : Nat)
  | refused (message : String)

variable (c : Cursor) (text : Chars)

def lineColumn (pos : Nat) : Nat × Nat :=
  let before := text.take pos
  (before.count '\n' + 1, (before.reverse.takeWhile (· != '\n')).length + 1)

def placeMessage (cause : Cause) (pos : Nat) : String :=
  let (line, col) := lineColumn text pos
  cause.text ++ s!": line {intText line} column {intText col} (char {intText pos})"

def Stop.fault : Stop → Fault
  | .malformed cause pos => ⟨.json, placeMessage text cause pos⟩
  | .refused message => .badValue message

/-- A reader's place: the rest of the text and the position it starts at. -/
structure Cursor where
  rest : Chars
  pos : Nat

def isSpace (c : Char) : Bool := c == ' ' || c == '\t' || c == '\n' || c == '\r'

def Cursor.skip : Cursor := ⟨c.rest.dropWhile isSpace, c.pos + (c.rest.takeWhile isSpace).length⟩

def Cursor.drop (c : Cursor) (n : Nat) : Cursor := ⟨c.rest.drop n, c.pos + n⟩

def hex4? : Chars → Option Nat
  | [a, b, c, d] => do
    some ((((← hexValue? a) * 16 + (← hexValue? b)) * 16 + (← hexValue? c)) * 16 + (← hexValue? d))
  | _ => none

def escape? (c : Char) : Option Char :=
  if c = '"' ∨ c = '\\' ∨ c = '/' then some c
  else if c = 'b' then some '\x08'
  else if c = 'f' then some '\x0c'
  else if c = 'n' then some '\n'
  else if c = 'r' then some '\r'
  else if c = 't' then some '\t'
  else none

/-- The rest of a string, from after its opening mark at `start` to after its closing mark. -/
def stringBody (start : Nat) : (fuel : Nat) → Cursor → List Char → Except Stop (String × Cursor)
  | 0, _, _ => .error (.malformed .openString start)
  | fuel + 1, ⟨rest, pos⟩, acc =>
    match rest with
    | [] => .error (.malformed .openString start)
    | '"' :: r => .ok (ofList acc.reverse, ⟨r, pos + 1⟩)
    | '\\' :: 'u' :: r =>
      -- the closing mark must still follow the four digits
      if r.length < 5 then .error (.malformed .badCodePoint (pos + 1))
      else
        match hex4? (r.take 4) with
        | none => .error (.malformed .badCodePoint (pos + 1))
        | some n =>
          let single := stringBody start fuel ⟨r.drop 4, pos + 6⟩
          if 0xd800 ≤ n ∧ n < 0xdc00 then
            match r.drop 4 with
            | '\\' :: 'u' :: r' =>
              if r'.length < 5 then single (Char.ofNat 0xfffd :: acc)
              else
                match hex4? (r'.take 4) with
                | none => .error (.malformed .badCodePoint (pos + 7))
                | some n' =>
                  if 0xdc00 ≤ n' ∧ n' < 0xe000 then
                    stringBody start fuel ⟨r'.drop 4, pos + 12⟩
                      (Char.ofNat (0x10000 + (n - 0xd800) * 0x400 + (n' - 0xdc00)) :: acc)
                  else single (Char.ofNat 0xfffd :: acc)
            | _ => single (Char.ofNat 0xfffd :: acc)
          else if 0xdc00 ≤ n ∧ n < 0xe000 then single (Char.ofNat 0xfffd :: acc)
          else single (Char.ofNat n :: acc)
    | ['\\'] => .error (.malformed .openString start)
    | '\\' :: e :: r =>
      match escape? e with
      | some c => stringBody start fuel ⟨r, pos + 2⟩ (c :: acc)
      | none => .error (.malformed .badEscape pos)
    | c :: r =>
      if c.toNat < 32 then .error (.malformed .controlCharacter pos)
      else stringBody start fuel ⟨r, pos + 1⟩ (c :: acc)

def string : Except Stop (String × Cursor) := stringBody (c.pos - 1) (c.rest.length + 1) c []

/-- A number: sign, whole part without leading zeros, places, exponent. -/
def number? : Option (Value × Cursor) :=
  let (negative, s) := match c.rest with
    | '-' :: r => (true, r)
    | r => (false, r)
  let whole := match s with
    | '0' :: _ => ['0']
    | r => r.takeWhile isAsciiDigit
  if whole.isEmpty then none
  else
    let rest := s.drop whole.length
    let part := match rest with
      | '.' :: r => r.takeWhile isAsciiDigit
      | _ => []
    let rest := if part.isEmpty then rest else rest.drop (part.length + 1)
    let (expNegative, expSign, expDigits) := match rest with
      | e :: r =>
        if e = 'e' ∨ e = 'E' then
          match r with
          | '-' :: r => (true, 1, r.takeWhile isAsciiDigit)
          | '+' :: r => (false, 1, r.takeWhile isAsciiDigit)
          | r => (false, 0, r.takeWhile isAsciiDigit)
        else (false, 0, [])
      | [] => (false, 0, [])
    let len := (if negative then 1 else 0) + whole.length +
      (if part.isEmpty then 0 else part.length + 1) +
      (if expDigits.isEmpty then 0 else 1 + expSign + expDigits.length)
    let next := c.drop len
    if part.isEmpty && expDigits.isEmpty then
      let n : Int := digitsValue whole
      some (.int (if negative then -n else n), next)
    else
      let e : Int := digitsValue expDigits
      let e := (if expNegative then -e else e) - part.length
      some (.float (ofDecimal negative (digitsValue (whole ++ part)) e), next)

def constants : List (String × Value) :=
  [("null", .null), ("true", true), ("false", false), ("NaN", .float nan),
   ("Infinity", .float (infinity false)), ("-Infinity", .float (infinity true))]

def checkSize : Value → Except Stop Value
  | .int n =>
    let count := (natText n.natAbs).length
    if mostDigits < count then .error (.refused (tooManyDigits count).message) else .ok n
  | v => .ok v

def scalar : Except Stop (Value × Cursor) :=
  match constants.find? fun w => startsWith w.1.toList c.rest with
  | some (w, v) => .ok (v, c.drop w.length)
  | none =>
    match number? c with
    | some (v, next) => (checkSize v).map fun v => (v, next)
    | none => .error (.malformed .noValue c.pos)

abbrev Close := List (String × Value) → Except String Value

mutual

def value (close : Close) : (fuel : Nat) → Cursor → Except Stop (Value × Cursor)
  | 0, c => .error (.malformed .noValue c.pos)
  | fuel + 1, c =>
    match c.rest with
    | '"' :: _ => (string (c.drop 1)).map fun r => (.str r.1, r.2)
    | '[' :: _ =>
      let inner := (c.drop 1).skip
      if inner.rest.head? = some ']' then .ok (.list [], inner.drop 1)
      else items close fuel inner []
    | '\x7b' :: _ =>
      let inner := (c.drop 1).skip
      if inner.rest.head? = some '\x7d' then closed close [] (inner.drop 1)
      else members close fuel inner []
    | _ => scalar c

def closed (close : Close) (fields : List (String × Value)) (c : Cursor) : Except Stop (Value × Cursor) :=
  match close fields with
  | .ok v => .ok (v, c)
  | .error message => .error (.refused message)

def items (close : Close) : (fuel : Nat) → Cursor → List Value → Except Stop (Value × Cursor)
  | 0, c, _ => .error (.malformed .noValue c.pos)
  | fuel + 1, c, acc =>
    match value close fuel c with
    | .error e => .error e
    | .ok (v, c) =>
      let c := c.skip
      match c.rest with
      | ']' :: _ => .ok (.list (v :: acc).reverse, c.drop 1)
      | ',' :: _ => items close fuel (c.drop 1).skip (v :: acc)
      | _ => .error (.malformed .noComma c.pos)

def members (close : Close) : (fuel : Nat) → Cursor → List (String × Value) → Except Stop (Value × Cursor)
  | 0, c, _ => .error (.malformed .noName c.pos)
  | fuel + 1, c, acc =>
    match c.rest with
    | '"' :: _ =>
      match string (c.drop 1) with
      | .error e => .error e
      | .ok (k, c) =>
        let c := c.skip
        match c.rest with
        | ':' :: _ =>
          match value close fuel (c.drop 1).skip with
          | .error e => .error e
          | .ok (v, c) =>
            let c := c.skip
            match c.rest with
            | '\x7d' :: _ => closed close ((k, v) :: acc).reverse (c.drop 1)
            | ',' :: _ => members close fuel (c.drop 1).skip ((k, v) :: acc)
            | _ => .error (.malformed .noComma c.pos)
        | _ => .error (.malformed .noColon c.pos)
    | _ => .error (.malformed .noName c.pos)

end

def lastWins : Close := fun fields => .ok (.map (Fields.ofPairs fields))

def readWith (close : Close) (text : Chars) : Except Stop Value :=
  if text.head? = some (Char.ofNat 0xfeff) then .error (.malformed .byteOrderMark 0)
  else
    match value close (2 * text.length + 2) (Cursor.skip ⟨text, 0⟩) with
    | .error e => .error e
    | .ok (v, c) =>
      let c := c.skip
      if c.rest.isEmpty then .ok v else .error (.malformed .extraData c.pos)

def read (text : String) : Result Value :=
  match readWith lastWins text.toList with
  | .ok v => .ok v
  | .error e => .error (e.fault text.toList)

/-- A text is read by its characters. Those of a literal need not be decoded. -/
theorem read_of_chars {text : String} {s : Chars} {v : Value} (htext : text = String.ofList s)
    (h : readWith lastWins s = .ok v) : read text = .ok v := by
  rw [read, htext, String.toList_ofList, h]

/-! ## Writing -/

structure Layout where
  ascii : Bool := true
  /-- the step of indentation, if each element has a line of its own -/
  indent? : Option Nat := none
  /-- names are written in ascending order -/
  sorted : Bool := false
  comma : String := ", "
  colon : String := ": "

def unitText (n : Nat) : Chars := '\\' :: 'u' :: hexDigits 4 n

def charText (ascii : Bool) (c : Char) : Chars :=
  if c = '"' then ['\\', '"']
  else if c = '\\' then ['\\', '\\']
  else if c = '\n' then ['\\', 'n']
  else if c = '\r' then ['\\', 'r']
  else if c = '\t' then ['\\', 't']
  else if c = '\x08' then ['\\', 'b']
  else if c = '\x0c' then ['\\', 'f']
  else
    let n := c.toNat
    if n < 32 then unitText n
    else if n < 127 ∨ !ascii then [c]
    else if n < 0x10000 then unitText n
    else unitText (0xd800 + (n - 0x10000) / 0x400) ++ unitText (0xdc00 + (n - 0x10000) % 0x400)

def stringText (ascii : Bool) (s : String) : String := ofList ('"' :: s.toList.flatMap (charText ascii) ++ ['"'])

def floatJson (x : Float) : String :=
  match Parts.ofFloat x with
  | .nan => "NaN"
  | .infinite negative => if negative then "-Infinity" else "Infinity"
  | _ => floatText x

def newline (step level : Nat) : String := "\n" ++ ofList (List.replicate (step * level) ' ')

def bracket (lay : Layout) (level : Nat) (open_ close : String) (parts : List String) : String :=
  if parts.isEmpty then open_ ++ close
  else
    match lay.indent? with
    | none => open_ ++ intercalate lay.comma parts ++ close
    | some step =>
      open_ ++ newline step (level + 1) ++ intercalate s!",{newline step (level + 1)}" parts ++ newline step level ++ close

def sortFields (fields : Pairs) : Pairs := fields.mergeSort fun a b => decide (a.1 ≤ b.1)

mutual

/-- The JSON text of a value at a level of nesting. Dates and octets appear as texts. -/
def renderAt (lay : Layout) (level : Nat) : Value → String
  | .null => "null"
  | .bool b => if b then "true" else "false"
  | .int n => intText n
  | .float x => floatJson x
  | .str s => stringText lay.ascii s
  | .list items => bracket lay level "[" "]" (renderItems lay (level + 1) items)
  | .map fields =>
    let parts := renderFields lay (level + 1) fields
    let parts := if lay.sorted then sortFields parts else parts
    bracket lay level "\x7b" "\x7d"
      (parts.map fun p => stringText lay.ascii p.1 ++ lay.colon ++ p.2)
  | v => stringText lay.ascii v.text

def renderItems (lay : Layout) (level : Nat) : List Value → List String
  | [] => []
  | v :: vs => renderAt lay level v :: renderItems lay level vs

def renderFields (lay : Layout) (level : Nat) : List (String × Value) → Pairs
  | [] => []
  | (k, v) :: rest => (k, renderAt lay level v) :: renderFields lay level rest

end

/-- The JSON text of a value, anything that JSON does not have as text. -/
def render (lay : Layout) (v : Value) : String := renderAt lay 0 v

mutual

def unwritable? : Value → Option Value
  | .list items => unwritableItem? items
  | .map fields => unwritableField? fields
  | .date d => some (.date d)
  | .datetime t => some (.datetime t)
  | .time t => some (.time t)
  | .duration d => some (.duration d)
  | .bytes b => some (.bytes b)
  | _ => none

def unwritableItem? : List Value → Option Value
  | [] => none
  | v :: vs => (unwritable? v).or (unwritableItem? vs)

def unwritableField? : List (String × Value) → Option Value
  | [] => none
  | (_, v) :: rest => (unwritable? v).or (unwritableField? rest)

end

def write (lay : Layout) (v : Value) : Result String :=
  match unwritable? v with
  | some part => .error ⟨.type, "Object of type " ++ part.kindName ++ " is not JSON serializable"⟩
  | none => .ok (render lay v)

def line (v : Value) : Result String := write {} v

variable (text : String)

def fullLines : List String := ((S.lines text).map S.strip).filter (· != "")

def wholeLines : String := ofList (text.toList.reverse.dropWhile (· != '\n')).reverse

/-- The values on the lines of a text. When it breaks off with a fault, the lines before the break are read first. -/
def readLines (fault? : Option Fault) : Result (List Value) :=
  match fault? with
  | none => (fullLines text).mapM read
  | some f => do
    let _ ← (fullLines (wholeLines text)).mapM read
    .error f

def keptLines : List String :=
  let pieces := splitAtChar '\n' text.toList
  (pieces.dropLast.map fun p => ofList (p ++ ['\n'])) ++ (match pieces.getLast? with
      | some (c :: cs) => [ofList (c :: cs)]
      | _ => [])

def readEveryLine (fault? : Option Fault) : Result (List Value) :=
  match fault? with
  | none => (keptLines text).mapM read
  | some f => do
    let _ ← (keptLines (wholeLines text)).mapM read
    .error f

end Sluice.Json
