import Sluice.Value.Basic
import Sluice.Yaml.Scalar

/-!
# Writing YAML text

Block style, fields sorted by name. Scalars are plain where that reads back as the same value, else quoted. The `Pen` is
what was written so far.
-/

namespace Sluice.Yaml

open Text

structure Pen where
  out : Chars := []
  /-- how many characters the last line has -/
  column : Nat := 0
  /-- whether no blank is needed before the next mark -/
  spaced : Bool := true
  indented : Bool := true

namespace Pen

variable (p : Pen)

def put (c : Char) : Pen := { p with out := c :: p.out, column := p.column + 1 }

def puts (s : Chars) : Pen := s.foldl put p

def endLine (c : Char) : Pen := { p with out := c :: p.out, column := 0 }

/-- Goes to an indentation, on a new line unless the last one has room. -/
def indent (n : Nat) : Pen :=
  let p := if !p.indented || n < p.column || (p.column == n && !p.spaced) then p.endLine '\n' else p
  { p.puts (List.replicate (n - p.column) ' ') with spaced := true, indented := true }

def mark (text : Chars) (needsSpace isSpace isIndent : Bool) : Pen :=
  let p := if needsSpace && !p.spaced then p.put ' ' else p
  { p.puts text with spaced := isSpace, indented := p.indented && isIndent }

end Pen

def isWritable (c : Char) : Bool :=
  let n := c.toNat
  n == 10 || (0x20 ≤ n && n ≤ 0x7e) || (0xa0 ≤ n && n ≤ 0xd7ff) || (0xe000 ≤ n && n ≤ 0xfffd && n != 0xfeff)

/-- Whether a mark at this place would make plain text something else: at the `first` place, or `afterGap`. -/
def isMarked (first afterGap : Bool) (c : Char) (rest : Chars) : Bool :=
  if first then
    "#,[]\x7b\x7d&*!|>\x27\"%@\x60".toList.contains c || ((c == '?' || c == ':' || c == '-') && atGap rest)
  else (c == ':' && atGap rest) || (c == '#' && afterGap)

/-- Whether a plain text would be read as something else because of a mark in it. -/
def hasMark : (first afterGap : Bool) → Chars → Bool
  | _, _, [] => false
  | first, afterGap, c :: rest => isMarked first afterGap c rest || hasMark false (isBlankChar c || isBreak c) rest

def hasPair (f g : Char → Bool) : Chars → Bool
  | a :: b :: rest => (f a && g b) || hasPair f g (b :: rest)
  | _ => false

inductive Form
  | plain | single | double

/-- **The form of a text.** `reads` says whether the plain form reads back as the kind that is written, `inKey` whether the
text is a key on one line. -/
def formOf (s : Chars) (reads inKey : Bool) : Form :=
  let broken := s.any isBreak
  let blank (c : Char) : Bool := c == ' '
  let edge := fun (c? : Option Char) => c?.any fun c => blank c || isBreak c
  let hard := s.any (!isWritable ·) || hasPair blank isBreak s
  if inKey && broken then .double
  else
    let dashes := startsWith "---".toList s || startsWith "...".toList s
    let plain := !(edge s.head? || edge s.getLast? || broken || hard || hasPair isBreak blank s ||
      dashes || hasMark true true s) && !(s.isEmpty && inKey) && reads
    if plain then .plain
    else if hard || hasPair isBreak blank s then .double
    else .single

/-! ## Scalars -/

def width : Nat := 80

def breaksAt (p : Pen) (folds afterBlank : Bool) : Bool := folds && !afterBlank && width < p.column

variable (folds : Bool)

def writePlain (at_ : Nat) : (afterBlank : Bool) → Pen → Chars → Pen
  | _, p, [] => { p with spaced := false, indented := false }
  | afterBlank, p, c :: rest =>
    if c == ' ' then
      if breaksAt p folds afterBlank && rest.head? != some ' ' then writePlain at_ true (p.indent at_) rest
      else writePlain at_ true (p.put c) rest
    else writePlain at_ false { p.put c with indented := false } rest

/-- Text between single quotes, in which a quote is written twice and a line end as two. -/
def writeSingle (at_ : Nat) : (first afterBlank afterBreak : Bool) → Pen → Chars → Pen
  | _, _, afterBreak, p, [] => if afterBreak then p.indent at_ else p
  | first, afterBlank, afterBreak, p, c :: rest =>
    if c == ' ' then
      if breaksAt p folds afterBlank && !first && !rest.isEmpty && rest.head? != some ' ' then
        writeSingle at_ false true afterBreak (p.indent at_) rest
      else writeSingle at_ false true afterBreak (p.put c) rest
    else if isBreak c then
      let p := if !afterBreak && c == '\n' then p.endLine '\n' else p
      writeSingle at_ false afterBlank true { p.endLine c with indented := true } rest
    else
      let p := if afterBreak then p.indent at_ else p
      let p := if c == '\x27' then p.put c else p
      writeSingle at_ false false false { p.put c with indented := false } rest

def capitalHex (digits n : Nat) : Chars := (hexDigits digits n).map Char.toUpper

def escapeOf (c : Char) : Chars :=
  match c.toNat with
  | 0x00 => ['0']
  | 0x07 => ['a']
  | 0x08 => ['b']
  | 0x09 => ['t']
  | 0x0a => ['n']
  | 0x0b => ['v']
  | 0x0c => ['f']
  | 0x0d => ['r']
  | 0x1b => ['e']
  | 0x22 => ['"']
  | 0x5c => ['\\']
  | 0x85 => ['N']
  | 0xa0 => ['_']
  | 0x2028 => ['L']
  | 0x2029 => ['P']
  | n =>
    if n ≤ 0xff then 'x' :: capitalHex 2 n
    else if n ≤ 0xffff then 'u' :: capitalHex 4 n
    else 'U' :: capitalHex 8 n

def writeDouble (at_ : Nat) : (first afterBlank : Bool) → Pen → List Char → Pen
  | _, _, p, [] => p
  | first, afterBlank, p, c :: rest =>
    if !isWritable c || isBreak c || c == '"' || c == '\\' then
      writeDouble at_ false false (p.puts ('\\' :: escapeOf c)) rest
    else if c == ' ' then
      if breaksAt p folds afterBlank && !first && !rest.isEmpty then
        let p := p.indent at_
        let p := if rest.head? == some ' ' then p.put '\\' else p
        writeDouble at_ false true p rest
      else writeDouble at_ false true (p.put c) rest
    else writeDouble at_ false false (p.put c) rest

def writeScalar (p : Pen) (at_ : Nat) (s : Chars) (reads inKey : Bool) : Pen :=
  match formOf s reads inKey with
  | .plain =>
    let p := if !p.spaced && !s.isEmpty then p.put ' ' else p
    writePlain (!inKey) at_ false p s
  | .single =>
    let p := p.mark ['\x27'] true false false
    (writeSingle (!inKey) at_ true false false p s).mark ['\x27'] false false false
  | .double =>
    let p := p.mark ['"'] true false false
    (writeDouble (!inKey) at_ true false p s).mark ['"'] false false false

def floatScalar (x : Float) : String :=
  if x.isNaN then ".nan"
  else if x.isInf then (if x < 0.0 then "-.inf" else ".inf")
  else
    let s := Number.floatText x
    if s.toList.contains 'e' && !s.toList.contains '.' then S.replaceAll "e" ".0e" s else s

def scalarOf : Value → String
  | .null => "null"
  | .bool true => "true"
  | .bool false => "false"
  | .int n => Number.intText n
  | .float x => floatScalar x
  | .str s => s
  | _ => ""

def readsBack : Value → Bool
  | .str s => Kind.ofPlain s.toList == Kind.str
  | _ => true

/-! ## Collections -/

/-- Whether a key stands on the line of its colon: it has one line and at most 128 octets. -/
def isShortKey (k : String) : Bool := !k.toList.any isBreak && k.utf8ByteSize ≤ 128

def writeKey (p : Pen) (at_ : Nat) (k : String) : Pen :=
  let reads := readsBack k
  let p := p.indent at_
  if isShortKey k then (writeScalar p (at_ + 2) k.toList reads true).mark [':'] false false false
  else
    let p := writeScalar (p.mark ['?'] true false true) (at_ + 2) k.toList reads false
    (p.indent at_).mark [':'] true false true

def sortedFields (fields : Fields) : Fields := fields.mergeSort fun a b => a.1 ≤ b.1

mutual

def writeValue (p : Pen) (at_ : Nat) (inField : Bool) : Value → Pen
  | .list [] => (p.mark ['['] true true false).mark [']'] false false false
  | .map [] => (p.mark ['\x7b'] true true false).mark ['\x7d'] false false false
  | .list (v :: vs) => writeItems p (if inField && !p.indented then at_ else at_ + 2) (v :: vs)
  | .map (f :: fs) => writeFields p (at_ + 2) (f :: fs)
  | v => writeScalar p (at_ + 2) (scalarOf v).toList (readsBack v) false

def writeItems (p : Pen) (at_ : Nat) : List Value → Pen
  | [] => p
  | v :: vs => writeItems (writeValue ((p.indent at_).mark ['-'] true false true) at_ false v) at_ vs

def writeFields (p : Pen) (at_ : Nat) : List (String × Value) → Pen
  | [] => p
  | (k, v) :: rest => writeFields (writeValue (writeKey p at_ k) at_ true v) at_ rest

end

mutual

def sorted : Value → Value
  | .list items => .list (sortedItems items)
  | .map fields => .map (sortedFields (sortedEach fields))
  | v => v

def sortedItems : List Value → List Value
  | [] => []
  | v :: vs => sorted v :: sortedItems vs

def sortedEach : List (String × Value) → List (String × Value)
  | [] => []
  | (k, v) :: rest => (k, sorted v) :: sortedEach rest

end

/-- **Writes a record** as YAML text without a final line end. -/
def render (fields : Fields) : String :=
  match sorted (.map fields) with
  | .map [] => "\x7b\x7d"
  | .map fs => String.ofList (writeFields {} 0 fs).out.reverse
  | _ => ""

end Sluice.Yaml
