import Sluice.Fault
import Sluice.Number.Decimal
import Sluice.Text.Letter

/-!
# Reading numbers

Blanks around, a sign, digits of any script, and single underscores between digits.
-/

namespace Sluice.Number

open Text

variable (s : Chars)

def plainDigits : Chars :=
  s.map fun c => match digitValue? c with
    | some d => Char.ofNat (48 + d)
    | none => c

def dropUnderscores : (afterDigit : Bool) → Chars → Option Chars
  | _, [] => some []
  | afterDigit, '_' :: rest =>
    match rest with
    | d :: _ => if afterDigit && isAsciiDigit d then dropUnderscores false rest else none
    | [] => none
  | _, c :: rest => (dropUnderscores (isAsciiDigit c) rest).map (c :: ·)

def takeSign : Chars → Bool × Chars
  | '-' :: rest => (true, rest)
  | '+' :: rest => (false, rest)
  | s => (false, s)

def mostDigits : Nat := 4300

def tooManyDigits (count : Nat) : Fault :=
  .badValue (s!"Exceeds the limit ({mostDigits} digits) for integer string conversion: value has {count} " ++
    "digits; use sys.set_int_max_str_digits() to increase the limit")

def longNumber : Fault :=
  .badValue (s!"Exceeds the limit ({mostDigits} digits) for integer string conversion; " ++
    "use sys.set_int_max_str_digits() to increase the limit")

/-- The text of a whole number, unless its digits are too many. -/
def wholeText (n : Int) : Result String := if mostDigits < (natText n.natAbs).length then .error longNumber else .ok (intText n)

/-- A double without its places. -/
def cutOff (x : Float) : Result Int :=
  match truncate? x with
  | some n => .ok n
  | none =>
    if x.isNaN then .error (.badValue "cannot convert float NaN to integer")
    else .error ⟨.overflow, "cannot convert float infinity to integer"⟩

def wholeDigits? : Option (Bool × Chars) :=
  match dropUnderscores false (plainDigits (strip s)) with
  | none => none
  | some t =>
    let (negative, ds) := takeSign t
    if ds.isEmpty || !ds.all isAsciiDigit then none else some (negative, ds)

def readInt? : Option Int :=
  match wholeDigits? s with
  | none => none
  | some (negative, ds) =>
    if mostDigits < ds.length then none
    else some (if negative then -(digitsValue ds : Int) else digitsValue ds)

def readExponent? : Chars → Option Int
  | [] => some 0
  | c :: rest =>
    if c = 'e' ∨ c = 'E' then
      let (negative, ds) := takeSign rest
      if ds.isEmpty || !ds.all isAsciiDigit then none
      else some (if negative then -(digitsValue ds : Int) else digitsValue ds)
    else none

def readDecimal? (negative : Bool) (s : Chars) : Option Float :=
  let whole := s.takeWhile isAsciiDigit
  let rest := s.dropWhile isAsciiDigit
  let (part, rest) := match rest with
    | '.' :: r => (r.takeWhile isAsciiDigit, r.dropWhile isAsciiDigit)
    | r => ([], r)
  if whole.isEmpty && part.isEmpty then none
  else (readExponent? rest).map fun e => ofDecimal negative (digitsValue (whole ++ part)) (e - part.length)

def nan : Float := Float.ofBits 0x7ff8000000000000

def infinity (negative : Bool) : Float := ofSignedBits negative (2047 * twoTo 52)

def readFloat? : Option Float :=
  match dropUnderscores false (plainDigits (strip s)) with
  | none => none
  | some t =>
    let (negative, body) := takeSign t
    let word := String.ofList (body.map Char.toLower)
    if word = "nan" then some nan
    else if word = "inf" ∨ word = "infinity" then some (infinity negative)
    else readDecimal? negative body

def parseInt (s : String) : Result Int :=
  match readInt? s.toList with
  | some n => .ok n
  | none =>
    match wholeDigits? s.toList with
    | some (_, ds) => .error (tooManyDigits ds.length)
    | none => .error (.badValue ("invalid literal for int() with base 10: " ++ S.quoted s))

def parseFloat (s : String) : Result Float :=
  match readFloat? s.toList with
  | some x => .ok x
  | none => .error (.badValue s!"could not convert string to float: {S.quoted s}")

end Sluice.Number

/-!
## Quantities

A whole number or a double. Arithmetic stays whole as long as all its parts are. Comparison is exact.
-/

namespace Sluice

open Number

inductive Quantity
  | whole (n : Int)
  | real (x : Float)

namespace Quantity

instance (n : Nat) : OfNat Quantity n := ⟨whole n⟩

instance : OfScientific Quantity := ⟨fun m s e => real (OfScientific.ofScientific m s e)⟩

def toFloat : Quantity → Float
  | whole n => ofInt n
  | real x => x

def combine (f : Int → Int → Int) (g : Float → Float → Float) : Quantity → Quantity → Quantity
  | whole a, whole b => whole (f a b)
  | a, b => real (g a.toFloat b.toFloat)

instance : Add Quantity := ⟨combine (· + ·) (· + ·)⟩

instance : Sub Quantity := ⟨combine (· - ·) (· - ·)⟩

instance : Mul Quantity := ⟨combine (· * ·) (· * ·)⟩

instance : Neg Quantity where
  neg
    | whole n => whole (-n)
    | real x => real (-x)

def power (a : Quantity) (k : Nat) : Quantity :=
  match a with
  | whole n => whole (Int.pow n k)
  | real x => real (x.pow (ofInt k))

def lt : Quantity → Quantity → Bool
  | whole a, whole b => a < b
  | real x, real y => x < y
  | whole n, real x =>
    match ratio? x with
    | some (p, q) => n * q < p
    | none => 0 < x
  | real x, whole n =>
    match ratio? x with
    | some (p, q) => p < n * q
    | none => x < 0

def same : Quantity → Quantity → Bool
  | whole a, whole b => a == b
  | real x, real y => x == y
  | whole n, real x | real x, whole n => whole? x == some n

def le (a b : Quantity) : Bool := a.lt b || a.same b

def quotient : Quantity → Quantity → Result Quantity
  | whole a, whole b =>
    if b = 0 then .error ⟨.division, "division by zero"⟩
    else .ok (real (ofRatio ((a < 0) != (b < 0)) a.natAbs b.natAbs))
  | a, b =>
    if b.toFloat == 0.0 then .error ⟨.division, "float division by zero"⟩
    else .ok (real (a.toFloat / b.toFloat))

def truncate : Quantity → Result Int
  | whole n => .ok n
  | real x => cutOff x

def roundTo (places : Nat) : Quantity → Quantity
  | whole n => whole n
  | real x => real (roundPlaces places x)

end Quantity

end Sluice
