import Sluice.Text.Basic

/-!
# Decimal texts of numbers

`shortest` takes the fewest digits that read back as the same double, `significant` and `fixed` a given number of
digits.
-/

namespace Sluice.Number

/-!
## Binary floating-point numbers as exact ratios

A finite double is `± m · 2^q` with `m < 2^53`, so every step is a computation on natural numbers. `ofRatio` gives the
double nearest to a ratio, a half going to the even neighbour.
-/

def twoTo (k : Nat) : Nat := Nat.pow 2 k

def tenTo (k : Nat) : Nat := Nat.pow 10 k

def total (ns : List Nat) : Nat := ns.foldr (· + ·) 0

/-- A double, taken apart. -/
inductive Parts
  | finite (negative : Bool) (m : Nat) (q : Int)
  | infinite (negative : Bool)
  | nan

variable (x : Float) (num den n : Nat) (negative : Bool) (d : Digits)

/-- Takes a double apart into sign, whole significand and power of two. -/
def Parts.ofFloat : Parts :=
  let bits := x.toBits.toNat
  let negative := bits / twoTo 63 == 1
  let field : Nat := bits / twoTo 52 % 2048
  let fraction : Nat := bits % twoTo 52
  if field = 2047 then (if fraction = 0 then .infinite negative else .nan)
  else if field = 0 then .finite negative fraction (-1074)
  else .finite negative (fraction + twoTo 52) ((field : Int) - 1075)

/-- The quotient `num / den` to the nearest whole number, a half to the even neighbour. -/
def roundDiv : Nat :=
  let q := num / den
  let r := 2 * (num % den)
  if r < den then q else if den < r then q + 1 else if q % 2 = 0 then q else q + 1

def bitLength : Nat := if n = 0 then 0 else n.log2 + 1

/-- The bits of the double nearest to the positive ratio `num / den`, without its sign, or those of infinity. -/
def bitsOfRatio : Nat :=
  if num = 0 then 0
  else
    -- `num / den < 2 ^ top`, and at least `2 ^ (top - 2)`
    let top : Int := (bitLength num : Int) - bitLength den + 1
    let round (q : Int) : Nat := if q < 0 then roundDiv (num * twoTo q.natAbs) den else roundDiv num (den * twoTo q.natAbs)
    -- 53 significant binary digits, fewer next to zero
    let q₀ : Int := max (top - 53) (-1074)
    let m₀ := round q₀
    let (m, q) := if m₀ < twoTo 52 ∧ -1074 < q₀ then (round (max (q₀ - 1) (-1074)), max (q₀ - 1) (-1074))
      else (m₀, q₀)
    let (m, q) := if m = twoTo 53 then (twoTo 52, q + 1) else (m, q)
    if m < twoTo 52 then m
    else
      let field := q + 1075
      if 2047 ≤ field then 2047 * twoTo 52 else field.natAbs * twoTo 52 + (m - twoTo 52)

def ofSignedBits (bits : Nat) : Float := Float.ofBits (UInt64.ofNat (if negative then bits + twoTo 63 else bits))

def ofRatio (num den : Nat) : Float := ofSignedBits negative (bitsOfRatio num den)

/-- The double nearest to `± m · 10^e`. Exponents far out of range are cut short. -/
def ofDecimal (m : Nat) (e : Int) : Float :=
  if m = 0 then ofSignedBits negative 0
  else
    let digits : Int := (bitLength m : Int) / 3 + 1
    if e < 0 then
      if e + digits < -400 then ofSignedBits negative 0 else ofRatio negative m (tenTo e.natAbs)
    else if 400 < e then ofSignedBits negative (2047 * twoTo 52)
    else ofRatio negative (m * tenTo e.natAbs) 1

def ofInt (n : Int) : Float := ofRatio (n < 0) n.natAbs 1

def overflows (n : Int) : Bool := 2047 * twoTo 52 ≤ bitsOfRatio n.natAbs 1

def ratio (m : Nat) (q : Int) : Nat × Nat := if q < 0 then (m, twoTo q.natAbs) else (m * twoTo q.natAbs, 1)

open Parts

/-- A finite double cut to a whole number, towards zero. -/
def truncate? : Option Int :=
  match ofFloat x with
  | .finite negative m q =>
    let n : Int := (ratio m q).1 / (ratio m q).2
    some (if negative then -n else n)
  | _ => none

def ratio? : Option (Int × Nat) :=
  match ofFloat x with
  | .finite negative m q =>
    let (num, den) := ratio m q
    some (if negative then -(num : Int) else num, den)
  | _ => none

def whole? : Option Int :=
  match ratio? x with
  | some (n, d) => if n % d = 0 then some (n / d) else none
  | none => none

def nearest? : Option Int :=
  match ratio? x with
  | some (n, d) =>
    let r : Int := roundDiv n.natAbs d
    some (if n < 0 then -r else r)
  | none => none

def floor? : Option Int := (ratio? x).map fun p => Int.fdiv p.1 p.2

/-! ## Decimal texts of numbers -/

/-- A positive decimal `0.d₁d₂… · 10^point`; trailing zeros only for a fixed number of digits. -/
structure Digits where
  digits : List Nat
  point : Int

def natDigits : List Nat := if n = 0 then [] else (Nat.toDigits 10 n).map (·.toNat - 48)

def natText : Chars := Nat.toDigits 10 n

def intText (n : Int) : String := if n < 0 then "-" ++ String.ofList (natText n.natAbs) else String.ofList (natText n.natAbs)

def dropZeros (ds : List Nat) : List Nat := (ds.reverse.dropWhile (· == 0)).reverse

def ratioLtPow (k : Int) : Bool := if k < 0 then num * tenTo k.natAbs < den else num < den * tenTo k.natAbs

/-- The number `k` with `10^(k-1) ≤ num / den < 10^k`, from an estimate that is at most a few steps too small. -/
def decimalExponent : Int :=
  let bits : Int := (bitLength num : Int) - bitLength den - 1
  let low : Int := Int.fdiv (bits * 30103) 100000 - 1
  let rec up : Nat → Int → Int
    | 0, k => k
    | fuel + 1, k => if ratioLtPow num den k then k else up fuel (k + 1)
  up 6 low

def inUnits (unit : Int) : Nat × Nat := if unit < 0 then (num * tenTo unit.natAbs, den) else (num, den * tenTo unit.natAbs)

def Digits.ofUnits (unit : Int) : Digits :=
  let ds := natDigits n
  ⟨dropZeros ds, ds.length + unit⟩

/-- **The fewest digits that read back.** The reals that round to `m · 2^q` fill an interval, with its ends if `m` is
even. Of `n`-digit decimals only two neighbours can lie in it; the first `n` with a hit wins, and of two hits the
nearer. -/
def shortestDigits (m : Nat) (q : Int) : Digits :=
  -- everything in quarters of `2^q`: the value is `4m`, its interval `4m - lower … 4m + 2`
  let lower := if m = twoTo 52 ∧ -1074 < q then 1 else 2
  let scale (k : Nat) : Nat × Nat := if q < 0 then (k, 4 * twoTo q.natAbs) else (k * twoTo q.natAbs, 4)
  let (num, den) := scale (4 * m)
  let lo := (scale (4 * m - lower)).1
  let hi := (scale (4 * m + 2)).1
  let closed := m % 2 = 0
  let k := decimalExponent num den
  let rec search : (left n : Nat) → Digits
    | 0, n => .ofUnits (roundDiv (inUnits num den (k - n)).1 (inUnits num den (k - n)).2) (k - n)
    | left + 1, n =>
      let unit := k - (n : Int)
      let (a, b) := inUnits num den unit
      let l := (inUnits lo den unit).1
      let h := (inUnits hi den unit).1
      let d := a / b
      let inside (x : Nat) : Bool := if closed then l ≤ x * b && x * b ≤ h else l < x * b && x * b < h
      match inside d, inside (d + 1) with
      | true, true => .ofUnits (roundDiv a b) unit
      | true, false => .ofUnits d unit
      | false, true => .ofUnits (d + 1) unit
      | false, false => search left (n + 1)
  search 17 1

def significantDigits (n num den : Nat) : Digits :=
  if num = 0 then ⟨List.replicate n 0, 1⟩
  else
    let k := decimalExponent num den
    let (a, b) := inUnits num den (k - n)
    let r := roundDiv a b
    let ds := natDigits r
    -- rounding up may carry into a new digit
    if ds.length = n + 1 then ⟨ds.take n, k + 1⟩ else ⟨ds, k⟩

/-! ## Layout -/

def digitChar (d : Nat) : Char := Char.ofNat (48 + d)

def digitChars (ds : List Nat) : Chars := ds.map digitChar

def wholePart : Chars :=
  if d.point ≤ 0 then ['0']
  else
    let p := d.point.natAbs
    digitChars (d.digits.take p) ++ List.replicate (p - d.digits.length) '0'

def places : Chars :=
  if d.point ≤ 0 then List.replicate d.point.natAbs '0' ++ digitChars d.digits
  else digitChars (d.digits.drop d.point.natAbs)

def exponentText (e : Int) : Chars :=
  let n := natText e.natAbs
  (if e < 0 then '-' else '+') :: (if n.length < 2 then '0' :: n else n)

def scientific : Chars :=
  let mantissa := match d.digits with
    | [] => ['0']
    | [x] => [digitChar x]
    | x :: xs => digitChar x :: '.' :: digitChars xs
  mantissa ++ 'e' :: exponentText (d.point - 1)

/-- Digits written positionally while the decimal exponent is at least -4 and below a limit. -/
def written (limit : Int) (noPlaces : Chars) (d : Digits) : Chars :=
  let e := d.point - 1
  if e < -4 ∨ limit ≤ e then scientific d
  else wholePart d ++ (if (places d).isEmpty then noPlaces else '.' :: places d)

/-- The text of a double, if the magnitude `m * 2^q` is written by a function. -/
def Parts.text (magnitude : Nat → Int → Chars) : Parts → String
  | .nan => "nan"
  | .infinite negative => if negative then "-inf" else "inf"
  | .finite negative m q => String.ofList ((if negative then ['-'] else []) ++ magnitude m q)

/-- **The text of a double in records**: the fewest digits that read back, positional while the exponent is at least -4
and below 16. -/
def floatText : String :=
  (ofFloat x).text fun m q => if m = 0 then ['0', '.', '0'] else written 16 ['.', '0'] (shortestDigits m q)

/-- The whole number nearest to a positive ratio in units of `10^-n`, written with `n` places. -/
def fixedRatio (n num den : Nat) : Chars :=
  let r := roundDiv (num * tenTo n) den
  let s := natText r
  let s := List.replicate (n + 1 - s.length) '0' ++ s
  if n = 0 then s else s.take (s.length - n) ++ '.' :: s.drop (s.length - n)

/-- A double with `n` places after the point, rounded from its exact value, a half to the even neighbour. -/
def fixed (x : Float) : String := (ofFloat x).text fun m q => fixedRatio n (ratio m q).1 (ratio m q).2

/-- A double with at most `n` significant digits and no trailing zeros: positional while the exponent is at least -4 and
below `n`. -/
def general (x : Float) : String :=
  (ofFloat x).text fun m q =>
    if m = 0 then ['0']
    else
      let d := significantDigits n (ratio m q).1 (ratio m q).2
      written n [] ⟨dropZeros d.digits, d.point⟩

/-- A double rounded to `n` places after the point: the double nearest to its `fixed` text. -/
def roundPlaces (x : Float) : Float :=
  match ofFloat x with
  | .finite negative m q => ofRatio negative (roundDiv ((ratio m q).1 * tenTo n) (ratio m q).2) (tenTo n)
  | _ => x

end Sluice.Number
