import Sluice.Fault
import Sluice.Number.Decimal
import Sluice.Text.Letter

/-!
# Dates, times of day and durations

Days of the Gregorian calendar are counted from the first of January of year 1, times and durations in microseconds.
-/

namespace Sluice

open Text Number

structure Date where
  year : Nat
  month : Nat
  day : Nat
deriving DecidableEq

structure TimeOfDay where
  hour : Nat := 0
  minute : Nat := 0
  second : Nat := 0
  micro : Nat := 0
deriving DecidableEq

structure DateTime where
  date : Date
  time : TimeOfDay := {}
  /-- seconds east of UTC, if the zone is known -/
  offset? : Option Int := none
deriving DecidableEq

/-- A length of time, maybe negative. -/
structure Duration where
  micros : Int
deriving DecidableEq

def zeroPadded (width n : Nat) : String :=
  let s := natText n
  String.ofList (List.replicate (width - s.length) '0' ++ s)

namespace Date

def isLeap (y : Nat) : Bool := y % 4 == 0 && (y % 100 != 0 || y % 400 == 0)

def daysInMonth (y m : Nat) : Nat :=
  if m = 2 then (if isLeap y then 29 else 28)
  else if m = 4 ∨ m = 6 ∨ m = 9 ∨ m = 11 then 30 else 31

def mk? (y m d : Nat) : Option Date :=
  if 1 ≤ y ∧ y ≤ 9999 ∧ 1 ≤ m ∧ m ≤ 12 ∧ 1 ≤ d ∧ d ≤ daysInMonth y m then some ⟨y, m, d⟩ else none

def daysBeforeYear (y : Nat) : Nat := (y - 1) * 365 + (y - 1) / 4 - (y - 1) / 100 + (y - 1) / 400

def daysBeforeMonth (y m : Nat) : Nat := total ((List.range (m - 1)).map fun i => daysInMonth y (i + 1))

def ordinal (d : Date) : Nat := daysBeforeYear d.year + daysBeforeMonth d.year d.month + d.day

def monthOf (y : Nat) : (fuel m rest : Nat) → Nat × Nat
  | 0, m, rest => (m, rest)
  | fuel + 1, m, rest =>
    let n := daysInMonth y m
    if rest < n then (m, rest) else monthOf y fuel (m + 1) (rest - n)

def ofOrdinal (n : Nat) : Date :=
  let n := n - 1
  let n400 := n / 146097
  let r := n % 146097
  let n100 := r / 36524
  let r := r % 36524
  let n4 := r / 1461
  let r := r % 1461
  let n1 := r / 365
  let r := r % 365
  let y := n400 * 400 + n100 * 100 + n4 * 4 + n1 + 1
  if n1 = 4 ∨ n100 = 4 then ⟨y - 1, 12, 31⟩
  else
    let (m, d) := monthOf y 11 1 r
    ⟨y, m, d + 1⟩

def iso (d : Date) : String := s!"{zeroPadded 4 d.year}-{zeroPadded 2 d.month}-{zeroPadded 2 d.day}"

end Date

namespace TimeOfDay

def iso (t : TimeOfDay) : String :=
  s!"{zeroPadded 2 t.hour}:{zeroPadded 2 t.minute}:{zeroPadded 2 t.second}" ++
    (if t.micro = 0 then "" else "." ++ zeroPadded 6 t.micro)

def ofMicros (n : Nat) : TimeOfDay :=
  let s := n / 1000000
  ⟨s / 3600, s / 60 % 60, s % 60, n % 1000000⟩

def toMicros (t : TimeOfDay) : Nat := ((t.hour * 60 + t.minute) * 60 + t.second) * 1000000 + t.micro

end TimeOfDay

namespace DateTime

def offsetText (o : Int) : String :=
  let n := o.natAbs
  (if o < 0 then "-" else "+") ++ s!"{zeroPadded 2 (n / 3600)}:{zeroPadded 2 (n / 60 % 60)}" ++
    (if n % 60 = 0 then "" else ":" ++ zeroPadded 2 (n % 60))

def isoWith (sep : String) (t : DateTime) : String :=
  t.date.iso ++ sep ++ t.time.iso ++ (match t.offset? with
    | some o => offsetText o
    | none => "")

def iso (t : DateTime) : String := t.isoWith "T"

end DateTime

namespace Duration

def microsPerDay : Int := 86400000000

variable (d : Duration)

def days : Int := Int.fdiv d.micros microsPerDay

def seconds : Nat := (Int.fmod d.micros microsPerDay).toNat / 1000000

def micro : Nat := (Int.fmod d.micros 1000000).toNat

/-- The duration of a number of microseconds; its days have nine digits at most. -/
def ofMicros? (n : Int) : Option Duration :=
  let d : Duration := ⟨n⟩
  if d.days.natAbs ≤ 999999999 then some d else none

def text : String :=
  let s := d.seconds
  (if d.days = 0 then ""
    else intText d.days ++ (if d.days.natAbs = 1 then " day, " else " days, ")) ++
  s!"{intText (s / 3600)}:{zeroPadded 2 (s / 60 % 60)}:{zeroPadded 2 (s % 60)}" ++
    (if d.micro = 0 then "" else "." ++ zeroPadded 6 d.micro)

/-- The duration in whole milliseconds: seconds as a double tells them, microseconds rounded to the nearest thousand. -/
def toMillis? : Option Duration :=
  if d.micro = 0 then some d
  else
    match floor? (ofRatio (d.micros < 0) d.micros.natAbs 1000000) with
    | some seconds => ofMicros? (seconds * 1000000 + roundDiv d.micro 1000 * 1000)
    | none => none

end Duration

variable (s : Chars)

def digitsOnly? : Option Nat := if s.isEmpty || !s.all isAsciiDigit then none else some (digitsValue s)

def Date.ofIso? : Option Date :=
  match splitAtChar '-' s with
  | [y, m, d] => do Date.mk? (← digitsOnly? y) (← digitsOnly? m) (← digitsOnly? d)
  | _ => none

def secondsOf? : Option (Nat × Nat) :=
  match splitAtChar '.' s with
  | [whole] => (digitsOnly? whole).map (·, 0)
  | [whole, places] => do
    some (← digitsOnly? whole, (← digitsOnly? places) * tenTo (6 - places.length))
  | _ => none

def TimeOfDay.ofIso? : Option TimeOfDay :=
  match splitAtChar ':' s with
  | [h, m] => do some ⟨← digitsOnly? h, ← digitsOnly? m, 0, 0⟩
  | [h, m, sec] => do
    let (whole, micro) ← secondsOf? sec
    some ⟨← digitsOnly? h, ← digitsOnly? m, whole, micro⟩
  | _ => none

def DateTime.ofIso? (s : Chars) : Option DateTime :=
  let day := s.take 10
  match s.drop 10 with
  | [] => (Date.ofIso? day).map fun d => ⟨d, {}, none⟩
  | _ :: time => do some ⟨← Date.ofIso? day, ← TimeOfDay.ofIso? time, none⟩

/-- The number of the first of January 1970, counted from zero for the first day of year 1. -/
def epochDay : Int := 719162

def yearOfDay (n : Int) : Int := 400 * Int.fdiv n 146097 + (Date.ofOrdinal ((Int.fmod n 146097).toNat + 1)).year

/-- The moment so many seconds and microseconds after the start of 1970. A year out of range is a word of 32 bits. -/
def DateTime.ofEpoch (seconds : Int) (micro : Nat) : Result DateTime :=
  let day := epochDay + Int.fdiv seconds 86400
  let year := yearOfDay day
  if 2147483647 < (year - 1900).natAbs then
    .error ⟨.machine, "[Errno 75] Value too large for defined data type"⟩
  else if year < 1 ∨ 9999 < year then
    .error (.badValue s!"year {intText (Int.bmod year (twoTo 32))} is out of range")
  else
    .ok ⟨.ofOrdinal (day.toNat + 1), .ofMicros ((Int.fmod seconds 86400).toNat * 1000000 + micro), some 0⟩

open DateTime

def DateTime.ofSeconds (x : Float) : Result DateTime :=
  match truncate? x with
  | none => .error (.badValue "cannot convert float NaN to integer")
  | some whole =>
    if whole < -(twoTo 63 : Int) ∨ (twoTo 63 : Int) ≤ whole then
      .error ⟨.overflow, "timestamp out of range for platform time_t"⟩
    else
      let micro := (nearest? ((x - ofInt whole) * 1000000.0)).getD 0
      if 1000000 ≤ micro then ofEpoch (whole + 1) (micro - 1000000).toNat
      else if micro < 0 then ofEpoch (whole - 1) (micro + 1000000).toNat
      else ofEpoch whole micro.toNat

/-- The moment so many milliseconds after the start of 1970. The count is divided as a double. -/
def DateTime.ofMillis (n : Int) : Result DateTime :=
  if 2047 * twoTo 52 ≤ bitsOfRatio n.natAbs 1000 then
    .error ⟨.overflow, "integer division result too large for a float"⟩
  else ofSeconds (ofRatio (n < 0) n.natAbs 1000)

/-! ## Stamps -/

namespace Stamp

/-- The ways to read a number at the head of a text, the preferred one first. -/
abbrev Reading := List (Nat × Chars)

def plain (p : Nat → Bool) : Chars → Reading
  | c :: rest => if Text.isAsciiDigit c && p (c.toNat - 48) then [(c.toNat - 48, rest)] else []
  | [] => []

def digit : Chars → Reading
  | c :: rest => (Text.digitValue? c).toList.map (·, rest)
  | [] => []

def both (a b : Chars → Reading) (s : Chars) : Reading := (a s).flatMap fun x => (b x.2).map fun y => (10 * x.1 + y.1, y.2)

def year : Chars → Reading := both (both (both digit digit) digit) digit

variable (s : Chars)

def month : Reading := both (plain (· == 1)) (plain (· ≤ 2)) s ++ both (plain (· == 0)) (plain (1 ≤ ·)) s ++ plain (1 ≤ ·) s

def day : Reading :=
  both (plain (· == 3)) (plain (· ≤ 1)) s ++ both (plain fun d => d == 1 || d == 2) digit s ++
    both (plain (· == 0)) (plain (1 ≤ ·)) s ++ plain (1 ≤ ·) s ++
    (match s with
      | ' ' :: rest => plain (1 ≤ ·) rest
      | _ => [])

def hour : Reading := both (plain (· == 2)) (plain (· ≤ 3)) s ++ both (plain (· ≤ 1)) digit s ++ digit s

def minute : Reading := both (plain (· ≤ 5)) digit s ++ digit s

def second : Reading := both (plain (· == 6)) (plain (· ≤ 1)) s ++ minute s

def mark (c : Char) (r : Reading) : Reading :=
  r.filterMap fun x => match x.2 with
    | d :: rest => if d = c ∨ d.toLower = c.toLower then some (x.1, rest) else none
    | [] => none

/-- The ways to read a stamp: its six numbers and what is left. -/
def readings : List (List Nat × Chars) :=
  (mark '-' (year s)).flatMap fun y => (mark '-' (month y.2)).flatMap fun m =>
    (mark 'T' (day m.2)).flatMap fun d => (mark ':' (hour d.2)).flatMap fun h =>
      (mark ':' (minute h.2)).flatMap fun n => (second n.2).map fun e => ([y.1, m.1, d.1, h.1, n.1, e.1], e.2)

def moment : List Nat → Result DateTime
  | [y, m, d, h, n, e] =>
    if y = 0 then .error (.badValue "year 0 is out of range")
    else if Date.daysInMonth y m < d then .error (.badValue "day is out of range for month")
    else if 59 < e then .error (.badValue "second must be in 0..59")
    else .ok ⟨⟨y, m, d⟩, ⟨h, n, e, 0⟩, none⟩
  | _ => .error (.badValue "six numbers make a moment")

end Stamp

def DateTime.ofStamp (s : String) : Result DateTime :=
  match Stamp.readings s.toList with
  | [] => .error (.badValue s!"time data {Text.S.quoted s} does not match format '%Y-%m-%dT%H:%M:%S'")
  | (numbers, []) :: _ => Stamp.moment numbers
  | (_, rest) :: _ => .error (.badValue s!"unconverted data remains: {String.ofList rest}")

/-- Whether a moment does not come after another; zones are not looked at. -/
def DateTime.notAfter (a b : DateTime) : Bool :=
  a.date.ordinal < b.date.ordinal || (a.date.ordinal == b.date.ordinal && a.time.toMicros ≤ b.time.toMicros)

end Sluice
