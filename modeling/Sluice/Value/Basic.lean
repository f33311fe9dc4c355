import Sluice.Calendar
import Sluice.Number.Read
import Sluice.Text.Url

/-!
# Values of records

`Value` is the one dynamic type of the library. The fields of a record keep the order in which they were first set; that
a name occurs only once is the predicate `Fields.Distinct`.
-/

namespace Sluice

open Text Number String

inductive Value
  | null
  | bool (b : Bool)
  | int (n : Int)
  | float (x : Float)
  | str (s : String)
  | date (d : Date)
  | datetime (t : DateTime)
  | time (t : TimeOfDay)
  | duration (d : Duration)
  | bytes (b : List UInt8)
  | list (items : List Value)
  | map (fields : List (String × Value))
deriving Inhabited

instance : Coe String Value := ⟨.str⟩

instance : Coe Int Value := ⟨.int⟩

instance : Coe Bool Value := ⟨.bool⟩

abbrev Fields := List (String × Value)

namespace Fields

variable (key : String) (fields : Fields)

def get? : Fields → Option Value
  | [] => none
  | (k, v) :: rest => if k = key then some v else get? rest

def has (key : String) : Bool := (get? key fields).isSome

/-- Gives a field a value: in its old place if it is there already, else at the end. -/
def set (value : Value) : Fields → Fields
  | [] => [(key, value)]
  | (k, v) :: rest => if k = key then (k, value) :: rest else (k, v) :: set value rest

def update (fields more : Fields) : Fields := more.foldl (fun fs kv => set kv.1 kv.2 fs) fields

def erase : Fields := fields.filter (·.1 != key)

def keys : List String := fields.map (·.1)

def Distinct : Prop := (keys fields).Nodup

/-- Sets the fields one after another: a repeated name keeps its first place and its last value. -/
def ofPairs (pairs : Fields) : Fields := update [] pairs

@[simp] theorem get?_set_self (v : Value) (fields : Fields) : get? key (set key v fields) = some v := by
  induction fields with
  | nil => simp [set, get?]
  | cons kv rest ih =>
    obtain ⟨k, w⟩ := kv
    by_cases h : k = key <;> simp [set, get?, h, ih]

theorem get?_set_of_ne {key other : String} (h : other ≠ key) (v : Value) (fields : Fields) :
    get? other (set key v fields) = get? other fields := by
  induction fields with
  | nil => simp [set, get?, Ne.symm h]
  | cons kv rest ih =>
    obtain ⟨k, w⟩ := kv
    by_cases hk : k = key
    · subst hk; simp [set, get?, Ne.symm h]
    · simp only [set, hk, if_false, get?, ih]

end Fields

namespace Value

def get? (key : String) : Value → Option Value
  | .map fields => Fields.get? key fields
  | _ => none

def truthy : Value → Bool
  | .null => false
  | .bool b => b
  | .int n => n != 0
  | .float x => !(x == 0.0)
  | .str s => s != ""
  | .duration d => d.micros != 0
  | .bytes b => !b.isEmpty
  | .list items => !items.isEmpty
  | .map fields => !fields.isEmpty
  | _ => true

def kindName : Value → String
  | .null => "NoneType"
  | .bool _ => "bool"
  | .int _ => "int"
  | .float _ => "float"
  | .str _ => "str"
  | .date _ => "date"
  | .datetime _ => "datetime"
  | .time _ => "time"
  | .duration _ => "timedelta"
  | .bytes _ => "bytes"
  | .list _ => "list"
  | .map _ => "dict"

def intEqFloat (n : Int) (x : Float) : Bool := Number.whole? x == some n

def boolInt (b : Bool) : Int := if b then 1 else 0

mutual

/-- Equality of values: numbers by size whatever their kind, truth values as 0 and 1, records whatever the order of their
fields. -/
def equal : Value → Value → Bool
  | .null, .null => true
  | .bool a, .bool b => a == b
  | .bool a, .int n => boolInt a == n
  | .int n, .bool a => boolInt a == n
  | .bool a, .float x => intEqFloat (boolInt a) x
  | .float x, .bool a => intEqFloat (boolInt a) x
  | .int a, .int b => a == b
  | .int a, .float x => intEqFloat a x
  | .float x, .int a => intEqFloat a x
  | .float x, .float y => x == y
  | .str a, .str b => a == b
  | .date a, .date b => a == b
  | .datetime a, .datetime b => a == b
  | .time a, .time b => a == b
  | .duration a, .duration b => a == b
  | .bytes a, .bytes b => a == b
  | .list a, .list b => equalList a b
  | .map a, .map b => a.length == b.length && equalFields a b
  | _, _ => false

def equalList : List Value → List Value → Bool
  | [], [] => true
  | a :: as, b :: bs => equal a b && equalList as bs
  | _, _ => false

def equalFields : List (String × Value) → List (String × Value) → Bool
  | [], _ => true
  | (k, v) :: rest, other =>
    (match Fields.get? k other with
      | some w => equal v w
      | none => false) && equalFields rest other

end

instance : BEq Value := ⟨equal⟩

def str? : Value → Option String
  | .str s => some s
  | _ => none

def noMember (v : Value) (name : String) : Fault := .noField s!"'{v.kindName}' object has no attribute '{name}'"

def notA (v : Value) (what : String) : Fault := .badType s!"'{v.kindName}' object is not {what}"

def asMapping : Value → Result Fields
  | .map fields => .ok fields
  | v => .error (v.notA "a mapping")

end Value

/-! ## Values as running text: inside a list or a record a text is quoted -/

namespace Value

def quotedBytes (b : List UInt8) : String :=
  let cs := b.map (Char.ofNat ·.toNat)
  let mark := if cs.contains quoteMark && !cs.contains '"' then '"' else quoteMark
  let one (c : Char) : Chars := if c.toNat ≥ 127 then '\\' :: 'x' :: hexDigits 2 c.toNat else quotedChar mark c
  ofList ('b' :: mark :: cs.flatMap one ++ [mark])

def commaNats (ns : List Nat) : String := intercalate ", " (ns.map fun n => ofList (natText n))

def quotedMoment (name : String) (day : List Nat) (t : TimeOfDay) (zone : String) : String :=
  let tail := if t.micro ≠ 0 then [t.second, t.micro] else if t.second ≠ 0 then [t.second] else []
  "datetime." ++ s!"{name}({commaNats (day ++ [t.hour, t.minute] ++ tail)}{zone})"

def quotedDuration (d : Duration) : String :=
  let parts := [("days", d.days), ("seconds", (d.seconds : Int)), ("microseconds", (d.micro : Int))]
  let told := (parts.filter (·.2 != 0)).map fun (name, n) => s!"{name}={intText n}"
  "datetime.timedelta(" ++ (if told.isEmpty then "0" else intercalate ", " told) ++ ")"

mutual

def quoted : Value → String
  | .null => "None"
  | .bool b => if b then "True" else "False"
  | .int n => intText n
  | .float x => floatText x
  | .str s => S.quoted s
  | .date d => "datetime.date(" ++ commaNats [d.year, d.month, d.day] ++ ")"
  | .datetime t =>
    quotedMoment "datetime" [t.date.year, t.date.month, t.date.day] t.time (match t.offset? with
      | none => ""
      | some o =>
        if o = 0 then ", tzinfo=datetime.timezone.utc"
        else if o < 0 then
          s!", tzinfo=datetime.timezone(datetime.timedelta(days=-1, seconds={intText (86400 + o)}))"
        else s!", tzinfo=datetime.timezone(datetime.timedelta(seconds={intText o}))")
  | .time t => quotedMoment "time" [] t ""
  | .duration d => quotedDuration d
  | .bytes b => quotedBytes b
  | .list items => "[" ++ intercalate ", " (quotedItems items) ++ "]"
  | .map fields => "\x7b" ++ intercalate ", " (quotedFields fields) ++ "\x7d"

def quotedItems : List Value → List String
  | [] => []
  | v :: vs => quoted v :: quotedItems vs

def quotedFields : List (String × Value) → List String
  | [] => []
  | (k, v) :: rest => s!"{S.quoted k}: {quoted v}" :: quotedFields rest

end

def text : Value → String
  | .str s => s
  | .date d => d.iso
  | .datetime t => t.isoWith " "
  | .time t => t.iso
  | .duration d => d.text
  | v => v.quoted

end Value

end Sluice

/-!
## Looking into values

Asks a value for a part and says what is wrong when values of its kind have none.
-/

namespace Sluice.Value

variable (v : Value) (key : String)

def noKey : Fault := ⟨.key, Text.S.quoted key⟩

def item : Result Value :=
  match v with
  | .map fields => match Fields.get? key fields with
    | some w => .ok w
    | none => .error (noKey key)
  | .str _ => .error (.badType "string indices must be integers, not 'str'")
  | .list _ => .error (.badType "list indices must be integers or slices, not str")
  | v => .error (v.notA "subscriptable")

def itemD (default : Value) : Result Value :=
  match v with
  | .map fields => .ok ((Fields.get? key fields).getD default)
  | v => .error (v.noMember "get")

def hasItem : Result Bool :=
  match v with
  | .map fields => .ok (Fields.has fields key)
  | .list items => .ok (items.any (· == key))
  | .str s => .ok (Text.S.contains key s)
  | v => .error (.badType s!"argument of type '{v.kindName}' is not iterable")

def elements : Value → Result (List Value)
  | .list items => .ok items
  | .map fields => .ok (fields.map (.str ·.1))
  | .str s => .ok (s.toList.map fun c => (String.ofList [c]))
  | v => .error (v.notA "iterable")

/-- A value that may be a key; lists and records may not. -/
def hashed : Value → Result Value
  | .list _ => .error (.badType "unhashable type: 'list'")
  | .map _ => .error (.badType "unhashable type: 'dict'")
  | v => .ok v

def unpackFault (wanted given : Nat) : Fault :=
  .badValue (if given < wanted then s!"not enough values to unpack (expected {wanted}, got {given})"
    else s!"too many values to unpack (expected {wanted})")

/-- The whole number that a value stands for: the number read from a text, a double cut off. -/
def toWhole : Value → Result Int
  | .int n => .ok n
  | .bool b => .ok (boolInt b)
  | .str s => Number.parseInt s
  | .float x => Number.cutOff x
  | v => .error (.badType s!"int() argument must be a string, a bytes-like object or a real number, not '{v.kindName}'")

def reached (limit : Value) (count : Nat) : Result Bool :=
  match limit with
  | .int n => .ok (n != 0 && n ≤ count)
  | .bool b => .ok (b && 1 ≤ count)
  | .float x => .ok (!(x == 0.0) && x ≤ Number.ofInt count)
  | v =>
    if v.truthy then
      .error (.badType s!"'>=' not supported between instances of 'int' and '{v.kindName}'")
    else .ok false

/-- A limit that is nothing is never reached. -/
theorem reached_of_not_truthy {limit : Value} (h : limit.truthy = false) (count : Nat) : limit.reached count = .ok false := by
  cases limit <;> simp_all [truthy, reached]

/-! ## Parts that may be left out

These readers never fail: what is left out has a default.
-/

def field : Value := (v.get? key).getD .null

def strD (d : String := "") : String := v.str?.getD d

def elems : Value → List Value
  | .list xs => xs
  | _ => []

def entries : Value → Fields
  | .map fs => fs
  | _ => []

def int? : Value → Option Int
  | .int n => some n
  | _ => none

def strs : List String := v.elems.map (·.strD)

end Sluice.Value

namespace Sluice.Fields

def ofQuery (query : String) : Fields :=
  (Text.queryGroups false query).map fun g => match g.2 with
    | [v] => (g.1, v)
    | vs => (g.1, .list (vs.map .str))

/-- A field is smaller than the record it stands in. -/
theorem sizeOf_lt_of_get? {key : String} {v : Value} {fields : Fields} (h : get? key fields = some v) :
    sizeOf v < sizeOf fields := by
  induction fields with
  | nil => simp [get?] at h
  | cons kv rest ih =>
    obtain ⟨k, w⟩ := kv
    by_cases hk : k = key
    · simp only [get?, hk, if_true, Option.some.injEq] at h
      subst h
      simp
      omega
    · simp only [get?, hk, if_false] at h
      have := ih h
      simp
      omega

end Sluice.Fields

/-!
## Arithmetic of values

Truth values count as 0 and 1. Faults name the operation and both kinds.
-/

namespace Sluice

def Quantity.toValue : Quantity → Value
  | .whole n => n
  | .real x => .float x

namespace Value

def quantity? : Value → Option Quantity
  | .int n => some (.whole n)
  | .float x => some (.real x)
  | .bool b => some (.whole (boolInt b))
  | _ => none

variable (a b : Value) (op : String) (v : Value)

def quantity : Result Quantity :=
  match v.quantity? with
  | some q => .ok q
  | none => .error (.badType s!"must be real number, not {v.kindName}")

def unsupported (a b : Value) : Fault := .badType s!"unsupported operand type(s) for {op}: '{a.kindName}' and '{b.kindName}'"

def combine (f : Quantity → Quantity → Quantity) (a b : Value) : Result Value :=
  match a.quantity?, b.quantity? with
  | some x, some y => .ok (f x y).toValue
  | _, _ => .error (unsupported op a b)

def plus : Value → Value → Result Value
  | .str a, .str b => .ok ((a ++ b))
  | .list a, .list b => .ok (.list (a ++ b))
  | .str _, b => .error (.badType s!"can only concatenate str (not \"{b.kindName}\") to str")
  | .list _, b => .error (.badType s!"can only concatenate list (not \"{b.kindName}\") to list")
  | a, b => combine "+" (· + ·) a b

def minus : Result Value := combine "-" (· - ·) a b

def isSequence : Value → Bool
  | .str _ | .list _ | .bytes _ => true
  | _ => false

def times : Result Value :=
  match a, b with
  | .str s, .int n | .int n, .str s => .ok ((Text.S.repeated n.toNat s))
  | .list xs, .int n | .int n, .list xs => .ok (.list (List.replicate n.toNat xs).flatten)
  | a, b =>
    if a.isSequence then .error (.badType s!"can't multiply sequence by non-int of type '{b.kindName}'")
    else if b.isSequence then
      .error (.badType s!"can't multiply sequence by non-int of type '{a.kindName}'")
    else combine "*" (· * ·) a b

def quotient (a b : Value) : Result Value :=
  match a.quantity?, b.quantity? with
  | some x, some y => (x.quotient y).map (·.toValue)
  | _, _ => .error (unsupported "/" a b)

def negative (a : Value) : Result Value :=
  match a.quantity? with
  | some x => .ok (-x).toValue
  | none => .error (.badType s!"bad operand type for unary -: '{a.kindName}'")

def incomparable (a b : Value) : Fault :=
  .badType s!"'{op}' not supported between instances of '{a.kindName}' and '{b.kindName}'"

def compareWith (f : Quantity → Quantity → Bool) (g : String → String → Bool) (a b : Value) : Result Bool :=
  match a, b with
  | .str s, .str t => .ok (g s t)
  | a, b =>
    match a.quantity?, b.quantity? with
    | some x, some y => .ok (f x y)
    | _, _ => .error (incomparable op a b)

def isLess : Result Bool := compareWith "<" (·.lt ·) (fun s t => s < t) a b

def isAtMost : Result Bool := compareWith "<=" (·.le ·) (fun s t => s ≤ t) a b

def isAtLeast : Result Bool := compareWith ">=" (fun x y => y.le x) (fun s t => t ≤ s) a b

def nth (i : Nat) : Result Value :=
  match v with
  | .list items =>
    match items[i]? with
    | some x => .ok x
    | none => .error ⟨.index, "list index out of range"⟩
  | .str s =>
    match s.toList[i]? with
    | some c => .ok ((String.ofList [c]))
    | none => .error ⟨.index, "string index out of range"⟩
  | .map _ => .error ⟨.key, Number.intText i⟩
  | v => .error (v.notA "subscriptable")

def size : Result Nat :=
  match v with
  | .list items => .ok items.length
  | .str s => .ok s.length
  | .map fields => .ok fields.length
  | .bytes b => .ok b.length
  | v => .error (.badType s!"object of type '{v.kindName}' has no len()")

def noUnpacking : Fault := .badType s!"cannot unpack non-iterable {v.kindName} object"

def pair : Result (Value × Value) :=
  match v.elements with
  | .ok [a, b] => .ok (a, b)
  | .ok xs => .error (unpackFault 2 xs.length)
  | .error _ => .error v.noUnpacking

end Value

end Sluice
