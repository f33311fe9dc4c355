import Sluice.Value.Json
import Sluice.Yaml.Node

/-!
# The data of a YAML document

Keys that are equal as values are one key: the first place, the last datum. A document with several faults fails with
the one that stands highest in the tree, then first in the text (`Building`).
-/

namespace Sluice.Yaml

open Text Number Kind

inductive Datum
  | leaf (v : Value)
  | list (items : List Datum)
  | set (items : List Value)
  | table (entries : List (Value × Datum))

/-! ## Scalars -/

def dropMarks (s : String) : Chars := s.toList.filter (· != '_')

def parseBase (base : Nat) (shown : Chars) : Result Int :=
  let digit? (c : Char) : Option Nat := (hexValue? c).bind fun d => if d < base then some d else none
  match shown.mapM digit? with
  | some (d :: ds) => .ok ((d :: ds).foldl (fun n d => base * n + d) 0 : Nat)
  | _ => .error (.badValue
      s!"invalid literal for int() with base {base}: {Text.S.quoted (String.ofList shown)}")

def sixties (parts : List Int) : Int := parts.foldl (fun n d => 60 * n + d) 0

def noFirst : Fault := ⟨.index, "string index out of range"⟩

variable (text : String)

def intValue : Result Value := do
  let s := dropMarks text
  if s.isEmpty then throw noFirst
  let sign : Int := if s.head? == some '-' then -1 else 1
  let digits := unsigned s
  let n ←
    match digits with
    | ['0'] => pure 0
    | '0' :: 'b' :: r => parseBase 2 r
    | '0' :: 'x' :: r => parseBase 16 r
    | '0' :: _ => parseBase 8 digits
    | [] => throw noFirst
    | _ =>
      if digits.contains ':' then do
        pure (sixties (← (splitAtChar ':' digits).mapM fun p => parseInt (String.ofList p)))
      else parseInt (String.ofList digits)
  pure ((sign * n))

/-- Sixtieths of doubles, summed from the last part on. -/
def sixtiesFloat : (base : Float) → (total : Float) → List Float → Float
  | _, total, [] => total
  | base, total, d :: ds => sixtiesFloat (base * 60.0) (total + d * base) ds

def floatValue : Result Value := do
  let s := (dropMarks text).map Char.toLower
  if s.isEmpty then throw noFirst
  let negative := s.head? == some '-'
  let sign (x : Float) : Float := if negative then -x else x
  let body := unsigned s
  if body == ".inf".toList then pure (.float (sign (infinity false)))
  else if body == ".nan".toList then pure (.float nan)
  else if body.contains ':' then
    let parts ← (splitAtChar ':' body).mapM fun p => parseFloat (String.ofList p)
    pure (.float (sign (sixtiesFloat 1.0 0.0 parts.reverse)))
  else
    pure (.float (sign (← parseFloat (String.ofList body))))

def spanText (seconds : Int) : String :=
  let days := Int.fdiv seconds 86400
  let rest := Int.fmod seconds 86400
  let parts := (if days == 0 then [] else [s!"days={days}"]) ++ (if rest == 0 then [] else [s!"seconds={rest}"])
  let shown := if parts.isEmpty then "0" else S.join ", " parts
  s!"datetime.timedelta({shown})"

def zoneOffset : Nat × Nat × Option Bool → Result Int
  | (_, _, none) => .ok 0
  | (hours, minutes, some west) =>
    let seconds : Int := 3600 * hours + 60 * minutes
    let seconds := if west then -seconds else seconds
    if seconds.natAbs < 86400 then .ok seconds
    else .error (.badValue ("offset must be a timedelta strictly between -timedelta(hours=24) and " ++
      s!"timedelta(hours=24), not {spanText seconds}."))

def checkedDay (t : Stamp) : Result Date :=
  if t.year == 0 then .error (.badValue s!"year {t.year} is out of range")
  else if !(1 ≤ t.month && t.month ≤ 12) then .error (.badValue "month must be in 1..12")
  else match Date.mk? t.year t.month t.day with
    | some d => .ok d
    | none => .error (.badValue "day is out of range for month")

def stampValue : Result Value := do
  let t ← match stamp? text.toList with
    | some t => pure t
    | none => throw (.noField "no day or moment")
  match t.time? with
  | none => pure (.date (← checkedDay t))
  | some (hour, minute, second, fraction) =>
    let micro := digitsValue ((fraction ++ List.replicate 6 '0').take 6)
    let offset? ← match t.zone? with
      | some z => (zoneOffset z).map some
      | none => pure none
    let date ← checkedDay t
    if 23 < hour then throw (.badValue "hour must be in 0..23")
    if 59 < minute then throw (.badValue "minute must be in 0..59")
    if 59 < second then throw (.badValue "second must be in 0..59")
    pure (.datetime { date, time := { hour, minute, second, micro }, offset? })

def truthValue : Result Value :=
  match truthWords.find? (·.1 == text.map Char.toLower) with
  | some (_, b) => .ok b
  | none => .error ⟨.key, S.quoted (text.map Char.toLower)⟩

def binaryValue : Result Value :=
  if text.toList.all fun c => c.toNat < 128 then
    match Base64.decode text.toList with
    | .ok b => .ok (.bytes b)
    | .error _ => .error Cause.value.fault
  else .error Cause.value.fault

def scalarReader? (tag : String) : Option (String → Result Value) :=
  if tag == null then some fun _ => .ok .null
  else if tag == bool then some truthValue
  else if tag == int then some intValue
  else if tag == float then some floatValue
  else if tag == binary then some binaryValue
  else if tag == timestamp then some stampValue
  else if tag == str then some fun s => .ok s
  else none

/-! ## Collections -/

def scalarText? : (fuel : Nat) → Node → Option String
  | 0, _ => none
  | _ + 1, .scalar _ s => some s
  | fuel + 1, .mapping _ pairs => (pairs.find? (·.1.tag == value)).bind (scalarText? fuel ·.2)
  | _ + 1, .sequence _ _ => none

/-- The pairs of a mapping with those of its merge keys in front; `none` where a merge key has something else. -/
def mergedPairs : (fuel : Nat) → List (Node × Node) → Option (List (Node × Node))
  | 0, _ => none
  | fuel + 1, pairs => do
    let taken ← (pairs.filter (·.1.tag == merge)).mapM fun p =>
      match p.2 with
      | .mapping _ more => mergedPairs fuel more
      | .sequence _ items => do
        let each ← items.mapM fun n => match n with
          | .mapping _ more => mergedPairs fuel more
          | _ => none
        some each.reverse.flatten
      | .scalar _ _ => none
    some (taken.flatten ++ pairs.filter (·.1.tag != merge))

def setEntry (key : Value) (d : Datum) : List (Value × Datum) → List (Value × Datum)
  | [] => [(key, d)]
  | (k, e) :: rest => if k == key then (k, d) :: rest else (k, e) :: setEntry key d rest

abbrev Building := StateM (List (Nat × Fault))

def noteFault (depth : Nat) (f : Fault) : Building Datum := do
  modify fun fs => fs ++ [(depth, f)]
  pure (.leaf .null)

mutual

def build : (fuel depth : Nat) → Node → Building Datum
  | 0, depth, _ => noteFault depth Cause.value.fault
  | fuel + 1, depth, n =>
    match scalarReader? n.tag with
    | some read =>
      match scalarText? (fuel + 1) n with
      | some s => match read s with
        | .ok v => pure (.leaf v)
        | .error f => noteFault depth f
      | none => noteFault depth Cause.value.fault
    | none =>
      let refused := noteFault (depth + 1) Cause.value.fault
      if n.tag == seq then
        match n with
        | .sequence _ items => do
          pure (.list (← buildItems fuel (depth + 1) items))
        | _ => refused
      else if n.tag == map || n.tag == set then
        match n with
        | .mapping _ pairs =>
          match mergedPairs (fuel + 1) pairs with
          | some pairs => do
            let entries ← buildPairs fuel (depth + 1) pairs []
            if n.tag == set then pure (.set (entries.map (·.1))) else pure (.table entries)
          | none => refused
        | _ => refused
      else if n.tag == omap || n.tag == pairs then
        match n with
        | .sequence _ items => do
          pure (.list (← buildSingles fuel (depth + 1) items))
        | _ => refused
      else noteFault depth Cause.value.fault

def buildItems : (fuel depth : Nat) → List Node → Building (List Datum)
  | _, _, [] => pure []
  | 0, _, _ :: _ => pure []
  | fuel + 1, depth, n :: ns => do pure ((← build fuel depth n) :: (← buildItems fuel depth ns))

def buildPairs : (fuel depth : Nat) → List (Node × Node) → List (Value × Datum) → Building (List (Value × Datum))
  | _, _, [], entries => pure entries
  | 0, _, _ :: _, entries => pure entries
  | fuel + 1, depth, (k, v) :: rest, entries => do
    let k := if k.tag == value then .scalar str ((scalarText? 1 k).getD "") else k
    let key ← build fuel depth k
    match key with
    | .leaf key => buildPairs fuel depth rest (setEntry key (← build fuel depth v) entries)
    | _ => do
      let _ ← noteFault depth Cause.value.fault
      pure entries

/-- Pairs written as mappings that hold one pair each. -/
def buildSingles : (fuel depth : Nat) → List Node → Building (List Datum)
  | _, _, [] => pure []
  | 0, _, _ :: _ => pure []
  | fuel + 1, depth, n :: ns =>
    match n with
    | .mapping _ [(k, v)] => do
      pure (.list [← build fuel depth k, ← build fuel depth v] :: (← buildSingles fuel depth ns))
    | _ => do
      let _ ← noteFault depth Cause.value.fault
      pure []

end

mutual

def Node.size : Node → Nat
  | .scalar _ _ => 1
  | .sequence _ items => 1 + Node.sizeItems items
  | .mapping _ pairs => 1 + Node.sizePairs pairs

def Node.sizeItems : List Node → Nat
  | [] => 0
  | n :: ns => n.size + Node.sizeItems ns + 1

def Node.sizePairs : List (Node × Node) → Nat
  | [] => 0
  | (k, v) :: ps => k.size + v.size + Node.sizePairs ps + 1

end

def leadingFault? (faults : List (Nat × Fault)) : Option Fault :=
  let least := (faults.map (·.1)).foldl min ((faults.head?.map (·.1)).getD 0)
  (faults.find? (·.1 == least)).map (·.2)

/-- **Loads YAML text**: the datum of its only document, nothing if it has none. -/
def load (dialect : Dialect) (text : String) : Result Datum :=
  match compose dialect text with
  | .error e => .error e.fault
  | .ok none => .ok (.leaf .null)
  | .ok (some n) =>
    let (d, faults) := (build (2 * n.size + 2) 0 n).run []
    match leadingFault? faults with
    | some f => .error f
    | none => .ok d

def keyName : Value → String
  | .str s => s
  | .bool true => "true"
  | .bool false => "false"
  | .null => "null"
  | .float x => Json.floatJson x
  | v => v.text

mutual

/-- A datum as a value: keys become names. Two keys may have the same name, such as `1` and `"1"`. -/
def Datum.toValue : Datum → Value
  | .leaf v => v
  | .list items => .list (Datum.toValues items)
  | .set items => .list items
  | .table entries => .map (Datum.toFields entries)

def Datum.toValues : List Datum → List Value
  | [] => []
  | d :: ds => d.toValue :: Datum.toValues ds

def Datum.toFields : List (Value × Datum) → Fields
  | [] => []
  | (k, d) :: rest => (keyName k, d.toValue) :: Datum.toFields rest

end

def refusalOf? (wording : String → String) : Value → Option Fault
  | .null | .bool _ | .float _ | .str _ => none
  | .int n => if mostDigits < (natText n.natAbs).length then some longNumber else none
  | v => some (.badType (wording v.kindName))

def unknownKind (kind : String) : String := s!"Object of type {kind} is not JSON serializable"

def wrongKey (kind : String) : String := "keys must be str, int, float, bool or None, not " ++ kind

mutual

/-- Why a datum is not written as JSON: the first reason from left to right. -/
def Datum.refusal? : Datum → Option Fault
  | .leaf v => refusalOf? unknownKind v
  | .list items => refusalAmong? items
  | .set _ => some (.badType (unknownKind "set"))
  | .table entries => refusalIn? entries

def refusalAmong? : List Datum → Option Fault
  | [] => none
  | d :: ds => d.refusal?.or (refusalAmong? ds)

def refusalIn? : List (Value × Datum) → Option Fault
  | [] => none
  | (k, d) :: rest => (refusalOf? wrongKey k).or (d.refusal?.or (refusalIn? rest))

end

end Sluice.Yaml
