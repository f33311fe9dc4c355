import Sluice.Machine.Session

/-!
# Fields of forms

`describe` puts the dictionaries of fields and the notes on the pages together; `valueFault?` says what is wrong with a
value.
-/

namespace Sluice.Form

structure Document where
  fields : Value := .null
  pages : List Value := []

open Fields Act

def namesUp (v : Value) : Result (List Value) :=
  if v.truthy then
    match v with
    | .map fields => do
      let name := (get? "/T" fields).getD .null
      let above ← match _h : get? "/Parent" fields with
        | some parent => namesUp parent
        | none => pure []
      pure (if name.truthy then name :: above else above)
    | v => .error (v.noMember "get")
  else .ok []
termination_by sizeOf v
decreasing_by
  have := sizeOf_lt_of_get? _h
  simp
  omega

def joined (names : List Value) : Result String := do
  let texts ← names.zipIdx.mapM fun (v, i) => match v with
    | .str s => pure s
    | v => .error (.badType s!"sequence item {Number.intText i}: expected str instance, {v.kindName} found")
  pure (String.intercalate "." texts)

/-- **The full name of the field of a note**: the names from the root down, if there are any. -/
def fullName? (note : Value) : Result (Option String) := do
  let names ← namesUp note
  if names.isEmpty then return none
  return some (← joined names.reverse)

def checkValues (id : String) (field : Value) : Act Fields := do
  let states ← ofResult (field.itemD "/_States_" (.list []))
  if (← ofResult states.size) != 2 then return []
  let first ← ofResult (states.nth 0)
  let second ← ofResult (states.nth 1)
  if ← ofResult (states.hasItem "/Off") then
    return [("checked_value", if first == "/Off" then second else first), ("unchecked_value", "/Off")]
  print ("Unexpected state values for checkbox \x60$" ++ id ++
    "\x60. Its checked and unchecked values may not be correct; if you're trying to check it, visually verify " ++
    "the results.")
  return [("checked_value", first), ("unchecked_value", second)]

def choiceOptions (field : Value) : Result (List Value) := do
  (← (← field.itemD "/_States_" (.list [])).elements).mapM fun s => do
    pure (.map [("value", ← s.nth 0), ("text", ← s.nth 1)])

def fieldInfo (id : String) (field : Value) : Act Fields := do
  let kind ← ofResult (field.itemD "/FT" .null)
  let start (type : String) : Fields := [("field_id", id), ("type", type)]
  match kind with
  | .str "/Tx" => pure (start "text")
  | .str "/Btn" => do
    pure (start "checkbox" ++ (← checkValues id field))
  | .str "/Ch" => do
    pure (start "choice" ++ [("choice_options", .list (← ofResult (choiceOptions field)))])
  | kind => pure (start s!"unknown ({kind.text})")

/-! ## Where fields stand -/

structure Survey where
  single : List (String × Fields) := []
  groups : List String := []
  /-- the groups of buttons that were found -/
  pressed : List (String × Fields) := []

def describeAll : Fields → Survey → Act Survey
  | [], s => pure s
  | (id, field) :: rest, s => do
    if (← ofResult (field.itemD "/Kids" .null)).truthy then
      let kind ← ofResult (field.itemD "/FT" .null)
      describeAll rest (if kind == "/Btn" then { s with groups := s.groups ++ [id] } else s)
    else
      let info ← fieldInfo id field
      describeAll rest { s with single := s.single ++ [(id, info)] }

def onValues? (note : Value) : Result (Option (List Value)) := do
  let look (v : Value) (key : String) : Result (Option Value) :=
    match v.item key with
    | .ok w => .ok (some w)
    | .error f => if f.kind = .key then .ok none else .error f
  match ← look note "/AP" with
  | none => return none
  | some looks =>
    match ← look looks "/N" with
    | none => return none
    | some normal => return some ((← normal.elements).filter fun v => !(v == "/Off"))

def addOption (option : Value) (info : Fields) : Fields :=
  match get? "radio_options" info with
  | some (.list options) => set "radio_options" (.list (options ++ [option])) info
  | _ => set "radio_options" (.list [option]) info

def change (name : String) (f : Fields → Fields) (kept : List (String × Fields)) : List (String × Fields) :=
  kept.map fun (n, info) => if n = name then (n, f info) else (n, info)

def locate (page : Nat) (s : Survey) (note : Value) : Result Survey := do
  match ← fullName? note with
  | none => pure s
  | some name =>
    if (s.single.lookup name).isSome then
      let rect ← note.itemD "/Rect" .null
      pure { s with single := change name (fun info => set "rect" rect (set "page" (.int page) info)) s.single }
    else if s.groups.contains name then
      match ← onValues? note with
      | some [value] =>
        let rect ← note.itemD "/Rect" .null
        let pressed := if (s.pressed.lookup name).isSome then s.pressed else s.pressed ++ [(name,
          [("field_id", .str name), ("type", .str "radio_group"), ("page", .int page), ("radio_options", .list [])])]
        pure { s with pressed := change name (addOption (.map [("value", value), ("rect", rect)])) pressed }
      | _ => pure s
    else pure s

def locateAll (page : Nat) : Survey → List Value → Result Survey
  | s, [] => .ok s
  | s, note :: rest => do locateAll page (← locate page s note) rest

def locatePages : (page : Nat) → Survey → List Value → Result Survey
  | _, s, [] => .ok s
  | page, s, p :: rest => do locatePages (page + 1) (← locateAll page s (← (← p.itemD "/Annots" (.list [])).elements)) rest

structure Place where
  page : Value
  down : Value
  right : Value

def placeOf (info : Fields) : Result Place := do
  let rect ← match get? "radio_options" info with
    | some options => do
      (← options.nth 0).item "rect"
    | none => pure ((get? "rect" info).getD .null)
  let rect := if rect.truthy then rect else .list [.int 0, .int 0, .int 0, .int 0]
  pure ⟨(get? "page" info).getD .null, ← (← rect.nth 1).negative, ← rect.nth 0⟩

def Place.le (a b : Place) : Bool :=
  let less (x y : Value) : Bool := match x.isLess y with
    | .ok r => r
    | .error _ => false
  if !(a.page == b.page) then less a.page b.page
  else if !(a.down == b.down) then less a.down b.down
  else !(less b.right a.right)

/-- **The fields of a form, with where they stand**, from the top to the bottom of each page. Others are left out. -/
def describe (d : Document) : Act (List Fields) := do
  let fields ← match d.fields with
    | .map fields => pure fields
    | v => fail (v.noMember "items")
  let s ← describeAll fields {}
  let s ← ofResult (locatePages 1 s d.pages)
  let isPlaced (info : Fields) : Bool := has info "page"
  forEach (s.single.filter fun (_, info) => !isPlaced info) fun (id, _) =>
    print s!"Unable to determine location for field id: {id}, ignoring"
  let placed := (s.single.map (·.2)).filter isPlaced ++ s.pressed.map (·.2)
  let keyed ← ofResult (placed.mapM fun info => do pure (← placeOf info, info))
  pure ((keyed.mergeSort fun a b => a.1.le b.1).map (·.2))

def optionValues (info : Value) (key : String) : Result (List Value) := do
  (← (← info.item key).elements).mapM (·.item "value")

/-- **What is wrong with a value for a field**, if something is. -/
def valueFault? (info value : Value) : Result (Option String) := do
  let type ← info.item "type"
  let id ← info.item "field_id"
  let among (word key : String) : Result (Option String) := do
    let values ← optionValues info key
    if values.any (· == value) then return none
    return some (s!"ERROR: Invalid value \"{value.text}\" for {word} field \"{id.text}" ++
      "\". Valid values are: " ++ Value.quoted (.list values))
  match type with
  | .str "checkbox" => do
    let on ← info.item "checked_value"
    let off ← info.item "unchecked_value"
    if value == on || value == off then return none
    return some (s!"ERROR: Invalid value \"{value.text}\" for checkbox field \"{id.text}" ++
      s!"\". The checked value is \"{on.text}\" and the unchecked value is \"{off.text}\"")
  | .str "radio_group" => among "radio group" "radio_options"
  | .str "choice" => among "choice" "choice_options"
  | _ => return none

/-- The options of a list to choose from: of pairs only the first part. -/
def inherited (dictionary : Value) (key : String) : Value :=
  let v := (dictionary.get? key).getD .null
  match key, v with
  | "/Opt", .list items =>
    if items.all (fun i => match i with
      | .list [_, _] => true
      | _ => false) then .list (items.map fun i => match i with
        | .list [a, _] => a
        | i => i)
    else v
  | _, _ => v

end Sluice.Form
