import Sluice.Form.Field
import Sluice.Picture.Basic

/-!
# Filling forms

Values are put into the fields of a form, or texts are written on its pages into boxes.
-/

namespace Sluice.Form

open Number Value
open Act (log ofResult print)

/-!
## Boxes of form fields

Each field has a box around its label and one for its entry. `complaints` finds boxes of a page that overlap and entries
too low for their text; `report` gives up after twenty messages.
-/

structure Area where
  /-- left, top, right and bottom -/
  rect : Value
  isEntry : Bool
  place : Nat
  field : Value

def Area.word (a : Area) : String := if a.isEntry then "entry" else "label"

/-- Whether two boxes have points in common; touching does not count. -/
def intersects (r s : Value) : Result Bool := do
  let side (f : Value → Value → Result Bool) (i j : Nat) : Result Bool := do f (← r.nth i) (← s.nth j)
  let beside ← side isAtLeast 0 2
  let beside ← if beside then pure true else side isAtMost 2 0
  let above ← side isAtLeast 1 3
  let above ← if above then pure true else side isAtMost 3 1
  pure (!(beside || above))

def named (v : Value) : String := s!"\x60{v.text}\x60"

def overlap? (a b : Area) : Result (Option String) := do
  if !((← a.field.item "page_number") == (← b.field.item "page_number")) then return none
  if !(← intersects a.rect b.rect) then return none
  let name ← a.field.item "description"
  if a.place = b.place then
    return some s!"FAILURE: intersection between label and entry bounding boxes for {named name} ({a.rect.text}, {b.rect.text})"
  let second ← b.field.item "description"
  return some (s!"FAILURE: intersection between {a.word} bounding box for {named name} (" ++
    s!"{a.rect.text}) and {b.word} bounding box for {named second} ({b.rect.text})")

def tooLow? (a : Area) : Result (Option String) := do
  if !a.isEntry then return none
  if !(← a.field.hasItem "entry_text") then return none
  let size ← (← a.field.item "entry_text").itemD "font_size" (.int 14)
  let height ← (← a.rect.nth 3).minus (← a.rect.nth 1)
  if !(← height.isLess size) then return none
  let name ← a.field.item "description"
  return some (s!"FAILURE: entry bounding box height ({height.text}) for {named name}" ++
    " is too short for the text content (font size: " ++ size.text ++
    "). Increase the box height or decrease the font size.")

def complaint (r : Result (Option String)) : Feed String :=
  match r with
  | .ok (some m) => .ofList [m]
  | .ok none => .empty
  | .error f => .failed f

/-- **Everything that is wrong with boxes**: for each its overlaps with later ones, then its height. -/
def complaints : List Area → Feed String
  | [] => .empty
  | a :: rest =>
    .append (.flatMap (fun b => complaint (overlap? a b)) rest) fun _ =>
      .append (complaint (tooLow? a)) fun _ => complaints rest

def areas : (place : Nat) → List Value → Result (List Area)
  | _, [] => .ok []
  | place, field :: rest => do
    let label ← field.item "label_bounding_box"
    let entry ← field.item "entry_bounding_box"
    pure (⟨label, false, place, field⟩ :: ⟨entry, true, place, field⟩ :: (← areas (place + 1) rest))

def enoughMessages : Nat := 20

/-- **The messages about the boxes of fields.** -/
def report (fields : Value) : Result (List String) := do
  let fields ← fields.item "form_fields"
  let count ← fields.size
  let found := complaints (← areas 0 (← fields.elements))
  let messages := s!"Read {Number.intText count} fields" :: found.items
  if enoughMessages ≤ messages.length then
    pure (messages.take enoughMessages ++ ["Aborting further checks; fix bounding boxes and try again"])
  else
    match found.fault? with
    | some f => .error f
    | none => pure (if found.items.isEmpty then messages ++ ["SUCCESS: All bounding boxes are valid"] else messages)

/-! ## Filling forms -/

abbrev Shelf := List (String × Document)

variable (sizes : List (Value × Value)) (shelf : Shelf) (path : String) (page : Value)

def openDocument : Act Document := do
  log (.list ["open_pdf", path])
  match shelf.lookup path with
  | some d => pure d
  | none => Act.fail (noKey path)

def writeDocument : Act Unit := Act.changeTree (·.saveAs (.ofString path) path (.text "pdf"))

def readRecord : Act Value := do ofResult (Json.read (← ofResult ((← get).tree.readTextAs (.ofString path) path)))

def group (id : String) (value : Value) : List (Value × Fields) → List (Value × Fields)
  | [] => [(page, [(id, value)])]
  | (p, values) :: rest => if p == page then (p, Fields.set id value values) :: rest else (p, values) :: group id value rest

def groupAll : List Value → List (Value × Fields) → Result (List (Value × Fields))
  | [], pages => .ok pages
  | field :: rest, pages => do
    if ← field.hasItem "value" then
      let id ← field.item "field_id"
      let page ← (← field.item "page").hashed
      groupAll rest (group page (← id.hashed).text (← field.item "value") pages)
    else groupAll rest pages

def entryFault? (infos : List Fields) (field : Value) : Result (Option String) := do
  let id ← (← field.item "field_id").hashed
  match infos.reverse.find? fun info => (Fields.get? "field_id" info).any (· == id) with
  | none => return some s!"ERROR: \x60{id.text}\x60 is not a valid field ID"
  | some info =>
    let page ← field.item "page"
    let right ← (map info).item "page"
    if !(page == right) then
      return some s!"ERROR: Incorrect page number for \x60{id.text}\x60 (got {page.text}, expected {right.text})"
    if ← field.hasItem "value" then
      valueFault? (.map info) (← field.item "value")
    else return none

def reportFaults (infos : List Fields) : List Value → Act Bool
  | [] => pure false
  | field :: rest => do
    match ← ofResult (entryFault? infos field) with
    | some text =>
      print text
      let _ ← reportFaults infos rest
      pure true
    | none => reportFaults infos rest

def pageIndex : Result Int :=
  match page with
  | .int n => .ok (n - 1)
  | .bool b => .ok (boolInt b - 1)
  | v => do .error (.badType ("list indices must be integers or slices, not " ++ (← v.minus (.int 1)).kindName))

/-- **Fills the fields of a form**, unless a value is wrong. -/
def fillFields (input values output : String) : Act Unit := do
  let fields ← readRecord values
  let fields ← ofResult fields.elements
  let pages ← ofResult (groupAll fields [])
  let infos ← describe (← openDocument shelf input)
  if ← reportFaults infos fields then Act.exit 1
  Act.forEach pages fun (page, values) => do log (.list ["fill", (← ofResult (pageIndex page)), .map values, false])
  log (.list ["need_appearances", true])
  writeDocument output

/-! ## Texts on pages -/

def transform (box imageWidth imageHeight pageWidth pageHeight : Value) : Result (List Value) := do
  let xScale ← pageWidth.quotient imageWidth
  let yScale ← pageHeight.quotient imageHeight
  let across (i : Nat) : Result Value := do (← box.nth i).times xScale
  let up (i : Nat) : Result Value := do pageHeight.minus (← (← box.nth i).times yScale)
  let left ← across 0
  let right ← across 2
  let top ← up 1
  pure [left, ← up 3, right, top]

def pageSize : Result (Value × Value) :=
  match page.get? "size" with
  | some size => do
    pure (← size.nth 0, ← size.nth 1)
  | none => .ok (.int 612, .int 792)

def findPage (number : Value) : List Value → Result Value
  | [] => .error ⟨.exhausted, ""⟩
  | p :: rest => do
    if (← p.item "page_number") == number then pure p else findPage number rest

def sizeOfPage (number : Value) : Result (Value × Value) :=
  let found? := (sizes.zipIdx.find? fun (_, i) => int (Int.ofNat i + 1) == number).map (·.1)
  match found? with
  | some size => .ok size
  | none => .error ⟨.key, number.quoted⟩

def annotation? (form field : Value) : Result (Option Fields) := do
  let number ← field.item "page_number"
  let page ← findPage number (← (← form.item "pages").elements)
  let imageWidth ← page.item "image_width"
  let imageHeight ← page.item "image_height"
  let (width, height) ← sizeOfPage sizes number
  let rect ← transform (← field.item "entry_bounding_box") imageWidth imageHeight width height
  if !(← field.hasItem "entry_text") then return none
  let entry ← field.item "entry_text"
  if !(← entry.hasItem "text") then return none
  let text ← entry.item "text"
  if !text.truthy then return none
  let font ← entry.itemD "font" "Arial"
  let size ← entry.itemD "font_size" (.int 14)
  let color ← entry.itemD "font_color" "000000"
  return some [("text", text), ("rect", .list rect), ("font", font), ("font_size", s!"{size.text}pt"),
    ("font_color", color), ("border_color", .null), ("background_color", .null)]

/-- Writes the texts of fields on their pages, and tells how many there were. -/
def annotateAll (form : Value) : List Value → Act Nat
  | [] => pure 0
  | field :: rest => do
    match ← ofResult (annotation? sizes form field) with
    | none => annotateAll form rest
    | some settings =>
      let number ← ofResult (field.item "page_number")
      log (.list ["annotate", ← ofResult (number.minus (.int 1)), .map settings])
      pure ((← annotateAll form rest) + 1)

/-- **Writes the texts of a description on the pages of a form.** -/
def fillPages (input fields output : String) : Act Unit := do
  let form ← readRecord fields
  let sizes ← ofResult ((← openDocument shelf input).pages.mapM pageSize)
  let count ← annotateAll sizes form (← ofResult (← ofResult (form.item "form_fields")).elements)
  writeDocument output
  print s!"Successfully filled PDF form and saved to {output}"
  print s!"Added {intText count} text annotations"

def drawBoxes (page : Int) : List Value → Act Nat
  | [] => pure 0
  | field :: rest => do
    if (← ofResult (field.item "page_number")) == page then
      let entry ← ofResult (field.item "entry_bounding_box")
      let label ← ofResult (field.item "label_bounding_box")
      Picture.draw "rectangle" [entry] [("outline", "red"), ("width", .int 2)]
      Picture.draw "rectangle" [label] [("outline", "blue"), ("width", .int 2)]
      pure ((← drawBoxes page rest) + 2)
    else drawBoxes page rest

def drawPage (studio : Studio) (page : Int) (fields input output : String) : Act Unit := do
  let data ← readRecord fields
  let plate ← Picture.load studio (.ofString input)
  let count ← drawBoxes page (← ofResult (← ofResult (data.item "form_fields")).elements)
  plate.picture.save (.ofString output) output [] []
  print s!"Created validation image at {output} with {intText count} bounding boxes"

def joinPath (dir name : String) : String := if dir = "" || Text.S.endsWith "/" dir then dir ++ name else s!"{dir}/{name}"

def longestSide : Int := 1000

def limitSize (p : Picture) : Act Picture :=
  if longestSide < p.width || longestSide < p.height then
    let share (side : Int) : Float := ofInt longestSide / ofInt side
    let w := share p.width
    let h := share p.height
    let scale := if h < w then h else w
    let scaled (side : Int) : Int := (truncate? (ofInt side * scale)).getD 0
    p.resize (scaled p.width) (scaled p.height)
  else pure p

def savePages (dir : String) : (number : Nat) → List Picture → Act Unit
  | _, [] => pure ()
  | n, p :: rest => do
    let p ← limitSize p
    let path := joinPath dir s!"page_{intText n}.png"
    p.save (.ofString path) path [] []
    print s!"Saved page {intText n} as {path} (size: ({intText p.width}, {intText p.height}))"
    savePages dir (n + 1) rest

def convertPages (pages : List Picture) (input dir : String) : Act Unit := do
  log (.list ["convert", input, .int 200])
  savePages dir 1 pages
  print s!"Converted {intText pages.length} pages to PNG images"

/-!
## Commands on forms
-/

open Act

def usage {α : Type} (text : String) : Act α := do
  print s!"Usage: {text}"
  exit 1

def boxesCommand : List String → Act Unit
  | [path] => do
    forEach (← ofResult (report (← readRecord path))) print
  | _ => usage "check_bounding_boxes.py [fields.json]"

variable (shelf : Shelf)

def formCommand : List String → Act Unit
  | path :: _ => do
    let d ← openDocument shelf path
    print (if d.fields.truthy then "This PDF has fillable form fields"
      else "This PDF does not have fillable form fields; you will need to visually determine where to enter data")
  | [] => fail ⟨.index, "list index out of range"⟩

def fieldsCommand : List String → Act Unit
  | [input, output] => do
    let infos ← describe (← openDocument shelf input)
    let text ← ofResult (Json.write { indent? := some 2 } (.list (infos.map .map)))
    changeTree (·.saveAs (.ofString output) output (.text text))
    print s!"Wrote {Number.intText infos.length} fields to {output}"
  | _ => usage "extract_form_field_info.py [input pdf] [output json]"

def fillCommand : List String → Act Unit
  | [input, values, output] => fillFields shelf input values output
  | _ => usage "fill_fillable_fields.py [input pdf] [field_values.json] [output pdf]"

def annotateCommand : List String → Act Unit
  | [input, fields, output] => fillPages shelf input fields output
  | _ => usage "fill_pdf_form_with_annotations.py [input pdf] [fields.json] [output pdf]"

def drawCommand (studio : Studio) : List String → Act Unit
  | [page, fields, input, output] => do
    drawPage studio (← ofResult (Number.parseInt page)) fields input output
  | _ => usage ("create_validation_image.py [page number] [fields.json file] [input image path] " ++ "[output image path]")

def convertCommand (pages : List Picture) : List String → Act Unit
  | [input, dir] => convertPages pages input dir
  | _ => usage "convert_pdf_to_images.py [input pdf] [output directory]"

end Sluice.Form
