import Sluice.Slides.Inventory

/-!
# Replacements

All texts of an inventory are cleared; shapes for which there are new paragraphs get them. If then something is wrong,
the deck is not saved.
-/

namespace Sluice.Slides

open Text Number
open Act (fail ofResult print)
open Fields (get? has)

def distinctFields : Json.Close := fun fields => do
  let record ← fields.foldlM (fun (seen : Fields) (k, v) =>
    if has seen k then Except.error s!"Duplicate key found in JSON: '{k}'" else .ok (seen ++ [(k, v)])) []
  return .map record

def readDistinct (text : String) : Result Value :=
  match Json.readWith distinctFields text.toList with
  | .ok v => .ok v
  | .error stop => .error (stop.fault text.toList)

def fieldsFor (member : String) : Value → Result Fields
  | .map fields => .ok fields
  | v => .error (v.noMember member)

def preview (key : String) (e : Entry) : String :=
  match e.looks with
  | l :: _ =>
    let start := S.take 50 l.text
    key ++ " ('" ++ (if l.text.length > 50 then start ++ "..." else start) ++ "')"
  | [] => key

def slideFaults (key : String) (entries : List (String × Entry)) (given : Fields) : List String :=
  given.filterMap fun (shape, _) =>
    if (entries.lookup shape).isSome then none
    else
      let unused := (entries.filter fun (k, _) => !has given k).map fun (k, e) => preview k e
      let told := if unused.isEmpty then "none" else S.join ", " (unused.mergeSort fun a b => decide (a ≤ b))
      some s!"Shape '{shape}' not found on '{key}'. Shapes without replacements: {told}"

def SlideEntries.named (s : SlideEntries) : List (String × Entry) := s.entries.map fun (j, e) => (shapeKey j, e)

variable (slides : List SlideEntries) (p : Paragraph) (given : Fields) (replacements : Value)

def replacementFaults : Result (List String) := do
  let lists ← (← fieldsFor "items" replacements).mapM fun (key, given) => do
    if !S.startsWith "slide-" key then return []
    match slides.find? fun s => slideKey s.slide == key with
    | none => return [s!"Slide '{key}' not found in inventory"]
    | some s => return slideFaults key s.named (← fieldsFor "keys" given)
  return lists.flatten

/-! ## New paragraphs -/

def pointElements : List String := ["buChar", "buNone", "buAutoNum", "buFont"]

def lengthOfPoints (v : Value) : Result Int := do (← v.times (.int 12700)).toWhole

def setAttribute (name value : String) (attributes : Pairs) : Pairs :=
  if (attributes.lookup name).isSome then attributes.map fun (k, v) => if k == name then (k, value) else (k, v)
  else attributes ++ [(name, value)]

def Properties.indented (p : Properties) (margin indent : Int) : Properties :=
  { p with attributes := setAttribute "indent" (intText indent) (setAttribute "marL" (intText margin) p.attributes) }

def pointIndents (size level : Value) : Result (Int × Int) := do
  let steps ← Value.plus (.float 1.6) (← level.times (.float 1.6))
  let margin ← (← (← size.times steps).times (.int 12700)).toWhole
  let indent ← (← (← size.negative).times (.float 0.8)).times (.int 12700)
  return (margin, ← indent.toWhole)

def setPoint : Result Paragraph := do
  let field (name : String) (default : Value) : Value := (get? name given).getD default
  let old := p.properties?.getD {}
  let old := { old with elements := old.elements.filter fun (name, _) => !(pointElements.any (S.endsWith · name)) }
  if (field "bullet" false).truthy then
    let level := field "level" (.int 0)
    let (margin, indent) ← pointIndents (field "font_size" (.float 18.0)) level
    let new := old.indented margin indent
    return { p with
      level
      properties? := some { new with elements := new.elements ++ [("a:buChar", [("char", "•")])] }
      alignment? := if has given "alignment" then p.alignment? else some "LEFT" }
  else
    let new := old.indented 0 0
    return { p with properties? := some { new with elements := ("a:buNone", []) :: new.elements } }

def setAlignment : Result Paragraph :=
  match get? "alignment" given with
  | some (.str name) => .ok (if name == "LEFT" || toldAlignments.contains name then { p with alignment? := some name } else p)
  | some v => v.hashed.map fun _ => p
  | none => .ok p

def setSpaces : Result Paragraph := do
  let length? (name : String) (default : Option Int) : Result (Option Int) :=
    match get? name given with
    | some v => (lengthOfPoints v).map some
    | none => .ok default
  let before? ← length? "space_before" p.before?
  let after? ← length? "space_after" p.after?
  let spacing? ← length? "line_spacing" none
  return { p with before?, after?, spacing? := (spacing?.map .length).orElse fun _ => p.spacing? }

def colorPart (pair : Chars) : Result Int :=
  let (negative, digits) := takeSign (plainDigits (strip pair))
  match digits.mapM hexValue? with
  | some (d :: ds) =>
    let n : Nat := (d :: ds).foldl (fun n d => 16 * n + d) 0
    .ok (if negative then -(n : Int) else n)
  | _ => .error (.badValue s!"invalid literal for int() with base 16: {S.quoted (String.ofList pair)}")

def themeColors : List String :=
  ["ACCENT_1", "ACCENT_2", "ACCENT_3", "ACCENT_4", "ACCENT_5", "ACCENT_6", "BACKGROUND_1", "BACKGROUND_2",
    "DARK_1", "DARK_2", "LIGHT_1", "LIGHT_2", "TEXT_1", "TEXT_2", "HYPERLINK", "FOLLOWED_HYPERLINK"]

def givenInk : Result (Ink × Option String) :=
  match get? "color" given with
  | some (.str text) =>
    match text.toList.dropWhile (· == '#') with
    | [a, b, c, d, e, f] => do
      return (.mixed (← colorPart [a, b]) (← colorPart [c, d]) (← colorPart [e, f]), none)
    | _ => .ok (.unset, none)
  | some v => .error (v.noMember "lstrip")
  | none =>
    match get? "theme_color" given with
    | none => .ok (.unset, none)
    | some (.str name) =>
      if themeColors.contains name then .ok (.theme name, none)
      else .ok (.unset, some s!"  WARNING: Unknown theme color name '{name}'")
    | some v => .error (.badType s!"attribute name must be string, not '{v.kindName}'")

def givenFont : Result (Font × Option String) := do
  let field (name : String) : Value := (get? name given).getD .null
  let size? ← match get? "font_size" given with
    | some v => (lengthOfPoints v).map some
    | none => .ok none
  let (ink, warning?) ← givenInk given
  return ({ name := field "font_name", size?, bold := field "bold", italic := field "italic"
            underline := field "underline", ink }, warning?)

def newParagraph (given : Value) : Result (Paragraph × Option String) := do
  let given ← fieldsFor "get" given
  let p ← setPoint p given
  let p ← setAlignment p given
  let p ← setSpaces p given
  let (font, warning?) ← givenFont given
  let text := (get? "text" given).getD ""
  return ({ p with runs := [⟨text, font⟩] }, warning?)

def newParagraphs : (left : Paragraph) → List Value → Act (List Paragraph)
  | _, [] => pure []
  | p, v :: rest => do
    let (q, warning?) ← ofResult (newParagraph p v)
    match warning? with
    | some text => print text
    | none => pure ()
    pure (q :: (← newParagraphs {} rest))

def Frame.cleared (f : Frame) : Paragraph :=
  match f.keepsFirst, f.paragraphs with
  | true, p :: _ => { p with runs := [] }
  | _, _ => {}

def Shape.withText (paragraphs : List Paragraph) (s : Shape) : Shape :=
  s.withOutline { s.outline with frame? := s.outline.frame?.map fun f => { f with paragraphs } }

/-- How many shapes were replaced, and how many there were. -/
structure Tally where
  cleared : Nat := 0
  replaced : Nat := 0

def shapeAt? : (place : List Nat) → List Shape → Option Shape
  | [], _ => none
  | [i], shapes => shapes[i]?
  | i :: place, shapes =>
    match shapes[i]? with
    | some (.group _ inner) => shapeAt? place inner
    | _ => none

def replaceShape (deck : Deck) (slide : Nat) (place : List Nat) (given : Value) (t : Tally) : Act (Deck × Tally) := do
  let frame := do (← shapeAt? place (← deck.slides[slide]?).shapes).outline.frame?
  let left := (frame.getD {}).cleared
  let change (ps : List Paragraph) : Deck :=
    deck.changeSlide slide fun s => { s with shapes := changeAt (Shape.withText ps) place s.shapes }
  let t := { t with cleared := t.cleared + 1 }
  if ← ofResult (given.hasItem "paragraphs") then
    let ps ← newParagraphs left (← ofResult (← ofResult (given.item "paragraphs")).elements)
    pure (change (if ps.isEmpty then [left] else ps), { t with replaced := t.replaced + 1 })
  else pure (change [left], t)

def replaceSlide (slide : Nat) : List (Nat × Entry) → Deck → Tally → Act (Deck × Tally)
  | [], deck, t => pure (deck, t)
  | (j, e) :: rest, deck, t => do
    let here ← ofResult (replacements.itemD (slideKey slide) (.map []))
    let (deck, t) ← replaceShape deck slide e.place (← ofResult (here.itemD (shapeKey j) (.map []))) t
    replaceSlide slide rest deck t

def replaceAll : List SlideEntries → Deck → Tally → Act (Deck × Tally)
  | [], deck, t => pure (deck, t)
  | s :: rest, deck, t => do
    let (deck, t) ← replaceSlide replacements s.slide s.entries deck t
    replaceAll rest deck t

/-! ## Comparing -/

def tooHighIn? (slide shape : Nat) : Option Float := do (← (← slides.find? (·.slide = slide)).entries.lookup shape).tooHigh?

/-- A text that has become too high, or higher than it was. -/
structure Worsening where
  slide : Nat
  shape : Nat
  before : Float
  after : Float

def isWorse (before after : Float) : Bool := after > before + 0.01

/-- **The texts that are too high by more than before.** Shapes are compared by their names. -/
def worsened (before after : List SlideEntries) : List Worsening :=
  after.flatMap fun s => s.entries.filterMap fun (j, e) => do
    let now ← e.tooHigh?
    let was := (tooHighIn? before s.slide j).getD 0.0
    if isWorse was now then some ⟨s.slide, j, was, now⟩ else none

def Worsening.message (w : Worsening) : String :=
  s!"{slideKey w.slide}/{shapeKey w.shape}: overflow worsened by {fixed 2 (w.after - w.before)}" ++
    s!"\" (was {fixed 2 w.before}\", now {fixed 2 w.after}\")"

def warningsIn : List String :=
  slides.flatMap fun s => s.entries.flatMap fun (j, e) => e.warnings.map (s!"{slideKey s.slide}/{shapeKey j}: " ++ ·)

def printPoints (title : String) (points : List String) : Act Unit := do
  if points.isEmpty then return
  print title
  Act.forEach points fun p => print s!"  - {p}"

def refuseIssues (before after : List SlideEntries) : Act Unit := do
  let worse := (worsened before after).map (·.message)
  let warnings := warningsIn after
  if worse.isEmpty && warnings.isEmpty then return
  print "\nERROR: Issues detected in replacement output:"
  printPoints "\nText overflow worsened:" worse
  printPoints "\nFormatting warnings:" warnings
  print "\nPlease fix these issues before saving."
  fail (.badValue s!"Found {intText worse.length} overflow error(s) and {intText warnings.length} warning(s)")

def refuseFaults (faults : List String) : Act Unit := do
  if faults.isEmpty then return
  printPoints "ERROR: Invalid shapes in replacement JSON:" faults
  print "\nPlease check the inventory and update your replacement JSON."
  print "You can regenerate the inventory with: python inventory.py <input.pptx> <output.json>"
  fail (.badValue s!"Found {intText faults.length} validation error(s)")

/-- **Applies replacements to a deck.** `reload` is what comes back when the changed deck is saved and opened. -/
def applyReplacements (studio : Studio) (decks : Decks) (reload : Deck → Result Deck) (input json output : Path) :
    Act Unit := do
  let deck ← ofResult (decks.open input.toString)
  let before ← takeInventory studio deck false
  let replacements ← ofResult (readDistinct (← ofResult ((← get).tree.readText json)))
  refuseFaults (← ofResult (replacementFaults before replacements))
  let (changed, tally) ← replaceAll replacements before deck {}
  save anyPath changed.slides
  refuseIssues before (← takeInventory studio (← ofResult (reload changed)) false)
  save output.toString changed.slides
  print s!"Saved updated presentation to: {output.toString}"
  print s!"Processed {intText changed.slides.length} slides"
  print s!"  - Shapes processed: {intText tally.cleared}"
  print s!"  - Shapes cleared: {intText tally.cleared}"
  print s!"  - Shapes replaced: {intText tally.replaced}"

end Sluice.Slides
