import Sluice.Slides.Deck

/-!
# Inventories

Which shapes of a deck have a text, where they are and what is wrong with them. The shapes of a slide are numbered in
visual order.
-/

namespace Sluice.Slides

open Text Number

variable (s : Session) (name : String)

def spellings : List String := [name, S.lower name, S.replaceAll " " "" name, S.replaceAll " " "-" name]

def fontPlaces : List Path :=
  let home := Path.ofString ((s.env? "HOME").getD "~")
  if s.platform = "Darwin" then
    [⟨"/", ["System", "Library", "Fonts"]⟩, ⟨"/", ["Library", "Fonts"]⟩, (home.child "Library").child "Fonts"]
  else [⟨"/", ["usr", "share", "fonts", "truetype"]⟩, ⟨"/", ["usr", "local", "share", "fonts"]⟩, home.child ".fonts"]

def fontEnds : List String := if s.platform = "Darwin" then [".ttf", ".otf", ".ttc", ".dfont"] else [".ttf", ".otf"]

def fontIn? (dir : Path) : Option Path :=
  let exact := (spellings name).flatMap fun v => (fontEnds s).map fun e => dir.joinText (v ++ e)
  let part := S.replaceAll " " "" (S.lower name)
  let isSimilar (file : String) : Bool :=
    let file := S.lower file
    S.contains part file && (fontEnds s).any (S.endsWith · file)
  match exact.find? s.tree.pathExists with
  | some p => some p
  | none =>
    ((s.tree.children dir).find? fun (file, _) => s.tree.isFile (dir.child file) && isSimilar file).map
      fun (file, _) => dir.child file

/-- **The file of a font.** -/
def fontFile? : Option Path := ((fontPlaces s).filter s.tree.pathExists).findSome? (fontIn? s name)

/-! ## Visual order

Shapes whose tops are near to that of the first shape of a row belong to that row, which is read from left to right. -/

structure Ruler (ρ : Type) where
  le : ρ → ρ → Bool
  near : ρ → ρ → Bool

def Ruler.inches : Ruler Quantity where
  le := Quantity.le
  near a b :=
    let d := a - b
    Quantity.le (if d.lt 0 then -d else d) (.real 0.5)

variable {α ρ : Type}

def rows (r : Ruler ρ) (top : α → ρ) (first : ρ) (row : List α) : List α → List (List α)
  | [] => [row]
  | a :: rest => if r.near (top a) first then rows r top first (row ++ [a]) rest else row :: rows r top (top a) [a] rest

def comesFirst (r : Ruler ρ) (top left : α → ρ) (a b : α) : Bool :=
  if r.le (top a) (top b) && r.le (top b) (top a) then r.le (left a) (left b) else r.le (top a) (top b)

/-- **The visual order of shapes.** -/
def visualOrder (r : Ruler ρ) (top left : α → ρ) (items : List α) : List α :=
  match items.mergeSort (comesFirst r top left) with
  | [] => []
  | a :: rest => (rows r top (top a) [a] rest).flatMap fun row => row.mergeSort fun x y => r.le (left x) (left y)

/-- The four parts of a rectangle: left, top, width and height. -/
def rectangleParts (v : Value) : Result (Value × Value × Value × Value) :=
  match v.elements with
  | .ok [l, t, w, h] => .ok (l, t, w, h)
  | .ok xs => .error (Value.unpackFault 4 xs.length)
  | .error _ => .error v.noUnpacking

def commonLength (start₁ length₁ start₂ length₂ : Value) : Result Value := do
  let end₁ ← start₁.plus length₁
  let end₂ ← start₂.plus length₂
  let closer ← end₂.isLess end₁
  let later ← start₁.isLess start₂
  Value.minus (if closer then end₂ else end₁) (if later then start₂ else start₁)

/-- **The area that two rectangles have in common**, to two places, if they overlap by more than a tolerance. -/
def overlap? (a b tolerance : Value) : Result (Option Value) := do
  let (l₁, t₁, w₁, h₁) ← rectangleParts a
  let (l₂, t₂, w₂, h₂) ← rectangleParts b
  let width ← commonLength l₁ w₁ l₂ w₂
  let height ← commonLength t₁ h₁ t₂ h₂
  if !(← tolerance.isLess width) then return none
  if !(← tolerance.isLess height) then return none
  return some ((← (← width.times height).quantity).roundTo 2).toValue

/-! ## Entries -/

structure Located where
  place : List Nat
  left : Int
  top : Int
  outline : Outline
  frame : Frame

def shortKind (kind : String) : String :=
  let kind := ((S.cutLast "." kind).map (·.2)).getD kind
  ((S.cutOnce " " kind).map (·.1)).getD kind

def Frame.text (f : Frame) : String := S.join "\n" (f.paragraphs.map (·.text))

def hasText (o : Outline) (f : Frame) : Bool :=
  let text := S.strip f.text
  if text = "" then false
  else
    match o.kind?.map shortKind with
    | some "SLIDE_NUMBER" => false
    | some "FOOTER" => !text.toList.all isDigitLike
    | _ => true

mutual

def locate (place : List Nat) (left top : Int) : Shape → List Located
  | .single o =>
    match o.frame? with
    | some f => if hasText o f then [⟨place, left + o.left?.getD 0, top + o.top?.getD 0, o, f⟩] else []
    | none => []
  | .group o shapes => locateFrom place (left + o.left?.getD 0) (top + o.top?.getD 0) 0 shapes

def locateFrom (place : List Nat) (left top : Int) (i : Nat) : List Shape → List Located
  | [] => []
  | s :: rest => locate (place ++ [i]) left top s ++ locateFrom place left top (i + 1) rest

end

def Slide.located (s : Slide) : List Located := locateFrom [] 0 0 0 s.shapes

structure Entry where
  place : List Nat
  left : Float
  top : Float
  width : Float
  height : Float
  kind? : Option String := none
  usualSize? : Option Float := none
  tooHigh? : Option Float := none
  beyondRight? : Option Float := none
  beyondBottom? : Option Float := none
  overlaps : List (Nat × Value) := []
  warnings : List String := []
  looks : List Look := []

def layoutSize? (layout : Pairs) (kind : String) : Option Float := do
  let root ← (Markup.Tree.parse (← layout.lookup kind)).toOption
  let sizes := (root.flatten.filter (S.contains "defRPr" ·.tag)).filterMap (·.attribute? "sz")
  some ((← (parseFloat (← sizes.find? (· != ""))).toOption) / 100.0)

def handmadePoints : List String := ["• ", "● ", "○ "]

def warningsOf (f : Frame) : List String :=
  if f.paragraphs.any fun p => handmadePoints.any fun mark => S.startsWith mark (S.strip p.text) then
    ["manual_bullet_symbol: use proper bullet formatting"]
  else []

variable (studio : Studio) (deck : Deck)

def entryOf (slide : Slide) (l : Located) : Entry :=
  let o := l.outline
  let w := o.width?.getD 0
  let h := o.height?.getD 0
  let kind? := o.kind?.map shortKind
  let (right?, bottom?) := match deck.width?, deck.height? with
    | some dw, some dh => (slideOverflow? (l.left + w) dw, slideOverflow? (l.top + h) dh)
    | _, _ => (none, none)
  { place := l.place
    left := shownInches l.left
    top := shownInches l.top
    width := shownInches w
    height := shownInches h
    kind?
    usualSize? := o.kind?.bind (layoutSize? slide.layout)
    tooHigh? := frameOverflow? studio (masterSize slide.master? kind?) l.frame (shownInches w) (shownInches h)
    beyondRight? := right?
    beyondBottom? := bottom?
    warnings := warningsOf l.frame
    looks := (l.frame.paragraphs.filter (!·.isBlank)).map (·.look) }

def Entry.rectangle (e : Entry) : Value := .list [.float e.left, .float e.top, .float e.width, .float e.height]

def usualTolerance : Value := .float 0.05

def overlapsWith (entries : List (Nat × Entry)) (i : Nat) (e : Entry) : List (Nat × Value) :=
  entries.filterMap fun (j, f) =>
    if i = j then none
    else
      -- the order of the two does not change the area, but may change how it is rounded
      let common := if i < j then overlap? e.rectangle f.rectangle usualTolerance
        else overlap? f.rectangle e.rectangle usualTolerance
      match common with
      | .ok (some area) => some (j, area)
      | _ => none

def Entry.hasIssues (e : Entry) : Bool :=
  e.tooHigh?.isSome || e.beyondRight?.isSome || e.beyondBottom?.isSome || !e.overlaps.isEmpty || !e.warnings.isEmpty

def entriesOf (slide : Slide) : List (Nat × Entry) :=
  let found := slide.located.map (entryOf studio deck slide)
  let sorted := visualOrder Ruler.inches (fun e => .real e.top) (fun e => .real e.left) found
  let numbered := sorted.mapIdx fun i e => (i, e)
  numbered.map fun (i, e) => (i, { e with overlaps := overlapsWith numbered i e })

structure SlideEntries where
  slide : Nat
  entries : List (Nat × Entry)

/-- **The inventory of a deck**, or what is wrong in it. Slides without entries are left out. -/
def inventory (issuesOnly : Bool) : List SlideEntries :=
  let all := deck.slides.mapIdx fun i slide =>
    let entries := entriesOf studio deck slide
    (⟨i, if issuesOnly then entries.filter (·.2.hasIssues) else entries⟩ : SlideEntries)
  all.filter (!·.entries.isEmpty)

def fontsAsked : List (String × Int) :=
  deck.slides.flatMap fun slide => slide.located.flatMap fun l =>
    fontRequests (masterSize slide.master? (l.outline.kind?.map shortKind)) l.frame
      (shownInches (l.outline.width?.getD 0)) (shownInches (l.outline.height?.getD 0))

def takeInventory (issuesOnly : Bool) : Act (List SlideEntries) := do
  let s ← get
  Act.forEach (fontsAsked deck) fun (name, size) =>
    match fontFile? s name with
    | some p => Act.log (.list ["truetype", p.name, size])
    | none => pure ()
  pure (inventory studio deck issuesOnly)

def slideKey (i : Nat) : String := "slide-" ++ intText i

def shapeKey (i : Nat) : String := "shape-" ++ intText i

def recordIfAny (fields : Fields) : Value := if fields.isEmpty then .null else .map fields

def Entry.toValue (e : Entry) : Value :=
  let number (x? : Option Float) : Value := (x?.map .float).getD .null
  let frame := recordIfAny (setFields [("overflow_bottom", number e.tooHigh?)])
  let slide := recordIfAny (setFields [("overflow_right", number e.beyondRight?), ("overflow_bottom", number e.beyondBottom?)])
  .map ([("left", .float e.left), ("top", .float e.top), ("width", .float e.width), ("height", .float e.height)] ++
    setFields [("placeholder_type", ifTruthy ((e.kind?.map .str).getD .null)),
      ("default_font_size", ifTruthy (number e.usualSize?)),
      ("overflow", recordIfAny (setFields [("frame", frame), ("slide", slide)])),
      ("overlap", if e.overlaps.isEmpty then .null
        else .map [("overlapping_shapes", .map (e.overlaps.map fun (j, area) => (shapeKey j, area)))]),
      ("warnings", if e.warnings.isEmpty then .null else .list (e.warnings.map .str))] ++
    [("paragraphs", .list (e.looks.map (·.toValue)))])

def inventoryValue (slides : List SlideEntries) : Value :=
  .map (slides.map fun s => (slideKey s.slide, .map (s.entries.map fun (j, e) => (shapeKey j, e.toValue))))

end Sluice.Slides
