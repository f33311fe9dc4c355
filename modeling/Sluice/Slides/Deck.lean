import Sluice.Markup.Tree
import Sluice.Picture.Basic

/-!
# Decks

Lengths are whole numbers of a small unit, of which 914400 make an inch and 12700 a point. The **place** of a shape is
the positions on the way to it through the groups of its slide.
-/

namespace Sluice.Slides

inductive Ink
  | unset
  | written (text : String)
  | mixed (red green blue : Int)
  | theme (name : Value)

structure Font where
  name : Value := .null
  size? : Option Int := none
  bold : Value := .null
  italic : Value := .null
  underline : Value := .null
  ink : Ink := .unset

structure Run where
  text : Value
  font : Font := {}

inductive Spacing
  /-- as a multiple of the font size -/
  | factor (x : Quantity)
  | length (n : Int)

structure Properties where
  attributes : Pairs := []
  elements : List (String × Pairs) := []

structure Paragraph where
  runs : List Run := []
  properties? : Option Properties := none
  level : Value := .null
  alignment? : Option String := none
  before? : Option Int := none
  after? : Option Int := none
  spacing? : Option Spacing := none

def Paragraph.text (p : Paragraph) : String := String.join (p.runs.map (·.text.text))

def Paragraph.isBlank (p : Paragraph) : Bool := Text.S.strip p.text = ""

structure Margins where
  top? : Option Int := none
  bottom? : Option Int := none
  left? : Option Int := none
  right? : Option Int := none

/-- How a shape refers to a relation of its slide. -/
inductive Role
  /-- to a picture that is shown -/
  | embed
  | link
  | other
deriving DecidableEq

structure Reference where
  role : Role
  relation : String

structure Frame where
  paragraphs : List Paragraph := []
  margins : Margins := {}
  keepsFirst : Bool := false

structure Outline where
  left? : Option Int := none
  top? : Option Int := none
  width? : Option Int := none
  height? : Option Int := none
  kind? : Option String := none
  references : List Reference := []
  frame? : Option Frame := none

inductive Shape
  | single (outline : Outline)
  | group (outline : Outline) (shapes : List Shape)

def Shape.outline : Shape → Outline
  | single o | group o _ => o

def Shape.withOutline (s : Shape) (o : Outline) : Shape :=
  match s with
  | single _ => single o
  | group _ shapes => group o shapes

structure Relation where
  type : String
  target : String

structure Slide where
  name : String := ""
  shapes : List Shape := []
  isHidden : Bool := false
  relations : List (String × Relation) := []
  layout : Pairs := []
  master? : Option String := none

structure Deck where
  width? : Option Int := none
  height? : Option Int := none
  slides : List Slide := []

abbrev Decks := List (String × Result Deck)

def anyPath : String := "$TMP"

def Decks.open (decks : Decks) (path : String) : Result Deck :=
  match (decks.lookup path).orElse fun _ => decks.lookup anyPath with
  | some d => d
  | none => .error (Value.noKey anyPath)

def inches (n : Int) : Float := Number.ofInt n / 914400.0

def points (n : Int) : Float := Number.ofInt n / 12700.0

def shownInches (n : Int) : Float := Number.roundPlaces 2 (inches n)

def setFields (fields : Fields) : Fields := fields.filter fun (_, v) => !(v == .null)

def Ink.toValue : Ink → Value
  | unset => .null
  | written text => .map [("rgb", text)]
  | mixed r g b => .map [("rgb", .list [r, g, b])]
  | theme name => .map [("theme_color", name)]

def Font.toValue (f : Font) : Value :=
  .map (setFields [("bold", f.bold), ("italic", f.italic), ("underline", f.underline),
    ("size", (f.size?.map .int).getD .null), ("name", f.name), ("color", f.ink.toValue)])

def Properties.toValue (p : Properties) : Value :=
  let record (attributes : Pairs) : Value := .map (attributes.map fun (k, s) => (k, s))
  .list [record p.attributes, .list (p.elements.map fun (name, attributes) => .list [name, record attributes])]

def Spacing.toValue : Spacing → Value
  | factor (.whole n) => n
  | factor (.real x) => .float x
  | length n => n

def Paragraph.toValue (p : Paragraph) : Value :=
  let length (n? : Option Int) : Value := (n?.map .int).getD .null
  .map (("runs", .list (p.runs.map fun r => .list [r.text, r.font.toValue])) ::
    setFields [("pPr", (p.properties?.map (·.toValue)).getD .null),
      ("alignment", (p.alignment?.map .str).getD .null), ("level", p.level), ("space_before", length p.before?),
      ("space_after", length p.after?), ("line_spacing", (p.spacing?.map (·.toValue)).getD .null)])

def Slide.toValue (s : Slide) : Value :=
  .list [s.name, .list ((s.shapes.filterMap (·.outline.frame?)).map fun f => .list (f.paragraphs.map (·.toValue)))]

def save (path : String) (slides : List Slide) : Act Unit := Act.log (.list ["save", path, .list (slides.map (·.toValue))])

def changeAt (f : Shape → Shape) : List Nat → List Shape → List Shape
  | [], shapes => shapes
  | [i], shapes => shapes.modify i f
  | i :: place, shapes => shapes.modify i fun
    | .group o inner => .group o (changeAt f place inner)
    | s => s

def Deck.changeSlide (d : Deck) (i : Nat) (f : Slide → Slide) : Deck := { d with slides := d.slides.modify i f }

/-!
## Overflow

Whether a text is too high for its shape is estimated. Lengths on the screen are in points of which 96 make an inch.
-/

/-! ## Looks of paragraphs -/

open Text Number

structure Look where
  text : String
  isPoint : Bool := false
  level : Value := .null
  alignment? : Option String := none
  before? : Option Float := none
  after? : Option Float := none
  spacing? : Option Float := none
  fontName : Value := .null
  fontSize? : Option Float := none
  bold : Value := .null
  italic : Value := .null
  underline : Value := .null
  color? : Option String := none
  theme : Value := .null

def toldAlignments : List String := ["CENTER", "RIGHT", "JUSTIFY"]

def pointsIfAny (n? : Option Int) : Option Float := (n?.filter (· ≠ 0)).map points

def ifTruthy (v : Value) : Value := if v.truthy then v else .null

def Spacing.inPoints (fontSize? : Option Float) : Spacing → Float
  | factor x => roundPlaces 2 (x.toFloat * fontSize?.getD 12.0)
  | length n => roundPlaces 2 (points n)

/-- **How a paragraph looks.** -/
def Paragraph.look (p : Paragraph) : Look :=
  let isPoint := p.properties?.any fun q => q.elements.any fun (name, _) => name == "buChar" || name == "buAutoNum"
  let font : Font := (p.runs.head?.map (·.font)).getD {}
  let fontSize? := pointsIfAny font.size?
  { text := S.strip p.text
    isPoint
    level := if isPoint then p.level else .null
    alignment? := p.alignment?.filter (toldAlignments.contains ·)
    before? := pointsIfAny p.before?
    after? := pointsIfAny p.after?
    spacing? := p.spacing?.map (·.inPoints fontSize?)
    fontName := ifTruthy font.name
    fontSize?
    bold := font.bold
    italic := font.italic
    underline := font.underline
    color? := match font.ink with
      | .written text => if text = "" then none else some text
      | _ => none
    theme := match font.ink with
      | .theme name => ifTruthy name
      | _ => .null }

def Look.toValue (l : Look) : Value :=
  let number (x? : Option Float) : Value := (x?.map .float).getD .null
  let text (s? : Option String) : Value := (s?.map .str).getD .null
  .map (("text", l.text) :: setFields [("bullet", if l.isPoint then true else .null), ("level", l.level),
    ("alignment", text l.alignment?), ("space_before", number l.before?), ("space_after", number l.after?),
    ("font_name", l.fontName), ("font_size", number l.fontSize?), ("bold", l.bold), ("italic", l.italic),
    ("underline", l.underline), ("color", text l.color?), ("theme_color", l.theme),
    ("line_spacing", number l.spacing?)])

/-!
## Wrapping

Nothing is assumed about what fits.
-/

variable (fits : Chars → Bool) (usual : Int)

def wrapWords : (line : Chars) → List Chars → List Chars
  | line, [] => if line.isEmpty then [] else [line]
  | line, w :: rest =>
    let longer := if line.isEmpty then w else line ++ ' ' :: w
    if fits longer then wrapWords longer rest
    else if line.isEmpty then wrapWords w rest
    else line :: wrapWords w rest

/-- **Breaks a line** where it does not fit. -/
def wrapLine (line : Chars) : List Chars :=
  if line.isEmpty then [[]]
  else if fits line then [line]
  else wrapWords fits [] (splitAtChar ' ' line)

/-! ## Heights of texts -/

def usualSize : Int := 14

def pixels (x : Float) : Int := (truncate? (x * 96.0)).getD 0

def onScreen (x : Float) : Float := x * 96.0 / 72.0

def localName (tag : String) : String := ((S.cutLast "\x7d" tag).map (·.2)).getD tag

def masterSize (master? kind? : Option String) : Int :=
  let style := if kind?.any (S.contains "TITLE" ·) then "titleStyle" else "bodyStyle"
  match master?.bind fun xml => (Markup.Tree.parse xml).toOption with
  | none => usualSize
  | some root =>
    let styles := root.flatten.filter (localName ·.tag == style)
    match (styles.flatMap (·.flatten)).findSome? (·.attribute? "sz") with
    | none => usualSize
    | some text =>
      match parseInt text with
      | .ok n => Int.fdiv n 100
      | .error _ => usualSize

def usable (margins : Margins) (width height : Float) : Int × Int :=
  let margin (n? : Option Int) (default : Float) : Float := ((n?.filter (· ≠ 0)).map inches).getD default
  (pixels (width - margin margins.left? 0.1 - margin margins.right? 0.1),
    pixels (height - margin margins.top? 0.05 - margin margins.bottom? 0.05))

def Look.measuredSize (l : Look) (usual : Int) : Int :=
  match l.fontSize? with
  | some x => (truncate? x).getD usual
  | none => usual

def brokenLines (p : Paragraph) : List Chars := (splitAtChar '\n' p.text.toList).flatMap (wrapLine fits)

def addHeight (total : Float) (position : Nat) (p : Paragraph) : Float :=
  if p.isBlank then total
  else
    let look := p.look
    let line : Float := match look.spacing?.filter (· != 0.0) with
      | some x => onScreen x
      | none => onScreen (ofInt (look.measuredSize usual))
    let lines := (brokenLines fits p).length
    if lines = 0 then total
    else
      let total := if position = 0 then total else (look.before?.map (total + onScreen ·)).getD total
      let total := total + ofInt lines * line
      (look.after?.map (total + onScreen ·)).getD total

def addHeights (total : Float) (position : Nat) : List Paragraph → Float
  | [] => total
  | p :: rest => addHeights (addHeight fits usual total position p) (position + 1) rest

/-- By how many inches a text is too high for its frame, unless that is negligible. -/
def frameOverflow? (studio : Studio) (usual : Int) (frame : Frame) (width height : Float) : Option Float :=
  let (w, h) := usable frame.margins width height
  if w ≤ 0 || h ≤ 0 then none
  else
    let fits (line : Chars) : Bool := line.length * studio.letterWidth ≤ w
    let total := addHeights fits usual 0.0 0 frame.paragraphs
    if total > ofInt h then
      let inches := roundPlaces 2 ((total - ofInt h) / 96.0)
      if inches > 0.05 then some inches else none
    else none

def fontRequests (frame : Frame) (width height : Float) : List (String × Int) :=
  let (w, h) := usable frame.margins width height
  if w ≤ 0 || h ≤ 0 then []
  else (frame.paragraphs.filter (!·.isBlank)).map fun p =>
    let look := p.look
    (look.fontName.str?.getD "Arial", look.measuredSize usual)

/-- By how many inches something reaches beyond an end, unless that is negligible. -/
def slideOverflow? (reach limit : Int) : Option Float :=
  if reach > limit then
    let x := shownInches (reach - limit)
    if x > 0.01 then some x else none
  else none

end Sluice.Slides
