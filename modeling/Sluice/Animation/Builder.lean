import Sluice.Picture.Basic

/-!
# Easing

An easing maps the time of a motion, from 0 to 1, to how far it has come.
-/

namespace Sluice.Animation

inductive Easing
  | linear
  | quadIn | quadOut | quadInOut
  | cubicIn | cubicOut | cubicInOut
  | bounceIn | bounceOut | bounceInOut
  | elasticIn | elasticOut | elasticInOut
  | backIn | backOut | backInOut

namespace Easing

def names : List (String × Easing) :=
  [("linear", linear), ("ease_in", quadIn), ("ease_out", quadOut), ("ease_in_out", quadInOut),
   ("bounce_in", bounceIn), ("bounce_out", bounceOut), ("bounce", bounceInOut),
   ("elastic_in", elasticIn), ("elastic_out", elasticOut), ("elastic", elasticInOut),
   ("back_in", backIn), ("back_out", backOut), ("back_in_out", backInOut),
   ("anticipate", backIn), ("overshoot", backOut)]

def named (name : String) : Easing := (names.lookup name).getD linear

def pi : Float := 3.141592653589793

def bounce (t : Quantity) : Quantity :=
  let fall (t floor : Quantity) : Quantity := 7.5625 * t * t + floor
  let at_ (x : Float) : Quantity := .real (x / 2.75)
  if t.lt (at_ 1) then 7.5625 * t * t
  else if t.lt (at_ 2) then fall (t - at_ 1.5) 0.75
  else if t.lt (at_ 2.5) then fall (t - at_ 2.25) 0.9375
  else fall (t - at_ 2.625) 0.984375

def powerOfTwo (e : Quantity) : Result Float :=
  let x := Float.pow 2.0 e.toFloat
  if x.isInf && !e.toFloat.isInf then .error ⟨.overflow, "math range error"⟩ else .ok x

def swing (t shift : Quantity) : Float := Float.sin (((t - shift) * 5 * .real pi).toFloat)

def overshoot : Quantity := 1.70158

/-- **How far a motion has come at a time.** -/
def eased (e : Easing) (t : Quantity) : Result Quantity :=
  match e with
  | linear => .ok t
  | quadIn => .ok (t * t)
  | quadOut => .ok (t * (2 - t))
  | quadInOut => .ok (if t.lt 0.5 then 2 * t * t else -1 + (4 - 2 * t) * t)
  | cubicIn => .ok (t * t * t)
  | cubicOut => .ok ((t - 1) * (t - 1) * (t - 1) + 1)
  | cubicInOut => .ok (if t.lt 0.5 then 4 * t * t * t else (t - 1) * (2 * t - 2) * (2 * t - 2) + 1)
  | bounceIn => .ok (1 - bounce (1 - t))
  | bounceOut => .ok (bounce t)
  | bounceInOut => .ok (if t.lt 0.5 then (1 - bounce (1 - t * 2)) * 0.5 else bounce (t * 2 - 1) * 0.5 + 0.5)
  | elasticIn =>
    if t.same 0 || t.same 1 then .ok t
    else do
      pure (.real (-(← powerOfTwo (10 * (t - 1))) * swing t 1.1))
  | elasticOut =>
    if t.same 0 || t.same 1 then .ok t
    else do
      pure (.real ((← powerOfTwo (-10 * t)) * swing t 0.1 + 1.0))
  | elasticInOut =>
    if t.same 0 || t.same 1 then .ok t
    else do
      let t := t * 2 - 1
      if t.lt 0 then
        pure (.real (-0.5 * (← powerOfTwo (10 * t)) * swing t 0.1))
      else
        pure (.real ((← powerOfTwo (-10 * t)) * swing t 0.1 * 0.5 + 1.0))
  | backIn =>
    let c := overshoot + 1
    .ok (c * t * t * t - overshoot * t * t)
  | backOut =>
    let c := overshoot + 1
    .ok (1 + c * (t - 1).power 3 + overshoot * (t - 1).power 2)
  | backInOut =>
    let c := overshoot * 1.525
    if t.lt 0.5 then ((2 * t).power 2 * ((c + 1) * 2 * t - c)).quotient 2
    else ((2 * t - 2).power 2 * ((c + 1) * (t * 2 - 2) + c) + 2).quotient 2

def apply (e : Easing) (t : Value) : Result Value :=
  match e with
  | linear => .ok t
  | e => do pure (← e.eased (← t.quantity)).toValue

end Easing

def interpolate (start finish t : Value) (e : Easing) : Result Value := do
  let eased ← e.apply t
  start.plus (← (← finish.minus start).times eased)

inductive Squash
  | vertical
  | horizontal
  | both
  | not

def Squash.named (name : String) : Squash :=
  match name with
  | "vertical" => .vertical
  | "horizontal" => .horizontal
  | "both" => .both
  | _ => .not

def squash (scale intensity : Value) (direction : Squash) : Result (Value × Value) := do
  let (width, height) ← scale.pair
  let scaled (v : Value) (shrinks : Bool) (share : Float) : Result Value := do
    let part ← intensity.times (.float share)
    let factor ← if shrinks then Value.minus (.int 1) part else Value.plus (.int 1) part
    v.times factor
  match direction with
  | .vertical =>
    let height ← scaled height true 0.5
    pure (← scaled width false 0.5, height)
  | .horizontal => pure (← scaled width true 0.5, ← scaled height false 0.5)
  | .both => pure (← scaled width true 0.3, ← scaled height true 0.3)
  | .not => pure (width, height)

/-- The place on an arc between two places, which is highest in the middle. -/
def arc (start finish height t : Value) : Result (Value × Value) := do
  let (x1, y1) ← start.pair
  let (x2, y2) ← finish.pair
  let between (a b : Value) : Result Value := do a.plus (← (← b.minus a).times t)
  let x ← between x1 x2
  let rise ← Value.times (.int 4) height
  let rise ← rise.times t
  let rise ← rise.times (← Value.minus (.int 1) t)
  pure (x, ← (← between y1 y2).minus rise)

open Picture

def blankFrame (width height : Int) (color : Value) : Act Picture := create "RGB" width height color

def circleBox (center radius : Value) : Result (List Value) := do
  let (x, y) ← center.pair
  pure [← x.minus radius, ← y.minus radius, ← x.plus radius, ← y.plus radius]

def drawFilled (kind : String) (points : Result (List Value)) (fill outline width : Value) : Act Unit := do
  draw kind [.list (← Act.ofResult points)] [("fill", fill), ("outline", outline), ("width", width)]

def drawCircle (center radius : Value) : Value → Value → Value → Act Unit := drawFilled "ellipse" (circleBox center radius)

variable (studio : Studio)

def textStart (text : String) (place : Value) : Result Value := do
  let x ← place.nth 0
  let x ← x.minus ((Int.fdiv (studio.textWidth text) 2))
  pure (.list [x, ← (← place.nth 1).minus ((Int.fdiv Studio.textHeight 2))])

def drawText (text : String) (place color : Value) (centred : Bool) : Act Unit := do
  let start ← if centred then Act.ofResult (textStart studio text place) else pure place
  draw "text" [start, text] [("fill", color)]

def colorParts (v : Value) : Result (List Value) := do
  let parts ← v.elements
  if parts.length = 3 then pure parts else .error (Value.unpackFault 3 parts.length)

def rowColor (top bottom : List Value) (row height : Nat) : Result (List Value) :=
  let ratio := Number.ofRatio false row height
  (top.zip bottom).mapM fun (a, b) => do
    let c ← (← a.times (.float (1.0 - ratio))).plus (← b.times (.float ratio))
    pure ((← c.toWhole))

def gradientFrame (width : Int) (height : Nat) (top bottom : Value) : Act Picture := do
  let frame ← create "RGB" width height .null
  let top ← Act.ofResult (colorParts top)
  let bottom ← Act.ofResult (colorParts bottom)
  Act.forEach (List.range height) fun y => do
    let color ← Act.ofResult (rowColor top bottom y height)
    draw "line" [.list [.list [.int 0, .int y], .list [width, .int y]]] [("fill", .list color)]
  pure frame

/-- The corners of a star, outer and inner ones in turn. -/
def starCorners (center size : Value) : Result (List Value) := do
  let (x, y) ← center.pair
  (List.range 10).mapM fun i => do
    let angle := Number.ofInt (Int.ofNat i * 36 - 90) * Easing.pi / 180.0
    let radius ← if i % 2 = 0 then pure size else size.times (.float 0.4)
    let dx ← radius.times (.float angle.cos)
    let dy ← radius.times (.float angle.sin)
    pure (.list [← x.plus dx, ← y.plus dy])

def drawStar (center size : Value) : Value → Value → Value → Act Unit := drawFilled "polygon" (starCorners center size)

/-!
## Building animations

A builder gathers frames of one size, drops those that hardly differ from the one before, and writes them.
-/

open Number Act

inductive Tone
  /-- all points have the same value -/
  | even (level : Nat)
  /-- the values point by point -/
  | each (levels : List Nat)

structure Raster where
  height : Nat
  width : Nat
  depth : Nat := 3
  tone : Tone

namespace Raster

variable (r : Raster)

def count : Nat := r.height * r.width * r.depth

def levels : List Nat :=
  match r.tone with
  | .even n => List.replicate r.count n
  | .each ns => ns

def gap (a b : Nat) : Nat := if a ≤ b then b - a else a - b

def distance (r s : Raster) : Nat :=
  match r.tone, s.tone with
  | .even a, .even b => gap a b * r.count
  | _, _ => total ((r.levels.zip s.levels).map fun (a, b) => gap a b)

/-- How similar two frames are, from 0 to 1. -/
def similarity (r s : Raster) : Float :=
  let mean := (ofRatio false (r.distance s) r.count).toFloat32.toFloat
  1.0 - mean / 255.0

def picture : Picture := ⟨r.width, r.height, "RGB"⟩

def black (p : Picture) : Raster := { height := p.height.toNat, width := p.width.toNat, tone := .even 0 }

def shape : Value := .list [.int r.height, .int r.width, .int r.depth]

end Raster

/-- A frame that is added: a picture or an array of points. -/
inductive NewFrame
  | picture (p : Picture)
  | raster (r : Raster)

structure Builder where
  width : Nat := 480
  height : Nat := 480
  rate : Value := .int 15
  frames : List Raster := []

namespace Builder

variable (b : Builder)

def summary : Value := .list [.int b.width, .int b.height, .int b.frames.length]

def fit (width height : Nat) (r : Raster) : Act Raster := do pure (.black (← r.picture.resize width height))

def add (f : NewFrame) : Act Builder := do
  let r ← match f with
    | .picture p => do
      pure (Raster.black (← p.convert "RGB"))
    | .raster r => pure r
  let r ← if r.height = b.height && r.width = b.width then pure r else fit b.width b.height r
  pure { b with frames := b.frames ++ [r] }

def addAll (b : Builder) : List NewFrame → Act Builder
  | [] => pure b
  | f :: fs => do (← b.add f).addAll fs

/-- **The frames that differ from the kept one before them.** -/
def thinned (threshold : Float) (kept : Raster) : List Raster → List Raster
  | [] => []
  | r :: rs => if kept.similarity r < threshold then r :: thinned threshold r rs else thinned threshold kept rs

def dedupe (threshold : Float) : Builder :=
  match b.frames with
  | [] => b
  | r :: rs => { b with frames := r :: thinned threshold r rs }

def wholeRoot (n : Nat) : Nat := (n.toFloat.sqrt).toUInt64.toNat

def paletteSize (points : Nat) : Result (Nat × Nat) :=
  let width := min 512 (wholeRoot points)
  if width = 0 then .error ⟨.division, "integer division or modulo by zero"⟩
  else .ok (width, (points + width - 1) / width)

/-- The frames from which the common colours are taken: at most five, evenly spread. -/
def samples (frames : List Raster) : List Raster :=
  let n := min 5 frames.length
  (List.range n).filterMap fun i => frames[i * frames.length / n]?

def reduce (settings : Fields) (r : Raster) : Act Raster := do
  let _ ← (← r.picture.quantize settings).convert "RGB"
  pure r

def mapFrames (step : Raster → Act Raster) : List Raster → Act (List Raster)
  | [] => pure []
  | r :: rs => do pure ((← step r) :: (← mapFrames step rs))

def optimize (colors : Value) (common : Bool) : Act (List Raster) := do
  if common && 1 < b.frames.length then
    let points := total ((samples b.frames).map fun r => r.height * r.width)
    let (width, height) ← ofResult (paletteSize points)
    let palette ← Picture.quantize ⟨width, height, "RGB"⟩ [("colors", colors), ("method", .int 2)]
    mapFrames (reduce [("palette", palette.toValue), ("dither", .int 1)]) b.frames
  else mapFrames (reduce [("colors", colors), ("method", .int 2), ("dither", .int 1)]) b.frames

def everyNth (n : Nat) (frames : List Raster) : List Raster :=
  (List.range frames.length).filterMap fun i => if i % n = 0 then frames[i]? else none

structure Saving where
  colors : Value := .int 128
  forEmoji : Bool := false
  dropsRepeats : Bool := false
  octets : Nat := 2048

def shrink : Act Builder := do
  let b ← if 128 < b.width || 128 < b.height then do
      print s!"  Resizing from {intText b.width}x{intText b.height} to 128x128 for emoji"
      let frames ← mapFrames (fit 128 128) b.frames
      pure { b with width := 128, height := 128, frames }
    else pure b
  if 12 < b.frames.length then
    print s!"  Reducing frames from {intText b.frames.length} to ~12 for emoji size"
    pure { b with frames := everyNth (max 1 (b.frames.length / 12)) b.frames }
  else pure b

structure Saved where
  path : Path
  octets : Nat
  builder : Builder
  frames : Nat
  colors : Value
  seconds : Value

namespace Saved

variable (s : Saved)

def kilobytes : Float := ofRatio false s.octets 1024

def megabytes : Float := s.kilobytes / 1024.0

def dimensions : String := s!"{intText s.builder.width}x{intText s.builder.height}"

def toValue : Value :=
  .map [("path", s.path.toString), ("size_kb", .float s.kilobytes), ("size_mb", .float s.megabytes),
    ("dimensions", s.dimensions), ("frame_count", .int s.frames), ("fps", s.builder.rate),
    ("duration_seconds", s.seconds), ("colors", s.colors)]

def lines (emoji : Bool) : List String :=
  let size := fixed 1 s.kilobytes ++ " KB"
  ["\n✓ GIF created successfully!", "  Path: " ++ s.path.toString, s!"  Size: {size} ({fixed 2 s.megabytes} MB)",
   "  Dimensions: " ++ s.dimensions,
   s!"  Frames: {intText s.frames} @ {s.builder.rate.text} fps",
   s!"  Duration: {fixed 1 ((s.seconds.quantity?.getD 0).toFloat)}s",
   "  Colors: " ++ s.colors.text] ++
  (if emoji then ["  Optimized for emoji (128x128, reduced colors)"] else []) ++
  (if 1.0 < s.megabytes then
    [s!"\n  Note: Large file size ({size})", "  Consider: fewer frames, smaller dimensions, or fewer colors"] else [])

end Saved

def fewerColors (v : Value) (n : Int) : Result Value := do pure (if (← Value.isLess n v) then n else v)

variable (b : Builder)

def prepare (s : Saving) : Act Builder := do
  if b.frames.isEmpty then fail (.badValue "No frames to save. Add frames with add_frame() first.")
  let thin := if s.dropsRepeats then b.dedupe 0.9995 else b
  let removed := b.frames.length - thin.frames.length
  if 0 < removed then
    print s!"  Removed {intText removed} nearly identical frames (preserved subtle animations)"
  if s.forEmoji then thin.shrink else pure thin

/-- **Writes an animation that is ready to a file.** -/
def write (path : Path) (s : Saving) : Act Saved := do
  let colors ← if s.forEmoji then ofResult (fewerColors s.colors 48) else pure s.colors
  let frames ← b.optimize colors true
  let shown ← ofResult (Value.quotient (.int 1000) b.rate)
  log (.list ["imwrite", .list (frames.map (·.shape)), .map [("duration", shown), ("loop", .int 0)]])
  changeTree (·.saveAs path path.toString (.filler s.octets))
  let seconds ← ofResult (Value.quotient (.int frames.length) b.rate)
  let saved : Saved := ⟨path, s.octets, b, frames.length, colors, seconds⟩
  forEach (saved.lines s.forEmoji) print
  pure saved

/-!
## Steps

What a step changes stays, even if the step fails later on.
-/

inductive Step
  | add (frames : List NewFrame)
  | dedupe (threshold : Float)
  | optimize (colors : Value) (common : Bool)
  | save (path : Path) (how : Saving)
  | clear

def run : Step → Act (Except Fault Value × Builder)
  | .add frames => do
    let b ← b.addAll frames
    pure (.ok b.summary, b)
  | .dedupe threshold =>
    let thin := b.dedupe threshold
    pure (.ok (.int (b.frames.length - thin.frames.length)), thin)
  | .optimize colors common => do
    match ← attempt (b.optimize colors common) with
    | .ok frames => pure (.ok (.list (frames.map (·.shape))), b)
    | .error f => pure (.error f, b)
  | .save path how => do
    match ← attempt (b.prepare how) with
    | .error f => pure (.error f, b)
    | .ok b =>
      match ← attempt (b.write path how) with
      | .ok saved => pure (.ok saved.toValue, b)
      | .error f => pure (.error f, b)
  | .clear =>
    let b := { b with frames := [] }
    pure (.ok b.summary, b)

end Builder

/-!
## Checks of animations

Whether the size of an animation is one that a chat accepts.
-/

structure Finding where
  path : Path
  octets : Nat
  plate : Plate
  /-- how long it runs and how many frames it shows a second -/
  pace? : Option (Quantity × Quantity)

def Plate.pace (p : Plate) : Result (Quantity × Quantity) := do
  let shown := p.duration?.getD (.int 100)
  let total ← shown.times (.int p.frames)
  let total ← total.quotient (.int 1000)
  let total ← total.quantity
  if Quantity.lt 0 total then
    pure (total, ← (Quantity.whole p.frames).quotient total)
  else pure (total, 0)

namespace Finding

variable (f : Finding)

def width : Int := f.plate.picture.width

def height : Int := f.plate.picture.height

def isOptimal : Bool := f.width = 128 && f.height = 128

def fitsEmoji : Bool := f.width = f.height && 64 ≤ f.width && f.width ≤ 128

/-- Whether the size fits a message. -/
def fitsMessage : Bool :=
  let small := min f.width f.height
  let large := max f.width f.height
  0 < small && large ≤ 2 * small && 320 ≤ small && small ≤ 640

def passes (emoji : Bool) : Bool := if emoji then f.fitsEmoji else f.fitsMessage

def kilobytes : Float := ofRatio false f.octets 1024

def megabytes : Float := f.kilobytes / 1024.0

def toValue (emoji : Value) : Value :=
  .map [("file", f.path.toString), ("passes", (f.passes emoji.truthy)), ("width", f.width),
    ("height", f.height), ("size_kb", .float f.kilobytes), ("size_mb", .float f.megabytes),
    ("frame_count", .int f.plate.frames), ("duration_seconds", (f.pace?.map (·.1.toValue)).getD .null),
    ("fps", (f.pace?.map (·.2.toValue)).getD .null), ("is_emoji", emoji),
    ("optimal", if emoji.truthy then f.isOptimal else .null)]

def lines (emoji : Bool) : List String :=
  let fixed (n : Nat) (x : Float) : String := fixed n x
  let kind := if emoji && f.fitsEmoji then (if f.isOptimal then " (optimal)" else " (acceptable)") else ""
  let more := if 1.0 ≤ f.megabytes then s!" ({fixed 2 f.megabytes} MB)" else ""
  let pace := match f.pace? with
    | some (total, rate) => if rate.toValue.truthy then s!" @ {fixed 1 rate.toFloat} fps ({fixed 1 total.toFloat}s)" else ""
    | none => ""
  [s!"\nValidating {f.path.name}:", s!"  Dimensions: {intText f.width}x{intText f.height}{kind}",
   s!"  Size: {fixed 1 f.kilobytes} KB{more}",
   s!"  Frames: {intText f.plate.frames}{pace}"] ++
  (if f.passes emoji then []
    else ["  Note: " ++ (if emoji then "Emoji should be 128x128" else "Unusual dimensions for Slack")]) ++
  (if 5.0 < f.megabytes then ["  Note: Large file size - consider fewer frames/colors"] else [])

end Finding

def inspect (path : Path) : Act (Except String Finding) := do
  match (← get).tree.find? path with
  | none => pure (.error s!"File not found: {path.toString}")
  | some node =>
    let octets := match node with
      | .file c _ => FileTree.Content.size c
      | .directory => 4096
    match ← Act.attempt (Picture.load studio path) with
    | .error f => pure (.error s!"Failed to read GIF: {f.message}")
    | .ok plate => pure (.ok ⟨path, octets, plate, (Plate.pace plate).toOption⟩)

def check (path : String) (emoji : Value) (verbose : Bool) : Act (Bool × Value) := do
  match ← inspect studio (.ofString path) with
  | .error text => pure (false, .map [("error", text)])
  | .ok f =>
    if verbose then Act.forEach (f.lines emoji.truthy) Act.print
    pure (f.passes emoji.truthy, f.toValue emoji)

end Sluice.Animation
