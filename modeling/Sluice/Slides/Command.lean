import Sluice.Slides.Rearrangement
import Sluice.Slides.Replacement

/-!
# Thumbnails

Grids of small pictures of slides, with a crossed-out picture for each hidden slide.
-/

/-!
## Grids

Each picture has a cell of its own under a label with its number. Quotients are rounded down.
-/

namespace Sluice.Slides

open Number
open Act (fail ofResult print temporary)

structure Layout where
  columns : Int
  width : Int
  height : Int
  fontSize : Int
  labelSpace : Int

namespace Layout

def gap : Int := 20

variable (l : Layout) (i : Nat)

def labelHeight : Int := l.fontSize + l.labelSpace * 2

def capacity (columns : Int) : Int := columns * (columns + 1)

def rows (count : Nat) : Int := Int.fdiv (count + l.columns - 1) l.columns

def gridWidth : Int := l.columns * l.width + (l.columns + 1) * gap

def gridHeight (count : Nat) : Int := l.rows count * (l.height + l.labelHeight) + (l.rows count + 1) * gap

def left : Int :=
  let column := Int.fmod i l.columns
  column * l.width + (column + 1) * gap

def top : Int :=
  let row := Int.fdiv i l.columns
  row * (l.height + l.labelHeight) + (row + 1) * gap

def labelAt (textWidth : Int) : Int × Int := (l.left i + Int.fdiv (l.width - textWidth) 2, l.top i + l.labelSpace)

/-- Where a picture of a size is put: in the middle of its box under the label. -/
def pictureAt (w h : Int) : Int × Int :=
  (l.left i + Int.fdiv (l.width - w) 2, l.top i + l.labelHeight + Int.fdiv (l.height - h) 2)

end Layout

/-- Cuts a list into pieces of at most so many elements, each with the position of its first one. -/
def pieces {α : Type} (size : Nat) (items : List α) : List (Nat × List α) :=
  (List.range ((items.length + size - 1) / size)).map fun k => (k * size, (items.drop (k * size)).take size)

structure Outlines where
  regions : List (Nat × List Entry)
  width : Float
  height : Float

variable (studio : Studio) (outlines? : Option Outlines) (decks : Decks) (columns : Int) (output : Path)

def gridFile (isOnly : Bool) (k : Nat) : Path :=
  if isOnly then output
  else output.parent.joinText s!"{output.stem}-{intText (k + 1)}{output.suffix}"

/-! ## Slides as pictures -/

def thumbnailWidth : Int := 300

def mostColumns : Int := 6

def conversionDensity : Int := 100

def borderWidth : Int := 2

/-- The measures of a grid: the font goes with the width of a picture, the space around labels with the font. -/
def layoutFor (columns width height : Int) : Layout :=
  let share (n : Int) (x : Float) : Int := (truncate? (ofInt n * x)).getD 0
  { columns, width, height, fontSize := share width 0.12, labelSpace := share (share width 0.12) 0.4 }

def outlinesOf (path : Path) : Act Outlines := do
  let deck ← ofResult (decks.open path.toString)
  let slides ← takeInventory studio deck false
  let size (n? : Option Int) (default : Int) : Float := inches ((n?.filter (· ≠ 0)).getD default)
  pure { regions := slides.map fun s => (s.slide, s.entries.map (·.2))
         width := size deck.width? 9144000
         height := size deck.height? 5143500 }

def pointValue (x y : Int) : Value := Picture.sizeValue x y

def hiddenPicture (w h : Int) : Act Picture := do
  let p ← Picture.create "RGB" w h "#F0F0F0"
  let settings : Fields := [("fill", "#CCCCCC"), ("width", .int (max 5 (Int.fdiv (min w h) 100)))]
  Picture.draw "line" [.list [pointValue 0 0, pointValue w h]] settings
  Picture.draw "line" [.list [pointValue w 0, pointValue 0 h]] settings
  pure p

def threeDigits (n : Nat) : String :=
  let s := intText n
  Text.S.repeated (3 - s.length) "0" ++ s

def slidePictures (size : Int × Int) : (number : Nat) → List Slide → (made : List Path) → Act (List Path)
  | _, [], _ => pure []
  | n, s :: rest, made => do
    if s.isHidden then
      let path := temporary.child s!"hidden-{threeDigits n}.jpg"
      (← hiddenPicture size.1 size.2).save path path.toString ["JPEG"] []
      pure (path :: (← slidePictures size (n + 1) rest made))
    else
      match made with
      | [] => slidePictures size (n + 1) rest []
      | path :: made => pure (path :: (← slidePictures size (n + 1) rest made))

def madePictures (t : FileTree) : List Path :=
  (t.children temporary).filterMap fun (name, _) =>
    if Text.S.startsWith "slide-" name && Text.S.endsWith ".jpg" name then some (temporary.child name) else none

def convertSlides (path : Path) : Act (List Path) := do
  print "Analyzing presentation..."
  let deck ← ofResult (decks.open path.toString)
  let hidden := (deck.slides.mapIdx fun i s => (i + 1, s.isHidden)).filterMap fun (n, h) => if h then some n else none
  print s!"Total slides: {intText deck.slides.length}"
  if !hidden.isEmpty then
    print ("Hidden slides: " ++ Value.text (.list (hidden.map fun (n : Nat) => .int n)))
  let document := temporary.joinText s!"{path.stem}.pdf"
  print "Converting to PDF..."
  let r ← Act.runCommand
    ["soffice", "--headless", "--convert-to", "pdf", "--outdir", temporary.toString, path.toString] .null
  if r.code ≠ 0 || !(← get).tree.pathExists document then fail ⟨.failure, "PDF conversion failed"⟩
  print s!"Converting to images at {intText conversionDensity} DPI..."
  let r ← Act.runCommand ["pdftoppm", "-jpeg", "-r", intText conversionDensity, document.toString,
    (temporary.child "slide").toString] .null
  if r.code ≠ 0 then fail ⟨.failure, "Image conversion failed"⟩
  let made := madePictures (← get).tree
  let size ← match made.head? with
    | some first => do
      let plate ← Picture.load studio first
      pure (plate.picture.width, plate.picture.height)
    | none => pure (1920, 1080)
  slidePictures size 1 deck.slides made

def outlineTexts (o : Outlines) (entries : List Entry) (p : Picture) : Act Picture := do
  let p ← if p.mode = "RGBA" then pure p else p.convert "RGBA"
  let _ ← Picture.create "RGBA" p.width p.height (.list [.int 255, .int 255, .int 255, .int 0])
  let scaled (x : Float) (length : Int) (size : Float) : Int := (truncate? (x * (ofInt length / size))).getD 0
  Act.forEach entries fun e => do
    let x := scaled e.left p.width o.width
    let y := scaled e.top p.height o.height
    let w := scaled e.width p.width o.width
    let h := scaled e.height p.height o.height
    Picture.draw "rectangle" [.list [pointValue x y, pointValue (x + w) (y + h)]]
      [("outline", .list [.int 255, .int 0, .int 0, .int 255]), ("width", .int (max 5 (Int.fdiv (min p.width p.height) 150)))]
  p.convert "RGB"

/-- Puts a picture that was made smaller into its box, with a border. -/
def pastePicture (l : Layout) (i : Nat) (size : Int × Int) (p : Picture) : Act Unit := do
  let (w, h) := size
  let (x, y) := l.pictureAt i w h
  Picture.paste { p with width := w, height := h } x y
  Picture.draw "rectangle"
    [.list [pointValue (x - borderWidth) (y - borderWidth), pointValue (x + w + borderWidth - 1) (y + h + borderWidth - 1)]]
    [("outline", "gray"), ("width", borderWidth)]

/-- Puts a picture and its label into its cell. The label is the position in the whole list. -/
def placePicture (l : Layout) (start i : Nat) (path : Path) : Act Unit := do
  let label := intText (start + i)
  let (x, y) := l.labelAt i (studio.textWidth label)
  Picture.draw "text" [pointValue x y, label] [("fill", "black")]
  let plate ← Picture.load studio path
  let p ← match outlines?.bind fun o => (o.regions.lookup (start + i)).map fun entries => (o, entries) with
    | some (o, entries) => outlineTexts o entries plate.picture
    | none => pure plate.picture
  pastePicture l i (plate.shrunk?.getD (l.width, l.height)) p

def placePictures (l : Layout) (start : Nat) : (i : Nat) → List Path → Act Unit
  | _, [] => pure ()
  | i, path :: rest => do
    placePicture studio outlines? l start i path
    placePictures l start (i + 1) rest

/-- The measures of a grid of pictures that are all like the first one. -/
def measureGrid (columns width : Int) (paths : List Path) : Act Layout := do
  match paths.head? with
  | some first =>
    let plate ← Picture.load studio first
    let aspect ← ofResult (Quantity.quotient (.whole plate.picture.height) (.whole plate.picture.width))
    pure (layoutFor columns width (← ofResult (Quantity.truncate (.whole width * aspect))))
  | none => fail ⟨.index, "list index out of range"⟩

variable (measure : List Path → Act Layout)

def drawGrid (start : Nat) (paths : List Path) : Act Picture := do
  let l ← measure paths
  let grid ← Picture.create "RGB" l.gridWidth (l.gridHeight paths.length) "white"
  placePictures studio outlines? l start 0 paths
  pure grid

def saveGrids (isOnly : Bool) : (k : Nat) → List (Nat × List Path) → Act (List Path)
  | _, [] => pure []
  | k, (start, paths) :: rest => do
    let grid ← drawGrid studio outlines? measure start paths
    let file := gridFile output isOnly k
    Act.changeTree fun t => t.makeAll file.parent
    grid.save file file.toString [] [("quality", .int 95)]
    pure (file :: (← saveGrids isOnly (k + 1) rest))

def makeGrids (paths : List Path) : Act (List Path) := do
  let capacity := Layout.capacity columns
  print s!"Creating grids with {intText columns} columns (max {intText capacity} images per grid)"
  if capacity = 0 then fail (.badValue "range() arg 3 must not be zero")
  saveGrids studio outlines? output measure (paths.length ≤ capacity) 0 (pieces capacity.toNat paths)

/-- **Shows a deck as grids of small pictures.** -/
def makeThumbnails (path output : Path) (columns : Int) (outlined : Bool) : Act Unit := Act.withTemporary do
  let outlines? ← if outlined then do
      print "Extracting placeholder regions..."
      let o ← outlinesOf studio decks path
      if !o.regions.isEmpty then
        print s!"Found placeholders on {intText o.regions.length} slides"
      pure (some o)
    else pure none
  let paths ← convertSlides studio decks path
  if paths.isEmpty then
    print "Error: No slides found"
    Act.exit 1
  print s!"Found {intText paths.length} slides"
  let files ← makeGrids studio outlines? columns output (measureGrid studio columns thumbnailWidth) paths
  print s!"Created {intText files.length} grid(s):"
  Act.forEach files fun f => print s!"  - {f.toString}"

/-!
## Commands on decks
-/

open CommandLine Path
open Act (arguments changeTree exit print)

def refuse {α : Type} (text : String) : Act α := do
  print s!"Error: {text}"
  exit 1

def isDeckPath (p : Path) : Bool := Text.S.lower p.suffix == ".pptx"

variable (studio : Studio) (decks : Decks)

def writeInventory (input output : String) (issuesOnly : Bool) : Act Unit := do
  print s!"Extracting text inventory from: {input}"
  if issuesOnly then print "Filtering to include only text shapes with issues (overflow/overlap)"
  let slides ← takeInventory studio (← Act.ofResult (decks.open (ofString input).toString)) issuesOnly
  let path := ofString output
  changeTree (·.makeAll path.parent)
  let text ← Act.ofResult (Json.write { indent? := some 2, ascii := false } (inventoryValue slides))
  changeTree (·.saveText path text)
  print s!"Output saved to: {output}"
  let shapes := total (slides.map (·.entries.length))
  let counted := intText shapes
  let slideCount := intText slides.length
  print (
    if !issuesOnly then s!"Found text in {slideCount} slides with {counted} text elements"
    else if shapes > 0 then s!"Found {counted} text elements with issues in {slideCount} slides"
    else "No issues discovered")

def orRefuse (start : String) (act : Act Unit) : Act Unit := do
  match ← Act.attempt act with
  | .ok () => pure ()
  | .error f =>
    print (start ++ f.message)
    exit 1

def inventoryArguments : List Argument := [.word "input", .word "output", .switch "--issues-only" .null]

def inventoryCommand (argv : List String) : Act Unit := do
  let args ← arguments (CommandLine.parse inventoryArguments argv)
  let input := args.text "input"
  let output := args.text "output"
  let path := Path.ofString input
  if !(← get).tree.pathExists path then refuse s!"Input file not found: {input}"
  if !isDeckPath path then refuse "Input must be a PowerPoint file (.pptx)"
  orRefuse "Error processing presentation: " (writeInventory studio decks input output (args.get "issues_only").truthy)

def replacementUsage : String :=
  "Apply text replacements to PowerPoint presentation.\n\nUsage:\n" ++
  "    python replace.py <input.pptx> <replacements.json> <output.pptx>\n\n" ++
  "The replacements JSON should have the structure output by inventory.py.\n" ++
  "ALL text shapes identified by inventory.py will have their text cleared\n" ++
  "unless \"paragraphs\" is specified in the replacements for that shape.\n"

def replacementCommand : List String → Act Unit
  | [input, json, output] => do
    let input := ofString input
    let json := ofString json
    let t := (← get).tree
    if !t.pathExists input then refuse s!"Input file '{input.toString}' not found"
    if !t.pathExists json then refuse s!"Replacements JSON file '{json.toString}' not found"
    orRefuse "Error applying replacements: "
      (applyReplacements studio decks (fun _ => decks.open anyPath) input json (ofString output))
  | _ => do
    print replacementUsage
    exit 1

def rearrangementArguments : List Argument := [.word "template", .word "output", .word "sequence"]

def rearrangementCommand {σ : Type} (decks : Decks) (reg : Registry σ) (known : σ) (argv : List String) : Act Unit := do
  let args ← arguments (parse rearrangementArguments argv)
  let template := args.text "template"
  let words := Text.S.splitOn "," (args.text "sequence")
  match words.mapM fun w => readInt? w.toList with
  | none => refuse "Invalid sequence format. Use comma-separated integers (e.g., 0,34,34,50,52)"
  | some sequence =>
    if !(← get).tree.pathExists (.ofString template) then refuse s!"Template file not found: {template}"
    let output := ofString (args.text "output")
    changeTree (·.makeAll output.parent)
    match ← Act.attempt (rearrange decks reg known (.ofString template) output sequence) with
    | .ok () => pure ()
    | .error f => if f.kind = .value then refuse f.message else
      print s!"Error processing presentation: {f.message}"
      exit 1

def thumbnailArguments : List Argument :=
  [.word "input", { dest := "output_prefix", arity := .optional, default := "thumbnails" },
    .whole "--cols" (.int 5),
    .switch "--outline-placeholders" .null]

def thumbnailCommand (argv : List String) : Act Unit := do
  let args ← arguments (parse thumbnailArguments argv)
  let input := args.text "input"
  let asked := match args.get "cols" with
    | .int n => n
    | _ => 5
  if asked > mostColumns then
    print s!"Warning: Columns limited to {intText mostColumns} (requested {intText asked})"
  let path := ofString input
  if !(← get).tree.pathExists path || !isDeckPath path then refuse s!"Invalid PowerPoint file: {input}"
  let output := ofString (args.text "output_prefix" ++ ".jpg")
  print s!"Processing: {input}"
  orRefuse "Error: " (makeThumbnails studio decks path output (min asked mostColumns)
    (args.get "outline_placeholders").truthy)

end Sluice.Slides
