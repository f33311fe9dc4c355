import Sluice.Machine.Session

/-!
# Pictures

Drawing is done by a service, so it leaves behind only calls and saved files.
-/

namespace Sluice

structure Picture where
  width : Int
  height : Int
  mode : String := "RGB"

structure Plate where
  picture : Picture
  frames : Nat := 1
  /-- how long a frame is shown, if the file tells -/
  duration? : Option Value := none
  /-- its size when it is made smaller, if that is not the size asked for -/
  shrunk? : Option (Int × Int) := none

/-- What drawing finds: the pictures in files, by their names, and the fonts. -/
structure Studio where
  plates : List (String × Result Plate) := []
  letterWidth : Int := 8
  loadsFonts : Bool := true
  anySize : Bool := true

namespace Picture

def sizeValue (w h : Int) : Value := .list [w, h]

variable (p : Picture)

def size : Value := sizeValue p.width p.height

def toValue : Value := .map [("picture", p.size), ("mode", p.mode)]

open Act

def create (mode : String) (w h : Int) (color : Value) : Act Picture := do
  if !(w = 1 && h = 1) then log (.list ["new", mode, sizeValue w h, color])
  pure ⟨w, h, mode⟩

/-- The picture in a file. A file that is not known holds an ordinary one. -/
def load (studio : Studio) (p : Path) : Act Plate :=
  ofResult ((studio.plates.lookup p.name).getD (.ok { picture := ⟨1600, 900, "RGB"⟩ }))

def convert (mode : String) : Act Picture := do
  log (.list ["convert", mode])
  pure { p with mode }

def resize (w h : Int) : Act Picture := do
  log (.list ["resize", p.size, sizeValue w h])
  pure { p with width := w, height := h }

def quantize (settings : Fields) : Act Picture := do
  log (.list ["quantize", p.size, .map settings])
  pure p

def paste (x y : Int) : Act Unit := log (.list ["paste", p.size, sizeValue x y])

def draw (what : String) (arguments : List Value) (settings : Fields) : Act Unit :=
  log (.list [what, .list arguments, .map settings])

def save (path : Path) (shown : String) (arguments : List Value) (settings : Fields) : Act Unit := do
  log (.list ["save", path.name, p.size, p.mode, .list arguments, .map settings])
  changeTree (·.saveAs path shown (.text ""))

end Picture

def Studio.textWidth (studio : Studio) (text : String) : Int := text.length * studio.letterWidth

def Studio.textHeight : Int := 11

end Sluice
