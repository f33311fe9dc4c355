import Sluice.Proofs.Machine.Path
import Sluice.Proofs.Machine.Session
import Sluice.Proofs.Number.Whole
import Sluice.Slides.Command

/-!
# Grids of small pictures

Along each axis cells follow each other with gaps (`offset`). A run puts each picture into a cell, under the number that
it has in the whole list.
-/

namespace Sluice.Slides

open List Number Act

/-! ## Cells -/

structure Box where
  left : Int
  top : Int
  right : Int
  bottom : Int

def Box.Within (a b : Box) : Prop := b.left ≤ a.left ∧ b.top ≤ a.top ∧ a.right ≤ b.right ∧ a.bottom ≤ b.bottom

def Box.Apart (a b : Box) : Prop := a.right ≤ b.left ∨ b.right ≤ a.left ∨ a.bottom ≤ b.top ∨ b.bottom ≤ a.top

namespace Layout

/-- The measures are natural numbers, and there is a column. -/
structure IsSound (l : Layout) : Prop where
  columns : 1 ≤ l.columns
  width : 0 ≤ l.width
  height : 0 ≤ l.height
  fontSize : 0 ≤ l.fontSize
  labelSpace : 0 ≤ l.labelSpace

variable (l : Layout) (n : Nat)

/-- The place of a label with its picture. -/
def cell (i : Nat) : Box := ⟨l.left i, l.top i, l.left i + l.width, l.top i + (l.height + l.labelHeight)⟩

variable {l n} {i j : Nat}

lemma IsSound.labelHeight (hl : l.IsSound) : 0 ≤ l.labelHeight := by
  have hf := hl.fontSize
  have hs := hl.labelSpace
  rw [Layout.labelHeight]
  omega

end Layout

variable {α : Type} {items : List α} {size : Nat}

/-- If the part ends well, its value and the calls that it notes are related like this. -/
def Ensures (act : Act α) (R : α → List Value → Prop) : Prop :=
  ∀ s a s', act.outcome s = (.ok a, s') → ∃ calls, s'.calls = calls.reverse ++ s.calls ∧ R a calls

variable {β : Type} {act : Act α} {next : α → Act β} {R R' : α → List Value → Prop} {Q : β → List Value → Prop} {a : α}

lemma Ensures.bind (h : Ensures act R) (hn : ∀ a calls, R a calls → Ensures (next a) fun b more => Q b (calls ++ more)) :
    Ensures (act >>= next) Q := by
  intro s b s' hru
  obtain ⟨a, between, hac, hr⟩ := outcome_bind_eq_ok.mp hru
  obtain ⟨calls, hc, ha⟩ := h s a between hac
  obtain ⟨more, hm, hb⟩ := hn a calls ha between b s' hr
  exact ⟨calls ++ more, by rw [hm, hc, reverse_append, List.append_assoc], hb⟩

variable {studio : Studio} {outlines? : Option Outlines} {l : Layout} {start i : Nat}

/-- The call that writes the place of a picture in the whole list over it. -/
def labelCall (studio : Studio) (l : Layout) (start i : Nat) : Value :=
  let label := intText (start + i)
  let (x, y) := l.labelAt i (studio.textWidth label)
  .list ["text", .list [pointValue x y, label], .map [("fill", "black")]]

/-- The calls that put a picture under its number into its cell. -/
def Placed (studio : Studio) (l : Layout) (start i : Nat) (calls : List Value) : Prop :=
  ∃ (outline : List Value) (p : Picture) (x y : Int) (border : Value),
    calls = labelCall studio l start i :: (outline ++ [.list ["paste", p.size, pointValue x y], border]) ∧
      Box.Within ⟨x, y, x + p.width, y + p.height⟩ (l.cell i)

/-- A grid of a run: its pictures from a place of the whole list on, and what was drawn for each. -/
structure Grid where
  start : Nat
  images : List Path
  layout : Layout
  drawn : List (List Value)
  file : Path

namespace Grid

variable (g : Grid)

def extent : Value := pointValue g.layout.gridWidth (g.layout.gridHeight g.images.length)

def calls : List Value :=
  .list ["new", "RGB", g.extent, "white"] :: (g.drawn.flatten ++
    [.list ["save", g.file.name, g.extent, "RGB", .list [], .map [("quality", .int 95)]]])

end Grid

variable {columns : Int} {measure : List Path → Act Layout} {output : Path} {isOnly : Bool}

end Sluice.Slides
