import Mathlib.Algebra.Order.Field.Basic
import Mathlib.Data.Rat.Cast.Order
import Sluice.Form.Filling
import Sluice.Proofs.Feed

/-!
# Boxes that are in each other's way

The report tells of flaws only, of none twice, and ends with success exactly if there are none. All pairs and boxes are
looked at in one order (`candidates`); what is told is cut off after twenty messages.
-/

namespace Sluice.Form

open List

structure Corners (rect : Value) (l t r b : Int) : Prop where
  eq : rect = .list [.int l, .int t, .int r, .int b]
  width : l < r
  height : t < b

variable {a b : Area} {as : List Area} {l t r b' l' t' r' b'' : Int}

lemma Corners.inj {rect} (h : Corners rect l t r b') (h' : Corners rect l' t' r' b'') :
    l = l' ∧ t = t' ∧ r = r' ∧ b' = b'' := by simpa using h.eq.symm.trans h'.eq

inductive Flaw where
  | overlap (a b : Area)
  | low (a : Area)

namespace Flaw

def text? : Flaw → Result (Option String)
  | overlap a b => overlap? a b
  | low a => tooLow? a

def candidates : List Area → List Flaw
  | [] => []
  | a :: rest => rest.map (overlap a) ++ low a :: candidates rest

end Flaw

def success : String := "SUCCESS: All bounding boxes are valid"

end Sluice.Form
