import GuestConsole.Display.Palette
import GuestConsole.Display.Placement

/-!
# Drawings

A drawing is the list of things to do in order: the words to fetch from the
bitmap and the pixels to write on the screen.  It is planned as a value and then
carried out against a screen that may refuse a pixel.
-/

set_option autoImplicit false

namespace GuestConsole.Display

inductive Stroke where
  | fetch (index : Nat)
  | pixel (point : Point) (color : Color)
  deriving DecidableEq, Repr

/-- What has come of a drawing: whether all of it was carried out, the strokes
that were, the latest first, and the screen afterwards. -/
structure Drawn (σ : Type) where
  complete : Bool
  strokes : List Stroke
  screen : σ

/-- Carries a drawing out, up to the first pixel that `put` refuses.  What was
written before stays. -/
def carryOut {σ : Type} (put : Point → Color → σ → Option σ) :
    List Stroke → List Stroke → σ → Drawn σ
  | [], drawn, screen => ⟨true, drawn, screen⟩
  | .fetch index :: rest, drawn, screen => carryOut put rest (.fetch index :: drawn) screen
  | .pixel point color :: rest, drawn, screen =>
      match put point color screen with
      | none => ⟨false, drawn, screen⟩
      | some next => carryOut put rest (.pixel point color :: drawn) next

end GuestConsole.Display
