import GuestConsole.Display.Rect

/-!
# Damage

The guest reports every rectangle that it changes.  The reports between two
renders grow into one bounding box, so that a frame redraws at most one region.
-/

set_option autoImplicit false

namespace GuestConsole.Display

structure OutOfBounds where
  rect : Rect
  bounds : Size
  deriving DecidableEq, Repr

def OutOfBounds.message (fault : OutOfBounds) : String :=
  let extent (width height : UInt16) := toString width.toNat ++ "x" ++ toString height.toNat
  "damage (" ++ toString fault.rect.x.toNat ++ ", " ++ toString fault.rect.y.toNat ++ ", "
    ++ extent fault.rect.width fault.rect.height ++ ") outside "
    ++ extent fault.bounds.width fault.bounds.height ++ " display"

/-- The damage since the last render; nothing is damaged where `rect` has no area. -/
structure Damage where
  rect : Rect := {}
  deriving DecidableEq, Repr

namespace Damage

def isDirty (damage : Damage) : Bool := !damage.rect.isEmpty

/-- Adds a rectangle, which must lie inside the display.  It takes the place of a
box without area, and else the box grows to hold both. -/
def report (damage : Damage) (rect : Rect) (bounds : Size) : Except OutOfBounds Damage :=
  if rect.fits bounds then
    .ok ⟨if damage.rect.isEmpty then rect else damage.rect.union rect⟩
  else .error ⟨rect, bounds⟩

def all (bounds : Size) : Damage := ⟨Rect.covering bounds⟩

def take (damage : Damage) : Rect × Damage := (damage.rect, {})

end Damage

end GuestConsole.Display
