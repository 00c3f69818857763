import GuestConsole.Display.Size

/-!
# Where the bitmap stands on the screen

The bitmap is centred, axis by axis, as long as the screen is neither smaller
than the bitmap nor more than about twice as large.
-/

set_option autoImplicit false

namespace GuestConsole.Display

/-- A pixel of the physical screen, which may lie outside of it. -/
structure Point where
  x : Int32 := 0
  y : Int32 := 0
  deriving DecidableEq, Repr

def Point.offset (origin : Point) (x y : Nat) : Point :=
  ⟨origin.x + Int32.ofNat x, origin.y + Int32.ofNat y⟩

structure Extent where
  width : UInt32 := 0
  height : UInt32 := 0
  deriving DecidableEq, Repr

/-- The first screen column (or row) of a centred bitmap.  It is 0 where the
screen is smaller than the bitmap or the margin exceeds half of the bitmap. -/
def centeredAxis (screen : UInt32) (bitmap : UInt16) : Int32 :=
  if screen.toNat < bitmap.toNat then 0
  else
    let margin := (screen.toNat - bitmap.toNat) / 2
    if margin > bitmap.toNat / 2 then 0 else Int32.ofNat margin

def centeredOrigin (screen : Extent) (size : Size) : Point :=
  ⟨centeredAxis screen.width size.width, centeredAxis screen.height size.height⟩

/-- The bitmap pixel nearest to a screen point.  The difference stops at the
smallest and the largest coordinate instead of wrapping around. -/
def Size.locate (size : Size) (origin point : Point) : Position :=
  size.clamp (Int32.ofIntClamp (point.x.toInt - origin.x.toInt))
    (Int32.ofIntClamp (point.y.toInt - origin.y.toInt))

end GuestConsole.Display
