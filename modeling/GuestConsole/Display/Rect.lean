import GuestConsole.Display.Size

/-!
# Rectangles of bitmap pixels
-/

set_option autoImplicit false

namespace GuestConsole.Display

structure Rect where
  x : UInt16 := 0
  y : UInt16 := 0
  width : UInt16 := 0
  height : UInt16 := 0
  deriving DecidableEq, Repr

namespace Rect

def covering (size : Size) : Rect := { width := size.width, height := size.height }

def isEmpty (rect : Rect) : Bool := rect.width == 0 || rect.height == 0

def right (rect : Rect) : Nat := rect.x.toNat + rect.width.toNat

def bottom (rect : Rect) : Nat := rect.y.toNat + rect.height.toNat

/-- The rectangle lies inside a bitmap, and its corner is one of the pixels, also
where it has no area. -/
def fits (rect : Rect) (bounds : Size) : Bool :=
  rect.x < bounds.width && rect.y < bounds.height
    && rect.right ≤ bounds.width.toNat && rect.bottom ≤ bounds.height.toNat

/-- The bounding box of two rectangles.  Its extent is kept modulo 2^16, which
loses nothing for rectangles whose edges fit into a word. -/
def union (a b : Rect) : Rect :=
  let x := min a.x b.x
  let y := min a.y b.y
  { x, y
    width := UInt16.ofNat (max a.right b.right - x.toNat)
    height := UInt16.ofNat (max a.bottom b.bottom - y.toNat) }

end Rect

end GuestConsole.Display
