import GuestConsole.Display.Blit

/-!
# The cursor

The cursor is drawn over the bitmap and nothing behind it is saved.  Before it is
drawn anew, the rows that it covered are redrawn from the bitmap.
-/

set_option autoImplicit false

namespace GuestConsole.Display

/-- Sixteen rows of sixteen pixels, the top row first; bit 15 is the leftmost. -/
abbrev Glyph := Vector UInt16 16

def Glyph.arrow : Glyph :=
  #v[0x8000, 0xC000, 0xE000, 0xF000, 0xF800, 0xFC00, 0xFE00, 0xF800,
    0xD800, 0x8C00, 0x0C00, 0x0600, 0x0600, 0x0300, 0x0300, 0x0000]

structure Overlay where
  glyph : Glyph := Glyph.arrow
  previous : Position := {}
  stale : Bool := true
  deriving DecidableEq, Repr

namespace Overlay

/-- Installs a glyph, which is to be drawn even where the cursor stays in place. -/
def withGlyph (overlay : Overlay) (glyph : Glyph) : Overlay :=
  { overlay with glyph, stale := true }

def needsRedraw (overlay : Overlay) (position : Position) : Bool :=
  overlay.stale || position != overlay.previous

def restore (overlay : Overlay) (brush : Brush) (word : Nat → UInt16) (size : Size) :
    List Stroke :=
  (Brush.rows overlay.previous.y (Saturating.add16 overlay.previous.y 16)).flatMap
    (brush.drawRow word size (WordSpan.covering overlay.previous.x 16))

def stampBit (brush : Brush) (size : Size) (position : Position) (row : Nat) (bits : UInt16)
    (bit : Nat) : Option Stroke :=
  let x := position.x.toNat + (15 - bit)
  let y := position.y.toNat + row
  if bits.toNat.testBit bit && x < size.width.toNat && y < size.height.toNat then
    some (.pixel (brush.origin.offset x y) brush.palette.cursor)
  else none

def stamp (overlay : Overlay) (brush : Brush) (size : Size) (position : Position) :
    List Stroke :=
  overlay.glyph.toList.zipIdx.flatMap fun (bits, row) =>
    (List.range 16).filterMap (stampBit brush size position row bits)

/-- Moves the cursor to `position`: the old band is restored, then the glyph is
stamped. -/
def drawing (overlay : Overlay) (brush : Brush) (word : Nat → UInt16) (size : Size)
    (position : Position) : List Stroke :=
  overlay.restore brush word size ++ overlay.stamp brush size position

def drawnAt (overlay : Overlay) (position : Position) : Overlay :=
  { overlay with previous := position, stale := false }

end Overlay

end GuestConsole.Display
