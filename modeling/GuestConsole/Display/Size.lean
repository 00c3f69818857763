/-!
# The guest's display bitmap

One bit per pixel, packed into 16-bit words row by row; bit 15 of a word is its
leftmost pixel, and a row is padded to a whole word.
-/

set_option autoImplicit false

namespace GuestConsole.Display

structure Position where
  x : UInt16 := 0
  y : UInt16 := 0
  deriving DecidableEq, Repr

structure Size where
  width : UInt16 := 0
  height : UInt16 := 0
  deriving DecidableEq, Repr

namespace Size

/-- No pixel to show: the guest has not set up its display. -/
def isEmpty (size : Size) : Bool := size.width == 0 || size.height == 0

def wordsPerRow (size : Size) : Nat := (size.width.toNat + 15) / 16

def wordIndex (size : Size) (row : UInt16) (column : Nat) : Nat :=
  row.toNat * size.wordsPerRow + column

/-- The pixel nearest to `value` on an axis of `extent` pixels, and 0 where the
axis has none. -/
def clampAxis (value : Int32) (extent : UInt16) : UInt16 :=
  UInt16.ofNat (min value.toInt.toNat (extent.toNat - 1))

def clamp (size : Size) (x y : Int32) : Position :=
  ⟨clampAxis x size.width, clampAxis y size.height⟩

def clampPosition (size : Size) (position : Position) : Position :=
  size.clamp (Int32.ofNat position.x.toNat) (Int32.ofNat position.y.toNat)

end Size

structure Bitmap where
  words : Array UInt16

/-- The word at `index`; past the end of the bitmap all pixels are clear. -/
def Bitmap.word (bitmap : Bitmap) (index : Nat) : UInt16 := bitmap.words.getD index 0

end GuestConsole.Display
