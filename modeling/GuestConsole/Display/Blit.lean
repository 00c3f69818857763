import GuestConsole.Display.Drawing
import GuestConsole.Display.Rect
import GuestConsole.Saturating

/-!
# Copying the bitmap to the screen

Only whole words are fetched, so a region is widened to the words that it
touches.  A word is drawn from its lowest bit up, that is from right to left;
padding at the end of a row is not drawn.
-/

set_option autoImplicit false

namespace GuestConsole.Display

/-- A half-open range of word columns. -/
structure WordSpan where
  first : Nat
  stop : Nat
  deriving DecidableEq, Repr

def WordSpan.covering (x width : UInt16) : WordSpan :=
  if width = 0 then ⟨0, 0⟩
  else ⟨x.toNat / 16, (x.toNat + width.toNat - 1) / 16 + 1⟩

def WordSpan.columns (span : WordSpan) : List Nat :=
  List.range' span.first (span.stop - span.first)

structure Brush where
  palette : Palette
  /-- the screen pixel that shows the corner of the bitmap -/
  origin : Point := {}
  deriving DecidableEq, Repr

namespace Brush

def drawBit (brush : Brush) (size : Size) (row : UInt16) (left : Nat) (word : UInt16)
    (bit : Nat) : Option Stroke :=
  let x := left + (15 - bit)
  if x < size.width.toNat then
    some (.pixel (brush.origin.offset x row.toNat)
      (if word.toNat.testBit bit then brush.palette.foreground else brush.palette.background))
  else none

def drawWord (brush : Brush) (word : Nat → UInt16) (size : Size) (row : UInt16)
    (column : Nat) : List Stroke :=
  let index := size.wordIndex row column
  .fetch index
    :: (List.range 16).filterMap (brush.drawBit size row (column * 16) (word index))

/-- Draws the words of a span in one row, as far as they start inside the bitmap. -/
def drawRow (brush : Brush) (word : Nat → UInt16) (size : Size) (span : WordSpan)
    (row : UInt16) : List Stroke :=
  if row < size.height then
    (span.columns.takeWhile (fun column => column * 16 < size.width.toNat)).flatMap
      (brush.drawWord word size row)
  else []

def rows (first stop : UInt16) : List UInt16 :=
  (List.range' first.toNat (stop.toNat - first.toNat)).map UInt16.ofNat

def blit (brush : Brush) (word : Nat → UInt16) (size : Size) (rect : Rect) : List Stroke :=
  if rect.isEmpty then []
  else
    (rows rect.y (min (Saturating.add16 rect.y rect.height) size.height)).flatMap
      (brush.drawRow word size (WordSpan.covering rect.x rect.width))

end Brush

end GuestConsole.Display
