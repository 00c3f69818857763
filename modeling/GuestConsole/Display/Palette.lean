/-!
# Screen colours
-/

set_option autoImplicit false

namespace GuestConsole.Display

structure Color where
  red : UInt8 := 0
  green : UInt8 := 0
  blue : UInt8 := 0
  deriving DecidableEq, Repr

/-- The colour written 0xRRGGBB; the upper eight bits do not matter. -/
def Color.ofRgb (value : UInt32) : Color :=
  ⟨(value >>> 16).toUInt8, (value >>> 8).toUInt8, value.toUInt8⟩

structure Palette where
  foreground : Color
  background : Color
  cursor : Color
  deriving DecidableEq, Repr

def Palette.ofRgb (foreground background cursor : UInt32) : Palette :=
  ⟨Color.ofRgb foreground, Color.ofRgb background, Color.ofRgb cursor⟩

end GuestConsole.Display
