/-!
# Keys and modifiers

A keyboard reports key presses as usage codes together with the modifier keys
held at that moment.
-/

set_option autoImplicit false

namespace GuestConsole.Keyboard

/-- The modifier keys held, one bit for each of the eight. -/
structure Modifiers where
  bits : UInt8 := 0
  deriving DecidableEq, Repr

namespace Modifiers

def leftControl : UInt8 := 0x01
def leftMeta : UInt8 := 0x08

def holds (modifiers : Modifiers) (mask : UInt8) : Bool := modifiers.bits &&& mask != 0

def hasControl (modifiers : Modifiers) : Bool := modifiers.holds 0x11
def hasShift (modifiers : Modifiers) : Bool := modifiers.holds 0x22
def hasAlt (modifiers : Modifiers) : Bool := modifiers.holds 0x44
def hasMeta (modifiers : Modifiers) : Bool := modifiers.holds 0x88

end Modifiers

structure Key where
  code : UInt8
  modifiers : Modifiers
  deriving DecidableEq, Repr

/-- The key packed with its modifiers in the upper byte. -/
def Key.ofPacked (packed : UInt16) : Key := ⟨packed.toUInt8, ⟨(packed >>> 8).toUInt8⟩⟩

end GuestConsole.Keyboard
