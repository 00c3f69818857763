/-!
# Characters that the host has already made out of keys

A host with a keymap of its own delivers short byte sequences.  A control
character or one behind an escape is taken apart again into a printable byte and
the modifiers that it stands for.
-/

set_option autoImplicit false

namespace GuestConsole.Keyboard

structure Character where
  byte : UInt8
  flags : UInt8
  deriving DecidableEq, Repr

namespace Character

def controlFlag : UInt8 := 0x01
def metaFlag : UInt8 := 0x02

def escape : UInt8 := 0x1B

/-- Backspace, tab, line feed and return have keys of their own. -/
def hasOwnKey (byte : UInt8) : Bool := byte = 0x08 || byte = 0x09 || byte = 0x0A || byte = 0x0D

/-- The character that a byte sequence stands for.  Sequences of several bytes
are those of cursor and function keys, but for an escape and one byte that can
neither be an escape nor the opening bracket of such a sequence. -/
def ofSequence? : List UInt8 → Option Character
  | [byte] =>
      if hasOwnKey byte then some ⟨byte, 0⟩
      else if 0x01 ≤ byte && byte ≤ 0x1A then some ⟨0x61 + byte - 1, controlFlag⟩
      else some ⟨byte, 0⟩
  | [first, byte] =>
      if first = escape && byte != escape && byte != 0x5B then some ⟨byte, metaFlag⟩ else none
  | _ => none

end Character

end GuestConsole.Keyboard
