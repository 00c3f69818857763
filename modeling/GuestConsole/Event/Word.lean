/-!
# Event words

Input reaches the guest as a stream of 16-bit words.  A tagged word carries
the kind of event in its upper four bits and a parameter in its lower twelve.
-/

set_option autoImplicit false

namespace GuestConsole.Event

inductive Kind where
  | delay
  | coordinate
  | down
  | up
  /-- two untagged words with an absolute time follow, high half first -/
  | absoluteTime
  deriving DecidableEq, Repr

def Kind.bits : Kind → UInt8
  | .delay => 0
  | .coordinate => 1
  | .down => 3
  | .up => 4
  | .absoluteTime => 5

/-- The kind with a given tag; the tags 2 and 6 to 15 are not in use. -/
def Kind.ofBits? (bits : UInt8) : Option Kind :=
  if bits = 0 then some .delay
  else if bits = 1 then some .coordinate
  else if bits = 3 then some .down
  else if bits = 4 then some .up
  else if bits = 5 then some .absoluteTime
  else none

theorem Kind.ofBits?_bits (kind : Kind) : Kind.ofBits? kind.bits = some kind := by
  cases kind <;> rfl

structure Word where
  raw : UInt16
  deriving DecidableEq, Repr

namespace Word

def maxParameter : UInt16 := 0xFFF

/-- A tagged word; of a wider parameter only the lower twelve bits are kept. -/
def tagged (kind : Kind) (parameter : UInt16) : Word :=
  ⟨(kind.bits.toUInt16 <<< 12) ||| (parameter &&& maxParameter)⟩

def down (code : UInt16) : Word := tagged .down code

def up (code : UInt16) : Word := tagged .up code

def coordinate (value : UInt16) : Word := tagged .coordinate value

def kindBits (word : Word) : UInt8 := (word.raw >>> 12).toUInt8

def kind? (word : Word) : Option Kind := Kind.ofBits? word.kindBits

def parameter (word : Word) : UInt16 := word.raw &&& maxParameter

end Word

end GuestConsole.Event
