import GuestConsole.Event.Timestamp

/-!
# Items of the event stream

An item is what one tagged word says, or the three words of an absolute time
together.  `Item.words` is the stream's spelling of an item.
-/

set_option autoImplicit false

namespace GuestConsole.Event

inductive Item where
  | delay (ms : UInt16)
  /-- seconds since the start of 1901 -/
  | absoluteTime (seconds : UInt32)
  | coordinate (value : UInt16)
  | down (code : UInt16)
  | up (code : UInt16)
  deriving DecidableEq, Repr

def Item.words : Item → List UInt16
  | .delay ms => (Timestamp.delay ms).words
  | .absoluteTime seconds => (Timestamp.absolute seconds).words
  | .coordinate value => [(Word.coordinate value).raw]
  | .down code => [(Word.down code).raw]
  | .up code => [(Word.up code).raw]

end GuestConsole.Event
