import GuestConsole.Display.Damage

/-!
# Broken rules

Between the console and its guest a few rules hold.  When one is broken the
console cannot go on.
-/

set_option autoImplicit false

namespace GuestConsole

inductive Violation where
  /-- input was queued while no semaphore was registered for it -/
  | noInputSemaphore
  | damageOutOfBounds (fault : Display.OutOfBounds)
  | negativeDamage
  deriving DecidableEq, Repr

def Violation.message : Violation → String
  | .noInputSemaphore => "input queued without an input semaphore"
  | .damageOutOfBounds fault => fault.message
  | .negativeDamage => "damage with negative coordinates"

end GuestConsole
