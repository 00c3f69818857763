/-!
# Semaphores of the guest
-/

set_option autoImplicit false

namespace GuestConsole

/-- A semaphore of the guest, named by its object pointer. -/
structure Semaphore where
  pointer : UInt32
  deriving DecidableEq, Repr

end GuestConsole
