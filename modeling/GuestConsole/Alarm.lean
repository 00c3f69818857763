import GuestConsole.Semaphore

/-!
# The alarm

The guest may ask for a signal once the millisecond clock has passed a tick.
Only one request stands at a time.
-/

set_option autoImplicit false

namespace GuestConsole

/-- A request to signal a semaphore once the clock reads more than `tick`. -/
structure Alarm.Request where
  semaphore : Semaphore
  tick : UInt32
  deriving DecidableEq, Repr

structure Alarm where
  pending : Option Alarm.Request := none
  deriving DecidableEq, Repr

namespace Alarm

/-- Puts a request in the place of the pending one; without a semaphore there is
none from here on. -/
def schedule (semaphore : Option Semaphore) (tick : UInt32) : Alarm :=
  ⟨semaphore.map (⟨·, tick⟩)⟩

def poll (alarm : Alarm) (now : UInt32) : Option Semaphore × Alarm :=
  match alarm.pending with
  | none => (none, alarm)
  | some request => if now > request.tick then (some request.semaphore, {}) else (none, alarm)

def isPending (alarm : Alarm) : Bool := alarm.pending.isSome

def deadline? (alarm : Alarm) : Option UInt32 := alarm.pending.map (·.tick)

end Alarm

end GuestConsole
