import GuestConsole.Alarm
import GuestConsole.Display.Cursor
import GuestConsole.Input.Queue

/-!
# What the guest can observe and change

The console shares this state with its guest.  The guest reaches it only through
the services of `GuestConsole.Guest.Service`.
-/

set_option autoImplicit false

namespace GuestConsole.Guest

open GuestConsole.Display GuestConsole.Input

structure State where
  queue : Queue := {}
  alarm : Alarm := {}
  damage : Damage := {}
  /-- the size of the bitmap; empty until the guest sets it -/
  display : Size := {}
  pointer : Position := {}
  newGlyph : Option Glyph := none
  pointerRequest : Option Position := none
  /-- a semaphore whose tick had passed when the signal was asked for -/
  dueSignal : Option Semaphore := none
  quit : Bool := false
  deriving DecidableEq, Repr

namespace State

def initial (policy : WakePolicy) : State := { queue := { policy } }

def signalAt (state : State) (semaphore : Option Semaphore) (tick now : UInt32) : State :=
  let (dueSignal, alarm) := (Alarm.schedule semaphore tick).poll now
  { state with alarm, dueSignal }

/-- Sets the size of the bitmap.  A new size keeps the pointer inside and damages
the whole display. -/
def resize (state : State) (size : Size) : State :=
  if size = state.display then state
  else
    { state with
      display := size
      pointer := size.clampPosition state.pointer
      damage := Damage.all size }

def narrow (value : Int32) : UInt16 := UInt16.ofNat (min value.toInt.toNat 65535)

def reportDamage (state : State) (x y width height : Int32) : Except Violation State :=
  if x < 0 || y < 0 || width < 0 || height < 0 then .error .negativeDamage
  else
    match state.damage.report ⟨narrow x, narrow y, narrow width, narrow height⟩ state.display with
    | .error fault => .error (.damageOutOfBounds fault)
    | .ok damage => .ok { state with damage }

def movePointer (state : State) (x y : Int32) : State :=
  let position := state.display.clamp x y
  { state with pointer := position, pointerRequest := some position }

end State

end GuestConsole.Guest
