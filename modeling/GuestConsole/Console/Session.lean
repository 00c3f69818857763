import GuestConsole.Console.Environment
import GuestConsole.Console.State
import GuestConsole.Display.Drawing

/-!
# Sessions

A session is a console together with its surroundings and the history of all that
it has done to them.  An action changes the session and may end it for good or
for the current frame; what it did before that stays done.
-/

set_option autoImplicit false

namespace GuestConsole

open GuestConsole.Display

inductive SignalCause where
  | input
  | alarm
  deriving DecidableEq, Repr

inductive Effect where
  | readTicks (now : UInt32)
  | readUnixSeconds (seconds : UInt32)
  | polledKeys (keys : List Keyboard.Key)
  | polledSequence (bytes : Option (List UInt8))
  | readMouse (report : Mouse.Report)
  | movedMouse (point : Point)
  | refreshedCursor
  | signalled (cause : SignalCause) (semaphore : Semaphore)
  | checkedLowMemory
  | stepped
  | served (call : Guest.Call) (answer : call.Answer)
  /-- the display bitmap of this size was asked for, and whether there was one -/
  | askedDisplayBits (size : Size) (granted : Bool)
  | drew (stroke : Stroke)
  | waited (ms : UInt32)

structure Session (σ : Type) where
  console : Console
  world : σ
  /-- everything done so far, the latest first -/
  history : List Effect := []

inductive Halt where
  /-- the screen refused a pixel; a later frame may still succeed -/
  | screenRefused
  | violated (violation : Violation)
  deriving DecidableEq, Repr

abbrev Action (σ α : Type) := EStateM Halt (Session σ) α

namespace Action

variable {σ : Type}

def record (effect : Effect) : Action σ Unit :=
  modify fun session => { session with history := effect :: session.history }

def console : Action σ Console := return (← get).console

def onConsole (f : Console → Console) : Action σ Unit :=
  modify fun session => { session with console := f session.console }

def onGuest (f : Guest.State → Guest.State) : Action σ Unit :=
  onConsole fun console => { console with guest := f console.guest }

def onWorld (f : σ → σ) : Action σ Unit :=
  modify fun session => { session with world := f session.world }

def ask {α : Type} (f : σ → α × σ) : Action σ α :=
  modifyGet fun session =>
    let (answer, world) := f session.world
    (answer, { session with world })

end Action

end GuestConsole
