import GuestConsole.Console.Session

/-!
# Input

The pointer follows the mouse in every frame.  Keys and buttons are polled and
queued only while the guest has a semaphore registered for its input.
-/

set_option autoImplicit false

namespace GuestConsole.Console

open GuestConsole.Action

variable {σ : Type} (env : Environment σ)

def center : Action σ Unit := do
  let screen := env.extent (← get).world
  onConsole (·.centered screen)

def readTicks : Action σ UInt32 := do
  let now := env.ticks (← get).world
  record (.readTicks now)
  return now

def readUnixSeconds : Action σ UInt32 := do
  let seconds := env.unixSeconds (← get).world
  record (.readUnixSeconds seconds)
  return seconds

def signal (cause : SignalCause) (semaphore : Semaphore) : Action σ Unit := do
  onWorld (env.signal semaphore)
  record (.signalled cause semaphore)

def applyPointerRequest : Action σ Unit := do
  let now ← console
  match now.guest.pointerRequest with
  | none => pure ()
  | some position =>
      onGuest fun guest => { guest with pointerRequest := none }
      let point := now.brush.origin.offset position.x.toNat position.y.toNat
      onWorld (env.moveMouse point)
      record (.movedMouse point)
      onWorld env.refreshCursor
      record .refreshedCursor

def trackPointer : Action σ Mouse.Report := do
  let report ← ask env.mouse
  record (.readMouse report)
  onConsole (·.pointAt report.point)
  return report

/-- Queues a group of events.  One that does not fit is dropped. -/
def queueEvents (now unixSeconds : UInt32) (events : List (List Event.Word)) :
    Action σ Unit := do
  match (← console).guest.queue.pushEvents now unixSeconds events with
  | .error violation => throw (.violated violation)
  | .ok (_, queue) => onConsole (·.withQueue queue)

def queueDecoded (now unixSeconds : UInt32) : Keyboard.Decoded → Action σ Unit
  | .words words => queueEvents now unixSeconds [words]
  | .ignored _ => pure ()

def decode (now unixSeconds : UInt32)
    (read : Keyboard.Decoder → Keyboard.Decoded × Keyboard.Decoder) : Action σ Unit := do
  let (decoded, keyboard) := read (← console).keyboard
  onConsole fun console => { console with keyboard }
  queueDecoded now unixSeconds decoded

def takeKeys (now unixSeconds : UInt32) : Action σ Unit := do
  match env.keyboard with
  | .raw poll =>
      let keys ← ask poll
      record (.polledKeys keys)
      keys.forM fun key => decode now unixSeconds (·.decodeKey key)
  | .cooked poll =>
      let sequence ← ask poll
      record (.polledSequence sequence)
      match sequence with
      | none => pure ()
      | some bytes => decode now unixSeconds (·.decodeSequence bytes)

/-- The events of changed buttons, each in a group of its own, then those of a
motion as one group. -/
def takeMouse (now unixSeconds : UInt32) : Action σ Unit := do
  let report ← trackPointer env
  let before ← console
  let (events, mouse) := before.mouse.takeButtons report.buttons before.keyboard.held
  let (moved, mouse) := mouse.takePosition before.guest.pointer
  onConsole fun console => { console with mouse }
  events.forM fun event => queueEvents now unixSeconds [[event.word]]
  match moved with
  | none => pure ()
  | some (x, y) => queueEvents now unixSeconds [[x], [y]]

def signalTimes (semaphore : Semaphore) : Nat → Action σ Unit
  | 0 => pure ()
  | times + 1 => do
      signal env .input semaphore
      signalTimes semaphore times

def deliverOwed (semaphore : Semaphore) : Action σ Unit := do
  let (owed, queue) := (← console).guest.queue.takeOwed
  onConsole (·.withQueue queue)
  signalTimes env semaphore owed.toNat

/-- The input of a frame.  All of its events carry the clock readings from its
start. -/
def takeInput : Action σ Unit := do
  match (← console).guest.queue.semaphore with
  | none => discard (trackPointer env)
  | some semaphore =>
      let now ← readTicks env
      let unixSeconds ← readUnixSeconds env
      takeKeys env now unixSeconds
      takeMouse env now unixSeconds
      deliverOwed env semaphore

end GuestConsole.Console
