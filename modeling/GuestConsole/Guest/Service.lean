import GuestConsole.Guest.State

/-!
# The services of the console

During a step the guest calls services, one after the other.  A step is given as
a program: what it does next may depend on what a call has answered and on
nothing else.
-/

set_option autoImplicit false

namespace GuestConsole.Guest

open GuestConsole.Display

inductive Call where
  | nextWord
  | setInputSemaphore (semaphore : Option Semaphore)
  | signalAt (semaphore : Option Semaphore) (tick : UInt32)
  | milliseconds
  | seconds
  | setDisplaySize (size : Size)
  | displaySize
  /-- reports damage; a report that breaks a rule stops the console -/
  | displayChanged (x y width height : Int32)
  /-- reports damage and answers whether the report keeps the rules -/
  | tryDisplayChanged (x y width height : Int32)
  | setCursorGlyph (glyph : Glyph)
  | setPointer (x y : Int32)
  | pointer
  | signalQuit
  | quitSignalled
  deriving DecidableEq, Repr

abbrev Call.Answer : Call → Type
  | .nextWord => Option UInt16
  | .milliseconds => UInt32
  | .seconds => UInt32
  | .displaySize => Size
  | .tryDisplayChanged .. => Option Violation
  | .pointer => Position
  | .quitSignalled => Bool
  | _ => Unit

structure Clock where
  ticks : UInt32 := 0
  unixSeconds : UInt32 := 0
  deriving DecidableEq, Repr

def State.serve (state : State) (clock : Clock) :
    (call : Call) → Except Violation (call.Answer × State)
  | .nextWord =>
      let (word, queue) := state.queue.pop
      .ok (word, { state with queue })
  | .setInputSemaphore semaphore =>
      .ok ((), { state with queue := state.queue.setSemaphore semaphore })
  | .signalAt semaphore tick => .ok ((), state.signalAt semaphore tick clock.ticks)
  | .milliseconds => .ok (clock.ticks, state)
  | .seconds => .ok (Event.absoluteSeconds clock.unixSeconds, state)
  | .setDisplaySize size => .ok ((), state.resize size)
  | .displaySize => .ok (state.display, state)
  | .displayChanged x y width height =>
      match state.reportDamage x y width height with
      | .error violation => .error violation
      | .ok state => .ok ((), state)
  | .tryDisplayChanged x y width height =>
      match state.reportDamage x y width height with
      | .error violation => .ok (some violation, state)
      | .ok state => .ok (none, state)
  | .setCursorGlyph glyph => .ok ((), { state with newGlyph := some glyph })
  | .setPointer x y => .ok ((), state.movePointer x y)
  | .pointer => .ok (state.pointer, state)
  | .signalQuit => .ok ((), { state with quit := true })
  | .quitSignalled => .ok (state.quit, state)

/-- One step of a guest whose world is in `σ`. -/
inductive Program (σ : Type) where
  | done (world : σ)
  | call (world : σ) (call : Call) (next : call.Answer → Program σ)

end GuestConsole.Guest
