import GuestConsole.Console.Steps

/-!
# Frames

A frame takes the input, checks the alarm, runs the guest, renders and waits.
-/

set_option autoImplicit false

namespace GuestConsole.Console

open GuestConsole.Action GuestConsole.Display

variable {σ : Type} (env : Environment σ)

def askDisplayBits (size : Size) : Action σ (Option UInt32) := do
  let handle ← ask (env.displayBits size)
  record (.askedDisplayBits size handle.isSome)
  return handle

def draw (strokes : List Stroke) : Action σ Unit := do
  let drawn ← modifyGet fun session =>
    let drawn := carryOut env.put strokes [] session.world
    (drawn.complete, { session with
      world := drawn.screen
      history := drawn.strokes.map Effect.drew ++ session.history })
  if drawn then pure () else throw .screenRefused

def drawFrame (size : Size) (damage : Rect) (handle : UInt32) : Action σ Unit := do
  let session ← get
  let console := session.console
  let word := env.word session.world handle
  draw env (console.brush.blit word size damage)
  draw env (console.overlay.drawing console.brush word size console.guest.pointer)
  onConsole fun now => { now with overlay := now.overlay.drawnAt console.guest.pointer }

/-- Brings the screen up to date, if there is anything to show and anything has
changed. -/
def render : Action σ Unit := do
  let size := (← console).guest.display
  if size.isEmpty then pure ()
  else
    -- the guest may have changed the size of its display in this frame
    center env
    onConsole takeGlyph
    let (damage, now) := (← console).takeDamage
    onConsole fun _ => now
    if damage.isEmpty && !now.overlay.needsRedraw now.guest.pointer then pure ()
    else
      match ← askDisplayBits env size with
      | none => pure ()
      | some handle => drawFrame env size damage handle

def pause : Action σ Unit := do
  match (← console).config.frameDelay? with
  | none => pure ()
  | some ms =>
      onWorld (env.wait ms)
      record (.waited ms)

inductive Outcome where
  | again
  | terminated
  deriving DecidableEq, Repr

/-- One frame.  Nothing is rendered once the guest has asked to stop. -/
def frame : Action σ Outcome := do
  center env
  applyPointerRequest env
  takeInput env
  checkAlarm env
  runGuest env
  if (← console).guest.quit then return .terminated
  else
    render env
    pause env
    return .again

def run : Nat → Action σ Outcome
  | 0 => return .again
  | count + 1 => do
      match ← frame env with
      | .terminated => return .terminated
      | .again => run count

end GuestConsole.Console
