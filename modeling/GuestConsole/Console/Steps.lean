import GuestConsole.Console.Input

/-!
# Running the guest

A frame lets the guest do a number of steps, fewer only if it asks to stop.
-/

set_option autoImplicit false

namespace GuestConsole.Console

open GuestConsole.Action

variable {σ : Type} (env : Environment σ)

/-- Delivers the signal of an alarm whose tick has passed. -/
def checkAlarm : Action σ Unit := do
  let now ← readTicks env
  let (due, alarm) := (← console).guest.alarm.poll now
  onGuest fun guest => { guest with alarm }
  match due with
  | none => pure ()
  | some semaphore => signal env .alarm semaphore

/-- Delivers the signal of an alarm whose tick had passed when it was set. -/
def deliverDue : Action σ Unit := do
  let due := (← console).guest.dueSignal
  onGuest fun guest => { guest with dueSignal := none }
  match due with
  | none => pure ()
  | some semaphore => signal env .alarm semaphore

def serve (call : Guest.Call) : Action σ call.Answer := do
  let session ← get
  match session.console.guest.serve (env.clock session.world) call with
  | .error violation => throw (.violated violation)
  | .ok (answer, guest) =>
      onGuest fun _ => guest
      record (.served call answer)
      return answer

def runProgram : Guest.Program σ → Action σ Unit
  | .done world => onWorld fun _ => world
  | .call world call next => do
      onWorld fun _ => world
      let answer ← serve env call
      runProgram (next answer)

def step : Action σ Unit := do
  record .stepped
  runProgram env (env.step (← get).world)
  deliverDue env

def steps : Nat → Action σ Unit
  | 0 => pure ()
  | count + 1 => do
      if (← console).guest.quit then pure ()
      else
        step env
        steps count

def runGuest : Action σ Unit := do
  onWorld env.lowMemory
  record .checkedLowMemory
  steps env (← console).config.cyclesPerFrame.toNat

end GuestConsole.Console
