import GuestConsole.Proofs.Calls
import GuestConsole.Proofs.CheckedInput

/-!
# Frames with checked numbers and buffers

The frame once more, with every number and every push checked; where a check fails it traps.
From a session that a console can reach no check fails: the frame with its checks is the
frame without them, and it breaks no rule but at a report of damage that is rejected.
-/

set_option autoImplicit false

namespace GuestConsole

open GuestConsole.Action GuestConsole.Display

variable {σ : Type}

inductive Stop where
  /-- a number did not fit, or a buffer had no room -/
  | trap
  | halt (halt : Halt)
  deriving DecidableEq, Repr

abbrev CheckedAction (σ α : Type) := EStateM Stop (Session σ) α

/-- An action in which there is nothing to check. -/
def Action.lifted {α : Type} (action : Action σ α) : CheckedAction σ α := fun session =>
  match action session with
  | .ok answer later => .ok answer later
  | .error halt later => .error (.halt halt) later

/-- The result of a check. -/
def CheckedAction.orTrap {α : Type} : Option α → CheckedAction σ α
  | some result => pure result
  | none => throw .trap

/-! ## The frame with its checks -/

namespace Checked
open CheckedAction
variable (env : Environment σ)

def center : CheckedAction σ Unit := do
  let session ← get
  let origin ← orTrap (centeredOrigin? (env.extent session.world) session.console.guest.display)
  lifted (onConsole fun console => { console with brush := { console.brush with origin } })

def applyPointerRequest : CheckedAction σ Unit := do
  let now ← lifted console
  match now.guest.pointerRequest with
  | none => pure ()
  | some position =>
      lifted (onGuest fun guest => { guest with pointerRequest := none })
      let point ← orTrap (offset? now.brush.origin position.x.toNat position.y.toNat)
      lifted do
        onWorld (env.moveMouse point)
        record (.movedMouse point)
        onWorld env.refreshCursor
        record .refreshedCursor

def trackPointer : CheckedAction σ Mouse.Report := do
  let report ← lifted (ask env.mouse)
  lifted (record (.readMouse report))
  let now ← lifted console
  let pointer ← orTrap (locate? now.guest.display now.brush.origin report.point)
  lifted (onGuest fun guest => { guest with pointer })
  return report

def queueEvents (now unixSeconds : UInt32) (events : List (List Event.Word)) :
    CheckedAction σ Unit := do
  let queue := (← lifted console).guest.queue
  match ← orTrap (pushEvents? now unixSeconds queue events) with
  | .error violation => throw (.halt (.violated violation))
  | .ok (_, queue) => lifted (onConsole (·.withQueue queue))

def queueDecoded (now unixSeconds : UInt32) : Keyboard.Decoded → CheckedAction σ Unit
  | .words words => queueEvents now unixSeconds [words]
  | .ignored _ => pure ()

def decode (now unixSeconds : UInt32)
    (read? : Keyboard.Decoder → Option (Keyboard.Decoded × Keyboard.Decoder)) :
    CheckedAction σ Unit := do
  let (given, keyboard) ← orTrap (read? (← lifted console).keyboard)
  let decoded ← orTrap (words? given)
  lifted (onConsole fun console => { console with keyboard })
  queueDecoded now unixSeconds decoded

def takeKeys (now unixSeconds : UInt32) : CheckedAction σ Unit := do
  match env.keyboard with
  | .raw poll =>
      let keys ← lifted (ask poll)
      lifted (record (.polledKeys keys))
      keys.forM fun key => decode now unixSeconds fun keyboard => some (keyboard.decodeKey key)
  | .cooked poll =>
      let sequence ← lifted (ask poll)
      lifted (record (.polledSequence sequence))
      match sequence with
      | none => pure ()
      | some bytes => decode now unixSeconds (decodeSequence? · bytes)

def takeMouse (now unixSeconds : UInt32) : CheckedAction σ Unit := do
  let report ← trackPointer env
  let before ← lifted console
  let (changed, mouse) := before.mouse.takeButtons report.buttons before.keyboard.held
  let events ← orTrap (fill? 3 [] changed)
  let (moved, mouse) := mouse.takePosition before.guest.pointer
  lifted (onConsole fun console => { console with mouse })
  events.forM fun event => queueEvents now unixSeconds [[event.word]]
  match moved with
  | none => pure ()
  | some (x, y) => queueEvents now unixSeconds [[x], [y]]

def takeInput : CheckedAction σ Unit := do
  match (← lifted console).guest.queue.semaphore with
  | none => discard (trackPointer env)
  | some semaphore =>
      let now ← lifted (Console.readTicks env)
      let unixSeconds ← lifted (Console.readUnixSeconds env)
      takeKeys env now unixSeconds
      takeMouse env now unixSeconds
      lifted (Console.deliverOwed env semaphore)

def serve (call : Guest.Call) : CheckedAction σ call.Answer := do
  let session ← get
  match ← orTrap (serve? session.console.guest (env.clock session.world) call) with
  | .error violation => throw (.halt (.violated violation))
  | .ok (answer, guest) =>
      lifted (onGuest fun _ => guest)
      lifted (record (.served call answer))
      return answer

def runProgram : Guest.Program σ → CheckedAction σ Unit
  | .done world => lifted (onWorld fun _ => world)
  | .call world call next => do
      lifted (onWorld fun _ => world)
      let answer ← serve env call
      runProgram (next answer)

def step : CheckedAction σ Unit := do
  lifted (record .stepped)
  runProgram env (env.step (← get).world)
  lifted (Console.deliverDue env)

def steps : Nat → CheckedAction σ Unit
  | 0 => pure ()
  | count + 1 => do
      if (← lifted console).guest.quit then pure ()
      else
        step env
        steps count

def runGuest : CheckedAction σ Unit := do
  lifted (onWorld env.lowMemory)
  lifted (record .checkedLowMemory)
  steps env (← lifted console).config.cyclesPerFrame.toNat

def drawFrame (size : Size) (damage : Rect) (handle : UInt32) : CheckedAction σ Unit := do
  let session ← get
  let console := session.console
  let word := env.word session.world handle
  let redrawn ← orTrap (blit? console.brush word size damage)
  lifted (Console.draw env redrawn)
  let drawn ← orTrap (drawing? console.brush word size console.overlay console.guest.pointer)
  lifted (Console.draw env drawn)
  lifted (onConsole fun now => { now with overlay := now.overlay.drawnAt console.guest.pointer })

def render : CheckedAction σ Unit := do
  let size := (← lifted console).guest.display
  if size.isEmpty then pure ()
  else
    center env
    lifted (onConsole Console.takeGlyph)
    let (damage, now) := (← lifted console).takeDamage
    lifted (onConsole fun _ => now)
    if damage.isEmpty && !now.overlay.needsRedraw now.guest.pointer then pure ()
    else
      match ← lifted (Console.askDisplayBits env size) with
      | none => pure ()
      | some handle => drawFrame env size damage handle

def frame : CheckedAction σ Console.Outcome := do
  center env
  applyPointerRequest env
  takeInput env
  lifted (Console.checkAlarm env)
  runGuest env
  if (← lifted console).guest.quit then return .terminated
  else
    render env
    lifted (Console.pause env)
    return .again

def run : Nat → CheckedAction σ Console.Outcome
  | 0 => return .again
  | count + 1 => do
      match ← frame env with
      | .terminated => return .terminated
      | .again => run count

end Checked

/-! ## Sessions in which no check fails -/

/-- The damage and the pointer are inside the display, the queue is not overfull and the
display is centred on some screen. -/
structure Session.Sound (session : Session σ) : Prop where
  inside : session.console.guest.Inside
  bounded : session.console.guest.queue.length ≤ Input.Queue.capacity
  centred : Checked.Centred session.console.brush.origin

theorem inputMove_sound (before later : Session σ) (move : Session.InputMove before later)
    (sound : before.Sound) : later.Sound where
  inside := inputMove_inside before later move sound.inside
  bounded := inputMove_bounded before later move sound.bounded
  centred := by
    cases move with
    | center screen => exact ⟨screen, _, rfl⟩
    | _ => exact sound.centred

theorem guestMove_sound (before later : Session σ) (move : Session.GuestMove before later)
    (sound : before.Sound) : later.Sound where
  inside := guestMove_inside before later move sound.inside
  bounded := guestMove_bounded before later move sound.bounded
  centred := by cases move <;> exact sound.centred

theorem renderMove_sound (before later : Session σ) (move : Session.RenderMove before later)
    (sound : before.Sound) : later.Sound where
  inside := renderMove_inside before later move sound.inside
  bounded := renderMove_bounded before later move sound.bounded
  centred := by
    cases move with
    | center screen => exact ⟨screen, _, rfl⟩
    | glyph =>
        unfold Console.takeGlyph
        split <;> exact sound.centred
    | _ => exact sound.centred

theorem Console.Reachable.sound {env : Environment σ} {session : Session σ}
    (reachable : Reachable env session) : session.Sound := by
  refine reachable.keeps (fun world created => ?_)
    (fun before => (takingInput_makes env).keeps inputMove_sound) guestMove_sound
    renderMove_sound
  obtain ⟨_, _, _, brush⟩ := create_exact created
  have fresh : Reachable env _ := .created created world
  refine ⟨fresh.inside, fresh.bounded, ?_⟩
  rw [brush]
  exact ⟨{}, {}, rfl⟩

/-! ## Agreement -/

section Agreement
variable {α β : Type}

/-- From a session in which no check fails a checked action does what the action does. -/
def Agrees (checked : CheckedAction σ α) (action : Action σ α) : Prop :=
  ∀ session : Session σ, session.Sound → checked session = lifted action session

def KeepsSound (action : Action σ α) : Prop :=
  ∀ session : Session σ, session.Sound → (Action.after action session).Sound

theorem keepsSound_input {action : Action σ α} (makes : Makes Session.InputMove action) :
    KeepsSound action := fun _ sound => makes.keeps inputMove_sound sound

theorem keepsSound_queue {action : Action σ α} (makes : Makes Session.QueueMove action) :
    KeepsSound action := keepsSound_input (makes.mono fun _ _ move => move.1.1)

theorem keepsSound_guest {action : Action σ α} (makes : Makes Session.GuestMove action) :
    KeepsSound action := fun _ sound => makes.keeps guestMove_sound sound

theorem keepsSound_render {action : Action σ α} (makes : Makes Session.RenderMove action) :
    KeepsSound action := fun _ sound => makes.keeps renderMove_sound sound

theorem agrees_lifted (action : Action σ α) : Agrees (lifted action) action := fun _ _ => rfl

theorem agrees_pure (answer : α) : Agrees (pure answer : CheckedAction σ α) (pure answer) :=
  fun _ _ => rfl

theorem orTrap_bind {result? : Option α} {result : α} {next : α → CheckedAction σ β}
    (given : result? = some result) : (CheckedAction.orTrap result? >>= next) = next result := by
  rw [given]
  rfl

theorem agrees_bind {checked : CheckedAction σ α} {action : Action σ α}
    {checkedNext : α → CheckedAction σ β} {next : α → Action σ β}
    (first : Agrees checked action) (kept : KeepsSound action)
    (second : ∀ answer, Agrees (checkedNext answer) (next answer)) :
    Agrees (checked >>= checkedNext) (action >>= next) := by
  intro session sound
  have start := first session sound
  have middle := kept session sound
  cases ran : action session with
  | ok answer later =>
      rw [after_ok ran] at middle
      rw [lifted, ran] at start
      have rest := second answer later middle
      rw [lifted, bind_ok ran]
      simp only [bind, EStateM.bind, start]
      exact rest
  | error halt later =>
      rw [lifted, ran] at start
      rw [lifted, bind_error ran]
      simp only [bind, EStateM.bind, start]

theorem agrees_get {checkedNext : Session σ → CheckedAction σ β}
    {next : Session σ → Action σ β}
    (here : ∀ session : Session σ, session.Sound →
      checkedNext session session = lifted (next session) session) :
    Agrees (get >>= checkedNext) (get >>= next) := here

theorem agrees_console {checkedNext : Console → CheckedAction σ β}
    {next : Console → Action σ β}
    (here : ∀ session : Session σ, session.Sound →
      checkedNext session.console session = lifted (next session.console) session) :
    Agrees (lifted console >>= checkedNext) (console >>= next) := here

theorem agrees_ite {condition : Prop} [Decidable condition] {checked other : CheckedAction σ α}
    {action otherAction : Action σ α} (yes : Agrees checked action)
    (no : Agrees other otherAction) :
    Agrees (if condition then checked else other)
      (if condition then action else otherAction) := by
  split
  · exact yes
  · exact no

theorem agrees_forM {checked : α → CheckedAction σ PUnit} {action : α → Action σ PUnit}
    (items : List α) (each : ∀ item ∈ items, Agrees (checked item) (action item))
    (kept : ∀ item, KeepsSound (action item)) :
    Agrees (items.forM checked) (items.forM action) := by
  induction items with
  | nil => exact agrees_pure _
  | cons item rest ih =>
      have others := ih fun other member => each other (List.mem_cons_of_mem item member)
      exact agrees_bind (each item List.mem_cons_self) (kept item) fun _ => others

end Agreement

/-! ## The input -/

section Input
open Checked
open GuestConsole.Keyboard (Gives gives_decodeKey gives_decodeSequence)
variable (env : Environment σ)

theorem center_agrees : Agrees (Checked.center env) (Console.center env) := by
  refine agrees_get fun session sound => ?_
  rw [orTrap_bind (centeredOrigin?_eq _ _)]
  rfl

theorem applyPointerRequest_agrees :
    Agrees (Checked.applyPointerRequest env) (Console.applyPointerRequest env) := by
  refine agrees_console fun session sound => ?_
  cases request : session.console.guest.pointerRequest with
  | none => rfl
  | some position =>
      have point := offset?_eq sound.centred position.x.toNat_lt position.y.toNat_lt
      dsimp only
      rw [orTrap_bind point]
      rfl

theorem trackPointer_agrees :
    Agrees (Checked.trackPointer env) (Console.trackPointer env) := by
  refine agrees_bind (agrees_lifted _) (keepsSound_queue (queueMove_ask env.mouse))
    fun report => ?_
  refine agrees_bind (agrees_lifted _) (keepsSound_queue (queueMove_record _ trivial rfl rfl))
    fun _ session sound => ?_
  have pointer := locate?_eq session.console.guest.display session.console.brush.origin
    report.point
  change (CheckedAction.orTrap (locate? session.console.guest.display
    session.console.brush.origin report.point) >>= _) session = _
  rw [orTrap_bind pointer]
  rfl

theorem queueEvents_agrees (now unixSeconds : UInt32) (events : List (List Event.Word))
    (few : events.length ≤ 2) (short : ∀ event ∈ events, Short event) :
    Agrees (Checked.queueEvents now unixSeconds events : CheckedAction σ Unit)
      (Console.queueEvents now unixSeconds events) := by
  refine agrees_console fun session sound => ?_
  rw [orTrap_bind (pushEvents?_eq now unixSeconds events sound.bounded few short)]
  cases session.console.guest.queue.pushEvents now unixSeconds events <;> rfl

theorem queueDecoded_agrees (now unixSeconds : UInt32) {decoded : Keyboard.Decoded}
    (gives : Gives Short decoded) :
    Agrees (Checked.queueDecoded now unixSeconds decoded : CheckedAction σ Unit)
      (Console.queueDecoded now unixSeconds decoded) := by
  cases decoded with
  | ignored reason => exact agrees_pure ()
  | words words =>
      apply queueEvents_agrees
      · exact Nat.le_succ 1
      · intro event member
        rw [List.mem_singleton.mp member]
        exact gives words rfl

theorem decode_agrees (now unixSeconds : UInt32)
    {read? : Keyboard.Decoder → Option (Keyboard.Decoded × Keyboard.Decoder)}
    {read : Keyboard.Decoder → Keyboard.Decoded × Keyboard.Decoder}
    (same : ∀ keyboard, read? keyboard = some (read keyboard))
    (gives : ∀ keyboard, Gives Short (read keyboard).1) :
    Agrees (Checked.decode now unixSeconds read? : CheckedAction σ Unit)
      (Console.decode now unixSeconds read) := by
  refine agrees_console fun session sound => ?_
  rw [orTrap_bind (same session.console.keyboard)]
  dsimp only
  rw [orTrap_bind (words?_eq (gives session.console.keyboard))]
  have remembered : Session.InputMove session { session with
      console.keyboard := (read session.console.keyboard).2 } := .keyboard session _
  exact queueDecoded_agrees now unixSeconds (gives session.console.keyboard) _
    (inputMove_sound _ _ remembered sound)

theorem takeKeys_agrees (now unixSeconds : UInt32) :
    Agrees (Checked.takeKeys env now unixSeconds) (Console.takeKeys env now unixSeconds) := by
  unfold Checked.takeKeys Console.takeKeys
  cases env.keyboard with
  | raw poll =>
      refine agrees_bind (agrees_lifted _) (keepsSound_queue (queueMove_ask poll))
        fun keys => ?_
      refine agrees_bind (agrees_lifted _) (keepsSound_queue (queueMove_poll _ rfl))
        fun _ => ?_
      refine agrees_forM keys (fun key _ => ?_)
        fun key => keepsSound_queue (decode_makes now unixSeconds _)
      exact decode_agrees now unixSeconds (fun _ => rfl)
        fun keyboard =>
          gives_decodeKey (fun _ _ _ _ => short_bracketed _ _ _) short_latched keyboard key
  | cooked poll =>
      refine agrees_bind (agrees_lifted _) (keepsSound_queue (queueMove_ask poll))
        fun sequence => ?_
      refine agrees_bind (agrees_lifted _) (keepsSound_queue (queueMove_poll _ rfl))
        fun _ => ?_
      cases sequence with
      | none => exact agrees_pure ()
      | some bytes =>
          exact decode_agrees now unixSeconds (decodeSequence?_eq · bytes)
            fun keyboard =>
              gives_decodeSequence (fun _ _ _ _ => short_bracketed _ _ _) keyboard bytes

theorem takeMouse_agrees (now unixSeconds : UInt32) :
    Agrees (Checked.takeMouse env now unixSeconds) (Console.takeMouse env now unixSeconds) := by
  have single (word : Event.Word) : ∀ event ∈ [[word]], Short event := by
    intro event member
    rw [List.mem_singleton.mp member]
    exact Nat.le_add_left 1 5
  have remembering (mouse : Mouse.Tracker) : KeepsSound (onConsole fun console : Console =>
      { console with mouse } : Action σ Unit) := fun session sound =>
    inputMove_sound _ _ (.mouse session mouse) sound
  refine agrees_bind (trackPointer_agrees env) (keepsSound_queue (trackPointer_makes env))
    fun report => ?_
  refine agrees_console fun before sound => ?_
  have few := takeButtons_few before.console.mouse report.buttons before.console.keyboard.held
  dsimp only
  rw [orTrap_bind (fill?_eq _ [] (by rwa [List.length_nil, Nat.zero_add]))]
  refine agrees_bind (agrees_lifted _) (remembering _) (fun _ => ?_) before sound
  refine agrees_bind (agrees_forM _ (fun event _ => ?_) fun event => ?_) ?_ fun _ => ?_
  · exact queueEvents_agrees now unixSeconds _ (Nat.le_succ 1) (single event.word)
  · exact keepsSound_queue (queueEvents_makes now unixSeconds _)
  · exact keepsSound_queue (makes_forM _ fun event => queueEvents_makes now unixSeconds _)
  · cases (Mouse.Tracker.takePosition _ _).1 with
    | none => exact agrees_pure ()
    | some moved =>
        refine queueEvents_agrees now unixSeconds _ (Nat.le_refl 2) ?_
        intro event member
        rcases List.mem_cons.mp member with rfl | second
        · exact Nat.le_add_left 1 5
        · rw [List.mem_singleton.mp second]
          exact Nat.le_add_left 1 5

theorem takeInput_agrees : Agrees (Checked.takeInput env) (Console.takeInput env) := by
  refine agrees_console fun session sound => ?_
  cases session.console.guest.queue.semaphore with
  | none =>
      exact agrees_bind (trackPointer_agrees env) (keepsSound_queue (trackPointer_makes env))
        (fun _ => agrees_pure ()) session sound
  | some semaphore =>
      refine agrees_bind (agrees_lifted _) (keepsSound_queue (readTicks_makes env))
        (fun now => ?_) session sound
      refine agrees_bind (agrees_lifted _) (keepsSound_queue (readUnixSeconds_makes env))
        fun unixSeconds => ?_
      refine agrees_bind (takeKeys_agrees env now unixSeconds)
        (keepsSound_queue (takeKeys_makes env now unixSeconds)) fun _ => ?_
      exact agrees_bind (takeMouse_agrees env now unixSeconds)
        (keepsSound_queue (takeMouse_makes env now unixSeconds)) fun _ => agrees_lifted _

end Input

/-! ## The guest's part and rendering -/

section Guest
open Checked
variable (env : Environment σ)

theorem serve_agrees (call : Guest.Call) :
    Agrees (Checked.serve env call) (Console.serve env call) := by
  refine agrees_get fun session sound => ?_
  rw [orTrap_bind (serve?_eq sound.inside _ call)]
  cases session.console.guest.serve (env.clock session.world) call <;> rfl

theorem runProgram_agrees (program : Guest.Program σ) :
    Agrees (Checked.runProgram env program) (Console.runProgram env program) := by
  induction program with
  | done world => exact agrees_lifted _
  | call world call next ih =>
      refine agrees_bind (agrees_lifted _) (keepsSound_guest (guestMove_onWorld _)) fun _ => ?_
      exact agrees_bind (serve_agrees env call) (keepsSound_guest (serve_makes env call)) ih

theorem step_agrees : Agrees (Checked.step env) (Console.step env) := by
  refine agrees_bind (agrees_lifted _) (keepsSound_guest (guestMove_record _ trivial))
    fun _ => ?_
  refine agrees_get fun session sound => ?_
  exact agrees_bind (runProgram_agrees env _) (keepsSound_guest (runProgram_makes env _))
    (fun _ => agrees_lifted _) session sound

theorem steps_agrees (count : Nat) :
    Agrees (Checked.steps env count) (Console.steps env count) := by
  induction count with
  | zero => exact agrees_pure ()
  | succ count ih =>
      refine agrees_console fun session sound => ?_
      refine agrees_ite (agrees_pure ()) ?_ session sound
      exact agrees_bind (step_agrees env) (keepsSound_guest (step_makes env)) fun _ => ih

theorem runGuest_agrees : Agrees (Checked.runGuest env) (Console.runGuest env) := by
  refine agrees_bind (agrees_lifted _) (keepsSound_guest (guestMove_onWorld _)) fun _ => ?_
  refine agrees_bind (agrees_lifted _) (keepsSound_guest (guestMove_record _ trivial))
    fun _ => ?_
  exact agrees_console fun session sound => steps_agrees env _ session sound

theorem drawFrame_agrees (size : Size) (damage : Rect) (handle : UInt32) :
    Agrees (Checked.drawFrame env size damage handle)
      (Console.drawFrame env size damage handle) := by
  refine agrees_get fun session sound => ?_
  dsimp only
  rw [orTrap_bind (blit?_eq _ size sound.centred damage)]
  refine agrees_bind (agrees_lifted _) (keepsSound_render (draw_makes env _)) (fun _ => ?_)
    session sound
  rw [orTrap_bind (drawing?_eq _ size sound.centred _ _)]
  exact agrees_bind (agrees_lifted _) (keepsSound_render (draw_makes env _))
    fun _ => agrees_lifted _

theorem render_agrees : Agrees (Checked.render env) (Console.render env) := by
  refine agrees_console fun session sound => ?_
  refine agrees_ite (agrees_pure ()) ?_ session sound
  refine agrees_bind (center_agrees env) (keepsSound_input (center_makes env)) fun _ => ?_
  refine agrees_bind (agrees_lifted _) (fun before sound =>
    renderMove_sound _ _ (.glyph before) sound) fun _ => ?_
  refine agrees_console fun before sound => ?_
  refine agrees_ite (agrees_pure ()) ?_ _ (renderMove_sound _ _ (.damage before) sound)
  refine agrees_bind (agrees_lifted _) (keepsSound_render (askDisplayBits_makes env _))
    fun handle => ?_
  cases handle with
  | none => exact agrees_pure ()
  | some handle => exact drawFrame_agrees env _ _ handle

end Guest

/-! ## Frames -/

section Frames
variable (env : Environment σ)

theorem frame_agrees : Agrees (Checked.frame env) (Console.frame env) := by
  refine agrees_bind (center_agrees env) (keepsSound_input (center_makes env)) fun _ => ?_
  refine agrees_bind (applyPointerRequest_agrees env)
    (keepsSound_input (applyPointerRequest_makes env)) fun _ => ?_
  refine agrees_bind (takeInput_agrees env) (keepsSound_input (takeInput_makes env)) fun _ => ?_
  refine agrees_bind (agrees_lifted _) (keepsSound_guest (checkAlarm_makes env)) fun _ => ?_
  refine agrees_bind (runGuest_agrees env) (keepsSound_guest (runGuest_makes env)) fun _ => ?_
  refine agrees_console fun session sound => ?_
  refine agrees_ite (agrees_pure _) ?_ session sound
  refine agrees_bind (render_agrees env) (keepsSound_render (render_makes env)) fun _ => ?_
  exact agrees_bind (agrees_lifted _) (keepsSound_render (pause_makes env)) fun _ => agrees_pure _

theorem keepsSound_frame : KeepsSound (Console.frame env) := fun _ sound =>
  frame_keeps env inputMove_sound guestMove_sound renderMove_sound sound

theorem run_agrees (count : Nat) : Agrees (Checked.run env count) (Console.run env count) := by
  induction count with
  | zero => exact agrees_pure _
  | succ count ih =>
      refine agrees_bind (frame_agrees env) (keepsSound_frame env) fun outcome => ?_
      cases outcome with
      | terminated => exact agrees_pure _
      | again => exact ih

theorem lifted_error {α : Type} {action : Action σ α} {session later : Session σ} {stop : Stop}
    (stopped : lifted action session = .error stop later) :
    ∃ halt, stop = .halt halt ∧ action session = .error halt later := by
  cases ran : action session with
  | ok answer other =>
      rw [lifted, ran] at stopped
      cases stopped
  | error halt other =>
      rw [lifted, ran] at stopped
      cases stopped
      exact ⟨halt, rfl, rfl⟩

end Frames

/-- Only a report of damage can break a rule, and it is never that of the semaphore. -/
theorem serve_error {guest : Guest.State} {clock : Guest.Clock} {call : Guest.Call}
    {violation : Violation} (broken : guest.serve clock call = .error violation) :
    violation ≠ .noInputSemaphore ∧ ∃ left top width height,
      call = .displayChanged left top width height ∧ guest.Rejects left top width height := by
  cases call with
  | displayChanged left top width height =>
      simp only [Guest.State.serve] at broken
      cases reported : guest.reportDamage left top width height with
      | ok next =>
          rw [reported] at broken
          cases broken
      | error other =>
          rw [reported] at broken
          cases broken
          refine ⟨?_, left, top, width, height, rfl, reportDamage_error_iff.mp ⟨_, reported⟩⟩
          rintro rfl
          unfold Guest.State.reportDamage at reported
          split at reported
          · cases reported
          · split at reported <;> cases reported
  | tryDisplayChanged left top width height =>
      simp only [Guest.State.serve] at broken
      split at broken <;> cases broken
  | _ => cases broken

/-- From every session that a console can reach, a frame, a run of frames and a service pass
all their checks.  A frame is broken off only where the screen refuses a pixel or where the
guest reports a rectangle that is rejected, and a service only for the latter. -/
theorem frames_pass_their_checks {env : Environment σ} {session : Session σ}
    (reachable : Console.Reachable env session) :
    Checked.frame env session = lifted (Console.frame env) session ∧
    (∀ count, Checked.run env count session = lifted (Console.run env count) session) ∧
    (∀ call, Checked.serve env call session = lifted (Console.serve env call) session) ∧
    (∀ stop later, Checked.frame env session = .error stop later →
      stop = .halt .screenRefused ∨
      ∃ violation left top width height, stop = .halt (.violated violation) ∧
        violation ≠ .noInputSemaphore ∧
        Console.Calls env session (.displayChanged left top width height) later ∧
        later.console.guest.Rejects left top width height) ∧
    ∀ call stop later, Checked.serve env call session = .error stop later →
      ∃ violation left top width height, stop = .halt (.violated violation) ∧
        violation ≠ .noInputSemaphore ∧ call = .displayChanged left top width height ∧
        session.console.guest.Rejects left top width height := by
  have sound := reachable.sound
  refine ⟨frame_agrees env session sound, fun count => run_agrees env count session sound,
    fun call => serve_agrees env call session sound, ?_, ?_⟩
  · intro stop later stopped
    rw [frame_agrees env session sound] at stopped
    obtain ⟨halt, rfl, broken⟩ := lifted_error stopped
    cases halt with
    | screenRefused => exact .inl rfl
    | violated violation =>
        obtain ⟨call, calls, refused⟩ := calls_of_violated env sound.bounded broken
        obtain ⟨other, left, top, width, height, rfl, rejects⟩ := serve_error refused
        exact .inr ⟨violation, left, top, width, height, rfl, other, calls, rejects⟩
  · intro call stop later stopped
    rw [serve_agrees env call session sound] at stopped
    obtain ⟨halt, rfl, broken⟩ := lifted_error stopped
    cases served : session.console.guest.serve (env.clock session.world) call with
    | ok result =>
        rw [serve_ok env served] at broken
        cases broken
    | error violation =>
        rw [serve_broken env served] at broken
        cases broken
        obtain ⟨other, left, top, width, height, rfl, rejects⟩ := serve_error served
        exact ⟨violation, left, top, width, height, rfl, other, rfl, rejects⟩

/-- The largest display, with the pointer asked for in its last pixel and the mouse in a
corner of all coordinates, until the guest reports a column behind the display. -/
theorem frames_pass_their_checks_on_largest_display :
    let surroundings := Console.idle ⟨4294967295, 100000⟩ (.done 0)
    let env := { surroundings with
      mouse world := ({ point := ⟨-2147483648, 2147483647⟩, buttons := 7 }, world)
      step world :=
        if world = 0 then
          .call 1 (.setInputSemaphore (some ⟨7⟩)) fun _ =>
            .call 1 (.setDisplaySize ⟨65535, 65535⟩) fun _ =>
              .call 1 (.setPointer 65534 65534) fun _ => .done 1
        else .call 2 (.displayChanged 65535 0 1 1) fun _ => .done 2 }
    let config : Config := { cyclesPerFrame := 100 }
    ∃ console, Console.create config env.keyboard.mode = .ok console ∧
      let session := Action.after (Console.callsUntil env 0 4) ⟨console, 0, []⟩
      session.console.guest.pointerRequest = some ⟨65534, 65534⟩ ∧
      Checked.frame env session = lifted (Console.frame env) session ∧
      ∃ violation left top width height later,
        Checked.frame env session = .error (.halt (.violated violation)) later ∧
        violation ≠ .noInputSemaphore ∧ later.console.guest.Rejects left top width height := by
  intro surroundings env config
  have created : Console.create config env.keyboard.mode = .ok _ := rfl
  refine ⟨_, created, ?_⟩
  intro session
  have facts : session.console.guest.pointerRequest = some ⟨65534, 65534⟩ ∧
      Console.ending (Console.frame env session) = .inl (.violated
        (.damageOutOfBounds ⟨⟨65535, 0, 1, 1⟩, ⟨65535, 65535⟩⟩)) := by decide +kernel
  have reachable : Console.Reachable env session := .withinSteps (.created created 0) 0 4
  -- the session is not to be computed again
  clear_value session
  obtain ⟨request, ended⟩ := facts
  obtain ⟨same, _, _, stops, _⟩ := frames_pass_their_checks reachable
  obtain ⟨later, broken⟩ := ending_error ended
  generalize Violation.damageOutOfBounds _ = fault at broken
  have stopped : Checked.frame env session = .error (.halt (.violated fault)) later := by
    rw [same, lifted, broken]
  obtain screen | ⟨violation, left, top, width, height, named, other, _, rejects⟩ :=
    stops _ later stopped
  · cases screen
  · rw [named] at stopped
    exact ⟨request, same, violation, left, top, width, height, later, stopped, other, rejects⟩

end GuestConsole
