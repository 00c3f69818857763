import GuestConsole.Console.Frame
import Mathlib.Logic.Relation

/-!
# What a frame can do to a session

Up to its rendering a frame changes the session by moves of two kinds: those that
take the input and those that serve the guest.  What every move keeps is kept up to
the rendering, also where the frame ends early.
-/

set_option autoImplicit false

namespace GuestConsole

open GuestConsole.Action GuestConsole.Console

variable {σ : Type}

/-! ## Actions one after the other -/

section Actions
variable {α β : Type} {action : Action σ α} {next : α → Action σ β} {session later : Session σ}

/-- The session that an action leaves behind, also where it has ended early. -/
def Action.after (action : Action σ α) (session : Session σ) : Session σ :=
  match action session with
  | .ok _ later => later
  | .error _ later => later

theorem after_ok {answer : α} (ran : action session = .ok answer later) :
    Action.after action session = later := by
  rw [Action.after, ran]

theorem after_error {halt : Halt} (ran : action session = .error halt later) :
    Action.after action session = later := by
  rw [Action.after, ran]

theorem bind_ok {answer : α} (ran : action session = .ok answer later) :
    (action >>= next) session = next answer later := by
  simp only [bind, EStateM.bind, ran]

theorem bind_error {halt : Halt} (ran : action session = .error halt later) :
    (action >>= next) session = .error halt later := by
  simp only [bind, EStateM.bind, ran]

theorem bind_get {next : Session σ → Action σ β} :
    (get >>= next) session = next session session := rfl

theorem bind_console {next : Console → Action σ β} :
    (Action.console >>= next) session = next session.console session := rfl

theorem after_bind (action : Action σ α) (next : α → Action σ β) (session : Session σ) :
    (∃ answer, action session = .ok answer (Action.after action session) ∧
      Action.after (action >>= next) session =
        Action.after (next answer) (Action.after action session)) ∨
    (∃ halt, action session = .error halt (Action.after action session) ∧
      Action.after (action >>= next) session = Action.after action session) := by
  cases ran : action session with
  | ok answer later =>
      left
      rw [after_ok ran]
      exact ⟨answer, rfl, by rw [Action.after, bind_ok ran, Action.after]⟩
  | error halt later =>
      right
      rw [after_error ran]
      exact ⟨halt, rfl, after_error (bind_error ran)⟩

end Actions

/-! ## Moves -/

def Effect.isPoll : Effect → Bool
  | .polledKeys _ => true
  | .polledSequence _ => true
  | _ => false

/-- An effect that neither polls the keyboard, nor answers the guest, nor touches the
screen. -/
def Effect.IsQuiet : Effect → Prop
  | .polledKeys _ => False
  | .polledSequence _ => False
  | .served _ _ => False
  | .drew _ => False
  | _ => True

def Effect.IsInput : Effect → Prop
  | .readTicks _ => True
  | .readUnixSeconds _ => True
  | .readMouse _ => True
  | .movedMouse _ => True
  | .refreshedCursor => True
  | .signalled .input _ => True
  | _ => False

def Effect.IsOutput : Effect → Prop
  | .askedDisplayBits _ _ => True
  | .waited _ => True
  | _ => False

def Effect.IsRunning : Effect → Prop
  | .readTicks _ => True
  | .checkedLowMemory => True
  | .stepped => True
  | .signalled .alarm _ => True
  | _ => False

theorem isQuiet_of_running {effect : Effect} (running : effect.IsRunning) :
    effect.IsQuiet := by
  cases effect with
  | readTicks now => trivial
  | checkedLowMemory => trivial
  | stepped => trivial
  | signalled cause semaphore => trivial
  | _ => exact running.elim

theorem isQuiet_of_output {effect : Effect} (output : effect.IsOutput) : effect.IsQuiet := by
  cases effect with
  | askedDisplayBits size granted => trivial
  | waited ms => trivial
  | _ => exact output.elim

/-- A change that taking the input makes to a session. -/
inductive Session.InputMove : Session σ → Session σ → Prop where
  | world (session : Session σ) (world : σ) : InputMove session { session with world }
  | note (session : Session σ) (effect : Effect) (input : effect.IsInput) :
      InputMove session { session with history := effect :: session.history }
  | poll (session : Session σ) (effect : Effect) (polls : effect.isPoll = true) :
      InputMove session { session with history := effect :: session.history }
  | center (session : Session σ) (screen : Display.Extent) :
      InputMove session { session with console := session.console.centered screen }
  | request (session : Session σ) :
      InputMove session { session with
        console.guest.pointerRequest := none }
  | point (session : Session σ) (point : Display.Point) :
      InputMove session { session with console := session.console.pointAt point }
  | keyboard (session : Session σ) (keyboard : Keyboard.Decoder) :
      InputMove session { session with console.keyboard := keyboard }
  | mouse (session : Session σ) (mouse : Mouse.Tracker) :
      InputMove session { session with console.mouse := mouse }
  | push (session : Session σ) (now unixSeconds : UInt32) (events : List (List Event.Word))
      (pushed : Input.Pushed) (queue : Input.Queue)
      (accepted : session.console.guest.queue.pushEvents now unixSeconds events =
        .ok (pushed, queue)) :
      InputMove session { session with console := session.console.withQueue queue }
  | owed (session : Session σ) :
      InputMove session { session with
        console := session.console.withQueue session.console.guest.queue.takeOwed.2 }

def Effect.mouseMove? : Effect → Option Display.Point
  | .movedMouse point => some point
  | _ => none

def mouseMoves (history : List Effect) : List Display.Point :=
  history.filterMap Effect.mouseMove?

/-- A change that the input makes once the frame has been opened: the mouse is not moved, and
a request to move it stays. -/
def Session.DeviceMove (before later : Session σ) : Prop :=
  InputMove before later ∧
    later.console.guest.pointerRequest = before.console.guest.pointerRequest ∧
    mouseMoves later.history = mouseMoves before.history

def Effect.inputSignal? : Effect → Option Semaphore
  | .signalled .input semaphore => some semaphore
  | _ => none

/-- The semaphores that have been signalled for input, the latest first. -/
def inputSignals (history : List Effect) : List Semaphore :=
  history.filterMap Effect.inputSignal?

/-- A change that the input makes before its signals are delivered: the queue is left as it
is or added to by a group of events. -/
def Session.QueueMove (before later : Session σ) : Prop :=
  DeviceMove before later ∧ inputSignals later.history = inputSignals before.history ∧
    (later.console.guest.queue = before.console.guest.queue ∨
      ∃ now unixSeconds events pushed,
        before.console.guest.queue.pushEvents now unixSeconds events =
          .ok (pushed, later.console.guest.queue))

inductive Session.GuestMove : Session σ → Session σ → Prop where
  | world (session : Session σ) (world : σ) : GuestMove session { session with world }
  | note (session : Session σ) (effect : Effect) (running : effect.IsRunning) :
      GuestMove session { session with history := effect :: session.history }
  | alarm (session : Session σ) (alarm : Alarm) :
      GuestMove session { session with console.guest.alarm := alarm }
  | due (session : Session σ) :
      GuestMove session { session with console.guest.dueSignal := none }
  | serve (session : Session σ) (clock : Guest.Clock) (call : Guest.Call)
      (answer : call.Answer) (guest : Guest.State)
      (served : session.console.guest.serve clock call = .ok (answer, guest)) :
      GuestMove session { session with
        console.guest := guest
        history := .served call answer :: session.history }

/-- A change that rendering and the pause after it make to a session. -/
inductive Session.RenderMove : Session σ → Session σ → Prop where
  | world (session : Session σ) (world : σ) : RenderMove session { session with world }
  | note (session : Session σ) (effect : Effect) (output : effect.IsOutput) :
      RenderMove session { session with history := effect :: session.history }
  | center (session : Session σ) (screen : Display.Extent) :
      RenderMove session { session with console := session.console.centered screen }
  | glyph (session : Session σ) :
      RenderMove session { session with console := session.console.takeGlyph }
  | damage (session : Session σ) :
      RenderMove session { session with console := session.console.takeDamage.2 }
  | draw (session : Session σ) (strokes : List Display.Stroke) (world : σ) :
      RenderMove session { session with
        world
        history := strokes.map Effect.drew ++ session.history }
  | overlay (session : Session σ) (overlay : Display.Overlay) :
      RenderMove session { session with console.overlay := overlay }

theorem keeps_bind {α β : Type} {action : Action σ α} {next : α → Action σ β}
    {invariant : Session σ → Prop} {session : Session σ}
    (first : invariant (Action.after action session))
    (second : ∀ answer middle, invariant middle →
      invariant (Action.after (next answer) middle)) :
    invariant (Action.after (action >>= next) session) := by
  rcases after_bind action next session with ⟨answer, _, whole⟩ | ⟨_, _, whole⟩
  · rw [whole]
    exact second answer _ first
  · rw [whole]
    exact first

theorem moves_keep {move : Session σ → Session σ → Prop} {invariant : Session σ → Prop}
    (kept : ∀ before later, move before later → invariant before → invariant later)
    {session later : Session σ} (moves : Relation.ReflTransGen move session later)
    (start : invariant session) : invariant later := by
  induction moves with
  | refl => exact start
  | tail _ last ih => exact kept _ _ last ih

/-- Whatever happens, an action changes the session only by moves of one kind. -/
def Makes {α : Type} (move : Session σ → Session σ → Prop) (action : Action σ α) : Prop :=
  ∀ session, Relation.ReflTransGen move session (Action.after action session)

section Makes
variable {α β : Type} {move : Session σ → Session σ → Prop}

theorem Makes.keeps {action : Action σ α} {invariant : Session σ → Prop}
    (makes : Makes move action)
    (kept : ∀ before later, move before later → invariant before → invariant later)
    {session : Session σ} (start : invariant session) :
    invariant (Action.after action session) :=
  moves_keep kept (makes session) start

theorem Makes.mono {stronger : Session σ → Session σ → Prop} {action : Action σ α}
    (makes : Makes stronger action)
    (weaker : ∀ before later, stronger before later → move before later) : Makes move action :=
  fun session => Relation.ReflTransGen.mono weaker _ _ (makes session)

theorem makes_pure (answer : α) : Makes move (pure answer : Action σ α) :=
  fun _ => .refl

theorem makes_throw (halt : Halt) : Makes move (throw halt : Action σ α) :=
  fun _ => .refl

theorem makes_bind {action : Action σ α} {next : α → Action σ β}
    (first : Makes move action) (second : ∀ answer, Makes move (next answer)) :
    Makes move (action >>= next) := by
  intro session
  rcases after_bind action next session with ⟨answer, _, whole⟩ | ⟨_, _, whole⟩
  · rw [whole]
    exact (first session).trans (second answer _)
  · rw [whole]
    exact first session

theorem makes_get {next : Session σ → Action σ β}
    (here : ∀ session, Relation.ReflTransGen move session
      (Action.after (next session) session)) :
    Makes move (get >>= next) :=
  fun session => here session

theorem makes_console {next : Console → Action σ β}
    (here : ∀ session, Relation.ReflTransGen move session
      (Action.after (next session.console) session)) :
    Makes move (Action.console >>= next) :=
  fun session => here session

theorem makes_ite {condition : Prop} [Decidable condition] {yes no : Action σ α}
    (left : Makes move yes) (right : Makes move no) :
    Makes move (if condition then yes else no) := by
  split
  · exact left
  · exact right

theorem makes_forM {action : α → Action σ PUnit} (list : List α)
    (each : ∀ item, Makes move (action item)) : Makes move (list.forM action) := by
  induction list with
  | nil => exact makes_pure _
  | cons item rest ih => exact makes_bind (each item) fun _ => ih

end Makes

/-! ## The moves of the input -/

section Input
open Session
variable (env : Environment σ)

theorem center_makes : Makes InputMove (center env) :=
  fun session => .single (.center session (env.extent session.world))

theorem inputMove_record (effect : Effect) (input : effect.IsInput) :
    Makes InputMove (record effect : Action σ Unit) :=
  fun session => .single (.note session effect input)

theorem inputMove_onWorld (change : σ → σ) : Makes InputMove (onWorld change) :=
  fun session => .single (.world session (change session.world))

theorem applyPointerRequest_makes : Makes InputMove (applyPointerRequest env) := by
  apply makes_console
  intro session
  cases request : session.console.guest.pointerRequest with
  | none => exact .refl
  | some position =>
      let point := session.console.brush.origin.offset position.x.toNat position.y.toNat
      have rest := makes_bind (inputMove_onWorld (env.moveMouse point)) fun _ =>
        makes_bind (inputMove_record (.movedMouse point) trivial) fun _ =>
          makes_bind (inputMove_onWorld env.refreshCursor) fun _ =>
            inputMove_record .refreshedCursor trivial
      exact .head (.request session) (rest _)

theorem queueMove_single {before later : Session σ} (move : InputMove before later)
    (request : later.console.guest.pointerRequest = before.console.guest.pointerRequest)
    (still : mouseMoves later.history = mouseMoves before.history)
    (unsignalled : inputSignals later.history = inputSignals before.history)
    (queue : later.console.guest.queue = before.console.guest.queue) :
    Relation.ReflTransGen QueueMove before later :=
  .single ⟨⟨move, request, still⟩, unsignalled, .inl queue⟩

theorem queueMove_record (effect : Effect) (input : effect.IsInput)
    (still : effect.mouseMove? = none) (unsignalled : effect.inputSignal? = none) :
    Makes QueueMove (record effect : Action σ Unit) :=
  fun session => queueMove_single (.note session effect input) rfl
    (List.filterMap_cons_none still) (List.filterMap_cons_none unsignalled) rfl

theorem queueMove_poll (effect : Effect) (polls : effect.isPoll = true) :
    Makes QueueMove (record effect : Action σ Unit) := by
  intro session
  cases effect with
  | polledKeys keys => exact queueMove_single (.poll session _ polls) rfl rfl rfl rfl
  | polledSequence bytes => exact queueMove_single (.poll session _ polls) rfl rfl rfl rfl
  | _ => cases polls

theorem queueMove_ask {α : Type} (question : σ → α × σ) : Makes QueueMove (ask question) :=
  fun session =>
    queueMove_single (.world session (question session.world).2) rfl rfl rfl rfl

theorem readTicks_makes : Makes QueueMove (readTicks env) :=
  fun session => queueMove_record (.readTicks (env.ticks session.world)) trivial rfl rfl session

theorem readUnixSeconds_makes : Makes QueueMove (readUnixSeconds env) :=
  fun session =>
    queueMove_record (.readUnixSeconds (env.unixSeconds session.world)) trivial rfl rfl session

theorem trackPointer_makes : Makes QueueMove (trackPointer env) := by
  refine makes_bind (queueMove_ask env.mouse) fun report => ?_
  refine makes_bind (queueMove_record _ trivial rfl rfl) fun _ => ?_
  refine makes_bind (fun session => ?_) fun _ => makes_pure _
  exact queueMove_single (.point session report.point) rfl rfl rfl rfl

theorem queueEvents_makes (now unixSeconds : UInt32) (events : List (List Event.Word)) :
    Makes QueueMove (queueEvents now unixSeconds events : Action σ Unit) := by
  apply makes_console
  intro session
  cases pushed : session.console.guest.queue.pushEvents now unixSeconds events with
  | error violation => exact .refl
  | ok result =>
      have move : InputMove session _ :=
        .push session now unixSeconds events result.1 result.2 pushed
      exact .single ⟨⟨move, rfl, rfl⟩, rfl, .inr ⟨now, unixSeconds, events, result.1, pushed⟩⟩

theorem queueDecoded_makes (now unixSeconds : UInt32) (decoded : Keyboard.Decoded) :
    Makes QueueMove (queueDecoded now unixSeconds decoded : Action σ Unit) := by
  cases decoded with
  | words words => exact queueEvents_makes now unixSeconds [words]
  | ignored reason => exact makes_pure _

theorem decode_makes (now unixSeconds : UInt32)
    (read : Keyboard.Decoder → Keyboard.Decoded × Keyboard.Decoder) :
    Makes QueueMove (decode now unixSeconds read : Action σ Unit) := by
  apply makes_console
  intro session
  have remembered : InputMove session { session with
      console.keyboard := (read session.console.keyboard).2 } := .keyboard session _
  refine (queueMove_single remembered rfl rfl rfl rfl).trans ?_
  exact queueDecoded_makes now unixSeconds (read session.console.keyboard).1 _

theorem takeKeys_makes (now unixSeconds : UInt32) :
    Makes QueueMove (takeKeys env now unixSeconds) := by
  unfold takeKeys
  cases env.keyboard with
  | raw poll =>
      refine makes_bind (queueMove_ask poll) fun keys => ?_
      refine makes_bind (queueMove_poll _ rfl) fun _ => ?_
      exact makes_forM keys fun key => decode_makes now unixSeconds _
  | cooked poll =>
      refine makes_bind (queueMove_ask poll) fun sequence => ?_
      refine makes_bind (queueMove_poll _ rfl) fun _ => ?_
      cases sequence with
      | none => exact makes_pure _
      | some bytes => exact decode_makes now unixSeconds _

theorem takeMouse_makes (now unixSeconds : UInt32) :
    Makes QueueMove (takeMouse env now unixSeconds) := by
  refine makes_bind (trackPointer_makes env) fun report => ?_
  refine makes_bind (fun _ => .refl) fun before => ?_
  refine makes_bind (fun session =>
    queueMove_single (.mouse session _) rfl rfl rfl rfl) fun _ => ?_
  refine makes_bind (makes_forM _ fun event => queueEvents_makes now unixSeconds _) fun _ => ?_
  split
  · exact makes_pure _
  · exact queueEvents_makes now unixSeconds _

def Console.takingEvents : Action σ Unit := do
  let now ← readTicks env
  let unixSeconds ← readUnixSeconds env
  takeKeys env now unixSeconds
  takeMouse env now unixSeconds

theorem takingEvents_makes : Makes QueueMove (takingEvents env) :=
  makes_bind (readTicks_makes env) fun now =>
    makes_bind (readUnixSeconds_makes env) fun unixSeconds =>
      makes_bind (takeKeys_makes env now unixSeconds) fun _ =>
        takeMouse_makes env now unixSeconds

theorem takeInput_registered {session : Session σ} {semaphore : Semaphore}
    (registered : session.console.guest.queue.semaphore = some semaphore) :
    takeInput env session = (takingEvents env >>= fun _ => deliverOwed env semaphore) session := by
  simp only [takingEvents, bind_assoc]
  rw [takeInput, bind_console]
  simp only [registered]

theorem takeInput_unregistered {session : Session σ}
    (unregistered : session.console.guest.queue.semaphore = none) :
    takeInput env session = (discard (trackPointer env) : Action σ Unit) session := by
  rw [takeInput, bind_console]
  simp only [unregistered]

theorem deviceMove_record (effect : Effect) (input : effect.IsInput)
    (still : effect.mouseMove? = none) : Makes DeviceMove (record effect : Action σ Unit) :=
  fun session => .single ⟨.note session effect input, rfl, List.filterMap_cons_none still⟩

theorem deviceMove_onWorld (change : σ → σ) : Makes DeviceMove (onWorld change) :=
  fun session => .single ⟨.world session (change session.world), rfl, rfl⟩

theorem signalTimes_makes (semaphore : Semaphore) (times : Nat) :
    Makes DeviceMove (signalTimes env semaphore times) := by
  induction times with
  | zero => exact makes_pure _
  | succ times ih =>
      refine makes_bind ?_ fun _ => ih
      exact makes_bind (deviceMove_onWorld _) fun _ => deviceMove_record _ trivial rfl

theorem deliverOwed_makes (semaphore : Semaphore) :
    Makes DeviceMove (deliverOwed env semaphore) := by
  refine makes_console fun session => ?_
  refine (Relation.ReflTransGen.single ⟨.owed session, rfl, rfl⟩).trans ?_
  exact signalTimes_makes env semaphore _ _

theorem takeInput_devices : Makes DeviceMove (takeInput env) := by
  intro session
  have queueing {action : Action σ Unit} (makes : Makes QueueMove action) :
      Makes DeviceMove action := makes.mono fun _ _ move => move.1
  cases registered : session.console.guest.queue.semaphore with
  | none =>
      have tracks : Makes QueueMove (discard (trackPointer env) : Action σ Unit) :=
        makes_bind (trackPointer_makes env) fun _ => makes_pure ()
      rw [Action.after, takeInput_unregistered env registered]
      exact queueing tracks session
  | some semaphore =>
      rw [Action.after, takeInput_registered env registered]
      exact makes_bind (queueing (takingEvents_makes env))
        (fun _ => deliverOwed_makes env semaphore) session

theorem takeInput_makes : Makes InputMove (takeInput env) :=
  (takeInput_devices env).mono fun _ _ move => move.1

end Input

/-! ## The moves of the guest's part -/

section Guest
open Session
variable (env : Environment σ)

theorem guestMove_record (effect : Effect) (running : effect.IsRunning) :
    Makes GuestMove (record effect : Action σ Unit) :=
  fun session => .single (.note session effect running)

theorem guestMove_onWorld (change : σ → σ) : Makes GuestMove (onWorld change) :=
  fun session => .single (.world session (change session.world))

theorem guestMove_signal (semaphore : Semaphore) :
    Makes GuestMove (signal env .alarm semaphore) :=
  makes_bind (guestMove_onWorld _) fun _ => guestMove_record _ trivial

theorem checkAlarm_makes : Makes GuestMove (checkAlarm env) := by
  have read : Makes GuestMove (readTicks env) := fun session =>
    .single (.note session (.readTicks (env.ticks session.world)) trivial)
  refine makes_bind read fun now => makes_console fun session => ?_
  refine (Relation.ReflTransGen.single
    (.alarm session (session.console.guest.alarm.poll now).2)).trans ?_
  cases due : (session.console.guest.alarm.poll now).1 with
  | none => simp only [due]; exact .refl
  | some semaphore => simp only [due]; exact guestMove_signal env semaphore _

theorem deliverDue_makes : Makes GuestMove (deliverDue env) := by
  refine makes_console fun session => ?_
  refine (Relation.ReflTransGen.single (.due session)).trans ?_
  cases due : session.console.guest.dueSignal with
  | none => exact .refl
  | some semaphore => exact guestMove_signal env semaphore _

theorem serve_makes (call : Guest.Call) : Makes GuestMove (serve env call) := by
  refine makes_get fun session => ?_
  cases served : session.console.guest.serve (env.clock session.world) call with
  | error violation => exact .refl
  | ok result =>
      exact .single (.serve session (env.clock session.world) call result.1 result.2 served)

theorem serve_ok {session : Session σ} {call : Guest.Call} {answer : call.Answer} {guest : Guest.State}
    (served : session.console.guest.serve (env.clock session.world) call = .ok (answer, guest)) :
    serve env call session = .ok answer { session with
      console.guest := guest
      history := .served call answer :: session.history } := by
  rw [serve, bind_get]
  simp only [served]
  rfl

theorem serve_broken {session : Session σ} {call : Guest.Call} {violation : Violation}
    (broken : session.console.guest.serve (env.clock session.world) call = .error violation) :
    serve env call session = .error (.violated violation) session := by
  rw [serve, bind_get]
  simp only [broken]
  rfl

theorem runProgram_makes (program : Guest.Program σ) :
    Makes GuestMove (runProgram env program) := by
  induction program with
  | done world => exact guestMove_onWorld _
  | call world call next ih =>
      refine makes_bind (guestMove_onWorld _) fun _ => ?_
      exact makes_bind (serve_makes env call) ih

theorem step_makes : Makes GuestMove (step env) := by
  refine makes_bind (guestMove_record _ trivial) fun _ => makes_get fun session => ?_
  exact makes_bind (runProgram_makes env _) (fun _ => deliverDue_makes env) session

theorem steps_makes (count : Nat) : Makes GuestMove (steps env count) := by
  induction count with
  | zero => exact makes_pure _
  | succ count ih =>
      refine makes_console fun session => ?_
      cases session.console.guest.quit with
      | true => exact .refl
      | false => exact makes_bind (step_makes env) (fun _ => ih) session

theorem runGuest_makes : Makes GuestMove (runGuest env) := by
  refine makes_bind (guestMove_onWorld _) fun _ => ?_
  refine makes_bind (guestMove_record _ trivial) fun _ => makes_console fun session => ?_
  exact steps_makes env _ session

end Guest

/-! ## The moves of rendering -/

section Render
open Session
variable (env : Environment σ)

theorem askDisplayBits_makes (size : Display.Size) :
    Makes RenderMove (askDisplayBits env size) := by
  refine makes_bind (fun session =>
    .single (.world session (env.displayBits size session.world).2)) fun handle => ?_
  refine makes_bind (fun session =>
    .single (.note session (.askedDisplayBits size handle.isSome) trivial)) fun _ => ?_
  exact makes_pure _

theorem draw_makes (strokes : List Display.Stroke) : Makes RenderMove (draw env strokes) := by
  refine makes_bind (fun session => ?_) fun drawn => ?_
  · exact .single (RenderMove.draw session
      (Display.carryOut env.put strokes [] session.world).strokes
      (Display.carryOut env.put strokes [] session.world).screen)
  · cases drawn with
    | true => exact makes_pure _
    | false => exact makes_throw _

theorem drawFrame_makes (size : Display.Size) (damage : Display.Rect) (handle : UInt32) :
    Makes RenderMove (drawFrame env size damage handle) := by
  refine makes_get fun session => ?_
  refine makes_bind (draw_makes env _) (fun _ => ?_) session
  refine makes_bind (draw_makes env _) fun _ => ?_
  exact fun now => .single (.overlay now _)

theorem render_makes : Makes RenderMove (render env) := by
  refine makes_console fun session => ?_
  refine makes_ite (makes_pure _) ?_ session
  refine makes_bind (fun session =>
    .single (RenderMove.center session (env.extent session.world))) fun _ => ?_
  refine makes_bind (fun session => .single (RenderMove.glyph session)) fun _ => ?_
  refine makes_console fun session => ?_
  refine (Relation.ReflTransGen.single (RenderMove.damage session)).trans ?_
  refine makes_ite (makes_pure _) ?_ _
  refine makes_bind (askDisplayBits_makes env _) fun handle => ?_
  cases handle with
  | none => exact makes_pure _
  | some handle => exact drawFrame_makes env _ _ handle

theorem pause_makes : Makes RenderMove (pause env) := by
  refine makes_console fun session => ?_
  cases session.console.config.frameDelay? with
  | none => exact .refl
  | some ms =>
      refine makes_bind (fun session => .single (.world session _)) (fun _ => ?_) session
      exact fun session => .single (.note session (.waited ms) trivial)

end Render

/-! ## Reports of damage -/

section Reports
variable {guest next : Guest.State} {left top width height : Int32}

theorem reportDamage_ok (reported : guest.reportDamage left top width height = .ok next) :
    (0 ≤ left.toInt ∧ 0 ≤ top.toInt ∧ 0 ≤ width.toInt ∧ 0 ≤ height.toInt) ∧
      ∃ damage, guest.damage.report ⟨Guest.State.narrow left, Guest.State.narrow top,
          Guest.State.narrow width, Guest.State.narrow height⟩ guest.display = .ok damage ∧
        next = { guest with damage } := by
  unfold Guest.State.reportDamage at reported
  split at reported
  case isTrue => cases reported
  case isFalse natural =>
    simp only [Bool.or_eq_true, decide_eq_true_eq, Int32.lt_iff_toInt_lt,
      Int32.toInt_zero] at natural
    refine ⟨by omega, ?_⟩
    split at reported
    case h_1 => cases reported
    case h_2 damage accepted => exact ⟨damage, accepted, (Except.ok.inj reported).symm⟩

theorem serve_displayChanged {clock : Guest.Clock} {answer : Unit}
    (served : guest.serve clock (.displayChanged left top width height) = .ok (answer, next)) :
    guest.reportDamage left top width height = .ok next := by
  simp only [Guest.State.serve] at served
  split at served
  case h_1 => cases served
  case h_2 state reported =>
    obtain ⟨_, rfl⟩ := Prod.mk.inj (Except.ok.inj served)
    exact reported

theorem serve_tryDisplayChanged {clock : Guest.Clock} {answer : Option Violation}
    (served : guest.serve clock (.tryDisplayChanged left top width height) =
      .ok (answer, next)) :
    (answer ≠ none ∧ next = guest) ∨
      answer = none ∧ guest.reportDamage left top width height = .ok next := by
  simp only [Guest.State.serve] at served
  split at served
  case h_1 violation _ =>
    obtain ⟨rfl, rfl⟩ := Prod.mk.inj (Except.ok.inj served)
    exact .inl ⟨nofun, rfl⟩
  case h_2 state reported =>
    obtain ⟨rfl, rfl⟩ := Prod.mk.inj (Except.ok.inj served)
    exact .inr ⟨rfl, reported⟩

def Guest.Call.isReport : Guest.Call → Bool
  | .displayChanged .. => true
  | .tryDisplayChanged .. => true
  | _ => false

theorem serve_report {clock : Guest.Clock} {call : Guest.Call} {answer : call.Answer}
    (served : guest.serve clock call = .ok (answer, next)) (report : call.isReport = true) :
    ∃ damage, next = { guest with damage } := by
  cases call with
  | displayChanged left top width height =>
      obtain ⟨_, damage, _, rfl⟩ := reportDamage_ok (serve_displayChanged served)
      exact ⟨damage, rfl⟩
  | tryDisplayChanged left top width height =>
      rcases serve_tryDisplayChanged served with ⟨_, rfl⟩ | ⟨_, reported⟩
      · exact ⟨_, rfl⟩
      · obtain ⟨_, damage, _, rfl⟩ := reportDamage_ok reported
        exact ⟨damage, rfl⟩
  | _ => cases report

def Guest.Call.isAboutBitmap : Guest.Call → Bool
  | .setDisplaySize _ => true
  | .displayChanged .. => true
  | .tryDisplayChanged .. => true
  | _ => false

theorem serve_bitmap {clock : Guest.Clock} {call : Guest.Call} {answer : call.Answer}
    (served : guest.serve clock call = .ok (answer, next))
    (about : call.isAboutBitmap = true) :
    ∃ display pointer damage, next = { guest with display, pointer, damage } := by
  cases call with
  | setDisplaySize size =>
      obtain ⟨_, rfl⟩ := Prod.mk.inj (Except.ok.inj served)
      unfold Guest.State.resize
      split <;> exact ⟨_, _, _, rfl⟩
  | displayChanged | tryDisplayChanged =>
      obtain ⟨damage, rfl⟩ := serve_report served rfl
      exact ⟨_, _, damage, rfl⟩
  | _ => cases about

end Reports

/-! ## Whole frames -/

section Frames
variable (env : Environment σ)

/-- The beginning of a frame: the display is centred and the mouse moved. -/
def Console.opening : Action σ Unit := do
  center env
  applyPointerRequest env

def Console.takingInput : Action σ Unit := do
  opening env
  takeInput env

def Console.beforeRender : Action σ Unit := do
  opening env
  takeInput env
  checkAlarm env
  runGuest env

def Console.afterGuest : Action σ Outcome := do
  if (← console).guest.quit then return .terminated
  else
    render env
    pause env
    return .again

theorem frame_eq : frame env = beforeRender env >>= fun _ => afterGuest env := by
  simp only [frame, beforeRender, opening, afterGuest, bind_assoc]

theorem opening_makes : Makes Session.InputMove (opening env) :=
  makes_bind (center_makes env) fun _ => applyPointerRequest_makes env

theorem takingInput_makes : Makes Session.InputMove (takingInput env) :=
  makes_bind (opening_makes env) fun _ => takeInput_makes env

theorem beforeRender_keeps {invariant : Session σ → Prop}
    (input : ∀ before later, Session.InputMove before later → invariant before → invariant later)
    (guest : ∀ before later, Session.GuestMove before later → invariant before → invariant later)
    {session : Session σ} (start : invariant session) :
    invariant (Action.after (beforeRender env) session) := by
  refine keeps_bind ((opening_makes env).keeps input start) fun _ session opened => ?_
  refine keeps_bind ((takeInput_makes env).keeps input opened) fun _ session taken => ?_
  refine keeps_bind ((checkAlarm_makes env).keeps guest taken) fun _ session checked => ?_
  exact (runGuest_makes env).keeps guest checked

theorem afterGuest_makes : Makes Session.RenderMove (afterGuest env) := by
  refine makes_console fun session => ?_
  refine makes_ite (makes_pure _) ?_ session
  refine makes_bind (render_makes env) fun _ => ?_
  exact makes_bind (pause_makes env) fun _ => makes_pure _

theorem frame_keeps {invariant : Session σ → Prop}
    (input : ∀ before later, Session.InputMove before later → invariant before → invariant later)
    (guest : ∀ before later, Session.GuestMove before later → invariant before → invariant later)
    (render : ∀ before later, Session.RenderMove before later →
      invariant before → invariant later)
    {session : Session σ} (start : invariant session) :
    invariant (Action.after (frame env) session) := by
  rw [frame_eq]
  exact keeps_bind (beforeRender_keeps env input guest start) fun _ _ ready =>
    (afterGuest_makes env).keeps render ready

theorem after_opening_keeps {invariant : Session σ → Prop}
    (input : ∀ before later, Session.DeviceMove before later → invariant before → invariant later)
    (guest : ∀ before later, Session.GuestMove before later → invariant before → invariant later)
    (render : ∀ before later, Session.RenderMove before later →
      invariant before → invariant later)
    {session : Session σ} (opened : invariant (Action.after (opening env) session)) :
    invariant (Action.after (frame env) session) := by
  rw [frame_eq]
  refine keeps_bind ?_ fun _ _ ready => (afterGuest_makes env).keeps render ready
  refine keeps_bind opened fun _ _ opened => ?_
  refine keeps_bind ((takeInput_devices env).keeps input opened) fun _ _ taken => ?_
  refine keeps_bind ((checkAlarm_makes env).keeps guest taken) fun _ _ checked => ?_
  exact (runGuest_makes env).keeps guest checked

def Console.ending : EStateM.Result Halt (Session σ) Outcome → Halt ⊕ Outcome
  | .ok outcome _ => .inr outcome
  | .error halt _ => .inl halt

theorem ending_ok {result : EStateM.Result Halt (Session σ) Outcome} {outcome : Outcome}
    (ended : ending result = .inr outcome) : ∃ later, result = .ok outcome later := by
  cases result with
  | ok given later =>
      cases ended
      exact ⟨later, rfl⟩
  | error halt later => cases ended

theorem ending_error {result : EStateM.Result Halt (Session σ) Outcome} {halt : Halt}
    (ended : ending result = .inl halt) : ∃ later, result = .error halt later := by
  cases result with
  | ok given later => cases ended
  | error given later =>
      cases ended
      exact ⟨later, rfl⟩

/-- The session after some frames, however each of them has ended. -/
def Session.afterFrames (start : Session σ) : Nat → Session σ
  | 0 => start
  | count + 1 => Action.after (frame env) (start.afterFrames count)

theorem afterFrames_of_first (start : Session σ) (count : Nat) :
    (Action.after (frame env) start).afterFrames env count =
      start.afterFrames env (count + 1) := by
  induction count with
  | zero => rfl
  | succ count ih => exact congrArg (Action.after (frame env)) ih

end Frames

theorem create_exact {config : Config} {mode : Keyboard.Mode} {console : Console}
    (created : Console.create config mode = .ok console) :
    console.mouse = {} ∧ console.guest = Guest.State.initial config.input.wakePolicy ∧
      console.overlay = {} ∧
      console.brush = ⟨Display.Palette.ofRgb config.display.foreground
        config.display.background config.display.cursorColor, {}⟩ := by
  unfold Console.create at created
  split at created
  · cases created
  · split at created
    · cases created
      exact ⟨rfl, rfl, rfl, rfl⟩
    · cases created

theorem create_config {config : Config} {mode : Keyboard.Mode} {console : Console}
    (created : Console.create config mode = .ok console) : console.config = config := by
  unfold Console.create at created
  split at created
  · cases created
  · split at created <;> cases created
    rfl

/-- Surroundings in which nothing is typed and the mouse rests, with a guest that makes these
calls in its first step. -/
def Console.idle (screen : Display.Extent) (calls : Guest.Program Nat) : Environment Nat where
  ticks _ := 0
  unixSeconds _ := 0
  keyboard := .raw fun world => ([], world)
  mouse world := ({ point := ⟨0, 0⟩ }, world)
  moveMouse _ world := world
  refreshCursor world := world
  wait _ world := world
  extent _ := screen
  put _ _ world := some world
  signal _ world := world
  displayBits _ world := (some 1, world)
  word _ _ _ := 0
  lowMemory world := world
  step world := if world = 0 then calls else .done world

end GuestConsole
