import GuestConsole.Proofs.DisplayBounds
import GuestConsole.Proofs.TimedSignals

/-!
# The calls of a frame

A frame is cut where its guest calls a service.  Up to there it makes moves of the input and
of the guest, the call is served next, and what follows makes moves of the guest and of
rendering.  Before its rendering a frame ends early only at a call that breaks a rule.
-/

set_option autoImplicit false

namespace GuestConsole

open GuestConsole.Action GuestConsole.Console

variable {σ : Type}

section Definitions
variable (env : Environment σ)

/-- Run from a session on, a program comes to a call, which it makes in this session. -/
inductive Guest.Program.ComesTo :
    Guest.Program σ → Session σ → Guest.Call → Session σ → Prop where
  | here (world : σ) (call : Guest.Call) (next : call.Answer → Guest.Program σ)
      (session : Session σ) :
      ComesTo (.call world call next) session call { session with world }
  | later (world : σ) (first : Guest.Call) (next : first.Answer → Guest.Program σ)
      {session served calling : Session σ} {call : Guest.Call} (answer : first.Answer)
      (ran : serve env first { session with world } = .ok answer served)
      (rest : ComesTo (next answer) served call calling) :
      ComesTo (.call world first next) session call calling

def Session.begun (session : Session σ) : Session σ :=
  { session with history := .stepped :: session.history }

/-- In the frame that begins at `before` the guest makes a call, in the session `calling`. -/
def Console.Calls (before : Session σ) (call : Guest.Call) (calling : Session σ) : Prop :=
  ∃ done < before.console.config.cyclesPerFrame.toNat, ∃ middle,
    untilStep env done before = .ok () middle ∧ middle.console.guest.quit = false ∧
      (env.step middle.world).ComesTo env
        middle.begun call calling

end Definitions

/-! ## What moves keep -/

section Moves
variable {before : Session σ}

theorem inputMove_grown (session later : Session σ) (move : Session.InputMove session later)
    (grown : before.Grown session) : before.Grown later := by
  obtain ⟨effects, grown⟩ := grown
  cases move with
  | note effect input => exact ⟨effect :: effects, congrArg (effect :: ·) grown⟩
  | poll effect polls => exact ⟨effect :: effects, congrArg (effect :: ·) grown⟩
  | _ => exact ⟨effects, grown⟩

theorem guestMove_grown (session later : Session σ) (move : Session.GuestMove session later)
    (grown : before.Grown session) : before.Grown later := by
  obtain ⟨effects, grown⟩ := grown
  cases move with
  | note effect running => exact ⟨effect :: effects, congrArg (effect :: ·) grown⟩
  | serve clock call answer guest served =>
      exact ⟨.served call answer :: effects, congrArg (_ :: ·) grown⟩
  | _ => exact ⟨effects, grown⟩

theorem inputMove_bounded (session later : Session σ) (move : Session.InputMove session later)
    (bounded : session.console.guest.queue.length ≤ Input.Queue.capacity) :
    later.console.guest.queue.length ≤ Input.Queue.capacity := by
  cases move with
  | push now unixSeconds events pushed queue accepted =>
      have kept := Input.Queue.perform_bounded session.console.guest.queue
        (.push (.group now unixSeconds events)) bounded
      simp only [Input.Queue.perform, Input.Queue.Push.result, accepted] at kept
      exact kept
  | _ => exact bounded

theorem guestMove_bounded (session later : Session σ) (move : Session.GuestMove session later)
    (bounded : session.console.guest.queue.length ≤ Input.Queue.capacity) :
    later.console.guest.queue.length ≤ Input.Queue.capacity := by
  cases move with
  | serve clock call answer guest served => exact (serve_shortens served).trans bounded
  | _ => exact bounded

theorem renderMove_queue {queue : Input.Queue} (session later : Session σ)
    (move : Session.RenderMove session later) (same : session.console.guest.queue = queue) :
    later.console.guest.queue = queue := by
  cases move with
  | glyph =>
      unfold Console.takeGlyph
      split <;> exact same
  | _ => exact same

theorem renderMove_bounded (session later : Session σ) (move : Session.RenderMove session later)
    (bounded : session.console.guest.queue.length ≤ Input.Queue.capacity) :
    later.console.guest.queue.length ≤ Input.Queue.capacity := by
  rw [renderMove_queue session later move rfl]
  exact bounded

theorem inputMove_config {config : Config} (session later : Session σ)
    (move : Session.InputMove session later) (same : session.console.config = config) :
    later.console.config = config := by
  cases move <;> exact same

theorem guestMove_config {config : Config} (session later : Session σ)
    (move : Session.GuestMove session later) (same : session.console.config = config) :
    later.console.config = config := by
  cases move <;> exact same

theorem renderMove_config {config : Config} (session later : Session σ)
    (move : Session.RenderMove session later) (same : session.console.config = config) :
    later.console.config = config := by
  cases move with
  | glyph =>
      unfold Console.takeGlyph
      split <;> exact same
  | _ => exact same

theorem Console.Reachable.bounded {env : Environment σ} {session : Session σ}
    (reachable : Reachable env session) :
    session.console.guest.queue.length ≤ Input.Queue.capacity := by
  let invariant : Session σ → Prop := fun session =>
    session.console.guest.queue.length ≤ Input.Queue.capacity
  have input (before : Session σ) (bounded : invariant before) :
      invariant (Action.after (takingInput env) before) :=
    (takingInput_makes env).keeps inputMove_bounded bounded
  suffices kept : invariant session from kept
  refine reachable.keeps (fun world created => ?_) input guestMove_bounded renderMove_bounded
  exact (created_fed created world).holds.bounded

end Moves

theorem bind_congr_at {α β : Type} {first second : Action σ α} {next : α → Action σ β}
    {session other : Session σ} (same : first session = second other) :
    (first >>= next) session = (second >>= next) other := by
  simp only [bind, EStateM.bind, same]

/-! ## Input that does not fail -/

section Input
variable (env : Environment σ) {before : Session σ}

/-- Any session whose queue is not overfull is what has been made of some deliveries. -/
theorem fed_of_bounded
    (bounded : before.console.guest.queue.length ≤ Input.Queue.capacity) :
    ∃ feed, Fed feed before := by
  let console := before.console
  let written : Written := {
    words := taken before.history ++ console.guest.queue.words
    previous? := console.guest.queue.stamper.previous? }
  exact ⟨⟨console.keyboard, console.mouse.buttons, console.mouse.position, written⟩,
    rfl, rfl, rfl, rfl, rfl, bounded⟩

theorem startingGuest_makes : Makes Session.GuestMove (startingGuest env) :=
  makes_bind (checkAlarm_makes env) fun _ =>
    makes_bind (guestMove_onWorld env.lowMemory) fun _ =>
      guestMove_record .checkedLowMemory trivial

theorem takingInput_ok
    (bounded : before.console.guest.queue.length ≤ Input.Queue.capacity) :
    takingInput env before = .ok () (Action.after (takingInput env) before) := by
  obtain ⟨feed, fed⟩ := fed_of_bounded bounded
  obtain ⟨opened, later, openRan, inputRan, _⟩ := input_exact env fed
  have ran : takingInput env before = .ok () later := (bind_ok openRan).trans inputRan
  rw [after_ok ran, ran]

theorem checkAlarm_ok (session : Session σ) :
    checkAlarm env session = .ok () (Action.after (checkAlarm env) session) := by
  rw [Action.after, checkAlarm_eq]
  cases (session.console.guest.alarm.poll (env.ticks session.world)).1 <;> rfl

theorem startingGuest_ok (session : Session σ) :
    startingGuest env session = .ok () (Action.after (startingGuest env) session) := by
  have ran : startingGuest env session = (do
      onWorld env.lowMemory
      record .checkedLowMemory) (Action.after (checkAlarm env) session) :=
    bind_ok (checkAlarm_ok env session)
  rw [Action.after, ran]
  rfl

theorem steps_quit {session : Session σ} (quit : session.console.guest.quit = true) (count : Nat) :
    steps env count session = .ok () session := by
  cases count with
  | zero => rfl
  | succ count =>
      rw [steps, bind_console, quit]
      rfl

theorem steps_succ {session : Session σ} (goesOn : session.console.guest.quit = false)
    (count : Nat) :
    steps env (count + 1) session = (step env >>= fun _ => steps env count) session := by
  rw [steps, bind_console, goesOn]
  rfl

theorem steps_add (first second : Nat) (session : Session σ) :
    steps env (first + second) session =
      (steps env first >>= fun _ => steps env second) session := by
  induction first generalizing session with
  | zero => rw [Nat.zero_add]; rfl
  | succ first ih =>
      rw [Nat.succ_add]
      cases quit : session.console.guest.quit with
      | true => rw [steps_quit env quit, bind_ok (steps_quit env quit _), steps_quit env quit]
      | false =>
          rw [steps_succ env quit, bind_congr_at (steps_succ env quit first), bind_assoc,
            funext ih]

theorem untilStep_add (first second : Nat) :
    untilStep env (first + second) =
      (untilStep env first >>= fun _ => steps env second) := by
  have split : steps env (first + second) = (steps env first >>= fun _ => steps env second) :=
    funext (steps_add env first second)
  simp only [untilStep, split, bind_assoc]

theorem beforeRender_eq_untilStep
    (bounded : before.console.guest.queue.length ≤ Input.Queue.capacity) :
    beforeRender env before =
      untilStep env before.console.config.cyclesPerFrame.toNat before := by
  let ready := Action.after (takingInput env) before
  let begun := Action.after (startingGuest env) ready
  have inputRan : takingInput env before = .ok () ready := takingInput_ok env bounded
  have startRan : startingGuest env ready = .ok () begun := startingGuest_ok env ready
  have settings : begun.console.config = before.console.config :=
    (startingGuest_makes env).keeps guestMove_config
      ((takingInput_makes env).keeps inputMove_config rfl)
  have parts : beforeRender env = (do
      takingInput env
      startingGuest env
      steps env (← console).config.cyclesPerFrame.toNat) := by
    simp only [beforeRender, takingInput, startingGuest, runGuest, bind_assoc]
  rw [parts, untilStep, bind_ok inputRan, bind_ok inputRan, bind_ok startRan, bind_ok startRan,
    bind_console, settings]

theorem frame_after_input {ready : Session σ} (ran : takingInput env before = .ok () ready) :
    frame env before = ((do checkAlarm env; runGuest env) >>= fun _ => afterGuest env) ready := by
  have parts : frame env = (takingInput env >>= fun _ =>
      (do checkAlarm env; runGuest env) >>= fun _ => afterGuest env) := by
    simp only [frame_eq, beforeRender, takingInput, bind_assoc]
  rw [parts, bind_ok ran]

theorem after_ready_keeps {invariant : Session σ → Prop}
    (guest : ∀ before later, Session.GuestMove before later → invariant before → invariant later)
    (render : ∀ before later, Session.RenderMove before later →
      invariant before → invariant later)
    {ready : Session σ} (ran : takingInput env before = .ok () ready) (start : invariant ready) :
    invariant (Action.after (frame env) before) := by
  rw [Action.after, frame_after_input env ran]
  refine keeps_bind ?_ fun _ _ kept => (afterGuest_makes env).keeps render kept
  exact (makes_bind (checkAlarm_makes env) fun _ => runGuest_makes env).keeps guest start

end Input

/-! ## Histories that grow -/

section Frames
variable (env : Environment σ)

theorem frame_grown (before : Session σ) : before.Grown (Action.after (frame env) before) :=
  frame_keeps env inputMove_grown guestMove_grown renderMove_grown ⟨[], rfl⟩

theorem afterFrames_grown (start : Session σ) (frames : Nat) :
    start.Grown (start.afterFrames env frames) := by
  induction frames with
  | zero => exact ⟨[], rfl⟩
  | succ frames ih => exact frame_keeps env inputMove_grown guestMove_grown renderMove_grown ih

end Frames

/-! ## Coming to a call -/

section Programs
variable (env : Environment σ) {session calling : Session σ} {program : Guest.Program σ}
  {call : Guest.Call}

theorem Guest.Program.ComesTo.run (comes : program.ComesTo env session call calling) :
    ∃ next : call.Answer → Guest.Program σ, runProgram env program session =
      (serve env call >>= fun answer => runProgram env (next answer)) calling := by
  induction comes with
  | here world call next session => exact ⟨next, runProgram_call env world call next⟩
  | later world first next answer ran rest ih =>
      obtain ⟨others, run⟩ := ih
      exact ⟨others, by rw [runProgram_call, bind_ok ran, run]⟩

theorem Guest.Program.ComesTo.moves (comes : program.ComesTo env session call calling) :
    Relation.ReflTransGen Session.GuestMove session calling := by
  induction comes with
  | here world call next session => exact .single (.world session world)
  | later world first next answer ran rest ih =>
      refine (Relation.ReflTransGen.single (.world _ world)).trans (.trans ?_ ih)
      have served := serve_makes env first
      rw [← after_ok ran]
      exact served _

theorem runProgram_broken {halt : Halt} {later : Session σ}
    (ran : runProgram env program session = .error halt later) :
    ∃ call violation, program.ComesTo env session call later ∧ halt = .violated violation ∧
      later.console.guest.serve (env.clock later.world) call = .error violation := by
  induction program generalizing session with
  | done world => cases ran
  | call world call next ih =>
      let calling : Session σ := { session with world }
      rw [runProgram_call] at ran
      cases served : calling.console.guest.serve (env.clock world) call with
      | error violation =>
          rw [bind_error (serve_broken env served)] at ran
          obtain ⟨rfl, rfl⟩ := EStateM.Result.error.inj ran
          exact ⟨call, violation, .here world call next session, rfl, served⟩
      | ok result =>
          obtain ⟨answer, guest⟩ := result
          have goesOn := serve_ok env served
          rw [bind_ok goesOn] at ran
          obtain ⟨made, violation, comes, rest⟩ := ih answer ran
          exact ⟨made, violation, .later world call next answer goesOn comes, rest⟩

theorem deliverDue_ok (session : Session σ) :
    deliverDue env session = .ok () (Action.after (deliverDue env) session) := by
  rw [Action.after, deliverDue, bind_console]
  cases session.console.guest.dueSignal <;> rfl

theorem steps_broken {halt : Halt} {count : Nat} {later : Session σ}
    (ran : steps env count session = .error halt later) :
    ∃ done < count, ∃ middle, steps env done session = .ok () middle ∧
      middle.console.guest.quit = false ∧
      runProgram env (env.step middle.world) middle.begun = .error halt later := by
  induction count generalizing session with
  | zero => cases ran
  | succ count ih =>
      cases quit : session.console.guest.quit with
      | true =>
          rw [steps_quit env quit] at ran
          cases ran
      | false =>
          rw [steps_succ env quit] at ran
          cases stepped : step env session with
          | ok answer middle =>
              rw [bind_ok stepped] at ran
              obtain ⟨done, few, last, reached, broken⟩ := ih ran
              refine ⟨done + 1, Nat.succ_lt_succ few, last, ?_, broken⟩
              rw [steps_succ env quit, bind_ok stepped, reached]
          | error broken middle =>
              rw [bind_error stepped] at ran
              cases ran
              refine ⟨0, Nat.succ_pos count, session, rfl, quit, ?_⟩
              have begins : step env session = (runProgram env (env.step session.world) >>=
                  fun _ => deliverDue env) session.begun := step_eq env
              rw [begins] at stepped
              cases program : runProgram env (env.step session.world) session.begun with
              | error _ _ => rwa [bind_error program] at stepped
              | ok answer done =>
                  rw [bind_ok program, deliverDue_ok] at stepped
                  cases stepped

end Programs

/-! ## Calls within a frame -/

section Frames
variable (env : Environment σ) {before calling : Session σ} {call : Guest.Call}

theorem Console.Calls.moves (calls : Calls env before call calling)
    (bounded : before.console.guest.queue.length ≤ Input.Queue.capacity) :
    Relation.ReflTransGen Session.GuestMove
      (Action.after (startingGuest env) (Action.after (takingInput env) before)) calling := by
  obtain ⟨done, _, middle, reached, _, comes⟩ := calls
  have ran : steps env done
      (Action.after (startingGuest env) (Action.after (takingInput env) before)) =
        .ok () middle := by
    rw [← reached, untilStep, bind_ok (takingInput_ok env bounded),
      bind_ok (startingGuest_ok env _)]
  have first := steps_makes env done
    (Action.after (startingGuest env) (Action.after (takingInput env) before))
  rw [after_ok ran] at first
  exact first.trans ((Relation.ReflTransGen.single (.note middle .stepped trivial)).trans
    comes.moves)

/-- A frame that comes to a call serves it, and the rest is the guest's and the rendering. -/
theorem Console.Calls.frame_eq (calls : Calls env before call calling)
    (bounded : before.console.guest.queue.length ≤ Input.Queue.capacity) :
    ∃ rest : call.Answer → Action σ Unit, (∀ answer, Makes Session.GuestMove (rest answer)) ∧
      frame env before =
        ((serve env call >>= rest) >>= fun _ => afterGuest env) calling := by
  obtain ⟨done, few, middle, reached, goesOn, comes⟩ := calls
  obtain ⟨next, program⟩ := comes.run
  obtain ⟨count, split⟩ := Nat.exists_eq_add_of_lt few
  refine ⟨fun answer => do runProgram env (next answer); deliverDue env; steps env count, ?_, ?_⟩
  · intro answer
    exact makes_bind (runProgram_makes env _) fun _ =>
      makes_bind (deliverDue_makes env) fun _ => steps_makes env count
  · have stepped : step env middle =
        ((serve env call >>= fun answer => runProgram env (next answer)) >>=
          fun _ => deliverDue env) calling := by
      rw [step_eq]
      exact bind_congr_at program
    have ready : beforeRender env before = (((serve env call >>= fun answer =>
        runProgram env (next answer)) >>= fun _ => deliverDue env) >>=
          fun _ => steps env count) calling := by
      rw [beforeRender_eq_untilStep env bounded, split, Nat.add_assoc, untilStep_add,
        bind_ok reached, steps_succ env goesOn]
      exact bind_congr_at stepped
    rw [GuestConsole.frame_eq]
    simp only [bind_assoc] at ready ⊢
    rw [bind_congr_at ready]
    simp only [bind_assoc]

theorem Console.Calls.broken (calls : Calls env before call calling)
    (bounded : before.console.guest.queue.length ≤ Input.Queue.capacity)
    {violation : Violation}
    (broken : calling.console.guest.serve (env.clock calling.world) call = .error violation) :
    frame env before = .error (.violated violation) calling := by
  obtain ⟨rest, _, ran⟩ := calls.frame_eq env bounded
  rw [ran, bind_error (bind_error (serve_broken env broken))]

theorem afterGuest_follows (action : Action σ Unit) (session : Session σ) :
    Relation.ReflTransGen Session.RenderMove (Action.after action session)
      (Action.after (action >>= fun _ => afterGuest env) session) := by
  rcases after_bind action (fun _ => afterGuest env) session with ⟨_, _, whole⟩ | ⟨_, _, whole⟩
  · rw [whole]
    exact afterGuest_makes env _
  · rw [whole]

theorem Console.Calls.goes_on (calls : Calls env before call calling)
    (bounded : before.console.guest.queue.length ≤ Input.Queue.capacity) :
    ∃ ready, Relation.ReflTransGen Session.GuestMove calling ready ∧
      Relation.ReflTransGen Session.RenderMove ready (Action.after (frame env) before) := by
  obtain ⟨rest, makes, ran⟩ := calls.frame_eq env bounded
  have later := afterGuest_follows env (serve env call >>= rest) calling
  rw [Action.after, Action.after, ← ran] at later
  exact ⟨_, makes_bind (serve_makes env call) makes calling, later⟩

theorem Console.Calls.ends (calls : Calls env before call calling)
    (bounded : before.console.guest.queue.length ≤ Input.Queue.capacity)
    {answer : call.Answer} {called : Session σ}
    (served : serve env call calling = .ok answer called) :
    ∃ ready, Relation.ReflTransGen Session.GuestMove called ready ∧
      Relation.ReflTransGen Session.RenderMove ready (Action.after (frame env) before) := by
  obtain ⟨rest, makes, ran⟩ := calls.frame_eq env bounded
  have later := afterGuest_follows env (rest answer) called
  rw [bind_assoc, bind_ok served] at ran
  rw [Action.after, Action.after, ← ran] at later
  exact ⟨_, makes answer called, later⟩

/-- Rendering ends early only where the screen refuses a pixel. -/
theorem afterGuest_error {ready later : Session σ} {halt : Halt}
    (ran : afterGuest env ready = .error halt later) : halt = .screenRefused := by
  rw [afterGuest, bind_console] at ran
  cases quit : ready.console.guest.quit with
  | true =>
      rw [quit] at ran
      cases ran
  | false =>
      simp only [quit, Bool.false_eq_true, if_false] at ran
      have cases := render_cases env ready
      generalize rendered : render env ready = result at cases
      cases cases with
      | broken done stroke rest world needed parts =>
          rw [bind_error rendered] at ran
          cases ran
          rfl
      | _ =>
          obtain ⟨last, paused, _⟩ := pause_rested env _
          rw [bind_ok rendered, bind_ok paused] at ran
          cases ran

/-- A frame that is stopped by a broken rule has come to a call that breaks it. -/
theorem calls_of_violated {later : Session σ} {violation : Violation}
    (bounded : before.console.guest.queue.length ≤ Input.Queue.capacity)
    (stopped : frame env before = .error (.violated violation) later) :
    ∃ call, Calls env before call later ∧
      later.console.guest.serve (env.clock later.world) call = .error violation := by
  have inputRan := takingInput_ok env bounded
  have startRan := startingGuest_ok env (Action.after (takingInput env) before)
  rw [frame_eq] at stopped
  cases ran : beforeRender env before with
  | ok answer ready =>
      rw [bind_ok ran] at stopped
      cases afterGuest_error env stopped
  | error halt broken =>
      rw [bind_error ran] at stopped
      cases stopped
      rw [beforeRender_eq_untilStep env bounded, untilStep, bind_ok inputRan,
        bind_ok startRan] at ran
      obtain ⟨done, few, middle, reached, goesOn, program⟩ := steps_broken env ran
      obtain ⟨call, other, comes, same, refused⟩ := runProgram_broken env program
      cases same
      refine ⟨call, ⟨done, few, middle, ?_, goesOn, comes⟩, refused⟩
      rw [untilStep, bind_ok inputRan, bind_ok startRan, reached]

end Frames

end GuestConsole
