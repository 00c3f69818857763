import GuestConsole.Proofs.AlarmLog
import GuestConsole.Proofs.InputStream

/-!
# The timed signals of a run

The events that concern the alarm are read off the guest's programs and the clock.  In
every run the history shows exactly these events, and after each of them exactly the
signal that falls due with it.
-/

set_option autoImplicit false

namespace GuestConsole

open GuestConsole.Action GuestConsole.Console

variable {σ : Type}

/-! ## What a history shows -/

inductive AlarmMark where
  | began
  | asked (semaphore : Option Semaphore) (tick : UInt32)
  | signalled (semaphore : Semaphore)
  deriving DecidableEq, Repr

def Effect.alarmMark? : Effect → Option AlarmMark
  | .stepped => some .began
  | .served (.signalAt semaphore tick) _ => some (.asked semaphore tick)
  | .signalled .alarm semaphore => some (.signalled semaphore)
  | _ => none

/-- What a history shows of steps, calls for signals and timed signals, the latest first. -/
def alarmMarks (history : List Effect) : List AlarmMark := history.filterMap Effect.alarmMark?

def AlarmEvent.mark? : AlarmEvent → Option AlarmMark
  | .began => some .began
  | .asked call => some (.asked call.semaphore call.tick)
  | .ended => none
  | .checked _ => none

def AlarmEntry.marks (entry : AlarmEntry) : List AlarmMark :=
  (entry.signal.map AlarmMark.signalled).toList ++ entry.event.mark?.toList

/-! ## The events of a run -/

def Guest.Call.asks (call : Guest.Call) (now : UInt32) : List AlarmEvent :=
  match call with
  | .signalAt semaphore tick => [.asked ⟨semaphore, tick, now⟩]
  | _ => []

/-- The calls for a signal in a program that is run for this guest, up to its end or to a
broken rule. -/
def Guest.Program.asks (env : Environment σ) :
    Guest.Program σ → Guest.State → List AlarmEvent
  | .done _, _ => []
  | .call world service next, guest =>
      match guest.serve (env.clock world) service with
      | .error _ => []
      | .ok (answer, guest) => (next answer).asks env guest ++ service.asks (env.ticks world)

section Definitions
variable (env : Environment σ)

def Console.startingGuest : Action σ Unit := do
  checkAlarm env
  onWorld env.lowMemory
  record .checkedLowMemory

def Console.untilStep (done : Nat) : Action σ Unit := do
  takingInput env
  startingGuest env
  steps env done

/-- Some steps from here on; one that breaks a rule does not end. -/
def Session.stepsEvents : Nat → Session σ → List AlarmEvent
  | 0, _ => []
  | count + 1, session =>
      let asked := (env.step session.world).asks env session.console.guest
      if session.console.guest.quit then []
      else
        match step env session with
        | .ok _ later => later.stepsEvents count ++ .ended :: (asked ++ [.began])
        | .error _ _ => asked ++ [.began]

def Session.eventsUntil (before : Session σ) (done : Nat) : List AlarmEvent :=
  let ready := Action.after (takingInput env) before
  (Action.after (startingGuest env) ready).stepsEvents env done
    ++ [.checked (env.ticks ready.world)]

def Session.frameEvents (before : Session σ) : List AlarmEvent :=
  let ready := Action.after (takingInput env) before
  before.eventsUntil env
    (Action.after (startingGuest env) ready).console.config.cyclesPerFrame.toNat

def Session.alarmEvents (start : Session σ) : Nat → List AlarmEvent
  | 0 => []
  | count + 1 => (start.afterFrames env count).frameEvents env ++ start.alarmEvents count

/-- A moment of the frame that begins at `before`: its events till then, and the session. -/
inductive Console.AlarmMoment (before : Session σ) : List AlarmEvent → Session σ → Prop where
  | input (now : Session σ) (moves : Relation.ReflTransGen Session.InputMove before now) :
      AlarmMoment before [] now
  | steps (done : Nat) (later : Session σ) (reached : untilStep env done before = .ok () later) :
      AlarmMoment before (before.eventsUntil env done) later
  | calls (done calls : Nat) (later : Session σ)
      (reached : untilStep env done before = .ok () later)
      (goesOn : later.console.guest.quit = false) :
      AlarmMoment before
        (((env.step later.world).take calls).asks env later.console.guest
          ++ .began :: before.eventsUntil env done)
        (Action.after
          (do record .stepped; runProgram env ((env.step later.world).take calls)) later)
  | render (ready now : Session σ) (reached : beforeRender env before = .ok () ready)
      (moves : Relation.ReflTransGen Session.RenderMove ready now) :
      AlarmMoment before (before.frameEvents env) now
  | finish : AlarmMoment before (before.frameEvents env) (Action.after (frame env) before)

def Session.Unbroken (start : Session σ) (count : Nat) : Prop :=
  ∀ frames < count, ∀ violation later,
    frame env (start.afterFrames env frames) ≠ .error (.violated violation) later

end Definitions

/-! ## Sessions and their events -/

/-- The history shows the events and the signals that fall due, and the guest's state is
what the events leave. -/
structure Logged (events : List AlarmEvent) (session : Session σ) : Prop where
  log : ∃ log : List AlarmEntry, log.map AlarmEntry.event = events ∧
    alarmMarks session.history = log.flatMap AlarmEntry.marks ∧ SignalsRightly log
  alarm : session.console.guest.alarm.Follows events
  due : ∀ semaphore, session.console.guest.dueSignal = some semaphore ↔
    FallsDue events semaphore .ended

/-- Outside of the steps no due signal waits. -/
structure Rests (events : List AlarmEvent) (session : Session σ) : Prop
    extends Logged events session where
  delivered : session.console.guest.dueSignal = none

section Logged
variable {events : List AlarmEvent} {session later : Session σ}

theorem Logged.same (logged : Logged events session)
    (alarm : later.console.guest.alarm = session.console.guest.alarm)
    (due : later.console.guest.dueSignal = session.console.guest.dueSignal)
    (marks : alarmMarks later.history = alarmMarks session.history) : Logged events later := by
  obtain ⟨log, same, shown, rightly⟩ := logged.log
  refine ⟨⟨log, same, marks.trans shown, rightly⟩, ?_, ?_⟩
  · rw [alarm]
    exact logged.alarm
  · rw [due]
    exact logged.due

theorem Rests.same (rests : Rests events session)
    (alarm : later.console.guest.alarm = session.console.guest.alarm)
    (due : later.console.guest.dueSignal = session.console.guest.dueSignal)
    (marks : alarmMarks later.history = alarmMarks session.history) : Rests events later :=
  ⟨rests.toLogged.same alarm due marks, due.trans rests.delivered⟩

theorem Logged.extend (logged : Logged events session) (event : AlarmEvent)
    (signal : Option Semaphore)
    (rightly : ∀ semaphore, signal = some semaphore ↔ FallsDue events semaphore event)
    (marks : alarmMarks later.history =
      AlarmEntry.marks ⟨event, signal⟩ ++ alarmMarks session.history)
    (alarm : later.console.guest.alarm.Follows (event :: events))
    (due : ∀ semaphore, later.console.guest.dueSignal = some semaphore ↔
      FallsDue (event :: events) semaphore .ended) :
    Logged (event :: events) later := by
  obtain ⟨log, same, shown, earlier⟩ := logged.log
  refine ⟨⟨⟨event, signal⟩ :: log, ?_, ?_, ?_⟩, alarm, due⟩
  · rw [List.map_cons, same]
  · rw [marks, shown, List.flatMap_cons]
  · apply signalsRightly_cons earlier
    rw [same]
    exact rightly

theorem nothing_due_after (event : AlarmEvent) (other : ∀ call, event ≠ .asked call)
    (semaphore : Semaphore) :
    (none : Option Semaphore) = some semaphore ↔ FallsDue (event :: events) semaphore .ended := by
  constructor
  · nofun
  · rintro ⟨call, earlier, same, _⟩
    exact absurd (List.cons.inj same).1 (other call)

theorem alarmMarks_cons (effect : Effect) (history : List Effect) :
    alarmMarks (effect :: history) = effect.alarmMark?.toList ++ alarmMarks history := by
  cases mark : effect.alarmMark? <;> simp [alarmMarks, mark]

theorem alarmMarks_unmarked {effect : Effect} (unmarked : effect.alarmMark? = none)
    (history : List Effect) : alarmMarks (effect :: history) = alarmMarks history := by
  rw [alarmMarks_cons, unmarked, Option.toList_none, List.nil_append]

/-! ### Moves that do not concern the alarm -/

theorem inputMove_rests (before later : Session σ) (move : Session.InputMove before later)
    (rests : Rests events before) : Rests events later := by
  cases move with
  | note effect input =>
      have unmarked : effect.alarmMark? = none := by
        cases effect with
        | signalled cause semaphore =>
            cases cause with
            | input => rfl
            | alarm => exact input.elim
        | served call answer => exact input.elim
        | stepped => exact input.elim
        | _ => rfl
      exact rests.same rfl rfl (alarmMarks_unmarked unmarked _)
  | poll effect polls =>
      have unmarked : effect.alarmMark? = none := by
        cases effect with
        | polledKeys keys => rfl
        | polledSequence bytes => rfl
        | _ => cases polls
      exact rests.same rfl rfl (alarmMarks_unmarked unmarked _)
  | _ => exact rests.same rfl rfl rfl

theorem renderMove_rests (before later : Session σ) (move : Session.RenderMove before later)
    (rests : Rests events before) : Rests events later := by
  cases move with
  | note effect output =>
      have unmarked : effect.alarmMark? = none := by
        cases effect with
        | askedDisplayBits size granted => rfl
        | waited ms => rfl
        | _ => exact output.elim
      exact rests.same rfl rfl (alarmMarks_unmarked unmarked _)
  | glyph =>
      unfold Console.takeGlyph
      split <;> exact rests.same rfl rfl rfl
  | draw strokes world =>
      refine rests.same rfl rfl ?_
      have unmarked : alarmMarks (strokes.map Effect.drew) = [] := by
        simp [alarmMarks, Effect.alarmMark?]
      rw [alarmMarks, List.filterMap_append]
      exact congrArg (· ++ alarmMarks before.history) unmarked
  | _ => exact rests.same rfl rfl rfl

end Logged

/-! ### The guest's steps -/

section Guest
variable (env : Environment σ) {events : List AlarmEvent} {session : Session σ}

theorem serve_alarm {guest next : Guest.State} {clock : Guest.Clock} {call : Guest.Call}
    {answer : call.Answer} (served : guest.serve clock call = .ok (answer, next))
    (other : ∀ semaphore tick, call ≠ .signalAt semaphore tick) :
    next.alarm = guest.alarm ∧ next.dueSignal = guest.dueSignal := by
  cases call with
  | signalAt semaphore tick => exact absurd rfl (other semaphore tick)
  | setDisplaySize | displayChanged | tryDisplayChanged =>
      obtain ⟨_, _, _, rfl⟩ := serve_bitmap served rfl
      exact ⟨rfl, rfl⟩
  | _ =>
      obtain ⟨rfl, rfl⟩ := Prod.mk.inj (Except.ok.inj served)
      exact ⟨rfl, rfl⟩

theorem served_logged (logged : Logged events session) {clock : Guest.Clock}
    {call : Guest.Call} {answer : call.Answer} {guest : Guest.State}
    (served : session.console.guest.serve clock call = .ok (answer, guest)) :
    Logged (call.asks clock.ticks ++ events) { session with
      console.guest := guest
      history := .served call answer :: session.history } := by
  by_cases signalAt : ∃ semaphore tick, call = .signalAt semaphore tick
  · obtain ⟨semaphore, tick, rfl⟩ := signalAt
    obtain ⟨_, rfl⟩ := Prod.mk.inj (Except.ok.inj served)
    obtain ⟨due, follows⟩ := follows_schedule events semaphore tick clock.ticks
    refine logged.extend (.asked ⟨semaphore, tick, clock.ticks⟩) none
      (fun _ => ⟨nofun, nofun⟩) rfl follows ?_
    intro other
    refine (due other).trans ?_
    constructor
    · rintro ⟨named, passed⟩
      exact ⟨_, events, rfl, named, passed⟩
    · rintro ⟨call, earlier, same, named, passed⟩
      obtain ⟨here, _⟩ := List.cons.inj same
      cases here
      exact ⟨named, passed⟩
  · have other : ∀ semaphore tick, call ≠ .signalAt semaphore tick :=
      fun semaphore tick same => signalAt ⟨semaphore, tick, same⟩
    obtain ⟨alarm, due⟩ := serve_alarm served other
    have unasked : call.asks clock.ticks = [] := by
      cases call with
      | signalAt semaphore tick => exact absurd rfl (other semaphore tick)
      | _ => rfl
    have unmarked : (Effect.served call answer).alarmMark? = none := by
      cases call with
      | signalAt semaphore tick => exact absurd rfl (other semaphore tick)
      | _ => rfl
    rw [unasked]
    exact logged.same alarm due (alarmMarks_unmarked unmarked _)

theorem runProgram_call (world : σ) (call : Guest.Call)
    (next : call.Answer → Guest.Program σ) :
    runProgram env (.call world call next) session =
      (serve env call >>= fun answer => runProgram env (next answer))
        { session with world } := rfl

theorem step_eq : step env session =
    (runProgram env (env.step session.world) >>= fun _ => deliverDue env)
      { session with history := .stepped :: session.history } := rfl

theorem runProgram_logged (program : Guest.Program σ) (logged : Logged events session) :
    Logged (program.asks env session.console.guest ++ events)
      (Action.after (runProgram env program) session) := by
  induction program generalizing session events with
  | done world => exact logged.same rfl rfl rfl
  | call world call next ih =>
      have here : Logged events { session with world } := logged.same rfl rfl rfl
      rw [Action.after, runProgram_call]
      cases served : session.console.guest.serve (env.clock world) call with
      | error violation =>
          rw [bind_error (serve_broken env served), Guest.Program.asks, served]
          exact here
      | ok result =>
          obtain ⟨answer, guest⟩ := result
          have rest := ih answer (served_logged here served)
          rw [bind_ok (serve_ok env served), Guest.Program.asks, served]
          rw [← List.append_assoc] at rest
          exact rest

theorem deliverDue_rests (logged : Logged events session) :
    ∃ later, deliverDue env session = .ok () later ∧ Rests (.ended :: events) later := by
  have follows : session.console.guest.alarm.Follows (.ended :: events) :=
    follows_of_iff (fun _ => awaits_ended) logged.alarm
  rw [deliverDue, bind_console]
  cases due : session.console.guest.dueSignal with
  | none =>
      refine ⟨_, rfl, logged.extend .ended none ?_ rfl follows (nothing_due_after _ nofun), rfl⟩
      intro semaphore
      rw [← logged.due semaphore, due]
  | some semaphore =>
      refine ⟨_, rfl, logged.extend .ended (some semaphore) ?_ rfl follows
        (nothing_due_after _ nofun), rfl⟩
      intro other
      rw [← logged.due other, due]

theorem checkAlarm_eq : checkAlarm env session =
    (match (session.console.guest.alarm.poll (env.ticks session.world)).1 with
      | none => pure ()
      | some semaphore => signal env .alarm semaphore : Action σ Unit) { session with
        console.guest.alarm := (session.console.guest.alarm.poll (env.ticks session.world)).2
        history := .readTicks (env.ticks session.world) :: session.history } := rfl

theorem checkAlarm_rests (rests : Rests events session) :
    ∃ later, checkAlarm env session = .ok () later ∧
      Rests (.checked (env.ticks session.world) :: events) later := by
  let now := env.ticks session.world
  obtain ⟨due, follows⟩ := follows_poll rests.alarm now
  have nothing : ∀ semaphore, session.console.guest.dueSignal = some semaphore ↔
      FallsDue (.checked now :: events) semaphore .ended := by
    rw [rests.delivered]
    exact nothing_due_after _ nofun
  rw [checkAlarm_eq]
  cases polled : (session.console.guest.alarm.poll now).1 with
  | none =>
      rw [polled] at due
      exact ⟨_, rfl, rests.toLogged.extend (.checked now) none due rfl follows nothing,
        rests.delivered⟩
  | some semaphore =>
      rw [polled] at due
      exact ⟨_, rfl, rests.toLogged.extend (.checked now) (some semaphore) due rfl follows nothing,
        rests.delivered⟩

theorem began_logged (rests : Rests events session) :
    Logged (.began :: events) { session with history := .stepped :: session.history } := by
  refine rests.toLogged.extend .began none (fun _ => ⟨nofun, nofun⟩) rfl ?_ ?_
  · exact follows_of_iff (fun _ => awaits_began) rests.alarm
  · intro semaphore
    change session.console.guest.dueSignal = some semaphore ↔ _
    rw [rests.delivered]
    exact nothing_due_after .began nofun semaphore

theorem step_logged (rests : Rests events session) :
    let asked := (env.step session.world).asks env session.console.guest ++ .began :: events
    (∃ later, step env session = .ok () later ∧ Rests (.ended :: asked) later) ∨
      ∃ halt later, step env session = .error halt later ∧ Logged asked later := by
  intro asked
  let begun : Session σ := { session with history := .stepped :: session.history }
  have logged : Logged asked (Action.after (runProgram env (env.step session.world)) begun) :=
    runProgram_logged env (env.step session.world) (began_logged rests)
  rw [step_eq]
  cases program : runProgram env (env.step session.world) begun with
  | ok answer middle =>
      rw [after_ok program] at logged
      rw [bind_ok program]
      exact .inl (deliverDue_rests env logged)
  | error halt middle =>
      rw [after_error program] at logged
      rw [bind_error program]
      exact .inr ⟨halt, middle, rfl, logged⟩

theorem steps_logged (count : Nat) (rests : Rests events session) :
    (∃ later, steps env count session = .ok () later ∧
        Rests (session.stepsEvents env count ++ events) later) ∨
      ∃ halt later, steps env count session = .error halt later ∧
        Logged (session.stepsEvents env count ++ events) later := by
  -- each step starts at rest again, with more events behind it
  induction count generalizing session events with
  | zero => exact .inl ⟨session, rfl, rests⟩
  | succ count ih =>
      rw [steps, bind_console, Session.stepsEvents]
      cases quit : session.console.guest.quit with
      | true => exact .inl ⟨session, rfl, rests⟩
      | false =>
          simp only [Bool.false_eq_true, if_false]
          rcases step_logged env rests with ⟨middle, ran, ended⟩ | ⟨halt, middle, ran, broken⟩
          · rw [bind_ok ran, ran]
            simpa [List.append_assoc] using ih ended
          · rw [bind_error ran, ran]
            right
            exact ⟨halt, middle, rfl, by simpa [List.append_assoc] using broken⟩

end Guest

/-! ## Frames and runs -/

section Breaks
variable (env : Environment σ) {session later : Session σ} {halt : Halt}

theorem runProgram_error {program : Guest.Program σ}
    (ran : runProgram env program session = .error halt later) :
    ∃ violation, halt = .violated violation := by
  induction program generalizing session with
  | done world => cases ran
  | call world call next ih =>
      rw [runProgram_call] at ran
      cases served : session.console.guest.serve (env.clock world) call with
      | error violation =>
          rw [bind_error (serve_broken env served)] at ran
          cases ran
          exact ⟨violation, rfl⟩
      | ok result =>
          obtain ⟨answer, guest⟩ := result
          rw [bind_ok (serve_ok env served)] at ran
          exact ih answer ran

theorem step_error (ran : step env session = .error halt later) :
    ∃ violation, halt = .violated violation := by
  let begun : Session σ := { session with history := .stepped :: session.history }
  rw [step_eq] at ran
  cases program : runProgram env (env.step session.world) begun with
  | error broken middle =>
      rw [bind_error program] at ran
      cases ran
      exact runProgram_error env program
  | ok answer middle =>
      have delivers : ∃ later, deliverDue env middle = .ok () later := by
        rw [deliverDue, bind_console]
        cases middle.console.guest.dueSignal <;> exact ⟨_, rfl⟩
      obtain ⟨delivered, deliverRan⟩ := delivers
      rw [bind_ok program, deliverRan] at ran
      cases ran

theorem steps_error {count : Nat} (ran : steps env count session = .error halt later) :
    ∃ violation, halt = .violated violation := by
  induction count generalizing session with
  | zero => cases ran
  | succ count ih =>
      rw [steps, bind_console] at ran
      cases quit : session.console.guest.quit with
      | true =>
          rw [quit] at ran
          cases ran
      | false =>
          simp only [quit, Bool.false_eq_true, if_false] at ran
          cases stepped : step env session with
          | error broken middle =>
              rw [bind_error stepped] at ran
              cases ran
              exact step_error env stepped
          | ok answer middle =>
              rw [bind_ok stepped] at ran
              exact ih ran

end Breaks

section Frames
variable (env : Environment σ) {events : List AlarmEvent} {feed : Feed} {before : Session σ}

theorem startingGuest_rests (fed : Fed feed before) (rests : Rests events before) :
    let ready := Action.after (takingInput env) before
    ∃ begun, takingInput env before = .ok () ready ∧ startingGuest env ready = .ok () begun ∧
      Rests (.checked (env.ticks ready.world) :: events) begun := by
  intro ready
  obtain ⟨opened, taken, openRan, inputRan, _⟩ := input_exact env fed
  have inputOk : takingInput env before = .ok () taken := by
    rw [takingInput, bind_ok openRan, inputRan]
  have same : ready = taken := after_ok inputOk
  have readyRests : Rests events ready := (takingInput_makes env).keeps inputMove_rests rests
  obtain ⟨checked, checkRan, checkedRests⟩ := checkAlarm_rests env readyRests
  refine ⟨_, same ▸ inputOk, bind_ok checkRan, ?_⟩
  exact checkedRests.same rfl rfl rfl

theorem untilStep_logged (fed : Fed feed before) (rests : Rests events before) (done : Nat) :
    (∃ later, untilStep env done before = .ok () later ∧
        Rests (before.eventsUntil env done ++ events) later) ∨
      ∃ violation later, untilStep env done before = .error (.violated violation) later ∧
        Logged (before.eventsUntil env done ++ events) later := by
  obtain ⟨begun, inputRan, startRan, begunRests⟩ := startingGuest_rests env fed rests
  have ran : untilStep env done before = steps env done begun := by
    rw [untilStep, bind_ok inputRan, bind_ok startRan]
  have order : before.eventsUntil env done ++ events = begun.stepsEvents env done ++
      .checked (env.ticks (Action.after (takingInput env) before).world) :: events := by
    rw [Session.eventsUntil, after_ok startRan, List.append_assoc]
    rfl
  rw [ran, order]
  rcases steps_logged env done begunRests with ended | ⟨halt, later, stepsRan, logged⟩
  · exact .inl ended
  · obtain ⟨violation, rfl⟩ := steps_error env stepsRan
    exact .inr ⟨violation, later, stepsRan, logged⟩

theorem beforeRender_eq (fed : Fed feed before) (rests : Rests events before) :
    let ready := Action.after (takingInput env) before
    beforeRender env before = untilStep env
      (Action.after (startingGuest env) ready).console.config.cyclesPerFrame.toNat before := by
  intro ready
  obtain ⟨begun, inputRan, startRan, _⟩ := startingGuest_rests env fed rests
  have parts : beforeRender env =
      (do takingInput env; checkAlarm env; runGuest env) := by
    simp only [beforeRender, takingInput, bind_assoc]
  have guest : (do checkAlarm env; runGuest env) = (do
      startingGuest env
      steps env (← console).config.cyclesPerFrame.toNat) := by
    simp only [startingGuest, runGuest, bind_assoc]
  rw [parts, bind_ok inputRan, guest, bind_ok startRan, untilStep, bind_ok inputRan,
    bind_ok startRan, after_ok startRan]
  rfl

theorem frame_logged (fed : Fed feed before) (rests : Rests events before) :
    (Rests (before.frameEvents env ++ events) (Action.after (frame env) before)) ∨
      ∃ violation later, frame env before = .error (.violated violation) later ∧
        Logged (before.frameEvents env ++ events) later := by
  rw [frame_eq]
  rcases untilStep_logged env fed rests _ with ⟨ready, ran, ended⟩ | ⟨violation, ready, ran, broken⟩
  · rw [← beforeRender_eq env fed rests] at ran
    left
    rw [Action.after, bind_ok ran]
    exact (afterGuest_makes env).keeps renderMove_rests ended
  · rw [← beforeRender_eq env fed rests] at ran
    exact .inr ⟨violation, ready, bind_error ran, broken⟩

theorem afterFrames_rests {start : Session σ} (fed : Fed (start.feedAfter env 0) start)
    (rests : Rests [] start) (frames : Nat) (unbroken : start.Unbroken env frames) :
    Rests (start.alarmEvents env frames) (start.afterFrames env frames) := by
  induction frames with
  | zero => exact rests
  | succ frames ih =>
      have earlier := ih fun count few => unbroken count (Nat.lt_succ_of_lt few)
      rcases frame_logged env (afterFrames_fed env fed frames) earlier with
        ended | ⟨violation, later, broke, _⟩
      · exact ended
      · exact absurd broke (unbroken frames (Nat.lt_succ_self frames) violation later)

theorem moment_logged {now : Session σ} {here : List AlarmEvent} (fed : Fed feed before)
    (rests : Rests events before) (moment : AlarmMoment env before here now) :
    Logged (here ++ events) now := by
  cases moment with
  | input now moves => exact (moves_keep inputMove_rests moves rests).toLogged
  | steps done later reached =>
      rcases untilStep_logged env fed rests done with ⟨_, ran, ended⟩ | ⟨_, _, broke, _⟩
      · rw [ran] at reached
        cases reached
        exact ended.toLogged
      · rw [broke] at reached
        cases reached
  | calls done calls later reached goesOn =>
      rcases untilStep_logged env fed rests done with ⟨_, ran, ended⟩ | ⟨_, _, broke, _⟩
      · rw [ran] at reached
        cases reached
        rw [List.append_assoc]
        exact runProgram_logged env _ (began_logged ended)
      · rw [broke] at reached
        cases reached
  | render ready now reached moves =>
      rcases untilStep_logged env fed rests _ with ⟨_, ran, ended⟩ | ⟨_, _, broke, _⟩
      · rw [← beforeRender_eq env fed rests, reached] at ran
        cases ran
        exact (moves_keep renderMove_rests moves ended).toLogged
      · rw [← beforeRender_eq env fed rests, reached] at broke
        cases broke
  | finish =>
      rcases frame_logged env fed rests with ended | ⟨violation, later, broke, logged⟩
      · exact ended.toLogged
      · rw [after_error broke]
        exact logged

end Frames

theorem created_rests {config : Config} {mode : Keyboard.Mode} {console : Console}
    (created : Console.create config mode = .ok console) (world : σ) :
    Rests [] (⟨console, world, []⟩ : Session σ) := by
  obtain ⟨_, guest, _⟩ := create_exact created
  have alarm : console.guest.alarm = {} := by rw [guest]; rfl
  have due : console.guest.dueSignal = none := by rw [guest]; rfl
  refine ⟨⟨⟨[], rfl, rfl, ?_⟩, ?_, ?_⟩, due⟩
  · intro later entry past same
    simp at same
  · rw [alarm]
    exact follows_nil
  · intro semaphore
    rw [due]
    constructor
    · nofun
    · rintro ⟨call, earlier, same, _⟩
      cases same

/-- At every moment of a run the history shows the events till then, each followed by the
signal that falls due with it and by no other; between two signals lies a call.  A pending
request and a due signal are never present together, and a due signal is that of the latest
event, a call in the step that still runs. -/
theorem timed_signals_of_run {env : Environment σ} {config : Config} {console : Console}
    (created : Console.create config env.keyboard.mode = .ok console) (world : σ)
    (frames : Nat) (unbroken : Session.Unbroken env ⟨console, world, []⟩ frames) :
    let start : Session σ := { console, world }
    let before := start.afterFrames env frames
    ∀ here now, AlarmMoment env before here now →
      let events := here ++ start.alarmEvents env frames
      let guest := now.console.guest
      (∃ log : List AlarmEntry, log.map AlarmEntry.event = events ∧
        alarmMarks now.history = log.flatMap AlarmEntry.marks ∧
        SignalsRightly log ∧
        ∀ later second between first past,
          log = later ++ second :: (between ++ first :: past) →
          first.signal.isSome → second.signal.isSome →
          ∃ call, .asked call ∈ between.map AlarmEntry.event) ∧
      (∀ request, guest.alarm.pending = some request ↔
        ∃ call, Awaits events call ∧ call.semaphore = some request.semaphore ∧
          call.tick = request.tick) ∧
      (guest.alarm.pending = none ∨ guest.dueSignal = none) ∧
      (guest.dueSignal.isSome → ∃ call earlier, events = .asked call :: earlier) := by
  intro start before here now moment events guest
  have fed : Fed (start.feedAfter env 0) start := created_fed created world
  have rests := afterFrames_rests env fed (created_rests created world) frames unbroken
  have logged : Logged events now :=
    moment_logged env (afterFrames_fed env fed frames) rests moment
  obtain ⟨log, same, shown, rightly⟩ := logged.log
  refine ⟨⟨log, same, shown, rightly, ?_⟩, logged.alarm, ?_, ?_⟩
  · intro later second between first past split firstSignals secondSignals
    exact asked_between_signals rightly split firstSignals secondSignals
  · cases pending : guest.alarm.pending with
    | none => exact .inl rfl
    | some request =>
        right
        cases due : guest.dueSignal with
        | none => rfl
        | some semaphore =>
            obtain ⟨call, awaits, _⟩ := (logged.alarm request).mp pending
            obtain ⟨latest, earlier, last, _, passed⟩ := (logged.due semaphore).mp due
            rw [last, awaits_asked] at awaits
            obtain ⟨rfl, early⟩ := awaits
            exact absurd passed (UInt32.not_lt.mpr early)
  · intro present
    obtain ⟨semaphore, due⟩ := Option.isSome_iff_exists.mp present
    obtain ⟨call, earlier, last, _⟩ := (logged.due semaphore).mp due
    exact ⟨call, earlier, last⟩

/-- In its first step the guest asks for a signal that is due at once and, before the step
is over, for another one instead, which the check of the second frame delivers. -/
theorem timed_signals_of_second_frame :
    let env : Environment Nat := {
      ticks := fun world => UInt32.ofNat world
      unixSeconds := fun _ => 0
      keyboard := .raw fun world => ([], world)
      mouse := fun world => ({}, world)
      moveMouse := fun _ world => world
      refreshCursor := fun world => world
      wait := fun _ world => world
      extent := fun _ => {}
      put := fun _ _ world => some world
      signal := fun _ world => world
      displayBits := fun _ world => (none, world)
      word := fun _ _ _ => 0
      lowMemory := fun world => world
      step := fun world =>
        if world = 0 then
          .call 5 (.signalAt (some ⟨7⟩) 3) fun _ =>
            .call 6 (.signalAt (some ⟨8⟩) 50) fun _ => .done 7
        else .done (world + 1) }
    let config : Config := { cyclesPerFrame := 100 }
    ∃ console, Console.create config env.keyboard.mode = .ok console ∧
      let start : Session Nat := { console, world := 0 }
      let before := start.afterFrames env 1
      let events := before.eventsUntil env 1 ++ start.alarmEvents env 1
      start.Unbroken env 1 ∧
      events = [.ended, .began, .checked 106] ++ (List.replicate 99 [.ended, .began]).flatten
        ++ [.ended, .asked ⟨some ⟨8⟩, 50, 6⟩, .asked ⟨some ⟨7⟩, 3, 5⟩, .began, .checked 0] ∧
      ∃ now, AlarmMoment env before (before.eventsUntil env 1) now ∧
        alarmMarks now.history = [.began, .signalled ⟨8⟩] ++ List.replicate 99 .began
          ++ [.asked (some ⟨8⟩) 50, .asked (some ⟨7⟩) 3, .began] ∧
        ∃ log : List AlarmEntry, log.map AlarmEntry.event = events ∧
          alarmMarks now.history = log.flatMap AlarmEntry.marks ∧ SignalsRightly log := by
  intro env config
  have created : Console.create config env.keyboard.mode = .ok _ := rfl
  refine ⟨_, created, ?_⟩
  intro start before events
  have unbroken : start.Unbroken env 1 := by
    intro frames few violation later broke
    obtain rfl : frames = 0 := by omega
    have goesOn : (match frame env start with
      | .ok _ _ => true
      | .error _ _ => false) = true := by decide +kernel
    rw [show start.afterFrames env 0 = start from rfl] at broke
    rw [broke] at goesOn
    cases goesOn
  have listed : events = [.ended, .began, .checked 106]
      ++ (List.replicate 99 [.ended, .began]).flatten
      ++ [.ended, .asked ⟨some ⟨8⟩, 50, 6⟩, .asked ⟨some ⟨7⟩, 3, 5⟩, .began, .checked 0] := by
    decide +kernel
  have shown : alarmMarks (Action.after (untilStep env 1) before).history =
      [.began, .signalled ⟨8⟩] ++ List.replicate 99 .began
        ++ [.asked (some ⟨8⟩) 50, .asked (some ⟨7⟩) 3, .began] := by decide +kernel
  have ends : (match untilStep env 1 before with
    | .ok _ _ => true
    | .error _ _ => false) = true := by decide +kernel
  refine ⟨unbroken, listed, ?_⟩
  cases reached : untilStep env 1 before with
  | error halt later => rw [reached] at ends; cases ends
  | ok answer now =>
      rw [after_ok reached] at shown
      have moment : AlarmMoment env before (before.eventsUntil env 1) now := .steps 1 now reached
      obtain ⟨⟨log, same, marks, rightly, _⟩, _⟩ :=
        timed_signals_of_run created 0 1 unbroken _ now moment
      exact ⟨now, moment, shown, log, same, marks, rightly⟩

end GuestConsole
