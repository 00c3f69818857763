import GuestConsole.Proofs.Calls
import Mathlib.Data.Nat.Find

/-!
# The steps of a frame

A frame lets its guest do the number of steps that the settings say, but none behind the
first in which the guest asks to stop.  Each step serves calls, and at its end the signal is
delivered that has fallen due in it.
-/

set_option autoImplicit false

namespace GuestConsole

open GuestConsole.Action GuestConsole.Console

variable {σ : Type}

/-! ## What a history shows -/

def Effect.isStep : Effect → Bool
  | .stepped => true
  | _ => false

def Effect.asksToStop : Effect → Bool
  | .served .signalQuit _ => true
  | _ => false

def stepsIn (effects : List Effect) : Nat := effects.countP Effect.isStep

section Definitions
variable (env : Environment σ)

def Console.stepTimes : Nat → Action σ Unit
  | 0 => pure ()
  | count + 1 => do
      stepTimes count
      step env

/-- The guest has asked to stop by the time it has done some steps from here on. -/
def Console.Quits (begun : Session σ) (count : Nat) : Prop :=
  begun.console.guest.quit = true ∨
    ∃ effect ∈ begun.since (Action.after (stepTimes env count) begun), effect.asksToStop = true

/-- The number of the steps that are done from here on, if there are to be `most` of them:
that of the first in which the guest asks to stop, or else `most`. -/
structure Console.StepCount (begun : Session σ) (most count : Nat) : Prop where
  few : count ≤ most
  goesOn : ∀ fewer < count, ¬ Quits env begun fewer
  last : count = most ∨ Quits env begun count

/-- The signal that is due behind some events: that of the latest call, if the clock had
passed its tick at the call, and without a call the one that was due before. -/
def dueAfter (before : Option Semaphore) : List AlarmEvent → Option Semaphore
  | [] => before
  | .asked call :: _ => if call.tick < call.now then call.semaphore else none
  | _ :: earlier => dueAfter before earlier

/-- The step that begins so comes to its end in `ended`: its calls have been served, and then
the signal has been delivered that was due. -/
def Console.Delivers (begun ended : Session σ) : Prop :=
  step env begun = .ok () ended ∧
    let asked := (env.step begun.world).asks env begun.console.guest
    let due := dueAfter begun.console.guest.dueSignal asked
    ∃ served, (∀ effect ∈ served, ∃ call answer, effect = .served call answer) ∧
      ended.history =
        (due.map (Effect.signalled .alarm)).toList ++ (served ++ .stepped :: begun.history)

end Definitions

/-! ## Asking to stop -/

def Session.TracksQuit (before session : Session σ) : Prop :=
  ∃ effects, session.history = effects ++ before.history ∧
    session.console.guest.quit =
      (before.console.guest.quit || effects.any Effect.asksToStop)

section TracksQuit
variable {before session later : Session σ}

theorem tracksQuit_refl (session : Session σ) : session.TracksQuit session :=
  ⟨[], rfl, (Bool.or_false _).symm⟩

theorem Session.TracksQuit.note (tracks : before.TracksQuit session) {effect : Effect}
    (other : effect.asksToStop = false) :
    before.TracksQuit { session with history := effect :: session.history } := by
  obtain ⟨effects, grown, quit⟩ := tracks
  refine ⟨effect :: effects, congrArg (effect :: ·) grown, ?_⟩
  rw [List.any_cons, other, Bool.false_or]
  exact quit

theorem serve_quit {guest next : Guest.State} {clock : Guest.Clock} {call : Guest.Call}
    {answer : call.Answer} (served : guest.serve clock call = .ok (answer, next)) :
    next.quit = (guest.quit || (Effect.served call answer).asksToStop) := by
  cases call with
  | signalQuit =>
      obtain ⟨_, rfl⟩ := Prod.mk.inj (Except.ok.inj served)
      exact (Bool.or_true _).symm
  | setDisplaySize | displayChanged | tryDisplayChanged =>
      obtain ⟨_, _, _, rfl⟩ := serve_bitmap served rfl
      exact (Bool.or_false _).symm
  | _ =>
      obtain ⟨_, rfl⟩ := Prod.mk.inj (Except.ok.inj served)
      exact (Bool.or_false _).symm

theorem inputMove_tracksQuit (session later : Session σ) (move : Session.InputMove session later)
    (tracks : before.TracksQuit session) : before.TracksQuit later := by
  cases move with
  | note effect input =>
      apply tracks.note
      cases effect with
      | served call answer => exact input.elim
      | _ => rfl
  | poll effect polls =>
      apply tracks.note
      cases effect with
      | served call answer => cases polls
      | _ => rfl
  | _ => exact tracks

theorem guestMove_tracksQuit (session later : Session σ) (move : Session.GuestMove session later)
    (tracks : before.TracksQuit session) : before.TracksQuit later := by
  cases move with
  | note effect running =>
      apply tracks.note
      cases effect with
      | served call answer => exact running.elim
      | _ => rfl
  | serve clock call answer guest served =>
      obtain ⟨effects, grown, quit⟩ := tracks
      refine ⟨.served call answer :: effects, congrArg (_ :: ·) grown, ?_⟩
      rw [serve_quit served, quit, List.any_cons, Bool.or_assoc,
        Bool.or_comm (effects.any Effect.asksToStop)]
  | _ => exact tracks

theorem renderMove_tracksQuit (session later : Session σ)
    (move : Session.RenderMove session later) (tracks : before.TracksQuit session) :
    before.TracksQuit later := by
  cases move with
  | note effect output =>
      apply tracks.note
      cases effect with
      | served call answer => exact output.elim
      | _ => rfl
  | draw strokes world =>
      obtain ⟨effects, grown, quit⟩ := tracks
      refine ⟨strokes.map Effect.drew ++ effects, by rw [grown, List.append_assoc], ?_⟩
      have none : (strokes.map Effect.drew).any Effect.asksToStop = false := by
        refine List.any_eq_false.mpr fun effect listed => ?_
        obtain ⟨stroke, _, rfl⟩ := List.mem_map.mp listed
        exact Bool.false_ne_true
      rw [List.any_append, none, Bool.false_or]
      exact quit
  | glyph =>
      unfold Console.takeGlyph
      split <;> exact tracks
  | _ => exact tracks

theorem Session.TracksQuit.iff (tracks : before.TracksQuit session) :
    session.console.guest.quit = true ↔ before.console.guest.quit = true ∨
      ∃ effect ∈ before.since session, effect.asksToStop = true := by
  obtain ⟨effects, grown, quit⟩ := tracks
  rw [quit, since_of_grown grown, Bool.or_eq_true, List.any_eq_true]

end TracksQuit

/-! ## A step -/

section Steps
variable (env : Environment σ)

theorem dueAfter_append (before : Option Semaphore) (later earlier : List AlarmEvent) :
    dueAfter before (later ++ earlier) = dueAfter (dueAfter before earlier) later := by
  induction later with
  | nil => rfl
  | cons event later ih =>
      cases event with
      | asked call => rfl
      | _ => exact ih

theorem serve_due {guest next : Guest.State} {clock : Guest.Clock} {call : Guest.Call}
    {answer : call.Answer} (served : guest.serve clock call = .ok (answer, next)) :
    next.dueSignal = dueAfter guest.dueSignal (call.asks clock.ticks) := by
  by_cases signalAt : ∃ semaphore tick, call = .signalAt semaphore tick
  · obtain ⟨semaphore, tick, rfl⟩ := signalAt
    obtain ⟨_, rfl⟩ := Prod.mk.inj (Except.ok.inj served)
    obtain ⟨due, _⟩ := follows_schedule [] semaphore tick clock.ticks
    apply Option.ext
    intro other
    refine (due other).trans ?_
    simp only [Guest.Call.asks, dueAfter]
    split
    case isTrue passed => exact and_iff_left passed
    case isFalse waits => exact ⟨fun both => absurd both.2 waits, nofun⟩
  · have other : ∀ semaphore tick, call ≠ .signalAt semaphore tick :=
      fun semaphore tick same => signalAt ⟨semaphore, tick, same⟩
    rw [(serve_alarm served other).2]
    cases call with
    | signalAt semaphore tick => exact absurd rfl (other semaphore tick)
    | _ => rfl

theorem runProgram_serves (program : Guest.Program σ) (session : Session σ) :
    let later := Action.after (runProgram env program) session
    (∃ served, (∀ effect ∈ served, ∃ call answer, effect = .served call answer) ∧
      later.history = served ++ session.history) ∧
    later.console.guest.dueSignal = dueAfter session.console.guest.dueSignal
      (program.asks env session.console.guest) := by
  induction program generalizing session with
  | done world => exact ⟨⟨[], nofun, rfl⟩, rfl⟩
  | call world call next ih =>
      let calling : Session σ := { session with world }
      intro later
      have ran : later = Action.after
          (serve env call >>= fun answer => runProgram env (next answer)) calling := rfl
      cases served : session.console.guest.serve (env.clock world) call with
      | error violation =>
          have broken : later = calling := by
            rw [ran, Action.after, bind_error (serve_broken env served)]
          rw [broken, Guest.Program.asks, served]
          exact ⟨⟨[], nofun, rfl⟩, rfl⟩
      | ok result =>
          obtain ⟨answer, guest⟩ := result
          let called : Session σ := { calling with
            console.guest := guest
            history := .served call answer :: session.history }
          have goesOn : serve env call calling = .ok answer called := serve_ok env served
          obtain ⟨⟨rest, answers, grown⟩, due⟩ := ih answer called
          have same : later = Action.after (runProgram env (next answer)) called := by
            rw [ran, Action.after, bind_ok goesOn, Action.after]
          rw [same, Guest.Program.asks, served]
          refine ⟨⟨rest ++ [.served call answer], ?_, ?_⟩, ?_⟩
          · intro effect listed
            rcases List.mem_append.mp listed with later | here
            · exact answers effect later
            · exact ⟨call, answer, List.mem_singleton.mp here⟩
          · rw [grown, List.append_assoc]
            rfl
          · rw [due, dueAfter_append]
            exact congrArg (dueAfter · _) (serve_due served)

theorem deliverDue_history (session : Session σ) :
    (Action.after (deliverDue env) session).history =
      (session.console.guest.dueSignal.map (Effect.signalled .alarm)).toList
        ++ session.history := by
  rw [Action.after, deliverDue, bind_console]
  cases session.console.guest.dueSignal <;> rfl

theorem delivers_of_step {begun ended : Session σ} (ran : step env begun = .ok () ended) :
    Delivers env begun ended := by
  refine ⟨ran, ?_⟩
  obtain ⟨⟨served, answers, grown⟩, due⟩ :=
    runProgram_serves env (env.step begun.world) begun.begun
  have parts : step env begun =
      (runProgram env (env.step begun.world) >>= fun _ => deliverDue env) begun.begun :=
    step_eq env
  cases program : runProgram env (env.step begun.world) begun.begun with
  | error halt middle =>
      rw [parts, bind_error program] at ran
      cases ran
  | ok answer middle =>
      rw [parts, bind_ok program, deliverDue_ok] at ran
      cases ran
      rw [after_ok program] at grown due
      refine ⟨served, answers, ?_⟩
      rw [deliverDue_history, due, grown]
      rfl

theorem step_counts (session : Session σ) : ∃ effects,
    (Action.after (step env) session).history = effects ++ session.history ∧
      stepsIn effects = 1 := by
  have none {served : List Effect}
      (answers : ∀ effect ∈ served, ∃ call answer, effect = .served call answer) :
      stepsIn served = 0 := by
    refine List.countP_eq_zero.mpr fun effect listed => ?_
    obtain ⟨call, answer, rfl⟩ := answers effect listed
    exact Bool.false_ne_true
  cases ran : step env session with
  | ok answer later =>
      obtain ⟨_, served, answers, grown⟩ := delivers_of_step env ran
      generalize dueAfter _ _ = due at grown
      rw [after_ok ran]
      refine ⟨(due.map (Effect.signalled .alarm)).toList ++ (served ++ [.stepped]), ?_, ?_⟩
      · rw [grown, List.append_assoc, List.append_assoc]
        rfl
      · rw [stepsIn, List.countP_append, List.countP_append, ← stepsIn, ← stepsIn, none answers]
        cases due <;> rfl
  | error halt later =>
      have parts : step env session =
          (runProgram env (env.step session.world) >>= fun _ => deliverDue env) session.begun :=
        step_eq env
      obtain ⟨⟨served, answers, grown⟩, _⟩ :=
        runProgram_serves env (env.step session.world) session.begun
      cases program : runProgram env (env.step session.world) session.begun with
      | ok answer middle =>
          rw [parts, bind_ok program, deliverDue_ok] at ran
          cases ran
      | error broken middle =>
          rw [parts, bind_error program] at ran
          cases ran
          rw [after_error program] at grown
          rw [after_error (parts.trans (bind_error program))]
          refine ⟨served ++ [.stepped], by rw [grown, List.append_assoc]; rfl, ?_⟩
          rw [stepsIn, List.countP_append, ← stepsIn, none answers]
          rfl

/-! ## Steps one after the other -/

theorem stepTimes_makes (count : Nat) : Makes Session.GuestMove (stepTimes env count) := by
  induction count with
  | zero => exact makes_pure ()
  | succ count ih => exact makes_bind ih fun _ => step_makes env

/-- As many steps show in the history as have been begun.  Each of them has come to its end
and delivered what was due, but for the last one if that has broken a rule. -/
theorem stepTimes_turns (count : Nat) (begun : Session σ) :
    ∃ turns, (Action.after (stepTimes env count) begun).history = turns ++ begun.history ∧
      stepsIn turns ≤ count ∧
      ((∃ ended, stepTimes env count begun = .ok () ended) → stepsIn turns = count) ∧
      ∀ done < stepsIn turns, ∃ middle, stepTimes env done begun = .ok () middle ∧
        ((∃ next, stepTimes env (done + 1) begun = .ok () next ∧ Delivers env middle next) ∨
          done + 1 = stepsIn turns ∧
            ∃ halt broken, stepTimes env count begun = .error halt broken) := by
  induction count with
  | zero => exact ⟨[], rfl, Nat.le_refl 0, fun _ => rfl, fun _ none => absurd none (Nat.not_lt_zero _)⟩
  | succ count ih =>
      obtain ⟨turns, grown, few, all, ends⟩ := ih
      cases ran : stepTimes env count begun with
      | error halt broken =>
          have whole : stepTimes env (count + 1) begun = .error halt broken := bind_error ran
          rw [after_error ran] at grown
          rw [after_error whole]
          refine ⟨turns, grown, Nat.le_succ_of_le few, ?_, fun done less => ?_⟩
          · rintro ⟨ended, reached⟩
            rw [whole] at reached
            cases reached
          · obtain ⟨middle, reached, delivered | ⟨last, _⟩⟩ := ends done less
            · exact ⟨middle, reached, .inl delivered⟩
            · exact ⟨middle, reached, .inr ⟨last, halt, broken, whole⟩⟩
      | ok answer middle =>
          have whole : stepTimes env (count + 1) begun = step env middle := bind_ok ran
          have before : stepsIn turns = count := all ⟨middle, ran⟩
          obtain ⟨last, added, one⟩ := step_counts env middle
          have exact : stepsIn (last ++ turns) = count + 1 := by
            rw [stepsIn, List.countP_append, ← stepsIn, ← stepsIn, one, before, Nat.add_comm]
          rw [after_ok ran] at grown
          refine ⟨last ++ turns, ?_, Nat.le_of_eq exact, fun _ => exact, fun done less => ?_⟩
          · rw [Action.after, whole, List.append_assoc, ← grown]
            exact added
          rw [exact] at less ⊢
          rcases Nat.lt_succ_iff_lt_or_eq.mp less with fewer | rfl
          · obtain ⟨first, reached, delivered | ⟨_, halt, broken, broke⟩⟩ :=
              ends done (before ▸ fewer)
            · exact ⟨first, reached, .inl delivered⟩
            · rw [ran] at broke
              cases broke
          · refine ⟨middle, ran, ?_⟩
            cases stepped : step env middle with
            | ok answer next => exact .inl ⟨next, whole.trans stepped, delivers_of_step env stepped⟩
            | error halt broken => exact .inr ⟨rfl, halt, broken, whole.trans stepped⟩

theorem quits_iff (begun : Session σ) (count : Nat) :
    Quits env begun count ↔
      (Action.after (stepTimes env count) begun).console.guest.quit = true := by
  have tracks : begun.TracksQuit (Action.after (stepTimes env count) begun) :=
    (stepTimes_makes env count).keeps guestMove_tracksQuit (tracksQuit_refl begun)
  exact tracks.iff.symm

theorem stepCount_exists (begun : Session σ) (most : Nat) :
    ∃ count, StepCount env begun most count := by
  by_cases stops : ∃ count ≤ most, Quits env begun count
  · classical
    let first := Nat.find stops
    obtain ⟨few, quits⟩ := Nat.find_spec stops
    refine ⟨first, few, fun fewer less quitsEarlier => ?_, .inr quits⟩
    exact Nat.find_min stops less ⟨less.le.trans few, quitsEarlier⟩
  · exact ⟨most, Nat.le_refl most,
      fun fewer less quits => stops ⟨fewer, less.le, quits⟩, .inl rfl⟩

theorem steps_goOn {begun : Session σ} {count : Nat}
    (goesOn : ∀ fewer < count, ¬ Quits env begun fewer) :
    steps env count begun = stepTimes env count begun := by
  induction count with
  | zero => rfl
  | succ count ih =>
      have earlier := ih fun fewer less => goesOn fewer (Nat.lt_succ_of_lt less)
      rw [steps_add env count 1, bind_congr_at earlier, stepTimes]
      cases ran : stepTimes env count begun with
      | error halt broken => rw [bind_error ran, bind_error ran]
      | ok answer middle =>
          have running : middle.console.guest.quit = false := by
            have quits := goesOn count (Nat.lt_succ_self count)
            rw [quits_iff, after_ok ran, Bool.not_eq_true] at quits
            exact quits
          rw [bind_ok ran, bind_ok ran, steps_succ env running]
          cases stepped : step env middle with
          | ok answer later => rw [bind_ok stepped]; rfl
          | error halt later => rw [bind_error stepped]

theorem steps_counted {begun : Session σ} {most count : Nat}
    (counted : StepCount env begun most count) :
    steps env most begun = stepTimes env count begun := by
  have first : steps env count begun = stepTimes env count begun :=
    steps_goOn env counted.goesOn
  rcases counted.last with rfl | quits
  · exact first
  · obtain ⟨rest, rfl⟩ := Nat.exists_eq_add_of_le counted.few
    rw [steps_add env count rest, bind_congr_at first]
    rw [quits_iff] at quits
    cases ran : stepTimes env count begun with
    | error halt broken => rw [bind_error ran]
    | ok answer ended =>
        rw [after_ok ran] at quits
        rw [bind_ok ran, steps_quit env quits]

end Steps

end GuestConsole
