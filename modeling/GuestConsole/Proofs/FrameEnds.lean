import GuestConsole.Proofs.FrameEffects
import GuestConsole.Proofs.StepBudget

/-!
# How frames and runs end

A frame in which the guest asks to stop, or has done so before, ends without rendering and
without a pause.  One that goes on pauses once if the settings say so.  A run goes on up to
its first frame that does not.
-/

set_option autoImplicit false

namespace GuestConsole

open GuestConsole.Action GuestConsole.Console GuestConsole.Display

variable {σ : Type}

def Effect.isWait : Effect → Bool
  | .waited _ => true
  | _ => false

/-! ## Effects of one kind -/

def Session.Lacks (kind : Effect → Bool) (before session : Session σ) : Prop :=
  ∃ effects, session.history = effects ++ before.history ∧
    ∀ effect ∈ effects, kind effect = false

section Lacks
variable {kind : Effect → Bool} {before session later : Session σ}

theorem lacks_refl (session : Session σ) : session.Lacks kind session := ⟨[], rfl, nofun⟩

theorem Session.Lacks.note (lacks : before.Lacks kind session) (effect : Effect)
    (other : kind effect = false) :
    before.Lacks kind { session with history := effect :: session.history } := by
  obtain ⟨effects, grown, none⟩ := lacks
  exact ⟨effect :: effects, congrArg (effect :: ·) grown, List.forall_mem_cons.mpr ⟨other, none⟩⟩

theorem Session.Lacks.trans {middle : Session σ} (first : before.Lacks kind middle)
    (second : middle.Lacks kind later) : before.Lacks kind later := by
  obtain ⟨early, begun, noneEarly⟩ := first
  obtain ⟨late, ended, noneLate⟩ := second
  refine ⟨late ++ early, by rw [ended, begun, List.append_assoc], ?_⟩
  exact List.forall_mem_append.mpr ⟨noneLate, noneEarly⟩

theorem Session.Lacks.since (lacks : before.Lacks kind session) :
    ∀ effect ∈ before.since session, kind effect = false := by
  obtain ⟨effects, grown, none⟩ := lacks
  rw [since_of_grown grown]
  exact none

theorem inputMove_lacks (input : ∀ effect : Effect, effect.IsInput → kind effect = false)
    (polls : ∀ effect : Effect, effect.isPoll = true → kind effect = false)
    (session later : Session σ) (move : Session.InputMove session later)
    (lacks : before.Lacks kind session) : before.Lacks kind later := by
  cases move with
  | note effect isInput => exact lacks.note effect (input effect isInput)
  | poll effect isPoll => exact lacks.note effect (polls effect isPoll)
  | _ => exact lacks

theorem guestMove_lacks (running : ∀ effect : Effect, effect.IsRunning → kind effect = false)
    (served : ∀ call answer, kind (.served call answer) = false)
    (session later : Session σ) (move : Session.GuestMove session later)
    (lacks : before.Lacks kind session) : before.Lacks kind later := by
  cases move with
  | note effect isRunning => exact lacks.note effect (running effect isRunning)
  | serve clock call answer guest _ => exact lacks.note _ (served call answer)
  | _ => exact lacks

theorem renderMove_lacks (output : ∀ effect : Effect, effect.IsOutput → kind effect = false)
    (drew : ∀ stroke, kind (.drew stroke) = false)
    (session later : Session σ) (move : Session.RenderMove session later)
    (lacks : before.Lacks kind session) : before.Lacks kind later := by
  cases move with
  | note effect isOutput => exact lacks.note effect (output effect isOutput)
  | draw strokes world =>
      obtain ⟨effects, grown, none⟩ := lacks
      refine ⟨strokes.map Effect.drew ++ effects, by rw [grown, List.append_assoc], ?_⟩
      refine List.forall_mem_append.mpr ⟨fun effect listed => ?_, none⟩
      obtain ⟨stroke, _, rfl⟩ := List.mem_map.mp listed
      exact drew stroke
  | _ => exact lacks

end Lacks

/-! ## The parts of a frame -/

section Frames
variable (env : Environment σ) {before : Session σ}

theorem beforeRender_lacks_waits (before : Session σ) :
    before.Lacks Effect.isWait (Action.after (beforeRender env) before) := by
  refine beforeRender_keeps env (inputMove_lacks ?_ ?_) (guestMove_lacks ?_ fun _ _ => rfl)
    (lacks_refl before)
  · intro effect input
    cases effect with
    | waited ms => exact input.elim
    | _ => rfl
  · intro effect polls
    cases effect with
    | waited ms => cases polls
    | _ => rfl
  · intro effect running
    cases effect with
    | waited ms => exact running.elim
    | _ => rfl

theorem takingInput_lacks_steps (before : Session σ) :
    before.Lacks Effect.isStep (Action.after (takingInput env) before) := by
  refine (takingInput_makes env).keeps (inputMove_lacks ?_ ?_) (lacks_refl before)
  · intro effect input
    cases effect with
    | stepped => exact input.elim
    | _ => rfl
  · intro effect polls
    cases effect with
    | stepped => cases polls
    | _ => rfl

theorem inputMove_quit {quit : Bool} (session later : Session σ)
    (move : Session.InputMove session later) (same : session.console.guest.quit = quit) :
    later.console.guest.quit = quit := by
  cases move <;> exact same

theorem renderMove_quit {quit : Bool} (session later : Session σ)
    (move : Session.RenderMove session later) (same : session.console.guest.quit = quit) :
    later.console.guest.quit = quit := by
  cases move with
  | glyph =>
      unfold Console.takeGlyph
      split <;> exact same
  | _ => exact same

theorem untilStep_zero
    (bounded : before.console.guest.queue.length ≤ Input.Queue.capacity) :
    ∃ begun, untilStep env 0 before = .ok () begun ∧
      begun.console.guest.quit = before.console.guest.quit ∧
      before.Lacks Effect.isStep begun := by
  let ready := Action.after (takingInput env) before
  have inputRan : takingInput env before = .ok () ready := takingInput_ok env bounded
  have quit : ready.console.guest.quit = before.console.guest.quit :=
    (takingInput_makes env).keeps inputMove_quit rfl
  have ran : untilStep env 0 before = .ok () (Action.after (startingGuest env) ready) := by
    rw [untilStep, bind_ok inputRan, bind_ok (startingGuest_ok env ready)]
    rfl
  refine ⟨_, ran, ?_⟩
  have starts : startingGuest env ready = (do
      onWorld env.lowMemory
      record .checkedLowMemory) (Action.after (checkAlarm env) ready) :=
    bind_ok (checkAlarm_ok env ready)
  have lacks : before.Lacks Effect.isStep ready := takingInput_lacks_steps env before
  rw [Action.after, starts, Action.after, checkAlarm_eq]
  have read := lacks.note (.readTicks (env.ticks ready.world)) rfl
  cases (ready.console.guest.alarm.poll (env.ticks ready.world)).1 with
  | none => exact ⟨quit, read.note .checkedLowMemory rfl⟩
  | some semaphore =>
      refine ⟨quit, ?_⟩
      exact (read.note (.signalled .alarm semaphore) rfl).note .checkedLowMemory rfl

def Session.paused (session : Session σ) : Session σ :=
  let config := session.console.config
  let ms := config.novsyncDelay.toUInt32
  if config.vsync = false ∧ 0 < config.novsyncDelay then
    { session with
      world := env.wait ms session.world
      history := .waited ms :: session.history }
  else session

@[simp] theorem paused_console (session : Session σ) :
    (session.paused env).console = session.console := by
  dsimp only [Session.paused]
  split <;> rfl

theorem frameDelay?_eq (config : Config) : config.frameDelay? =
    if config.vsync = false ∧ 0 < config.novsyncDelay then some config.novsyncDelay.toUInt32
    else none := by
  rw [Config.frameDelay?]
  cases config.vsync <;> simp

theorem pause_ok (session : Session σ) : pause env session = .ok () (session.paused env) := by
  rw [pause, bind_console, frameDelay?_eq, Session.paused]
  by_cases waits : session.console.config.vsync = false ∧ 0 < session.console.config.novsyncDelay
  · rw [if_pos waits, if_pos waits]
    rfl
  · rw [if_neg waits, if_neg waits]
    rfl

theorem render_lacks_waits (ready : Session σ) :
    ready.Lacks Effect.isWait (Action.after (render env) ready) := by
  have drawing (done : List Stroke) (world : σ) :
      ready.Lacks Effect.isWait ((ready.asked env).drawn done world) := by
    refine ⟨_, drawn_history env ready done world, ?_⟩
    refine List.forall_mem_append.mpr ⟨fun effect listed => ?_, fun effect listed => ?_⟩
    · obtain ⟨stroke, _, rfl⟩ := List.mem_map.mp listed
      rfl
    · rw [List.mem_singleton.mp listed]
      rfl
  have cases := render_cases env ready
  rw [Action.after]
  generalize render env ready = result at cases
  cases cases with
  | hidden => exact lacks_refl ready
  | idle => exact lacks_refl ready
  | bare => exact drawing [] (ready.asked env).world
  | drawn world => exact drawing _ world
  | broken done stroke rest world => exact drawing done world

/-- How a frame ends, and in which session. -/
inductive Console.Closing (before : Session σ) : Session σ → Halt ⊕ Outcome → Prop where
  | broken (later : Session σ) (violation : Violation)
      (broke : beforeRender env before = .error (.violated violation) later) :
      Closing before later (.inl (.violated violation))
  | stopped (ready : Session σ) (reached : beforeRender env before = .ok () ready)
      (quit : ready.console.guest.quit = true) : Closing before ready (.inr .terminated)
  | paused (ready rendered : Session σ) (reached : beforeRender env before = .ok () ready)
      (running : ready.console.guest.quit = false)
      (shown : render env ready = .ok () rendered) :
      Closing before (rendered.paused env) (.inr .again)
  | refused (ready later : Session σ) (reached : beforeRender env before = .ok () ready)
      (running : ready.console.guest.quit = false)
      (broke : render env ready = .error .screenRefused later) :
      Closing before later (.inl .screenRefused)

theorem beforeRender_counted
    (bounded : before.console.guest.queue.length ≤ Input.Queue.capacity) :
    ∃ begun count, untilStep env 0 before = .ok () begun ∧
      begun.console.guest.quit = before.console.guest.quit ∧
      before.Lacks Effect.isStep begun ∧
      StepCount env begun before.console.config.cyclesPerFrame.toNat count ∧
      beforeRender env before = steps env before.console.config.cyclesPerFrame.toNat begun ∧
      beforeRender env before = stepTimes env count begun := by
  obtain ⟨begun, starts, quit, lacks⟩ := untilStep_zero env bounded
  obtain ⟨count, counted⟩ :=
    stepCount_exists env begun before.console.config.cyclesPerFrame.toNat
  have ran : beforeRender env before =
      steps env before.console.config.cyclesPerFrame.toNat begun := by
    rw [beforeRender_eq_untilStep env bounded, ← Nat.zero_add before.console.config.cyclesPerFrame.toNat,
      untilStep_add, bind_ok starts, Nat.zero_add]
  exact ⟨begun, count, starts, quit, lacks, counted, ran, ran.trans (steps_counted env counted)⟩

theorem frame_closing (bounded : before.console.guest.queue.length ≤ Input.Queue.capacity) :
    Closing env before (Action.after (frame env) before) (ending (frame env before)) := by
  obtain ⟨begun, _, _, _, _, _, bySteps, _⟩ := beforeRender_counted env bounded
  rw [Action.after, frame_eq]
  cases reached : beforeRender env before with
  | error halt later =>
      obtain ⟨violation, rfl⟩ := steps_error env (bySteps.symm.trans reached)
      rw [bind_error reached]
      exact .broken later violation reached
  | ok answer ready =>
      rw [bind_ok reached, afterGuest, bind_console]
      cases quit : ready.console.guest.quit with
      | true => exact .stopped ready reached quit
      | false =>
          rw [if_neg Bool.false_ne_true]
          have cases := render_cases env ready
          generalize ran : render env ready = result at cases
          cases result with
          | ok answer rendered =>
              rw [bind_ok ran, bind_ok (pause_ok env rendered)]
              exact .paused ready rendered reached quit ran
          | error halt broken =>
              cases cases
              rw [bind_error ran]
              exact .refused ready _ reached quit ran

theorem frame_lacks_steps (before : Session σ) :
    (Action.after (beforeRender env) before).Lacks Effect.isStep
      (Action.after (frame env) before) := by
  have output (effect : Effect) (output : effect.IsOutput) : effect.isStep = false := by
    cases effect with
    | stepped => exact output.elim
    | _ => rfl
  rw [frame_eq]
  exact keeps_bind (lacks_refl _) fun _ _ lacks =>
    (afterGuest_makes env).keeps (renderMove_lacks output fun _ => rfl) lacks

theorem stepsIn_between {begun ready later : Session σ} {turns : List Effect}
    (first : before.Lacks Effect.isStep begun) (grown : ready.history = turns ++ begun.history)
    (last : ready.Lacks Effect.isStep later) :
    stepsIn (before.since later) = stepsIn turns := by
  obtain ⟨early, starts, noneEarly⟩ := first
  obtain ⟨late, ends, noneLate⟩ := last
  have whole : later.history = (late ++ (turns ++ early)) ++ before.history := by
    simp only [ends, grown, starts, List.append_assoc]
  have none {effects : List Effect} (others : ∀ effect ∈ effects, effect.isStep = false) :
      effects.countP Effect.isStep = 0 :=
    List.countP_eq_zero.mpr fun effect listed => Bool.not_eq_true _ ▸ others effect listed
  rw [since_of_grown whole, stepsIn, List.countP_append, List.countP_append, none noneEarly,
    none noneLate, Nat.zero_add, Nat.add_zero, ← stepsIn]

/-! ## Runs -/

/-- Behind frames that have all gone on, a run goes on as one that starts there. -/
theorem run_passes {start : Session σ} {frames : Nat}
    (goOn : ∀ earlier < frames,
      ending (frame env (start.afterFrames env earlier)) = .inr .again) (more : Nat) :
    run env (frames + more) start = run env more (start.afterFrames env frames) := by
  induction frames generalizing start with
  | zero => rw [Nat.zero_add]; rfl
  | succ frames ih =>
      obtain ⟨later, ran⟩ := ending_ok (goOn 0 (Nat.succ_pos frames))
      have first : Action.after (frame env) start = later := after_ok ran
      have goesOn : run env (frames + more + 1) start = run env (frames + more) later :=
        bind_ok ran
      rw [Nat.succ_add, goesOn, ← afterFrames_of_first, first]
      apply ih
      intro earlier few
      rw [← first, afterFrames_of_first]
      exact goOn (earlier + 1) (Nat.succ_lt_succ few)

/-- A run ends with its first frame if that does not go on. -/
theorem run_stops {start : Session σ} (stops : ending (frame env start) ≠ .inr .again)
    (more : Nat) : run env (1 + more) start = frame env start := by
  rw [Nat.add_comm]
  cases ran : frame env start with
  | error halt later => exact bind_error ran
  | ok outcome later =>
      cases outcome with
      | terminated => exact bind_ok ran
      | again =>
          rw [ran] at stops
          exact absurd rfl stops

theorem Console.Reachable.afterFrames {start : Session σ} (reachable : Reachable env start)
    (frames : Nat) : Reachable env (start.afterFrames env frames) := by
  induction frames with
  | zero => exact reachable
  | succ frames ih => exact .frame ih

end Frames

section Closing
variable {env : Environment σ} {before later : Session σ} {ended : Halt ⊕ Outcome}

theorem Console.Closing.reaches (closing : Closing env before later ended)
    (unbroken : ∀ violation, ended ≠ .inl (.violated violation)) :
    ∃ ready, beforeRender env before = .ok () ready := by
  cases closing with
  | broken later violation broke => exact absurd rfl (unbroken violation)
  | stopped _ reached _ => exact ⟨_, reached⟩
  | paused ready _ reached _ _ => exact ⟨ready, reached⟩
  | refused ready _ reached _ _ => exact ⟨ready, reached⟩

/-- The guest has asked to stop just where the frame is the last one. -/
theorem Console.Closing.terminated_iff (closing : Closing env before later ended)
    (unbroken : ∀ violation, ended ≠ .inl (.violated violation)) :
    ended = .inr .terminated ↔ later.console.guest.quit = true := by
  cases closing with
  | broken later violation broke => exact absurd rfl (unbroken violation)
  | stopped ready reached quit => exact iff_of_true rfl quit
  | paused ready rendered reached running shown =>
      have running : rendered.console.guest.quit = false := by
        rw [← after_ok shown]
        exact (render_makes env).keeps renderMove_quit running
      rw [paused_console, running]
      exact iff_of_false nofun nofun
  | refused ready later reached running broke =>
      have running : later.console.guest.quit = false := by
        rw [← after_error broke]
        exact (render_makes env).keeps renderMove_quit running
      rw [running]
      exact iff_of_false nofun nofun

theorem Console.Closing.unrendered (closing : Closing env before later ended)
    (quit : later.console.guest.quit = true) :
    ∀ effect ∈ before.since later, effect.renders = false := by
  have early : (Action.after (beforeRender env) before = later) →
      ∀ effect ∈ before.since later, effect.renders = false := by
    rintro rfl
    obtain ⟨_, effects, grown, none, _⟩ := beforeRender_unrendered env before
    rw [since_of_grown grown]
    exact fun effect listed =>
      Bool.eq_false_iff.mpr (List.filter_eq_nil_iff.mp none effect listed)
  cases closing with
  | broken later violation broke => exact early (after_error broke)
  | stopped ready reached _ => exact early (after_ok reached)
  | paused ready rendered reached running shown =>
      have stops := (Closing.paused ready rendered reached running shown).terminated_iff nofun
      cases stops.mpr quit
  | refused ready later reached running broke =>
      have stops := (Closing.refused ready later reached running broke).terminated_iff nofun
      cases stops.mpr quit

theorem Console.Closing.unpaused (closing : Closing env before later ended)
    (ends : ended ≠ .inr .again) : ∀ effect ∈ before.since later, effect.isWait = false := by
  have early := beforeRender_lacks_waits env before
  cases closing with
  | broken later violation broke =>
      rw [after_error broke] at early
      exact early.since
  | stopped ready reached quit =>
      rw [after_ok reached] at early
      exact early.since
  | paused ready rendered reached running shown => exact absurd rfl ends
  | refused ready later reached running broke =>
      have late := render_lacks_waits env ready
      rw [after_ok reached] at early
      rw [after_error broke] at late
      exact (early.trans late).since

theorem Console.Closing.pauses (closing : Closing env before later ended)
    (goesOn : ended = .inr .again) :
    ∃ ready rendered, beforeRender env before = .ok () ready ∧
      render env ready = .ok () rendered ∧
      (∀ effect ∈ before.since rendered, effect.isWait = false) ∧
      rendered.console.config = before.console.config ∧ later = rendered.paused env := by
  cases closing with
  | paused ready rendered reached running shown =>
      have early := beforeRender_lacks_waits env before
      have late := render_lacks_waits env ready
      rw [after_ok reached] at early
      rw [after_ok shown] at late
      refine ⟨ready, rendered, reached, shown, (early.trans late).since, ?_, rfl⟩
      rw [← after_ok shown]
      refine (render_makes env).keeps renderMove_config ?_
      rw [← after_ok reached]
      exact beforeRender_keeps env inputMove_config guestMove_config rfl
  | _ => cases goesOn

end Closing

/-- How long the frame lasts that follows some others, and where a run ends.  The guest does
as many steps as are set, or those up to the first in which it asks to stop, and each of them
that ends delivers what is due.  Once the guest has asked to stop, the frame asks for no
bitmap, draws nothing and does not pause, and it is the last of the run.  A frame that goes on
pauses, if at all, once it has rendered.  Only a broken rule or a refused pixel ends a frame
and with it the run in another way. -/
theorem frames_end_on_time {env : Environment σ} {start : Session σ}
    (reachable : Reachable env start) (frames : Nat) :
    let before := start.afterFrames env frames
    let later := Action.after (frame env) before
    let config := before.console.config
    let effects := before.since later
    let ended := ending (frame env before)
    let unbroken := ∀ violation, ended ≠ .inl (.violated violation)
    (∃ begun count, untilStep env 0 before = .ok () begun ∧
      begun.console.guest.quit = before.console.guest.quit ∧
      StepCount env begun config.cyclesPerFrame.toNat count ∧
      beforeRender env before = stepTimes env count begun ∧
      stepsIn effects ≤ count ∧ (unbroken → stepsIn effects = count) ∧
      ∀ done < stepsIn effects, ∃ middle, stepTimes env done begun = .ok () middle ∧
        ((∃ next, stepTimes env (done + 1) begun = .ok () next ∧ Delivers env middle next) ∨
          done + 1 = stepsIn effects ∧ ¬ unbroken)) ∧
    (later.console.guest.quit = true ↔ before.console.guest.quit = true ∨
      ∃ effect ∈ effects, effect.asksToStop = true) ∧
    (unbroken → (ended = .inr .terminated ↔ later.console.guest.quit = true)) ∧
    (later.console.guest.quit = true → ∀ effect ∈ effects, effect.renders = false) ∧
    (ended ≠ .inr .again → ∀ effect ∈ effects, effect.isWait = false) ∧
    (ended = .inr .again → ∃ ready rendered, beforeRender env before = .ok () ready ∧
      render env ready = .ok () rendered ∧
      (∀ effect ∈ before.since rendered, effect.isWait = false) ∧
      rendered.console.config = config ∧ later = rendered.paused env) ∧
    ((∀ earlier < frames,
        ending (frame env (start.afterFrames env earlier)) = .inr .again) →
      run env frames start = .ok .again before ∧
      (ended ≠ .inr .again → ∀ more, run env (frames + (1 + more)) start = frame env before)) := by
  intro before later config effects ended unbroken
  have bounded := (reachable.afterFrames env frames).bounded
  have closing : Closing env before later ended := frame_closing env bounded
  have tracks : before.TracksQuit later := frame_keeps env inputMove_tracksQuit
    guestMove_tracksQuit renderMove_tracksQuit (tracksQuit_refl before)
  refine ⟨?_, tracks.iff, closing.terminated_iff, closing.unrendered, closing.unpaused,
    closing.pauses, ?_⟩
  · obtain ⟨begun, count, starts, quit, lacks, counted, _, ran⟩ :=
      beforeRender_counted env bounded
    obtain ⟨turns, grown, few, all, ends⟩ := stepTimes_turns env count begun
    have ready : Action.after (beforeRender env) before =
        Action.after (stepTimes env count) begun := by rw [Action.after, ran, Action.after]
    have steps : stepsIn effects = stepsIn turns :=
      stepsIn_between lacks (ready ▸ grown) (frame_lacks_steps env before)
    have reaches (unbroken : unbroken) : ∃ last, stepTimes env count begun = .ok () last :=
      ran ▸ closing.reaches unbroken
    rw [← steps] at few all ends
    refine ⟨begun, count, starts, quit, counted, ran, few, fun unbroken => ?_,
      fun done less => ?_⟩
    · exact all (reaches unbroken)
    · obtain ⟨middle, reached, delivered | ⟨last, halt, later, broke⟩⟩ := ends done less
      · exact ⟨middle, reached, .inl delivered⟩
      · refine ⟨middle, reached, .inr ⟨last, fun unbroken => ?_⟩⟩
        obtain ⟨other, reached⟩ := reaches unbroken
        rw [broke] at reached
        cases reached
  · intro goOn
    refine ⟨run_passes env goOn 0, fun stops more => ?_⟩
    rw [run_passes env goOn, run_stops env stops]

/-- In the third step of the second frame the guest asks for a signal that is due at once and
then to stop: the signal is delivered, and the run is over. -/
theorem frames_end_on_time_after_third_step :
    let surroundings := Console.idle ⟨4, 1⟩ (.done 0)
    let env := { surroundings with
      ticks := fun _ => 9
      step := fun world =>
        if world < 102 then .done (world + 1)
        else .call world (.signalAt (some ⟨7⟩) 3) fun _ =>
          .call world .signalQuit fun _ => .done (world + 1) }
    let config : Config := { cyclesPerFrame := 100, novsyncDelay := 5 }
    ∃ console, Console.create config env.keyboard.mode = .ok console ∧
      let start : Session Nat := ⟨console, 0, []⟩
      let before := start.afterFrames env 1
      let later := start.afterFrames env 2
      alarmMarks (before.since later) =
        [.signalled ⟨7⟩, .asked (some ⟨7⟩) 3, .began, .began, .began] ∧
      (∃ begun, StepCount env begun 100 3 ∧ beforeRender env before = stepTimes env 3 begun ∧
        ∀ done < 3, ∃ middle next, stepTimes env done begun = .ok () middle ∧
          stepTimes env (done + 1) begun = .ok () next ∧ Delivers env middle next) ∧
      (∀ effect ∈ before.since later, effect.renders = false ∧ effect.isWait = false) ∧
      ∀ more, run env (1 + (1 + more)) start = .ok .terminated later := by
  intro surroundings env config
  have created : Console.create config env.keyboard.mode = .ok _ := rfl
  refine ⟨_, created, ?_⟩
  intro start before later
  have facts : alarmMarks (before.since later) =
        [.signalled ⟨7⟩, .asked (some ⟨7⟩) 3, .began, .began, .began] ∧
      stepsIn (before.since later) = 3 ∧ before.console.config.cyclesPerFrame.toNat = 100 ∧
      later.console.guest.quit = true ∧
      ending (frame env start) = .inr .again ∧
      ending (frame env before) = .inr .terminated := by decide +kernel
  have reachable : Reachable env start := .created created 0
  -- the session is not to be computed again
  clear_value start
  obtain ⟨marks, three, most, quit, goesOn, terminated⟩ := facts
  obtain ⟨⟨begun, count, _, _, counted, ran, _, all, steps⟩, _, _, unrendered, unpaused, _, runs⟩ :=
    frames_end_on_time reachable 1
  have unbroken : ∀ violation, ending (frame env before) ≠ .inl (.violated violation) := by
    rw [terminated]
    nofun
  have last : ending (frame env before) ≠ .inr .again := by
    rw [terminated]
    nofun
  obtain rfl : count = 3 := (all unbroken).symm.trans three
  rw [most] at counted
  refine ⟨marks, ⟨begun, counted, ran, fun done few => ?_⟩,
    fun effect listed => ⟨unrendered quit effect listed, unpaused last effect listed⟩, ?_⟩
  · obtain ⟨middle, reached, ⟨next, ended, delivers⟩ | ⟨_, broken⟩⟩ :=
      steps done (few.trans_eq three.symm)
    · exact ⟨middle, next, reached, ended, delivers⟩
    · exact absurd unbroken broken
  intro more
  obtain ⟨_, stops⟩ := runs fun earlier few => by
    obtain rfl : earlier = 0 := by omega
    exact goesOn
  rw [stops last more]
  obtain ⟨ended, reached⟩ := ending_ok terminated
  rw [reached]
  exact congrArg _ (after_ok reached).symm

end GuestConsole
