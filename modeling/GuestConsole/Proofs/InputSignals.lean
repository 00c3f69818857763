import GuestConsole.Proofs.Calls
import GuestConsole.Proofs.QueueSignals

/-!
# Waking the guest for input

A frame that starts with a semaphore registered queues its events, delivers the signals due
for their words and owes none from then on.  The guest alone makes the queue shorter, so that
words never wait for it without a signal since the queue was last empty.
-/

set_option autoImplicit false

namespace GuestConsole

open GuestConsole.Action GuestConsole.Console GuestConsole.Input.Queue

variable {σ : Type}

def Console.queueingInput (env : Environment σ) : Action σ Unit := do
  opening env
  takingEvents env

/-- From `before` to `now` words have been added to the queue and nothing else has been done to
it, and no signal has been delivered for them. -/
structure Session.Queued (before now : Session σ) (added : List UInt16) : Prop where
  words : now.console.guest.queue.words = before.console.guest.queue.words ++ added
  owes : Owes before.console.guest.queue added now.console.guest.queue
  policy : now.console.guest.queue.policy = before.console.guest.queue.policy
  bounded : now.console.guest.queue.length ≤ Input.Queue.capacity
  signals : inputSignals now.history = inputSignals before.history

structure Paid (session : Session σ) : Prop where
  owed : session.console.guest.queue.owed = 0
  policy : session.console.guest.queue.policy = session.console.config.input.wakePolicy

/-- If the queue was empty at `moment`, it is still empty or an input signal has come since. -/
def Awake (moment now : Session σ) : Prop :=
  ∃ effects, now.history = effects ++ moment.history ∧
    (now.console.guest.queue.words = [] ∨ inputSignals effects ≠ [])

/-! ## Moves -/

section Moves
variable {before moment : Session σ}

theorem queueMove_queued (session later : Session σ) (move : Session.QueueMove session later)
    (queued : ∃ added, before.Queued session added) : ∃ added, before.Queued later added := by
  obtain ⟨added, queued⟩ := queued
  obtain ⟨_, signals, same | ⟨now, unixSeconds, events, pushed, ran⟩⟩ := move
  · refine ⟨added, ?_, ?_, ?_, ?_, signals.trans queued.signals⟩ <;> rw [same]
    · exact queued.words
    · exact queued.owes
    · exact queued.policy
    · exact queued.bounded
  · have group : Push.result session.console.guest.queue (.group now unixSeconds events) =
        .ok (pushed, later.console.guest.queue) := ran
    obtain ⟨more, words, owes, policy, bounded⟩ := push_owes queued.bounded group
    refine ⟨added ++ more, ?_, queued.owes.trans queued.words queued.policy owes,
      policy.trans queued.policy, bounded, signals.trans queued.signals⟩
    rw [words, queued.words, List.append_assoc]

theorem inputSignals_cons (effect : Effect) (history : List Effect) :
    inputSignals (effect :: history) = effect.inputSignal?.toList ++ inputSignals history := by
  cases signal : effect.inputSignal? <;> simp [inputSignals, signal]

theorem inputSignals_append (effects history : List Effect) :
    inputSignals (effects ++ history) = inputSignals effects ++ inputSignals history :=
  List.filterMap_append

theorem inputSignals_replicate (times : Nat) (semaphore : Semaphore) :
    inputSignals (List.replicate times (.signalled .input semaphore)) =
      List.replicate times semaphore :=
  List.filterMap_replicate_of_some rfl

theorem guestMove_signals {signals : List Semaphore} (session later : Session σ)
    (move : Session.GuestMove session later) (same : inputSignals session.history = signals) :
    inputSignals later.history = signals := by
  cases move with
  | note effect running =>
      rw [inputSignals_cons, same]
      cases effect with
      | signalled cause semaphore =>
          cases cause with
          | input => exact running.elim
          | alarm => rfl
      | _ => rfl
  | _ => exact same

theorem renderMove_signals {signals : List Semaphore} (session later : Session σ)
    (move : Session.RenderMove session later) (same : inputSignals session.history = signals) :
    inputSignals later.history = signals := by
  cases move with
  | note effect output =>
      rw [inputSignals_cons, same]
      cases effect with
      | signalled cause semaphore => exact output.elim
      | _ => rfl
  | draw strokes world =>
      have none : inputSignals (strokes.map Effect.drew) = [] := by
        simp [inputSignals, Effect.inputSignal?]
      rw [inputSignals, List.filterMap_append]
      exact (congrArg (· ++ _) none).trans same
  | _ => exact same

theorem serve_owed {guest next : Guest.State} {clock : Guest.Clock} {call : Guest.Call}
    {answer : call.Answer} (served : guest.serve clock call = .ok (answer, next)) :
    next.queue.owed = guest.queue.owed ∧ next.queue.policy = guest.queue.policy := by
  cases call with
  | nextWord =>
      obtain ⟨_, rfl⟩ := Prod.mk.inj (Except.ok.inj served)
      cases guest.queue.words <;> simp
  | setDisplaySize | displayChanged | tryDisplayChanged =>
      obtain ⟨_, _, _, rfl⟩ := serve_bitmap served rfl
      exact ⟨rfl, rfl⟩
  | _ =>
      obtain ⟨_, rfl⟩ := Prod.mk.inj (Except.ok.inj served)
      exact ⟨rfl, rfl⟩

theorem guestMove_paid (session later : Session σ) (move : Session.GuestMove session later)
    (paid : Paid session) : Paid later := by
  cases move with
  | serve clock call answer guest served =>
      obtain ⟨owed, same⟩ := serve_owed served
      exact ⟨owed.trans paid.owed, same.trans paid.policy⟩
  | _ => exact ⟨paid.owed, paid.policy⟩

theorem renderMove_paid (session later : Session σ) (move : Session.RenderMove session later)
    (paid : Paid session) : Paid later := by
  have queue := renderMove_queue session later move rfl
  have config := renderMove_config session later move rfl
  exact ⟨queue ▸ paid.owed, by rw [queue, config]; exact paid.policy⟩

theorem Awake.grow {now later : Session σ} {effects : List Effect} (awake : Awake moment now)
    (grown : later.history = effects ++ now.history)
    (noticed : now.console.guest.queue.words = [] →
      later.console.guest.queue.words = [] ∨ inputSignals effects ≠ []) :
    Awake moment later := by
  obtain ⟨earlier, begun, state⟩ := awake
  refine ⟨effects ++ earlier, by rw [grown, begun, List.append_assoc], ?_⟩
  rw [inputSignals_append]
  rcases state with empty | signalled
  · rcases noticed empty with still | signalled
    · exact .inl still
    · exact .inr fun none => signalled (List.append_eq_nil_iff.mp none).1
  · exact .inr fun none => signalled (List.append_eq_nil_iff.mp none).2

theorem guestMove_awake (session later : Session σ) (move : Session.GuestMove session later)
    (awake : Awake moment session) : Awake moment later := by
  obtain ⟨effects, grown⟩ : session.Grown later := guestMove_grown _ _ move ⟨[], rfl⟩
  refine awake.grow grown fun empty => .inl ?_
  cases move with
  | serve clock call answer guest served =>
      have words := (serve_queue served).1
      rw [empty] at words
      exact (List.append_eq_nil_iff.mp words).2
  | _ => exact empty

theorem renderMove_awake (session later : Session σ) (move : Session.RenderMove session later)
    (awake : Awake moment session) : Awake moment later := by
  obtain ⟨effects, grown⟩ : session.Grown later := renderMove_grown _ _ move ⟨[], rfl⟩
  refine awake.grow grown fun empty => .inl ?_
  rw [renderMove_queue session later move rfl]
  exact empty

end Moves

/-! ## The input of a frame -/

section Input
variable (env : Environment σ) {before : Session σ}

theorem opening_signals (before : Session σ) :
    inputSignals (Action.after (opening env) before).history = inputSignals before.history := by
  let centered : Session σ := { before with
    console := before.console.centered (env.extent before.world) }
  have first : opening env before = applyPointerRequest env centered := rfl
  rw [Action.after, first, applyPointerRequest, bind_console]
  cases request : centered.console.guest.pointerRequest <;> rfl

theorem opening_queued (bounded : before.console.guest.queue.length ≤ Input.Queue.capacity) :
    before.Queued (Action.after (opening env) before) [] := by
  obtain ⟨opened, openRan, exact⟩ := opening_exact env before
  have signals := opening_signals env before
  rw [after_ok openRan] at signals ⊢
  refine ⟨?_, ?_, ?_, ?_, signals⟩ <;> rw [exact.queue]
  · exact (List.append_nil _).symm
  · exact owes_nil rfl
  · exact bounded

theorem queueingInput_queued
    (bounded : before.console.guest.queue.length ≤ Input.Queue.capacity) :
    ∃ added, before.Queued (Action.after (queueingInput env) before) added := by
  let invariant : Session σ → Prop := fun session => ∃ added, before.Queued session added
  have opened : invariant (Action.after (opening env) before) := ⟨[], opening_queued env bounded⟩
  exact keeps_bind opened fun _ _ queued =>
    (takingEvents_makes env).keeps queueMove_queued queued

theorem queueingInput_ok {semaphore : Semaphore}
    (bounded : before.console.guest.queue.length ≤ Input.Queue.capacity)
    (registered : before.console.guest.queue.semaphore = some semaphore) :
    queueingInput env before = .ok () (Action.after (queueingInput env) before) := by
  obtain ⟨feed, fed⟩ := fed_of_bounded bounded
  obtain ⟨opened, openRan, exact⟩ := opening_exact env before
  have still : opened.console.guest.queue.semaphore = some semaphore := by
    rw [exact.queue, registered]
  let now := env.ticks opened.world
  let unixSeconds := env.unixSeconds opened.world
  obtain ⟨queue, keysRan, keysRegistered, keysHold⟩ :=
    takeKeys_exact env now unixSeconds (opened.clocked env) (exact.fed fed).holds still
  obtain ⟨filled, mouseRan, _⟩ := takeMouse_exact env now unixSeconds
    ((opened.clocked env).keyed env queue) keysHold keysRegistered
  have events : takingEvents env opened =
      (do takeKeys env now unixSeconds; takeMouse env now unixSeconds) (opened.clocked env) := rfl
  have ran : queueingInput env before = .ok () filled := by
    rw [queueingInput, bind_ok openRan, events, bind_ok keysRan, mouseRan]
  rw [after_ok ran, ran]

theorem signalTimes_ok (semaphore : Semaphore) (times : Nat) (session : Session σ) :
    ∃ later, signalTimes env semaphore times session = .ok () later ∧
      later.console = session.console ∧
      later.history = List.replicate times (.signalled .input semaphore) ++ session.history := by
  induction times generalizing session with
  | zero => exact ⟨session, rfl, rfl, rfl⟩
  | succ times ih =>
      obtain ⟨later, ran, console, history⟩ := ih { session with
        world := env.signal semaphore session.world
        history := .signalled .input semaphore :: session.history }
      refine ⟨later, ran, console, ?_⟩
      rw [history, List.replicate_succ', List.append_assoc]
      rfl

theorem takingInput_signals (paid : Paid before)
    (bounded : before.console.guest.queue.length ≤ Input.Queue.capacity) :
    let ready := Action.after (takingInput env) before
    let queue := before.console.guest.queue
    let policy := before.console.config.input.wakePolicy
    Paid ready ∧
    (queue.semaphore = none → ready.console.guest.queue.words = queue.words ∧
      inputSignals ready.history = inputSignals before.history) ∧
    ∀ semaphore, queue.semaphore = some semaphore →
      ∃ filled added, queueingInput env before = .ok () filled ∧
        filled.console.guest.queue.words = queue.words ++ added ∧
        ready.console.guest.queue.words = filled.console.guest.queue.words ∧
        inputSignals filled.history = inputSignals before.history ∧
        ready.history = List.replicate (signalsDue policy queue.words added)
          (.signalled .input semaphore) ++ filled.history := by
  intro ready queue policy
  have settings : ready.console.config = before.console.config :=
    (takingInput_makes env).keeps inputMove_config rfl
  obtain ⟨opened, openRan, exact⟩ := opening_exact env before
  have openQueued := opening_queued env bounded
  rw [after_ok openRan] at openQueued
  cases registered : queue.semaphore with
  | none =>
      have ran : takingInput env before = (discard (trackPointer env) : Action σ Unit) opened := by
        rw [takingInput, bind_ok openRan]
        exact takeInput_unregistered env (by rw [exact.queue]; exact registered)
      have reached : ready = Action.after (discard (trackPointer env) : Action σ Unit) opened := by
        rw [Action.after, ← ran]
        rfl
      have same : ready.console.guest.queue = queue := by
        rw [reached]
        exact exact.queue
      have signals : inputSignals ready.history = inputSignals opened.history := by
        rw [reached]
        rfl
      refine ⟨⟨?_, ?_⟩, fun _ => ⟨?_, signals.trans openQueued.signals⟩, ?_⟩
      · rw [same]
        exact paid.owed
      · rw [same, settings]
        exact paid.policy
      · rw [same]
      · intro semaphore given
        cases given
  | some semaphore =>
      let filled := Action.after (queueingInput env) before
      have filledRan : queueingInput env before = .ok () filled :=
        queueingInput_ok env bounded registered
      obtain ⟨added, queued⟩ := queueingInput_queued env bounded
      have whole : takingInput env before = deliverOwed env semaphore filled := by
        have split : takingInput env before =
            (queueingInput env >>= fun _ => deliverOwed env semaphore) before := by
          rw [queueingInput, bind_assoc, takingInput, bind_ok openRan, bind_ok openRan]
          exact takeInput_registered env (by rw [exact.queue]; exact registered)
        rw [split, bind_ok filledRan]
      obtain ⟨last, signalsRan, console, history⟩ := signalTimes_ok env semaphore
        filled.console.guest.queue.takeOwed.1.toNat
        { filled with console := filled.console.withQueue filled.console.guest.queue.takeOwed.2 }
      have ran : takingInput env before = .ok () last := whole.trans signalsRan
      have reached : ready = last := after_ok ran
      have owed : filled.console.guest.queue.takeOwed.1.toNat =
          signalsDue policy queue.words added := by
        have few := signalsDue_le policy queue.words added
        have capacity : Input.Queue.capacity = 256 := rfl
        have short := queued.bounded
        rw [Input.Queue.length, queued.words, List.length_append, capacity] at short
        have counts : Owes queue added filled.console.guest.queue := queued.owes
        rw [Owes, show queue.owed = 0 from paid.owed, show queue.policy = policy from paid.policy,
          UInt16.toNat_zero, Nat.zero_add] at counts
        refine counts.trans (Nat.min_eq_left ?_)
        omega
      rw [owed] at history
      rw [reached] at settings ⊢
      refine ⟨⟨?_, ?_⟩, ?_, ?_⟩
      · rw [console]
        rfl
      · rw [settings, console]
        exact queued.policy.trans paid.policy
      · intro unregistered
        cases unregistered
      · intro other same
        cases same
        exact ⟨filled, added, filledRan, queued.words, by rw [console]; rfl, queued.signals,
          history⟩

end Input

/-! ## Runs -/

section Runs
variable {env : Environment σ} {before session moment : Session σ}

theorem Console.Reachable.paid (reachable : Reachable env session) : Paid session := by
  let invariant : Session σ → Prop := fun session =>
    Paid session ∧ session.console.guest.queue.length ≤ Input.Queue.capacity
  have input (before : Session σ) (earlier : invariant before) :
      invariant (Action.after (takingInput env) before) :=
    ⟨(takingInput_signals env earlier.1 earlier.2).1,
      (takingInput_makes env).keeps inputMove_bounded earlier.2⟩
  suffices kept : invariant session from kept.1
  refine reachable.keeps (fun {config console} world created => ?_) input
    (fun before later move earlier =>
      ⟨guestMove_paid before later move earlier.1, guestMove_bounded before later move earlier.2⟩)
    (fun before later move earlier =>
      ⟨renderMove_paid before later move earlier.1, renderMove_bounded before later move earlier.2⟩)
  obtain ⟨_, guest, _⟩ := create_exact created
  refine ⟨⟨?_, ?_⟩, (created_fed created world).holds.bounded⟩
  · rw [show (Session.mk console world []).console.guest = _ from guest]
    rfl
  · rw [show (Session.mk console world []).console.guest = _ from guest]
    exact congrArg (fun config => config.input.wakePolicy) (create_config created).symm

/-- Words that are queued while none waits come with a signal. -/
theorem takingInput_awake (reachable : Reachable env before) (awake : Awake moment before) :
    Awake moment (Action.after (takingInput env) before) := by
  obtain ⟨_, idle, queues⟩ := takingInput_signals env reachable.paid reachable.bounded
  obtain ⟨effects, grown⟩ : before.Grown (Action.after (takingInput env) before) :=
    (takingInput_makes env).keeps inputMove_grown ⟨[], rfl⟩
  refine awake.grow grown fun empty => ?_
  cases registered : before.console.guest.queue.semaphore with
  | none => exact .inl ((idle registered).1.trans empty)
  | some semaphore =>
      obtain ⟨filled, added, _, words, same, unsignalled, history⟩ := queues semaphore registered
      by_cases none : added = []
      · left
        rw [same, words, empty, none]
        rfl
      · right
        let policy := before.console.config.input.wakePolicy
        have total : inputSignals effects ++ inputSignals before.history =
            List.replicate (signalsDue policy before.console.guest.queue.words added) semaphore ++
              inputSignals before.history := by
          rw [← inputSignals_append, ← grown, history, inputSignals_append,
            inputSignals_replicate, unsignalled]
        have due := signalsDue_pos policy none
        rw [List.append_cancel_right total, empty]
        exact List.ne_nil_of_length_pos (by rw [List.length_replicate]; exact due)

theorem frame_awake (reachable : Reachable env before) (awake : Awake moment before) :
    Awake moment (Action.after (frame env) before) :=
  after_ready_keeps env guestMove_awake renderMove_awake
    (takingInput_ok env reachable.bounded) (takingInput_awake reachable awake)

/-- The console comes to a session once it has passed a moment: the beginning of a frame or a
call in it, before or after that is served. -/
inductive Console.LeadsTo (env : Environment σ) (moment : Session σ) : Session σ → Prop where
  | here (reachable : Reachable env moment) : LeadsTo env moment moment
  | calling {before : Session σ} (reachable : Reachable env before) {call : Guest.Call}
      (calls : Calls env before call moment) : LeadsTo env moment (Action.after (frame env) before)
  | called {before calling : Session σ} (reachable : Reachable env before) {call : Guest.Call}
      (calls : Calls env before call calling) {answer : call.Answer}
      (served : serve env call calling = .ok answer moment) :
      LeadsTo env moment (Action.after (frame env) before)
  | frame {session : Session σ} (earlier : LeadsTo env moment session) :
      LeadsTo env moment (Action.after (Console.frame env) session)
  | call {session : Session σ} (earlier : LeadsTo env moment session) (call : Guest.Call) :
      LeadsTo env moment (Action.after (serve env call) session)
  | surroundings {session : Session σ} (earlier : LeadsTo env moment session) (world : σ) :
      LeadsTo env moment { session with world }

theorem Console.LeadsTo.reachable (leads : LeadsTo env moment session) :
    Reachable env session := by
  induction leads with
  | here reachable => exact reachable
  | calling reachable _ => exact .frame reachable
  | called reachable _ _ => exact .frame reachable
  | frame _ ih => exact .frame ih
  | call _ call ih => exact .call ih call
  | surroundings _ world ih => exact .surroundings ih world

theorem Console.LeadsTo.awake (leads : LeadsTo env moment session)
    (empty : moment.console.guest.queue.words = []) : Awake moment session := by
  have here : Awake moment moment := ⟨[], rfl, .inl empty⟩
  induction leads with
  | here reachable => exact here
  | calling reachable calls =>
      obtain ⟨ready, guestMoves, renderMoves⟩ := calls.goes_on env reachable.bounded
      exact moves_keep renderMove_awake renderMoves (moves_keep guestMove_awake guestMoves here)
  | called reachable calls served =>
      obtain ⟨ready, guestMoves, renderMoves⟩ := calls.ends env reachable.bounded served
      exact moves_keep renderMove_awake renderMoves (moves_keep guestMove_awake guestMoves here)
  | frame earlier ih => exact frame_awake earlier.reachable ih
  | call earlier call ih => exact (serve_makes env call).keeps guestMove_awake ih
  | surroundings earlier world ih => exact guestMove_awake _ _ (.world _ world) ih

end Runs

/-- In every frame the signals for input are delivered between the last event that is queued
and the check of the alarm, as many as are due for the words that the frame has queued, and
none of them in a frame that starts without a semaphore.  Nothing is owed when a frame ends.
Where words wait as the guest's steps begin, a signal has come since the queue was last
empty. -/
theorem guest_woken_for_input {env : Environment σ} {before : Session σ}
    (reachable : Reachable env before) :
    let later := Action.after (frame env) before
    let queue := before.console.guest.queue
    let policy := before.console.config.input.wakePolicy
    ∃ ready begun, takingInput env before = .ok () ready ∧
      startingGuest env ready = .ok () begun ∧
      frame env before =
        ((do checkAlarm env; runGuest env) >>= fun _ => afterGuest env) ready ∧
      inputSignals later.history = inputSignals ready.history ∧
      later.console.guest.queue.owed = 0 ∧
      (queue.semaphore = none → inputSignals ready.history = inputSignals before.history) ∧
      (∀ semaphore, queue.semaphore = some semaphore →
        ∃ filled added, queueingInput env before = .ok () filled ∧
          filled.console.guest.queue.words = queue.words ++ added ∧
          inputSignals filled.history = inputSignals before.history ∧
          ready.history = List.replicate (signalsDue policy queue.words added)
            (.signalled .input semaphore) ++ filled.history) ∧
      (begun.console.guest.queue.words ≠ [] →
        ∀ moment, LeadsTo env moment before → moment.console.guest.queue.words = [] →
          inputSignals (moment.since begun) ≠ []) := by
  intro later queue policy
  let ready := Action.after (takingInput env) before
  have inputRan := takingInput_ok env reachable.bounded
  obtain ⟨_, idle, queues⟩ := takingInput_signals env reachable.paid reachable.bounded
  refine ⟨ready, _, inputRan, startingGuest_ok env ready, frame_after_input env inputRan, ?_,
    (Reachable.frame reachable).paid.owed, fun unregistered => (idle unregistered).2, ?_, ?_⟩
  · exact after_ready_keeps env guestMove_signals renderMove_signals inputRan rfl
  · intro semaphore registered
    obtain ⟨filled, added, ran, words, _, unsignalled, history⟩ := queues semaphore registered
    exact ⟨filled, added, ran, words, unsignalled, history⟩
  · intro waiting moment leads empty
    have awake : Awake moment (Action.after (startingGuest env) ready) :=
      (startingGuest_makes env).keeps guestMove_awake
        (takingInput_awake reachable (leads.awake empty))
    obtain ⟨effects, grown, still | signalled⟩ := awake
    · exact absurd still waiting
    · rw [since_of_grown grown]
      exact signalled

/-- A key and a button in the second frame, while none of the words of the first is left: the
five words that they give come with a single signal. -/
theorem guest_woken_for_input_once :
    let env : Environment Nat := {
      ticks := fun _ => 0
      unixSeconds := fun _ => 9
      keyboard := .raw fun world => ([⟨4, {}⟩], world)
      mouse := fun world => ({ buttons := 1 }, world)
      moveMouse := fun _ world => world
      refreshCursor := fun world => world
      wait := fun _ world => world
      extent := fun _ => {}
      put := fun _ _ world => some world
      signal := fun _ world => world
      displayBits := fun _ world => (none, world)
      word := fun _ _ _ => 0
      lowMemory := fun world => world
      step := fun world => .call world (.setInputSemaphore (some ⟨7⟩)) fun _ => .done world }
    let config : Config := { cyclesPerFrame := 100, input := ⟨.onNonEmpty⟩ }
    ∃ console, Console.create config env.keyboard.mode = .ok console ∧
      let start : Session Nat := { console, world := 0 }
      let before := start.afterFrames env 1
      ∃ ready begun filled : Session Nat, takingInput env before = .ok () ready ∧
        startingGuest env ready = .ok () begun ∧
        filled.console.guest.queue.words = [0, 12385, 16481, 0, 12418] ∧
        ready.history = .signalled .input ⟨7⟩ :: filled.history ∧
        inputSignals (before.since begun) ≠ [] := by
  intro env config
  have created : Console.create config env.keyboard.mode = .ok _ := rfl
  refine ⟨_, created, ?_⟩
  intro start before
  have facts : before.console.config.input.wakePolicy = .onNonEmpty ∧
      before.console.guest.queue.words = [] ∧
      before.console.guest.queue.semaphore = some ⟨7⟩ ∧
      (Action.after (queueingInput env) before).console.guest.queue.words =
        [0, 12385, 16481, 0, 12418] ∧
      (Action.after (startingGuest env)
        (Action.after (takingInput env) before)).console.guest.queue.words ≠ [] := by
    decide +kernel
  have reachable : Reachable env before := .frame (.created created 0)
  -- the session is not to be computed again
  clear_value before
  obtain ⟨policy, empty, registered, words, waiting⟩ := facts
  obtain ⟨ready, begun, inputRan, startRan, _, _, _, _, delivers, awake⟩ :=
    guest_woken_for_input reachable
  obtain ⟨filled, added, filledRan, addedWords, _, history⟩ := delivers ⟨7⟩ registered
  rw [after_ok inputRan, after_ok startRan] at waiting
  rw [after_ok filledRan] at words
  rw [empty, words] at addedWords
  have once : signalsDue before.console.config.input.wakePolicy
      before.console.guest.queue.words added = 1 := by
    rw [policy, empty, ← (List.nil_append added), ← addedWords]
    decide
  rw [once] at history
  exact ⟨ready, begun, filled, inputRan, startRan, words, history, awake waiting before (.here reachable) empty⟩

end GuestConsole
