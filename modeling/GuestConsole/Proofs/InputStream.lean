import GuestConsole.Proofs.Deliveries
import GuestConsole.Proofs.Readable

/-!
# The stream of input words

At every moment of a run the words that the guest has taken and the words that wait
for it are together the words of all accepted groups of events, and they are read as
the timestamps and items of those groups.
-/

set_option autoImplicit false

namespace GuestConsole

open GuestConsole.Action GuestConsole.Console GuestConsole.Event

variable {σ : Type}

def Console.Feed.next (env : Environment σ) (feed : Feed) (before : Session σ) : Feed :=
  match delivery? env before with
  | none => feed
  | some delivery => feed.take (taken before.history).length delivery

def Session.feedAfter (env : Environment σ) (start : Session σ) : Nat → Feed
  | 0 => { keyboard := start.console.keyboard }
  | count + 1 => (start.feedAfter env count).next env (start.afterFrames env count)

/-! ## Moments of a frame -/

/-- The first calls of a program, after which it is broken off. -/
def Guest.Program.take : Nat → Guest.Program σ → Guest.Program σ
  | _, .done world => .done world
  | 0, .call world _ _ => .done world
  | count + 1, .call world service next =>
      .call world service fun answer => (next answer).take count

section Prefixes
variable (env : Environment σ)

def Console.keysUntil (count : Nat) : Action σ Unit := do
  opening env
  let now ← readTicks env
  let unixSeconds ← readUnixSeconds env
  let typed ← ask (polled env)
  record typed.effect
  queueTyped now unixSeconds (typed.take count)

def Console.buttonsUntil (count : Nat) : Action σ Unit := do
  opening env
  let now ← readTicks env
  let unixSeconds ← readUnixSeconds env
  takeKeys env now unixSeconds
  let (events, _) ← trackMouse env
  (events.take count).forM fun event => queueEvents now unixSeconds [[event.word]]

/-- The guest's part of a frame until the guest has done some steps and then `calls`
calls of the next. -/
def Console.guestUntil (done calls : Nat) : Action σ Unit := do
  checkAlarm env
  onWorld env.lowMemory
  record .checkedLowMemory
  steps env done
  record .stepped
  runProgram env ((env.step (← get).world).take calls)

def Console.callsUntil (done calls : Nat) : Action σ Unit := do
  opening env
  takeInput env
  guestUntil env done calls

/-- A moment of the frame that begins at `before` with `feed`: what has been written for
the guest by then, and the session. -/
inductive Console.Moment (feed : Feed) (before : Session σ) : Written → Session σ → Prop where
  | start : Moment feed before feed.written before
  | keys (delivery : Delivery) (count : Nat) (takes : delivery? env before = some delivery) :
      Moment feed before
        ((keyGroups ((delivery.typed.take count).decode feed.keyboard).1).foldl
          (Written.offer (taken before.history).length delivery.now delivery.unixSeconds)
          feed.written)
        (Action.after (keysUntil env count) before)
  | buttons (delivery : Delivery) (count : Nat)
      (takes : delivery? env before = some delivery) :
      Moment feed before
        ((keyGroups (delivery.typed.decode feed.keyboard).1
            ++ (buttonGroups feed.buttons delivery.buttons).take count).foldl
          (Written.offer (taken before.history).length delivery.now delivery.unixSeconds)
          feed.written)
        (Action.after (buttonsUntil env count) before)
  | calls (done calls : Nat) :
      Moment feed before (feed.next env before).written
        (Action.after (callsUntil env done calls) before)

end Prefixes

/-! ## What the guest does to the stream -/

theorem serve_queue {guest next : Guest.State} {clock : Guest.Clock} {call : Guest.Call}
    {answer : call.Answer} (served : guest.serve clock call = .ok (answer, next)) :
    (Effect.served call answer).word?.toList ++ next.queue.words = guest.queue.words ∧
      next.queue.stamper = guest.queue.stamper := by
  cases call with
  | nextWord =>
      obtain ⟨rfl, rfl⟩ := Prod.mk.inj (Except.ok.inj served)
      cases waiting : guest.queue.words with
      | nil => simp [waiting, Effect.word?]
      | cons word rest => simp [Effect.word?]
  | setDisplaySize | displayChanged | tryDisplayChanged =>
      obtain ⟨_, _, _, rfl⟩ := serve_bitmap served rfl
      exact ⟨rfl, rfl⟩
  | _ =>
      obtain ⟨rfl, rfl⟩ := Prod.mk.inj (Except.ok.inj served)
      exact ⟨rfl, rfl⟩

theorem serve_shortens {guest next : Guest.State} {clock : Guest.Clock} {call : Guest.Call}
    {answer : call.Answer} (served : guest.serve clock call = .ok (answer, next)) :
    next.queue.length ≤ guest.queue.length := by
  rw [Input.Queue.length, Input.Queue.length, ← (serve_queue served).1, List.length_append]
  exact Nat.le_add_left _ _

theorem guestMove_fed {feed : Feed} (before later : Session σ)
    (move : Session.GuestMove before later) (fed : Fed feed before) : Fed feed later := by
  cases move with
  | world world => exact ⟨fed.keyboard, fed.buttons, fed.pointer, fed.holds⟩
  | note effect running =>
      refine ⟨fed.keyboard, fed.buttons, fed.pointer, ?_⟩
      rw [taken_quiet effect (isQuiet_of_running running)]
      exact fed.holds
  | alarm alarm => exact ⟨fed.keyboard, fed.buttons, fed.pointer, fed.holds⟩
  | due => exact ⟨fed.keyboard, fed.buttons, fed.pointer, fed.holds⟩
  | serve clock call answer guest served =>
      obtain ⟨words, stamper⟩ := serve_queue served
      refine ⟨fed.keyboard, fed.buttons, fed.pointer, ?_, ?_, ?_⟩
      · rw [taken_cons, List.append_assoc, words]
        exact fed.holds.words
      · rw [stamper]
        exact fed.holds.previous
      · exact (serve_shortens served).trans fed.holds.bounded

theorem renderMove_fed {feed : Feed} (before later : Session σ)
    (move : Session.RenderMove before later) (fed : Fed feed before) : Fed feed later := by
  cases move with
  | note effect output =>
      refine ⟨fed.keyboard, fed.buttons, fed.pointer, ?_⟩
      rw [taken_quiet effect (isQuiet_of_output output)]
      exact fed.holds
  | glyph =>
      unfold Console.takeGlyph
      split <;> exact ⟨fed.keyboard, fed.buttons, fed.pointer, fed.holds⟩
  | draw strokes world =>
      refine ⟨fed.keyboard, fed.buttons, fed.pointer, ?_⟩
      have words : taken (strokes.map Effect.drew ++ before.history) =
          taken before.history := by
        induction strokes with
        | nil => rfl
        | cons stroke rest ih =>
            rw [List.map_cons, List.cons_append, taken_cons, ih]
            exact List.append_nil _
      rw [words]
      exact fed.holds
  | _ => exact ⟨fed.keyboard, fed.buttons, fed.pointer, fed.holds⟩

theorem isPoll_of_quiet {effect : Effect} (quiet : effect.IsQuiet) :
    effect.isPoll = false := by
  cases effect with
  | polledKeys keys => exact quiet.elim
  | polledSequence bytes => exact quiet.elim
  | _ => rfl

theorem guestMove_polls {polls : List Effect} (before later : Session σ)
    (move : Session.GuestMove before later)
    (same : before.history.filter Effect.isPoll = polls) :
    later.history.filter Effect.isPoll = polls := by
  cases move with
  | note effect running =>
      have quiet := isQuiet_of_running running
      rw [List.filter_cons_of_neg (by rw [isPoll_of_quiet quiet]; exact Bool.false_ne_true)]
      exact same
  | _ => exact same

theorem renderMove_polls {polls : List Effect} (before later : Session σ)
    (move : Session.RenderMove before later)
    (same : before.history.filter Effect.isPoll = polls) :
    later.history.filter Effect.isPoll = polls := by
  cases move with
  | note effect output =>
      have quiet := isQuiet_of_output output
      rw [List.filter_cons_of_neg (by rw [isPoll_of_quiet quiet]; exact Bool.false_ne_true)]
      exact same
  | draw strokes world =>
      have none : (strokes.map Effect.drew).filter Effect.isPoll = [] := by
        simp [Effect.isPoll]
      rw [List.filter_append, none]
      exact same
  | _ => exact same

/-! ## Frames -/

section Frames
variable (env : Environment σ) {feed : Feed} {before : Session σ}

theorem input_exact (fed : Fed feed before) :
    ∃ opened later, opening env before = .ok () opened ∧
      takeInput env opened = .ok () later ∧
      Fed (feed.next env before) later ∧
      (delivery? env before = none →
        later.history.filter Effect.isPoll = before.history.filter Effect.isPoll) ∧
      ∃ report, mouseReports later.history = report :: mouseReports before.history ∧
        later.console.guest.pointer = before.console.guest.display.locate
          (Display.centeredOrigin (env.extent before.world) before.console.guest.display)
          report.point := by
  obtain ⟨opened, openRan, exact⟩ := opening_exact env before
  have openFed := exact.fed fed
  have delivered := delivery?_eq env exact
  cases registered : before.console.guest.queue.semaphore with
  | none =>
      rw [registered, Option.map_none] at delivered
      obtain ⟨later, ran, laterFed, polls, report, tracks⟩ :=
        takeInput_idle env openFed (by rw [exact.queue, registered])
      refine ⟨opened, later, openRan, ran, ?_, fun _ => polls.trans exact.polls, report,
        exact.tracks tracks⟩
      rw [Feed.next, delivered]
      exact laterFed
  | some semaphore =>
      rw [registered, Option.map_some] at delivered
      obtain ⟨later, ran, laterFed, report, tracks⟩ :=
        takeInput_fed env openFed (by rw [exact.queue, registered])
      refine ⟨opened, later, openRan, ran, ?_, fun idle => ?_, report, exact.tracks tracks⟩
      · rw [Feed.next, delivered]
        rw [exact.taken] at laterFed
        exact laterFed
      · rw [delivered] at idle
        cases idle

theorem after_input_keeps {invariant : Session σ → Prop}
    (guest : ∀ before later, Session.GuestMove before later → invariant before → invariant later)
    (render : ∀ before later, Session.RenderMove before later →
      invariant before → invariant later)
    {opened later : Session σ} (openRan : opening env before = .ok () opened)
    (inputRan : takeInput env opened = .ok () later) (start : invariant later) :
    invariant (Action.after (frame env) before) := by
  rw [frame_eq]
  refine keeps_bind ?_ fun _ middle kept => (afterGuest_makes env).keeps render kept
  have whole : Action.after (beforeRender env) before =
      Action.after (checkAlarm env >>= fun _ => runGuest env) later := by
    rw [Action.after, beforeRender, bind_ok openRan, bind_ok inputRan]
    rfl
  rw [whole]
  exact (makes_bind (checkAlarm_makes env) fun _ => runGuest_makes env).keeps guest start

theorem frame_fed (fed : Fed feed before) :
    Fed (feed.next env before) (Action.after (frame env) before) := by
  obtain ⟨opened, later, openRan, inputRan, laterFed, _⟩ := input_exact env fed
  exact after_input_keeps env guestMove_fed renderMove_fed openRan inputRan laterFed

theorem frame_polls (fed : Fed feed before) (idle : delivery? env before = none) :
    (Action.after (frame env) before).history.filter Effect.isPoll =
      before.history.filter Effect.isPoll := by
  obtain ⟨opened, later, openRan, inputRan, _, polls, _⟩ := input_exact env fed
  exact after_input_keeps env guestMove_polls renderMove_polls openRan inputRan (polls idle)

theorem afterFrames_fed {start : Session σ} (fed : Fed (start.feedAfter env 0) start)
    (frames : Nat) : Fed (start.feedAfter env frames) (start.afterFrames env frames) := by
  induction frames with
  | zero => exact fed
  | succ frames ih => exact frame_fed env ih

/-! ### Within a frame -/

theorem keysUntil_holds (fed : Fed feed before) {delivery : Delivery}
    (takes : delivery? env before = some delivery) (count : Nat) :
    let now := Action.after (keysUntil env count) before
    Holds (taken now.history)
      ((keyGroups ((delivery.typed.take count).decode feed.keyboard).1).foldl
        (Written.offer (taken before.history).length delivery.now delivery.unixSeconds)
        feed.written)
      now.console.guest.queue := by
  obtain ⟨opened, openRan, exact⟩ := opening_exact env before
  obtain ⟨rfl, semaphore, registered⟩ := delivery_of_takes env exact takes
  have openFed := exact.fed fed
  let typed := (polled env opened.world).1
  let delivered := (opened.clocked env).typed env
  obtain ⟨queue, ran, _, holds⟩ :=
    queueTyped_queues (typed.take count) delivered feed.written semaphore openFed.holds registered
  have whole : keysUntil env count before = queueTyped (env.ticks opened.world)
      (env.unixSeconds opened.world) (typed.take count) delivered := by
    rw [keysUntil, bind_ok openRan]
    rfl
  intro now
  have reached : now = _ := after_ok (whole.trans ran)
  have words : taken now.history = taken before.history := by
    rw [reached]
    exact (taken_polled typed _ _ opened.history).trans exact.taken
  have keyboard : delivered.console.keyboard = feed.keyboard := openFed.keyboard
  rw [words, reached]
  rw [exact.taken, keyboard] at holds
  exact holds

theorem buttonsUntil_holds (fed : Fed feed before) {delivery : Delivery}
    (takes : delivery? env before = some delivery) (count : Nat) :
    Holds (taken (Action.after (buttonsUntil env count) before).history)
      ((keyGroups (delivery.typed.decode feed.keyboard).1
          ++ (buttonGroups feed.buttons delivery.buttons).take count).foldl
        (Written.offer (taken before.history).length delivery.now delivery.unixSeconds)
        feed.written)
      (Action.after (buttonsUntil env count) before).console.guest.queue := by
  obtain ⟨opened, openRan, exact⟩ := opening_exact env before
  obtain ⟨rfl, semaphore, registered⟩ := delivery_of_takes env exact takes
  have openFed := exact.fed fed
  let now := env.ticks opened.world
  let unixSeconds := env.unixSeconds opened.world
  obtain ⟨queue, keysRan, keysRegistered, keysHold⟩ :=
    takeKeys_exact env now unixSeconds (opened.clocked env) openFed.holds registered
  let keyed := (opened.clocked env).keyed env queue
  obtain ⟨events, moved, tracker, trackRan, groups, _, _, _⟩ := trackMouse_exact env keyed
  obtain ⟨last, ran, _, holds⟩ := forM_queues (fun event : Mouse.ButtonEvent => [[event.word]])
    (events.take count) (keyed.tracked env tracker) _ semaphore keysHold keysRegistered
  have begun : buttonsUntil env count before = (do
      takeKeys env now unixSeconds
      let (events, _) ← trackMouse env
      (events.take count).forM fun event =>
        queueEvents now unixSeconds [[event.word]]) (opened.clocked env) := by
    rw [buttonsUntil, bind_ok openRan]
    rfl
  have whole := begun
  rw [bind_ok keysRan, bind_ok trackRan] at whole
  have reached := after_ok (whole.trans ran)
  have words : taken (Action.after (buttonsUntil env count) before).history =
      taken before.history := by
    rw [reached]
    refine Eq.trans ?_ exact.taken
    exact (taken_quiet (.readMouse _) trivial _).trans (taken_polled _ _ _ _)
  have keyboard : (opened.clocked env).console.keyboard = feed.keyboard := openFed.keyboard
  have buttons : keyed.console.mouse.buttons = feed.buttons := openFed.buttons
  rw [words, reached, List.foldl_append]
  rw [List.map_take, groups, buttons, exact.taken, keyboard] at holds
  exact holds

theorem guestUntil_makes (done calls : Nat) :
    Makes Session.GuestMove (guestUntil env done calls) := by
  refine makes_bind (checkAlarm_makes env) fun _ => ?_
  refine makes_bind (guestMove_onWorld env.lowMemory) fun _ => ?_
  refine makes_bind (guestMove_record .checkedLowMemory trivial) fun _ => ?_
  refine makes_bind (steps_makes env done) fun _ => ?_
  refine makes_bind (guestMove_record .stepped trivial) fun _ => ?_
  exact makes_get fun session => runProgram_makes env _ session

theorem callsUntil_holds (fed : Fed feed before) (done calls : Nat) :
    let now := Action.after (callsUntil env done calls) before
    Holds (taken now.history) (feed.next env before).written now.console.guest.queue := by
  obtain ⟨opened, later, openRan, inputRan, laterFed, _⟩ := input_exact env fed
  have reached : Action.after (callsUntil env done calls) before =
      Action.after (guestUntil env done calls) later := by
    simp only [Action.after, callsUntil, bind_ok openRan, bind_ok inputRan]
  intro now
  rw [show now = _ from reached]
  exact ((guestUntil_makes env done calls).keeps guestMove_fed laterFed).holds

end Frames

theorem created_fed {env : Environment σ} {config : Config} {console : Console}
    (created : Console.create config env.keyboard.mode = .ok console) (world : σ) :
    Fed (Session.feedAfter env ⟨console, world, []⟩ 0) (⟨console, world, []⟩ : Session σ) := by
  obtain ⟨mouse, guest, _⟩ := create_exact created
  refine ⟨rfl, ?_, ?_, ?_⟩
  · exact congrArg Mouse.Tracker.buttons mouse
  · exact congrArg Mouse.Tracker.position mouse
  · refine ⟨?_, ?_, ?_⟩
    · exact congrArg (fun guest => guest.queue.words) guest
    · rw [guest]
      rfl
    · rw [guest]
      exact Nat.zero_le _

/-! ## Reading the stream -/

theorem next_readable (env : Environment σ) {feed : Feed} (before : Session σ)
    (readable : feed.written.Readable) : (feed.next env before).written.Readable := by
  unfold Feed.next
  split
  · exact readable
  · exact take_readable _ _ readable

theorem feedAfter_readable (env : Environment σ) (start : Session σ) (frames : Nat) :
    (start.feedAfter env frames).written.Readable := by
  induction frames with
  | zero => exact Event.Decoder.spells_nil
  | succ frames ih => exact next_readable env _ ih

theorem moment_readable {env : Environment σ} {feed : Feed} {before now : Session σ}
    {written : Written} (moment : Moment env feed before written now)
    (readable : feed.written.Readable) : written.Readable := by
  cases moment with
  | start => exact readable
  | keys delivery count takes => exact offers_readable _ _ _ readable (allPresses_typed _ _).allInput
  | buttons delivery count takes =>
      apply offers_readable _ _ _ readable
      apply allInput_append (allPresses_typed _ _).allInput
      intro group member
      exact (allPresses_buttonGroups _ _).allInput group (List.mem_of_mem_take member)
  | calls done calls => exact next_readable env before readable

theorem moment_holds {env : Environment σ} {feed : Feed} {before now : Session σ}
    {written : Written} (moment : Moment env feed before written now)
    (fed : Fed feed before) :
    taken now.history ++ now.console.guest.queue.words = written.words := by
  cases moment with
  | start => exact fed.holds.words
  | keys delivery count takes => exact (keysUntil_holds env fed takes count).words
  | buttons delivery count takes => exact (buttonsUntil_holds env fed takes count).words
  | calls done calls => exact (callsUntil_holds env fed done calls).words

/-- However the devices, the clocks and the guest behave, at every moment of a run the
words that the guest has taken and those that wait for it are together the words of the
accepted groups, and are read as their items.  A frame that starts without a semaphore
polls no keys. -/
theorem input_stream_of_run {env : Environment σ} {config : Config} {console : Console}
    (created : Console.create config env.keyboard.mode = .ok console) (world : σ)
    (frames : Nat) :
    let start : Session σ := { console, world }
    let feed := start.feedAfter env frames
    let before := start.afterFrames env frames
    (∀ written now, Moment env feed before written now →
      let words := taken now.history ++ now.console.guest.queue.words
      words = written.words ∧
        Decoder.tagged.decodeAll words = ⟨written.items, none, .tagged⟩) ∧
    (delivery? env before = none →
      (Action.after (frame env) before).history.filter Effect.isPoll =
        before.history.filter Effect.isPoll) := by
  intro start feed before
  have fed : Fed feed before := afterFrames_fed env (created_fed created world) frames
  refine ⟨?_, frame_polls env fed⟩
  intro written now moment words
  have same : words = written.words := moment_holds moment fed
  have readable := moment_readable moment (feedAfter_readable env start frames)
  refine ⟨same, ?_⟩
  rw [same]
  exact readable.decodeAll_eq

/-- A guest that registers a semaphore in its first step and takes a word in every later
one, a key and a button held down, and a pointer that has been seen once before. -/
theorem input_stream_of_second_frame :
    let env : Environment Nat := {
      ticks := fun world => UInt32.ofNat world
      unixSeconds := fun _ => 9
      keyboard := .raw fun world => ([⟨4, {}⟩], world)
      mouse := fun world => ({ buttons := 1 }, world)
      moveMouse := fun _ world => world
      refreshCursor := fun world => world
      wait := fun _ world => world
      extent := fun _ => {}
      put := fun _ _ world => some world
      signal := fun _ world => world
      displayBits := fun _ world => (none, world)
      word := fun _ _ _ => 0
      lowMemory := fun world => world
      step := fun world =>
        .call (world + 1) (.setInputSemaphore (some ⟨7⟩)) fun _ =>
          .call (world + 1) .nextWord fun _ => .done (world + 1) }
    let config : Config := { cyclesPerFrame := 100 }
    ∃ console, Console.create config env.keyboard.mode = .ok console ∧
      let start : Session Nat := { console, world := 0 }
      let before := start.afterFrames env 1
      let written := ((start.feedAfter env 1).next env before).written
      let now := Action.after (callsUntil env 0 2) before
      Moment env (start.feedAfter env 1) before written now ∧
        taken now.history = [0] ∧
        taken now.history ++ now.console.guest.queue.words = written.words ∧
        written.words = [0, 12385, 16481, 0, 12418] ∧
        Decoder.tagged.decodeAll (taken now.history ++ now.console.guest.queue.words) =
          ⟨[.delay 0, .down 97, .up 97, .delay 0, .down 130], none, .tagged⟩ := by
  intro env config
  have created : Console.create config env.keyboard.mode = .ok _ := rfl
  refine ⟨_, created, ?_⟩
  intro start before written now
  have moment : Moment env (start.feedAfter env 1) before written now := .calls 0 2
  obtain ⟨stream, read⟩ := (input_stream_of_run created 0 1).1 written now moment
  have first : taken now.history = [0] := by decide +kernel
  have all : written.words = [0, 12385, 16481, 0, 12418] := by decide +kernel
  have items : written.items = [.delay 0, .down 97, .up 97, .delay 0, .down 130] := by
    decide +kernel
  rw [items] at read
  exact ⟨moment, first, stream, all, read⟩

end GuestConsole
