import GuestConsole.Proofs.Groups
import GuestConsole.Proofs.Sessions

/-!
# The input of a frame

A frame that starts with a semaphore registered queues what the devices deliver, group
by group.  One that does not polls no keys and queues nothing.
-/

set_option autoImplicit false

namespace GuestConsole

open GuestConsole.Action GuestConsole.Console GuestConsole.Event

variable {σ : Type}

/-! ## What the devices deliver -/

def Effect.word? : Effect → Option UInt16
  | .served .nextWord word? => word?
  | _ => none

def taken (history : List Effect) : List UInt16 := history.reverse.filterMap Effect.word?

def Console.polled (env : Environment σ) (world : σ) : Typed × σ :=
  match env.keyboard with
  | .raw poll => (.presses (poll world).1, (poll world).2)
  | .cooked poll => (.sequence (poll world).1, (poll world).2)

def Console.mouseMoved (env : Environment σ) (session : Session σ) : σ :=
  let guest := session.console.guest
  let origin := Display.centeredOrigin (env.extent session.world) guest.display
  match guest.pointerRequest with
  | none => session.world
  | some position =>
      env.refreshCursor
        (env.moveMouse (origin.offset position.x.toNat position.y.toNat) session.world)

/-- What the devices deliver in a frame that begins so, if a semaphore is registered. -/
def Console.delivery? (env : Environment σ) (session : Session σ) : Option Delivery :=
  let guest := session.console.guest
  match guest.queue.semaphore with
  | none => none
  | some _ =>
      let world := mouseMoved env session
      let report := (env.mouse (polled env world).2).1
      let origin := Display.centeredOrigin (env.extent session.world) guest.display
      some {
        now := env.ticks world
        unixSeconds := env.unixSeconds world
        typed := (polled env world).1
        buttons := report.buttons
        pointer := guest.display.locate origin report.point }

def Console.Typed.effect : Typed → Effect
  | .presses keys => .polledKeys keys
  | .sequence bytes? => .polledSequence bytes?

def Console.queueTyped (now unixSeconds : UInt32) : Typed → Action σ Unit
  | .presses keys => keys.forM fun key => decode now unixSeconds (·.decodeKey key)
  | .sequence none => pure ()
  | .sequence (some bytes) => decode now unixSeconds (·.decodeSequence bytes)

def Console.trackMouse (env : Environment σ) :
    Action σ (List Mouse.ButtonEvent × Option (Word × Word)) := do
  let report ← trackPointer env
  let before ← console
  let (events, mouse) := before.mouse.takeButtons report.buttons before.keyboard.held
  let (moved, mouse) := mouse.takePosition before.guest.pointer
  onConsole fun console => { console with mouse }
  return (events, moved)

/-! ## Queueing groups -/

/-- From `session` on the action queues these groups, leaves this keyboard decoder behind
and changes nothing else. -/
def Queues (words : List UInt16) (now unixSeconds : UInt32) (groups : List Group)
    (keyboard : Keyboard.Decoder) (action : Action σ Unit) (session : Session σ) : Prop :=
  ∀ written semaphore, Holds words written session.console.guest.queue →
    session.console.guest.queue.semaphore = some semaphore →
    ∃ queue, action session = .ok () { session with
        console := { session.console with keyboard }.withQueue queue } ∧
      queue.semaphore = some semaphore ∧
      Holds words (groups.foldl (Written.offer words.length now unixSeconds) written) queue

section Queues
variable {words : List UInt16} {now unixSeconds : UInt32}

theorem queues_pure (session : Session σ) :
    Queues words now unixSeconds [] session.console.keyboard (pure ()) session :=
  fun _ _ holds registered => ⟨session.console.guest.queue, rfl, registered, holds⟩

theorem queues_bind {first second : List Group} {early late : Keyboard.Decoder}
    {action next : Action σ Unit} {session : Session σ}
    (head : Queues words now unixSeconds first early action session)
    (tail : ∀ queue, Queues words now unixSeconds second late next { session with
      console := { session.console with keyboard := early }.withQueue queue }) :
    Queues words now unixSeconds (first ++ second) late (action >>= fun _ => next) session := by
  intro written semaphore holds registered
  obtain ⟨queue, ran, queueRegistered, queueHolds⟩ := head written semaphore holds registered
  obtain ⟨last, lastRan, lastRegistered, lastHolds⟩ :=
    tail queue _ semaphore queueHolds queueRegistered
  refine ⟨last, ?_, lastRegistered, ?_⟩
  · rw [bind_ok ran, lastRan]
    rfl
  · rw [List.foldl_append]
    exact lastHolds

theorem queueEvents_queues (group : Group) (session : Session σ) :
    Queues words now unixSeconds [group] session.console.keyboard
      (queueEvents now unixSeconds group) session := by
  intro written semaphore holds registered
  obtain ⟨pushed, queue, ran, queueRegistered, queueHolds⟩ :=
    pushEvents_holds holds registered now unixSeconds group
  refine ⟨queue, ?_, queueRegistered, queueHolds⟩
  rw [queueEvents, bind_console]
  simp only [ran]
  rfl

theorem forM_queues {α : Type} (group : α → Group) (list : List α) (session : Session σ) :
    Queues words now unixSeconds (list.map group) session.console.keyboard
      (list.forM fun item => queueEvents now unixSeconds (group item)) session := by
  induction list generalizing session with
  | nil => exact queues_pure session
  | cons item rest ih =>
      exact queues_bind (queueEvents_queues (group item) session) fun queue => ih _

theorem decode_queues (read : Keyboard.Decoder → Keyboard.Decoded × Keyboard.Decoder)
    (session : Session σ) :
    Queues words now unixSeconds
      (keyGroup? (read session.console.keyboard).1).toList (read session.console.keyboard).2
      (decode now unixSeconds read) session := by
  let remembered : Session σ := { session with
    console.keyboard := (read session.console.keyboard).2 }
  have ran : decode now unixSeconds read session =
      queueDecoded now unixSeconds (read session.console.keyboard).1 remembered := rfl
  intro written semaphore holds registered
  rw [ran]
  cases (read session.console.keyboard).1 with
  | words words => exact queueEvents_queues [words] remembered written semaphore holds registered
  | ignored reason => exact queues_pure remembered written semaphore holds registered

theorem decodeKeys_queues (keys : List Keyboard.Key) (session : Session σ) :
    Queues words now unixSeconds
      (keyGroups (decodeKeys session.console.keyboard keys).1)
      (decodeKeys session.console.keyboard keys).2
      (keys.forM fun key => decode now unixSeconds (·.decodeKey key)) session := by
  induction keys generalizing session with
  | nil => exact queues_pure session
  | cons key rest ih =>
      have grouped : keyGroups (decodeKeys session.console.keyboard (key :: rest)).1 =
          (keyGroup? (session.console.keyboard.decodeKey key).1).toList
            ++ keyGroups (decodeKeys (session.console.keyboard.decodeKey key).2 rest).1 := by
        cases given : keyGroup? (session.console.keyboard.decodeKey key).1 <;>
          simp [keyGroups, decodeKeys, given]
      rw [grouped]
      exact queues_bind (decode_queues (·.decodeKey key) session) fun queue => ih _

theorem queueTyped_queues (typed : Typed) (session : Session σ) :
    Queues words now unixSeconds
      (keyGroups (typed.decode session.console.keyboard).1)
      (typed.decode session.console.keyboard).2 (queueTyped now unixSeconds typed) session := by
  cases typed with
  | presses keys => exact decodeKeys_queues keys session
  | sequence bytes? =>
      cases bytes? with
      | none => exact queues_pure session
      | some bytes =>
          have grouped : keyGroups
              (Typed.decode session.console.keyboard (.sequence (some bytes))).1 =
                (keyGroup? (session.console.keyboard.decodeSequence bytes).1).toList := by
            cases given : keyGroup? (session.console.keyboard.decodeSequence bytes).1 <;>
              simp [keyGroups, Typed.decode, given]
          rw [grouped]
          exact decode_queues (·.decodeSequence bytes) session

end Queues

theorem takeKeys_eq (env : Environment σ) (now unixSeconds : UInt32) :
    takeKeys env now unixSeconds = (do
      let typed ← ask (polled env)
      record typed.effect
      queueTyped now unixSeconds typed) := by
  funext session
  unfold takeKeys polled
  cases env.keyboard with
  | raw poll => rfl
  | cooked poll =>
      dsimp only
      let answered : Session σ := { session with world := (poll session.world).2 }
      have asked : ask poll session = .ok (poll session.world).1 answered := rfl
      have typed : ask (fun world => (Typed.sequence (poll world).1, (poll world).2)) session =
          .ok (.sequence (poll session.world).1) answered := rfl
      rw [bind_ok asked, bind_ok typed]
      cases (poll session.world).1 <;> rfl

/-! ## Input as a whole -/

theorem taken_cons (effect : Effect) (history : List Effect) :
    taken (effect :: history) = taken history ++ effect.word?.toList := by
  cases word : effect.word? <;> simp [taken, word]

theorem word?_of_quiet {effect : Effect} (quiet : effect.IsQuiet) : effect.word? = none := by
  cases effect with
  | served call answer => exact quiet.elim
  | _ => rfl

theorem taken_quiet (effect : Effect) (quiet : effect.IsQuiet) (history : List Effect) :
    taken (effect :: history) = taken history := by
  rw [taken_cons, word?_of_quiet quiet, Option.toList_none, List.append_nil]

theorem taken_polled (typed : Typed) (now unixSeconds : UInt32) (history : List Effect) :
    taken (typed.effect :: .readUnixSeconds unixSeconds :: .readTicks now :: history) =
      taken history := by
  have typedWord : typed.effect.word? = none := by
    cases typed with
    | presses keys => rfl
    | sequence bytes? => rfl
  rw [taken_cons, typedWord, Option.toList_none, List.append_nil]
  rw [taken_quiet (.readUnixSeconds _) trivial, taken_quiet (.readTicks _) trivial]

def Effect.mouseReport? : Effect → Option Mouse.Report
  | .readMouse report => some report
  | _ => none

def mouseReports (history : List Effect) : List Mouse.Report :=
  history.filterMap Effect.mouseReport?

/-- The mouse has been read once, and the pointer has gone to the pixel nearest to it. -/
structure Tracks (session later : Session σ) (report : Mouse.Report) : Prop where
  reports : mouseReports later.history = report :: mouseReports session.history
  pointer : later.console.guest.pointer =
    session.console.guest.display.locate session.console.brush.origin report.point

/-- The session is what has been made of the deliveries. -/
structure Fed (feed : Feed) (session : Session σ) : Prop where
  keyboard : session.console.keyboard = feed.keyboard
  buttons : session.console.mouse.buttons = feed.buttons
  pointer : session.console.mouse.position = feed.pointer?
  holds : Holds (taken session.history) feed.written session.console.guest.queue

/-- What the opening of a frame leaves as it was, and where it leaves the surroundings. -/
structure Opened (env : Environment σ) (before opened : Session σ) : Prop where
  world : opened.world = mouseMoved env before
  origin : opened.console.brush.origin =
    Display.centeredOrigin (env.extent before.world) before.console.guest.display
  display : opened.console.guest.display = before.console.guest.display
  queue : opened.console.guest.queue = before.console.guest.queue
  keyboard : opened.console.keyboard = before.console.keyboard
  mouse : opened.console.mouse = before.console.mouse
  taken : taken opened.history = taken before.history
  polls : opened.history.filter Effect.isPoll = before.history.filter Effect.isPoll
  reports : mouseReports opened.history = mouseReports before.history

section Input
variable (env : Environment σ)

theorem Opened.fed {feed : Feed} {before opened : Session σ} {env : Environment σ}
    (exact : Opened env before opened) (fed : Fed feed before) : Fed feed opened := by
  refine ⟨exact.keyboard.trans fed.keyboard, ?_, ?_, ?_⟩
  · rw [exact.mouse]
    exact fed.buttons
  · rw [exact.mouse]
    exact fed.pointer
  · rw [exact.taken, exact.queue]
    exact fed.holds

/-- The mouse is read against the display as it is centred at the beginning of the frame. -/
theorem Opened.tracks {before opened later : Session σ} {env : Environment σ}
    {report : Mouse.Report} (exact : Opened env before opened)
    (tracks : Tracks opened later report) :
    mouseReports later.history = report :: mouseReports before.history ∧
      later.console.guest.pointer = before.console.guest.display.locate
        (Display.centeredOrigin (env.extent before.world) before.console.guest.display)
        report.point := by
  rw [← exact.origin, ← exact.display, ← exact.reports]
  exact ⟨tracks.reports, tracks.pointer⟩

theorem opening_exact (before : Session σ) :
    ∃ opened, opening env before = .ok () opened ∧ Opened env before opened := by
  let centered : Session σ := { before with
    console := before.console.centered (env.extent before.world) }
  have first : opening env before = applyPointerRequest env centered := rfl
  rw [first, applyPointerRequest, bind_console]
  cases request : before.console.guest.pointerRequest with
  | none =>
      have same : centered.console.guest.pointerRequest = none := request
      simp only [same]
      refine ⟨centered, rfl, ?_, rfl, rfl, rfl, rfl, rfl, rfl, rfl, rfl⟩
      simp [mouseMoved, request, centered]
  | some position =>
      have same : centered.console.guest.pointerRequest = some position := request
      simp only [same]
      refine ⟨_, rfl, ?_, rfl, rfl, rfl, rfl, rfl, ?_, ?_, ?_⟩
      · simp [mouseMoved, request]
        rfl
      · rw [taken_quiet .refreshedCursor trivial,
          taken_quiet (.movedMouse _) trivial]
      · rfl
      · rfl

def Console.deliveryAt (opened : Session σ) : Delivery :=
  let report := (env.mouse (polled env opened.world).2).1
  { now := env.ticks opened.world
    unixSeconds := env.unixSeconds opened.world
    typed := (polled env opened.world).1
    buttons := report.buttons
    pointer := opened.console.guest.display.locate opened.console.brush.origin report.point }

theorem delivery?_eq {before opened : Session σ} (exact : Opened env before opened) :
    delivery? env before =
      before.console.guest.queue.semaphore.map fun _ => deliveryAt env opened := by
  cases registered : before.console.guest.queue.semaphore with
  | none => simp [delivery?, registered]
  | some semaphore =>
      simp [delivery?, registered, deliveryAt, exact.world, exact.origin, exact.display]

theorem delivery_of_takes {before opened : Session σ} (exact : Opened env before opened)
    {delivery : Delivery} (takes : delivery? env before = some delivery) :
    delivery = deliveryAt env opened ∧
      ∃ semaphore, opened.console.guest.queue.semaphore = some semaphore := by
  rw [delivery?_eq env exact] at takes
  obtain ⟨semaphore, registered, same⟩ := Option.map_eq_some_iff.mp takes
  exact ⟨same.symm, semaphore, by rw [exact.queue, registered]⟩

def Session.clocked (session : Session σ) : Session σ :=
  { session with
    history := .readUnixSeconds (env.unixSeconds session.world) ::
      .readTicks (env.ticks session.world) :: session.history }

def Session.typed (session : Session σ) : Session σ :=
  { session with
    world := (polled env session.world).2
    history := (polled env session.world).1.effect :: session.history }

def Session.keyed (session : Session σ) (queue : Input.Queue) : Session σ :=
  let decoded := (polled env session.world).1.decode session.console.keyboard
  { session.typed env with
    console := { session.console with keyboard := decoded.2 }.withQueue queue }

def Session.tracked (session : Session σ) (mouse : Mouse.Tracker) : Session σ :=
  let report := (env.mouse session.world).1
  { console := { session.console.pointAt report.point with mouse }
    world := (env.mouse session.world).2
    history := .readMouse report :: session.history }

theorem takeKeys_exact {words : List UInt16} {written : Written} {semaphore : Semaphore}
    (now unixSeconds : UInt32) (session : Session σ)
    (holds : Holds words written session.console.guest.queue)
    (registered : session.console.guest.queue.semaphore = some semaphore) :
    ∃ queue, takeKeys env now unixSeconds session = .ok () (session.keyed env queue) ∧
      queue.semaphore = some semaphore ∧
      Holds words
        ((keyGroups ((polled env session.world).1.decode session.console.keyboard).1).foldl
          (Written.offer words.length now unixSeconds) written) queue := by
  have ran : takeKeys env now unixSeconds session =
      queueTyped now unixSeconds (polled env session.world).1 (session.typed env) := by
    rw [takeKeys_eq]
    rfl
  rw [ran]
  exact queueTyped_queues _ (session.typed env) written semaphore holds registered

def Console.queueMotion (now unixSeconds : UInt32) : Option (Word × Word) → Action σ Unit
  | none => pure ()
  | some (x, y) => queueEvents now unixSeconds [[x], [y]]

theorem takeMouse_eq (now unixSeconds : UInt32) :
    takeMouse env now unixSeconds = (do
      let (events, moved) ← trackMouse env
      events.forM fun event => queueEvents now unixSeconds [[event.word]]
      queueMotion now unixSeconds moved) := by
  simp only [takeMouse, trackMouse, bind_assoc, pure_bind]
  rfl

theorem trackMouse_exact (session : Session σ) :
    let report := (env.mouse session.world).1
    let pointer := session.console.guest.display.locate session.console.brush.origin report.point
    ∃ events moved tracker,
      trackMouse env session = .ok (events, moved) (session.tracked env tracker) ∧
      events.map (fun event => [[event.word]]) =
        buttonGroups session.console.mouse.buttons report.buttons ∧
      (moved.map fun (x, y) => [[x], [y]]).toList =
        motionGroups session.console.mouse.position pointer ∧
      tracker.buttons = report.buttons ∧ tracker.position = some pointer := by
  intro report pointer
  let changed := session.console.mouse.takeButtons report.buttons session.console.keyboard.held
  obtain ⟨groups, buttons, position⟩ := takeButtons_exact session.console.mouse report.buttons
    session.console.keyboard.held
  obtain ⟨motion, tracker⟩ := takePosition_exact changed.2 pointer
  refine ⟨changed.1, (changed.2.takePosition pointer).1, (changed.2.takePosition pointer).2,
    rfl, groups, ?_, ?_, ?_⟩
  · rw [motion, position]
  · rw [tracker]
    exact buttons
  · rw [tracker]

theorem motion_queues {words : List UInt16} {now unixSeconds : UInt32}
    (moved : Option (Word × Word)) (session : Session σ) :
    Queues words now unixSeconds (moved.map fun (x, y) => [[x], [y]]).toList
      session.console.keyboard (queueMotion now unixSeconds moved) session := by
  cases moved with
  | none => exact queues_pure session
  | some pair => exact queueEvents_queues [[pair.1], [pair.2]] session

theorem takeMouse_exact {words : List UInt16} {written : Written} {semaphore : Semaphore}
    (now unixSeconds : UInt32) (session : Session σ)
    (holds : Holds words written session.console.guest.queue)
    (registered : session.console.guest.queue.semaphore = some semaphore) :
    let report := (env.mouse session.world).1
    let pointer := session.console.guest.display.locate session.console.brush.origin report.point
    ∃ later, takeMouse env now unixSeconds session = .ok () later ∧
      later.console.keyboard = session.console.keyboard ∧
      later.console.mouse.buttons = report.buttons ∧
      later.console.mouse.position = some pointer ∧
      later.history = .readMouse report :: session.history ∧
      later.console.guest.pointer = pointer ∧
      later.console.guest.queue.semaphore = some semaphore ∧
      Holds words ((buttonGroups session.console.mouse.buttons report.buttons
          ++ motionGroups session.console.mouse.position pointer).foldl
        (Written.offer words.length now unixSeconds) written) later.console.guest.queue := by
  intro report pointer
  obtain ⟨events, moved, tracker, ran, groups, motion, buttons, position⟩ :=
    trackMouse_exact env session
  have queues : Queues words now unixSeconds _ _ _ (session.tracked env tracker) :=
    queues_bind (forM_queues (fun event : Mouse.ButtonEvent => [[event.word]]) events _)
      fun queue => motion_queues moved _
  obtain ⟨queue, queued, queueRegistered, queueHolds⟩ :=
    queues written semaphore holds registered
  rw [groups, motion] at queueHolds
  rw [takeMouse_eq, bind_ok ran]
  exact ⟨_, queued, rfl, buttons, position, rfl, rfl, queueRegistered, queueHolds⟩

theorem signalTimes_exact (semaphore : Semaphore) (times : Nat) (session : Session σ) :
    ∃ later, signalTimes env semaphore times session = .ok () later ∧
      later.console = session.console ∧ taken later.history = taken session.history ∧
      mouseReports later.history = mouseReports session.history := by
  induction times generalizing session with
  | zero => exact ⟨session, rfl, rfl, rfl, rfl⟩
  | succ times ih =>
      obtain ⟨later, ran, console, words, reports⟩ := ih
        { session with
          world := env.signal semaphore session.world
          history := .signalled .input semaphore :: session.history }
      refine ⟨later, ran, console, words.trans ?_, reports⟩
      exact taken_quiet (.signalled .input semaphore) trivial session.history

theorem deliverOwed_fed {feed : Feed} {session : Session σ} (semaphore : Semaphore)
    (fed : Fed feed session) :
    ∃ later, deliverOwed env semaphore session = .ok () later ∧ Fed feed later ∧
      later.console.guest.pointer = session.console.guest.pointer ∧
      mouseReports later.history = mouseReports session.history := by
  obtain ⟨later, ran, console, words, reports⟩ := signalTimes_exact env semaphore
    session.console.guest.queue.takeOwed.1.toNat
    { session with console := session.console.withQueue session.console.guest.queue.takeOwed.2 }
  refine ⟨later, ran, ⟨?_, ?_, ?_, ?_⟩, ?_, reports⟩
  · rw [console]
    exact fed.keyboard
  · rw [console]
    exact fed.buttons
  · rw [console]
    exact fed.pointer
  · rw [console, words]
    exact ⟨fed.holds.words, fed.holds.previous, fed.holds.bounded⟩
  · rw [console]
    rfl

theorem takeInput_clocked {session : Session σ} {semaphore : Semaphore}
    (registered : session.console.guest.queue.semaphore = some semaphore) :
    takeInput env session = (do
      takeKeys env (env.ticks session.world) (env.unixSeconds session.world)
      takeMouse env (env.ticks session.world) (env.unixSeconds session.world)
      deliverOwed env semaphore) (session.clocked env) := by
  rw [takeInput_registered env registered, takingEvents]
  simp only [bind_assoc]
  rfl

/-- With a semaphore registered the delivery is taken. -/
theorem takeInput_fed {feed : Feed} {session : Session σ} {semaphore : Semaphore}
    (fed : Fed feed session)
    (registered : session.console.guest.queue.semaphore = some semaphore) :
    ∃ later, takeInput env session = .ok () later ∧
      Fed (feed.take (taken session.history).length (deliveryAt env session)) later ∧
      ∃ report, Tracks session later report := by
  let now := env.ticks session.world
  let unixSeconds := env.unixSeconds session.world
  obtain ⟨queue, keysRan, keysRegistered, keysHold⟩ :=
    takeKeys_exact env now unixSeconds (session.clocked env) fed.holds registered
  let keyed := (session.clocked env).keyed env queue
  obtain ⟨moused, mouseRan, keyboard, buttons, position, history, pointer, _, mouseHolds⟩ :=
    takeMouse_exact env now unixSeconds keyed keysHold keysRegistered
  have words : taken moused.history = taken session.history := by
    rw [history, taken_quiet (.readMouse _) trivial]
    exact taken_polled _ now unixSeconds session.history
  have mouseFed : Fed (feed.take (taken session.history).length (deliveryAt env session))
      moused := by
    refine ⟨?_, buttons, position, ?_⟩
    · rw [keyboard]
      exact congrArg (fun keyboard => ((polled env session.world).1.decode keyboard).2)
        fed.keyboard
    · rw [words]
      have groups : feed.groups (deliveryAt env session) =
          keyGroups ((polled env session.world).1.decode session.console.keyboard).1 ++
            (buttonGroups keyed.console.mouse.buttons (env.mouse keyed.world).1.buttons ++
              motionGroups keyed.console.mouse.position
                (keyed.console.guest.display.locate keyed.console.brush.origin
                  (env.mouse keyed.world).1.point)) := by
        rw [Feed.groups, List.append_assoc, ← fed.keyboard, ← fed.buttons, ← fed.pointer]
        rfl
      rw [Feed.take, groups, List.foldl_append]
      exact mouseHolds
  obtain ⟨later, owedRan, laterFed, samePointer, sameReports⟩ :=
    deliverOwed_fed env semaphore mouseFed
  have typed : mouseReports keyed.history = mouseReports session.history := by
    change mouseReports ((polled env session.world).1.effect :: _ :: _ :: _) = _
    cases (polled env session.world).1 <;> rfl
  refine ⟨later, ?_, laterFed, (env.mouse keyed.world).1, ?_, samePointer.trans pointer⟩
  · rw [takeInput_clocked env registered, bind_ok keysRan, bind_ok mouseRan, owedRan]
  · rw [sameReports, history, ← typed]
    rfl

theorem takeInput_idle {feed : Feed} {session : Session σ} (fed : Fed feed session)
    (unregistered : session.console.guest.queue.semaphore = none) :
    ∃ later, takeInput env session = .ok () later ∧ Fed feed later ∧
      later.history.filter Effect.isPoll = session.history.filter Effect.isPoll ∧
      ∃ report, Tracks session later report := by
  have ran : takeInput env session = .ok ()
      (session.tracked env session.console.mouse) := takeInput_unregistered env unregistered
  refine ⟨_, ran, ⟨fed.keyboard, fed.buttons, fed.pointer, ?_⟩, rfl,
    (env.mouse session.world).1, rfl, rfl⟩
  have words : taken (session.tracked env session.console.mouse).history =
      taken session.history := taken_quiet (.readMouse _) trivial session.history
  rw [words]
  exact fed.holds

end Input

end GuestConsole
