import GuestConsole.Proofs.InputStream
import GuestConsole.Proofs.Pointing

/-!
# Following the pointer

The guest learns where the pointer is from pairs of coordinates.  A coordinate has twelve
bits, so that only the lower twelve arrive of a pixel beyond the first 4096 of an axis.
-/

set_option autoImplicit false

namespace GuestConsole

open GuestConsole.Action GuestConsole.Console GuestConsole.Display GuestConsole.Event

variable {σ : Type}

/-! ## Coordinates -/

def Event.Item.coordinate? : Item → Option UInt16
  | .coordinate value => some value
  | _ => none

def Event.coordinates (items : List Item) : List UInt16 := items.filterMap Item.coordinate?

def Display.Position.low (position : Position) : Position :=
  ⟨position.x % 4096, position.y % 4096⟩

/-- The coordinates that tell of a motion, given the position before and the one after it. -/
def motionCoordinates (earlier? now? : Option Position) : List UInt16 :=
  match earlier?, now? with
  | some earlier, some now => if earlier = now then [] else [now.low.x, now.low.y]
  | _, _ => []

theorem motionCoordinates_self (known? : Option Position) :
    motionCoordinates known? known? = [] := by
  cases known? with
  | none => rfl
  | some position => exact if_pos rfl

/-- A reader of the stream who follows the pointer. -/
structure Follower where
  /-- an x whose y has not been read yet -/
  x? : Option UInt16 := none
  pointer? : Option Position := none
  deriving DecidableEq, Repr

def Follower.read (follower : Follower) (value : UInt16) : Follower :=
  match follower.x? with
  | none => { follower with x? := some value }
  | some x => { x? := none, pointer? := some ⟨x, value⟩ }

def follow (items : List Item) : Follower := (coordinates items).foldl Follower.read {}

def Session.stream (session : Session σ) : List UInt16 :=
  taken session.history ++ session.console.guest.queue.words

theorem low_eq {position : Position} (x : position.x < 4096) (y : position.y < 4096) :
    position.low = position := by
  have column : position.x % 4096 = position.x := by
    apply UInt16.toNat_inj.mp
    rw [UInt16.toNat_mod]
    exact Nat.mod_eq_of_lt (UInt16.lt_iff_toNat_lt.mp x)
  have row : position.y % 4096 = position.y := by
    apply UInt16.toNat_inj.mp
    rw [UInt16.toNat_mod]
    exact Nat.mod_eq_of_lt (UInt16.lt_iff_toNat_lt.mp y)
  rw [Position.low, column, row]

theorem coordinates_append (first second : List Item) :
    coordinates (first ++ second) = coordinates first ++ coordinates second :=
  List.filterMap_append

/-! ## The reader -/

/-- A reader of the items knows as much of a position as fits into coordinates, unless there
have been no coordinates yet. -/
def Follows (items : List Item) (known? : Option Position) : Prop :=
  coordinates items = [] ∨
    ∃ position, known? = some position ∧ follow items = { pointer? := some position.low }

theorem Follows.even {items : List Item} {known? : Option Position}
    (follows : Follows items known?) : (follow items).x? = none := by
  rcases follows with none | ⟨position, _, reader⟩
  · rw [follow, none]
    rfl
  · rw [reader]

theorem Follows.motion {items later : List Item} {earlier? : Option Position} {now : Position}
    (follows : Follows items earlier?)
    (added : coordinates later = coordinates items ++ motionCoordinates earlier? (some now)) :
    Follows later (some now) := by
  cases earlier? with
  | none =>
      rcases follows with none | ⟨position, known, _⟩
      · left
        rw [added, none]
        rfl
      · cases known
  | some earlier =>
      by_cases still : earlier = now
      · subst still
        rw [motionCoordinates_self, List.append_nil] at added
        rw [Follows, follow, added]
        exact follows
      · right
        refine ⟨now, rfl, ?_⟩
        have moved : motionCoordinates (some earlier) (some now) = [now.low.x, now.low.y] :=
          if_neg still
        have read : follow later = ((follow items).read now.low.x).read now.low.y := by
          rw [follow, added, moved, List.foldl_append]
          rfl
        rw [read]
        simp only [Follower.read, follows.even]

/-! ## The coordinates of a group -/

section Groups
variable (now unixSeconds : UInt32)

theorem coordinates_stamp (stamp : Timestamp) (items : List Item) :
    coordinates (stamp.item :: items) = coordinates items := by
  cases stamp <;> rfl

theorem coordinates_spelt (group : Group) (previous? : Option UInt32) :
    coordinates (spelt now unixSeconds previous? group) =
      group.flatMap fun event => coordinates (event.filterMap Word.inputItem?) := by
  induction group generalizing previous? with
  | nil => rfl
  | cons event rest ih =>
      rw [spelt, coordinates_append, coordinates_stamp, ih, List.flatMap_cons]

theorem coordinates_press {event : List Word} (press : IsPress event) :
    coordinates (event.filterMap Word.inputItem?) = [] := by
  refine List.filterMap_eq_nil_iff.mpr fun item listed => ?_
  obtain ⟨word, member, told⟩ := List.mem_filterMap.mp listed
  obtain ⟨code, rfl | rfl⟩ := press word member
  · rw [Word.down, inputItem?_tagged] at told
    cases told
    rfl
  · rw [Word.up, inputItem?_tagged] at told
    cases told
    rfl

theorem coordinates_motion (position : Position) (previous? : Option UInt32) :
    coordinates (spelt now unixSeconds previous?
        [[Word.coordinate position.x], [Word.coordinate position.y]]) =
      [position.low.x, position.low.y] := by
  rw [coordinates_spelt, Word.coordinate, Word.coordinate]
  simp only [List.flatMap_cons, List.flatMap_nil, List.filterMap_cons, List.filterMap_nil,
    inputItem?_tagged]
  rfl

theorem coordinates_presses {groups : List Group} (presses : AllPresses groups) (taken : Nat)
    (written : Written) :
    coordinates (groups.foldl (Written.offer taken now unixSeconds) written).items =
      coordinates written.items := by
  induction groups generalizing written with
  | nil => rfl
  | cons group rest ih =>
      rw [List.foldl_cons, ih fun other member => presses other (List.mem_cons_of_mem group member)]
      have none : coordinates (spelt now unixSeconds written.previous? group) = [] := by
        rw [coordinates_spelt]
        refine List.flatMap_eq_nil_iff.mpr fun event listed => ?_
        exact coordinates_press (presses group List.mem_cons_self event listed)
      unfold Written.offer
      dsimp only
      split
      · rw [coordinates_append, none, List.append_nil]
      · rfl

def Console.Written.Accepts (taken : Nat) (now unixSeconds : UInt32) (written : Written)
    (groups : List Group) : Prop :=
  ∀ group ∈ groups, (written.offer taken now unixSeconds group).items =
    written.items ++ spelt now unixSeconds written.previous? group

theorem coordinates_motions {taken : Nat} {written : Written} {earlier? : Option Position}
    {position : Position}
    (accepts : written.Accepts taken now unixSeconds (motionGroups earlier? position)) :
    coordinates ((motionGroups earlier? position).foldl (Written.offer taken now unixSeconds)
        written).items =
      coordinates written.items ++ motionCoordinates earlier? (some position) := by
  cases earlier? with
  | none => exact (List.append_nil _).symm
  | some earlier =>
      by_cases still : earlier = position
      · simp [motionGroups, motionCoordinates, still]
      · have moved : motionGroups (some earlier) position =
            [[[Word.coordinate position.x], [Word.coordinate position.y]]] := if_neg still
        rw [moved] at accepts
        rw [moved, List.foldl_cons, List.foldl_nil, accepts _ List.mem_cons_self,
          coordinates_append, coordinates_motion, motionCoordinates, if_neg still]

theorem offers_add {groups : List Group} (input : AllInput groups) (taken : Nat)
    (written : Written) :
    let later := groups.foldl (Written.offer taken now unixSeconds) written
    ∃ words items, later.words = written.words ++ words ∧
      later.items = written.items ++ items ∧ Event.Decoder.Spells words items := by
  induction groups generalizing written with
  | nil => exact ⟨[], [], (List.append_nil _).symm, (List.append_nil _).symm, Decoder.spells_nil⟩
  | cons group rest ih =>
      obtain ⟨words, items, later, laterItems, spells⟩ :=
        ih (fun other member => input other (List.mem_cons_of_mem group member))
          (written.offer taken now unixSeconds group)
      have first := spells_spell now unixSeconds group (input group List.mem_cons_self)
        written.previous?
      dsimp only
      rw [List.foldl_cons, later, laterItems]
      unfold Written.offer
      dsimp only
      split
      · exact ⟨_, _, List.append_assoc _ _ _, List.append_assoc _ _ _, first.append spells⟩
      · exact ⟨words, items, rfl, rfl, spells⟩

end Groups

/-! ## Nothing is dropped -/

section Dropped
variable {session later : Session σ}

theorem inputMove_undropped {fact : Prop} (session later : Session σ)
    (move : Session.InputMove session later)
    (known : session.console.guest.queue.dropped = 0 → fact) :
    later.console.guest.queue.dropped = 0 → fact := by
  cases move with
  | push now unixSeconds events pushed queue accepted =>
      intro undropped
      have ran : (Input.Queue.Push.group now unixSeconds events).result
          session.console.guest.queue = .ok (pushed, queue) := accepted
      exact known (Input.Queue.Push.result_undropped ran undropped).1
  | _ => exact known

theorem serve_dropped {guest next : Guest.State} {clock : Guest.Clock} {call : Guest.Call}
    {answer : call.Answer} (served : guest.serve clock call = .ok (answer, next)) :
    next.queue.dropped = guest.queue.dropped := by
  cases call with
  | nextWord =>
      obtain ⟨_, rfl⟩ := Prod.mk.inj (Except.ok.inj served)
      dsimp only
      split <;> rfl
  | setDisplaySize | displayChanged | tryDisplayChanged =>
      obtain ⟨_, _, _, rfl⟩ := serve_bitmap served rfl
      rfl
  | _ =>
      obtain ⟨_, rfl⟩ := Prod.mk.inj (Except.ok.inj served)
      rfl

theorem guestMove_undropped {fact : Prop} (session later : Session σ)
    (move : Session.GuestMove session later)
    (known : session.console.guest.queue.dropped = 0 → fact) :
    later.console.guest.queue.dropped = 0 → fact := by
  cases move with
  | serve clock call answer guest served =>
      intro undropped
      exact known ((serve_dropped served).symm.trans undropped)
  | _ => exact known

theorem renderMove_undropped {fact : Prop} (session later : Session σ)
    (move : Session.RenderMove session later)
    (known : session.console.guest.queue.dropped = 0 → fact) :
    later.console.guest.queue.dropped = 0 → fact := by
  cases move with
  | glyph =>
      unfold Console.takeGlyph
      split <;> exact known
  | _ => exact known

theorem frame_undropped (env : Environment σ) {before : Session σ}
    (undropped : (Action.after (frame env) before).console.guest.queue.dropped = 0) :
    before.console.guest.queue.dropped = 0 :=
  frame_keeps env inputMove_undropped guestMove_undropped renderMove_undropped
    (fun known => known) undropped

end Dropped

/-! ## The motion of a frame -/

theorem queueMotion_accepted {words : List UInt16} {written : Written} {session : Session σ}
    {semaphore : Semaphore} (now unixSeconds : UInt32) (moved : Option (Word × Word))
    (holds : Holds words written session.console.guest.queue)
    (registered : session.console.guest.queue.semaphore = some semaphore) :
    ∃ queue, queueMotion now unixSeconds moved session =
        .ok () { session with console := session.console.withQueue queue } ∧
      (queue.dropped = 0 → written.Accepts words.length now unixSeconds
        (moved.map fun (x, y) => [[x], [y]]).toList) := by
  cases moved with
  | none => exact ⟨session.console.guest.queue, rfl, nofun⟩
  | some pair =>
      let group : Group := [[pair.1], [pair.2]]
      obtain ⟨pushed, queue, ran, _, _⟩ := pushEvents_holds holds registered now unixSeconds group
      refine ⟨queue, ?_, fun undropped other member => ?_⟩
      · change queueEvents now unixSeconds group session = _
        rw [queueEvents, bind_console]
        simp only [ran]
        rfl
      · obtain rfl : other = group := List.mem_singleton.mp member
        have result : (Input.Queue.Push.group now unixSeconds group).result
            session.console.guest.queue = .ok (pushed, queue) := ran
        have room : (encodeGroup now unixSeconds session.console.guest.queue.stamper
            group).length ≤ 256 - session.console.guest.queue.length :=
          (Input.Queue.Push.result_undropped result undropped).2
        have bounded : session.console.guest.queue.length ≤ 256 := holds.bounded
        rw [holds.offer_eq, if_pos (by omega)]

section Frames
variable (env : Environment σ) {feed : Feed} {before : Session σ}

theorem takeMouse_motion {words : List UInt16} {written : Written} {semaphore : Semaphore}
    (now unixSeconds : UInt32) (session : Session σ)
    (holds : Holds words written session.console.guest.queue)
    (registered : session.console.guest.queue.semaphore = some semaphore) :
    let report := (env.mouse session.world).1
    let pointer := session.console.guest.display.locate session.console.brush.origin report.point
    let pressed := (buttonGroups session.console.mouse.buttons report.buttons).foldl
      (Written.offer words.length now unixSeconds) written
    ∃ later, takeMouse env now unixSeconds session = .ok () later ∧
      later.console.guest.pointer = pointer ∧
      (later.console.guest.queue.dropped = 0 → pressed.Accepts words.length now unixSeconds
        (motionGroups session.console.mouse.position pointer)) := by
  intro report pointer pressed
  obtain ⟨events, moved, tracker, trackRan, groups, motion, _, _⟩ := trackMouse_exact env session
  have buttons : Queues words now unixSeconds _ _ _ (session.tracked env tracker) :=
    forM_queues (fun event : Mouse.ButtonEvent => [[event.word]]) events _
  obtain ⟨middle, pressRan, middleRegistered, middleHolds⟩ :=
    buttons written semaphore holds registered
  rw [groups] at middleHolds
  let queued (queue : Input.Queue) : Session σ := { session.tracked env tracker with
    console := (session.tracked env tracker).console.withQueue queue }
  have held : Holds words pressed (queued middle).console.guest.queue := middleHolds
  obtain ⟨last, motionRan, accepted⟩ :=
    queueMotion_accepted now unixSeconds moved held middleRegistered
  rw [motion] at accepted
  refine ⟨queued last, ?_, rfl, accepted⟩
  rw [takeMouse_eq, bind_ok trackRan]
  exact (bind_ok pressRan).trans motionRan

theorem takingInput_motion (fed : Fed feed before) {delivery : Delivery}
    (takes : delivery? env before = some delivery) :
    let count := (taken before.history).length
    let pressed := (keyGroups (delivery.typed.decode feed.keyboard).1
      ++ buttonGroups feed.buttons delivery.buttons).foldl
        (Written.offer count delivery.now delivery.unixSeconds) feed.written
    ∃ later, takingInput env before = .ok () later ∧
      later.console.guest.pointer = delivery.pointer ∧
      (later.console.guest.queue.dropped = 0 → pressed.Accepts count delivery.now
        delivery.unixSeconds (motionGroups feed.pointer? delivery.pointer)) := by
  obtain ⟨opened, openRan, exact⟩ := opening_exact env before
  obtain ⟨rfl, semaphore, registered⟩ := delivery_of_takes env exact takes
  have openFed := exact.fed fed
  let now := env.ticks opened.world
  let unixSeconds := env.unixSeconds opened.world
  obtain ⟨queue, keysRan, keysRegistered, keysHold⟩ :=
    takeKeys_exact env now unixSeconds (opened.clocked env) openFed.holds registered
  let keyed := (opened.clocked env).keyed env queue
  obtain ⟨moused, mouseRan, point, accepted⟩ :=
    takeMouse_motion env now unixSeconds keyed keysHold keysRegistered
  obtain ⟨later, owedRan, console, _⟩ := signalTimes_exact env semaphore
    moused.console.guest.queue.takeOwed.1.toNat { moused with
      console := moused.console.withQueue moused.console.guest.queue.takeOwed.2 }
  have inputRan : takeInput env opened = .ok () later := by
    rw [takeInput_clocked env registered, bind_ok keysRan, bind_ok mouseRan]
    exact owedRan
  refine ⟨later, (bind_ok openRan).trans inputRan, ?_, fun undropped => ?_⟩
  · rw [console]
    exact point
  · rw [console] at undropped
    have added := accepted undropped
    have keyboard : (opened.clocked env).console.keyboard = feed.keyboard := openFed.keyboard
    have buttons : keyed.console.mouse.buttons = feed.buttons := openFed.buttons
    have pointer : keyed.console.mouse.position = feed.pointer? := openFed.pointer
    rw [← List.foldl_append, exact.taken, keyboard, buttons, pointer] at added
    exact added

theorem input_undropped (fed : Fed feed before)
    (undropped : (Action.after (frame env) before).console.guest.queue.dropped = 0) :
    (Action.after (takingInput env) before).console.guest.queue.dropped = 0 := by
  obtain ⟨opened, ready, openRan, inputRan, _⟩ := input_exact env fed
  rw [after_ok (show takingInput env before = _ from (bind_ok openRan).trans inputRan)]
  exact after_input_keeps env guestMove_undropped renderMove_undropped openRan inputRan id undropped

theorem next_adds (feed : Feed) (before : Session σ) :
    let next := feed.next env before
    ∃ words items, next.written.words = feed.written.words ++ words ∧
      next.written.items = feed.written.items ++ items ∧ Decoder.Spells words items := by
  dsimp only
  rw [Feed.next]
  split
  · exact ⟨[], [], (List.append_nil _).symm, (List.append_nil _).symm, Decoder.spells_nil⟩
  · exact offers_add _ _ (allInput_groups feed _) _ _

theorem next_coordinates (fed : Fed feed before)
    (undropped : (Action.after (takingInput env) before).console.guest.queue.dropped = 0) :
    let next := feed.next env before
    coordinates next.written.items =
      coordinates feed.written.items ++ motionCoordinates feed.pointer? next.pointer? := by
  intro next
  cases takes : delivery? env before with
  | none =>
      have same : next = feed := by
        simp only [next, Feed.next, takes]
      rw [same, motionCoordinates_self, List.append_nil]
  | some delivery =>
      obtain ⟨ready, ran, _, accepted⟩ := takingInput_motion env fed takes
      rw [after_ok ran] at undropped
      have same : next = feed.take (taken before.history).length delivery := by
        simp only [next, Feed.next, takes]
      have presses : AllPresses (keyGroups (delivery.typed.decode feed.keyboard).1
          ++ buttonGroups feed.buttons delivery.buttons) := by
        intro group member
        rcases List.mem_append.mp member with key | button
        · exact allPresses_typed _ _ group key
        · exact allPresses_buttonGroups _ _ group button
      rw [same, Feed.take, Feed.groups, List.foldl_append,
        coordinates_motions _ _ (accepted undropped), coordinates_presses _ _ presses]

/-! ## Runs -/

theorem next_follows (fed : Fed feed before)
    (undropped : (Action.after (takingInput env) before).console.guest.queue.dropped = 0)
    (follows : Follows feed.written.items feed.pointer?) :
    Follows (feed.next env before).written.items (feed.next env before).pointer? := by
  have added := next_coordinates env fed undropped
  cases takes : delivery? env before with
  | none =>
      have same : feed.next env before = feed := by
        simp only [Feed.next, takes]
      rw [same]
      exact follows
  | some delivery =>
      have pointer : (feed.next env before).pointer? = some delivery.pointer := by
        simp only [Feed.next, takes, Feed.take]
      dsimp only at added
      rw [pointer] at added ⊢
      exact follows.motion added

theorem afterFrames_follows {start : Session σ} (fed : Fed (start.feedAfter env 0) start)
    (frames : Nat)
    (undropped : (start.afterFrames env frames).console.guest.queue.dropped = 0) :
    Follows (start.feedAfter env frames).written.items
      (start.feedAfter env frames).pointer? := by
  induction frames with
  | zero => exact .inl rfl
  | succ frames ih =>
      have laterFed := afterFrames_fed env fed frames
      exact next_follows env laterFed (input_undropped env laterFed undropped)
        (ih (frame_undropped env undropped))

/-- The pointer as the latest frame that took input has recorded it. -/
def Session.recorded? (start : Session σ) : Nat → Option Position
  | 0 => none
  | frames + 1 =>
      let before := start.afterFrames env frames
      match before.console.guest.queue.semaphore with
      | none => start.recorded? frames
      | some _ => some (Action.after (takingInput env) before).console.guest.pointer

theorem recorded?_eq {start : Session σ} (fed : Fed (start.feedAfter env 0) start)
    (frames : Nat) : start.recorded? env frames = (start.feedAfter env frames).pointer? := by
  induction frames with
  | zero => rfl
  | succ frames ih =>
      let before := start.afterFrames env frames
      rw [Session.recorded?, Session.feedAfter, Feed.next]
      cases registered : before.console.guest.queue.semaphore with
      | none =>
          have idle : delivery? env before = none := by
            simp only [delivery?, registered]
          rw [idle]
          exact ih
      | some semaphore =>
          obtain ⟨delivery, takes⟩ : ∃ delivery, delivery? env before = some delivery := by
            simp only [delivery?, registered]
            exact ⟨_, rfl⟩
          obtain ⟨ready, ran, pointer, _⟩ :=
            takingInput_motion env (afterFrames_fed env fed frames) takes
          rw [takes, after_ok ran]
          exact congrArg some pointer

end Frames

theorem clampAxis_lt_of_le {extent : UInt16} (short : extent ≤ 4096) (value : Int32) :
    Size.clampAxis value extent < 4096 := by
  have bound := UInt16.le_iff_toNat_le.mp short
  rw [UInt16.lt_iff_toNat_lt, toNat_clampAxis]
  simp only [UInt16.reduceToNat] at bound ⊢
  omega

theorem locate_low {display : Size} (width : display.width ≤ 4096)
    (height : display.height ≤ 4096) (origin point : Point) :
    (display.locate origin point).low = display.locate origin point :=
  low_eq (clampAxis_lt_of_le width _) (clampAxis_lt_of_le height _)

/-- In a run in which nothing is dropped every frame adds the coordinates of its motion to
the stream and no others.  They are the lower twelve bits of the pointer that the frame has
recorded, so that a reader who has come to a pair of coordinates knows this much of the
pointer of the latest frame that took input, and all of it on a display of at most 4096
pixels on each axis. -/
theorem coordinates_follow_pointer {env : Environment σ} {config : Config} {console : Console}
    (created : Console.create config env.keyboard.mode = .ok console) (world : σ)
    (frames : Nat)
    (undropped : (Session.afterFrames env ⟨console, world, []⟩
      (frames + 1)).console.guest.queue.dropped = 0) :
    let start : Session σ := { console, world }
    let before := start.afterFrames env frames
    let ready := Action.after (takingInput env) before
    let display := before.console.guest.display
    let earlier? := start.recorded? env frames
    let now? := start.recorded? env (frames + 1)
    (start.afterFrames env (frames + 1)).stream = ready.stream ∧
      (∃ added items, ready.stream = before.stream ++ added ∧
        Decoder.tagged.decodeAll added = ⟨items, none, .tagged⟩ ∧
        coordinates items = motionCoordinates earlier? now?) ∧
      (∃ items, Decoder.tagged.decodeAll ready.stream = ⟨items, none, .tagged⟩ ∧
        Follows items now?) ∧
      (∀ pointer, now? = some pointer → pointer.x < 4096 → pointer.y < 4096 →
        pointer.low = pointer) ∧
      (display.width ≤ 4096 → display.height ≤ 4096 →
        ready.console.guest.pointer.low = ready.console.guest.pointer) := by
  intro start before ready display earlier? now?
  let feed := start.feedAfter env frames
  let next := feed.next env before
  have startFed : Fed (start.feedAfter env 0) start := created_fed created world
  have fed : Fed feed before := afterFrames_fed env startFed frames
  have earlier : earlier? = feed.pointer? := recorded?_eq env startFed frames
  have now : now? = next.pointer? := recorded?_eq env startFed (frames + 1)
  obtain ⟨opened, pointed, openRan, inputRan, pointedFed, _, report, _, pointer⟩ :=
    input_exact env fed
  have reached : ready = pointed := after_ok ((bind_ok openRan).trans inputRan)
  have written : ready.stream = next.written.words := by
    rw [reached]
    exact pointedFed.holds.words
  have readyUndropped := input_undropped env fed undropped
  rw [earlier, now]
  refine ⟨(frame_fed env fed).holds.words.trans written.symm, ?_, ?_, fun _ _ => low_eq, ?_⟩
  · obtain ⟨words, items, more, moreItems, spells⟩ := next_adds env feed before
    refine ⟨words, items, ?_, spells.decodeAll_eq, ?_⟩
    · rw [written, more, ← fed.holds.words]
      rfl
    · have added := next_coordinates env fed readyUndropped
      dsimp only at added
      rw [moreItems, coordinates_append] at added
      exact List.append_cancel_left added
  · rw [written]
    exact ⟨_, (feedAfter_readable env start (frames + 1)).decodeAll_eq,
      afterFrames_follows env startFed (frames + 1) undropped⟩
  · intro width height
    rw [reached, pointer]
    exact locate_low width height _ _

/-- A guest that asks for input and a display of some width at first and gives up input in its
step 299, and a mouse on the screen's top row. -/
def showingMouse (width : UInt16) (place : Nat → Int32) : Environment Nat where
  ticks _ := 0
  unixSeconds _ := 0
  keyboard := .raw fun world => ([], world)
  mouse world := ({ point := ⟨place world, 0⟩ }, world)
  moveMouse _ world := world
  refreshCursor world := world
  wait _ world := world
  extent _ := {}
  put _ _ world := some world
  signal _ world := world
  displayBits _ world := (none, world)
  word _ _ _ := 0
  lowMemory world := world
  step world :=
    if world = 0 then
      .call 0 (.setInputSemaphore (some ⟨7⟩)) fun _ =>
        .call 0 (.setDisplaySize ⟨width, 1⟩) fun _ => .done 1
    else if world = 299 then .call 299 (.setInputSemaphore none) fun _ => .done 300
    else .done (world + 1)

/-- The mouse goes to the last of 4096 columns in the third frame. -/
theorem coordinates_follow_pointer_to_last_column :
    let env := showingMouse 4096 fun world => if world < 200 then 0 else 9999
    let config : Config := { cyclesPerFrame := 100 }
    ∃ console, Console.create config env.keyboard.mode = .ok console ∧
      let start : Session Nat := { console, world := 0 }
      let before := start.afterFrames env 2
      let ready := Action.after (takingInput env) before
      (start.afterFrames env 3).console.guest.queue.dropped = 0 ∧
      before.console.guest.display = ⟨4096, 1⟩ ∧
      ready.stream = [0, 8191, 0, 4096] ∧
      ∃ items, Decoder.tagged.decodeAll ready.stream = ⟨items, none, .tagged⟩ ∧
        follow items = { pointer? := some ⟨4095, 0⟩ } := by
  intro env config
  have created : Console.create config env.keyboard.mode = .ok _ := rfl
  refine ⟨_, created, ?_⟩
  intro start before ready
  have facts : (start.afterFrames env 3).console.guest.queue.dropped = 0 ∧
      before.console.guest.display = ⟨4096, 1⟩ ∧ ready.stream = [0, 8191, 0, 4096] ∧
      start.recorded? env 3 = some ⟨4095, 0⟩ := by decide +kernel
  obtain ⟨undropped, display, stream, recorded⟩ := facts
  have agrees := coordinates_follow_pointer created 0 2
  simp only [Nat.reduceAdd, show (⟨_, 0, []⟩ : Session Nat) = start from rfl] at agrees
  obtain ⟨_, _, ⟨items, read, follows⟩, low, _⟩ := agrees undropped
  refine ⟨undropped, display, stream, items, read, ?_⟩
  change Decoder.tagged.decodeAll ready.stream = _ at read
  rw [stream] at read
  have coordinatesRead : coordinates (Decoder.tagged.decodeAll [0, 8191, 0, 4096]).items =
      [4095, 0] := by decide
  rw [read] at coordinatesRead
  rcases follows with none | ⟨pointer, known, reader⟩
  · rw [coordinatesRead] at none
    cases none
  · rw [recorded] at known
    obtain rfl := Option.some.inj known
    rw [reader, low _ recorded (by decide) (by decide)]

/-- The column 4096 is told as the column 0, and a reader is told nothing of a motion while no
input is asked for. -/
theorem coordinates_lose_upper_bits :
    let env := showingMouse 4097 fun world =>
      if world < 200 then 0 else if world < 300 then 4096 else 5
    let config : Config := { cyclesPerFrame := 100 }
    ∃ console, Console.create config env.keyboard.mode = .ok console ∧
      let start : Session Nat := { console, world := 0 }
      let ready (frames : Nat) := Action.after (takingInput env) (start.afterFrames env frames)
      let items (frames : Nat) := (Decoder.tagged.decodeAll (ready frames).stream).items
      (start.afterFrames env 4).console.guest.queue.dropped = 0 ∧
      (start.afterFrames env 2).stream = [] ∧
      (ready 2).console.guest.pointer = ⟨4096, 0⟩ ∧
      coordinates (items 2) = [0, 0] ∧
      (ready 3).console.guest.pointer = ⟨5, 0⟩ ∧
      (follow (items 3)).pointer? = some ⟨0, 0⟩ := by
  intro env config
  have created : Console.create config env.keyboard.mode = .ok _ := rfl
  refine ⟨_, created, ?_⟩
  decide +kernel

end GuestConsole
