import GuestConsole.Proofs.Calls
import GuestConsole.Proofs.DisplayBounds
import GuestConsole.Proofs.MouseMoves

/-!
# The round trip of the pointer

The guest puts the pointer on a pixel, the next frame moves the mouse to where that pixel
shows on the screen, and the mouse, if it stays there, is read as that pixel again.  The
display may have changed its size in between.
-/

set_option autoImplicit false

namespace GuestConsole

open GuestConsole.Action GuestConsole.Console GuestConsole.Display

variable {σ : Type}

/-! ## From pixels to the screen and back -/

namespace Display

theorem offset_toInt (screen : Extent) (size : Size) (pixel : Position) :
    let origin := centeredOrigin screen size
    let point := origin.offset pixel.x.toNat pixel.y.toNat
    point.x.toInt = origin.x.toInt + pixel.x.toNat ∧
      point.y.toInt = origin.y.toInt + pixel.y.toNat :=
  ⟨(centeredAxis_centers screen.width size.width).toInt_add pixel.x.toNat_lt,
    (centeredAxis_centers screen.height size.height).toInt_add pixel.y.toNat_lt⟩

theorem ofIntClamp_word (word : UInt16) :
    Int32.ofIntClamp (word.toNat : Int) = Int32.ofNat word.toNat := by
  have small := word.toNat_lt
  apply Int32.toInt_inj.mp
  rw [toInt_ofIntClamp, Int32.toInt_ofNat_of_lt (by omega)]
  omega

theorem locate_offset (screen : Extent) (size : Size) (pixel : Position) :
    let origin := centeredOrigin screen size
    size.locate origin (origin.offset pixel.x.toNat pixel.y.toNat) = size.clampPosition pixel := by
  intro origin
  have column : (origin.offset pixel.x.toNat pixel.y.toNat).x.toInt - origin.x.toInt =
      pixel.x.toNat := by
    rw [(offset_toInt screen size pixel).1]
    exact add_sub_cancel_left _ _
  have row : (origin.offset pixel.x.toNat pixel.y.toNat).y.toInt - origin.y.toInt =
      pixel.y.toNat := by
    rw [(offset_toInt screen size pixel).2]
    exact add_sub_cancel_left _ _
  rw [Size.locate, column, row, ofIntClamp_word, ofIntClamp_word, Size.clampPosition]

theorem clampAxis_eq {value : Int32} {extent pixel : UInt16} (inside : pixel < extent)
    (same : value.toInt = pixel.toNat) : Size.clampAxis value extent = pixel := by
  have bound := UInt16.lt_iff_toNat_lt.mp inside
  apply UInt16.toNat_inj.mp
  rw [toNat_clampAxis, same]
  omega

theorem Size.Contains.clamp {size : Size} {position : Position} {x y : Int32}
    (contains : size.Contains position) (column : x.toInt = position.x.toNat)
    (row : y.toInt = position.y.toNat) : size.clamp x y = position := by
  simp only [Size.clamp, clampAxis_eq contains.1 column, clampAxis_eq contains.2 row]

theorem Size.Contains.clampPosition {size : Size} {position : Position}
    (contains : size.Contains position) : size.clampPosition position = position := by
  have columns := position.x.toNat_lt
  have rows := position.y.toNat_lt
  exact contains.clamp (Int32.toInt_ofNat_of_lt (by omega)) (Int32.toInt_ofNat_of_lt (by omega))

end Display

/-! ## Histories -/

def Effect.asksPointer : Effect → Bool
  | .served (.setPointer _ _) _ => true
  | _ => false

def Effect.isMouse : Effect → Bool
  | .movedMouse _ => true
  | .readMouse _ => true
  | _ => false

section Histories
variable {effects history : List Effect}

theorem mouseMoves_cons (effect : Effect) (history : List Effect) :
    mouseMoves (effect :: history) = effect.mouseMove?.toList ++ mouseMoves history := by
  cases move : effect.mouseMove? <;> simp [mouseMoves, move]

theorem mouseMoves_append (effects history : List Effect) :
    mouseMoves (effects ++ history) = mouseMoves effects ++ mouseMoves history :=
  List.filterMap_append

theorem mouseReports_append (effects history : List Effect) :
    mouseReports (effects ++ history) = mouseReports effects ++ mouseReports history :=
  List.filterMap_append

theorem openCall?_other {effect : Effect} (unasked : effect.asksPointer = false)
    (unmoved : effect.mouseMove? = none) (history : List Effect) :
    openCall? (effect :: history) = openCall? history := by
  cases effect with
  | movedMouse point => cases unmoved
  | served call answer =>
      cases call with
      | setPointer x y => cases unasked
      | _ => rfl
  | _ => rfl

/-- Until the guest asks again, a request is open just as long as the mouse has not been
moved. -/
theorem openCall?_append (unasked : ∀ effect ∈ effects, effect.asksPointer = false) :
    openCall? (effects ++ history) =
      if mouseMoves effects = [] then openCall? history else none := by
  induction effects with
  | nil => rfl
  | cons effect rest ih =>
      have others := ih fun other member => unasked other (List.mem_cons_of_mem _ member)
      rw [List.cons_append, mouseMoves_cons]
      cases moved : effect.mouseMove? with
      | none =>
          rw [openCall?_other (unasked effect List.mem_cons_self) moved, others]
          rfl
      | some point =>
          cases effect with
          | movedMouse other => rfl
          | _ => cases moved

theorem filter_isMouse_of_still (still : mouseMoves effects = []) :
    effects.filter Effect.isMouse = (mouseReports effects).map Effect.readMouse := by
  induction effects with
  | nil => rfl
  | cons effect rest ih =>
      rw [mouseMoves_cons] at still
      obtain ⟨unmoved, restStill⟩ := List.append_eq_nil_iff.mp still
      cases effect with
      | movedMouse point => cases unmoved
      | readMouse report =>
          rw [List.filter_cons_of_pos rfl, ih restStill]
          rfl
      | _ =>
          rw [List.filter_cons_of_neg Bool.false_ne_true, ih restStill]
          rfl

end Histories

/-! ## Frames -/

section Frames
variable (env : Environment σ) {moves : List Point} {before calling called : Session σ}
  {x y : Int32}

theorem opening_moves (asked : Asked moves before) {call : PointerCall}
    (waiting : openCall? before.history = some call) :
    let origin := centeredOrigin (env.extent before.world) before.console.guest.display
    (Action.after (opening env) before).history =
      .refreshedCursor :: .movedMouse (call.place origin) :: before.history := by
  intro origin
  let centered : Session σ := { before with
    console := before.console.centered (env.extent before.world) }
  have first : opening env before = applyPointerRequest env centered := rfl
  have request : centered.console.guest.pointerRequest = some call.pixel := by
    rw [show centered.console.guest.pointerRequest = _ from asked.request, waiting]
    rfl
  rw [Action.after, first, applyPointerRequest, bind_console]
  simp only [request]
  rfl

theorem takingInput_asked (asked : Asked moves before) :
    Asked (movesOf env before ++ moves) (Action.after (takingInput env) before) :=
  keeps_bind (opening_asked env asked) fun _ _ opened =>
    (takeInput_devices env).keeps deviceMove_asked opened

theorem Console.Reachable.asked {env : Environment σ} {session : Session σ}
    (reachable : Reachable env session) : ∃ moves, Asked moves session := by
  let invariant : Session σ → Prop := fun session => ∃ moves, Asked moves session
  suffices kept : invariant session from kept
  refine reachable.keeps (fun world created => ⟨[], created_asked created world⟩) ?_ ?_ ?_
  · rintro before ⟨moves, asked⟩
    exact ⟨_, takingInput_asked env asked⟩
  · rintro before later move ⟨moves, asked⟩
    exact ⟨moves, guestMove_asked before later move asked⟩
  · rintro before later move ⟨moves, asked⟩
    exact ⟨moves, renderMove_asked before later move asked⟩

theorem Console.Calls.asked (calls : Calls env before (.setPointer x y) calling)
    (bounded : before.console.guest.queue.length ≤ Input.Queue.capacity)
    (asked : Asked moves before) : Asked (movesOf env before ++ moves) calling := by
  have begun := (startingGuest_makes env).keeps guestMove_asked (takingInput_asked env asked)
  exact moves_keep guestMove_asked (calls.moves env bounded) begun

def Session.pointed (calling : Session σ) (x y : Int32) : Session σ :=
  { calling with
    console.guest := calling.console.guest.movePointer x y
    history := .served (.setPointer x y) () :: calling.history }

theorem serve_setPointer (calling : Session σ) (x y : Int32) :
    serve env (.setPointer x y) calling = .ok () (calling.pointed x y) := by
  have served : calling.console.guest.serve (env.clock calling.world) (.setPointer x y) =
      .ok ((), calling.console.guest.movePointer x y) := rfl
  exact serve_ok env served

theorem still_of_grown {session later : Session σ} {effects : List Effect}
    (grown : later.history = effects ++ session.history) (asked : Asked moves session)
    (laterAsked : Asked moves later) : mouseMoves effects = [] := by
  have total : mouseMoves effects ++ mouseMoves session.history = mouseMoves session.history := by
    rw [← mouseMoves_append, ← grown, laterAsked.moves, asked.moves]
  exact List.append_left_eq_self.mp total

theorem waiting_after_call (calls : Calls env before (.setPointer x y) calling)
    (bounded : before.console.guest.queue.length ≤ Input.Queue.capacity)
    (asked : Asked moves before)
    (last : ∀ effect ∈ (calling.pointed x y).since (Action.after (frame env) before),
      effect.asksPointer = false) :
    Asked (movesOf env before ++ moves) (Action.after (frame env) before) ∧
      openCall? (Action.after (frame env) before).history =
        some ⟨x, y, calling.console.guest.display⟩ := by
  let called := calling.pointed x y
  have callingAsked := calls.asked env bounded asked
  have served : serve env (.setPointer x y) calling = .ok () called := serve_setPointer env calling x y
  have calledAsked : Asked (movesOf env before ++ moves) called :=
    after_ok served ▸ (serve_makes env _).keeps guestMove_asked callingAsked
  have laterAsked := frame_asked env asked
  obtain ⟨ready, guestMoves, renderMoves⟩ := calls.ends env bounded served
  obtain ⟨effects, grown⟩ : called.Grown (Action.after (frame env) before) :=
    moves_keep renderMove_grown renderMoves (moves_keep guestMove_grown guestMoves ⟨[], rfl⟩)
  have still := still_of_grown grown calledAsked laterAsked
  refine ⟨laterAsked, ?_⟩
  rw [since_of_grown grown] at last
  rw [grown, openCall?_append last, if_pos still, callingAsked.display]
  rfl

/-- The frame after the request moves the mouse and then reads it, each of them once. -/
theorem frame_moves_then_reads {feed : Feed} (asked : Asked moves before) (fed : Fed feed before)
    {call : PointerCall} (waiting : openCall? before.history = some call) :
    let origin := centeredOrigin (env.extent before.world) before.console.guest.display
    ∃ pointed report, takingInput env before = .ok () pointed ∧
      (Action.after (frame env) before).history.filter Effect.isMouse =
        .readMouse report :: .movedMouse (call.place origin) ::
          before.history.filter Effect.isMouse ∧
      pointed.console.guest.pointer =
        before.console.guest.display.locate origin report.point := by
  intro origin
  let opened := Action.after (opening env) before
  let later := Action.after (frame env) before
  obtain ⟨pointed, report, inputRan, reports, pointer⟩ := frame_points env fed
  have begins : opened.history =
      [.refreshedCursor, .movedMouse (call.place origin)] ++ before.history :=
    opening_moves env asked waiting
  obtain ⟨effects, grown⟩ : opened.Grown later :=
    after_opening_keeps env (fun session later move => inputMove_grown session later move.1)
      guestMove_grown renderMove_grown ⟨[], rfl⟩
  have still := still_of_grown grown (opening_asked env asked) (frame_asked env asked)
  have read : mouseReports effects = [report] := by
    rw [show later.history = _ from grown, begins, mouseReports_append,
      mouseReports_append] at reports
    exact List.append_cancel_right reports
  refine ⟨pointed, report, inputRan, ?_, pointer⟩
  rw [show later.history = _ from grown, List.filter_append, filter_isMouse_of_still still, read,
    begins]
  rfl

/-- Until the guest asks again the mouse is moved this once. -/
theorem mouseMoves_afterFrames (asked : Asked moves before) {call : PointerCall}
    (waiting : openCall? before.history = some call) (frames : Nat)
    (unasked : ∀ effect ∈ before.since (before.afterFrames env frames),
      effect.asksPointer = false) :
    let origin := centeredOrigin (env.extent before.world) before.console.guest.display
    Asked (call.place origin :: moves) (before.afterFrames env (frames + 1)) := by
  intro origin
  induction frames with
  | zero =>
      have moved := frame_asked env asked
      rw [movesOf, waiting] at moved
      exact moved
  | succ frames ih =>
      obtain ⟨early, first⟩ := afterFrames_grown env before frames
      obtain ⟨late, second⟩ := frame_grown env (before.afterFrames env frames)
      have grown : (before.afterFrames env (frames + 1)).history =
          (late ++ early) ++ before.history := by
        rw [List.append_assoc, ← first]
        exact second
      rw [since_of_grown grown] at unasked
      have earlier := ih (by
        rw [since_of_grown first]
        exact fun effect member => unasked effect (List.mem_append_right late member))
      have moved : mouseMoves (late ++ early) ≠ [] := by
        intro still
        have total := earlier.moves
        rw [grown, mouseMoves_append, still, asked.moves] at total
        exact absurd (congrArg List.length total) (Nat.ne_of_lt (Nat.lt_succ_self _))
      have answered : openCall? (before.afterFrames env (frames + 1)).history = none := by
        rw [grown, openCall?_append unasked, if_neg moved]
      have next := frame_asked env earlier
      rw [movesOf, answered] at next
      exact next

end Frames

/-- The guest's last call in a frame that moves the pointer puts it on the nearest pixel of
the display as it is then.  The next frame moves the mouse, before it reads it, to where that
pixel lies from the corner of the display as it is by now, and until the guest asks again the
mouse is moved this once.  A mouse that stays there is read as the same pixel, or as the one
nearest to it on the new display. -/
theorem pointer_comes_back {env : Environment σ} {before : Session σ}
    (reachable : Reachable env before) :
    let later := Action.after (frame env) before
    let next := Action.after (frame env) later
    ∀ x y calling, Calls env before (.setPointer x y) calling →
      let called := calling.console.guest.display
      let pixel := called.clamp x y
      ∃ asked, serve env (.setPointer x y) calling = .ok () asked ∧
        (∀ clock, asked.console.guest.serve clock .pointer = .ok (pixel, asked.console.guest)) ∧
        ((∀ effect ∈ asked.since later, effect.asksPointer = false) →
          let display := later.console.guest.display
          let origin := centeredOrigin (env.extent later.world) display
          ∃ point pointed report, takingInput env later = .ok () pointed ∧
            point.x.toInt = origin.x.toInt + pixel.x.toNat ∧
            point.y.toInt = origin.y.toInt + pixel.y.toNat ∧
            next.history.filter Effect.isMouse =
              .readMouse report :: .movedMouse point :: later.history.filter Effect.isMouse ∧
            (report.point = point →
              pointed.console.guest.pointer = display.clampPosition pixel ∧
              ∀ position, called.Contains position → display.Contains position →
                x.toInt = position.x.toNat → y.toInt = position.y.toNat →
                pointed.console.guest.pointer = position) ∧
            ∀ more, (∀ effect ∈ later.since (later.afterFrames env more),
                effect.asksPointer = false) →
              mouseMoves (later.afterFrames env (more + 1)).history =
                point :: mouseMoves later.history) := by
  intro later next x y calling calls called pixel
  have laterReachable : Reachable env later := .frame reachable
  obtain ⟨feed, laterFed⟩ := fed_of_bounded laterReachable.bounded
  obtain ⟨moves, asked⟩ := reachable.asked
  refine ⟨calling.pointed x y, serve_setPointer env calling x y, fun _ => rfl, ?_⟩
  intro last display origin
  obtain ⟨laterAsked, waiting⟩ := waiting_after_call env calls reachable.bounded asked last
  let call : PointerCall := ⟨x, y, called⟩
  obtain ⟨pointed, report, inputRan, mouse, pointer⟩ :=
    frame_moves_then_reads env laterAsked laterFed waiting
  obtain ⟨column, row⟩ := offset_toInt (env.extent later.world) display pixel
  refine ⟨call.place origin, pointed, report, inputRan, column, row, mouse, ?_, ?_⟩
  · intro stays
    have back : pointed.console.guest.pointer = display.clampPosition pixel := by
      rw [pointer, stays]
      exact locate_offset (env.extent later.world) display pixel
    refine ⟨back, ?_⟩
    intro position before after columnThere rowThere
    rw [back, show pixel = position from before.clamp columnThere rowThere]
    exact after.clampPosition
  · intro more unasked
    rw [laterAsked.moves]
    exact (mouseMoves_afterFrames env laterAsked waiting more unasked).moves

/-- A mouse that stays where it is moved to, on a display that is made narrower once the guest
has put the pointer in its last column. -/
theorem pointer_comes_back_on_narrower_display :
    let env : Environment (Nat × Point) := {
      ticks := fun _ => 0
      unixSeconds := fun _ => 0
      keyboard := .raw fun world => ([], world)
      mouse := fun world => ({ point := world.2 }, world)
      moveMouse := fun point world => (world.1, point)
      refreshCursor := fun world => world
      wait := fun _ world => world
      extent := fun _ => ⟨24, 4⟩
      put := fun _ _ world => some world
      signal := fun _ world => world
      displayBits := fun _ world => (none, world)
      word := fun _ _ _ => 0
      lowMemory := fun world => world
      step := fun world =>
        if world.1 = 0 then
          .call (1, world.2) (.setDisplaySize ⟨18, 3⟩) fun _ =>
            .call (1, world.2) (.setPointer 17 (-5)) fun _ =>
              .call (1, world.2) (.setDisplaySize ⟨16, 3⟩) fun _ => .done (1, world.2)
        else .done world }
    let config : Config := { cyclesPerFrame := 100 }
    ∃ console, Console.create config env.keyboard.mode = .ok console ∧
      let start : Session (Nat × Point) := { console, world := (0, {}) }
      let later := Action.after (frame env) start
      (∃ calling, Calls env start (.setPointer 17 (-5)) calling) ∧
      later.console.guest.display = ⟨16, 3⟩ ∧
      ∃ pointed, takingInput env later = .ok () pointed ∧
        mouseMoves (later.afterFrames env 3).history = [⟨21, 0⟩] ∧
        pointed.console.guest.pointer = ⟨15, 0⟩ := by
  intro env config
  have created : Console.create config env.keyboard.mode = .ok _ := rfl
  refine ⟨_, created, ?_⟩
  intro start later
  let middle := Action.after (untilStep env 0) start
  have reached : untilStep env 0 start = .ok () middle := rfl
  let sized := Action.after (serve env (.setDisplaySize ⟨18, 3⟩))
    { middle.begun with world := (1, middle.world.2) }
  let calling : Session (Nat × Point) := { sized with world := (1, middle.world.2) }
  have calls : Calls env start (.setPointer 17 (-5)) calling :=
    ⟨0, by decide, middle, reached, rfl, .later _ _ _ () rfl (.here _ _ _ sized)⟩
  have facts : calling.console.guest.display = ⟨18, 3⟩ ∧ later.console.guest.display = ⟨16, 3⟩ ∧
      mouseMoves later.history = [] ∧
      (∀ effect ∈ (calling.pointed 17 (-5)).since later, effect.asksPointer = false) ∧
      (∀ effect ∈ later.since (later.afterFrames env 2), effect.asksPointer = false) ∧
      ((Action.after (frame env) later).history.filter Effect.isMouse).filterMap
        Effect.mouseReport? = [⟨⟨21, 0⟩, 0⟩, ⟨⟨0, 0⟩, 0⟩] ∧
      ((Action.after (frame env) later).history.filter Effect.isMouse).filterMap
        Effect.mouseMove? = [⟨21, 0⟩] := by decide +kernel
  have reachable : Reachable env start := .created created (0, {})
  have comesBack := pointer_comes_back reachable
  simp only [show Action.after (frame env) start = later from rfl] at comesBack
  -- the sessions are not to be computed again
  clear_value calling later
  obtain ⟨asked, served, _, rest⟩ := comesBack 17 (-5) calling calls
  have same : asked = calling.pointed 17 (-5) :=
    (EStateM.Result.ok.inj ((serve_setPointer env calling 17 (-5)).symm.trans served)).2.symm
  subst same
  obtain ⟨called, display, unmoved, last, unasked, reports, points⟩ := facts
  obtain ⟨point, pointed, report, inputRan, _, _, mouse, back, once⟩ := rest last
  rw [mouse] at reports points
  have stays : report.point = ⟨21, 0⟩ := congrArg Mouse.Report.point (List.cons.inj reports).1
  have there : point = ⟨21, 0⟩ := (List.cons.inj points).1
  have moved := once 2 unasked
  have pointer := (back (stays.trans there.symm)).1
  rw [called, display] at pointer
  refine ⟨⟨calling, calls⟩, display, pointed, inputRan, ?_, pointer⟩
  rw [moved, there, unmoved]

end GuestConsole
