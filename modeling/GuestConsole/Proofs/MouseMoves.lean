import GuestConsole.Proofs.Pointing

/-!
# Where the mouse is moved

A frame moves the mouse to the pixel that the guest has asked for last, if no frame has
done so already.  The pixel was chosen on the display of that call, so the mouse comes to
stand on the display of the frame only if that one has the pixel too.
-/

set_option autoImplicit false

namespace GuestConsole

open GuestConsole.Action GuestConsole.Console GuestConsole.Display

variable {σ : Type}

/-! ## Pixels on the screen -/

namespace Display

def Size.Contains (size : Size) (position : Position) : Prop :=
  position.x < size.width ∧ position.y < size.height

instance (size : Size) (position : Position) : Decidable (size.Contains position) :=
  inferInstanceAs (Decidable (_ ∧ _))

/-- A screen point is in the area of a display of which this point shows the corner. -/
def Size.Shows (size : Size) (origin point : Point) : Prop :=
  (origin.x.toInt ≤ point.x.toInt ∧ point.x.toInt < origin.x.toInt + size.width.toNat) ∧
    origin.y.toInt ≤ point.y.toInt ∧ point.y.toInt < origin.y.toInt + size.height.toNat

instance (size : Size) (origin point : Point) : Decidable (size.Shows origin point) :=
  inferInstanceAs (Decidable ((_ ∧ _) ∧ _ ∧ _))

theorem centeredOrigin_shows_iff {screen : Extent} {size : Size} {position : Position} :
    size.Shows (centeredOrigin screen size)
        ((centeredOrigin screen size).offset position.x.toNat position.y.toNat) ↔
      size.Contains position := by
  have column := (centeredAxis_centers screen.width size.width).toInt_add position.x.toNat_lt
  have row := (centeredAxis_centers screen.height size.height).toInt_add position.y.toNat_lt
  simp only [Size.Shows, Size.Contains, centeredOrigin, Point.offset, column, row,
    UInt16.lt_iff_toNat_lt]
  omega

theorem contains_clamp {called size : Size} (x y : Int32) (nonempty : size.isEmpty = false)
    (width : called.width ≤ size.width) (height : called.height ≤ size.height) :
    size.Contains (called.clamp x y) := by
  simp only [Size.isEmpty, Bool.or_eq_false_iff, beq_eq_false_iff_ne, ne_eq] at nonempty
  exact ⟨clampAxis_lt nonempty.1 width, clampAxis_lt nonempty.2 height⟩

end Display

/-! ## What the guest has asked for -/

def Effect.displaySize? : Effect → Option Size
  | .served (.setDisplaySize size) _ => some size
  | _ => none

def lastDisplay (history : List Effect) : Size :=
  (history.findSome? Effect.displaySize?).getD {}

structure PointerCall where
  x : Int32
  y : Int32
  display : Size
  deriving DecidableEq

def PointerCall.pixel (call : PointerCall) : Position := call.display.clamp call.x call.y

def PointerCall.place (call : PointerCall) (origin : Point) : Point :=
  origin.offset call.pixel.x.toNat call.pixel.y.toNat

/-- The last call that moves the pointer, if the mouse has not been moved since. -/
def openCall? : List Effect → Option PointerCall
  | [] => none
  | .movedMouse _ :: _ => none
  | .served (.setPointer x y) _ :: earlier => some ⟨x, y, lastDisplay earlier⟩
  | _ :: earlier => openCall? earlier

def Effect.concernsMouse : Effect → Bool
  | .movedMouse _ => true
  | .served (.setDisplaySize _) _ => true
  | .served (.setPointer _ _) _ => true
  | _ => false

section Unconcerned
variable {effect : Effect} (unconcerned : effect.concernsMouse = false)
include unconcerned

theorem lastDisplay_skip (history : List Effect) :
    lastDisplay (effect :: history) = lastDisplay history := by
  cases effect with
  | served call answer =>
      cases call with
      | setDisplaySize size => cases unconcerned
      | _ => rfl
  | _ => rfl

theorem openCall?_skip (history : List Effect) :
    openCall? (effect :: history) = openCall? history := by
  cases effect with
  | movedMouse point => cases unconcerned
  | served call answer =>
      cases call with
      | setPointer x y => cases unconcerned
      | _ => rfl
  | _ => rfl

theorem mouseMoves_skip (history : List Effect) :
    mouseMoves (effect :: history) = mouseMoves history := by
  cases effect with
  | movedMouse point => cases unconcerned
  | _ => rfl

end Unconcerned

/-- The guest's state agrees with the history, in which the mouse has been moved to these
points. -/
structure Asked (moves : List Point) (session : Session σ) : Prop where
  display : session.console.guest.display = lastDisplay session.history
  request : session.console.guest.pointerRequest =
    (openCall? session.history).map PointerCall.pixel
  moves : mouseMoves session.history = moves

section Asked
variable {moves : List Point} {session later : Session σ}

theorem Asked.same (asked : Asked moves session)
    (display : later.console.guest.display = session.console.guest.display)
    (request : later.console.guest.pointerRequest = session.console.guest.pointerRequest)
    (history : later.history = session.history) : Asked moves later := by
  constructor <;> rw [history]
  · exact display.trans asked.display
  · exact request.trans asked.request
  · exact asked.moves

theorem Asked.note (asked : Asked moves session) {effect : Effect}
    (unconcerned : effect.concernsMouse = false)
    (display : later.console.guest.display = session.console.guest.display)
    (request : later.console.guest.pointerRequest = session.console.guest.pointerRequest)
    (history : later.history = effect :: session.history) : Asked moves later := by
  constructor <;> rw [history]
  · rw [lastDisplay_skip unconcerned]
    exact display.trans asked.display
  · rw [openCall?_skip unconcerned]
    exact request.trans asked.request
  · rw [mouseMoves_skip unconcerned]
    exact asked.moves

theorem Asked.append (asked : Asked moves session) {effects : List Effect}
    (unconcerned : ∀ effect ∈ effects, effect.concernsMouse = false) :
    Asked moves { session with history := effects ++ session.history } := by
  induction effects with
  | nil => exact asked
  | cons effect earlier ih =>
      have before := ih fun other member => unconcerned other (List.mem_cons_of_mem _ member)
      exact before.note (unconcerned effect List.mem_cons_self) rfl rfl rfl

theorem resize_keeps_request (guest : Guest.State) (size : Size) :
    (guest.resize size).display = size ∧
      (guest.resize size).pointerRequest = guest.pointerRequest := by
  unfold Guest.State.resize
  split
  case isTrue same => exact ⟨same.symm, rfl⟩
  case isFalse => exact ⟨rfl, rfl⟩

theorem serve_unconcerned {guest next : Guest.State} {clock : Guest.Clock} {call : Guest.Call}
    {answer : call.Answer} (served : guest.serve clock call = .ok (answer, next))
    (unconcerned : (Effect.served call answer).concernsMouse = false) :
    next.display = guest.display ∧ next.pointerRequest = guest.pointerRequest := by
  cases call with
  | setDisplaySize size => cases unconcerned
  | setPointer x y => cases unconcerned
  | displayChanged | tryDisplayChanged =>
      obtain ⟨_, rfl⟩ := serve_report served rfl
      exact ⟨rfl, rfl⟩
  | _ =>
      obtain ⟨_, rfl⟩ := Prod.mk.inj (Except.ok.inj served)
      exact ⟨rfl, rfl⟩

theorem Asked.serve (asked : Asked moves session) {clock : Guest.Clock} {call : Guest.Call}
    {answer : call.Answer} {guest : Guest.State}
    (served : session.console.guest.serve clock call = .ok (answer, guest)) :
    Asked moves { session with
      console.guest := guest
      history := .served call answer :: session.history } := by
  cases concerned : (Effect.served call answer).concernsMouse with
  | false =>
      obtain ⟨display, request⟩ := serve_unconcerned served concerned
      exact asked.note concerned display request rfl
  | true =>
      cases call with
      | setDisplaySize size =>
          obtain ⟨_, rfl⟩ := Prod.mk.inj (Except.ok.inj served)
          obtain ⟨display, request⟩ := resize_keeps_request session.console.guest size
          exact ⟨display, request.trans asked.request, asked.moves⟩
      | setPointer x y =>
          obtain ⟨_, rfl⟩ := Prod.mk.inj (Except.ok.inj served)
          refine ⟨asked.display, ?_, asked.moves⟩
          -- the call finds the display that was set last
          exact congrArg (fun display : Size => some (display.clamp x y)) asked.display
      | _ => cases concerned

theorem deviceMove_asked (before later : Session σ) (move : Session.DeviceMove before later)
    (asked : Asked moves before) : Asked moves later := by
  obtain ⟨input, request, still⟩ := move
  cases input with
  | note effect input =>
      cases effect with
      | movedMouse point => exact absurd (congrArg List.length still) (Nat.succ_ne_self _)
      | served call answer => exact input.elim
      | _ => exact asked.note rfl rfl rfl rfl
  | poll effect polls =>
      cases effect with
      | polledKeys keys => exact asked.note rfl rfl rfl rfl
      | polledSequence bytes => exact asked.note rfl rfl rfl rfl
      | _ => cases polls
  | _ => exact asked.same rfl request rfl

theorem guestMove_asked (before later : Session σ) (move : Session.GuestMove before later)
    (asked : Asked moves before) : Asked moves later := by
  cases move with
  | note effect running =>
      cases effect with
      | movedMouse point => exact running.elim
      | served call answer => exact running.elim
      | _ => exact asked.note rfl rfl rfl rfl
  | serve clock call answer guest served => exact asked.serve served
  | _ => exact asked.same rfl rfl rfl

theorem renderMove_asked (before later : Session σ) (move : Session.RenderMove before later)
    (asked : Asked moves before) : Asked moves later := by
  cases move with
  | note effect output =>
      cases effect with
      | movedMouse point => exact output.elim
      | served call answer => exact output.elim
      | _ => exact asked.note rfl rfl rfl rfl
  | glyph =>
      unfold Console.takeGlyph
      split <;> exact asked.same rfl rfl rfl
  | draw strokes world =>
      have strokesOnly : ∀ effect ∈ strokes.map Effect.drew, effect.concernsMouse = false := by
        simp [Effect.concernsMouse]
      exact (asked.append strokesOnly).same rfl rfl rfl
  | _ => exact asked.same rfl rfl rfl

end Asked

/-! ## Frames -/

section Frames
variable (env : Environment σ) {moves : List Point} {before : Session σ}

/-- Where the frame that begins so moves the mouse to, at most once. -/
def Console.movesOf (before : Session σ) : List Point :=
  let origin := centeredOrigin (env.extent before.world) before.console.guest.display
  ((openCall? before.history).map (·.place origin)).toList

theorem opening_asked (asked : Asked moves before) :
    Asked (movesOf env before ++ moves) (Action.after (opening env) before) := by
  let centered : Session σ := { before with
    console := before.console.centered (env.extent before.world) }
  have first : opening env before = applyPointerRequest env centered := rfl
  rw [Action.after, first, applyPointerRequest, bind_console]
  cases waiting : openCall? before.history with
  | none =>
      have request : centered.console.guest.pointerRequest = none := by
        rw [show centered.console.guest.pointerRequest = _ from asked.request, waiting]
        rfl
      simp only [request, movesOf, waiting]
      exact asked.same rfl rfl rfl
  | some call =>
      have request : centered.console.guest.pointerRequest = some call.pixel := by
        rw [show centered.console.guest.pointerRequest = _ from asked.request, waiting]
        rfl
      simp only [request, movesOf, waiting]
      exact ⟨asked.display, rfl, congrArg (_ :: ·) asked.moves⟩

theorem frame_asked (asked : Asked moves before) :
    Asked (movesOf env before ++ moves) (Action.after (frame env) before) :=
  after_opening_keeps env deviceMove_asked guestMove_asked renderMove_asked
    (opening_asked env asked)

theorem afterFrames_asked {start : Session σ} (asked : Asked moves start) (frames : Nat) :
    ∃ moves, Asked moves (start.afterFrames env frames) := by
  induction frames with
  | zero => exact ⟨moves, asked⟩
  | succ frames ih =>
      obtain ⟨earlier, kept⟩ := ih
      exact ⟨_, frame_asked env kept⟩

end Frames

theorem created_asked {config : Config} {mode : Keyboard.Mode} {console : Console}
    (created : Console.create config mode = .ok console) (world : σ) :
    Asked [] ({ console, world } : Session σ) := by
  obtain ⟨_, guest, _⟩ := create_exact created
  refine ⟨?_, ?_, rfl⟩
  · rw [show (Session.mk console world []).console.guest = _ from guest]
    rfl
  · rw [show (Session.mk console world []).console.guest = _ from guest]
    rfl

/-- In every frame of a run the mouse is moved at most once, to the pixel that the guest's
last call has chosen if no frame has answered it.  It comes to stand on the display as that
is centred in this frame if the display has the pixel, and only then; a display that is no
smaller than the one that the call has found has it. -/
theorem mouse_moved_onto_display_iff {env : Environment σ} {config : Config} {console : Console}
    (created : Console.create config env.keyboard.mode = .ok console) (world : σ)
    (frames : Nat) :
    let start : Session σ := { console, world }
    let before := start.afterFrames env frames
    let later := Action.after (frame env) before
    let display := before.console.guest.display
    let origin := centeredOrigin (env.extent before.world) display
    display = lastDisplay before.history ∧
    mouseMoves later.history = movesOf env before ++ mouseMoves before.history ∧
    ∀ call, openCall? before.history = some call →
      movesOf env before = [call.place origin] ∧
      (display.Shows origin (call.place origin) ↔ display.Contains call.pixel) ∧
      (display.isEmpty = false → call.display.width ≤ display.width →
        call.display.height ≤ display.height → display.Shows origin (call.place origin)) := by
  intro start before later display origin
  obtain ⟨moves, asked⟩ := afterFrames_asked env (created_asked created world) frames
  refine ⟨asked.display, ?_, ?_⟩
  · rw [asked.moves]
    exact (frame_asked env asked).moves
  · intro call waiting
    have shows : display.Shows origin (call.place origin) ↔ display.Contains call.pixel :=
      centeredOrigin_shows_iff
    refine ⟨?_, shows, ?_⟩
    · rw [movesOf, waiting]
      rfl
    · intro nonempty width height
      exact shows.mpr (contains_clamp call.x call.y nonempty width height)

/-- The display is made larger before the second frame moves the mouse. -/
theorem mouse_moved_onto_larger_display :
    let env := idle ⟨24, 4⟩
      (.call 1 (.setDisplaySize ⟨5, 3⟩) fun _ => .call 1 (.setPointer 17 2) fun _ =>
        .call 1 (.setDisplaySize ⟨18, 3⟩) fun _ => .done 1)
    let config : Config := { cyclesPerFrame := 100 }
    ∃ console, Console.create config env.keyboard.mode = .ok console ∧
      let start : Session Nat := { console, world := 0 }
      let before := start.afterFrames env 1
      let later := Action.after (frame env) before
      before.console.guest.display = ⟨18, 3⟩ ∧ mouseMoves later.history = [⟨7, 2⟩] ∧
      Size.Shows ⟨18, 3⟩ (centeredOrigin (env.extent before.world) ⟨18, 3⟩) ⟨7, 2⟩ := by
  intro env config
  have created : Console.create config env.keyboard.mode = .ok _ := rfl
  refine ⟨_, created, ?_⟩
  intro start before later
  have facts : before.console.guest.display = ⟨18, 3⟩ ∧
      openCall? before.history = some ⟨17, 2, ⟨5, 3⟩⟩ ∧
      mouseMoves before.history = [] := by decide +kernel
  have agrees := mouse_moved_onto_display_iff created 0 1
  simp only [show Session.afterFrames env ⟨_, 0, []⟩ 1 = before from rfl] at agrees
  -- the session is not to be computed again
  clear_value before
  obtain ⟨display, waiting, unmoved⟩ := facts
  obtain ⟨_, moved, asked⟩ := agrees
  obtain ⟨once, _, shows⟩ := asked _ waiting
  have screen : env.extent before.world = ⟨24, 4⟩ := rfl
  have place : PointerCall.place ⟨17, 2, ⟨5, 3⟩⟩ (centeredOrigin ⟨24, 4⟩ ⟨18, 3⟩) = ⟨7, 2⟩ := by
    decide
  rw [display, screen, place] at shows
  rw [display, screen, place] at once
  refine ⟨display, ?_, shows (by decide) (by decide) (by decide)⟩
  rw [once, unmoved] at moved
  exact moved

/-- The display is made smaller before the second frame moves the mouse off it. -/
theorem mouse_moved_off_smaller_display :
    let env := idle ⟨1, 1⟩
      (.call 1 (.setDisplaySize ⟨4, 1⟩) fun _ => .call 1 (.setPointer 3 0) fun _ =>
        .call 1 (.setDisplaySize ⟨1, 1⟩) fun _ => .done 1)
    let config : Config := { cyclesPerFrame := 100 }
    ∃ console, Console.create config env.keyboard.mode = .ok console ∧
      let start : Session Nat := { console, world := 0 }
      let before := start.afterFrames env 1
      let later := Action.after (frame env) before
      before.console.guest.display = ⟨1, 1⟩ ∧ mouseMoves before.history = [] ∧
      mouseMoves later.history = [⟨3, 0⟩] ∧
      ¬ Size.Shows ⟨1, 1⟩ (centeredOrigin (env.extent before.world) ⟨1, 1⟩) ⟨3, 0⟩ := by
  intro env config
  have created : Console.create config env.keyboard.mode = .ok _ := rfl
  refine ⟨_, created, ?_⟩
  decide +kernel

end GuestConsole
