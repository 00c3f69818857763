import GuestConsole.Proofs.Rendering

/-!
# What the screen shows

As long as the guest reports what it changes in its bitmap, the screen shows the bitmap
and the cursor after every frame that renders, whatever the frames before it were.
-/

set_option autoImplicit false

namespace GuestConsole

open GuestConsole.Action GuestConsole.Console GuestConsole.Display

variable {σ : Type}

/-! ## Frames that render -/

def Session.since (before later : Session σ) : List Effect :=
  later.history.take (later.history.length - before.history.length)

theorem since_of_grown {before later : Session σ} {effects : List Effect}
    (grown : later.history = effects ++ before.history) : before.since later = effects := by
  rw [Session.since, grown, List.length_append, Nat.add_sub_cancel, List.take_left]

section Definitions
variable (env : Environment σ)

/-- The picture in the latest of the first frames that went on to the next with a display
to show. -/
def Session.lastRendered (start : Session σ) : Nat → Option Picture
  | 0 => none
  | count + 1 =>
      let before := start.afterFrames env count
      match frame env before with
      | .ok .again later =>
          if later.console.guest.display.isEmpty then start.lastRendered count
          else some (pictureAt env (Action.after (beforeRender env) before))
      | _ => start.lastRendered count

/-- In the frame that begins so the guest reports every pixel of the display that differs
from an earlier picture. -/
def Console.ReportsChanges (before : Session σ) (earlier : Picture) : Prop :=
  let ready := Action.after (beforeRender env) before
  let picture := pictureAt env ready
  ∀ x y, x < picture.size.width.toNat → y < picture.size.height.toNat →
    earlier.bit? x y ≠ some (picture.bit x y) →
    ∃ effect ∈ before.since ready, effect.Reports before.console.guest.display x y

def Session.ReportsUpTo (start : Session σ) (count : Nat) : Prop :=
  ∀ frames < count, ∀ earlier, start.lastRendered env frames = some earlier →
    ReportsChanges env (start.afterFrames env frames) earlier

end Definitions

/-! ## Whole frames -/

section Frames
variable {env : Environment σ} {screen : Extent} {palette : Palette} {last : Option Picture}
  {before : Session σ}

structure Session.Rested (session later : Session σ) : Prop where
  console : later.console = session.console
  history : later.history = session.history ∨
    ∃ ms, later.history = .waited ms :: session.history

theorem Session.Rested.colors {session later : Session σ} (rested : session.Rested later)
    (point : Point) : lastColor point later.history = lastColor point session.history := by
  rcases rested.history with same | ⟨ms, same⟩ <;> rw [same]
  rfl

theorem Session.Rested.glyph {session later : Session σ} (rested : session.Rested later) :
    lastGlyph later.history = lastGlyph session.history := by
  rcases rested.history with same | ⟨ms, same⟩ <;> rw [same]
  exact lastGlyph_cons _ _

theorem pause_rested (env : Environment σ) (session : Session σ) :
    ∃ later, pause env session = .ok () later ∧ session.Rested later := by
  rw [pause, bind_console]
  cases session.console.config.frameDelay? with
  | none => exact ⟨session, rfl, rfl, .inl rfl⟩
  | some ms => exact ⟨_, rfl, rfl, .inr ⟨ms, rfl⟩⟩

theorem change_damaged (start : Ready before before) {x y : Nat}
    (shown : (Action.after (beforeRender env) before).console.guest.display =
      before.console.guest.display → ShownAt screen palette last before x y)
    (reports : ∀ earlier, last = some earlier → ReportsChanges env before earlier) :
    let ready := Action.after (beforeRender env) before
    x < ready.console.guest.display.width.toNat →
      y < ready.console.guest.display.height.toNat →
      ready.console.guest.damage.rect.Has x y ∨
        ∃ earlier, last = some earlier ∧
          earlier.bit? x y = some ((pictureAt env ready).bit x y) := by
  intro ready xInside yInside
  obtain ⟨effects, grown, marks⟩ := (beforeRender_ready env start).marks
  rcases marks with whole | ⟨partly, display, reported⟩
  · left
    rw [whole]
    exact covering_has xInside yInside
  · obtain ⟨earlier, rendered, _⟩ := (shown display).resolve_left partly
    by_cases unchanged : earlier.bit? x y = some ((pictureAt env ready).bit x y)
    · exact .inr ⟨earlier, rendered, unchanged⟩
    · left
      have since : before.since ready = effects := since_of_grown grown
      have changed := reports earlier rendered x y
        (by rw [pictureAt_size]; exact xInside) (by rw [pictureAt_size]; exact yInside) unchanged
      rw [display] at xInside yInside
      apply reported x y xInside yInside
      rw [← since]
      exact changed

theorem changes_damaged (coherent : Coherent screen palette last before)
    (reports : ∀ earlier, last = some earlier → ReportsChanges env before earlier) :
    ChangesDamaged env last (Action.after (beforeRender env) before) := by
  intro x y xInside yInside
  have shown (display : (Action.after (beforeRender env) before).console.guest.display =
      before.console.guest.display) : ShownAt screen palette last before x y := by
    rw [display] at xInside yInside
    exact coherent.shownAt xInside yInside
  exact change_damaged coherent.start shown reports xInside yInside

/-- What follows a frame: either it has rendered, or it has ended otherwise and left on the
screen what was there. -/
def Settles (screen : Extent) (palette : Palette) (last : Option Picture) (picture : Picture)
    (result : EStateM.Result Halt (Session σ) Outcome) : Prop :=
  (∃ later, result = .ok .again later ∧ later.console.guest.display.isEmpty = false ∧
    Rendered screen palette picture later) ∨
  ∃ later, (result = .ok .terminated later ∨ (∃ halt, result = .error halt later) ∨
      result = .ok .again later ∧ later.console.guest.display.isEmpty = true) ∧
    Coherent screen palette last later

theorem afterGuest_settles (cooperates : Cooperates env screen)
    {ready : Session σ} (coherent : Coherent screen palette last ready)
    (damaged : ChangesDamaged env last ready) :
    Settles screen palette last (pictureAt env ready) (afterGuest env ready) := by
  rw [afterGuest, bind_console]
  cases quit : ready.console.guest.quit with
  | true => exact .inr ⟨ready, .inl rfl, coherent⟩
  | false =>
      simp only [Bool.false_eq_true, if_false]
      cases empty : ready.console.guest.display.isEmpty with
      | true =>
          obtain ⟨later, paused, rested⟩ := pause_rested env ready
          rw [bind_ok (render_hidden empty), bind_ok paused]
          refine .inr ⟨later, .inr (.inr ⟨rfl, ?_⟩),
            coherent.later rested.console rested.colors rested.glyph⟩
          rw [rested.console]
          exact empty
      | false =>
          obtain ⟨drawn, drew, rendered⟩ :=
            render_rendered cooperates coherent damaged empty
          obtain ⟨later, paused, rested⟩ := pause_rested env drawn
          rw [bind_ok drew, bind_ok paused]
          refine .inl ⟨later, rfl, ?_,
            rendered.later rested.console rested.colors rested.glyph⟩
          rw [rested.console, ← rendered.size, pictureAt_size]
          exact empty

theorem frame_settles (cooperates : Cooperates env screen)
    (coherent : Coherent screen palette last before)
    (reports : ∀ earlier, last = some earlier → ReportsChanges env before earlier) :
    Settles screen palette last (pictureAt env (Action.after (beforeRender env) before))
      (frame env before) := by
  have readyCoherent := (beforeRender_ready env coherent.start).coherent coherent
  have damaged := changes_damaged coherent reports
  rw [frame_eq]
  cases run : beforeRender env before with
  | error halt ready =>
      rw [after_error run] at readyCoherent
      rw [bind_error run]
      exact .inr ⟨ready, .inr (.inl ⟨halt, rfl⟩), readyCoherent⟩
  | ok answer ready =>
      rw [after_ok run] at readyCoherent damaged ⊢
      rw [bind_ok run]
      exact afterGuest_settles cooperates readyCoherent damaged

/-! ## Whole runs -/

theorem lastRendered_succ_of_settles {start : Session σ} {count : Nat}
    (settles : Settles screen palette (start.lastRendered env count)
      (pictureAt env (Action.after (beforeRender env) (start.afterFrames env count)))
      (frame env (start.afterFrames env count))) :
    Coherent screen palette (start.lastRendered env (count + 1))
      (start.afterFrames env (count + 1)) := by
  rcases settles with ⟨later, ran, shown, rendered⟩ | ⟨later, ended, coherent⟩
  · have last : start.lastRendered env (count + 1) =
        some (pictureAt env (Action.after (beforeRender env) (start.afterFrames env count))) := by
      simp only [Session.lastRendered, ran, shown, Bool.false_eq_true, if_false]
    rw [last, Session.afterFrames, after_ok ran]
    exact rendered.coherent
  · have last : start.lastRendered env (count + 1) = start.lastRendered env count := by
      rcases ended with ran | ⟨halt, ran⟩ | ⟨ran, empty⟩
      · simp only [Session.lastRendered, ran]
      · simp only [Session.lastRendered, ran]
      · simp only [Session.lastRendered, ran, empty, if_true]
    have reached : start.afterFrames env (count + 1) = later := by
      rcases ended with ran | ⟨halt, ran⟩ | ⟨ran, _⟩
      · exact after_ok ran
      · exact after_error ran
      · exact after_ok ran
    rw [last, reached]
    exact coherent

theorem afterFrames_coherent {start : Session σ} (cooperates : Cooperates env screen)
    (coherent : Coherent screen palette none start) (count : Nat)
    (reports : start.ReportsUpTo env count) :
    Coherent screen palette (start.lastRendered env count) (start.afterFrames env count) := by
  induction count with
  | zero => exact coherent
  | succ count ih =>
      have earlier := ih fun frames few => reports frames (Nat.lt_succ_of_lt few)
      apply lastRendered_succ_of_settles
      exact frame_settles cooperates earlier (reports count (Nat.lt_succ_self count))

end Frames

theorem created_coherent {config : Config} {mode : Keyboard.Mode} {console : Console}
    (created : Console.create config mode = .ok console) (screen : Extent) (world : σ) :
    Coherent screen (Palette.ofRgb config.display.foreground config.display.background
      config.display.cursorColor) none (⟨console, world, []⟩ : Session σ) := by
  obtain ⟨_, guest, overlay, brush⟩ := create_exact created
  refine ⟨?_, ?_, ?_, .inl ?_⟩
  · exact congrArg Brush.palette brush
  · simp only [guest]
    exact ⟨Nat.zero_le _, Nat.zero_le _⟩
  · simp only [guest, overlay]
    rfl
  · simp only [guest]
    rfl

/-- On a screen of constant size that takes every pixel, and with a guest that has a bitmap
for every display and reports what it changes in it, every frame that goes on to the next
leaves the whole display showing the bitmap and the cursor. -/
theorem screen_shows_bitmap_and_cursor {env : Environment σ} {config : Config}
    {console : Console} {screen : Extent}
    (created : Console.create config env.keyboard.mode = .ok console)
    (cooperates : Cooperates env screen)
    (world : σ) (frames : Nat)
    (reports : Session.ReportsUpTo env ⟨console, world, []⟩ (frames + 1))
    {later : Session σ}
    (continues : frame env (Session.afterFrames env ⟨console, world, []⟩ frames) =
      .ok .again later) :
    let display := later.console.guest.display
    let scene : Scene := {
      palette := Palette.ofRgb config.display.foreground config.display.background
        config.display.cursorColor
      picture := pictureAt env (Action.after (beforeRender env)
        (Session.afterFrames env ⟨console, world, []⟩ frames))
      glyph := lastGlyph later.history
      pointer := later.console.guest.pointer }
    ∀ x y, x < display.width.toNat → y < display.height.toNat →
      lastColor ((centeredOrigin screen display).offset x y) later.history =
        some (scene.color x y) := by
  intro display scene x y xInside yInside
  let start : Session σ := ⟨console, world, []⟩
  have coherent := afterFrames_coherent cooperates
    (created_coherent created screen world) frames
    fun earlier few => reports earlier (Nat.lt_succ_of_lt few)
  have settles := frame_settles cooperates coherent
    (reports frames (Nat.lt_succ_self frames))
  rcases settles with ⟨ended, ran, _, rendered⟩ | ⟨ended, ran | ⟨halt, ran⟩ | ⟨ran, empty⟩, _⟩
  · rw [continues] at ran
    cases ran
    have shown := rendered.shows x y (by rw [rendered.size]; exact xInside)
      (by rw [rendered.size]; exact yInside)
    rw [← rendered.glyph, rendered.pointer] at shown
    exact shown
  · rw [continues] at ran
    cases ran
  · rw [continues] at ran
    cases ran
  · rw [continues] at ran
    cases ran
    have area := has_area (covering_has xInside yInside)
    exact absurd (empty.symm.trans area) (by decide)

theorem reportsChanges_of_all (env : Environment σ) (before : Session σ) (earlier : Picture)
    {size : Size}
    (shown : (pictureAt env (Action.after (beforeRender env) before)).size = size)
    (all : ∀ x < size.width.toNat, ∀ y < size.height.toNat,
      ∃ effect ∈ before.since (Action.after (beforeRender env) before),
        effect.Reports before.console.guest.display x y) :
    ReportsChanges env before earlier := by
  intro x y xInside yInside _
  rw [shown] at xInside yInside
  exact all x xInside y yInside

/-- The guest sets up its display in the first frame; in the second it changes the whole
bitmap, reports that and moves the pointer. -/
theorem screen_shows_second_bitmap :
    let env : Environment Nat := {
      ticks := fun _ => 0
      unixSeconds := fun _ => 0
      keyboard := .raw fun world => ([], world)
      mouse := fun world => ({ point := ⟨9, 2⟩ }, world)
      moveMouse := fun _ world => world
      refreshCursor := fun world => world
      wait := fun _ world => world
      extent := fun _ => ⟨24, 4⟩
      put := fun _ _ world => some world
      signal := fun _ world => world
      displayBits := fun _ world => (some 1, world)
      word := fun world _ _ => if world < 200 then 0x0FF0 else 0x5555
      lowMemory := fun world => world
      step := fun world =>
        if world = 0 then .call 1 (.setDisplaySize ⟨18, 3⟩) fun _ => .done 1
        else if world = 199 then
          .call 199 (.displayChanged 0 0 18 3) fun _ =>
            .call 199 (.setPointer 5 1) fun _ => .done 200
        else .done (world + 1) }
    let config : Config := { cyclesPerFrame := 100 }
    ∃ console, Console.create config env.keyboard.mode = .ok console ∧
      let start : Session Nat := { console, world := 0 }
      let before := start.afterFrames env 1
      start.ReportsUpTo env 2 ∧
      ∃ later, frame env before = .ok .again later ∧
        later.console.guest.display = ⟨18, 3⟩ ∧
        ∀ x y, x < 18 → y < 3 →
          lastColor ((centeredOrigin ⟨24, 4⟩ ⟨18, 3⟩).offset x y) later.history =
            some (Scene.color ⟨⟨⟨0, 0, 0⟩, ⟨255, 255, 255⟩, ⟨0, 0, 0⟩⟩,
              ⟨⟨18, 3⟩, fun _ => 0x5555⟩, Glyph.arrow, ⟨5, 1⟩⟩ x y) := by
  intro env config
  have created : Console.create config env.keyboard.mode = .ok _ := rfl
  refine ⟨_, created, ?_⟩
  intro start before
  have cooperates : Cooperates env ⟨24, 4⟩ :=
    ⟨fun _ => rfl, fun _ _ _ => rfl, fun _ _ _ => rfl⟩
  have reports : start.ReportsUpTo env 2 := by
    intro frames few earlier rendered
    by_cases first : frames = 0
    · subst first
      cases rendered
    · obtain rfl : frames = 1 := by omega
      have size : (pictureAt env (Action.after (beforeRender env) before)).size = ⟨18, 3⟩ := by
        decide +kernel
      have all : ∀ x < 18, ∀ y < 3,
          ∃ effect ∈ before.since (Action.after (beforeRender env) before),
            effect.Reports before.console.guest.display x y := by decide +kernel
      exact reportsChanges_of_all env before earlier size all
  have facts : (Action.after (beforeRender env) before).world = 200 ∧
      (Action.after (beforeRender env) before).console.guest.display = ⟨18, 3⟩ ∧
      lastGlyph (Action.after (frame env) before).history = Glyph.arrow ∧
      (Action.after (frame env) before).console.guest.pointer = ⟨5, 1⟩ ∧
      (Action.after (frame env) before).console.guest.display = ⟨18, 3⟩ ∧
      (match frame env before with
        | .ok .again _ => true
        | _ => false) = true := by decide +kernel
  obtain ⟨world, size, glyph, pointer, display, goesOn⟩ := facts
  have picture : pictureAt env (Action.after (beforeRender env) before) =
      ⟨⟨18, 3⟩, fun _ => 0x5555⟩ := by
    rw [pictureAt, size, world]
    rfl
  refine ⟨reports, ?_⟩
  cases continues : frame env before with
  | error halt later => rw [continues] at goesOn; cases goesOn
  | ok outcome later =>
      cases outcome with
      | terminated => rw [continues] at goesOn; cases goesOn
      | again =>
          have shows := screen_shows_bitmap_and_cursor created cooperates 0 1 reports continues
          rw [after_ok continues] at glyph pointer display
          simp only [display, glyph, pointer] at shows
          rw [picture] at shows
          have palette : Palette.ofRgb config.display.foreground config.display.background
              config.display.cursorColor = ⟨⟨0, 0, 0⟩, ⟨255, 255, 255⟩, ⟨0, 0, 0⟩⟩ := by decide
          rw [palette] at shows
          exact ⟨later, rfl, display, shows⟩

end GuestConsole
