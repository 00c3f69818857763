import GuestConsole.Proofs.Coherence

/-!
# Rendering

On a screen that takes every pixel, rendering makes the display show the guest's bitmap
and the cursor, provided that what has changed is damaged.
-/

set_option autoImplicit false

namespace GuestConsole

open GuestConsole.Action GuestConsole.Console GuestConsole.Display

variable {σ : Type}

def Console.pictureAt (env : Environment σ) (session : Session σ) : Picture :=
  let size := session.console.guest.display
  match env.displayBits size session.world with
  | (some handle, world) => { size, word := env.word world handle }
  | (none, _) => { size, word := fun _ => 0 }

/-- The screen keeps its size and takes every pixel, and the guest has a bitmap for every
display that shows anything. -/
structure Cooperates (env : Environment σ) (screen : Extent) : Prop where
  steady : ∀ world, env.extent world = screen
  accepts : ∀ point color world, (env.put point color world).isSome
  grants : ∀ size world, size.isEmpty = false → (env.displayBits size world).1.isSome

def ChangesDamaged (env : Environment σ) (last : Option Picture) (ready : Session σ) : Prop :=
  ∀ x y, x < ready.console.guest.display.width.toNat →
    y < ready.console.guest.display.height.toNat →
    ready.console.guest.damage.rect.Has x y ∨
      ∃ earlier, last = some earlier ∧ earlier.bit? x y = some ((pictureAt env ready).bit x y)

section Rendering
variable {env : Environment σ} {screen : Extent} {palette : Palette}

/-! ## Drawing -/

theorem draw_eq (strokes : List Stroke) (session : Session σ) :
    draw env strokes session =
      (if (carryOut env.put strokes [] session.world).complete then pure ()
        else throw .screenRefused : Action σ Unit) { session with
          world := (carryOut env.put strokes [] session.world).screen
          history := (carryOut env.put strokes [] session.world).strokes.map Effect.drew
            ++ session.history } := rfl

theorem draw_exact (cooperates : Cooperates env screen) (strokes : List Stroke)
    (session : Session σ) :
    ∃ world, draw env strokes session = .ok () { session with
      world
      history := strokes.reverse.map Effect.drew ++ session.history } := by
  obtain ⟨world, _, carried⟩ := carryOut_accepted cooperates.accepts strokes session.world
  refine ⟨world, ?_⟩
  rw [draw_eq, carried]
  rfl

theorem takeGlyph_eq (console : Console) :
    console.takeGlyph = { console with
      guest := { console.guest with newGlyph := none }
      overlay := console.guest.newGlyph.elim console.overlay console.overlay.withGlyph } := by
  rcases console with ⟨config, guest, keyboard, mouse, brush, overlay⟩
  rcases guest with ⟨queue, alarm, damage, display, pointer, newGlyph, request, due, quit⟩
  cases newGlyph <;> rfl

/-- The screen shows a picture and the cursor, and nothing is left to render. -/
structure Rendered (screen : Extent) (palette : Palette) (picture : Picture)
    (session : Session σ) : Prop where
  brush : session.console.brush.palette = palette
  damage : session.console.guest.damage = {}
  size : picture.size = session.console.guest.display
  newGlyph : session.console.guest.newGlyph = none
  glyph : lastGlyph session.history = session.console.overlay.glyph
  pointer : session.console.overlay.previous = session.console.guest.pointer
  shows : Shows session.history (centeredOrigin screen session.console.guest.display)
    ⟨palette, picture, session.console.overlay.glyph, session.console.overlay.previous⟩

theorem Rendered.coherent {picture : Picture} {session : Session σ}
    (rendered : Rendered screen palette picture session) :
    Coherent screen palette (some picture) session := by
  refine ⟨rendered.brush, ?_, ?_, .inr ⟨picture, rfl, rendered.size, rendered.shows⟩⟩
  · rw [rendered.damage]
    exact ⟨Nat.zero_le _, Nat.zero_le _⟩
  · rw [rendered.glyph, rendered.newGlyph]
    rfl

theorem Rendered.later {picture : Picture} {session later : Session σ}
    (rendered : Rendered screen palette picture session)
    (console : later.console = session.console)
    (colors : ∀ point, lastColor point later.history = lastColor point session.history)
    (glyph : lastGlyph later.history = lastGlyph session.history) :
    Rendered screen palette picture later := by
  obtain ⟨_, world, history⟩ := later
  obtain rfl := console
  refine ⟨rendered.brush, rendered.damage, rendered.size, rendered.newGlyph,
    glyph.trans rendered.glyph, rendered.pointer, fun x y xInside yInside => ?_⟩
  exact (colors _).trans (rendered.shows x y xInside yInside)

def Session.settled (env : Environment σ) (session : Session σ) : Session σ :=
  let console := session.console
  { session with
    console := { console with
      brush := { console.brush with
        origin := centeredOrigin (env.extent session.world) console.guest.display }
      guest := { console.guest with newGlyph := none, damage := {} }
      overlay := console.guest.newGlyph.elim console.overlay console.overlay.withGlyph } }

@[simp] theorem settled_display (env : Environment σ) (session : Session σ) :
    (session.settled env).console.guest.display = session.console.guest.display := rfl

theorem render_hidden {ready : Session σ} (empty : ready.console.guest.display.isEmpty = true) :
    render env ready = .ok () ready := by
  rw [render, bind_console]
  simp only [empty, if_true]
  rfl

theorem render_eq {ready : Session σ} (nonempty : ready.console.guest.display.isEmpty = false) :
    render env ready =
      (if ready.console.guest.damage.rect.isEmpty
            && !(ready.settled env).console.overlay.needsRedraw ready.console.guest.pointer then
          pure ()
        else do
          match ← askDisplayBits env ready.console.guest.display with
          | none => pure ()
          | some handle =>
              drawFrame env ready.console.guest.display ready.console.guest.damage.rect handle)
        (ready.settled env) := by
  rw [render, bind_console]
  simp only [nonempty, Bool.false_eq_true, if_false]
  let centered : Session σ := { ready with
    console := ready.console.centered (env.extent ready.world) }
  have glyphed : onConsole takeGlyph centered = .ok () { centered with
      console := { centered.console with
        guest := { centered.console.guest with newGlyph := none }
        overlay := centered.console.guest.newGlyph.elim centered.console.overlay
          centered.console.overlay.withGlyph } } := by
    rw [← takeGlyph_eq]
    rfl
  rw [bind_ok (rfl : center env ready = .ok () centered), bind_ok glyphed]
  rfl

theorem pictureAt_size (session : Session σ) :
    (pictureAt env session).size = session.console.guest.display := by
  simp only [pictureAt]
  split <;> rfl

theorem drawFrame_exact (cooperates : Cooperates env screen) (size : Size) (damage : Rect)
    (handle : UInt32) (session : Session σ) :
    let console := session.console
    let pointer := console.guest.pointer
    ∃ world, drawFrame env size damage handle session = .ok () { session with
      console := { console with overlay := console.overlay.drawnAt pointer }
      world
      history := (console.overlay.strokes console.brush ⟨size, env.word session.world handle⟩
        damage pointer).reverse.map Effect.drew ++ session.history } := by
  intro console pointer
  let word := env.word session.world handle
  obtain ⟨early, blitted⟩ := draw_exact cooperates (console.brush.blit word size damage) session
  obtain ⟨late, drawn⟩ := draw_exact cooperates
    (console.overlay.drawing console.brush word size pointer) { session with
      world := early
      history := (console.brush.blit word size damage).reverse.map Effect.drew
        ++ session.history }
  refine ⟨late, ?_⟩
  have ran : drawFrame env size damage handle session = (do
      draw env (console.brush.blit word size damage)
      draw env (console.overlay.drawing console.brush word size pointer)
      onConsole fun now => { now with overlay := now.overlay.drawnAt pointer }) session := rfl
  rw [ran, bind_ok blitted, bind_ok drawn, Overlay.strokes, List.reverse_append, List.map_append,
    List.append_assoc]
  rfl

section Render
variable {last : Option Picture} {ready : Session σ}

/-- What is not damaged already has the colour that it is to have under the old cursor. -/
theorem undamaged_color {x y : Nat} (shown : ShownAt screen palette last ready x y)
    (damaged : ready.console.guest.damage.rect.Has x y ∨
      ∃ earlier, last = some earlier ∧ earlier.bit? x y = some ((pictureAt env ready).bit x y))
    (xInside : x < ready.console.guest.display.width.toNat)
    (yInside : y < ready.console.guest.display.height.toNat) :
    ready.console.guest.damage.rect.Has x y ∨
      lastColor ((centeredOrigin screen ready.console.guest.display).offset x y) ready.history =
        some (Scene.color ⟨palette, pictureAt env ready, ready.console.overlay.glyph,
          ready.console.overlay.previous⟩ x y) := by
  rcases damaged with here | ⟨earlier, same, unchanged⟩
  · exact .inl here
  · rcases shown with whole | ⟨picture, rendered, size, shows⟩
    · left
      rw [whole]
      exact covering_has xInside yInside
    · right
      rw [same] at rendered
      cases rendered
      rw [← size] at xInside yInside
      have bit : earlier.bit x y = (pictureAt env ready).bit x y := by
        rw [Picture.bit?, if_pos ⟨xInside, yInside⟩] at unchanged
        exact Option.some.inj unchanged
      rw [shows, Scene.color, Scene.color, bit]

theorem settled_previous :
    (ready.settled env).console.overlay.previous = ready.console.overlay.previous := by
  simp only [Session.settled]
  cases ready.console.guest.newGlyph <;> rfl

theorem settled_glyph (glyph : lastGlyph ready.history =
      ready.console.guest.newGlyph.getD ready.console.overlay.glyph) :
    lastGlyph ready.history = (ready.settled env).console.overlay.glyph := by
  rw [glyph]
  simp only [Session.settled]
  cases ready.console.guest.newGlyph <;> rfl

theorem settled_still
    (still : (ready.settled env).console.overlay.needsRedraw ready.console.guest.pointer = false) :
    (ready.settled env).console.overlay = ready.console.overlay ∧
      ready.console.guest.pointer = ready.console.overlay.previous := by
  simp only [Overlay.needsRedraw, Bool.or_eq_false_iff, bne_eq_false_iff_eq] at still
  obtain ⟨fresh, still⟩ := still
  have noGlyph : ready.console.guest.newGlyph = none := by
    cases given : ready.console.guest.newGlyph with
    | none => rfl
    | some glyph => simp [Session.settled, given, Overlay.withGlyph] at fresh
  have overlay : (ready.settled env).console.overlay = ready.console.overlay := by
    simp only [Session.settled, noGlyph, Option.elim_none]
  rw [overlay] at still
  exact ⟨overlay, still⟩

theorem render_rendered (cooperates : Cooperates env screen)
    (coherent : Coherent screen palette last ready) (damaged : ChangesDamaged env last ready)
    (nonempty : ready.console.guest.display.isEmpty = false) :
    ∃ later, render env ready = .ok () later ∧
      Rendered screen palette (pictureAt env ready) later := by
  rw [render_eq nonempty]
  split
  case isTrue idle =>
    simp only [Bool.and_eq_true, Bool.not_eq_true'] at idle
    obtain ⟨undamaged, still⟩ := idle
    obtain ⟨overlay, still⟩ := settled_still still
    refine ⟨ready.settled env, rfl, coherent.brush, rfl, pictureAt_size ready, rfl, ?_, ?_, ?_⟩
    · have glyph : lastGlyph ready.history = (ready.settled env).console.overlay.glyph :=
        settled_glyph coherent.glyph
      exact glyph
    · rw [overlay]
      exact still.symm
    · rw [overlay]
      intro x y xInside yInside
      rw [pictureAt_size] at xInside yInside
      rcases undamaged_color (coherent.shownAt xInside yInside) (damaged x y xInside yInside)
          xInside yInside with here | shown
      · rw [has_area here] at undamaged
        cases undamaged
      · exact shown
  case isFalse =>
    let size := ready.console.guest.display
    let overlay := (ready.settled env).console.overlay
    obtain ⟨handle, granted⟩ :=
      Option.isSome_iff_exists.mp (cooperates.grants size ready.world nonempty)
    let asked : Session σ := { ready.settled env with
      world := (env.displayBits size ready.world).2
      history := .askedDisplayBits size (env.displayBits size ready.world).1.isSome ::
        ready.history }
    have picture : pictureAt env ready = ⟨size, env.word asked.world handle⟩ := by
      have pair : env.displayBits size ready.world = (some handle, asked.world) :=
        Prod.ext granted rfl
      simp only [pictureAt, size, pair]
    have askRan : askDisplayBits env size (ready.settled env) =
        .ok (env.displayBits size ready.world).1 asked := rfl
    obtain ⟨world, drawRan⟩ :=
      drawFrame_exact cooperates size ready.console.guest.damage.rect handle asked
    rw [bind_ok askRan, granted]
    refine ⟨_, drawRan, coherent.brush, rfl, pictureAt_size ready, rfl, ?_, rfl, ?_⟩
    · change lastGlyph (_ ++ asked.history) = overlay.glyph
      rw [lastGlyph_drawn, lastGlyph_cons]
      exact settled_glyph coherent.glyph
    · have brush : asked.console.brush = ⟨palette, centeredOrigin screen size⟩ := by
        simp only [asked, Session.settled, cooperates.steady, ← coherent.brush, size]
      have previous : overlay.previous = ready.console.overlay.previous := settled_previous
      change Shows ((overlay.strokes asked.console.brush ⟨size, env.word asked.world handle⟩
          ready.console.guest.damage.rect ready.console.guest.pointer).reverse.map Effect.drew
            ++ asked.history) (centeredOrigin screen size)
        ⟨palette, pictureAt env ready, overlay.glyph, ready.console.guest.pointer⟩
      rw [picture, brush]
      refine drawing_shows ready.console.guest.pointer fun x y xInside yInside => ?_
      rcases undamaged_color (coherent.shownAt xInside yInside) (damaged x y xInside yInside)
          xInside yInside with here | shown
      · exact .inl here
      · right
        rw [Scene.color] at shown
        split at shown
        case isTrue covered =>
          left
          rw [previous]
          exact ⟨_, covered⟩
        case isFalse =>
          right
          rw [picture] at shown
          rw [← shown]
          exact lastColor_skip (by intro stroke drawn; cases drawn)

end Render

end Rendering

end GuestConsole
