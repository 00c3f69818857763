import GuestConsole.Proofs.RenderedStrokes

/-!
# Frames that the screen breaks off

A frame ends where the screen refuses a pixel, and a later frame may go on.  The damage of
the broken frame is gone by then and the place of its cursor is not remembered, so what it
has left undone is drawn only when a later frame happens to draw there.  All other pixels
show the bitmap and the cursor.
-/

set_option autoImplicit false

namespace GuestConsole

open GuestConsole.Action GuestConsole.Console GuestConsole.Display

variable {σ : Type}

section Definitions
variable (env : Environment σ)

def Console.plannedStrokes (ready : Session σ) : List Stroke :=
  if needsDrawing env ready then renderStrokes env ready else []

/-- What rendering leaves undone if the screen refuses a pixel: the strokes from there on, and
those of the cursor, which is remembered in its old place. -/
def Console.undoneStrokes (ready : Session σ) : List Stroke :=
  match render env ready with
  | .ok _ _ => []
  | .error _ later =>
      (renderStrokes env ready).drop (ready.strokesSince later).length ++ cursorStrokes env ready

def Console.Draws (before : Session σ) (point : Point) : Prop :=
  Touches ((ready? env before).elim [] (plannedStrokes env)) point

/-- A frame that begins so leaves something undone at this point. -/
def Console.Spoils (before : Session σ) (point : Point) : Prop :=
  Touches ((ready? env before).elim [] (undoneStrokes env)) point

instance (before : Session σ) (point : Point) : Decidable (Draws env before point) :=
  inferInstanceAs (Decidable (Touches _ _))

instance (before : Session σ) (point : Point) : Decidable (Spoils env before point) :=
  inferInstanceAs (Decidable (Touches _ _))

/-- One of the first frames has left something undone here, and none after it has come to
draw here. -/
def Session.Spoiled (start : Session σ) (count : Nat) (point : Point) : Prop :=
  ∃ frames < count, Spoils env (start.afterFrames env frames) point ∧
    ∀ other < count, frames < other → ¬ Draws env (start.afterFrames env other) point

instance (start : Session σ) (count : Nat) (point : Point) :
    Decidable (start.Spoiled env count point) :=
  inferInstanceAs (Decidable (∃ frames < count, _ ∧ ∀ other < count, _ → _))

def Session.lastFaced (start : Session σ) : Nat → Option Picture
  | 0 => none
  | count + 1 =>
      match ready? env (start.afterFrames env count) with
      | none => start.lastFaced count
      | some ready => some (pictureAt env ready)

def Session.ReportsEachUpTo (start : Session σ) (count : Nat) : Prop :=
  ∀ frames < count, ∀ earlier, start.lastFaced env frames = some earlier →
    ReportsChanges env (start.afterFrames env frames) earlier

end Definitions

/-! ## Between frames -/

/-- Between frames all is damaged, or the screen shows what was last rendered, except at
spoiled points. -/
structure CoherentExcept (screen : Extent) (palette : Palette) (last : Option Picture)
    (spoiled : Point → Prop) (session : Session σ) : Prop where
  brush : session.console.brush.palette = palette
  within : session.console.guest.damage.rect.Within session.console.guest.display
  glyph : lastGlyph session.history =
    session.console.guest.newGlyph.getD session.console.overlay.glyph
  shown : ∀ x y, x < session.console.guest.display.width.toNat →
    y < session.console.guest.display.height.toNat →
    ¬ spoiled ((centeredOrigin screen session.console.guest.display).offset x y) →
    ShownAt screen palette last session x y

structure RenderedExcept (screen : Extent) (palette : Palette) (picture : Picture)
    (spoiled : Point → Prop) (session : Session σ) : Prop where
  brush : session.console.brush.palette = palette
  damage : session.console.guest.damage = {}
  size : picture.size = session.console.guest.display
  newGlyph : session.console.guest.newGlyph = none
  glyph : lastGlyph session.history = session.console.overlay.glyph
  shown : ∀ x y, x < session.console.guest.display.width.toNat →
    y < session.console.guest.display.height.toNat →
    ¬ spoiled ((centeredOrigin screen session.console.guest.display).offset x y) →
    lastColor ((centeredOrigin screen session.console.guest.display).offset x y)
      session.history = some (Scene.color ⟨palette, picture, session.console.overlay.glyph,
        session.console.overlay.previous⟩ x y)

section Between
variable {screen : Extent} {palette : Palette} {last : Option Picture} {picture : Picture}
  {spoiled spoiled' : Point → Prop} {before session : Session σ}

theorem CoherentExcept.start (coherent : CoherentExcept screen palette last spoiled session) :
    Ready session session :=
  ⟨rfl, rfl, fun _ => rfl, coherent.glyph, coherent.within, [], rfl, marks_start _⟩

theorem Ready.coherentExcept (ready : Ready before session)
    (coherent : CoherentExcept screen palette last spoiled before) :
    CoherentExcept screen palette last spoiled session := by
  refine ⟨ready.palette.trans coherent.brush, ready.within, ready.glyph, ?_⟩
  intro x y xInside yInside sound
  apply ready.shownAt
  intro display
  rw [display] at xInside yInside sound
  exact coherent.shown x y xInside yInside sound

theorem CoherentExcept.mono (coherent : CoherentExcept screen palette last spoiled session)
    (sound : ∀ point, ¬ spoiled' point → ¬ spoiled point) :
    CoherentExcept screen palette last spoiled' session :=
  ⟨coherent.brush, coherent.within, coherent.glyph, fun x y xInside yInside unspoiled =>
    coherent.shown x y xInside yInside (sound _ unspoiled)⟩

theorem CoherentExcept.later {later : Session σ}
    (coherent : CoherentExcept screen palette last spoiled session)
    (console : later.console = session.console)
    (colors : ∀ point, lastColor point later.history = lastColor point session.history)
    (glyph : lastGlyph later.history = lastGlyph session.history) :
    CoherentExcept screen palette last spoiled later := by
  obtain ⟨_, world, history⟩ := later
  obtain rfl := console
  refine ⟨coherent.brush, coherent.within, glyph.trans coherent.glyph, ?_⟩
  intro x y xInside yInside sound
  rcases coherent.shown x y xInside yInside sound with whole | ⟨picture, rendered, size, shows⟩
  · exact .inl whole
  · exact .inr ⟨picture, rendered, size, (colors _).trans shows⟩

theorem RenderedExcept.coherentExcept
    (rendered : RenderedExcept screen palette picture spoiled session) :
    CoherentExcept screen palette (some picture) spoiled session := by
  refine ⟨rendered.brush, ?_, ?_, ?_⟩
  · rw [rendered.damage]
    exact ⟨Nat.zero_le _, Nat.zero_le _⟩
  · rw [rendered.glyph, rendered.newGlyph]
    rfl
  · intro x y xInside yInside sound
    exact .inr ⟨picture, rfl, rendered.size, rendered.shown x y xInside yInside sound⟩

theorem RenderedExcept.later {later : Session σ}
    (rendered : RenderedExcept screen palette picture spoiled session)
    (console : later.console = session.console)
    (colors : ∀ point, lastColor point later.history = lastColor point session.history)
    (glyph : lastGlyph later.history = lastGlyph session.history) :
    RenderedExcept screen palette picture spoiled later := by
  obtain ⟨_, world, history⟩ := later
  obtain rfl := console
  refine ⟨rendered.brush, rendered.damage, rendered.size, rendered.newGlyph,
    glyph.trans rendered.glyph, ?_⟩
  intro x y xInside yInside sound
  exact (colors _).trans (rendered.shown x y xInside yInside sound)

end Between

/-! ## Rendering -/

section Rendering
variable {env : Environment σ} {screen : Extent} {palette : Palette} {last : Option Picture}
  {spoiled spoiled' : Point → Prop} {ready : Session σ} {x y : Nat}

theorem undoneStrokes_broken {done : List Stroke} {stroke : Stroke} {rest : List Stroke}
    {world : σ} (parts : renderStrokes env ready = done ++ stroke :: rest)
    (ran : render env ready = .error .screenRefused ((ready.asked env).drawn done world)) :
    undoneStrokes env ready = stroke :: rest ++ cursorStrokes env ready := by
  rw [undoneStrokes, ran]
  simp only [strokesSince_drawn env done world (.inl rfl), parts, List.drop_left]

theorem undrawn_of_idle (nonempty : ready.console.guest.display.isEmpty = false)
    (idle : needsDrawing env ready = false) :
    plannedStrokes env ready = [] ∧ ready.console.guest.damage.rect.isEmpty = true ∧
      (ready.settled env).console.overlay = ready.console.overlay ∧
      ready.console.guest.pointer = ready.console.overlay.previous := by
  have planned : plannedStrokes env ready = [] := by simp [plannedStrokes, idle]
  simp only [needsDrawing, nonempty, Bool.not_false, Bool.true_and, Bool.or_eq_false_iff,
    Bool.not_eq_false'] at idle
  exact ⟨planned, idle.1, settled_still idle.2⟩

theorem drawn_glyph (glyph : lastGlyph ready.history =
      (ready.settled env).console.overlay.glyph) (strokes : List Stroke) (world : σ) :
    lastGlyph ((ready.asked env).drawn strokes world).history =
      (ready.settled env).console.overlay.glyph := by
  change lastGlyph (_ ++ .askedDisplayBits _ _ :: ready.history) = _
  rw [lastGlyph_drawn, lastGlyph_cons]
  exact glyph

section Pixel
variable (steady : ∀ world, env.extent world = screen)
  (brush : ready.console.brush.palette = palette)
include steady brush

theorem settled_brush : (ready.settled env).console.brush =
    ⟨palette, centeredOrigin screen ready.console.guest.display⟩ := by
  simp only [Session.settled, steady, ← brush]

theorem renderStrokes_eq : renderStrokes env ready =
    (ready.settled env).console.overlay.strokes
      ⟨palette, centeredOrigin screen ready.console.guest.display⟩ (pictureAt env ready)
      ready.console.guest.damage.rect ready.console.guest.pointer := by
  rw [← settled_brush steady brush]
  rfl

theorem cursorStrokes_eq : cursorStrokes env ready =
    (ready.settled env).console.overlay.drawing
      ⟨palette, centeredOrigin screen ready.console.guest.display⟩ (pictureAt env ready).word
      (pictureAt env ready).size ready.console.guest.pointer := by
  rw [← settled_brush steady brush]
  rfl

variable (xInside : x < ready.console.guest.display.width.toNat)
  (yInside : y < ready.console.guest.display.height.toNat)
include xInside yInside

theorem touched_or_shown
    (unchanged : ready.console.guest.damage.rect.Has x y ∨
      lastColor ((centeredOrigin screen ready.console.guest.display).offset x y) ready.history =
        some (Scene.color ⟨palette, pictureAt env ready, ready.console.overlay.glyph,
          ready.console.overlay.previous⟩ x y)) :
    Touches (renderStrokes env ready)
        ((centeredOrigin screen ready.console.guest.display).offset x y) ∨
      lastColor ((centeredOrigin screen ready.console.guest.display).offset x y) ready.history =
        some (palette.ofBit ((pictureAt env ready).bit x y)) := by
  have size : (pictureAt env ready).size = ready.console.guest.display := pictureAt_size ready
  rw [← size] at xInside yInside
  rw [renderStrokes_eq steady brush]
  rcases unchanged with damaged | shown
  · left
    exact touches_append.mpr (.inl (touches_damaged damaged xInside yInside))
  · by_cases covered :
        ready.console.overlay.glyph.Covers ready.console.overlay.previous x y
    · left
      rw [← settled_previous] at covered
      exact touches_append.mpr (.inr (touches_old_cursor _ covered xInside yInside))
    · right
      rw [Scene.color, if_neg covered] at shown
      exact shown

theorem redrawn_color {world : σ}
    (shown : Touches (renderStrokes env ready)
        ((centeredOrigin screen ready.console.guest.display).offset x y) ∨
      lastColor ((centeredOrigin screen ready.console.guest.display).offset x y) ready.history =
        some (palette.ofBit ((pictureAt env ready).bit x y))) :
    lastColor ((centeredOrigin screen ready.console.guest.display).offset x y)
        (ready.redrawn env world).history =
      some (Scene.color ⟨palette, pictureAt env ready, (ready.settled env).console.overlay.glyph,
        ready.console.guest.pointer⟩ x y) := by
  have size : (pictureAt env ready).size = ready.console.guest.display := pictureAt_size ready
  rw [← size] at xInside yInside
  rw [renderStrokes_eq steady brush, ← asked_color env ready] at shown
  have drawn := drawing_color ready.console.guest.pointer xInside yInside shown
  rw [← renderStrokes_eq steady brush] at drawn
  exact drawn

theorem broken_off_color {done lost : List Stroke} {world : σ}
    (parts : renderStrokes env ready = done ++ lost)
    (kept : ¬ Touches lost ((centeredOrigin screen ready.console.guest.display).offset x y))
    (clear : ¬ Touches (cursorStrokes env ready)
      ((centeredOrigin screen ready.console.guest.display).offset x y))
    (shown : Touches (renderStrokes env ready)
        ((centeredOrigin screen ready.console.guest.display).offset x y) ∨
      lastColor ((centeredOrigin screen ready.console.guest.display).offset x y) ready.history =
        some (palette.ofBit ((pictureAt env ready).bit x y))) :
    lastColor ((centeredOrigin screen ready.console.guest.display).offset x y)
        ((ready.asked env).drawn done world).history =
      some (Scene.color ⟨palette, pictureAt env ready, (ready.settled env).console.overlay.glyph,
        (ready.settled env).console.overlay.previous⟩ x y) := by
  have size : (pictureAt env ready).size = ready.console.guest.display := pictureAt_size ready
  rw [← size] at xInside yInside
  rw [renderStrokes_eq steady brush] at parts
  rw [renderStrokes_eq steady brush, ← asked_color env ready] at shown
  rw [cursorStrokes_eq steady brush] at clear
  have uncovered : ¬ (ready.settled env).console.overlay.glyph.Covers
      (ready.settled env).console.overlay.previous x y := by
    intro covered
    exact clear (touches_old_cursor _ covered xInside yInside)
  have drawn := broken_color parts kept clear xInside yInside shown
  rw [Scene.color, if_neg uncovered]
  exact drawn

end Pixel

/-- On an unspoiled pixel the screen keeps up with rendering, also where it breaks that off. -/
theorem render_except (steady : ∀ world, env.extent world = screen)
    (grants : ∀ size world, size.isEmpty = false → (env.displayBits size world).1.isSome)
    (coherent : CoherentExcept screen palette last spoiled ready)
    (damaged : ∀ x y, x < ready.console.guest.display.width.toNat →
      y < ready.console.guest.display.height.toNat →
      ¬ spoiled ((centeredOrigin screen ready.console.guest.display).offset x y) →
      ready.console.guest.damage.rect.Has x y ∨ ∃ earlier, last = some earlier ∧
        earlier.bit? x y = some ((pictureAt env ready).bit x y))
    (sound : ∀ point, ¬ spoiled' point → ¬ Touches (undoneStrokes env ready) point ∧
      (Touches (plannedStrokes env ready) point ∨ ¬ spoiled point))
    (nonempty : ready.console.guest.display.isEmpty = false) :
    RenderedExcept screen palette (pictureAt env ready) spoiled'
        (Action.after (render env) ready) ∧
      ∀ later, render env ready = .ok () later →
        later.console.overlay.previous = later.console.guest.pointer := by
  have size : (pictureAt env ready).size = ready.console.guest.display := pictureAt_size ready
  have glyph : lastGlyph ready.history = (ready.settled env).console.overlay.glyph :=
    settled_glyph coherent.glyph
  have unchanged {x y : Nat} (xInside : x < ready.console.guest.display.width.toNat)
      (yInside : y < ready.console.guest.display.height.toNat)
      (unspoiled : ¬ spoiled ((centeredOrigin screen ready.console.guest.display).offset x y)) :=
    undamaged_color (coherent.shown x y xInside yInside unspoiled)
      (damaged x y xInside yInside unspoiled) xInside yInside
  have touched (needed : needsDrawing env ready = true) {x y : Nat}
      (xInside : x < ready.console.guest.display.width.toNat)
      (yInside : y < ready.console.guest.display.height.toNat)
      (unspoiled : ¬ spoiled'
        ((centeredOrigin screen ready.console.guest.display).offset x y)) :
      Touches (renderStrokes env ready)
          ((centeredOrigin screen ready.console.guest.display).offset x y) ∨
        lastColor ((centeredOrigin screen ready.console.guest.display).offset x y)
          ready.history = some (palette.ofBit ((pictureAt env ready).bit x y)) := by
    have planned : plannedStrokes env ready = renderStrokes env ready := by
      simp only [plannedStrokes, needed, if_true]
    rcases (sound _ unspoiled).2 with here | before
    · rw [planned] at here
      exact .inl here
    · exact touched_or_shown steady coherent.brush xInside yInside
        (unchanged xInside yInside before)
  have cases := render_cases env ready
  generalize ran : render env ready = result at cases
  cases cases with
  | hidden empty =>
      rw [nonempty] at empty
      cases empty
  | idle _ idle =>
      obtain ⟨planned, clean, overlay, still⟩ := undrawn_of_idle nonempty idle
      rw [after_ok ran]
      refine ⟨⟨coherent.brush, rfl, size, rfl, glyph, ?_⟩, ?_⟩
      · intro x y xInside yInside unspoiled
        have before := (sound _ unspoiled).2.resolve_left (by rw [planned]; exact List.not_mem_nil)
        rcases unchanged xInside yInside before with here | shown
        · rw [has_area here] at clean
          cases clean
        · rw [overlay]
          exact shown
      · intro later same
        cases same
        rw [overlay]
        exact still.symm
  | bare _ denied =>
      have granted := grants _ ready.world nonempty
      rw [denied] at granted
      cases granted
  | drawn world needed =>
      rw [after_ok ran]
      refine ⟨⟨coherent.brush, rfl, size, rfl, drawn_glyph glyph _ world, ?_⟩, ?_⟩
      · intro x y xInside yInside unspoiled
        exact redrawn_color steady coherent.brush xInside yInside
          (touched needed xInside yInside unspoiled)
      · intro later same
        cases same
        rfl
  | broken done stroke rest world needed parts =>
      have undone := undoneStrokes_broken parts ran
      rw [after_error ran]
      refine ⟨⟨coherent.brush, rfl, size, rfl, drawn_glyph glyph done world, ?_⟩, ?_⟩
      · rw [drawn_console, asked_console, settled_display]
        intro x y xInside yInside unspoiled
        have clear := (sound _ unspoiled).1
        rw [undone, touches_append, not_or] at clear
        exact broken_off_color steady coherent.brush xInside yInside parts clear.1 clear.2
          (touched needed xInside yInside unspoiled)
      · intro later same
        cases same

end Rendering

/-! ## Frames -/

section Frames
variable {env : Environment σ} {screen : Extent} {palette : Palette} {last : Option Picture}
  {spoiled spoiled' : Point → Prop} {before : Session σ}

theorem frame_except (steady : ∀ world, env.extent world = screen)
    (grants : ∀ size world, size.isEmpty = false → (env.displayBits size world).1.isSome)
    (coherent : CoherentExcept screen palette last spoiled before)
    (reports : ∀ earlier, last = some earlier → ReportsChanges env before earlier)
    (sound : ∀ point, ¬ spoiled' point →
      ¬ Spoils env before point ∧ (Draws env before point ∨ ¬ spoiled point)) :
    CoherentExcept screen palette (((ready? env before).map (pictureAt env)).or last) spoiled'
        (Action.after (frame env) before) ∧
      ∀ later, frame env before = .ok .again later →
        later.console.guest.display.isEmpty = false →
        RenderedExcept screen palette
            (pictureAt env (Action.after (beforeRender env) before)) spoiled' later ∧
          later.console.overlay.previous = later.console.guest.pointer := by
  have start := beforeRender_ready env coherent.start
  have readyCoherent := start.coherentExcept coherent
  rcases frame_ready env before with ⟨ready, reached, run, nonempty, rest⟩ |
    ⟨unreached, hidden, rested⟩
  · rw [after_ok run] at start readyCoherent ⊢
    have damaged : ∀ x y, x < ready.console.guest.display.width.toNat →
        y < ready.console.guest.display.height.toNat →
        ¬ spoiled ((centeredOrigin screen ready.console.guest.display).offset x y) →
        ready.console.guest.damage.rect.Has x y ∨ ∃ earlier, last = some earlier ∧
          earlier.bit? x y = some ((pictureAt env ready).bit x y) := by
      intro x y xInside yInside unspoiled
      have shown (display : (Action.after (beforeRender env) before).console.guest.display =
          before.console.guest.display) : ShownAt screen palette last before x y := by
        rw [after_ok run] at display
        rw [display] at xInside yInside unspoiled
        exact coherent.shown x y xInside yInside unspoiled
      have change := change_damaged coherent.start shown reports
      rw [after_ok run] at change
      exact change xInside yInside
    have renders : ∀ point, ¬ spoiled' point → ¬ Touches (undoneStrokes env ready) point ∧
        (Touches (plannedStrokes env ready) point ∨ ¬ spoiled point) := by
      intro point unspoiled
      have here := sound point unspoiled
      simp only [Spoils, Draws, reached, Option.elim_some] at here
      exact here
    obtain ⟨rendered, pointer⟩ :=
      render_except steady grants readyCoherent damaged renders nonempty
    rw [reached, Option.map_some, Option.some_or]
    cases drew : render env ready with
    | error halt broken =>
        rw [renderAndPause, bind_error drew] at rest
        rw [after_error rest, ← after_error drew]
        refine ⟨rendered.coherentExcept, ?_⟩
        intro later goesOn
        rw [rest] at goesOn
        cases goesOn
    | ok answer drawn =>
        obtain ⟨later, paused, rested⟩ := pause_rested env drawn
        rw [renderAndPause, bind_ok drew, bind_ok paused] at rest
        rw [after_ok drew] at rendered
        have whole := rendered.later rested.console rested.colors rested.glyph
        rw [after_ok rest]
        refine ⟨whole.coherentExcept, ?_⟩
        intro other goesOn _
        rw [rest] at goesOn
        cases goesOn
        refine ⟨whole, ?_⟩
        rw [rested.console]
        exact pointer drawn drew
  · have kept : ∀ point, ¬ spoiled' point → ¬ spoiled point := by
      intro point unspoiled
      have here := (sound point unspoiled).2
      simp only [Draws, unreached, Option.elim_none] at here
      exact here.resolve_left List.not_mem_nil
    rw [unreached, Option.map_none, Option.none_or]
    refine ⟨(readyCoherent.mono kept).later rested.console rested.colors rested.glyph, ?_⟩
    intro later goesOn nonempty
    rw [hidden later goesOn] at nonempty
    cases nonempty

/-! ## Runs -/

theorem lastFaced_succ (start : Session σ) (count : Nat) :
    start.lastFaced env (count + 1) =
      ((ready? env (start.afterFrames env count)).map (pictureAt env)).or
        (start.lastFaced env count) := by
  rw [Session.lastFaced]
  cases ready? env (start.afterFrames env count) <;> rfl

theorem not_spoiled_succ {start : Session σ} {count : Nat} {point : Point}
    (sound : ¬ start.Spoiled env (count + 1) point) :
    ¬ Spoils env (start.afterFrames env count) point ∧
      (Draws env (start.afterFrames env count) point ∨ ¬ start.Spoiled env count point) := by
  constructor
  · intro spoils
    apply sound
    refine ⟨count, Nat.lt_succ_self count, spoils, ?_⟩
    intro other small later
    omega
  · by_cases draws : Draws env (start.afterFrames env count) point
    · exact .inl draws
    · right
      rintro ⟨frames, few, spoils, undrawn⟩
      apply sound
      refine ⟨frames, Nat.lt_succ_of_lt few, spoils, ?_⟩
      intro other small later
      by_cases last : other = count
      · rw [last]
        exact draws
      · exact undrawn other (by omega) later

theorem afterFrames_except {start : Session σ} (steady : ∀ world, env.extent world = screen)
    (grants : ∀ size world, size.isEmpty = false → (env.displayBits size world).1.isSome)
    (coherent : CoherentExcept screen palette none (start.Spoiled env 0) start) (count : Nat)
    (reports : start.ReportsEachUpTo env count) :
    CoherentExcept screen palette (start.lastFaced env count) (start.Spoiled env count)
      (start.afterFrames env count) := by
  induction count with
  | zero => exact coherent
  | succ count ih =>
      have earlier := ih fun frames few => reports frames (Nat.lt_succ_of_lt few)
      rw [lastFaced_succ]
      exact (frame_except steady grants earlier (reports count (Nat.lt_succ_self count))
        fun point => not_spoiled_succ).1

end Frames

theorem Coherent.except {screen : Extent} {palette : Palette} {last : Option Picture}
    {session : Session σ} (coherent : Coherent screen palette last session)
    (spoiled : Point → Prop) : CoherentExcept screen palette last spoiled session :=
  ⟨coherent.brush, coherent.within, coherent.glyph, fun _ _ xInside yInside _ =>
    coherent.shownAt xInside yInside⟩

/-- On a screen of constant size that may refuse pixels, and with a guest that has a bitmap
for every display and reports each change in its frame, every frame that goes on to the next
leaves the display showing the bitmap and the cursor, except where a broken frame has left
something undone and no frame has come to draw since. -/
theorem screen_shows_all_but_spoiled {env : Environment σ} {config : Config}
    {console : Console} {screen : Extent}
    (created : Console.create config env.keyboard.mode = .ok console)
    (steady : ∀ world, env.extent world = screen)
    (grants : ∀ size world, size.isEmpty = false → (env.displayBits size world).1.isSome)
    (world : σ) (frames : Nat)
    (reports : Session.ReportsEachUpTo env ⟨console, world, []⟩ (frames + 1))
    {later : Session σ}
    (continues : frame env (Session.afterFrames env ⟨console, world, []⟩ frames) =
      .ok .again later) :
    let display := later.console.guest.display
    let scene : Scene := {
      palette := Palette.ofRgb config.display.foreground config.display.background
        config.display.cursorColor
      picture := pictureAt env (Action.after (beforeRender env)
        (Session.afterFrames env ⟨console, world, []⟩ frames))
      glyph := lastGlyph later.history
      pointer := later.console.guest.pointer }
    ∀ x y, x < display.width.toNat → y < display.height.toNat →
      ¬ Session.Spoiled env ⟨console, world, []⟩ (frames + 1)
        ((centeredOrigin screen display).offset x y) →
      lastColor ((centeredOrigin screen display).offset x y) later.history =
        some (scene.color x y) := by
  intro display scene x y xInside yInside unspoiled
  have coherent := afterFrames_except steady grants
    ((created_coherent created screen world).except _) frames
    fun earlier few => reports earlier (Nat.lt_succ_of_lt few)
  obtain ⟨_, rendered⟩ := frame_except steady grants coherent
    (reports frames (Nat.lt_succ_self frames)) fun point => not_spoiled_succ
  obtain ⟨shows, pointer⟩ := rendered later continues (has_area (covering_has xInside yInside))
  have shown := shows.shown x y xInside yInside unspoiled
  rw [← shows.glyph, pointer] at shown
  exact shown

/-! ### A screen that refuses the first frame -/

/-- The guest sets up a display of two words, and the screen refuses all pixels of the first
frame.  The world counts the frames. -/
def onceRefusing : Environment Nat where
  ticks _ := 0
  unixSeconds _ := 0
  keyboard := .raw fun world => ([], world)
  mouse world := ({ point := ⟨0, 0⟩ }, world)
  moveMouse _ world := world
  refreshCursor world := world
  wait _ world := world
  extent _ := ⟨32, 1⟩
  put _ _ world := if world = 1 then none else some world
  signal _ world := world
  displayBits _ world := (some 1, world)
  word _ _ index := if index = 0 then 0x0FF0 else 0x5555
  lowMemory world := world + 1
  step world :=
    if world = 1 then .call world (.setDisplaySize ⟨32, 1⟩) fun _ => .done world
    else .done world

theorem onceRefusing_pictureAt (session : Session Nat)
    (display : session.console.guest.display = ⟨32, 1⟩) :
    pictureAt onceRefusing session =
      ⟨⟨32, 1⟩, fun index => if index = 0 then 0x0FF0 else 0x5555⟩ := by
  rw [pictureAt, display]
  rfl

theorem onceRefusing_reports (start : Session Nat)
    (first : (ready? onceRefusing start).map (fun ready => ready.console.guest.display) =
      some ⟨32, 1⟩)
    (second : (Action.after (beforeRender onceRefusing)
      (start.afterFrames onceRefusing 1)).console.guest.display = ⟨32, 1⟩) :
    start.ReportsEachUpTo onceRefusing 2 := by
  intro frames few earlier faced x y xInside yInside changed
  exfalso
  by_cases begun : frames = 0
  · subst begun
    cases faced
  · obtain rfl : frames = 1 := by omega
    obtain ⟨ready, reached, display⟩ := Option.map_eq_some_iff.mp first
    have shown : start.lastFaced onceRefusing 1 = some (pictureAt onceRefusing ready) := by
      have came : ready? onceRefusing (start.afterFrames onceRefusing 0) = some ready := reached
      rw [lastFaced_succ, came]
      rfl
    rw [shown, onceRefusing_pictureAt ready display] at faced
    cases faced
    rw [onceRefusing_pictureAt _ second] at xInside yInside changed
    rw [Picture.bit?, if_pos ⟨xInside, yInside⟩] at changed
    exact changed rfl

/-- The second frame draws the first word and the cursor in it. -/
theorem screen_shows_first_word_after_refusal :
    ∃ console, Console.create { cyclesPerFrame := 100 } onceRefusing.keyboard.mode =
        .ok console ∧
      let start : Session Nat := { console, world := 0 }
      start.ReportsEachUpTo onceRefusing 2 ∧
      ∃ later, frame onceRefusing (start.afterFrames onceRefusing 1) = .ok .again later ∧
        ∀ x < 16, ¬ start.Spoiled onceRefusing 2
            ((centeredOrigin ⟨32, 1⟩ ⟨32, 1⟩).offset x 0) ∧
          lastColor ((centeredOrigin ⟨32, 1⟩ ⟨32, 1⟩).offset x 0) later.history =
            some (Scene.color ⟨⟨⟨0, 0, 0⟩, ⟨255, 255, 255⟩, ⟨0, 0, 0⟩⟩,
              ⟨⟨32, 1⟩, fun index => if index = 0 then 0x0FF0 else 0x5555⟩, Glyph.arrow,
              ⟨0, 0⟩⟩ x 0) := by
  have created : Console.create { cyclesPerFrame := 100 } onceRefusing.keyboard.mode =
    .ok _ := rfl
  refine ⟨_, created, ?_⟩
  intro start
  have second : (Action.after (beforeRender onceRefusing)
      (start.afterFrames onceRefusing 1)).console.guest.display = ⟨32, 1⟩ := by decide +kernel
  have reports : start.ReportsEachUpTo onceRefusing 2 :=
    onceRefusing_reports start (by decide +kernel) second
  have facts : lastGlyph (start.afterFrames onceRefusing 2).history = Glyph.arrow ∧
      (start.afterFrames onceRefusing 2).console.guest.pointer = ⟨0, 0⟩ ∧
      (start.afterFrames onceRefusing 2).console.guest.display = ⟨32, 1⟩ ∧
      ending (frame onceRefusing (start.afterFrames onceRefusing 1)) = .inr .again := by
    decide +kernel
  obtain ⟨glyph, pointer, display, goesOn⟩ := facts
  have unspoiled : ∀ x < 16, ¬ start.Spoiled onceRefusing 2
      ((centeredOrigin ⟨32, 1⟩ ⟨32, 1⟩).offset x 0) := by decide +kernel
  obtain ⟨later, continues⟩ := ending_ok goesOn
  have shows := screen_shows_all_but_spoiled created (fun _ => rfl) (fun _ _ _ => rfl) 0 1
    reports continues
  have reached : start.afterFrames onceRefusing 2 = later := after_ok continues
  rw [reached] at glyph pointer display
  rw [onceRefusing_pictureAt _ second, glyph, pointer, display] at shows
  have palette : Palette.ofRgb ({ cyclesPerFrame := 100 } : Config).display.foreground
      ({ cyclesPerFrame := 100 } : Config).display.background
      ({ cyclesPerFrame := 100 } : Config).display.cursorColor =
      ⟨⟨0, 0, 0⟩, ⟨255, 255, 255⟩, ⟨0, 0, 0⟩⟩ := by decide
  rw [palette] at shows
  refine ⟨reports, later, continues, ?_⟩
  intro x small
  have inside : x < 32 := by omega
  exact ⟨unspoiled x small, shows x 0 inside Nat.one_pos (unspoiled x small)⟩

/-- The second word is reported in the first frame only, and the second frame goes on without
drawing it. -/
theorem refused_word_stays_undrawn :
    ∃ console, Console.create { cyclesPerFrame := 100 } onceRefusing.keyboard.mode =
        .ok console ∧
      let start : Session Nat := { console, world := 0 }
      start.ReportsEachUpTo onceRefusing 2 ∧
      (∃ broken, frame onceRefusing start = .error .screenRefused broken) ∧
      ∃ later, frame onceRefusing (start.afterFrames onceRefusing 1) = .ok .again later ∧
        later.console.guest.display = ⟨32, 1⟩ ∧
        ∀ x, 16 ≤ x → x < 32 →
          lastColor ((centeredOrigin ⟨32, 1⟩ ⟨32, 1⟩).offset x 0) later.history = none := by
  have created : Console.create { cyclesPerFrame := 100 } onceRefusing.keyboard.mode =
    .ok _ := rfl
  refine ⟨_, created, ?_⟩
  intro start
  have reports : start.ReportsEachUpTo onceRefusing 2 :=
    onceRefusing_reports start (by decide +kernel) (by decide +kernel)
  have facts : ending (frame onceRefusing start) = .inl .screenRefused ∧
      ending (frame onceRefusing (start.afterFrames onceRefusing 1)) = .inr .again ∧
      (start.afterFrames onceRefusing 2).console.guest.display = ⟨32, 1⟩ ∧
      ∀ x < 32, 16 ≤ x → lastColor ((centeredOrigin ⟨32, 1⟩ ⟨32, 1⟩).offset x 0)
        (start.afterFrames onceRefusing 2).history = none := by decide +kernel
  obtain ⟨breaks, goesOn, display, undrawn⟩ := facts
  obtain ⟨later, continues⟩ := ending_ok goesOn
  have reached : start.afterFrames onceRefusing 2 = later := after_ok continues
  rw [reached] at display undrawn
  refine ⟨reports, ending_error breaks, later, continues, display, ?_⟩
  intro x low high
  exact undrawn x high low

end GuestConsole
