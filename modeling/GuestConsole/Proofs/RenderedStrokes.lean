import GuestConsole.Proofs.Screen

/-!
# Rendering on a screen that may refuse a pixel

Rendering plans its strokes and carries them out in order.  A refused pixel ends the
frame: what was drawn before it stays, and the rest is not drawn.
-/

set_option autoImplicit false

namespace GuestConsole

open GuestConsole.Action GuestConsole.Console GuestConsole.Display

variable {σ : Type}

def Effect.stroke? : Effect → Option Stroke
  | .drew stroke => some stroke
  | _ => none

def Session.strokesSince (before later : Session σ) : List Stroke :=
  ((before.since later).filterMap Effect.stroke?).reverse

/-! ## Drawing -/

def Session.drawn (session : Session σ) (strokes : List Stroke) (world : σ) : Session σ :=
  { session with
    world
    history := strokes.reverse.map Effect.drew ++ session.history }

@[simp] theorem drawn_console (session : Session σ) (strokes : List Stroke) (world : σ) :
    (session.drawn strokes world).console = session.console := rfl

theorem drawn_drawn (session : Session σ) (first second : List Stroke) (early late : σ) :
    (session.drawn first early).drawn second late = session.drawn (first ++ second) late := by
  simp only [Session.drawn, List.reverse_append, List.map_append, List.append_assoc]

theorem strokesSince_of_grown {before later : Session σ} {effects : List Effect}
    (grown : later.history = effects ++ before.history) :
    before.strokesSince later = (effects.filterMap Effect.stroke?).reverse := by
  rw [Session.strokesSince, since_of_grown grown]

section Frames
variable (env : Environment σ)

theorem draw_splits (strokes : List Stroke) (session : Session σ) :
    (∃ world, screenAfter env.put strokes session.world = some world ∧
      draw env strokes session = .ok () (session.drawn strokes world)) ∨
    (∃ done stroke rest world, strokes = done ++ stroke :: rest ∧
      screenAfter env.put done session.world = some world ∧
      stroke.paint? env.put world = none ∧
      draw env strokes session = .error .screenRefused (session.drawn done world)) := by
  rw [draw_eq]
  rcases carryOut_splits env.put strokes [] session.world with
    ⟨later, shown, carried⟩ | ⟨done, stroke, rest, later, parts, shown, refused, carried⟩
  · left
    refine ⟨later, shown, ?_⟩
    rw [carried, List.append_nil]
    rfl
  · right
    refine ⟨done, stroke, rest, later, parts, shown, refused, ?_⟩
    rw [carried, List.append_nil]
    rfl

/-- The damage and then the cursor are drawn as one list of strokes. -/
theorem drawFrame_splits (size : Size) (damage : Rect) (handle : UInt32) (session : Session σ) :
    let console := session.console
    let pointer := console.guest.pointer
    let strokes := console.overlay.strokes console.brush
      ⟨size, env.word session.world handle⟩ damage pointer
    (∃ world, screenAfter env.put strokes session.world = some world ∧
      drawFrame env size damage handle session = .ok () { session.drawn strokes world with
        console := { console with overlay := console.overlay.drawnAt pointer } }) ∨
    (∃ done stroke rest world, strokes = done ++ stroke :: rest ∧
      screenAfter env.put done session.world = some world ∧
      stroke.paint? env.put world = none ∧
      drawFrame env size damage handle session =
        .error .screenRefused (session.drawn done world)) := by
  intro console pointer strokes
  let word := env.word session.world handle
  let blitted := console.brush.blit word size damage
  let cursor := console.overlay.drawing console.brush word size pointer
  have ran : drawFrame env size damage handle session = (do
      draw env blitted
      draw env cursor
      onConsole fun now => { now with overlay := now.overlay.drawnAt pointer }) session := rfl
  rw [ran]
  rcases draw_splits env blitted session with
    ⟨early, shown, first⟩ | ⟨done, stroke, rest, world, parts, shown, refused, first⟩
  · have behind (more : List Stroke) : screenAfter env.put (blitted ++ more) session.world =
        screenAfter env.put more early := by
      rw [screenAfter_append, shown, Option.bind_some]
    rw [bind_ok first]
    rcases draw_splits env cursor (session.drawn blitted early) with
      ⟨late, shown, second⟩ | ⟨done, stroke, rest, world, parts, shown, refused, second⟩
    · left
      refine ⟨late, (behind cursor).trans shown, ?_⟩
      rw [bind_ok second, drawn_drawn]
      rfl
    · right
      refine ⟨blitted ++ done, stroke, rest, world, ?_, (behind done).trans shown, refused, ?_⟩
      · rw [List.append_assoc, ← parts]
        rfl
      · rw [bind_error second, drawn_drawn]
  · right
    refine ⟨done, stroke, rest ++ cursor, world, ?_, shown, refused, bind_error first⟩
    rw [← List.cons_append, ← List.append_assoc, ← parts]
    rfl

/-! ## Rendering -/

def Session.asked (ready : Session σ) : Session σ :=
  let display := ready.console.guest.display
  let answer := env.displayBits display ready.world
  { ready.settled env with
    world := answer.2
    history := .askedDisplayBits display answer.1.isSome :: ready.history }

@[simp] theorem asked_console (ready : Session σ) :
    (ready.asked env).console = (ready.settled env).console := rfl

@[simp] theorem asked_color (ready : Session σ) (point : Point) :
    lastColor point (ready.asked env).history = lastColor point ready.history := rfl

def Console.needsDrawing (ready : Session σ) : Bool :=
  !ready.console.guest.display.isEmpty && (!ready.console.guest.damage.rect.isEmpty
    || (ready.settled env).console.overlay.needsRedraw ready.console.guest.pointer)

theorem needsDrawing_of_damaged {ready : Session σ} {x y : Nat}
    (nonempty : ready.console.guest.display.isEmpty = false)
    (damaged : ready.console.guest.damage.rect.Has x y) : needsDrawing env ready = true := by
  simp only [needsDrawing, nonempty, has_area damaged, Bool.not_false, Bool.true_or, Bool.and_self]

/-- The strokes of the cursor: the band where it was and the glyph where it is to be. -/
def Console.cursorStrokes (ready : Session σ) : List Stroke :=
  let now := (ready.settled env).console
  let picture := pictureAt env ready
  now.overlay.drawing now.brush picture.word picture.size now.guest.pointer

def Console.renderStrokes (ready : Session σ) : List Stroke :=
  let now := (ready.settled env).console
  now.overlay.strokes now.brush (pictureAt env ready) ready.console.guest.damage.rect
    now.guest.pointer

def Session.redrawn (ready : Session σ) (world : σ) : Session σ :=
  let settled := ready.settled env
  { (ready.asked env).drawn (renderStrokes env ready) world with
    console := { settled.console with
      overlay := settled.console.overlay.drawnAt ready.console.guest.pointer } }

theorem drawn_history (ready : Session σ) (done : List Stroke) (world : σ) :
    ((ready.asked env).drawn done world).history =
      (done.reverse.map Effect.drew ++ [Effect.askedDisplayBits ready.console.guest.display
        (env.displayBits ready.console.guest.display ready.world).1.isSome]) ++ ready.history := by
  rw [List.append_assoc]
  rfl

theorem strokesSince_drawn {ready later : Session σ} (done : List Stroke) (world : σ)
    (ended : later.history = ((ready.asked env).drawn done world).history ∨
      ∃ ms, later.history = .waited ms :: ((ready.asked env).drawn done world).history) :
    ready.strokesSince later = done := by
  have each : Effect.stroke? ∘ Effect.drew = some := rfl
  have strokes : (done.reverse.map Effect.drew).filterMap Effect.stroke? = done.reverse := by
    rw [List.filterMap_map, each, List.filterMap_some]
  have grown := drawn_history env ready done world
  rcases ended with same | ⟨ms, same⟩
  · rw [strokesSince_of_grown (same.trans grown), List.filterMap_append, strokes]
    exact (congrArg List.reverse (List.append_nil _)).trans (List.reverse_reverse done)
  · rw [grown, ← List.cons_append] at same
    rw [strokesSince_of_grown same, List.filterMap_cons, List.filterMap_append, strokes]
    exact (congrArg List.reverse (List.append_nil _)).trans (List.reverse_reverse done)

inductive Console.Rendering (ready : Session σ) : EStateM.Result Halt (Session σ) Unit → Prop where
  | hidden (empty : ready.console.guest.display.isEmpty = true) : Rendering ready (.ok () ready)
  | idle (shown : ready.console.guest.display.isEmpty = false)
      (idle : needsDrawing env ready = false) : Rendering ready (.ok () (ready.settled env))
  | bare (shown : ready.console.guest.display.isEmpty = false)
      (denied : (env.displayBits ready.console.guest.display ready.world).1 = none) :
      Rendering ready (.ok () (ready.asked env))
  | drawn (world : σ) (needed : needsDrawing env ready = true)
      (shown : screenAfter env.put (renderStrokes env ready) (ready.asked env).world =
        some world) :
      Rendering ready (.ok () (ready.redrawn env world))
  | broken (done : List Stroke) (stroke : Stroke) (rest : List Stroke) (world : σ)
      (needed : needsDrawing env ready = true)
      (parts : renderStrokes env ready = done ++ stroke :: rest)
      (shown : screenAfter env.put done (ready.asked env).world = some world)
      (refused : stroke.paint? env.put world = none) :
      Rendering ready (.error .screenRefused ((ready.asked env).drawn done world))

theorem render_cases (ready : Session σ) : Rendering env ready (render env ready) := by
  cases empty : ready.console.guest.display.isEmpty with
  | true =>
      rw [render_hidden empty]
      exact .hidden empty
  | false =>
      let size := ready.console.guest.display
      rw [render_eq empty]
      split
      case isTrue clean =>
        refine .idle empty ?_
        simp only [needsDrawing, empty, Bool.not_false, Bool.true_and]
        simp only [Bool.and_eq_true, Bool.not_eq_true'] at clean
        simp only [clean, Bool.not_true, Bool.or_self]
      case isFalse changed =>
        have needed : needsDrawing env ready = true := by
          simp only [needsDrawing, empty, Bool.not_false, Bool.true_and]
          cases clean : ready.console.guest.damage.rect.isEmpty with
          | false => rfl
          | true => simpa [clean] using changed
        have askRan : askDisplayBits env size (ready.settled env) =
            .ok (env.displayBits size ready.world).1 (ready.asked env) := rfl
        rw [bind_ok askRan]
        cases granted : (env.displayBits size ready.world).1 with
        | none => exact .bare empty granted
        | some handle =>
            have picture : pictureAt env ready =
                ⟨size, env.word (ready.asked env).world handle⟩ := by
              have pair : env.displayBits size ready.world =
                  (some handle, (ready.asked env).world) := Prod.ext granted rfl
              simp only [pictureAt, size, pair]
            have strokes : renderStrokes env ready =
                (ready.asked env).console.overlay.strokes (ready.asked env).console.brush
                  ⟨size, env.word (ready.asked env).world handle⟩
                  ready.console.guest.damage.rect (ready.asked env).console.guest.pointer := by
              rw [renderStrokes, picture]
              rfl
            change Rendering env ready
              (drawFrame env size ready.console.guest.damage.rect handle (ready.asked env))
            rcases drawFrame_splits env size ready.console.guest.damage.rect handle
              (ready.asked env) with
              ⟨world, shown, drew⟩ | ⟨done, stroke, rest, world, parts, shown, refused, drew⟩
            · rw [← strokes] at shown
              rw [drew, ← strokes]
              exact .drawn world needed shown
            · rw [drew]
              exact .broken done stroke rest world needed (strokes.trans parts) shown refused

/-! ## Whole frames -/

/-- The session in which the frame that begins so comes to rendering, if it does and its
display shows anything. -/
def Console.ready? (before : Session σ) : Option (Session σ) :=
  match beforeRender env before with
  | .error _ _ => none
  | .ok _ ready =>
      if ready.console.guest.quit || ready.console.guest.display.isEmpty then none
      else some ready

def Console.renderAndPause : Action σ Outcome := do
  render env
  pause env
  return .again

/-- A frame renders in the session that it has come to, or it draws nothing and goes on only
with nothing to show. -/
theorem frame_ready (before : Session σ) :
    (∃ ready, ready? env before = some ready ∧ beforeRender env before = .ok () ready ∧
      ready.console.guest.display.isEmpty = false ∧
      frame env before = renderAndPause env ready) ∨
    (ready? env before = none ∧
      (∀ later, frame env before = .ok .again later →
        later.console.guest.display.isEmpty = true) ∧
      (Action.after (beforeRender env) before).Rested (Action.after (frame env) before)) := by
  cases run : beforeRender env before with
  | error halt ready =>
      right
      have ended : frame env before = .error halt ready := by
        rw [frame_eq, bind_error run]
      rw [after_error ended, after_error run]
      refine ⟨by simp only [ready?, run], ?_, rfl, .inl rfl⟩
      intro later goesOn
      rw [ended] at goesOn
      cases goesOn
  | ok answer ready =>
      have rest : frame env before = afterGuest env ready := by
        rw [frame_eq, bind_ok run]
      rw [afterGuest, bind_console] at rest
      cases quit : ready.console.guest.quit with
      | true =>
          right
          simp only [quit, if_true] at rest
          rw [after_ok rest, after_ok run]
          refine ⟨by simp [ready?, run, quit], ?_, rfl, .inl rfl⟩
          intro later goesOn
          rw [rest] at goesOn
          cases goesOn
      | false =>
          simp only [quit, Bool.false_eq_true, if_false] at rest
          cases empty : ready.console.guest.display.isEmpty with
          | false =>
              left
              exact ⟨ready, by simp [ready?, run, quit, empty], rfl, empty, rest⟩
          | true =>
              right
              obtain ⟨later, paused, rested⟩ := pause_rested env ready
              rw [bind_ok (render_hidden empty), bind_ok paused] at rest
              rw [after_ok rest, after_ok run]
              refine ⟨by simp [ready?, run, empty], ?_, rested⟩
              intro other goesOn
              rw [rest] at goesOn
              cases goesOn
              rw [rested.console]
              exact empty

theorem renderAndPause_ok {ready drawn : Session σ} (ran : render env ready = .ok () drawn) :
    ∃ later, renderAndPause env ready = .ok .again later ∧ drawn.Rested later := by
  obtain ⟨later, paused, rested⟩ := pause_rested env drawn
  refine ⟨later, ?_, rested⟩
  rw [renderAndPause, bind_ok ran, bind_ok paused]
  rfl

theorem strokesSince_unchanged {ready later : Session σ}
    (ended : later.history = ready.history ∨ ∃ ms, later.history = .waited ms :: ready.history) :
    ready.strokesSince later = [] := by
  rcases ended with same | ⟨ms, same⟩
  · have grown : later.history = [] ++ ready.history := same
    exact strokesSince_of_grown grown
  · have grown : later.history = [.waited ms] ++ ready.history := same
    exact strokesSince_of_grown grown

/-- Rendering draws the first of its strokes, and all of them if it ends after it has been
given a bitmap to draw. -/
theorem renderAndPause_strokes {ready : Session σ}
    (nonempty : ready.console.guest.display.isEmpty = false) :
    ready.strokesSince (Action.after (renderAndPause env) ready) <+: renderStrokes env ready ∧
      ∀ later, renderAndPause env ready = .ok .again later → needsDrawing env ready = true →
        (env.displayBits ready.console.guest.display ready.world).1.isSome →
        ready.strokesSince later = renderStrokes env ready := by
  have cases := render_cases env ready
  generalize ran : render env ready = result at cases
  cases cases with
  | hidden empty =>
      rw [nonempty] at empty
      cases empty
  | idle _ idle =>
      obtain ⟨later, ended, rested⟩ := renderAndPause_ok env ran
      have none : ready.strokesSince later = [] := strokesSince_unchanged rested.history
      rw [after_ok ended, none]
      refine ⟨List.nil_prefix, ?_⟩
      intro _ _ needed
      rw [idle] at needed
      cases needed
  | bare _ denied =>
      obtain ⟨later, ended, rested⟩ := renderAndPause_ok env ran
      rw [after_ok ended, strokesSince_drawn env [] ready.world rested.history]
      refine ⟨List.nil_prefix, ?_⟩
      intro _ _ _ granted
      rw [denied] at granted
      cases granted
  | drawn world needed =>
      obtain ⟨later, ended, rested⟩ := renderAndPause_ok env ran
      have all : ready.strokesSince later = renderStrokes env ready :=
        strokesSince_drawn env _ world rested.history
      rw [after_ok ended, all]
      refine ⟨List.prefix_rfl, ?_⟩
      intro other same _ _
      rw [ended] at same
      cases same
      exact all
  | broken done stroke rest world needed parts =>
      have ended : renderAndPause env ready =
          .error .screenRefused ((ready.asked env).drawn done world) := by
        rw [renderAndPause, bind_error ran]
      rw [after_error ended, strokesSince_drawn env done world (.inl rfl), parts]
      refine ⟨List.prefix_append done _, ?_⟩
      intro other same
      rw [ended] at same
      cases same

/-! ### What a frame draws -/

def Session.Undrawn (before session : Session σ) : Prop :=
  ∃ effects, session.history = effects ++ before.history ∧ effects.filterMap Effect.stroke? = []

theorem Session.Undrawn.note {before session : Session σ} (undrawn : before.Undrawn session)
    {effect : Effect} (other : effect.stroke? = none) :
    before.Undrawn { session with history := effect :: session.history } := by
  obtain ⟨effects, grown, none⟩ := undrawn
  refine ⟨effect :: effects, congrArg (effect :: ·) grown, ?_⟩
  rw [List.filterMap_cons_none other]
  exact none

theorem inputMove_undrawn {before : Session σ} (session later : Session σ)
    (move : Session.InputMove session later) (undrawn : before.Undrawn session) :
    before.Undrawn later := by
  cases move with
  | note effect input =>
      apply undrawn.note
      cases effect with
      | drew stroke => exact input.elim
      | _ => rfl
  | poll effect polls =>
      apply undrawn.note
      cases effect with
      | drew stroke => cases polls
      | _ => rfl
  | _ => exact undrawn

theorem guestMove_undrawn {before : Session σ} (session later : Session σ)
    (move : Session.GuestMove session later) (undrawn : before.Undrawn session) :
    before.Undrawn later := by
  cases move with
  | note effect running =>
      apply undrawn.note
      cases effect with
      | drew stroke => exact running.elim
      | _ => rfl
  | serve clock call answer guest served => exact undrawn.note rfl
  | _ => exact undrawn

def Session.Grown (before session : Session σ) : Prop :=
  ∃ effects, session.history = effects ++ before.history

theorem renderMove_grown {before : Session σ} (session later : Session σ)
    (move : Session.RenderMove session later) (grown : before.Grown session) :
    before.Grown later := by
  obtain ⟨effects, grown⟩ := grown
  cases move with
  | note effect output => exact ⟨effect :: effects, congrArg (effect :: ·) grown⟩
  | draw strokes world =>
      refine ⟨strokes.map Effect.drew ++ effects, ?_⟩
      rw [grown, List.append_assoc]
  | _ => exact ⟨effects, grown⟩

theorem strokesSince_frame (before : Session σ) :
    let later := Action.after (frame env) before
    before.strokesSince later = (Action.after (beforeRender env) before).strokesSince later := by
  intro later
  obtain ⟨early, begun, undrawn⟩ : before.Undrawn (Action.after (beforeRender env) before) :=
    beforeRender_keeps env inputMove_undrawn guestMove_undrawn ⟨[], rfl, rfl⟩
  let ready := Action.after (beforeRender env) before
  obtain ⟨effects, grown⟩ : ready.Grown later := by
    change ready.Grown (Action.after (frame env) before)
    rw [frame_eq]
    exact keeps_bind ⟨[], rfl⟩ fun _ _ grown => (afterGuest_makes env).keeps renderMove_grown grown
  have whole : later.history = (effects ++ early) ++ before.history := by
    rw [grown, begun, List.append_assoc]
  rw [strokesSince_of_grown grown, strokesSince_of_grown whole, List.filterMap_append, undrawn,
    List.append_nil]

/-- A frame that comes to rendering so draws the first of its strokes, and all of them if it
goes on after it has been given a bitmap to draw. -/
theorem frame_strokes (before : Session σ) :
    let ready := Action.after (beforeRender env) before
    let drawn := before.strokesSince (Action.after (frame env) before)
    drawn <+: renderStrokes env ready ∧
      (ending (frame env before) = .inr .again → needsDrawing env ready = true →
        (env.displayBits ready.console.guest.display ready.world).1.isSome →
        drawn = renderStrokes env ready) := by
  intro ready drawn
  have here : drawn = ready.strokesSince (Action.after (frame env) before) :=
    strokesSince_frame env before
  rw [here]
  rcases frame_ready env before with ⟨reached, _, run, nonempty, rest⟩ | ⟨_, hidden, rested⟩
  · obtain rfl : ready = reached := after_ok run
    have whole : Action.after (frame env) before = Action.after (renderAndPause env) ready := by
      rw [Action.after, rest]
      rfl
    rw [whole, rest]
    obtain ⟨first, all⟩ := renderAndPause_strokes env nonempty
    refine ⟨first, ?_⟩
    intro goesOn needed granted
    obtain ⟨later, ended⟩ := ending_ok goesOn
    rw [after_ok ended]
    exact all later ended needed granted
  · rw [strokesSince_unchanged rested.history]
    refine ⟨List.nil_prefix, ?_⟩
    intro goesOn needed
    obtain ⟨later, ended⟩ := ending_ok goesOn
    have empty := hidden later ended
    rw [after_ok ended] at rested
    rw [rested.console] at empty
    simp [needsDrawing, ready, empty] at needed

end Frames

end GuestConsole
