import GuestConsole.Proofs.DamageReports

/-!
# Screen and session

Between two frames either the whole display is damaged or the screen shows what was
rendered last.  What a frame does before it renders keeps this, and the damage collects
what it reports.
-/

set_option autoImplicit false

namespace GuestConsole

open GuestConsole.Action GuestConsole.Console GuestConsole.Display

variable {σ : Type}

def Effect.glyph? : Effect → Option Glyph
  | .served (.setCursorGlyph glyph) _ => some glyph
  | _ => none

def lastGlyph (history : List Effect) : Glyph :=
  (history.findSome? Effect.glyph?).getD Glyph.arrow

/-! ## Up to the rendering -/

theorem lastGlyph_cons (effect : Effect) (history : List Effect) :
    lastGlyph (effect :: history) = effect.glyph?.getD (lastGlyph history) := by
  cases given : effect.glyph? <;> simp [lastGlyph, given]

theorem serve_newGlyph {guest next : Guest.State} {clock : Guest.Clock} {call : Guest.Call}
    {answer : call.Answer} (served : guest.serve clock call = .ok (answer, next)) :
    next.newGlyph = (Effect.served call answer).glyph?.or guest.newGlyph := by
  cases call with
  | setDisplaySize | displayChanged | tryDisplayChanged =>
      obtain ⟨_, _, _, rfl⟩ := serve_bitmap served rfl
      rfl
  | _ =>
      obtain ⟨rfl, rfl⟩ := Prod.mk.inj (Except.ok.inj served)
      rfl

theorem lastGlyph_drawn (strokes : List Stroke) (history : List Effect) :
    lastGlyph (strokes.map Effect.drew ++ history) = lastGlyph history := by
  induction strokes with
  | nil => rfl
  | cons stroke rest ih =>
      rw [List.map_cons, List.cons_append, lastGlyph_cons]
      exact ih

/-- What a frame has done up to now leaves the screen alone and is recorded. -/
structure Ready (before session : Session σ) : Prop where
  overlay : session.console.overlay = before.console.overlay
  palette : session.console.brush.palette = before.console.brush.palette
  colors : ∀ point, lastColor point session.history = lastColor point before.history
  glyph : lastGlyph session.history =
    session.console.guest.newGlyph.getD session.console.overlay.glyph
  within : session.console.guest.damage.rect.Within session.console.guest.display
  marks : ∃ effects, session.history = effects ++ before.history ∧
    session.console.guest.Marks before.console.guest effects

section Ready
variable {before session later : Session σ}

theorem Ready.same (ready : Ready before session)
    (overlay : later.console.overlay = session.console.overlay)
    (palette : later.console.brush.palette = session.console.brush.palette)
    (damage : later.console.guest.damage = session.console.guest.damage)
    (display : later.console.guest.display = session.console.guest.display)
    (newGlyph : later.console.guest.newGlyph = session.console.guest.newGlyph)
    (history : later.history = session.history) : Ready before later := by
  obtain ⟨effects, grown, marks⟩ := ready.marks
  refine ⟨overlay.trans ready.overlay, palette.trans ready.palette, ?_, ?_, ?_, effects, ?_, ?_⟩
  · rw [history]
    exact ready.colors
  · rw [history, newGlyph, overlay]
    exact ready.glyph
  · rw [damage, display]
    exact ready.within
  · rw [history]
    exact grown
  · rw [Guest.State.Marks, damage, display]
    exact marks

theorem Ready.note (ready : Ready before session) {effect : Effect}
    (undrawn : ∀ stroke, effect ≠ .drew stroke)
    (unserved : ∀ call answer, effect ≠ .served call answer) :
    Ready before { session with history := effect :: session.history } := by
  obtain ⟨effects, grown, marks⟩ := ready.marks
  have noGlyph : effect.glyph? = none := by
    cases effect with
    | served call answer => exact absurd rfl (unserved call answer)
    | _ => rfl
  have noReport : ∀ x y, ¬ effect.Reports session.console.guest.display x y := by
    intro x y reports
    cases effect with
    | served call answer => exact absurd rfl (unserved call answer)
    | _ => exact reports
  refine ⟨ready.overlay, ready.palette, ?_, ?_, ready.within, effect :: effects, ?_, ?_⟩
  · intro point
    rw [lastColor_skip undrawn]
    exact ready.colors point
  · rw [lastGlyph_cons, noGlyph]
    exact ready.glyph
  · rw [grown]
    rfl
  · exact marks_quiet marks rfl rfl noReport

theorem Ready.serve (ready : Ready before session) {clock : Guest.Clock} {call : Guest.Call}
    {answer : call.Answer} {guest : Guest.State}
    (served : session.console.guest.serve clock call = .ok (answer, guest)) :
    Ready before { session with
      console.guest := guest
      history := .served call answer :: session.history } := by
  obtain ⟨effects, grown, marks⟩ := ready.marks
  obtain ⟨nextMarks, nextWithin⟩ := serve_marks served marks ready.within
  refine ⟨ready.overlay, ready.palette, ready.colors, ?_, nextWithin,
    .served call answer :: effects, ?_, nextMarks⟩
  · rw [lastGlyph_cons, ready.glyph]
    change _ = guest.newGlyph.getD session.console.overlay.glyph
    rw [serve_newGlyph served]
    cases (Effect.served call answer).glyph? <;> rfl
  · rw [grown]
    rfl

theorem inputMove_ready (session later : Session σ) (move : Session.InputMove session later)
    (ready : Ready before session) : Ready before later := by
  cases move with
  | note effect quiet =>
      exact ready.note (fun stroke same => by rw [same] at quiet; exact quiet)
        (fun call answer same => by rw [same] at quiet; exact quiet)
  | poll effect polls =>
      exact ready.note (fun stroke same => by rw [same] at polls; cases polls)
        (fun call answer same => by rw [same] at polls; cases polls)
  | _ => exact ready.same rfl rfl rfl rfl rfl rfl

theorem guestMove_ready (session later : Session σ) (move : Session.GuestMove session later)
    (ready : Ready before session) : Ready before later := by
  cases move with
  | note effect running =>
      exact ready.note (fun stroke same => by rw [same] at running; exact running)
        (fun call answer same => by rw [same] at running; exact running)
  | serve clock call answer guest served => exact ready.serve served
  | _ => exact ready.same rfl rfl rfl rfl rfl rfl

end Ready

/-! ## Between frames -/

section Between
variable {screen : Extent} {palette : Palette} {last : Option Picture}
  {before session : Session σ}

/-- All of the display is damaged, or this pixel shows what it was last rendered as. -/
def ShownAt (screen : Extent) (palette : Palette) (last : Option Picture) (session : Session σ)
    (x y : Nat) : Prop :=
  session.console.guest.damage.rect = Rect.covering session.console.guest.display ∨
    ∃ picture, last = some picture ∧ picture.size = session.console.guest.display ∧
      lastColor ((centeredOrigin screen session.console.guest.display).offset x y)
        session.history = some (Scene.color ⟨palette, picture, session.console.overlay.glyph,
          session.console.overlay.previous⟩ x y)

/-- Between frames all is damaged, or the screen shows what was last rendered. -/
structure Coherent (screen : Extent) (palette : Palette) (last : Option Picture)
    (session : Session σ) : Prop where
  brush : session.console.brush.palette = palette
  within : session.console.guest.damage.rect.Within session.console.guest.display
  glyph : lastGlyph session.history =
    session.console.guest.newGlyph.getD session.console.overlay.glyph
  shown : session.console.guest.damage.rect = Rect.covering session.console.guest.display ∨
    ∃ picture, last = some picture ∧ picture.size = session.console.guest.display ∧
      Shows session.history (centeredOrigin screen session.console.guest.display)
        ⟨palette, picture, session.console.overlay.glyph, session.console.overlay.previous⟩

theorem Coherent.start (coherent : Coherent screen palette last session) :
    Ready session session :=
  ⟨rfl, rfl, fun _ => rfl, coherent.glyph, coherent.within, [], rfl, marks_start _⟩

theorem Coherent.shownAt (coherent : Coherent screen palette last session) {x y : Nat}
    (xInside : x < session.console.guest.display.width.toNat)
    (yInside : y < session.console.guest.display.height.toNat) :
    ShownAt screen palette last session x y := by
  rcases coherent.shown with whole | ⟨picture, rendered, size, shows⟩
  · exact .inl whole
  · rw [← size] at xInside yInside
    exact .inr ⟨picture, rendered, size, shows x y xInside yInside⟩

theorem beforeRender_ready (env : Environment σ) (start : Ready before before) :
    Ready before (Action.after (beforeRender env) before) :=
  beforeRender_keeps env inputMove_ready guestMove_ready start

theorem Ready.shownAt (ready : Ready before session) {x y : Nat}
    (shown : session.console.guest.display = before.console.guest.display →
      ShownAt screen palette last before x y) :
    ShownAt screen palette last session x y := by
  obtain ⟨_, _, whole | ⟨partly, display, _⟩⟩ := ready.marks
  · exact .inl whole
  · obtain ⟨picture, rendered, size, shows⟩ := (shown display).resolve_left partly
    refine .inr ⟨picture, rendered, size.trans display.symm, ?_⟩
    rw [ready.overlay, display, ready.colors]
    exact shows

theorem Ready.coherent (ready : Ready before session)
    (coherent : Coherent screen palette last before) :
    Coherent screen palette last session := by
  refine ⟨ready.palette.trans coherent.brush, ready.within, ready.glyph, ?_⟩
  obtain ⟨_, _, whole | ⟨partly, display, _⟩⟩ := ready.marks
  · exact .inl whole
  · obtain ⟨picture, rendered, size, shows⟩ := coherent.shown.resolve_left partly
    refine .inr ⟨picture, rendered, size.trans display.symm, ?_⟩
    rw [ready.overlay, display]
    intro x y xInside yInside
    rw [ready.colors]
    exact shows x y xInside yInside

theorem Coherent.later {later : Session σ} (coherent : Coherent screen palette last session)
    (console : later.console = session.console)
    (colors : ∀ point, lastColor point later.history = lastColor point session.history)
    (glyph : lastGlyph later.history = lastGlyph session.history) :
    Coherent screen palette last later := by
  obtain ⟨_, world, history⟩ := later
  obtain rfl := console
  refine ⟨coherent.brush, coherent.within, glyph.trans coherent.glyph, ?_⟩
  rcases coherent.shown with whole | ⟨picture, rendered, size, shows⟩
  · exact .inl whole
  · refine .inr ⟨picture, rendered, size, fun x y xInside yInside => ?_⟩
    exact (colors _).trans (shows x y xInside yInside)

end Between

end GuestConsole
