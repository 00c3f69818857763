import GuestConsole.Proofs.Calls
import GuestConsole.Proofs.CopiedWords
import GuestConsole.Proofs.Pointing

/-!
# What a frame redraws

A frame asks for the bitmap only if something is to be redrawn.  Then it copies the damage
and the band of the old cursor and stamps the new cursor, all inside the display, and
nothing else.
-/

set_option autoImplicit false

namespace GuestConsole

open GuestConsole.Action GuestConsole.Console GuestConsole.Display

variable {σ : Type}

/-! ## The cursor -/

structure Display.Stamps (brush : Brush) (size : Size) (glyph : Glyph) (position : Position)
    (strokes : List Stroke) : Prop where
  fetched : fetches strokes = []
  once : (written strokes).Nodup
  painted : ∀ point color, Stroke.pixel point color ∈ strokes ↔ ∃ x y,
    x < size.width.toNat ∧ y < size.height.toNat ∧ glyph.Covers position x y ∧
      point = brush.origin.offset x y ∧ color = brush.palette.cursor

section Cursor
variable (brush : Brush) (size : Size) (position : Position)

theorem stampBit_eq_some_iff {row bit : Nat} {bits : UInt16} {stroke : Stroke} :
    Overlay.stampBit brush size position row bits bit = some stroke ↔
      bits.toNat.testBit bit = true ∧ position.x.toNat + (15 - bit) < size.width.toNat ∧
        position.y.toNat + row < size.height.toNat ∧
        stroke = .pixel (brush.origin.offset (position.x.toNat + (15 - bit))
          (position.y.toNat + row)) brush.palette.cursor := by
  simp only [Overlay.stampBit, Option.ite_none_right_eq_some, Bool.and_eq_true,
    decide_eq_true_eq, and_assoc, Option.some_inj, @eq_comm _ stroke]

theorem pixel_of_mem_stampBits {row : Nat} {bits : UInt16} {stroke : Stroke}
    (drawn : stroke ∈ (List.range 16).filterMap (Overlay.stampBit brush size position row bits)) :
    ∃ x, x < size.width.toNat ∧ position.y.toNat + row < size.height.toNat ∧
      stroke = .pixel (brush.origin.offset x (position.y.toNat + row)) brush.palette.cursor := by
  obtain ⟨bit, _, given⟩ := List.mem_filterMap.mp drawn
  obtain ⟨_, xInside, yInside, rfl⟩ := (stampBit_eq_some_iff brush size position).mp given
  exact ⟨_, xInside, yInside, rfl⟩

theorem written_stampBits_nodup (row : Nat) (bits : UInt16) :
    (written ((List.range 16).filterMap
      (Overlay.stampBit brush size position row bits))).Nodup := by
  have widthSmall := size.width.toNat_lt
  have heightSmall := size.height.toNat_lt
  rw [written, List.filterMap_filterMap]
  refine List.pairwise_filterMap.mpr (List.pairwise_lt_range.imp_of_mem ?_)
  intro early late earlySmall lateSmall ordered first firstDrawn second secondDrawn same
  obtain ⟨stroke, given, point⟩ := Option.bind_eq_some_iff.mp firstDrawn
  obtain ⟨_, firstInside, rowInside, rfl⟩ := (stampBit_eq_some_iff brush size position).mp given
  obtain ⟨stroke, given, point'⟩ := Option.bind_eq_some_iff.mp secondDrawn
  obtain ⟨_, secondInside, _, rfl⟩ := (stampBit_eq_some_iff brush size position).mp given
  obtain rfl := Option.some.inj point
  obtain rfl := Option.some.inj point'
  have columns := (offset_injective brush.origin (by omega) (by omega) (by omega) (by omega)
    same).1
  have lateBound := List.mem_range.mp lateSmall
  omega

theorem stamp_stamps (overlay : Overlay) :
    Stamps brush size overlay.glyph position (overlay.stamp brush size position) where
  fetched := by
    rw [Overlay.stamp, fetches_flatMap]
    refine List.flatMap_eq_nil_iff.mpr fun ⟨bits, row⟩ _ => List.filterMap_eq_nil_iff.mpr ?_
    intro stroke drawn
    obtain ⟨_, _, _, rfl⟩ := pixel_of_mem_stampBits brush size position drawn
    rfl
  once := by
    have widthSmall := size.width.toNat_lt
    have heightSmall := size.height.toNat_lt
    have rowsAscend :
        overlay.glyph.toList.zipIdx.Pairwise fun above below => above.2 < below.2 := by
      rw [← List.pairwise_map, List.zipIdx_map_snd]
      exact List.pairwise_lt_range' 1 Nat.one_pos
    rw [Overlay.stamp, written_flatMap]
    refine List.pairwise_flatMap.mpr
      ⟨fun ⟨bits, row⟩ _ => written_stampBits_nodup brush size position row bits,
        rowsAscend.imp ?_⟩
    rintro ⟨_, above⟩ ⟨_, below⟩ ordered early inAbove late inBelow same
    obtain ⟨_, drawn⟩ := mem_written.mp inAbove
    obtain ⟨x, xInside, yInside, given⟩ := pixel_of_mem_stampBits brush size position drawn
    obtain ⟨rfl, _⟩ := Stroke.pixel.inj given
    obtain ⟨_, drawn⟩ := mem_written.mp inBelow
    obtain ⟨x', xInside', yInside', given⟩ := pixel_of_mem_stampBits brush size position drawn
    obtain ⟨rfl, _⟩ := Stroke.pixel.inj given
    have rows := (offset_injective brush.origin (by omega) (by omega) (by omega) (by omega)
      same).2
    have ordered : above < below := ordered
    omega
  painted point color := by
    constructor
    · intro drawn
      obtain ⟨x, y, xInside, yInside, there, same, covered⟩ := stamp_covers brush drawn
      exact ⟨x, y, xInside, yInside, covered, there, same⟩
    · rintro ⟨x, y, xInside, yInside, covered, rfl, rfl⟩
      exact pixel_mem_stamp brush covered xInside yInside

end Cursor

/-! ## The effects of rendering -/

def Effect.renders : Effect → Bool
  | .askedDisplayBits _ _ => true
  | .drew _ => true
  | _ => false

/-- What rendering has done since, the first effect first. -/
def Session.screenEffects (before later : Session σ) : List Effect :=
  ((before.since later).filter Effect.renders).reverse

def KeepGlyph (effects : List Effect) : Prop := ∀ effect ∈ effects, effect.glyph? = none

instance (effects : List Effect) : Decidable (KeepGlyph effects) :=
  inferInstanceAs (Decidable (∀ effect ∈ effects, _))

def Session.Unrendered (before session : Session σ) : Prop :=
  session.console.overlay = before.console.overlay ∧
    ∃ effects, session.history = effects ++ before.history ∧
      effects.filter Effect.renders = [] ∧
      (KeepGlyph effects → session.console.guest.newGlyph = before.console.guest.newGlyph)

section Unrendered
variable {before session later : Session σ}

theorem unrendered_refl (session : Session σ) : session.Unrendered session :=
  ⟨rfl, [], rfl, rfl, fun _ => rfl⟩

theorem Session.Unrendered.note (unrendered : before.Unrendered session) {effect : Effect}
    (other : effect.renders = false) :
    before.Unrendered { session with history := effect :: session.history } := by
  obtain ⟨overlay, effects, grown, none, newGlyph⟩ := unrendered
  refine ⟨overlay, effect :: effects, congrArg (effect :: ·) grown, ?_, ?_⟩
  · rw [List.filter_cons_of_neg (by rw [other]; exact Bool.false_ne_true)]
    exact none
  · intro kept
    exact newGlyph fun later listed => kept later (List.mem_cons_of_mem effect listed)

theorem inputMove_unrendered (session later : Session σ)
    (move : Session.InputMove session later) (unrendered : before.Unrendered session) :
    before.Unrendered later := by
  cases move with
  | note effect input =>
      apply unrendered.note
      cases effect with
      | askedDisplayBits size granted => exact input.elim
      | drew stroke => exact input.elim
      | _ => rfl
  | poll effect polls =>
      apply unrendered.note
      cases effect with
      | askedDisplayBits size granted => cases polls
      | drew stroke => cases polls
      | _ => rfl
  | _ => exact unrendered

theorem guestMove_unrendered (session later : Session σ)
    (move : Session.GuestMove session later) (unrendered : before.Unrendered session) :
    before.Unrendered later := by
  cases move with
  | note effect running =>
      apply unrendered.note
      cases effect with
      | askedDisplayBits size granted => exact running.elim
      | drew stroke => exact running.elim
      | _ => rfl
  | serve clock call answer guest served =>
      obtain ⟨overlay, effects, grown, none, newGlyph⟩ := unrendered
      refine ⟨overlay, .served call answer :: effects, ?_, none, fun kept => ?_⟩
      · exact congrArg (Effect.served call answer :: ·) grown
      · have keptEarlier : KeepGlyph effects :=
          fun effect listed => kept effect (List.mem_cons_of_mem _ listed)
        have installed : (Effect.served call answer).glyph? = Option.none :=
          kept _ List.mem_cons_self
        rw [← newGlyph keptEarlier]
        rw [serve_newGlyph served, installed]
        rfl
  | _ => exact unrendered

theorem beforeRender_unrendered (env : Environment σ) (before : Session σ) :
    before.Unrendered (Action.after (beforeRender env) before) :=
  beforeRender_keeps env inputMove_unrendered guestMove_unrendered (unrendered_refl before)

theorem screenEffects_of_grown {ready : Session σ} {effects : List Effect}
    (unrendered : before.Unrendered ready) (grown : later.history = effects ++ ready.history) :
    before.screenEffects later = (effects.filter Effect.renders).reverse := by
  obtain ⟨_, early, begun, none, _⟩ := unrendered
  have whole : later.history = (effects ++ early) ++ before.history := by
    rw [grown, begun, List.append_assoc]
  rw [Session.screenEffects, since_of_grown whole, List.filter_append, none, List.append_nil]

theorem screenEffects_rested {ready : Session σ} {effects : List Effect}
    (unrendered : before.Unrendered ready) (grown : session.history = effects ++ ready.history)
    (rested : session.Rested later) :
    before.screenEffects later = (effects.filter Effect.renders).reverse := by
  rcases rested.history with same | ⟨ms, same⟩
  · exact screenEffects_of_grown unrendered (same.trans grown)
  · rw [grown, ← List.cons_append] at same
    rw [screenEffects_of_grown unrendered same]
    rfl

end Unrendered

/-! ## How a frame ends -/

section Frames
variable (env : Environment σ)

/-- The frame that begins so comes to rendering, and something is to be redrawn. -/
def Console.SetsOut (before : Session σ) : Prop :=
  ∃ ready, ready? env before = some ready ∧ needsDrawing env ready = true

/-- What may be left of the console at the end of a frame that has come to rendering in the
session `ready`, how the frame may end and what it may have done for the screen. -/
inductive Console.Redrawing (before ready : Session σ) :
    Console → Halt ⊕ Outcome → List Effect → Prop where
  | unready (ended : Halt ⊕ Outcome) (unready : ready? env before = none) :
      Redrawing before ready ready.console ended []
  | idle (reached : ready? env before = some ready) (idle : needsDrawing env ready = false) :
      Redrawing before ready (ready.settled env).console (.inr .again) []
  | bare (reached : ready? env before = some ready) (needed : needsDrawing env ready = true)
      (denied : (env.displayBits ready.console.guest.display ready.world).1 = none) :
      Redrawing before ready (ready.settled env).console (.inr .again)
        [.askedDisplayBits ready.console.guest.display false]
  | drawn (reached : ready? env before = some ready) (needed : needsDrawing env ready = true)
      (granted : (env.displayBits ready.console.guest.display ready.world).1.isSome) (world : σ)
      (shown : screenAfter env.put (renderStrokes env ready) (ready.asked env).world =
        some world) :
      Redrawing before ready (ready.redrawn env world).console (.inr .again)
        (.askedDisplayBits ready.console.guest.display true ::
          (renderStrokes env ready).map Effect.drew)
  | broken (reached : ready? env before = some ready) (needed : needsDrawing env ready = true)
      (granted : (env.displayBits ready.console.guest.display ready.world).1.isSome)
      (done : List Stroke) (stroke : Stroke) (rest : List Stroke) (world : σ)
      (parts : renderStrokes env ready = done ++ stroke :: rest)
      (shown : screenAfter env.put done (ready.asked env).world = some world)
      (refused : stroke.paint? env.put world = none) :
      Redrawing before ready (ready.settled env).console (.inl .screenRefused)
        (.askedDisplayBits ready.console.guest.display true :: done.map Effect.drew)

variable {env} {before ready : Session σ}

theorem render_needed (nonempty : ready.console.guest.display.isEmpty = false) :
    render env ready =
      (if needsDrawing env ready then do
          match ← askDisplayBits env ready.console.guest.display with
          | none => pure ()
          | some handle =>
              drawFrame env ready.console.guest.display ready.console.guest.damage.rect handle
        else pure ()) (ready.settled env) := by
  rw [render_eq nonempty, needsDrawing, nonempty, Bool.not_false, Bool.true_and]
  cases ready.console.guest.damage.rect.isEmpty <;>
    cases (ready.settled env).console.overlay.needsRedraw ready.console.guest.pointer <;> rfl

theorem filter_drawing (done : List Stroke) (size : Size) (granted : Bool) :
    ((done.reverse.map Effect.drew ++ [Effect.askedDisplayBits size granted]).filter
      Effect.renders).reverse = .askedDisplayBits size granted :: done.map Effect.drew := by
  have all : (done.reverse.map Effect.drew).filter Effect.renders =
      done.reverse.map Effect.drew := by
    refine List.filter_eq_self.mpr fun effect listed => ?_
    obtain ⟨stroke, _, rfl⟩ := List.mem_map.mp listed
    rfl
  rw [List.filter_append, all, List.reverse_append, List.map_reverse, List.reverse_reverse]
  rfl

theorem frame_redrawing (env : Environment σ) (before : Session σ) :
    let later := Action.after (frame env) before
    Redrawing env before (Action.after (beforeRender env) before) later.console
      (ending (frame env before)) (before.screenEffects later) := by
  intro later
  have unrendered := beforeRender_unrendered env before
  rcases frame_ready env before with ⟨ready, reached, run, nonempty, rest⟩ | ⟨unready, _, rested⟩
  · have here : Action.after (beforeRender env) before = ready := after_ok run
    rw [here] at unrendered
    have finish {drawn : Session σ} {effects : List Effect} (ran : render env ready = .ok () drawn)
        (grown : drawn.history = effects ++ ready.history) :
        later.console = drawn.console ∧ ending (frame env before) = .inr .again ∧
          before.screenEffects later = (effects.filter Effect.renders).reverse := by
      obtain ⟨ended, goesOn, rested⟩ := renderAndPause_ok env ran
      have same : later = ended := after_ok (rest.trans goesOn)
      rw [rest, goesOn, same]
      exact ⟨rested.console, rfl, screenEffects_rested unrendered grown rested⟩
    rw [here]
    cases needed : needsDrawing env ready with
    | false =>
        have ran : render env ready = .ok () (ready.settled env) := by
          rw [render_needed nonempty, needed, if_neg Bool.false_ne_true]
          rfl
        obtain ⟨console, ended, effects⟩ := finish ran (List.nil_append ready.history).symm
        rw [console, ended, effects]
        exact .idle reached needed
    | true =>
        cases granted : (env.displayBits ready.console.guest.display ready.world).1 with
        | none =>
            have askRan : askDisplayBits env ready.console.guest.display (ready.settled env) =
                .ok (env.displayBits ready.console.guest.display ready.world).1
                  (ready.asked env) := rfl
            have ran : render env ready = .ok () (ready.asked env) := by
              rw [render_needed nonempty, needed, if_pos rfl, bind_ok askRan, granted]
              rfl
            obtain ⟨console, ended, effects⟩ := finish ran (drawn_history env ready [] ready.world)
            rw [console, ended, effects, granted]
            exact .bare reached needed granted
        | some handle =>
            have some : (env.displayBits ready.console.guest.display ready.world).1.isSome = true :=
              Option.isSome_iff_exists.mpr ⟨handle, granted⟩
            have cases := render_cases env ready
            generalize ran : render env ready = result at cases
            cases cases with
            | hidden empty =>
                rw [nonempty] at empty
                cases empty
            | idle _ idle =>
                rw [needed] at idle
                cases idle
            | bare _ denied =>
                rw [granted] at denied
                cases denied
            | drawn world _ shown =>
                obtain ⟨console, ended, effects⟩ := finish ran (drawn_history env ready _ world)
                rw [console, ended, effects, filter_drawing, some]
                exact .drawn reached needed some world shown
            | broken done stroke lost world _ parts shown refused =>
                have halted : frame env before =
                    .error .screenRefused ((ready.asked env).drawn done world) := by
                  rw [rest, renderAndPause, bind_error ran]
                have same : later = (ready.asked env).drawn done world := after_error halted
                have effects :=
                  screenEffects_of_grown unrendered (drawn_history env ready done world)
                rw [same, halted, effects, filter_drawing, some]
                exact .broken reached needed some done stroke lost world parts shown refused
  · have effects : before.screenEffects later = [] :=
      screenEffects_rested unrendered (List.nil_append _).symm rested
    have console : later.console = (Action.after (beforeRender env) before).console :=
      rested.console
    rw [effects, console]
    exact .unready _ unready

theorem ready?_some (reached : ready? env before = some ready) :
    Action.after (beforeRender env) before = ready ∧ ready.console.guest.quit = false ∧
      ready.console.guest.display.isEmpty = false := by
  unfold ready? at reached
  split at reached
  case h_1 => cases reached
  case h_2 answer reachedHere run =>
    split at reached
    case isTrue => cases reached
    case isFalse shown =>
      obtain rfl := Option.some.inj reached
      simp only [Bool.or_eq_true, not_or, Bool.not_eq_true] at shown
      exact ⟨after_ok run, shown⟩

/-! ## Nothing new to show -/

/-- The cursor is on the screen with the glyph that was installed last. -/
structure Console.ShowsGlyph (console : Console) : Prop where
  fresh : console.overlay.stale = false
  taken : console.guest.newGlyph = none

def Session.KeepsGlyph (before later : Session σ) : Prop :=
  ∃ effects, later.history = effects ++ before.history ∧
    (KeepGlyph effects → before.console.ShowsGlyph → later.console.ShowsGlyph)

theorem Session.KeepsGlyph.trans {before middle later : Session σ}
    (first : before.KeepsGlyph middle) (second : middle.KeepsGlyph later) :
    before.KeepsGlyph later := by
  obtain ⟨early, begun, firstShows⟩ := first
  obtain ⟨late, ended, secondShows⟩ := second
  refine ⟨late ++ early, by rw [ended, begun, List.append_assoc], fun kept shown => ?_⟩
  apply secondShows fun effect listed => kept effect (List.mem_append_left early listed)
  exact firstShows (fun effect listed => kept effect (List.mem_append_right late listed)) shown

theorem Session.KeepsGlyph.since {before later : Session σ} (keeps : before.KeepsGlyph later)
    (kept : KeepGlyph (before.since later)) (shown : before.console.ShowsGlyph) :
    later.console.ShowsGlyph := by
  obtain ⟨effects, grown, shows⟩ := keeps
  rw [since_of_grown grown] at kept
  exact shows kept shown

theorem Session.Unrendered.keepsGlyph (unrendered : before.Unrendered ready) :
    before.KeepsGlyph ready := by
  obtain ⟨overlay, effects, grown, _, newGlyph⟩ := unrendered
  refine ⟨effects, grown, fun kept shown => ⟨?_, (newGlyph kept).trans shown.taken⟩⟩
  rw [overlay]
  exact shown.fresh

theorem settled_showsGlyph (shown : ready.console.ShowsGlyph) :
    (ready.settled env).console.ShowsGlyph := by
  refine ⟨?_, rfl⟩
  simp only [Session.settled, shown.taken]
  exact shown.fresh

theorem Console.Redrawing.showsGlyph {console : Console} {ended : Halt ⊕ Outcome}
    {effects : List Effect} (redrawing : Redrawing env before ready console ended effects)
    (shown : ready.console.ShowsGlyph) : console.ShowsGlyph := by
  cases redrawing with
  | unready => exact shown
  | drawn => exact ⟨rfl, rfl⟩
  | idle | bare | broken => exact settled_showsGlyph shown

theorem frame_keepsGlyph (env : Environment σ) (before : Session σ) :
    before.KeepsGlyph (Action.after (frame env) before) := by
  let ready := Action.after (beforeRender env) before
  have begun : before.KeepsGlyph ready := (beforeRender_unrendered env before).keepsGlyph
  obtain ⟨effects, ended⟩ : ready.Grown (Action.after (frame env) before) := by
    rw [frame_eq]
    exact keeps_bind ⟨[], rfl⟩ fun _ _ grown => (afterGuest_makes env).keeps renderMove_grown grown
  exact begun.trans ⟨effects, ended, fun _ shown => (frame_redrawing env before).showsGlyph shown⟩

variable (env) in
/-- The sessions that come of one by frames, by calls of the guest between them and by
whatever changes in the surroundings. -/
inductive Console.Leads (start : Session σ) : Session σ → Prop where
  | here : Leads start start
  | frame {session : Session σ} (earlier : Leads start session) :
      Leads start (Action.after (Console.frame env) session)
  | call {session : Session σ} (earlier : Leads start session) (call : Guest.Call) :
      Leads start (Action.after (serve env call) session)
  | surroundings {session : Session σ} (earlier : Leads start session) (world : σ) :
      Leads start { session with world }

theorem Console.Leads.keepsGlyph {start session : Session σ} (leads : Leads env start session) :
    start.KeepsGlyph session := by
  induction leads with
  | here => exact ⟨[], rfl, fun _ shown => shown⟩
  | frame earlier ih => exact ih.trans (frame_keepsGlyph env _)
  | @call session earlier call ih =>
      have served : session.Unrendered (Action.after (serve env call) session) :=
        (serve_makes env call).keeps guestMove_unrendered (unrendered_refl session)
      exact ih.trans served.keepsGlyph
  | surroundings earlier world ih => exact ih

variable (env) in
/-- The frame that begins so is given the bitmap and draws all that it sets out to. -/
def Console.Redraws (before : Session σ) : Prop :=
  ending (frame env before) = .inr .again ∧
    ∃ size, Effect.askedDisplayBits size true ∈
      before.screenEffects (Action.after (frame env) before)

theorem Console.Redrawing.of_granted {console : Console} {ended : Halt ⊕ Outcome}
    {effects : List Effect} (redrawing : Redrawing env before ready console ended effects)
    (again : ended = .inr .again) {size : Size}
    (asked : Effect.askedDisplayBits size true ∈ effects) :
    console.ShowsGlyph ∧ console.overlay.previous = ready.console.guest.pointer := by
  cases redrawing with
  | unready => cases asked
  | idle => cases asked
  | bare => cases List.mem_singleton.mp asked
  | drawn => exact ⟨⟨rfl, rfl⟩, rfl⟩
  | broken => cases again

theorem Console.Redraws.shows (redraws : Redraws env before) :
    let console := (Action.after (frame env) before).console
    console.ShowsGlyph ∧ console.overlay.previous =
      (Action.after (beforeRender env) before).console.guest.pointer := by
  obtain ⟨again, size, asked⟩ := redraws
  exact (frame_redrawing env before).of_granted again asked

theorem Console.Redrawing.previous {console : Console} {ended : Halt ⊕ Outcome}
    {effects : List Effect} (redrawing : Redrawing env before ready console ended effects)
    (incomplete : ¬ (ended = .inr .again ∧
      ∃ size, Effect.askedDisplayBits size true ∈ effects)) :
    console.overlay.previous = ready.console.overlay.previous := by
  cases redrawing with
  | unready => rfl
  | drawn => exact absurd ⟨rfl, _, List.mem_cons_self⟩ incomplete
  | idle | bare | broken => exact settled_previous

theorem not_needsDrawing (shown : ready.console.ShowsGlyph)
    (undamaged : ready.console.guest.damage.rect.isEmpty = true)
    (still : ready.console.guest.pointer = ready.console.overlay.previous) :
    needsDrawing env ready = false := by
  have fresh : (ready.settled env).console.overlay.stale = false :=
    (settled_showsGlyph shown).fresh
  have previous : (ready.settled env).console.overlay.previous = ready.console.guest.pointer :=
    settled_previous.trans still.symm
  simp only [needsDrawing, Overlay.needsRedraw, undamaged, fresh, previous, bne_self_eq_false,
    Bool.not_true, Bool.or_self, Bool.and_false]

/-- There is nothing to redraw, where the cursor was drawn in an earlier frame and has kept
its glyph and its place since, and no pixel is damaged. -/
theorem not_setsOut {earlier : Session σ} (redraws : Redraws env earlier)
    (leads : Leads env (Action.after (frame env) earlier) before)
    (kept : KeepGlyph ((Action.after (frame env) earlier).since
      (Action.after (beforeRender env) before)))
    (undamaged : (Action.after (beforeRender env) before).console.guest.damage.rect.isEmpty = true)
    (still : (Action.after (beforeRender env) before).console.guest.pointer =
      (Action.after (beforeRender env) before).console.overlay.previous) :
    ¬ SetsOut env before := by
  have begun := (beforeRender_unrendered env before).keepsGlyph
  have shown := (leads.keepsGlyph.trans begun).since kept redraws.shows.1
  rintro ⟨ready, reached, needed⟩
  rw [(ready?_some reached).1] at shown undamaged still
  rw [not_needsDrawing shown undamaged still] at needed
  cases needed

/-! ## What is drawn -/

theorem settled_overlay_glyph : (ready.settled env).console.overlay.glyph =
    ready.console.guest.newGlyph.getD ready.console.overlay.glyph := by
  simp only [Session.settled]
  cases ready.console.guest.newGlyph <;> rfl

variable (env ready) in
/-- The strokes of a frame are those of the damage, of the old cursor's band and of the new
cursor, in this order. -/
theorem renderStrokes_parts :
    let guest := ready.console.guest
    let size := guest.display
    let glyph := guest.newGlyph.getD ready.console.overlay.glyph
    let brush : Brush :=
      ⟨ready.console.brush.palette, centeredOrigin (env.extent ready.world) size⟩
    let picture := pictureAt env ready
    ∃ damaged band cursor, renderStrokes env ready = damaged ++ band ++ cursor ∧
      Copies brush picture guest.damage.rect.region damaged ∧
      Copies brush picture ready.console.overlay.previous.band band ∧
      Stamps brush size glyph guest.pointer cursor := by
  intro guest size glyph brush picture
  let overlay := (ready.settled env).console.overlay
  have previous : overlay.previous = ready.console.overlay.previous := settled_previous
  have sameGlyph : overlay.glyph = glyph := settled_overlay_glyph
  refine ⟨brush.blit picture.word picture.size guest.damage.rect,
    overlay.restore brush picture.word picture.size,
    overlay.stamp brush picture.size guest.pointer, ?_, blit_copies brush picture _, ?_, ?_⟩
  · rw [List.append_assoc]
    rfl
  · rw [← previous]
    exact restore_copies brush picture overlay
  · have same : picture.size = size := pictureAt_size ready
    rw [← sameGlyph, same]
    exact stamp_stamps brush size guest.pointer overlay

theorem renderStrokes_index_lt {index : Nat}
    (fetched : Stroke.fetch index ∈ renderStrokes env ready) :
    index < ready.console.guest.display.wordsPerRow * ready.console.guest.display.height.toNat := by
  obtain ⟨damaged, band, cursor, parts, copied, restored, stamped⟩ := renderStrokes_parts env ready
  rw [parts, List.append_assoc] at fetched
  rw [← pictureAt_size ready]
  rcases List.mem_append.mp fetched with here | later
  · exact copied.index_lt (mem_fetches.mpr here)
  · rcases List.mem_append.mp later with here | here
    · exact restored.index_lt (mem_fetches.mpr here)
    · have none := mem_fetches.mpr here
      rw [stamped.fetched] at none
      cases none

theorem renderStrokes_inside {point : Point} {color : Color}
    (painted : Stroke.pixel point color ∈ renderStrokes env ready) :
    let size := ready.console.guest.display
    let origin := centeredOrigin (env.extent ready.world) size
    ∃ x y, x < size.width.toNat ∧ y < size.height.toNat ∧
      point.x.toInt = origin.x.toInt + x ∧ point.y.toInt = origin.y.toInt + y := by
  intro size origin
  have pictureSize : (pictureAt env ready).size = size := pictureAt_size ready
  obtain ⟨damaged, band, cursor, parts, copied, restored, stamped⟩ := renderStrokes_parts env ready
  rw [parts, List.append_assoc] at painted
  obtain ⟨x, y, xInside, yInside, rfl⟩ : ∃ x y, x < size.width.toNat ∧
      y < size.height.toNat ∧ point = origin.offset x y := by
    rcases List.mem_append.mp painted with here | later
    · exact copied.inside pictureSize here
    · rcases List.mem_append.mp later with here | here
      · exact restored.inside pictureSize here
      · obtain ⟨x, y, xInside, yInside, _, there, _⟩ := (stamped.painted point color).mp here
        exact ⟨x, y, xInside, yInside, there⟩
  have column := (centeredAxis_centers (env.extent ready.world).width size.width).toInt_add
    (Nat.lt_trans xInside size.width.toNat_lt)
  have row := (centeredAxis_centers (env.extent ready.world).height size.height).toInt_add
    (Nat.lt_trans yInside size.height.toNat_lt)
  exact ⟨x, y, xInside, yInside, column, row⟩

theorem Console.Redrawing.effects_cases {console : Console} {ended : Halt ⊕ Outcome}
    {effects : List Effect} (redrawing : Redrawing env before ready console ended effects) :
    let size := ready.console.guest.display
    let handle? := (env.displayBits size ready.world).1
    (¬ SetsOut env before ∧ effects = []) ∨
    (SetsOut env before ∧ handle? = none ∧ effects = [.askedDisplayBits size false]) ∨
    (SetsOut env before ∧ handle?.isSome ∧ ∃ done, done <+: renderStrokes env ready ∧
      effects = .askedDisplayBits size true :: done.map Effect.drew ∧
      ∃ shown, screenAfter env.put done (env.displayBits size ready.world).2 = some shown ∧
        (done = renderStrokes env ready ∨ ended = .inl .screenRefused ∧ ∃ stroke,
          done ++ [stroke] <+: renderStrokes env ready ∧ stroke.paint? env.put shown = none)) := by
  intro size handle?
  cases redrawing with
  | unready _ unready =>
      left
      refine ⟨?_, rfl⟩
      rintro ⟨other, reached, _⟩
      rw [unready] at reached
      cases reached
  | idle reached idle =>
      left
      refine ⟨?_, rfl⟩
      rintro ⟨other, found, needed⟩
      rw [reached] at found
      obtain rfl := Option.some.inj found
      rw [idle] at needed
      cases needed
  | bare reached needed denied => exact .inr (.inl ⟨⟨_, reached, needed⟩, denied, rfl⟩)
  | drawn reached needed granted world shown =>
      exact .inr (.inr ⟨⟨_, reached, needed⟩, granted, _, List.prefix_rfl, rfl, world, shown,
        .inl rfl⟩)
  | broken reached needed granted done stroke rest world parts shown refused =>
      have next : done ++ [stroke] <+: renderStrokes env ready :=
        ⟨rest, by rw [parts, List.append_assoc, List.singleton_append]⟩
      refine .inr (.inr ⟨⟨_, reached, needed⟩, granted, done, ?_, rfl, world, shown,
        .inr ⟨rfl, stroke, next, refused⟩⟩)
      rw [parts]
      exact List.prefix_append done _

theorem Console.Redrawing.mem_renderStrokes {console : Console} {ended : Halt ⊕ Outcome}
    {effects : List Effect} (redrawing : Redrawing env before ready console ended effects)
    {stroke : Stroke} (drawn : Effect.drew stroke ∈ effects) :
    stroke ∈ renderStrokes env ready := by
  rcases redrawing.effects_cases with ⟨_, rfl⟩ | ⟨_, _, rfl⟩ | ⟨_, _, done, first, rfl, _⟩
  · cases drawn
  · cases List.mem_singleton.mp drawn
  · rcases List.mem_cons.mp drawn with asked | listed
    · cases asked
    · obtain ⟨other, member, same⟩ := List.mem_map.mp listed
      cases same
      exact first.subset member

end Frames

/-- Whatever has come before a frame, let `ready` be the session in which its guest has run.
All that the frame fetches and writes lies inside the display as it is then.  Once something
is to be redrawn, the frame asks for the bitmap, and given one it copies the damage and the
band of the cursor as it was drawn last and stamps the new cursor, in this order, up to the
first pixel that the screen refuses.  Nothing is asked for or drawn with an empty display,
once the guest has asked to stop, or if the cursor was drawn before and has kept its glyph
and its place since and nothing is damaged. -/
theorem frame_redraws_changes (env : Environment σ) (before : Session σ) :
    let ready := Action.after (beforeRender env) before
    let later := Action.after (frame env) before
    let guest := ready.console.guest
    let size := guest.display
    let previous := before.console.overlay.previous
    let glyph := guest.newGlyph.getD before.console.overlay.glyph
    let brush : Brush :=
      ⟨ready.console.brush.palette, centeredOrigin (env.extent ready.world) size⟩
    let picture := pictureAt env ready
    let handle? := (env.displayBits size ready.world).1
    let effects := before.screenEffects later
    (∀ index, Effect.drew (.fetch index) ∈ effects →
      index < size.wordsPerRow * size.height.toNat) ∧
    (∀ point color, Effect.drew (.pixel point color) ∈ effects → ∃ x y,
      x < size.width.toNat ∧ y < size.height.toNat ∧
        point.x.toInt = brush.origin.x.toInt + x ∧ point.y.toInt = brush.origin.y.toInt + y) ∧
    (∃ damaged band cursor,
      Copies brush picture guest.damage.rect.region damaged ∧
      Copies brush picture previous.band band ∧
      Stamps brush size glyph guest.pointer cursor ∧
      ((¬ SetsOut env before ∧ effects = []) ∨
        (SetsOut env before ∧ handle? = none ∧ effects = [.askedDisplayBits size false]) ∨
        (SetsOut env before ∧ handle?.isSome ∧ ∃ done, done <+: damaged ++ band ++ cursor ∧
          effects = .askedDisplayBits size true :: done.map Effect.drew ∧
          ∃ shown, screenAfter env.put done (env.displayBits size ready.world).2 = some shown ∧
            (done = damaged ++ band ++ cursor ∨
              ending (frame env before) = .inl .screenRefused ∧ ∃ stroke,
                done ++ [stroke] <+: damaged ++ band ++ cursor ∧
                  stroke.paint? env.put shown = none)))) ∧
    (Redraws env before → later.console.overlay.previous = guest.pointer) ∧
    (¬ Redraws env before → later.console.overlay.previous = previous) ∧
    (size.isEmpty = true ∨ guest.quit = true → effects = []) ∧
    ∀ earlier, Redraws env earlier → Leads env (Action.after (frame env) earlier) before →
      KeepGlyph ((Action.after (frame env) earlier).since ready) →
      guest.damage.rect.isEmpty = true → guest.pointer = previous → effects = [] := by
  intro ready later guest size previous glyph brush picture handle? effects
  obtain ⟨overlay, _⟩ : before.Unrendered ready := beforeRender_unrendered env before
  have redrawing : Redrawing env before ready _ _ effects := frame_redrawing env before
  have cases := redrawing.effects_cases
  obtain ⟨damaged, band, cursor, parts, copied, restored, stamped⟩ := renderStrokes_parts env ready
  have unset (notSet : ¬ SetsOut env before) : effects = [] := by
    rcases cases with ⟨_, none⟩ | ⟨set, _⟩ | ⟨set, _⟩
    · exact none
    · exact absurd set notSet
    · exact absurd set notSet
  refine ⟨?_, ?_, ⟨damaged, band, cursor, copied, ?_, ?_, ?_⟩, ?_, ?_, ?_, ?_⟩
  · exact fun index drawn => renderStrokes_index_lt (redrawing.mem_renderStrokes drawn)
  · exact fun point color drawn => renderStrokes_inside (redrawing.mem_renderStrokes drawn)
  · rw [overlay] at restored
    exact restored
  · rw [overlay] at stamped
    exact stamped
  · rw [← parts]
    exact cases
  · exact fun redraws => redraws.shows.2
  · intro incomplete
    rw [redrawing.previous incomplete, overlay]
  · intro hidden
    apply unset
    rintro ⟨other, reached, _⟩
    obtain ⟨rfl, running, nonempty⟩ := ready?_some reached
    rcases hidden with empty | quit
    · rw [show size.isEmpty = false from nonempty] at empty
      cases empty
    · rw [show guest.quit = false from running] at quit
      cases quit
  · intro earlier redraws leads kept undamaged still
    rw [show previous = ready.console.overlay.previous by rw [overlay]] at still
    exact unset (not_setsOut redraws leads kept undamaged still)

/-- The first frame draws a new display, and there is nothing left to draw in the second. -/
theorem frame_redraws_nothing_twice :
    let env := idle ⟨24, 4⟩ (.call 1 (.setDisplaySize ⟨20, 2⟩) fun _ => .done 1)
    let config : Config := { cyclesPerFrame := 100 }
    ∃ console, Console.create config env.keyboard.mode = .ok console ∧
      let first : Session Nat := ⟨console, 0, []⟩
      let second := Action.after (frame env) first
      Redraws env first ∧
      (first.screenEffects second).length = 82 ∧
      second.screenEffects (Action.after (frame env) second) = [] := by
  intro env config
  have created : Console.create config env.keyboard.mode = .ok _ := rfl
  refine ⟨_, created, ?_⟩
  intro first second
  have drawn : (first.screenEffects second).length = 82 := by decide +kernel
  have redraws : Redraws env first := by
    refine ⟨by decide +kernel, ?_⟩
    rcases (frame_redrawing env first).effects_cases with
      ⟨_, effects⟩ | ⟨_, _, effects⟩ | ⟨_, _, done, _, effects, _⟩
    · rw [effects] at drawn
      cases drawn
    · rw [effects] at drawn
      cases drawn
    · rw [effects]
      exact ⟨_, List.mem_cons_self⟩
  obtain ⟨_, _, _, _, _, _, quiet⟩ := frame_redraws_changes env second
  exact ⟨redraws, drawn, quiet first redraws .here (by decide +kernel) (by decide +kernel)
    (by decide +kernel)⟩

end GuestConsole
