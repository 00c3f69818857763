import GuestConsole.Proofs.Pointing

/-!
# Staying inside the display

Whatever the guest calls and however its display changes, the damage lies inside the display
as it is now and the pointer is one of its pixels.  A report that is rejected changes nothing.
-/

set_option autoImplicit false

namespace GuestConsole

open GuestConsole.Action GuestConsole.Console GuestConsole.Display GuestConsole.Guest.State

variable {σ : Type}

/-! ## Pixels and rectangles of a display -/

namespace Display

def OnAxis (extent pixel : UInt16) : Prop := if extent = 0 then pixel = 0 else pixel < extent

theorem clampAxis_onAxis (value : Int32) (extent : UInt16) :
    OnAxis extent (Size.clampAxis value extent) := by
  unfold OnAxis
  split
  case isTrue none =>
    rw [none]
    exact clampAxis_zero value
  case isFalse nonempty => exact clampAxis_lt nonempty UInt16.le_rfl

theorem onAxis_of_fixed {extent pixel : UInt16}
    (fixed : Size.clampAxis (Int32.ofNat pixel.toNat) extent = pixel) : OnAxis extent pixel := by
  have onAxis := clampAxis_onAxis (Int32.ofNat pixel.toNat) extent
  rw [fixed] at onAxis
  exact onAxis

theorem clampAxis_fixed (value : Int32) (extent : UInt16) :
    Size.clampAxis (Int32.ofNat (Size.clampAxis value extent).toNat) extent =
      Size.clampAxis value extent := by
  have small := (Size.clampAxis value extent).toNat_lt
  apply UInt16.toNat_inj.mp
  rw [toNat_clampAxis, Int32.toInt_ofNat_of_lt (by omega), Int.toNat_natCast, toNat_clampAxis]
  omega

theorem clampPosition_clamp (size : Size) (x y : Int32) :
    size.clampPosition (size.clamp x y) = size.clamp x y := by
  simp only [Size.clampPosition, Size.clamp, clampAxis_fixed]

theorem union_fits {a b : Rect} {size : Size} (aFits : a.fits size = true)
    (bFits : b.fits size = true) : (a.union b).fits size = true := by
  obtain ⟨aLeft, aTop, aWithin⟩ := fits_iff.mp aFits
  obtain ⟨bLeft, bTop, bWithin⟩ := fits_iff.mp bFits
  apply fits_iff.mpr
  refine ⟨?_, ?_, union_within aWithin bWithin⟩
  · simp only [Rect.union, toNat_min]
    omega
  · simp only [Rect.union, toNat_min]
    omega

theorem covering_fits {size : Size} (area : (Rect.covering size).isEmpty = false) :
    (Rect.covering size).fits size = true := by
  obtain ⟨width, height⟩ := isEmpty_eq_false_iff.mp area
  exact fits_iff.mpr ⟨width, height, covering_within⟩

end Display

/-! ## The guest's state -/

/-- The damage lies inside the display and the pointer is its own nearest pixel. -/
structure Guest.State.Inside (guest : Guest.State) : Prop where
  damage : guest.damage.rect.isEmpty = true ∨ guest.damage.rect.fits guest.display = true
  pointer : guest.display.clampPosition guest.pointer = guest.pointer

def Guest.State.Rejects (guest : Guest.State) (left top width height : Int32) : Prop :=
  left < 0 ∨ top < 0 ∨ width < 0 ∨ height < 0 ∨
    ¬ (Rect.mk (narrow left) (narrow top) (narrow width) (narrow height)).fits guest.display

instance (guest : Guest.State) (left top width height : Int32) :
    Decidable (guest.Rejects left top width height) :=
  inferInstanceAs (Decidable (_ ∨ _ ∨ _ ∨ _ ∨ ¬ _))

section Guest
variable {guest next : Guest.State}

theorem initial_inside (policy : Input.WakePolicy) : (Guest.State.initial policy).Inside :=
  ⟨.inl rfl, by simp only [Guest.State.initial]; decide⟩

theorem resize_inside (inside : guest.Inside) (size : Size) : (guest.resize size).Inside := by
  unfold Guest.State.resize
  split
  · exact inside
  · refine ⟨?_, clampPosition_clamp size _ _⟩
    cases area : (Rect.covering size).isEmpty with
    | true => exact .inl area
    | false => exact .inr (covering_fits area)

theorem reportDamage_inside {left top width height : Int32} (inside : guest.Inside)
    (reported : guest.reportDamage left top width height = .ok next) : next.Inside := by
  obtain ⟨rect, fits, rfl, _⟩ := reportDamage_exact reported
  refine ⟨.inr ?_, inside.pointer⟩
  rcases inside.damage with empty | old
  · rw [if_pos empty]
    exact fits
  · dsimp only
    split
    · exact fits
    · exact union_fits old fits

theorem reportDamage_error_iff {left top width height : Int32} :
    (∃ violation, guest.reportDamage left top width height = .error violation) ↔
      guest.Rejects left top width height := by
  have condition : (left < 0 || top < 0 || width < 0 || height < 0) = true ↔
      left < 0 ∨ top < 0 ∨ width < 0 ∨ height < 0 := by
    simp only [Bool.or_eq_true, decide_eq_true_eq, or_assoc]
  have rejects : guest.Rejects left top width height ↔
      (left < 0 ∨ top < 0 ∨ width < 0 ∨ height < 0) ∨ (Rect.mk (narrow left) (narrow top)
        (narrow width) (narrow height)).fits guest.display ≠ true := by
    simp only [Guest.State.Rejects, or_assoc, ne_eq]
  rw [rejects, ← condition]
  unfold Guest.State.reportDamage Damage.report
  split
  case isTrue negative => exact iff_of_true ⟨_, rfl⟩ (.inl negative)
  case isFalse natural =>
    by_cases fits : (Rect.mk (narrow left) (narrow top) (narrow width)
        (narrow height)).fits guest.display = true
    · simp only [if_pos fits]
      refine iff_of_false nofun ?_
      rintro (negative | leaves)
      · exact natural negative
      · exact leaves fits
    · simp only [if_neg fits]
      exact iff_of_true ⟨_, rfl⟩ (.inr fits)

theorem serve_inside {clock : Guest.Clock} {call : Guest.Call} {answer : call.Answer}
    (served : guest.serve clock call = .ok (answer, next)) (inside : guest.Inside) :
    next.Inside := by
  cases call with
  | setDisplaySize size =>
      obtain ⟨_, rfl⟩ := Prod.mk.inj (Except.ok.inj served)
      exact resize_inside inside size
  | displayChanged left top width height =>
      exact reportDamage_inside inside (serve_displayChanged served)
  | tryDisplayChanged left top width height =>
      rcases serve_tryDisplayChanged served with ⟨_, rfl⟩ | ⟨_, reported⟩
      · exact inside
      · exact reportDamage_inside inside reported
  | setPointer x y =>
      obtain ⟨_, rfl⟩ := Prod.mk.inj (Except.ok.inj served)
      exact ⟨inside.damage, clampPosition_clamp guest.display x y⟩
  | _ =>
      obtain ⟨_, rfl⟩ := Prod.mk.inj (Except.ok.inj served)
      exact ⟨inside.damage, inside.pointer⟩

end Guest

/-! ## Sessions -/

theorem inputMove_inside (before later : Session σ) (move : Session.InputMove before later)
    (inside : before.console.guest.Inside) : later.console.guest.Inside := by
  cases move with
  | point point => exact ⟨inside.damage, clampPosition_clamp _ _ _⟩
  | _ => exact ⟨inside.damage, inside.pointer⟩

theorem guestMove_inside (before later : Session σ) (move : Session.GuestMove before later)
    (inside : before.console.guest.Inside) : later.console.guest.Inside := by
  cases move with
  | serve clock call answer guest served => exact serve_inside served inside
  | _ => exact ⟨inside.damage, inside.pointer⟩

theorem renderMove_inside (before later : Session σ) (move : Session.RenderMove before later)
    (inside : before.console.guest.Inside) : later.console.guest.Inside := by
  cases move with
  | glyph =>
      unfold Console.takeGlyph
      split <;> exact ⟨inside.damage, inside.pointer⟩
  | damage => exact ⟨.inl rfl, inside.pointer⟩
  | _ => exact ⟨inside.damage, inside.pointer⟩

/-- The sessions that a console comes to by frames, by calls of its guest outside of them
and by whatever changes in its surroundings.  The last two are moments of a frame: when the
guest has done some steps and some calls of the next, and when rendering begins. -/
inductive Console.Reachable (env : Environment σ) : Session σ → Prop where
  | created {config : Config} {console : Console}
      (created : Console.create config env.keyboard.mode = .ok console) (world : σ) :
      Reachable env ⟨console, world, []⟩
  | frame {session : Session σ} (earlier : Reachable env session) :
      Reachable env (Action.after (Console.frame env) session)
  | call {session : Session σ} (earlier : Reachable env session) (call : Guest.Call) :
      Reachable env (Action.after (serve env call) session)
  | surroundings {session : Session σ} (earlier : Reachable env session) (world : σ) :
      Reachable env { session with world }
  | withinSteps {session : Session σ} (earlier : Reachable env session) (done calls : Nat) :
      Reachable env (Action.after (callsUntil env done calls) session)
  | rendering {session : Session σ} (earlier : Reachable env session) :
      Reachable env (Action.after (beforeRender env) session)

section Reachable
variable {env : Environment σ} {session : Session σ}

/-- What holds of a new console and is kept by the input of a frame and by every move of the
guest and of rendering holds in every reachable session. -/
theorem Console.Reachable.keeps {invariant : Session σ → Prop}
    (new : ∀ {config : Config} {console : Console} (world : σ),
      Console.create config env.keyboard.mode = .ok console → invariant ⟨console, world, []⟩)
    (input : ∀ before, invariant before → invariant (Action.after (takingInput env) before))
    (guest : ∀ before later, Session.GuestMove before later → invariant before → invariant later)
    (render : ∀ before later, Session.RenderMove before later →
      invariant before → invariant later)
    (reachable : Reachable env session) : invariant session := by
  have calls (before : Session σ) (done calls : Nat) (start : invariant before) :
      invariant (Action.after (callsUntil env done calls) before) := by
    have parts : callsUntil env done calls =
        (takingInput env >>= fun _ => guestUntil env done calls) := by
      simp only [callsUntil, takingInput, bind_assoc]
    rw [parts]
    exact keeps_bind (input before start) fun _ _ taken =>
      (guestUntil_makes env done calls).keeps guest taken
  have ready (before : Session σ) (start : invariant before) :
      invariant (Action.after (beforeRender env) before) := by
    have parts : beforeRender env =
        (takingInput env >>= fun _ => do checkAlarm env; runGuest env) := by
      simp only [beforeRender, takingInput, bind_assoc]
    rw [parts]
    exact keeps_bind (input before start) fun _ _ taken =>
      (makes_bind (checkAlarm_makes env) fun _ => runGuest_makes env).keeps guest taken
  induction reachable with
  | created created world => exact new world created
  | frame earlier ih =>
      rw [frame_eq]
      exact keeps_bind (ready _ ih) fun _ _ ready => (afterGuest_makes env).keeps render ready
  | call earlier call ih => exact (serve_makes env call).keeps guest ih
  | surroundings earlier world ih => exact guest _ _ (.world _ world) ih
  | withinSteps earlier done count ih => exact calls _ done count ih
  | rendering earlier ih => exact ready _ ih

theorem Console.Reachable.inside (reachable : Reachable env session) :
    session.console.guest.Inside := by
  let invariant : Session σ → Prop := fun session => session.console.guest.Inside
  have input (before : Session σ) (inside : invariant before) :
      invariant (Action.after (takingInput env) before) :=
    (takingInput_makes env).keeps inputMove_inside inside
  suffices kept : invariant session from kept
  refine reachable.keeps (fun world created => ?_) input guestMove_inside renderMove_inside
  change Guest.State.Inside _
  obtain ⟨_, guest, _⟩ := create_exact created
  rw [guest]
  exact initial_inside _

end Reachable

/-- In every reachable session the damage has no area or lies inside the display as it is
now, and the pointer is its own nearest pixel.  A report is rejected where it has a negative
coordinate or leaves the display, and then nothing but the history changes. -/
theorem guest_stays_inside_display {env : Environment σ} {session : Session σ}
    (reachable : Reachable env session) :
    let guest := session.console.guest
    (guest.damage.rect.isEmpty = true ∨ guest.damage.rect.fits guest.display = true) ∧
    guest.display.clampPosition guest.pointer = guest.pointer ∧
    OnAxis guest.display.width guest.pointer.x ∧ OnAxis guest.display.height guest.pointer.y ∧
    ∀ left top width height, guest.Rejects left top width height ↔ ∃ violation,
      serve env (.displayChanged left top width height) session =
        .error (.violated violation) session ∧
      serve env (.tryDisplayChanged left top width height) session =
        .ok (some violation) { session with
          history := .served (.tryDisplayChanged left top width height) (some violation) ::
            session.history } := by
  intro guest
  have inside : guest.Inside := reachable.inside
  have fixed := inside.pointer
  refine ⟨inside.damage, fixed, ?_, ?_, ?_⟩
  · exact onAxis_of_fixed (congrArg Position.x fixed)
  · exact onAxis_of_fixed (congrArg Position.y fixed)
  · intro left top width height
    rw [← reportDamage_error_iff]
    constructor
    · rintro ⟨violation, refused⟩
      have broken : guest.serve (env.clock session.world)
          (.displayChanged left top width height) = .error violation := by
        simp only [Guest.State.serve, refused]
      have tried : guest.serve (env.clock session.world)
          (.tryDisplayChanged left top width height) = .ok (some violation, guest) := by
        simp only [Guest.State.serve, refused]
      exact ⟨violation, serve_broken env broken, serve_ok env tried⟩
    · rintro ⟨violation, broken, _⟩
      cases reported : guest.reportDamage left top width height with
      | error other => exact ⟨other, rfl⟩
      | ok next =>
          have accepted : guest.serve (env.clock session.world)
              (.displayChanged left top width height) = .ok ((), next) := by
            simp only [Guest.State.serve, reported]
          rw [serve_ok env accepted] at broken
          cases broken

/-- A display that the guest makes smaller once it has put the pointer in its last pixel. -/
theorem guest_stays_inside_smaller_display :
    let env := idle ⟨24, 4⟩
      (.call 1 (.setDisplaySize ⟨18, 3⟩) fun _ => .call 1 (.setPointer 17 2) fun _ =>
        .call 1 (.setDisplaySize ⟨5, 3⟩) fun _ => .done 1)
    let config : Config := { cyclesPerFrame := 100 }
    ∃ console, Console.create config env.keyboard.mode = .ok console ∧
      let session := Action.after (callsUntil env 0 3) ⟨console, 0, []⟩
      session.console.guest.display = ⟨5, 3⟩ ∧ session.console.guest.pointer = ⟨4, 2⟩ ∧
      session.console.guest.damage.rect.fits ⟨5, 3⟩ = true ∧
      ∃ violation, serve env (.tryDisplayChanged 4 0 2 3) session = .ok (some violation)
        { session with
          history := .served (.tryDisplayChanged 4 0 2 3) (some violation) :: session.history } := by
  intro env config
  have created : Console.create config env.keyboard.mode = .ok _ := rfl
  refine ⟨_, created, ?_⟩
  intro session
  have facts : session.console.guest.display = ⟨5, 3⟩ ∧
      session.console.guest.pointer = ⟨4, 2⟩ ∧
      session.console.guest.damage.rect.isEmpty = false ∧
      session.console.guest.Rejects 4 0 2 3 := by decide +kernel
  have reachable : Reachable env session := .withinSteps (.created created 0) 0 3
  -- the session is not to be computed again
  clear_value session
  obtain ⟨display, pointer, area, rejects⟩ := facts
  obtain ⟨damage, _, _, _, rejected⟩ := guest_stays_inside_display reachable
  rw [display, area] at damage
  obtain ⟨violation, _, tried⟩ := (rejected 4 0 2 3).mp rejects
  exact ⟨display, pointer, damage.resolve_left nofun, violation, tried⟩

end GuestConsole
