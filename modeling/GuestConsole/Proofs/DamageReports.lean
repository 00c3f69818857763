import GuestConsole.Proofs.Painting
import GuestConsole.Proofs.Sessions

/-!
# What the damage records

Between two renders the damage holds every pixel that the guest has reported, and the
whole display once its size has changed.
-/

set_option autoImplicit false

namespace GuestConsole

open GuestConsole.Display

/-! ## Rectangles -/

def Display.Rect.Within (rect : Rect) (size : Size) : Prop :=
  rect.right ≤ size.width.toNat ∧ rect.bottom ≤ size.height.toNat

section Rectangles
variable {a b rect : Rect} {size : Size} {x y : Nat}

theorem fits_iff : rect.fits size = true ↔
    rect.x.toNat < size.width.toNat ∧ rect.y.toNat < size.height.toNat ∧ rect.Within size := by
  simp only [Rect.fits, Bool.and_eq_true, decide_eq_true_eq, UInt16.lt_iff_toNat_lt,
    Rect.Within, and_assoc]

theorem covering_has (xInside : x < size.width.toNat) (yInside : y < size.height.toNat) :
    (Rect.covering size).Has x y := by
  refine ⟨Nat.zero_le x, ?_, Nat.zero_le y, ?_⟩
  · simpa [Rect.right, Rect.covering] using xInside
  · simpa [Rect.bottom, Rect.covering] using yInside

theorem covering_within : (Rect.covering size).Within size := by
  simp [Rect.Within, Rect.right, Rect.bottom, Rect.covering]

theorem union_edges (aWithin : a.Within size) (bWithin : b.Within size) :
    (a.union b).right = max a.right b.right ∧ (a.union b).bottom = max a.bottom b.bottom := by
  obtain ⟨aRight, aBottom⟩ := aWithin
  obtain ⟨bRight, bBottom⟩ := bWithin
  have widthSmall := size.width.toNat_lt
  have heightSmall := size.height.toNat_lt
  simp only [Rect.right, Rect.bottom] at *
  simp only [Rect.union, Rect.right, Rect.bottom, toNat_min, UInt16.toNat_ofNat']
  omega

theorem union_within (aWithin : a.Within size) (bWithin : b.Within size) :
    (a.union b).Within size := by
  obtain ⟨right, bottom⟩ := union_edges aWithin bWithin
  rw [Rect.Within, right, bottom]
  exact ⟨Nat.max_le.mpr ⟨aWithin.1, bWithin.1⟩, Nat.max_le.mpr ⟨aWithin.2, bWithin.2⟩⟩

theorem union_has (aWithin : a.Within size) (bWithin : b.Within size)
    (has : a.Has x y ∨ b.Has x y) : (a.union b).Has x y := by
  obtain ⟨right, bottom⟩ := union_edges aWithin bWithin
  rw [Rect.Has, right, bottom]
  simp only [Rect.union, toNat_min, Rect.Has] at *
  omega

theorem union_covering (bWithin : b.Within size) :
    (Rect.covering size).union b = Rect.covering size := by
  obtain ⟨bRight, bBottom⟩ := bWithin
  have corner (word : UInt16) : min (0 : UInt16) word = 0 := by
    apply UInt16.toNat_inj.mp
    rw [toNat_min, UInt16.toNat_zero, Nat.zero_min]
  have width : max (Rect.covering size).right b.right = size.width.toNat := by
    simp only [Rect.covering, Rect.right, UInt16.toNat_zero, Nat.zero_add] at *
    exact Nat.max_eq_left bRight
  have height : max (Rect.covering size).bottom b.bottom = size.height.toNat := by
    simp only [Rect.covering, Rect.bottom, UInt16.toNat_zero, Nat.zero_add] at *
    exact Nat.max_eq_left bBottom
  simp only [Rect.union, width, height]
  simp only [Rect.covering, corner, UInt16.toNat_zero, Nat.sub_zero, UInt16.ofNat_toNat]

end Rectangles

/-! ## Reports -/

/-- A report of this rectangle names a pixel. -/
def Names (left top width height : Int32) (x y : Nat) : Prop :=
  left.toInt ≤ x ∧ (x : Int) < left.toInt + width.toInt ∧
    top.toInt ≤ y ∧ (y : Int) < top.toInt + height.toInt

instance (left top width height : Int32) (x y : Nat) :
    Decidable (Names left top width height x y) :=
  inferInstanceAs (Decidable (_ ∧ _ ∧ _ ∧ _))

/-- An effect of a frame that begins with this display size reports a pixel as changed. -/
def Effect.Reports (display : Size) (x y : Nat) : Effect → Prop
  | .served (.setDisplaySize size) _ => size ≠ display
  | .served (.displayChanged left top width height) _ => Names left top width height x y
  | .served (.tryDisplayChanged left top width height) violation? =>
      violation? = none ∧ Names left top width height x y
  | _ => False

instance (display : Size) (x y : Nat) (effect : Effect) :
    Decidable (effect.Reports display x y) :=
  match effect with
  | .served (.setDisplaySize size) _ => inferInstanceAs (Decidable (size ≠ display))
  | .served (.displayChanged left top width height) _ =>
      inferInstanceAs (Decidable (Names left top width height x y))
  | .served (.tryDisplayChanged left top width height) violation? =>
      inferInstanceAs (Decidable (violation? = none ∧ Names left top width height x y))
  | .served .nextWord _ | .served (.setInputSemaphore _) _ | .served (.signalAt _ _) _
  | .served .milliseconds _ | .served .seconds _ | .served .displaySize _
  | .served (.setCursorGlyph _) _ | .served (.setPointer _ _) _ | .served .pointer _
  | .served .signalQuit _ | .served .quitSignalled _ | .readTicks _ | .readUnixSeconds _
  | .polledKeys _ | .polledSequence _ | .readMouse _ | .movedMouse _ | .refreshedCursor
  | .signalled _ _ | .checkedLowMemory | .stepped | .askedDisplayBits _ _ | .drew _
  | .waited _ => inferInstanceAs (Decidable False)

theorem toNat_narrow (value : Int32) :
    (Guest.State.narrow value).toNat = min value.toInt.toNat 65535 := by
  simp only [Guest.State.narrow, UInt16.toNat_ofNat']
  omega

/-- An accepted report adds a rectangle inside the display that has the named pixels. -/
theorem reportDamage_exact {guest next : Guest.State} {left top width height : Int32}
    (reported : guest.reportDamage left top width height = .ok next) :
    ∃ rect : Rect, rect.fits guest.display = true ∧
      next = { guest with
        damage := ⟨if guest.damage.rect.isEmpty then rect else guest.damage.rect.union rect⟩ } ∧
      ∀ x y, x < guest.display.width.toNat → y < guest.display.height.toNat →
        Names left top width height x y → rect.Has x y := by
  obtain ⟨natural, damage, accepted, rfl⟩ := reportDamage_ok reported
  unfold Damage.report at accepted
  split at accepted
  case isFalse => cases accepted
  case isTrue fits =>
    cases accepted
    refine ⟨_, fits, rfl, ?_⟩
    intro x y xInside yInside named
    obtain ⟨leftInside, topInside, right, bottom⟩ := fits_iff.mp fits
    obtain ⟨xLow, xHigh, yLow, yHigh⟩ := named
    have widthSmall := guest.display.width.toNat_lt
    have heightSmall := guest.display.height.toNat_lt
    simp only [Rect.Has, Rect.right, Rect.bottom, toNat_narrow] at *
    omega

/-- The damage of a guest in a frame that began at `start` and has had these effects. -/
def Guest.State.Marks (guest start : Guest.State) (effects : List Effect) : Prop :=
  guest.damage.rect = Rect.covering guest.display ∨
    (start.damage.rect ≠ Rect.covering start.display ∧ guest.display = start.display ∧
      ∀ x y, x < start.display.width.toNat → y < start.display.height.toNat →
        (∃ effect ∈ effects, effect.Reports start.display x y) → guest.damage.rect.Has x y)

section Marks
variable {guest next start : Guest.State} {effects : List Effect}

theorem marks_start (guest : Guest.State) : guest.Marks guest [] := by
  by_cases whole : guest.damage.rect = Rect.covering guest.display
  · exact .inl whole
  · refine .inr ⟨whole, rfl, ?_⟩
    rintro x y _ _ ⟨effect, member, _⟩
    cases member

theorem marks_quiet {effect : Effect} (marks : guest.Marks start effects)
    (damage : next.damage = guest.damage) (display : next.display = guest.display)
    (quiet : ∀ x y, ¬ effect.Reports guest.display x y) :
    next.Marks start (effect :: effects) := by
  rcases marks with whole | ⟨partly, same, reported⟩
  · left
    rw [damage, display]
    exact whole
  · right
    refine ⟨partly, display.trans same, ?_⟩
    rintro x y xInside yInside ⟨other, member, reports⟩
    rw [damage]
    apply reported x y xInside yInside
    rcases List.mem_cons.mp member with rfl | earlier
    · rw [same] at quiet
      exact absurd reports (quiet x y)
    · exact ⟨other, earlier, reports⟩

theorem marks_report {effect : Effect} {rect : Rect} (marks : guest.Marks start effects)
    (within : guest.damage.rect.Within guest.display) (fits : rect.fits guest.display = true)
    (damage : next.damage.rect =
      if guest.damage.rect.isEmpty then rect else guest.damage.rect.union rect)
    (display : next.display = guest.display)
    (has : ∀ x y, x < guest.display.width.toNat → y < guest.display.height.toNat →
      effect.Reports guest.display x y → rect.Has x y) :
    next.Marks start (effect :: effects) ∧ next.damage.rect.Within next.display := by
  obtain ⟨left, top, rectWithin⟩ := fits_iff.mp fits
  have grown : ∀ x y, guest.damage.rect.Has x y ∨ rect.Has x y → next.damage.rect.Has x y := by
    intro x y has
    rw [damage]
    split
    case isTrue empty =>
      rcases has with old | new
      · rw [has_area old] at empty
        cases empty
      · exact new
    case isFalse => exact union_has within rectWithin has
  constructor
  · rcases marks with whole | ⟨partly, same, reported⟩
    · left
      have area : guest.damage.rect.isEmpty = false := by
        rw [whole]
        exact has_area (covering_has left top)
      rw [damage, display, area, whole]
      exact union_covering rectWithin
    · right
      refine ⟨partly, display.trans same, ?_⟩
      rintro x y xInside yInside ⟨other, member, reports⟩
      apply grown
      rcases List.mem_cons.mp member with rfl | earlier
      · right
        rw [← same] at xInside yInside reports
        exact has x y xInside yInside reports
      · left
        exact reported x y xInside yInside ⟨other, earlier, reports⟩
  · rw [damage, display]
    split
    case isTrue => exact rectWithin
    case isFalse => exact union_within within rectWithin

theorem serve_marks {clock : Guest.Clock} {call : Guest.Call} {answer : call.Answer}
    (served : guest.serve clock call = .ok (answer, next)) (marks : guest.Marks start effects)
    (within : guest.damage.rect.Within guest.display) :
    next.Marks start (.served call answer :: effects) ∧
      next.damage.rect.Within next.display := by
  cases call with
  | setDisplaySize size =>
      obtain ⟨rfl, rfl⟩ := Prod.mk.inj (Except.ok.inj served)
      by_cases same : size = guest.display
      · rw [Guest.State.resize, if_pos same]
        exact ⟨marks_quiet marks rfl rfl fun _ _ other => other same, within⟩
      · rw [Guest.State.resize, if_neg same]
        exact ⟨.inl rfl, covering_within⟩
  | displayChanged left top width height =>
      obtain ⟨rect, fits, rfl, has⟩ := reportDamage_exact (serve_displayChanged served)
      exact marks_report marks within fits rfl rfl has
  | tryDisplayChanged left top width height =>
      rcases serve_tryDisplayChanged served with ⟨refused, rfl⟩ | ⟨_, reported⟩
      · exact ⟨marks_quiet marks rfl rfl fun _ _ accepted => refused accepted.1, within⟩
      · obtain ⟨rect, fits, rfl, has⟩ := reportDamage_exact reported
        exact marks_report marks within fits rfl rfl fun x y xInside yInside accepted =>
          has x y xInside yInside accepted.2
  | _ =>
      obtain ⟨rfl, rfl⟩ := Prod.mk.inj (Except.ok.inj served)
      exact ⟨marks_quiet marks rfl rfl fun _ _ reports => reports, within⟩

end Marks

end GuestConsole
