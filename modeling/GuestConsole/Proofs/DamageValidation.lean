import GuestConsole.Proofs.DamageReports

/-!
# Which reports of damage are accepted

A report may name any 32-bit numbers, while a display has no more than 65535 pixels on an
axis.  A report is accepted if its rectangle lies inside the display in exact arithmetic.
The one exception is an axis of 65535 pixels, where a longer span from its first pixel on
counts as one that ends with the axis.
-/

set_option autoImplicit false

namespace GuestConsole

open GuestConsole.Display GuestConsole.Guest.State

/-! ## One axis -/

/-- On an axis of `extent` pixels there are the `length` pixels from `first` on, and there is
`first` also where `length` is zero. -/
def Display.Spans (extent : UInt16) (first length : Int32) : Prop :=
  0 ≤ first.toInt ∧ 0 ≤ length.toInt ∧ first.toInt < extent.toNat ∧
    first.toInt + length.toInt ≤ extent.toNat

instance (extent : UInt16) (first length : Int32) : Decidable (Spans extent first length) :=
  inferInstanceAs (Decidable (_ ∧ _ ∧ _ ∧ _))

/-- The span begins with the longest axis that there can be and goes beyond its end. -/
def Display.Overlong (extent : UInt16) (first length : Int32) : Prop :=
  extent = 65535 ∧ first = 0 ∧ 65535 < length.toInt

theorem spans_or_overlong_iff {extent : UInt16} {first length : Int32}
    (firstNatural : 0 ≤ first.toInt) (lengthNatural : 0 ≤ length.toInt) :
    Spans extent first length ∨ Overlong extent first length ↔
      (narrow first).toNat < extent.toNat ∧
        (narrow first).toNat + (narrow length).toNat ≤ extent.toNat := by
  have small := extent.toNat_lt
  have longest : extent = 65535 ↔ extent.toNat = 65535 := UInt16.toNat_inj.symm
  have zero : first = 0 ↔ first.toInt = 0 := Int32.toInt_inj.symm
  simp only [Spans, Overlong, longest, zero, toNat_narrow]
  omega

theorem natural_of_spans {extent : UInt16} {first length : Int32}
    (spans : Spans extent first length ∨ Overlong extent first length) :
    0 ≤ first.toInt ∧ 0 ≤ length.toInt := by
  rcases spans with ⟨firstNatural, lengthNatural, _⟩ | ⟨_, rfl, long⟩
  · exact ⟨firstNatural, lengthNatural⟩
  · exact ⟨Int.le_refl 0, by omega⟩

/-! ## Reports -/

def reportedRect (left top width height : Int32) : Rect :=
  ⟨narrow left, narrow top, narrow width, narrow height⟩

def Negative (left top width height : Int32) : Prop :=
  left.toInt < 0 ∨ top.toInt < 0 ∨ width.toInt < 0 ∨ height.toInt < 0

section Reports
variable (guest : Guest.State) {left top width height : Int32}

theorem reportDamage_negative (negative : Negative left top width height) :
    guest.reportDamage left top width height = .error .negativeDamage := by
  have rejected : (left < 0 || top < 0 || width < 0 || height < 0) = true := by
    simpa [Negative, Int32.lt_iff_toInt_lt, or_assoc] using negative
  rw [Guest.State.reportDamage, if_pos rejected]

theorem reportDamage_natural (natural : ¬ Negative left top width height) :
    guest.reportDamage left top width height =
      match guest.damage.report (reportedRect left top width height) guest.display with
      | .error fault => .error (.damageOutOfBounds fault)
      | .ok damage => .ok { guest with damage } := by
  have passed : ¬ (left < 0 || top < 0 || width < 0 || height < 0) = true := by
    simpa [Negative, Int32.lt_iff_toInt_lt, or_assoc] using natural
  rw [Guest.State.reportDamage, if_neg passed]
  rfl

theorem reportedRect_fits_iff (natural : ¬ Negative left top width height) :
    (reportedRect left top width height).fits guest.display = true ↔
      (Spans guest.display.width left width ∨ Overlong guest.display.width left width) ∧
        (Spans guest.display.height top height ∨ Overlong guest.display.height top height) := by
  simp only [Negative, not_or, Int.not_lt] at natural
  obtain ⟨leftNatural, topNatural, widthNatural, heightNatural⟩ := natural
  rw [spans_or_overlong_iff leftNatural widthNatural,
    spans_or_overlong_iff topNatural heightNatural, fits_iff]
  simp only [reportedRect, Rect.Within, Rect.right, Rect.bottom]
  omega

end Reports

/-- A report is accepted if its rectangle lies inside the display in exact arithmetic, or on
an axis of 65535 pixels where it begins with the axis and is longer than it.  One with a
negative number is refused as such and any other as out of bounds, and a refused report
changes nothing. -/
theorem damage_accepted_iff (guest : Guest.State) (clock : Guest.Clock)
    (left top width height : Int32) :
    ∃ answer next, guest.serve clock (.tryDisplayChanged left top width height) =
        .ok (answer, next) ∧
      (answer = none ↔
        (Spans guest.display.width left width ∨ Overlong guest.display.width left width) ∧
          (Spans guest.display.height top height ∨ Overlong guest.display.height top height)) ∧
      (answer = some .negativeDamage ↔ Negative left top width height) ∧
      (answer = none ∨ answer = some .negativeDamage ∨
        answer = some (.damageOutOfBounds
          ⟨reportedRect left top width height, guest.display⟩)) ∧
      (answer ≠ none → next = guest) := by
  by_cases negative : Negative left top width height
  · have refused := reportDamage_negative guest negative
    refine ⟨some .negativeDamage, guest, by simp only [Guest.State.serve, refused], ?_,
      by simp [negative], by simp, fun _ => rfl⟩
    refine iff_of_false (Option.some_ne_none _) ?_
    rintro ⟨columns, rows⟩
    obtain ⟨leftNatural, widthNatural⟩ := natural_of_spans columns
    obtain ⟨topNatural, heightNatural⟩ := natural_of_spans rows
    rcases negative with below | below | below | below <;> omega
  · have judged := reportDamage_natural guest negative
    rw [← reportedRect_fits_iff guest negative]
    by_cases fits : (reportedRect left top width height).fits guest.display = true
    · rw [Damage.report, if_pos fits] at judged
      exact ⟨none, _, by simp only [Guest.State.serve, judged]; rfl, by simp [fits],
        by simp [negative], by simp, by simp⟩
    · rw [Damage.report, if_neg fits] at judged
      exact ⟨some (.damageOutOfBounds ⟨reportedRect left top width height, guest.display⟩), guest,
        by simp only [Guest.State.serve, judged], by simp [fits], by simp [negative], by simp,
        by simp⟩

/-- A report of 65536 columns is accepted on a display of 65535. -/
theorem overlong_damage_accepted :
    let guest : Guest.State := { display := ⟨65535, 1⟩ }
    guest.serve {} (.tryDisplayChanged 0 0 65536 1) =
        .ok (none, { guest with damage := ⟨⟨0, 0, 65535, 1⟩⟩ }) ∧
      ¬ Spans guest.display.width 0 65536 :=
  ⟨rfl, by decide⟩

end GuestConsole
