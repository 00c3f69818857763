import GuestConsole.Mouse
import Mathlib.Data.Nat.Bitwise

/-!
# The buttons of a poll

A mask has one bit for each of the buttons.  A poll of the mouse makes one event of each button
whose bit has changed, and remembers with which modifiers the buttons have gone down.
-/

set_option autoImplicit false

namespace GuestConsole.Mouse

open GuestConsole.Keyboard

/-! ## Masks -/

theorem isIn_eq_testBit (button : Button) (mask : UInt8) :
    button.isIn mask = mask.toNat.testBit button.bit.toNat.log2 := by
  have power : button.bit.toNat = 2 ^ button.bit.toNat.log2 := by cases button <;> decide
  have andExact : (mask &&& button.bit).toNat =
      (mask.toNat.testBit button.bit.toNat.log2).toNat * 2 ^ button.bit.toNat.log2 := by
    rw [UInt8.toNat_and]
    conv => lhs; rw [power]
    rw [Nat.and_two_pow]
  cases set : mask.toNat.testBit button.bit.toNat.log2 with
  | false =>
      have zero : mask &&& button.bit = 0 := by
        apply UInt8.toNat_inj.mp
        simpa [set] using andExact
      simp [Button.isIn, zero]
  | true =>
      have nonzero : mask &&& button.bit ≠ 0 := by
        intro zero
        have positive := Nat.two_pow_pos button.bit.toNat.log2
        rw [zero, set] at andExact
        simp only [UInt8.toNat_zero, Bool.toNat_true, Nat.one_mul] at andExact
        omega
      simp [Button.isIn, nonzero]

theorem isIn_xor (button : Button) (before now : UInt8) :
    button.isIn (before ^^^ now) = (button.isIn before != button.isIn now) := by
  simp only [isIn_eq_testBit, UInt8.toNat_xor, Nat.testBit_xor]

theorem isIn_or (button : Button) (left right : UInt8) :
    button.isIn (left ||| right) = (button.isIn left || button.isIn right) := by
  simp only [isIn_eq_testBit, UInt8.toNat_or, Nat.testBit_or]

theorem isIn_and (button : Button) (left right : UInt8) :
    button.isIn (left &&& right) = (button.isIn left && button.isIn right) := by
  simp only [isIn_eq_testBit, UInt8.toNat_and, Nat.testBit_and]

/-! ## The events of a poll -/

def Tracker.eventOf (tracker : Tracker) (mask : UInt8) (modifiers : Modifiers)
    (button : Button) : ButtonEvent where
  button := button
  down := button.isIn mask
  modifiers := if button.isIn mask then modifiers else tracker.pressedWith button

def rememberedFor (mask : UInt8) (modifiers : Modifiers) (button : Button) : Modifiers :=
  if button.isIn mask then modifiers else {}

section
variable (mask changed : UInt8) (modifiers : Modifiers)

theorem change_eq (tracker : Tracker) (button : Button) :
    tracker.change button (button.isIn mask) modifiers =
      (tracker.eventOf mask modifiers button,
        tracker.remember button (rememberedFor mask modifiers button)) := by
  cases down : button.isIn mask <;>
    simp [Tracker.change, Tracker.eventOf, rememberedFor, down]

/-- No button is looked at twice, so that each event has the modifiers from before the poll. -/
theorem changes_eq (list : List Button) (distinct : list.Nodup) (tracker : Tracker) :
    tracker.changes mask changed modifiers list =
      ((list.filter fun button => button.isIn changed).map (tracker.eventOf mask modifiers),
        { tracker with
          pressedWith := fun button =>
            if button ∈ list ∧ button.isIn changed then rememberedFor mask modifiers button
            else tracker.pressedWith button }) := by
  induction list generalizing tracker with
  | nil => simp [Tracker.changes]
  | cons first rest ih =>
      obtain ⟨unlisted, distinct⟩ := List.nodup_cons.mp distinct
      by_cases moved : first.isIn changed
      · let next := tracker.remember first (rememberedFor mask modifiers first)
        have kept (button : Button) (other : button ≠ first) :
            next.pressedWith button = tracker.pressedWith button := if_neg other
        have sameEvents : (rest.filter fun button => button.isIn changed).map
              (next.eventOf mask modifiers) =
            (rest.filter fun button => button.isIn changed).map
              (tracker.eventOf mask modifiers) := by
          apply List.map_congr_left
          intro button member
          have other : button ≠ first := by
            rintro rfl
            exact unlisted (List.mem_filter.mp member).1
          simp only [Tracker.eventOf, kept button other]
        have samePressed (button : Button) :
            (if button ∈ rest ∧ button.isIn changed then rememberedFor mask modifiers button
              else next.pressedWith button) =
            if button ∈ first :: rest ∧ button.isIn changed then
              rememberedFor mask modifiers button
            else tracker.pressedWith button := by
          by_cases same : button = first
          · subst same
            simp [unlisted, moved, next, Tracker.remember]
          · simp [same, kept button same]
        simp only [Tracker.changes, if_pos moved, change_eq, ih distinct, List.filter_cons,
          List.map_cons]
        rw [sameEvents, funext samePressed]
        rfl
      · have samePressed (button : Button) :
            (button ∈ rest ∧ button.isIn changed) =
              (button ∈ first :: rest ∧ button.isIn changed) := by
          by_cases same : button = first
          · subst same
            simp [moved]
          · simp [same]
        simp only [Tracker.changes, if_neg moved, ih distinct, List.filter_cons, samePressed]

/-- A poll reports the buttons that have changed, and nothing else of the tracker changes. -/
theorem takeButtons_eq (tracker : Tracker) :
    tracker.takeButtons mask modifiers =
      ((Button.all.filter fun button => button.isIn tracker.buttons != button.isIn mask).map
          (tracker.eventOf mask modifiers),
        { tracker with
          buttons := mask
          pressedWith := fun button =>
            if button.isIn tracker.buttons != button.isIn mask then
              rememberedFor mask modifiers button
            else tracker.pressedWith button }) := by
  have distinct : Button.all.Nodup := by decide
  have listed (button : Button) : button ∈ Button.all := by cases button <;> decide
  rw [Tracker.takeButtons, changes_eq _ _ _ _ distinct]
  simp only [isIn_xor, listed, true_and]
  rfl

end

end GuestConsole.Mouse
