import GuestConsole.Proofs.Buttons

/-!
# Buttons from poll to poll

A poll of the mouse reports the buttons that have changed since the poll before it.  Over a
run of polls the reports of a button are presses and releases in turn, where a release has the
modifiers of its press.  Whoever follows the reports knows which buttons are down.
-/

set_option autoImplicit false

namespace GuestConsole.Mouse

open GuestConsole.Keyboard

structure Poll where
  mask : UInt8
  modifiers : Modifiers
  deriving DecidableEq, Repr

/-- An event, with the modifiers that were held at the poll that has reported it. -/
structure Reported where
  held : Modifiers
  event : ButtonEvent
  deriving DecidableEq, Repr

namespace Tracker

def poll (tracker : Tracker) (poll : Poll) : List Reported × Tracker :=
  let (events, next) := tracker.takeButtons poll.mask poll.modifiers
  (events.map (Reported.mk poll.modifiers), next)

def pollAll : Tracker → List Poll → List Reported × Tracker
  | tracker, [] => ([], tracker)
  | tracker, poll :: rest =>
      let (reports, next) := tracker.poll poll
      let (others, last) := next.pollAll rest
      (reports ++ others, last)

end Tracker

/-- The mask of the latest poll; before the first one all buttons are up. -/
def latestMask (polls : List Poll) : UInt8 := (polls.getLast?.map Poll.mask).getD 0

/-- The codes of the buttons that differ in two masks, in the order of their bits, each with
whether it is down in the second one. -/
def changedCodes (before now : UInt8) : List (UInt16 × Bool) :=
  ([(0x01, 130), (0x02, 128), (0x04, 129)].filter fun (bit, _) =>
    (before &&& bit != 0) != (now &&& bit != 0)).map fun (bit, code) => (code, now &&& bit != 0)

/-- The reports of one button: presses and releases in turn, where both have the modifiers that
were held at the press.  They are given where the button is down already. -/
def TakesTurns : Option Modifiers → List Reported → Prop
  | _, [] => True
  | none, press :: rest =>
      press.event.down = true ∧ press.event.modifiers = press.held ∧
        TakesTurns (some press.held) rest
  | some held, release :: rest =>
      release.event.down = false ∧ release.event.modifiers = held ∧ TakesTurns none rest

def ButtonEvent.applyTo (mask : UInt8) (event : ButtonEvent) : UInt8 :=
  if event.down then mask ||| event.button.bit else mask &&& ~~~event.button.bit

def follow (mask : UInt8) (reports : List Reported) : UInt8 :=
  reports.foldl (fun mask report => report.event.applyTo mask) mask

/-! ## The codes of a poll -/

theorem takeButtons_codes (tracker : Tracker) (mask : UInt8) (modifiers : Modifiers) :
    (tracker.takeButtons mask modifiers).1.map (fun event => (event.button.code, event.down)) =
      changedCodes tracker.buttons mask := by
  have codes : [(0x01, 130), (0x02, 128), (0x04, 129)] =
      Button.all.map fun button => (button.bit, button.code) := rfl
  rw [takeButtons_eq, changedCodes, codes, List.map_map, List.filter_map, List.map_map]
  rfl

/-! ## The reports of one button -/

def reportsOf (button : Button) (reports : List Reported) : List Reported :=
  reports.filter fun report => report.event.button.code = button.code

def Tracker.pressed? (tracker : Tracker) (button : Button) : Option Modifiers :=
  if button.isIn tracker.buttons then some (tracker.pressedWith button) else none

theorem filter_code (wanted : Button → Bool) (button : Button) :
    (Button.all.filter wanted).filter (fun other => other.code = button.code) =
      if wanted button then [button] else [] := by
  have only : Button.all.filter (fun other => other.code = button.code) = [button] := by
    cases button <;> decide
  simp only [List.filter_filter, Bool.and_comm]
  rw [← List.filter_filter, only, List.filter_cons, List.filter_nil]

theorem reportsOf_poll (tracker : Tracker) (poll : Poll) (button : Button) :
    reportsOf button (tracker.poll poll).1 =
      if button.isIn tracker.buttons != button.isIn poll.mask then
        [⟨poll.modifiers, tracker.eventOf poll.mask poll.modifiers button⟩]
      else [] := by
  rw [Tracker.poll, takeButtons_eq, reportsOf]
  dsimp only
  rw [List.map_map, List.filter_map]
  have code : ((fun report : Reported => decide (report.event.button.code = button.code)) ∘
      Reported.mk poll.modifiers ∘ tracker.eventOf poll.mask poll.modifiers) =
        fun other => decide (other.code = button.code) := rfl
  rw [code, filter_code]
  split <;> rfl

theorem pressed?_poll (tracker : Tracker) (poll : Poll) (button : Button) :
    (tracker.poll poll).2.pressed? button =
      if button.isIn poll.mask then
        if button.isIn tracker.buttons then some (tracker.pressedWith button)
        else some poll.modifiers
      else none := by
  rw [Tracker.poll, takeButtons_eq, Tracker.pressed?]
  cases now : button.isIn poll.mask <;> cases before : button.isIn tracker.buttons <;>
    simp [rememberedFor, now, before]

theorem poll_takesTurns (tracker : Tracker) (poll : Poll) (button : Button)
    {later : List Reported} (turns : TakesTurns ((tracker.poll poll).2.pressed? button) later) :
    TakesTurns (tracker.pressed? button) (reportsOf button (tracker.poll poll).1 ++ later) := by
  rw [pressed?_poll] at turns
  rw [reportsOf_poll, Tracker.pressed?]
  cases before : button.isIn tracker.buttons <;> cases now : button.isIn poll.mask <;>
    simp_all [TakesTurns, Tracker.eventOf]

theorem pollAll_takesTurns (polls : List Poll) (tracker : Tracker) (button : Button) :
    TakesTurns (tracker.pressed? button) (reportsOf button (tracker.pollAll polls).1) := by
  induction polls generalizing tracker with
  | nil => exact trivial
  | cons poll rest ih =>
      have reports : (tracker.pollAll (poll :: rest)).1 =
          (tracker.poll poll).1 ++ ((tracker.poll poll).2.pollAll rest).1 := rfl
      rw [reports, reportsOf, List.filter_append]
      exact poll_takesTurns tracker poll button (ih (tracker.poll poll).2)

/-! ## Following the reports -/

theorem isIn_applyTo (button : Button) (mask : UInt8) (event : ButtonEvent) :
    button.isIn (event.applyTo mask) =
      if event.button.code = button.code then event.down else button.isIn mask := by
  have ownBit : button.isIn event.button.bit = decide (event.button.code = button.code) := by
    cases button <;> cases event.button <;> decide
  have otherBits : button.isIn (~~~event.button.bit) =
      decide (event.button.code ≠ button.code) := by
    cases button <;> cases event.button <;> decide
  cases down : event.down <;> by_cases same : event.button.code = button.code <;>
    simp [ButtonEvent.applyTo, down, same, isIn_or, isIn_and, ownBit, otherBits]

theorem isIn_follow (button : Button) (reports : List Reported) (mask : UInt8) :
    button.isIn (follow mask reports) =
      (reportsOf button reports).foldl (fun _ report => report.event.down)
        (button.isIn mask) := by
  induction reports generalizing mask with
  | nil => rfl
  | cons report rest ih =>
      rw [follow, List.foldl_cons, ← follow, ih, isIn_applyTo, reportsOf, reportsOf,
        List.filter_cons]
      by_cases same : report.event.button.code = button.code <;> simp [same]

theorem applyTo_lt {mask : UInt8} (event : ButtonEvent) (low : mask.toNat < 2 ^ 3) :
    (event.applyTo mask).toNat < 2 ^ 3 := by
  have bit : event.button.bit.toNat < 2 ^ 3 := by cases event.button <;> decide
  unfold ButtonEvent.applyTo
  split
  · rw [UInt8.toNat_or]
    exact Nat.or_lt_two_pow low bit
  · rw [UInt8.toNat_and]
    exact Nat.lt_of_le_of_lt Nat.and_le_left low

theorem follow_lt {mask : UInt8} (reports : List Reported) (low : mask.toNat < 2 ^ 3) :
    (follow mask reports).toNat < 2 ^ 3 := by
  induction reports generalizing mask with
  | nil => exact low
  | cons report rest ih => exact ih (applyTo_lt report.event low)

theorem exists_button_of_lt {index : Nat} (low : index < 3) :
    ∃ button : Button, button.bit.toNat.log2 = index := by
  obtain rfl | rfl | rfl : index = 0 ∨ index = 1 ∨ index = 2 := by omega
  · exact ⟨.left, by decide⟩
  · exact ⟨.middle, by decide⟩
  · exact ⟨.right, by decide⟩

theorem toNat_lowBits (mask : UInt8) : (mask &&& 7).toNat = mask.toNat % 2 ^ 3 := by
  have seven : (7 : Nat) = 2 ^ 3 - 1 := rfl
  simp only [UInt8.toNat_and, UInt8.reduceToNat]
  rw [seven, Nat.and_two_pow_sub_one_eq_mod]

theorem eq_lowBits {mask other : UInt8} (low : mask.toNat < 2 ^ 3)
    (same : ∀ button : Button, button.isIn mask = button.isIn other) : mask = other &&& 7 := by
  apply UInt8.toNat_inj.mp
  rw [toNat_lowBits, ← Nat.mod_eq_of_lt low]
  apply Nat.eq_of_testBit_eq
  intro index
  rw [Nat.testBit_mod_two_pow, Nat.testBit_mod_two_pow]
  by_cases inside : index < 3
  · obtain ⟨button, rfl⟩ := exists_button_of_lt inside
    rw [← isIn_eq_testBit, ← isIn_eq_testBit, same]
  · simp only [inside, decide_false, Bool.false_and]

theorem follow_poll (tracker : Tracker) (poll : Poll) :
    follow (tracker.buttons &&& 7) (tracker.poll poll).1 = poll.mask &&& 7 := by
  have low : (tracker.buttons &&& 7).toNat < 2 ^ 3 := by
    rw [toNat_lowBits]
    exact Nat.mod_lt _ (by decide)
  apply eq_lowBits (follow_lt _ low)
  intro button
  have inLow : button.isIn 7 = true := by cases button <;> decide
  rw [isIn_follow, reportsOf_poll, isIn_and, inLow, Bool.and_true]
  cases before : button.isIn tracker.buttons <;> cases now : button.isIn poll.mask <;>
    simp [Tracker.eventOf, now]

/-! ## Runs -/

theorem poll_buttons (tracker : Tracker) (poll : Poll) :
    (tracker.poll poll).2.buttons = poll.mask := by
  rw [Tracker.poll, takeButtons_eq]

theorem follow_pollAll (polls : List Poll) (tracker : Tracker) :
    follow (tracker.buttons &&& 7) (tracker.pollAll polls).1 =
      (tracker.pollAll polls).2.buttons &&& 7 := by
  induction polls generalizing tracker with
  | nil => rfl
  | cons poll rest ih =>
      have others := ih (tracker.poll poll).2
      rw [poll_buttons, ← follow_poll tracker poll, follow, follow, ← List.foldl_append] at others
      exact others

theorem pollAll_buttons (polls : List Poll) (tracker : Tracker) :
    (tracker.pollAll polls).2.buttons = (polls.getLast?.map Poll.mask).getD tracker.buttons := by
  induction polls generalizing tracker with
  | nil => rfl
  | cons poll rest ih =>
      have last := ih (tracker.poll poll).2
      rw [poll_buttons] at last
      refine last.trans ?_
      rw [List.getLast?_cons]
      cases rest.getLast? <;> rfl

/-- Polls from a new tracker on.  One more poll reports just the buttons that differ from the
poll before it, in the order of their bits.  The reports of each button are presses and releases
in turn, a release with the modifiers that were held at its press, and whoever follows
the reports has the lower three bits of the latest mask. -/
theorem reports_replay_masks (polls : List Poll) :
    let (reports, tracker) := Tracker.pollAll {} polls
    (∀ poll : Poll, (tracker.takeButtons poll.mask poll.modifiers).1.map
      (fun event => (event.button.code, event.down)) =
        changedCodes (latestMask polls) poll.mask) ∧
    (∀ button, TakesTurns none (reportsOf button reports)) ∧
    follow 0 reports = latestMask polls &&& 7 := by
  have buttons : (Tracker.pollAll {} polls).2.buttons = latestMask polls :=
    pollAll_buttons polls {}
  refine ⟨?_, ?_, ?_⟩
  · intro poll
    rw [takeButtons_codes, buttons]
  · intro button
    have up : Tracker.pressed? {} button = none := by cases button <;> rfl
    have turns := pollAll_takesTurns polls {} button
    rwa [up] at turns
  · have followed := follow_pollAll polls {}
    rwa [buttons] at followed

end GuestConsole.Mouse
