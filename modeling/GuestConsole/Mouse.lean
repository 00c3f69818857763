import GuestConsole.Display.Placement
import GuestConsole.Event.Word
import GuestConsole.Keyboard.Key

/-!
# The mouse

The console polls the mouse and turns what has changed since the previous poll
into button and motion events.
-/

set_option autoImplicit false

namespace GuestConsole.Mouse

open GuestConsole.Display GuestConsole.Event GuestConsole.Keyboard

structure Report where
  point : Point := {}
  buttons : UInt8 := 0
  deriving DecidableEq, Repr

inductive Button where
  | left
  | middle
  | right
  deriving DecidableEq, Repr

namespace Button

/-- All buttons, in the order in which changes are reported. -/
def all : List Button := [.left, .middle, .right]

def bit : Button → UInt8
  | .left => 0x01
  | .middle => 0x02
  | .right => 0x04

def code : Button → UInt16
  | .left => 130
  | .middle => 128
  | .right => 129

def ofBit? (bit : UInt8) : Option Button := all.find? (·.bit = bit)

def isIn (button : Button) (mask : UInt8) : Bool := mask &&& button.bit != 0

end Button

structure ButtonEvent where
  button : Button
  down : Bool
  modifiers : Modifiers
  deriving DecidableEq, Repr

def ButtonEvent.word (event : ButtonEvent) : Word :=
  if event.down then Word.down event.button.code else Word.up event.button.code

structure Tracker where
  buttons : UInt8 := 0
  pressedWith : Button → Modifiers := fun _ => {}
  position : Option Position := none

namespace Tracker

def remember (tracker : Tracker) (button : Button) (modifiers : Modifiers) : Tracker :=
  { tracker with
    pressedWith := fun other => if other = button then modifiers else tracker.pressedWith other }

/-- One button changed.  Its release carries the modifiers of its press, whatever
is held by then. -/
def change (tracker : Tracker) (button : Button) (down : Bool) (modifiers : Modifiers) :
    ButtonEvent × Tracker :=
  if down then (⟨button, down, modifiers⟩, tracker.remember button modifiers)
  else (⟨button, down, tracker.pressedWith button⟩, tracker.remember button {})

def changes (tracker : Tracker) (mask changed : UInt8) (modifiers : Modifiers) :
    List Button → List ButtonEvent × Tracker
  | [] => ([], tracker)
  | button :: rest =>
      if button.isIn changed then
        let (event, tracker) := tracker.change button (button.isIn mask) modifiers
        let (events, tracker) := tracker.changes mask changed modifiers rest
        (event :: events, tracker)
      else tracker.changes mask changed modifiers rest

def takeButtons (tracker : Tracker) (mask : UInt8) (modifiers : Modifiers) :
    List ButtonEvent × Tracker :=
  { tracker with buttons := mask }.changes mask (tracker.buttons ^^^ mask) modifiers Button.all

/-- Takes a position: the x word and the y word if the mouse has moved.  The first
position is only remembered. -/
def takePosition (tracker : Tracker) (position : Position) : Option (Word × Word) × Tracker :=
  let moved := match tracker.position with
    | none => none
    | some previous =>
        if previous = position then none
        else some (Word.coordinate position.x, Word.coordinate position.y)
  (moved, { tracker with position := some position })

end Tracker

end GuestConsole.Mouse
