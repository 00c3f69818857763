import GuestConsole.Keyboard.Key

/-!
# Where keys come from

A host delivers either raw key presses or byte sequences; which of the two is
settled when the console is set up.
-/

set_option autoImplicit false

namespace GuestConsole.Keyboard

inductive Mode where
  /-- key presses, decoded here -/
  | raw
  /-- byte sequences, decoded by the host -/
  | cooked
  deriving DecidableEq, Repr

inductive Source (σ : Type) where
  | raw (poll : σ → List Key × σ)
  | cooked (poll : σ → Option (List UInt8) × σ)

def Source.mode {σ : Type} : Source σ → Mode
  | .raw _ => .raw
  | .cooked _ => .cooked

def Source.silent (σ : Type) : Mode → Source σ
  | .raw => .raw fun state => ([], state)
  | .cooked => .cooked fun state => (none, state)

end GuestConsole.Keyboard
