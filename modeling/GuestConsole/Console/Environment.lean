import GuestConsole.Display.Palette
import GuestConsole.Guest.Service
import GuestConsole.Keyboard.Source
import GuestConsole.Mouse

/-!
# What surrounds a console

The devices of the host, the physical screen and the guest.  Their joint state
has the type `σ`, and each of them is a function on it.
-/

set_option autoImplicit false

namespace GuestConsole

open GuestConsole.Display

structure Host (σ : Type) where
  /-- the millisecond clock, which wraps around -/
  ticks : σ → UInt32
  /-- seconds since the start of 1970 -/
  unixSeconds : σ → UInt32
  keyboard : Keyboard.Source σ
  mouse : σ → Mouse.Report × σ
  moveMouse : Point → σ → σ
  /-- refreshes a cursor that the mouse device draws by itself -/
  refreshCursor : σ → σ
  wait : UInt32 → σ → σ

structure Screen (σ : Type) where
  extent : σ → Extent
  put : Point → Color → σ → Option σ

structure Guest (σ : Type) where
  signal : Semaphore → σ → σ
  displayBits : Size → σ → Option UInt32 × σ
  word : σ → UInt32 → Nat → UInt16
  lowMemory : σ → σ
  step : σ → Guest.Program σ

structure Environment (σ : Type) extends Host σ, Screen σ, Guest σ

def Host.clock {σ : Type} (host : Host σ) (world : σ) : Guest.Clock :=
  ⟨host.ticks world, host.unixSeconds world⟩

end GuestConsole
