import GuestConsole.Config.Settings
import GuestConsole.Guest.Service
import GuestConsole.Keyboard.Decoder
import GuestConsole.Mouse

/-!
# The console between two frames
-/

set_option autoImplicit false

namespace GuestConsole

open GuestConsole.Display

structure Console where
  config : Config
  guest : Guest.State
  keyboard : Keyboard.Decoder
  mouse : Mouse.Tracker := {}
  brush : Brush
  overlay : Overlay := {}

namespace Console

/-- A console with these settings on a host whose keyboard has this form. -/
def create (config : Config) (host : Keyboard.Mode) : Except Config.Error Console :=
  match config.validate with
  | .error error => .error error
  | .ok () =>
      if host = config.keyboard.mode then
        .ok {
          config
          guest := Guest.State.initial config.input.wakePolicy
          keyboard := {
            layout := config.keyboard.layout.layout
            passthrough := config.keyboard.undecodedPassthrough }
          brush := {
            palette := Palette.ofRgb config.display.foreground config.display.background
              config.display.cursorColor } }
      else .error .keyboardMismatch

def centered (console : Console) (screen : Extent) : Console :=
  { console with
    brush := { console.brush with origin := centeredOrigin screen console.guest.display } }

def pointAt (console : Console) (point : Point) : Console :=
  { console with
    guest := { console.guest with
      pointer := console.guest.display.locate console.brush.origin point } }

def withQueue (console : Console) (queue : Input.Queue) : Console :=
  { console with guest := { console.guest with queue } }

def takeGlyph (console : Console) : Console :=
  match console.guest.newGlyph with
  | none => console
  | some glyph =>
      { console with
        guest := { console.guest with newGlyph := none }
        overlay := console.overlay.withGlyph glyph }

def takeDamage (console : Console) : Rect × Console :=
  let (rect, damage) := console.guest.damage.take
  (rect, { console with guest := { console.guest with damage } })

end Console

end GuestConsole
