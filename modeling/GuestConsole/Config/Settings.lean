import GuestConsole.Input.Queue
import GuestConsole.Keyboard.Layout
import GuestConsole.Keyboard.Source

/-!
# Settings of a console
-/

set_option autoImplicit false

namespace GuestConsole

open GuestConsole.Keyboard (Layout Mode)
open GuestConsole.Input (WakePolicy)

namespace Config

inductive Error where
  | badSyntax
  | outOfRange (key : String)
  /-- the host's keyboard delivers keys in the other form -/
  | keyboardMismatch
  deriving DecidableEq, Repr

def Error.message : Error → String
  | .badSyntax => "invalid configuration syntax"
  | .outOfRange key => key ++ " out of range"
  | .keyboardMismatch => "keyboard mode does not match host keyboard"

inductive LayoutName where
  | us
  | german
  deriving DecidableEq, Repr

def LayoutName.layout : LayoutName → Layout
  | .us => Layout.us
  | .german => Layout.german

structure KeyboardSettings where
  mode : Mode := .raw
  layout : LayoutName := .us
  undecodedPassthrough : Bool := false
  deriving DecidableEq, Repr

/-- Screen colours, written 0xRRGGBB. -/
structure DisplaySettings where
  foreground : UInt32 := 0x000000
  background : UInt32 := 0xFFFFFF
  cursorColor : UInt32 := 0x000000
  deriving DecidableEq, Repr

structure InputSettings where
  wakePolicy : WakePolicy := .everyWord
  deriving DecidableEq, Repr

end Config

structure Config where
  cyclesPerFrame : UInt16 := 1800
  /-- milliseconds to wait after a frame that the display does not pace -/
  novsyncDelay : UInt16 := 0
  vsync : Bool := false
  keyboard : Config.KeyboardSettings := {}
  display : Config.DisplaySettings := {}
  input : Config.InputSettings := {}
  deriving DecidableEq, Repr

namespace Config

/-- The ranges to check, in this order: a key with whether its setting is in range. -/
def ranges (config : Config) : List (String × Bool) :=
  [("cycles_per_frame", 100 ≤ config.cyclesPerFrame && config.cyclesPerFrame ≤ 20000),
    ("novsync_delay_ms", config.novsyncDelay ≤ 1000),
    ("display.foreground", config.display.foreground ≤ 0xFFFFFF),
    ("display.background", config.display.background ≤ 0xFFFFFF),
    ("display.cursor_color", config.display.cursorColor ≤ 0xFFFFFF)]

def validate (config : Config) : Except Error Unit :=
  match config.ranges.find? (fun (_, inRange) => !inRange) with
  | none => .ok ()
  | some (key, _) => .error (.outOfRange key)

def frameDelay? (config : Config) : Option UInt32 :=
  if !config.vsync && config.novsyncDelay > 0 then some config.novsyncDelay.toUInt32 else none

end Config

end GuestConsole
