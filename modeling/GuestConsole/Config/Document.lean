import GuestConsole.Config.Settings
import GuestConsole.Toml.Document

/-!
# Settings from a document

The settings are read from a document in the TOML format.  A key that is missing
leaves its default, and keys that mean nothing here are passed over.  They are read
all the same: a literal without a number is an error under any key.
-/

set_option autoImplicit false

namespace GuestConsole.Config

open GuestConsole.Keyboard (Mode)
open GuestConsole.Input (WakePolicy)
open GuestConsole.Toml (Value Table Number)

/-- A value that has the wrong form is an error whatever else the document holds. -/
abbrev Read (α : Type) := Value Number → Except Error α

def readNat (limit : Nat) : Read Nat
  | .number (.integer value) => if 0 ≤ value && value ≤ limit then .ok value.toNat else .error .badSyntax
  | _ => .error .badSyntax

def readWord : Read UInt16 := fun value => UInt16.ofNat <$> readNat 65535 value

def readColor : Read UInt32 := fun value => UInt32.ofNat <$> readNat 4294967295 value

def readBool : Read Bool
  | .boolean value => .ok value
  | _ => .error .badSyntax

/-- A name for one of several choices: a text, or a table in which the name stands alone
and over nothing. -/
def name? : Value Number → Option String
  | .text name => some name
  | .table [(name, .table [])] => some name
  | .table [(name, .array [])] => some name
  | _ => none

def readChoice {α : Type} (choices : List (String × α)) : Read α := fun value =>
  match (name? value).bind fun name => choices.lookup name with
  | some choice => .ok choice
  | none => .error .badSyntax

def modes : List (String × Mode) := [("raw", .raw), ("cooked", .cooked)]

def layouts : List (String × LayoutName) := [("us", .us), ("german", .german)]

def wakePolicies : List (String × WakePolicy) :=
  [("every_word", .everyWord), ("on_non_empty", .onNonEmpty)]

def readKey {α : Type} (table : Table Number) (key : String) (read : Read α) (default : α) :
    Except Error α :=
  match table.lookup key with
  | none => .ok default
  | some value => read value

def keyboardKeys : List String := ["mode", "layout", "undecoded_passthrough"]

def displayKeys : List String := ["foreground", "background", "cursor_color"]

def inputKeys : List String := ["wake_policy"]

def groups : List (String × List String) :=
  [("keyboard", keyboardKeys), ("display", displayKeys), ("input", inputKeys)]

/-- A group of settings as a table.  It may also be written as an array of the settings
in the order of `keys`, the last of which may be left out, and a point in time is a
group without settings. -/
def group (keys : List String) : Read (Table Number)
  | .table entries => .ok entries
  | .array items => .ok (keys.zip items)
  | .time _ => .ok []
  | _ => .error .badSyntax

def readKeyboard : Read KeyboardSettings := fun value => do
  let table ← group keyboardKeys value
  let mode ← readKey table "mode" (readChoice modes) .raw
  let layout ← readKey table "layout" (readChoice layouts) .us
  let undecodedPassthrough ← readKey table "undecoded_passthrough" readBool false
  return { mode, layout, undecodedPassthrough }

def readDisplay : Read DisplaySettings := fun value => do
  let table ← group displayKeys value
  let foreground ← readKey table "foreground" readColor 0x000000
  let background ← readKey table "background" readColor 0xFFFFFF
  let cursorColor ← readKey table "cursor_color" readColor 0x000000
  return { foreground, background, cursorColor }

def readInput : Read InputSettings := fun value => do
  let table ← group inputKeys value
  let wakePolicy ← readKey table "wake_policy" (readChoice wakePolicies) .everyWord
  return { wakePolicy }

def ofTable (table : Table Number) : Except Error Config := do
  let cyclesPerFrame ← readKey table "cycles_per_frame" readWord 1800
  let novsyncDelay ← readKey table "novsync_delay_ms" readWord 0
  let vsync ← readKey table "vsync" readBool false
  let keyboard ← readKey table "keyboard" readKeyboard {}
  let display ← readKey table "display" readDisplay {}
  let input ← readKey table "input" readInput {}
  return { cyclesPerFrame, novsyncDelay, vsync, keyboard, display, input }

def ofDocument (table : Table Number) : Except Error Config := do
  let config ← ofTable table
  config.validate
  return config

/-- What is read of a value under a key of the topmost table: of a group that is
written as an array no more elements than the group has settings. -/
def trimValue {ν : Type} (key : String) : Value ν → Value ν
  | .array items =>
      match groups.lookup key with
      | some keys => .array (items.take keys.length)
      | none => .array items
  | value => value

def trim {ν : Type} (table : Table ν) : Table ν :=
  table.map fun (key, value) => (key, trimValue key value)

/-- The settings of a text, of which a reader gives the draft. -/
def parseWith (reader : String → Option (Table (Option Number))) (text : String) :
    Except Error Config :=
  match (reader text).bind fun draft => Toml.Table.settle? (trim draft) with
  | none => .error .badSyntax
  | some table => ofDocument table

def parse (text : String) : Except Error Config := parseWith Toml.parse? text

end GuestConsole.Config
