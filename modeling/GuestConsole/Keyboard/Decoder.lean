import GuestConsole.Event.Word
import GuestConsole.Keyboard.Character
import GuestConsole.Keyboard.Key
import GuestConsole.Keyboard.Layout

/-!
# From keys to event words

The guest expects a key as a down word and an up word, inside a pair of words for
control or meta where those are held.  All words of a key belong to one event.
-/

set_option autoImplicit false

namespace GuestConsole.Keyboard

open GuestConsole.Event

inductive Ignored where
  | notAscii (code : UInt8)
  | metaCombination
  | unmappedAlt (code : UInt8)
  | unmapped (code : UInt8)
  | nullCharacter
  | invalidFlags (flags : UInt8)
  | unsupportedSequence
  deriving DecidableEq, Repr

inductive Decoded where
  | words (words : List Word)
  | ignored (reason : Ignored)
  deriving DecidableEq, Repr

def controlCode : UInt16 := 138
def metaCode : UInt16 := 136
def capsLockCode : UInt16 := 139

def capsLockKey : UInt8 := 0x39

/-- The words of a key, those of meta around them and those of control outermost. -/
def bracketed (code : UInt16) (control isMeta : Bool) : List Word :=
  let key := [Word.down code, Word.up code]
  let key := if isMeta then Word.down metaCode :: key ++ [Word.up metaCode] else key
  if control then Word.down controlCode :: key ++ [Word.up controlCode] else key

structure Decoder where
  layout : Layout
  passthrough : Bool := false
  held : Modifiers := {}
  capsLock : Bool := false

namespace Decoder

/-- A single word under `code`: down while caps lock is on, up while it is off. -/
def latched (decoder : Decoder) (code : UInt16) : List Word :=
  [if decoder.capsLock then Word.down code else Word.up code]

def isLetter (character : UInt8) : Bool := 0x61 ≤ character && character ≤ 0x7A

def plain (code character : UInt8) : Decoded :=
  if character = 0 then .ignored (.unmapped code)
  else .words (bracketed character.toUInt16 false false)

/-- What a key within the tables gives.  Of the modifiers, alt is looked at first
where the layout has alt characters, then control, then shift. -/
def decodeMapped (layout : Layout) (key : Key) : Decoded :=
  if key.modifiers.hasMeta then .ignored .metaCombination
  else if key.modifiers.hasAlt && layout.alternate.isSome then
    match layout.alternate? key.code with
    | none => .ignored (.unmappedAlt key.code)
    | some character => plain key.code character
  else if key.modifiers.hasControl then
    let character := layout.base key.code
    if isLetter character then .words (bracketed character.toUInt16 true false)
    else plain key.code character
  else if key.modifiers.hasShift then plain key.code (layout.shifted key.code)
  else plain key.code (layout.base key.code)

def decodeKey (decoder : Decoder) (key : Key) : Decoded × Decoder :=
  let decoder := { decoder with held := key.modifiers }
  if key.code = capsLockKey then
    let decoder := { decoder with capsLock := !decoder.capsLock }
    (.words (decoder.latched capsLockCode), decoder)
  else if key.code > 127 then
    if decoder.passthrough then (.words (decoder.latched key.code.toUInt16), decoder)
    else (.ignored (.notAscii key.code), decoder)
  else (decodeMapped decoder.layout key, decoder)

def heldFor (control isMeta : Bool) : Modifiers :=
  ⟨(if control then Modifiers.leftControl else 0) ||| (if isMeta then Modifiers.leftMeta else 0)⟩

/-- Reads a character.  One that is refused leaves the modifiers as they are. -/
def decodeCharacter (decoder : Decoder) (character : Character) : Decoded × Decoder :=
  if character.byte = 0 then (.ignored .nullCharacter, decoder)
  else if character.flags > Character.controlFlag ||| Character.metaFlag then
    (.ignored (.invalidFlags character.flags), decoder)
  else
    let control := character.flags &&& Character.controlFlag != 0
    let isMeta := character.flags &&& Character.metaFlag != 0
    (.words (bracketed character.byte.toUInt16 control isMeta),
      { decoder with held := heldFor control isMeta })

def decodeSequence (decoder : Decoder) (bytes : List UInt8) : Decoded × Decoder :=
  match Character.ofSequence? bytes with
  | none => (.ignored .unsupportedSequence, decoder)
  | some character => decoder.decodeCharacter character

end Decoder

end GuestConsole.Keyboard
