import GuestConsole.Keyboard.Decoder

/-!
# The words that keys give

Whatever the layout, a key or a character that is not ignored gives the words of one character
other than zero, maybe inside those of control and meta, or else a single word that follows
caps lock.
-/

set_option autoImplicit false

namespace GuestConsole.Keyboard

open GuestConsole.Event

theorem length_bracketed_le (code : UInt16) (control isMeta : Bool) :
    (bracketed code control isMeta).length ≤ 6 := by
  cases control <;> cases isMeta <;> simp [bracketed]

/-- The words that have been decoded, if there are any, have a property. -/
def Gives (property : List Word → Prop) (decoded : Decoded) : Prop :=
  ∀ words, decoded = .words words → property words

section Gives
variable {property : List Word → Prop}

theorem gives_words {words : List Word} (holds : property words) :
    Gives property (.words words) := by
  intro given same
  cases same
  exact holds

theorem gives_ignored (reason : Ignored) : Gives property (.ignored reason) := by
  intro words given
  cases given

theorem isLetter_ne_zero {character : UInt8} (letter : Decoder.isLetter character = true) :
    character ≠ 0 := by
  rintro rfl
  exact absurd letter (by decide)

variable (brackets : ∀ (character : UInt8) (control isMeta : Bool), character ≠ 0 →
  property (bracketed character.toUInt16 control isMeta))
include brackets

theorem gives_plain (code character : UInt8) :
    Gives property (Decoder.plain code character) := by
  unfold Decoder.plain
  split
  case isTrue => exact gives_ignored _
  case isFalse some => exact gives_words (brackets character false false some)

theorem gives_decodeMapped (layout : Layout) (key : Key) :
    Gives property (Decoder.decodeMapped layout key) := by
  unfold Decoder.decodeMapped
  split
  case isTrue => exact gives_ignored _
  case isFalse =>
    split
    case isTrue =>
      split
      · exact gives_ignored _
      · exact gives_plain brackets _ _
    case isFalse =>
      split
      case isTrue =>
        dsimp only
        split
        case isTrue letter => exact gives_words (brackets _ true false (isLetter_ne_zero letter))
        case isFalse => exact gives_plain brackets _ _
      case isFalse =>
        split
        · exact gives_plain brackets _ _
        · exact gives_plain brackets _ _

theorem gives_decodeKey
    (latches : ∀ (keyboard : Decoder) code, property (keyboard.latched code))
    (keyboard : Decoder) (key : Key) : Gives property (keyboard.decodeKey key).1 := by
  simp only [Decoder.decodeKey]
  split
  · exact gives_words (latches _ _)
  · split
    · split
      · exact gives_words (latches _ _)
      · exact gives_ignored _
    · exact gives_decodeMapped brackets _ key

theorem gives_decodeCharacter (keyboard : Decoder) (character : Character) :
    Gives property (keyboard.decodeCharacter character).1 := by
  unfold Decoder.decodeCharacter
  split
  case isTrue => exact gives_ignored _
  case isFalse some =>
    split
    · exact gives_ignored _
    · exact gives_words (brackets _ _ _ some)

theorem gives_decodeSequence (keyboard : Decoder) (bytes : List UInt8) :
    Gives property (keyboard.decodeSequence bytes).1 := by
  unfold Decoder.decodeSequence
  split
  · exact gives_ignored _
  · exact gives_decodeCharacter brackets keyboard _

end Gives

end GuestConsole.Keyboard
