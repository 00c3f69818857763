import GuestConsole.Event.Item

/-!
# Reading the event stream

The decoder takes one word at a time.  Inside an absolute time the two words
after the marker are untagged, so it remembers how far it has come.
-/

set_option autoImplicit false

namespace GuestConsole.Event

inductive DecodeError where
  | unknownKind (bits : UInt8)
  | truncated
  deriving DecidableEq, Repr

def DecodeError.message : DecodeError → String
  | .unknownKind bits => "unknown event type " ++ toString bits.toNat
  | .truncated => "truncated absolute timestamp"

inductive Decoder where
  | tagged
  | highHalf
  | lowHalf (high : UInt16)
  deriving DecidableEq, Repr

namespace Decoder

def isMidFrame (decoder : Decoder) : Bool := decoder ≠ .tagged

def feed (decoder : Decoder) (raw : UInt16) : Except DecodeError (Option Item) × Decoder :=
  match decoder with
  | .highHalf => (.ok none, .lowHalf raw)
  | .lowHalf high => (.ok (some (.absoluteTime ((high.toUInt32 <<< 16) ||| raw.toUInt32))), .tagged)
  | .tagged =>
      let word : Word := ⟨raw⟩
      match word.kind? with
      | none => (.error (.unknownKind word.kindBits), .tagged)
      | some .delay => (.ok (some (.delay word.parameter)), .tagged)
      | some .coordinate => (.ok (some (.coordinate word.parameter)), .tagged)
      | some .down => (.ok (some (.down word.parameter)), .tagged)
      | some .up => (.ok (some (.up word.parameter)), .tagged)
      | some .absoluteTime => (.ok none, .highHalf)

/-- What reading a list of words gives: the items up to the end or up to the
first error, and the decoder as it is left behind. -/
structure Reading where
  items : List Item
  error? : Option DecodeError
  decoder : Decoder

def Reading.after (item? : Option Item) (reading : Reading) : Reading :=
  { reading with items := item?.toList ++ reading.items }

/-- Reads a list of words, which must not end inside an absolute time.  After an
error the remaining words are not read. -/
def decodeAll (decoder : Decoder) : List UInt16 → Reading
  | [] => if decoder.isMidFrame then ⟨[], some .truncated, .tagged⟩ else ⟨[], none, decoder⟩
  | raw :: rest =>
      match decoder.feed raw with
      | (.error error, next) => ⟨[], some error, next⟩
      | (.ok item?, next) => (next.decodeAll rest).after item?

end Decoder

end GuestConsole.Event
