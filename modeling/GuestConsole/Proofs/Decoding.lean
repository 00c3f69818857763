import GuestConsole.Event.Decoder
import Mathlib.Algebra.Group.Nat.Defs

/-!
# How words are read

The fields of a tagged word as quotient and remainder, and what the decoder makes
of the words of a timestamp and of the words of input events.  Words spell items if
the decoder, standing outside of an absolute time, reads just these items from them,
whatever words follow.
-/

set_option autoImplicit false

namespace GuestConsole.Event

/-! ## Fields of a word -/

theorem Kind.bits_lt (kind : Kind) : kind.bits.toNat < 16 := by
  cases kind <;> decide

namespace Word

theorem toNat_parameter (word : Word) : word.parameter.toNat = word.raw.toNat % 4096 := by
  have mask : (4095 : Nat) = 2 ^ 12 - 1 := rfl
  simp only [parameter, maxParameter, UInt16.toNat_and, UInt16.reduceToNat]
  rw [mask, Nat.and_two_pow_sub_one_eq_mod]

theorem toNat_kindBits (word : Word) : word.kindBits.toNat = word.raw.toNat / 4096 := by
  have bound := word.raw.toNat_lt
  simp only [kindBits, UInt16.toNat_toUInt8, UInt16.toNat_shiftRight, UInt16.reduceToNat,
    Nat.shiftRight_eq_div_pow, Nat.reduceMod, Nat.reducePow]
  omega

theorem toNat_raw_tagged (kind : Kind) (parameter : UInt16) :
    (tagged kind parameter).raw.toNat = 4096 * kind.bits.toNat + parameter.toNat % 4096 := by
  have bound := kind.bits_lt
  have mask : (4095 : Nat) = 2 ^ 12 - 1 := rfl
  have fits : kind.bits.toNat * 2 ^ 12 < 2 ^ 16 := by omega
  simp only [tagged, maxParameter, UInt16.toNat_or, UInt16.toNat_and, UInt16.toNat_shiftLeft,
    UInt8.toNat_toUInt16, UInt16.reduceToNat, Nat.reduceMod]
  rw [mask, Nat.and_two_pow_sub_one_eq_mod, Nat.shiftLeft_eq, Nat.mod_eq_of_lt fits,
    Nat.mul_comm]
  exact (Nat.two_pow_add_eq_or_of_lt (Nat.mod_lt _ (by decide)) _).symm

theorem kind?_of_tag {word : Word} (kind : Kind)
    (tag : word.raw.toNat / 4096 = kind.bits.toNat) : word.kind? = some kind := by
  have sameBits : word.kindBits = kind.bits := by
    apply UInt8.toNat_inj.mp
    rw [toNat_kindBits, tag]
  rw [kind?, sameBits, Kind.ofBits?_bits]

theorem kind?_tagged (kind : Kind) (parameter : UInt16) :
    (tagged kind parameter).kind? = some kind := by
  apply kind?_of_tag
  rw [toNat_raw_tagged]
  omega

theorem parameter_tagged (kind : Kind) (parameter : UInt16) (narrow : parameter.toNat ≤ 4095) :
    (tagged kind parameter).parameter = parameter := by
  apply UInt16.toNat_inj.mp
  rw [toNat_parameter, toNat_raw_tagged]
  omega

theorem lowBits_eq (word : Word) : UInt16.ofNat (word.raw.toNat % 4096) = word.parameter := by
  rw [← toNat_parameter, UInt16.ofNat_toNat]

/-- The item of a word that tells of input: the tag says whether it is a coordinate, a
press or a release, and the lower twelve bits are its parameter. -/
def inputItem? (word : Word) : Option Item :=
  let parameter := UInt16.ofNat (word.raw.toNat % 4096)
  match word.raw.toNat / 4096 with
  | 1 => some (.coordinate parameter)
  | 3 => some (.down parameter)
  | 4 => some (.up parameter)
  | _ => none

end Word

/-! ## Spelling -/

namespace Decoder

/-- `words` are read as `items`, whatever follows them. -/
def Spells (words : List UInt16) (items : List Item) : Prop :=
  ∀ rest, Decoder.tagged.decodeAll (words ++ rest) =
    { Decoder.tagged.decodeAll rest with
      items := items ++ (Decoder.tagged.decodeAll rest).items }

theorem spells_nil : Spells [] [] := fun _ => rfl

theorem Spells.append {first second : List UInt16} {left right : List Item}
    (head : Spells first left) (tail : Spells second right) :
    Spells (first ++ second) (left ++ right) := by
  intro rest
  rw [List.append_assoc, head, tail]
  simp only [List.append_assoc]

theorem Spells.decodeAll_eq {words : List UInt16} {items : List Item}
    (spells : Spells words items) :
    Decoder.tagged.decodeAll words = ⟨items, none, .tagged⟩ := by
  have read := spells []
  simpa [decodeAll, isMidFrame] using read

theorem spells_word (raw : UInt16) (item : Item)
    (fed : Decoder.tagged.feed raw = (.ok (some item), .tagged)) : Spells [raw] [item] := by
  intro rest
  simp [decodeAll, fed, Reading.after]

theorem spells_inputItem (word : Word) (item : Item) (input : word.inputItem? = some item) :
    Spells [word.raw] [item] := by
  apply spells_word
  simp only [Word.inputItem?, Word.lowBits_eq] at input
  split at input
  · next tag => cases input; simp [feed, Word.kind?_of_tag .coordinate tag]
  · next tag => cases input; simp [feed, Word.kind?_of_tag .down tag]
  · next tag => cases input; simp [feed, Word.kind?_of_tag .up tag]
  · cases input

theorem spells_inputWords (event : List Word)
    (input : ∀ word ∈ event, (word.inputItem?).isSome) :
    Spells (event.map Word.raw) (event.filterMap Word.inputItem?) := by
  induction event with
  | nil => exact spells_nil
  | cons word rest ih =>
      obtain ⟨item, itemExact⟩ := Option.isSome_iff_exists.mp (input word (by simp))
      have head := spells_inputItem word item itemExact
      have tail := ih fun other member => input other (by simp [member])
      simpa [itemExact] using head.append tail

theorem toNat_highHalf (seconds : UInt32) :
    (seconds >>> 16).toUInt16.toNat = seconds.toNat / 2 ^ 16 := by
  have bound := seconds.toNat_lt
  simp only [UInt32.toNat_toUInt16, UInt32.toNat_shiftRight, UInt32.reduceToNat,
    Nat.shiftRight_eq_div_pow, Nat.reduceMod]
  omega

theorem toNat_lowHalf (seconds : UInt32) :
    (seconds &&& 0xFFFF).toUInt16.toNat = seconds.toNat % 2 ^ 16 := by
  have mask : (65535 : Nat) = 2 ^ 16 - 1 := rfl
  simp only [UInt32.toNat_toUInt16, UInt32.toNat_and, UInt32.reduceToNat]
  rw [mask, Nat.and_two_pow_sub_one_eq_mod, Nat.mod_mod]

theorem toNat_joined (high low : UInt16) :
    ((high.toUInt32 <<< 16) ||| low.toUInt32).toNat = 2 ^ 16 * high.toNat + low.toNat := by
  have bound := high.toNat_lt
  have fits : high.toNat * 2 ^ 16 < 2 ^ 32 := by omega
  simp only [UInt32.toNat_or, UInt32.toNat_shiftLeft, UInt16.toNat_toUInt32,
    UInt32.reduceToNat, Nat.reduceMod]
  rw [Nat.shiftLeft_eq, Nat.mod_eq_of_lt fits, Nat.mul_comm,
    ← Nat.two_pow_add_eq_or_of_lt low.toNat_lt]

theorem joined_halves (seconds : UInt32) :
    ((seconds >>> 16).toUInt16.toUInt32 <<< 16) ||| (seconds &&& 0xFFFF).toUInt16.toUInt32 =
      seconds := by
  apply UInt32.toNat_inj.mp
  rw [toNat_joined, toNat_highHalf, toNat_lowHalf]
  exact Nat.div_add_mod seconds.toNat (2 ^ 16)

end Decoder

def Timestamp.item : Timestamp → Item
  | .delay ms => .delay ms
  | .absolute seconds => .absoluteTime seconds

/-- The timestamp can be written without a loss. -/
def Timestamp.Narrow : Timestamp → Prop
  | .delay ms => ms.toNat ≤ 4095
  | .absolute _ => True

theorem Decoder.spells_timestamp (stamp : Timestamp) (narrow : stamp.Narrow) :
    Decoder.Spells stamp.words [stamp.item] := by
  cases stamp with
  | delay ms =>
      apply Decoder.spells_word
      have kindExact := Word.kind?_tagged .delay ms
      have parameterExact := Word.parameter_tagged .delay ms narrow
      simp [Decoder.feed, kindExact, parameterExact, Timestamp.item]
  | absolute seconds =>
      intro rest
      have kindExact := Word.kind?_tagged .absoluteTime 0
      simp only [Timestamp.words, Timestamp.item, List.cons_append, List.nil_append,
        Decoder.decodeAll, Decoder.feed, kindExact, Decoder.Reading.after, Option.toList,
        Decoder.joined_halves]

end GuestConsole.Event
