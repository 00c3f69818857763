import GuestConsole.Proofs.Decoding
import GuestConsole.Proofs.KeyWords

/-!
# No key stays down

One keyboard reads key presses and characters in any order.  Caps lock follows the number of
its presses.  All other words, those of keys beyond the tables apart, go down and come up again
within one event, so that the guest is left with no key down that it was not left with before.
-/

set_option autoImplicit false

namespace GuestConsole.Keyboard

open GuestConsole.Event

def Character.modifiers? (character : Character) : Option Modifiers :=
  if character.byte = 0 then none
  else [(0, ⟨0⟩), (1, ⟨0x01⟩), (2, ⟨0x08⟩), (3, ⟨0x09⟩)].lookup character.flags

inductive Input where
  | press (key : Key)
  | typed (character : Character)
  deriving DecidableEq, Repr

namespace Input

def isCapsLock : Input → Bool
  | .press key => key.code = 0x39
  | .typed _ => false

def isBeyond : Input → Bool
  | .press key => 127 < key.code
  | .typed _ => false

/-- The modifiers that an input comes with.  Those of a key count whatever it gives. -/
def modifiers? : Input → Option Modifiers
  | .press key => some key.modifiers
  | .typed character => character.modifiers?

end Input

def Decoder.read (decoder : Decoder) : Input → Decoded × Decoder
  | .press key => decoder.decodeKey key
  | .typed character => decoder.decodeCharacter character

def Decoder.readAll : Decoder → List Input → List (Input × Decoded) × Decoder
  | decoder, [] => ([], decoder)
  | decoder, input :: rest =>
      let (decoded, next) := decoder.read input
      let (others, last) := next.readAll rest
      ((input, decoded) :: others, last)

/-! ## Following the words -/

/-- A code is not zero and fits into a word. -/
def IsCode (code : UInt16) : Prop := code ≠ 0 ∧ code.toNat ≤ 4095

/-- One key goes down and comes up again inside the words of others. -/
inductive Nested : List Word → Prop
  | pair (code : UInt16) (proper : IsCode code) : Nested [Word.down code, Word.up code]
  | around (code : UInt16) (proper : IsCode code) {inner : List Word} (nested : Nested inner) :
      Nested (Word.down code :: inner ++ [Word.up code])

/-- The keys that are down after a word, the latest first.  Only the latest one may come up. -/
def afterWord (down : List UInt16) (word : Word) : Option (List UInt16) :=
  match word.kind?, down with
  | some .down, _ => some (word.parameter :: down)
  | some .up, latest :: others => if latest = word.parameter then some others else none
  | _, _ => none

def afterWords (down : List UInt16) (words : List Word) : Option (List UInt16) :=
  words.foldlM afterWord down

section
variable {code : UInt16} (proper : IsCode code)
include proper

theorem afterWord_down (down : List UInt16) :
    afterWord down (Word.down code) = some (code :: down) := by
  simp only [afterWord, Word.down, Word.kind?_tagged, Word.parameter_tagged _ _ proper.2]

theorem afterWord_up (down : List UInt16) :
    afterWord (code :: down) (Word.up code) = some down := by
  simp only [afterWord, Word.up, Word.kind?_tagged, Word.parameter_tagged _ _ proper.2,
    if_true]

end

theorem afterWords_append (down : List UInt16) (first second : List Word) :
    afterWords down (first ++ second) =
      (afterWords down first).bind fun down => afterWords down second :=
  List.foldlM_append

theorem afterWords_up {code : UInt16} (proper : IsCode code) (down : List UInt16) :
    afterWords (code :: down) [Word.up code] = some down := by
  rw [afterWords, List.foldlM_cons, afterWord_up proper]
  rfl

theorem Nested.afterWords_eq {words : List Word} (nested : Nested words) (down : List UInt16) :
    afterWords down words = some down := by
  induction nested generalizing down with
  | pair code proper =>
      rw [afterWords, List.foldlM_cons, afterWord_down proper]
      exact afterWords_up proper down
  | @around code proper inner nested ih =>
      rw [afterWords, List.cons_append, List.foldlM_cons, afterWord_down proper]
      show afterWords (code :: down) (inner ++ [Word.up code]) = some down
      rw [afterWords_append, ih]
      exact afterWords_up proper down

def IsStroke (words : List Word) : Prop := Nested words ∧ words.length ≤ 6

theorem isStroke_bracketed (character : UInt8) (control isMeta : Bool) (some : character ≠ 0) :
    IsStroke (bracketed character.toUInt16 control isMeta) := by
  have small := character.toNat_lt
  have proper : IsCode character.toUInt16 := by
    refine ⟨?_, ?_⟩
    · intro zero
      apply some
      apply UInt8.toNat_inj.mp
      rw [← UInt8.toNat_toUInt16, zero]
      rfl
    · rw [UInt8.toNat_toUInt16]
      omega
  have controlProper : IsCode controlCode := by unfold IsCode; decide
  have metaProper : IsCode metaCode := by unfold IsCode; decide
  have key := Nested.pair character.toUInt16 proper
  have withMeta := Nested.around metaCode metaProper key
  refine ⟨?_, length_bracketed_le _ control isMeta⟩
  cases control with
  | false =>
      cases isMeta with
      | false => exact key
      | true => exact withMeta
  | true =>
      cases isMeta with
      | false => exact .around controlCode controlProper key
      | true => exact .around controlCode controlProper withMeta

/-! ## A single input -/

/-- What reading an input does, for every kind of input. -/
structure Reads (decoder : Decoder) (input : Input) (decoded : Decoded) (next : Decoder) :
    Prop where
  settings : next.layout = decoder.layout ∧ next.passthrough = decoder.passthrough
  held : next.held = input.modifiers?.getD decoder.held
  capsLock : next.capsLock = (decoder.capsLock != input.isCapsLock)
  turned : input.isCapsLock →
    decoded = .words [if decoder.capsLock then Word.up 139 else Word.down 139]
  beyond : ∀ key, input = .press key → 127 < key.code → decoder.passthrough = true →
    decoded = .words [if decoder.capsLock then Word.down key.code.toUInt16
      else Word.up key.code.toUInt16]
  stroke : input.isCapsLock = false →
    (decoder.passthrough && input.isBeyond) = false → Gives IsStroke decoded

section
variable (decoder : Decoder) {key : Key}

theorem decodeKey_capsLock (caps : key.code = 0x39) :
    decoder.decodeKey key =
      (.words [if decoder.capsLock then Word.up 139 else Word.down 139],
        { decoder with held := key.modifiers, capsLock := !decoder.capsLock }) := by
  have caps : key.code = capsLockKey := caps
  simp only [Decoder.decodeKey]
  rw [if_pos caps, Decoder.latched]
  cases decoder.capsLock <;> rfl

theorem decodeKey_beyond (beyond : 127 < key.code) :
    decoder.decodeKey key =
      (if decoder.passthrough then
          .words [if decoder.capsLock then Word.down key.code.toUInt16
            else Word.up key.code.toUInt16]
        else .ignored (.notAscii key.code),
        { decoder with held := key.modifiers }) := by
  have other : key.code ≠ capsLockKey := by
    intro caps
    rw [caps] at beyond
    exact absurd beyond (by decide)
  simp only [Decoder.decodeKey, if_neg other, gt_iff_lt, if_pos beyond]
  cases decoder.passthrough <;> rfl

theorem decodeKey_mapped (other : key.code ≠ 0x39) (inside : ¬ 127 < key.code) :
    decoder.decodeKey key =
      (Decoder.decodeMapped decoder.layout key, { decoder with held := key.modifiers }) := by
  simp only [Decoder.decodeKey, capsLockKey, if_neg other, gt_iff_lt, if_neg inside]

end

theorem decodeKey_reads (decoder : Decoder) (key : Key) :
    Reads decoder (.press key) (decoder.decodeKey key).1 (decoder.decodeKey key).2 := by
  by_cases caps : key.code = 0x39
  · have inside : ¬ 127 < key.code := by
      rw [caps]
      decide
    rw [decodeKey_capsLock decoder caps]
    constructor <;> simp [Input.modifiers?, Input.isCapsLock, caps]
  · by_cases beyond : 127 < key.code
    · rw [decodeKey_beyond decoder beyond]
      constructor
      case stroke =>
        intro _ settled
        have blocked : decoder.passthrough = false := by
          simpa [Input.isBeyond, beyond] using settled
        rw [blocked]
        exact gives_ignored _
      all_goals simp [Input.modifiers?, Input.isCapsLock, caps]
    · rw [decodeKey_mapped decoder caps beyond]
      constructor
      case stroke =>
        exact fun _ _ => gives_decodeMapped isStroke_bracketed decoder.layout key
      all_goals simp [Input.modifiers?, Input.isCapsLock, caps]
      exact fun further => absurd further beyond

theorem flags_cases (flags : UInt8) :
    3 < flags ∨ flags = 0 ∨ flags = 1 ∨ flags = 2 ∨ flags = 3 := by
  simp only [← UInt8.toNat_inj, UInt8.lt_iff_toNat_lt, UInt8.reduceToNat]
  omega

theorem decodeCharacter_held (decoder : Decoder) (character : Character) :
    (decoder.decodeCharacter character).2 =
      { decoder with held := character.modifiers?.getD decoder.held } := by
  have largest : Character.controlFlag ||| Character.metaFlag = 3 := rfl
  unfold Decoder.decodeCharacter Character.modifiers?
  by_cases none : character.byte = 0
  · rw [if_pos none, if_pos none]
    rfl
  · rw [if_neg none, if_neg none, largest]
    rcases flags_cases character.flags with unknown | flags | flags | flags | flags
    · have unlisted (known : UInt8) (small : known ≤ 3) : (character.flags == known) = false := by
        rw [beq_eq_false_iff_ne]
        rintro rfl
        exact absurd unknown (UInt8.not_lt.mpr small)
      rw [if_pos unknown]
      simp only [List.lookup_cons, List.lookup_nil, unlisted 0 (by decide),
        unlisted 1 (by decide), unlisted 2 (by decide), unlisted 3 (by decide)]
      rfl
    all_goals
      rw [flags]
      rfl

theorem decodeCharacter_reads (decoder : Decoder) (character : Character) :
    Reads decoder (.typed character) (decoder.decodeCharacter character).1
      (decoder.decodeCharacter character).2 := by
  rw [decodeCharacter_held]
  constructor
  case stroke => exact fun _ _ => gives_decodeCharacter isStroke_bracketed decoder character
  all_goals simp [Input.isCapsLock, Input.modifiers?]

theorem read_reads (decoder : Decoder) (input : Input) :
    Reads decoder input (decoder.read input).1 (decoder.read input).2 := by
  cases input with
  | press key => exact decodeKey_reads decoder key
  | typed character => exact decodeCharacter_reads decoder character

/-! ## Runs -/

def turn (presses : Nat) : Decoded :=
  .words [if presses % 2 = 0 then Word.down 139 else Word.up 139]

/-- All words that have been given, those of the caps-lock key apart. -/
def strokes (readings : List (Input × Decoded)) : List Word :=
  readings.flatMap fun
    | (input, .words words) => if input.isCapsLock then [] else words
    | (_, .ignored _) => []

structure Led (layout : Layout) (passthrough : Bool) (readings : List (Input × Decoded))
    (decoder : Decoder) : Prop where
  settings : decoder.layout = layout ∧ decoder.passthrough = passthrough
  capsLock : decoder.capsLock = decide ((readings.countP (·.1.isCapsLock)) % 2 = 1)
  turns : (readings.filter (·.1.isCapsLock)).map (·.2) =
    (List.range (readings.countP (·.1.isCapsLock))).map turn
  held : decoder.held = ((readings.filterMap (·.1.modifiers?)).getLast?).getD {}
  released : passthrough = false → afterWords [] (strokes readings) = some []

theorem led_nothing (layout : Layout) (passthrough : Bool) :
    Led layout passthrough [] { layout, passthrough } where
  settings := ⟨rfl, rfl⟩
  capsLock := rfl
  turns := rfl
  held := rfl
  released := fun _ => rfl

section Runs
variable {layout : Layout} {passthrough : Bool} {readings : List (Input × Decoded)}
  {decoder : Decoder}

theorem read_led (led : Led layout passthrough readings decoder) (input : Input) :
    Led layout passthrough (readings ++ [(input, (decoder.read input).1)])
      (decoder.read input).2 := by
  have reads := read_reads decoder input
  have parity := Nat.mod_two_eq_zero_or_one (readings.countP (·.1.isCapsLock))
  constructor
  case settings =>
    exact ⟨reads.settings.1.trans led.settings.1, reads.settings.2.trans led.settings.2⟩
  case capsLock =>
    rw [reads.capsLock, led.capsLock, List.countP_append, List.countP_singleton]
    cases input.isCapsLock with
    | false => simp
    | true => rcases parity with even | odd <;> simp [Nat.add_mod, *]
  case turns =>
    rw [List.filter_append, List.map_append, led.turns, List.countP_append, List.countP_singleton]
    cases caps : input.isCapsLock with
    | false => simp [caps]
    | true =>
        have turned := reads.turned caps
        rw [led.capsLock] at turned
        rw [if_pos rfl, List.range_succ, List.map_append, turned]
        rcases parity with even | odd <;> simp [turn, *]
  case held =>
    rw [reads.held, led.held, List.filterMap_append]
    cases given : input.modifiers? <;> simp [given]
  case released =>
    intro blocked
    rw [strokes, List.flatMap_append, afterWords_append, ← strokes, led.released blocked]
    show afterWords [] (strokes [(input, (decoder.read input).1)]) = some []
    cases decoded : (decoder.read input).1 with
    | ignored reason => rfl
    | words words =>
        cases caps : input.isCapsLock with
        | true => simp [strokes, caps, afterWords]
        | false =>
            have settled : (decoder.passthrough && input.isBeyond) = false := by
              rw [led.settings.2, blocked, Bool.false_and]
            obtain ⟨nested, _⟩ := reads.stroke caps settled words decoded
            simpa [strokes, caps] using nested.afterWords_eq []

theorem readAll_led (inputs : List Input) (led : Led layout passthrough readings decoder) :
    Led layout passthrough (readings ++ (decoder.readAll inputs).1)
      (decoder.readAll inputs).2 := by
  induction inputs generalizing readings decoder with
  | nil => rwa [Decoder.readAll, List.append_nil]
  | cons input rest ih =>
      have whole := ih (read_led led input)
      rwa [List.append_assoc] at whole

end Runs

theorem readAll_inputs (inputs : List Input) (decoder : Decoder) :
    (decoder.readAll inputs).1.map Prod.fst = inputs := by
  induction inputs generalizing decoder with
  | nil => rfl
  | cons input rest ih => exact congrArg (input :: ·) (ih _)

theorem capsLock_ignored {decoder next : Decoder} {input : Input} {reason : Ignored}
    (reads : Reads decoder input (.ignored reason) next) : next.capsLock = decoder.capsLock := by
  cases caps : input.isCapsLock with
  | false => rw [reads.capsLock, caps, Bool.bne_false]
  | true => cases reads.turned caps

/-- One keyboard with any layout reads any inputs.  Caps lock is on after an odd number of its
presses, which give a single word each, down and up in turn.  The modifiers held are those of
the latest input that comes with any.  An input that is neither caps lock nor passed on from
beyond the tables gives nested words, behind which the same keys are down as before.  A key
that is passed on gives a single word, down while caps lock is on.  What is ignored does not
turn caps lock over. -/
theorem keys_come_up_again (layout : Layout) (passthrough : Bool) (inputs : List Input) :
    let (readings, decoder) := Decoder.readAll { layout, passthrough } inputs
    let presses := inputs.countP Input.isCapsLock
    (decoder.capsLock = true ↔ presses % 2 = 1) ∧
    (readings.filter (·.1.isCapsLock)).map (·.2) = (List.range presses).map turn ∧
    decoder.held = (inputs.filterMap Input.modifiers?).getLast?.getD {} ∧
    (passthrough = false → afterWords [] (strokes readings) = some []) ∧
    ∀ input,
      let (decoded, next) := decoder.read input
      (input.isCapsLock = false → (passthrough && input.isBeyond) = false →
        ∀ words, decoded = .words words →
          Nested words ∧ words.length ≤ 6 ∧ ∀ down, afterWords down words = some down) ∧
      (∀ key, input = .press key → 127 < key.code → passthrough = true →
        decoded = .words [if decoder.capsLock then Word.down key.code.toUInt16
          else Word.up key.code.toUInt16]) ∧
      (∀ reason, decoded = .ignored reason → next.capsLock = decoder.capsLock) := by
  have led := readAll_led inputs (led_nothing layout passthrough)
  have inputsRead := readAll_inputs inputs { layout, passthrough }
  revert led inputsRead
  rcases Decoder.readAll { layout, passthrough } inputs with ⟨readings, decoder⟩
  rintro led rfl
  rw [List.nil_append] at led
  dsimp only at led ⊢
  refine ⟨?_, ?_, ?_, led.released, fun input => ?_⟩
  · rw [led.capsLock, decide_eq_true_iff, List.countP_map]
    rfl
  · rw [led.turns, List.countP_map]
    rfl
  · rw [led.held, List.filterMap_map]
    rfl
  · have reads := read_reads decoder input
    have same : decoder.passthrough = passthrough := led.settings.2
    refine ⟨?_, ?_, ?_⟩
    · intro other settled words given
      rw [← same] at settled
      obtain ⟨nested, short⟩ := reads.stroke other settled words given
      exact ⟨nested, short, nested.afterWords_eq⟩
    · intro key press beyond passed
      exact reads.beyond key press beyond (same.trans passed)
    · intro reason ignored
      rw [ignored] at reads
      exact capsLock_ignored reads

/-- A German keyboard: caps lock with shift, a character with control and meta, a bracket by
alt, a key beyond the tables and a refused character, and then a letter with control. -/
theorem keys_come_up_again_german :
    let inputs : List Input :=
      [.press ⟨0x39, ⟨0x02⟩⟩, .typed ⟨120, 3⟩, .press ⟨0x25, ⟨0x40⟩⟩, .press ⟨0xE0, ⟨0x20⟩⟩,
        .typed ⟨97, 4⟩]
    let (readings, decoder) := Decoder.readAll { layout := .german } inputs
    let letter := Input.press ⟨0x06, ⟨0x11⟩⟩
    let words := [Word.down 138, Word.down 99, Word.up 99, Word.up 138]
    decoder.capsLock = true ∧ decoder.held = ⟨0x20⟩ ∧
    strokes readings = [Word.down 138, Word.down 136, Word.down 120, Word.up 120, Word.up 136,
      Word.up 138, Word.down 91, Word.up 91] ∧
    afterWords [] (strokes readings) = some [] ∧
    (letter.isCapsLock = false ∧ letter.isBeyond = false ∧
      (decoder.read letter).1 = .words words ∧ Nested words) := by
  intro inputs
  obtain ⟨capsLock, _, held, released, next⟩ := keys_come_up_again .german false inputs
  have given : ((Decoder.readAll { layout := .german } inputs).2.read
      (.press ⟨0x06, ⟨0x11⟩⟩)).1 =
        .words [Word.down 138, Word.down 99, Word.up 99, Word.up 138] := by
    decide +kernel
  obtain ⟨nested, _⟩ := (next (.press ⟨0x06, ⟨0x11⟩⟩)).1 (by decide) rfl _ given
  exact ⟨capsLock.mpr (by decide), held.trans (by decide), by decide +kernel, released rfl,
    by decide, by decide, given, nested⟩

end GuestConsole.Keyboard
