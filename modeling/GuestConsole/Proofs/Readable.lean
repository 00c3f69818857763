import GuestConsole.Proofs.Groups
import GuestConsole.Proofs.KeyWords

/-!
# Reading groups back

All words of keys, buttons and motions are input words.  The words of accepted groups are
therefore read without an error, as timestamps and input items.
-/

set_option autoImplicit false

namespace GuestConsole.Console

open GuestConsole.Event GuestConsole.Keyboard

/-- All words of an event tell of input. -/
def IsInput (event : List Word) : Prop := ∀ word ∈ event, word.inputItem?.isSome

/-! ## The words of devices -/

theorem inputItem?_tagged (kind : Kind) (parameter : UInt16) :
    (Word.tagged kind parameter).inputItem? =
      match kind with
      | .coordinate => some (.coordinate (parameter % 4096))
      | .down => some (.down (parameter % 4096))
      | .up => some (.up (parameter % 4096))
      | _ => none := by
  have tag : (Word.tagged kind parameter).raw.toNat / 4096 = kind.bits.toNat := by
    rw [Word.toNat_raw_tagged]
    omega
  have low : UInt16.ofNat ((Word.tagged kind parameter).raw.toNat % 4096) = parameter % 4096 := by
    have modulus : (4096 : UInt16).toNat = 4096 := rfl
    apply UInt16.toNat_inj.mp
    rw [Word.toNat_raw_tagged, UInt16.toNat_ofNat', UInt16.toNat_mod, modulus]
    omega
  cases kind <;> simp [Word.inputItem?, tag, low, Kind.bits]

/-- All words of an event tell of keys or buttons that go down or up. -/
def IsPress (event : List Word) : Prop :=
  ∀ word ∈ event, ∃ code, word = .down code ∨ word = .up code

theorem IsPress.isInput {event : List Word} (press : IsPress event) : IsInput event := by
  intro word member
  obtain ⟨code, rfl | rfl⟩ := press word member
  · rw [Word.down, inputItem?_tagged]
    rfl
  · rw [Word.up, inputItem?_tagged]
    rfl

theorem isPress_bracketed (code : UInt16) (control isMeta : Bool) :
    IsPress (bracketed code control isMeta) := by
  intro word member
  have ways : word = .down code ∨ word = .up code ∨ word = .down metaCode ∨
      word = .up metaCode ∨ word = .down controlCode ∨ word = .up controlCode := by
    cases control <;> cases isMeta <;> simp [bracketed] at member <;> tauto
  rcases ways with down | up | down | up | down | up
  · exact ⟨_, .inl down⟩
  · exact ⟨_, .inr up⟩
  · exact ⟨_, .inl down⟩
  · exact ⟨_, .inr up⟩
  · exact ⟨_, .inl down⟩
  · exact ⟨_, .inr up⟩

theorem isPress_latched (keyboard : Keyboard.Decoder) (code : UInt16) :
    IsPress (keyboard.latched code) := by
  intro word member
  rw [Keyboard.Decoder.latched, List.mem_singleton] at member
  refine ⟨code, ?_⟩
  rw [member]
  split
  · exact .inl rfl
  · exact .inr rfl

/-! ## The groups of a delivery -/

def AllInput (groups : List Group) : Prop := ∀ group ∈ groups, ∀ event ∈ group, IsInput event

theorem allInput_append {first second : List Group} (left : AllInput first)
    (right : AllInput second) : AllInput (first ++ second) := by
  intro group member
  rcases List.mem_append.mp member with early | late
  · exact left group early
  · exact right group late

def AllPresses (groups : List Group) : Prop := ∀ group ∈ groups, ∀ event ∈ group, IsPress event

theorem AllPresses.allInput {groups : List Group} (presses : AllPresses groups) :
    AllInput groups :=
  fun group member event listed => (presses group member event listed).isInput

theorem allPresses_keyGroups {decoded : List Decoded}
    (gives : ∀ one ∈ decoded, Gives IsPress one) :
    AllPresses (keyGroups decoded) := by
  intro group member event listed
  obtain ⟨one, inDecoded, given⟩ := List.mem_filterMap.mp member
  cases one with
  | ignored reason => cases given
  | words words =>
      cases given
      rw [List.mem_singleton] at listed
      rw [listed]
      exact gives _ inDecoded words rfl

theorem gives_decodeKeys (keyboard : Keyboard.Decoder) (keys : List Key) :
    ∀ one ∈ (decodeKeys keyboard keys).1, Gives IsPress one := by
  induction keys generalizing keyboard with
  | nil => exact fun one member => nomatch member
  | cons key rest ih =>
      intro one member
      rcases List.mem_cons.mp member with rfl | later
      · exact gives_decodeKey (fun _ _ _ _ => isPress_bracketed _ _ _) isPress_latched keyboard key
      · exact ih _ one later

theorem allPresses_typed (typed : Typed) (keyboard : Keyboard.Decoder) :
    AllPresses (keyGroups (typed.decode keyboard).1) := by
  apply allPresses_keyGroups
  cases typed with
  | presses keys => exact gives_decodeKeys keyboard keys
  | sequence bytes? =>
      cases bytes? with
      | none => exact fun one member => nomatch member
      | some bytes =>
          intro one member
          rw [List.mem_singleton.mp member]
          exact gives_decodeSequence (fun _ _ _ _ => isPress_bracketed _ _ _) keyboard bytes

theorem allPresses_buttonGroups (before now : UInt8) : AllPresses (buttonGroups before now) := by
  intro group member event listed word inEvent
  obtain ⟨button, _, rfl⟩ := List.mem_map.mp member
  rw [List.mem_singleton.mp listed, List.mem_singleton] at inEvent
  refine ⟨button.code, ?_⟩
  rw [inEvent]
  split
  · exact .inl rfl
  · exact .inr rfl

theorem isInput_coordinate (value : UInt16) : IsInput [Word.coordinate value] := by
  intro word member
  rw [List.mem_singleton.mp member, Word.coordinate, inputItem?_tagged]
  rfl

theorem allInput_motionGroups (before? : Option Display.Position) (now : Display.Position) :
    AllInput (motionGroups before? now) := by
  intro group member event listed
  cases before? with
  | none => cases member
  | some before =>
      simp only [motionGroups] at member
      split at member
      · cases member
      · rw [List.mem_singleton] at member
        rw [member] at listed
        rcases List.mem_cons.mp listed with rfl | second
        · exact isInput_coordinate now.x
        · rw [List.mem_singleton.mp second]
          exact isInput_coordinate now.y

theorem allInput_groups (feed : Feed) (delivery : Delivery) : AllInput (feed.groups delivery) := by
  have typed := allPresses_typed delivery.typed feed.keyboard
  have buttons := allPresses_buttonGroups feed.buttons delivery.buttons
  exact allInput_append (allInput_append typed.allInput buttons.allInput)
    (allInput_motionGroups _ _)

/-! ## Accepted groups -/

/-- What has been written is read as its items. -/
def Written.Readable (written : Written) : Prop :=
  Event.Decoder.Spells written.words written.items

theorem spells_spell (now unixSeconds : UInt32) (group : Group)
    (input : ∀ event ∈ group, IsInput event) (previous? : Option UInt32) :
    Event.Decoder.Spells (spell now unixSeconds previous? group)
      (spelt now unixSeconds previous? group) := by
  induction group generalizing previous? with
  | nil => exact Event.Decoder.spells_nil
  | cons event rest ih =>
      have stamp := Event.Decoder.spells_timestamp _
        (Timestamp.since_narrow previous? now unixSeconds)
      have words := Event.Decoder.spells_inputWords event (input event List.mem_cons_self)
      have others := ih (fun other member => input other (List.mem_cons_of_mem event member))
        (some now)
      exact (stamp.append words).append others

theorem offer_readable {written : Written} {group : Group} (taken : Nat)
    (now unixSeconds : UInt32) (readable : written.Readable)
    (input : ∀ event ∈ group, IsInput event) :
    (written.offer taken now unixSeconds group).Readable := by
  unfold Written.offer
  dsimp only
  split
  · exact readable.append (spells_spell now unixSeconds group input written.previous?)
  · exact readable

theorem offers_readable {written : Written} {groups : List Group} (taken : Nat)
    (now unixSeconds : UInt32) (readable : written.Readable) (input : AllInput groups) :
    (groups.foldl (Written.offer taken now unixSeconds) written).Readable := by
  induction groups generalizing written with
  | nil => exact readable
  | cons group rest ih =>
      apply ih
      · exact offer_readable taken now unixSeconds readable (input group List.mem_cons_self)
      · exact fun other member => input other (List.mem_cons_of_mem group member)

theorem take_readable {feed : Feed} (taken : Nat) (delivery : Delivery)
    (readable : feed.written.Readable) : (feed.take taken delivery).written.Readable :=
  offers_readable taken delivery.now delivery.unixSeconds readable (allInput_groups feed delivery)

end GuestConsole.Console
