import GuestConsole.Console.Frame
import GuestConsole.Proofs.Buttons
import GuestConsole.Proofs.Timeline

/-!
# The groups of events that input consists of

What the devices deliver in a frame makes a list of groups of events, each of which
is queued as a whole or dropped as a whole.  The words of all accepted groups are
what the guest can ever read.
-/

set_option autoImplicit false

namespace GuestConsole.Console

open GuestConsole.Display GuestConsole.Event GuestConsole.Keyboard

/-! ## Groups -/

/-- Events that are queued together or not at all. -/
abbrev Group := List (List Word)

inductive Typed where
  | presses (keys : List Key)
  | sequence (bytes? : Option (List UInt8))

def Typed.take (count : Nat) : Typed → Typed
  | .presses keys => .presses (keys.take count)
  | .sequence bytes? => if count = 0 then .sequence none else .sequence bytes?

def decodeKeys : Keyboard.Decoder → List Key → List Decoded × Keyboard.Decoder
  | keyboard, [] => ([], keyboard)
  | keyboard, key :: rest =>
      let first := keyboard.decodeKey key
      let others := decodeKeys first.2 rest
      (first.1 :: others.1, others.2)

def Typed.decode (keyboard : Keyboard.Decoder) : Typed → List Decoded × Keyboard.Decoder
  | .presses keys => decodeKeys keyboard keys
  | .sequence none => ([], keyboard)
  | .sequence (some bytes) =>
      let first := keyboard.decodeSequence bytes
      ([first.1], first.2)

def keyGroup? : Decoded → Option Group
  | .words words => some [words]
  | .ignored _ => none

def keyGroups (decoded : List Decoded) : List Group := decoded.filterMap keyGroup?

def buttonGroups (before now : UInt8) : List Group :=
  (Mouse.Button.all.filter fun button => button.isIn before != button.isIn now).map
    fun button => [[if button.isIn now then Word.down button.code else Word.up button.code]]

def motionGroups (before? : Option Position) (now : Position) : List Group :=
  match before? with
  | none => []
  | some before =>
      if before = now then [] else [[[Word.coordinate now.x], [Word.coordinate now.y]]]

structure Delivery where
  now : UInt32
  unixSeconds : UInt32
  typed : Typed
  buttons : UInt8
  pointer : Position

/-! ## The words of accepted groups -/

def spell (now unixSeconds : UInt32) : Option UInt32 → Group → List UInt16
  | _, [] => []
  | previous?, event :: rest =>
      (Timestamp.since previous? now unixSeconds).words ++ event.map Word.raw
        ++ spell now unixSeconds (some now) rest

def spelt (now unixSeconds : UInt32) : Option UInt32 → Group → List Item
  | _, [] => []
  | previous?, event :: rest =>
      (Timestamp.since previous? now unixSeconds).item :: event.filterMap Word.inputItem?
        ++ spelt now unixSeconds (some now) rest

/-- The words of all groups accepted so far with the items that they are to be read as, and
the tick of the latest of them. -/
structure Written where
  words : List UInt16 := []
  items : List Item := []
  previous? : Option UInt32 := none

/-- Offers a group when the guest has taken `taken` words.  It is accepted if it fits
into 256 words together with those that wait. -/
def Written.offer (taken : Nat) (now unixSeconds : UInt32) (written : Written)
    (group : Group) : Written :=
  let added := spell now unixSeconds written.previous? group
  if written.words.length - taken + added.length ≤ 256 then
    { words := written.words ++ added
      items := written.items ++ spelt now unixSeconds written.previous? group
      previous? := if group.isEmpty then written.previous? else some now }
  else written

structure Feed where
  keyboard : Keyboard.Decoder
  buttons : UInt8 := 0
  pointer? : Option Position := none
  written : Written := {}

/-- The groups of a delivery: keys, buttons and motion. -/
def Feed.groups (feed : Feed) (delivery : Delivery) : List Group :=
  keyGroups (delivery.typed.decode feed.keyboard).1
    ++ buttonGroups feed.buttons delivery.buttons
    ++ motionGroups feed.pointer? delivery.pointer

def Feed.take (taken : Nat) (feed : Feed) (delivery : Delivery) : Feed where
  keyboard := (delivery.typed.decode feed.keyboard).2
  buttons := delivery.buttons
  pointer? := some delivery.pointer
  written := (feed.groups delivery).foldl
    (Written.offer taken delivery.now delivery.unixSeconds) feed.written

/-! ## Offering a group is pushing its events -/

theorem previous?_commitTimes (now : UInt32) (count : Nat) (stamper : Stamper) :
    (Stamper.commitTimes now count stamper).previous? =
      if count = 0 then stamper.previous? else some now := by
  induction count generalizing stamper with
  | zero => rfl
  | succ count ih =>
      rw [Stamper.commitTimes, ih, Stamper.previous?_commit]
      split <;> rfl

theorem spell_eq_encodeGroup (now unixSeconds : UInt32) (group : Group) (stamper : Stamper) :
    spell now unixSeconds stamper.previous? group =
      encodeGroup now unixSeconds stamper group := by
  induction group generalizing stamper with
  | nil => rfl
  | cons event rest ih =>
      rw [spell, encodeGroup, ← ih (stamper.commit now), Stamper.stampFor_eq,
        Stamper.previous?_commit]

structure Holds (taken : List UInt16) (written : Written) (queue : Input.Queue) : Prop where
  words : taken ++ queue.words = written.words
  previous : queue.stamper.previous? = written.previous?
  bounded : queue.length ≤ Input.Queue.capacity

theorem Holds.offer_eq {taken : List UInt16} {written : Written} {queue : Input.Queue}
    (holds : Holds taken written queue) (now unixSeconds : UInt32) (group : Group) :
    let added := encodeGroup now unixSeconds queue.stamper group
    written.offer taken.length now unixSeconds group =
      if queue.length + added.length ≤ 256 then
        { words := written.words ++ added
          items := written.items ++ spelt now unixSeconds written.previous? group
          previous? := if group.isEmpty then written.previous? else some now }
      else written := by
  have waiting : written.words.length - taken.length = queue.length := by
    rw [← holds.words, List.length_append, Nat.add_sub_cancel_left]
    rfl
  have spelling : spell now unixSeconds written.previous? group =
      encodeGroup now unixSeconds queue.stamper group := by
    rw [← holds.previous, spell_eq_encodeGroup]
  simp only [Written.offer, waiting, spelling]

theorem pushEvents_holds {taken : List UInt16} {written : Written} {queue : Input.Queue}
    (holds : Holds taken written queue) {semaphore : Semaphore}
    (registered : queue.semaphore = some semaphore) (now unixSeconds : UInt32)
    (group : Group) :
    ∃ pushed next, queue.pushEvents now unixSeconds group = .ok (pushed, next) ∧
      next.semaphore = some semaphore ∧
      Holds taken (written.offer taken.length now unixSeconds group) next := by
  have capacityExact : Input.Queue.capacity = 256 := rfl
  have ways := Input.Queue.perform_push_cases queue (.group now unixSeconds group) holds.bounded
  simp only [Input.Queue.perform, Input.Queue.Push.result, Input.Queue.Push.encoding,
    Input.Queue.Push.commit] at ways
  cases pushed : queue.pushEvents now unixSeconds group with
  | error violation => simp [pushed, registered] at ways
  | ok result =>
      obtain ⟨outcome, next⟩ := result
      simp only [pushed, Prod.mk.injEq, Input.Queue.Answer.pushed.injEq] at ways
      refine ⟨outcome, next, rfl, ?_⟩
      rcases ways with ⟨none, _⟩ | ⟨_, full, _, rfl⟩ | ⟨_, room, ⟨_, rfl⟩, extended⟩
      · simp [registered] at none
      · refine ⟨registered, ?_⟩
        have refused : ¬ queue.length +
            (encodeGroup now unixSeconds queue.stamper group).length ≤ 256 := by omega
        rw [holds.offer_eq, if_neg refused]
        exact ⟨holds.words, holds.previous, holds.bounded⟩
      · refine ⟨extended.semaphore.trans registered, ?_⟩
        rw [capacityExact] at room
        rw [holds.offer_eq, if_pos room]
        refine ⟨?_, ?_, ?_⟩
        · rw [extended.words, ← List.append_assoc, holds.words]
        · rw [extended.stamper, previous?_commitTimes, holds.previous]
          cases group <;> rfl
        · rw [extended.length]
          exact room

/-! ## Buttons -/

theorem takeButtons_exact (tracker : Mouse.Tracker) (mask : UInt8) (modifiers : Modifiers) :
    (tracker.takeButtons mask modifiers).1.map (fun event => [[event.word]]) =
        buttonGroups tracker.buttons mask ∧
      (tracker.takeButtons mask modifiers).2.buttons = mask ∧
      (tracker.takeButtons mask modifiers).2.position = tracker.position := by
  rw [Mouse.takeButtons_eq]
  refine ⟨?_, rfl, rfl⟩
  rw [buttonGroups, List.map_map]
  rfl

theorem takePosition_exact (tracker : Mouse.Tracker) (position : Position) :
    ((tracker.takePosition position).1.map fun (x, y) => [[x], [y]]).toList =
        motionGroups tracker.position position ∧
      (tracker.takePosition position).2 = { tracker with position := some position } := by
  refine ⟨?_, rfl⟩
  cases known : tracker.position with
  | none => simp [Mouse.Tracker.takePosition, motionGroups, known]
  | some previous =>
      by_cases same : previous = position
      · simp [Mouse.Tracker.takePosition, motionGroups, known, same]
      · simp [Mouse.Tracker.takePosition, motionGroups, known, same]

end GuestConsole.Console
