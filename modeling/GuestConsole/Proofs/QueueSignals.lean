import GuestConsole.Proofs.QueueRun

/-!
# What the queue owes

The signals owed for a number of words are the same however the words are cut into pieces:
one for each of them, or a single one for words behind which no other word has waited.
-/

set_option autoImplicit false

namespace GuestConsole.Input.Queue

open GuestConsole.Event

/-- The signals due for words that are added behind those that wait. -/
def signalsDue (policy : WakePolicy) (waiting added : List UInt16) : Nat :=
  match policy with
  | .everyWord => added.length
  | .onNonEmpty => if waiting = [] ∧ added ≠ [] then 1 else 0

theorem signalsDue_nil (policy : WakePolicy) (waiting : List UInt16) :
    signalsDue policy waiting [] = 0 := by
  cases policy <;> simp [signalsDue]

theorem signalsDue_append (policy : WakePolicy) (waiting first second : List UInt16) :
    signalsDue policy waiting (first ++ second) =
      signalsDue policy waiting first + signalsDue policy (waiting ++ first) second := by
  cases policy with
  | everyWord => simp [signalsDue]
  | onNonEmpty => by_cases none : first = [] <;> simp [signalsDue, none]

theorem signalsDue_le (policy : WakePolicy) (waiting added : List UInt16) :
    signalsDue policy waiting added ≤ added.length := by
  cases policy with
  | everyWord => exact Nat.le_refl _
  | onNonEmpty =>
      by_cases some : waiting = [] ∧ added ≠ []
      · simp only [signalsDue, if_pos some]
        exact List.length_pos_iff.mpr some.2
      · simp only [signalsDue, if_neg some]
        exact Nat.zero_le _

theorem signalsDue_pos (policy : WakePolicy) {added : List UInt16} (some : added ≠ []) :
    0 < signalsDue policy [] added := by
  cases policy with
  | everyWord => exact List.length_pos_iff.mpr some
  | onNonEmpty => simp [signalsDue, some]

/-- `next` owes what is due for the added words besides what `queue` owes. -/
def Owes (queue : Queue) (added : List UInt16) (next : Queue) : Prop :=
  next.owed.toNat = min (queue.owed.toNat + signalsDue queue.policy queue.words added) 65535

theorem owes_nil {queue next : Queue} (same : next.owed = queue.owed) : Owes queue [] next := by
  have small := queue.owed.toNat_lt
  rw [Owes, same, signalsDue_nil]
  omega

theorem Owes.trans {queue middle next : Queue} {first second : List UInt16}
    (left : Owes queue first middle) (words : middle.words = queue.words ++ first)
    (policy : middle.policy = queue.policy) (right : Owes middle second next) :
    Owes queue (first ++ second) next := by
  rw [Owes, words, policy] at right
  rw [Owes] at left
  rw [Owes, signalsDue_append, right, left]
  omega

theorem owes_enqueue (queue : Queue) (words : List UInt16) (room : words.length ≤ queue.free) :
    Owes queue words (queue.enqueue words) := by
  have small : queue.free ≤ 256 := Nat.sub_le ..
  have signals : (queue.signalsFor words.length).toNat =
      signalsDue queue.policy queue.words words := by
    cases policy : queue.policy with
    | everyWord =>
        simp only [signalsFor, signalsDue, policy]
        exact UInt16.toNat_ofNat_of_lt (Nat.lt_of_le_of_lt (Nat.le_trans room small) (by decide))
    | onNonEmpty =>
        simp only [signalsFor, signalsDue, policy, isEmpty]
        by_cases waiting : queue.words = [] <;> by_cases none : words = [] <;>
          simp [waiting, none]
  rw [Owes, ← signals]
  exact Saturating.toNat_add16 ..

theorem owes_enqueueWords (event : List Word) (queue : Queue)
    (room : event.length ≤ queue.free) :
    Owes queue (event.map Word.raw) (queue.enqueueWords event) := by
  induction event generalizing queue with
  | nil => exact owes_nil rfl
  | cons word rest ih =>
      simp only [List.length_cons] at room
      have roomForOne : [word.raw].length ≤ queue.free := by
        simp only [List.length_singleton]
        omega
      have first := extended_enqueue queue [word.raw] roomForOne
      have roomLeft : rest.length ≤ (queue.enqueue [word.raw]).free := by
        rw [first.free, List.length_singleton]
        omega
      exact (owes_enqueue queue [word.raw] roomForOne).trans first.words first.policy (ih _ roomLeft)

theorem owes_enqueueEvent (now unixSeconds : UInt32) (queue : Queue) (event : List Word)
    (room : (queue.stamper.stampFor now unixSeconds).length + event.length ≤ queue.free) :
    Owes queue ((queue.stamper.stampFor now unixSeconds).words ++ event.map Word.raw)
      (enqueueEvent now unixSeconds queue event) := by
  let committed : Queue := { queue with stamper := queue.stamper.commit now }
  let stamp := queue.stamper.stampFor now unixSeconds
  have roomForStamp : stamp.words.length ≤ committed.free := by
    rw [Timestamp.length_words]
    exact Nat.le_trans (Nat.le_add_right _ _) room
  have stamped := extended_enqueue committed stamp.words roomForStamp
  have roomLeft : event.length ≤ (committed.enqueue stamp.words).free := by
    rw [stamped.free, Timestamp.length_words]
    exact Nat.le_sub_of_add_le' room
  have first : Owes queue stamp.words (committed.enqueue stamp.words) :=
    owes_enqueue committed stamp.words roomForStamp
  exact first.trans stamped.words stamped.policy (owes_enqueueWords event _ roomLeft)

theorem owes_enqueueGroup (now unixSeconds : UInt32) (events : List (List Word))
    (queue : Queue)
    (room : (encodeGroup now unixSeconds queue.stamper events).length ≤ queue.free) :
    Owes queue (encodeGroup now unixSeconds queue.stamper events)
      (events.foldl (enqueueEvent now unixSeconds) queue) := by
  induction events generalizing queue with
  | nil => exact owes_nil rfl
  | cons event rest ih =>
      simp only [encodeGroup, List.length_append, List.length_map,
        Timestamp.length_words] at room
      have roomForOne : (queue.stamper.stampFor now unixSeconds).length + event.length ≤
          queue.free := by omega
      have first := extended_enqueueEvent now unixSeconds queue event roomForOne
      have roomLeft : (encodeGroup now unixSeconds
          (enqueueEvent now unixSeconds queue event).stamper rest).length ≤
            (enqueueEvent now unixSeconds queue event).free := by
        rw [first.stamper, first.free, List.length_append, List.length_map,
          Timestamp.length_words]
        omega
      have others := ih (enqueueEvent now unixSeconds queue event) roomLeft
      rw [first.stamper] at others
      exact (owes_enqueueEvent now unixSeconds queue event roomForOne).trans first.words
        first.policy others

theorem owes_place (queue : Queue) (push : Push)
    (room : (push.encoding queue.stamper).length ≤ queue.free) :
    Owes queue (push.encoding queue.stamper) (push.place queue) := by
  cases push with
  | single now unixSeconds event =>
      apply owes_enqueueEvent
      simpa [Push.encoding] using room
  | group now unixSeconds events => exact owes_enqueueGroup now unixSeconds events queue room
  | stamp now unixSeconds =>
      exact owes_enqueue { queue with stamper := queue.stamper.commit now } _ room
  | bare word => exact owes_enqueue queue [word.raw] room

/-- A push adds some words, none where it is dropped, and owes the signals due for them. -/
theorem push_owes {queue next : Queue} {push : Push} {pushed : Pushed}
    (bounded : queue.length ≤ capacity) (ran : push.result queue = .ok (pushed, next)) :
    ∃ added, next.words = queue.words ++ added ∧ Owes queue added next ∧
      next.policy = queue.policy ∧ next.length ≤ capacity := by
  have small := perform_bounded queue (.push push) bounded
  have ways := perform_push_cases queue push bounded
  simp only [perform, ran, Prod.mk.injEq, Answer.pushed.injEq] at ways small
  rcases ways with ⟨_, refused, _⟩ | ⟨_, _, _, rfl⟩ | ⟨_, room, ⟨_, rfl⟩, extended⟩
  · cases refused
  · exact ⟨[], (List.append_nil _).symm, owes_nil rfl, rfl, small⟩
  · have fits : (push.encoding queue.stamper).length ≤ queue.free := Nat.le_sub_of_add_le' room
    exact ⟨_, extended.words, owes_place queue push fits, extended.policy, small⟩

end GuestConsole.Input.Queue
