import GuestConsole.Input.Queue

/-!
# What a push adds to the queue

Each of the four ways to push has an encoding, the words that it asks to add.
A push adds the whole of its encoding or nothing, and the buffer, which would
lose a word for which there is no room, is never asked to take such a word.
-/

set_option autoImplicit false

namespace GuestConsole.Event

/-- The words of a group of events, each behind a timestamp of its own. -/
def encodeGroup (now unixSeconds : UInt32) : Stamper → List (List Word) → List UInt16
  | _, [] => []
  | stamper, event :: rest =>
      (stamper.stampFor now unixSeconds).words ++ event.map Word.raw
        ++ encodeGroup now unixSeconds (stamper.commit now) rest

def Stamper.commitTimes (now : UInt32) : Nat → Stamper → Stamper
  | 0, stamper => stamper
  | count + 1, stamper => Stamper.commitTimes now count (stamper.commit now)

end GuestConsole.Event

namespace GuestConsole.Input.Queue

open GuestConsole.Event

/-! ## Adding words for which there is room -/

/-- `next` is `queue` with `added` at its end and `stamper` in the place of its own. -/
structure Extended (queue : Queue) (added : List UInt16) (stamper : Stamper)
    (next : Queue) : Prop where
  words : next.words = queue.words ++ added
  stamper : next.stamper = stamper
  semaphore : next.semaphore = queue.semaphore
  policy : next.policy = queue.policy
  dropped : next.dropped = queue.dropped

namespace Extended

variable {queue middle next : Queue} {first second : List UInt16} {early late : Stamper}

theorem refl (queue : Queue) : Extended queue [] queue.stamper queue :=
  ⟨by simp, rfl, rfl, rfl, rfl⟩

theorem trans (left : Extended queue first early middle)
    (right : Extended middle second late next) :
    Extended queue (first ++ second) late next where
  words := by rw [right.words, left.words, List.append_assoc]
  stamper := right.stamper
  semaphore := right.semaphore.trans left.semaphore
  policy := right.policy.trans left.policy
  dropped := right.dropped.trans left.dropped

theorem length (extended : Extended queue first early next) :
    next.length = queue.length + first.length := by
  simp only [Queue.length, extended.words, List.length_append]

theorem free (extended : Extended queue first early next) :
    next.free = queue.free - first.length := by
  simp only [Queue.free, extended.length]
  omega

end Extended

theorem extended_enqueue (queue : Queue) (words : List UInt16)
    (room : words.length ≤ queue.free) :
    Extended queue words queue.stamper (queue.enqueue words) := by
  have whole : (queue.enqueue words).words = queue.words ++ words := by
    rw [enqueue, List.take_of_length_le room]
  exact ⟨whole, rfl, rfl, rfl, rfl⟩

theorem extended_enqueueWords (event : List Word) (queue : Queue)
    (room : event.length ≤ queue.free) :
    Extended queue (event.map Word.raw) queue.stamper (queue.enqueueWords event) := by
  induction event generalizing queue with
  | nil => exact Extended.refl queue
  | cons word rest ih =>
      simp only [List.length_cons] at room
      have first := extended_enqueue queue [word.raw] (by simp only [List.length_singleton]; omega)
      have roomLeft : rest.length ≤ (queue.enqueue [word.raw]).free := by
        rw [first.free, List.length_singleton]
        omega
      exact first.trans (ih (queue.enqueue [word.raw]) roomLeft)

theorem extended_enqueueEvent (now unixSeconds : UInt32) (queue : Queue) (event : List Word)
    (room : (queue.stamper.stampFor now unixSeconds).length + event.length ≤ queue.free) :
    Extended queue ((queue.stamper.stampFor now unixSeconds).words ++ event.map Word.raw)
      (queue.stamper.commit now) (enqueueEvent now unixSeconds queue event) := by
  let committed : Queue := { queue with stamper := queue.stamper.commit now }
  have committedQueue : Extended queue [] (queue.stamper.commit now) committed :=
    ⟨by simp [committed], rfl, rfl, rfl, rfl⟩
  have sameRoom : committed.free = queue.free := rfl
  have stamped := extended_enqueue committed (queue.stamper.stampFor now unixSeconds).words
    (by rw [Timestamp.length_words, sameRoom]; omega)
  have roomLeft : event.length ≤
      (committed.enqueue (queue.stamper.stampFor now unixSeconds).words).free := by
    rw [stamped.free, Timestamp.length_words, sameRoom]
    omega
  exact (committedQueue.trans stamped).trans (extended_enqueueWords event _ roomLeft)

theorem groupLength_eq (now unixSeconds : UInt32) (events : List (List Word))
    (stamper : Stamper) :
    groupLength stamper now unixSeconds events =
      (encodeGroup now unixSeconds stamper events).length := by
  induction events generalizing stamper with
  | nil => rfl
  | cons event rest ih =>
      simp only [groupLength, Stamper.stamp, encodeGroup, List.length_append, List.length_map,
        Timestamp.length_words, ih]

theorem extended_enqueueGroup (now unixSeconds : UInt32) (events : List (List Word))
    (queue : Queue)
    (room : (encodeGroup now unixSeconds queue.stamper events).length ≤ queue.free) :
    Extended queue (encodeGroup now unixSeconds queue.stamper events)
      (Stamper.commitTimes now events.length queue.stamper)
      (events.foldl (enqueueEvent now unixSeconds) queue) := by
  induction events generalizing queue with
  | nil => exact Extended.refl queue
  | cons event rest ih =>
      simp only [encodeGroup, List.length_append, List.length_map,
        Timestamp.length_words] at room
      have first := extended_enqueueEvent now unixSeconds queue event (by omega)
      have roomLeft : (encodeGroup now unixSeconds
          (enqueueEvent now unixSeconds queue event).stamper rest).length ≤
            (enqueueEvent now unixSeconds queue event).free := by
        rw [first.stamper, first.free, List.length_append, List.length_map,
          Timestamp.length_words]
        omega
      have others := ih (enqueueEvent now unixSeconds queue event) roomLeft
      rw [first.stamper] at others
      exact first.trans others

/-! ## Pushes -/

inductive Push where
  | single (now unixSeconds : UInt32) (event : List Word)
  | group (now unixSeconds : UInt32) (events : List (List Word))
  | stamp (now unixSeconds : UInt32)
  | bare (word : Word)
  deriving DecidableEq, Repr

namespace Push

def encoding (stamper : Stamper) : Push → List UInt16
  | .single now unixSeconds event =>
      (stamper.stampFor now unixSeconds).words ++ event.map Word.raw
  | .group now unixSeconds events => encodeGroup now unixSeconds stamper events
  | .stamp now unixSeconds => (stamper.stampFor now unixSeconds).words
  | .bare word => [word.raw]

def commit (stamper : Stamper) : Push → Stamper
  | .single now _ _ => stamper.commit now
  | .group now _ events => Stamper.commitTimes now events.length stamper
  | .stamp now _ => stamper.commit now
  | .bare _ => stamper

def result (queue : Queue) : Push → Except Violation (Pushed × Queue)
  | .single now unixSeconds event => queue.pushEvent now unixSeconds event
  | .group now unixSeconds events => queue.pushEvents now unixSeconds events
  | .stamp now unixSeconds => queue.pushTimestamp now unixSeconds
  | .bare word => queue.pushWord word

/-- The words that a push makes room for, before it looks for room. -/
def needed (queue : Queue) : Push → Nat
  | .single now unixSeconds event =>
      (queue.stamper.stampFor now unixSeconds).length + event.length
  | .group now unixSeconds events => groupLength queue.stamper now unixSeconds events
  | .stamp now unixSeconds => (queue.stamper.stampFor now unixSeconds).length
  | .bare _ => 1

/-- The queue after a push for which there is room. -/
def place (queue : Queue) : Push → Queue
  | .single now unixSeconds event => enqueueEvent now unixSeconds queue event
  | .group now unixSeconds events => events.foldl (enqueueEvent now unixSeconds) queue
  | .stamp now unixSeconds =>
      { queue with stamper := queue.stamper.commit now }.enqueue
        (queue.stamper.stampFor now unixSeconds).words
  | .bare word => queue.enqueue [word.raw]

theorem result_eq (queue : Queue) (push : Push) :
    push.result queue = queue.guarded
      (if queue.free < push.needed queue then (.dropped, queue.drop)
        else (.queued (push.needed queue), push.place queue)) := by
  cases push with
  | bare word =>
      have noRoom : queue.free < 1 ↔ queue.free = 0 := Nat.lt_one_iff
      simp only [result, pushWord, needed, place, noRoom]
  | _ => rfl

theorem needed_eq (queue : Queue) (push : Push) :
    push.needed queue = (push.encoding queue.stamper).length := by
  cases push with
  | single now unixSeconds event => simp [needed, encoding]
  | group now unixSeconds events => exact groupLength_eq now unixSeconds events queue.stamper
  | stamp now unixSeconds => simp [needed, encoding]
  | bare word => rfl

theorem extended_place (queue : Queue) (push : Push)
    (room : (push.encoding queue.stamper).length ≤ queue.free) :
    Extended queue (push.encoding queue.stamper) (push.commit queue.stamper)
      (push.place queue) := by
  cases push with
  | single now unixSeconds event =>
      apply extended_enqueueEvent
      simpa [encoding] using room
  | group now unixSeconds events =>
      exact extended_enqueueGroup now unixSeconds events queue room
  | stamp now unixSeconds =>
      have stamped := extended_enqueue { queue with stamper := queue.stamper.commit now }
        (queue.stamper.stampFor now unixSeconds).words room
      exact ⟨stamped.words, rfl, rfl, rfl, rfl⟩
  | bare word => exact extended_enqueue queue [word.raw] room

theorem result_undropped {queue next : Queue} {push : Push} {pushed : Pushed}
    (ran : push.result queue = .ok (pushed, next)) (undropped : next.dropped = 0) :
    queue.dropped = 0 ∧ (push.encoding queue.stamper).length ≤ queue.free := by
  rw [result_eq, guarded] at ran
  split at ran
  case h_1 => cases ran
  case h_2 =>
    by_cases full : queue.free < push.needed queue
    · rw [if_pos full] at ran
      obtain ⟨_, rfl⟩ := Prod.mk.inj (Except.ok.inj ran)
      have counted := congrArg UInt32.toNat undropped
      simp only [drop, Saturating.toNat_add32, UInt32.reduceToNat] at counted
      omega
    · rw [if_neg full] at ran
      obtain ⟨_, rfl⟩ := Prod.mk.inj (Except.ok.inj ran)
      have room : (push.encoding queue.stamper).length ≤ queue.free := by
        rw [← needed_eq]
        exact Nat.le_of_not_lt full
      exact ⟨(extended_place queue push room).dropped.symm.trans undropped, room⟩

end Push

end GuestConsole.Input.Queue
