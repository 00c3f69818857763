import GuestConsole.Proofs.QueueRun

/-!
# The ways to push agree

An event alone is a group of one, and a timestamp alone is an event without words.  What is
queued as one piece is also queued piece by piece, and leaves the same queue: a group event by
event, and an event as its timestamp and then word by word.
-/

set_option autoImplicit false

namespace GuestConsole.Input.Queue

open GuestConsole.Event

/-- All of the pushes are queued, each on the queue that the one before it has left.  They add
`words` words in all and leave `next`. -/
inductive QueuedInTurn : Queue → List Push → Nat → Queue → Prop
  | done (queue : Queue) : QueuedInTurn queue [] 0 queue
  | push {queue middle next : Queue} {push : Push} {rest : List Push} {words others : Nat}
      (first : push.result queue = .ok (.queued words, middle))
      (later : QueuedInTurn middle rest others next) :
      QueuedInTurn queue (push :: rest) (words + others) next

section
variable {queue next : Queue}

theorem of_result_queued {push : Push} {words : Nat}
    (queued : push.result queue = .ok (.queued words, next)) :
    queue.semaphore ≠ none ∧ push.needed queue ≤ queue.free ∧
      words = push.needed queue ∧ next = push.place queue := by
  rw [Push.result_eq, guarded] at queued
  cases registered : queue.semaphore with
  | none => simp [registered] at queued
  | some semaphore =>
      by_cases full : queue.free < push.needed queue
      · simp [registered, full] at queued
      · simp only [registered, if_neg full, Except.ok.injEq, Prod.mk.injEq,
          Pushed.queued.injEq] at queued
        exact ⟨by simp, Nat.le_of_not_lt full, queued.1.symm, queued.2.symm⟩

theorem result_queued (push : Push) (registered : queue.semaphore ≠ none)
    (room : push.needed queue ≤ queue.free) :
    push.result queue = .ok (.queued (push.needed queue), push.place queue) ∧
      (push.place queue).semaphore ≠ none ∧
      (push.place queue).free = queue.free - push.needed queue ∧
      (push.place queue).stamper = push.commit queue.stamper := by
  have fits : (push.encoding queue.stamper).length ≤ queue.free := by
    rw [← Push.needed_eq]
    exact room
  have extended := push.extended_place queue fits
  refine ⟨?_, ?_, ?_, extended.stamper⟩
  · obtain ⟨semaphore, known⟩ := Option.ne_none_iff_exists'.mp registered
    simp only [Push.result_eq, guarded, known, if_neg (Nat.not_lt.mpr room)]
  · rw [extended.semaphore]
    exact registered
  · rw [extended.free, Push.needed_eq]

theorem queuedInTurn_group (now unixSeconds : UInt32) (events : List (List Word))
    (registered : queue.semaphore ≠ none)
    (room : groupLength queue.stamper now unixSeconds events ≤ queue.free) :
    QueuedInTurn queue (events.map (Push.single now unixSeconds))
      (groupLength queue.stamper now unixSeconds events)
      (events.foldl (enqueueEvent now unixSeconds) queue) := by
  induction events generalizing queue with
  | nil => exact .done queue
  | cons event rest ih =>
      let first := Push.single now unixSeconds event
      have needed : groupLength queue.stamper now unixSeconds (event :: rest) =
          first.needed queue + groupLength (queue.stamper.commit now) now unixSeconds rest := rfl
      rw [needed] at room ⊢
      obtain ⟨queued, registered, free, stamper⟩ :=
        result_queued first registered (Nat.le_of_add_right_le room)
      -- the timestamps of the other events count from this one
      have committed : (first.place queue).stamper = queue.stamper.commit now := stamper
      have others := ih registered (by rw [committed, free]; omega)
      rw [committed] at others
      exact .push queued others

theorem queuedInTurn_words (event : List Word) (registered : queue.semaphore ≠ none)
    (room : event.length ≤ queue.free) :
    QueuedInTurn queue (event.map Push.bare) event.length (queue.enqueueWords event) := by
  induction event generalizing queue with
  | nil => exact .done queue
  | cons word rest ih =>
      let first := Push.bare word
      have needed : (word :: rest).length = first.needed queue + rest.length := Nat.add_comm _ 1
      rw [needed] at room ⊢
      obtain ⟨queued, registered, free, _⟩ :=
        result_queued first registered (Nat.le_of_add_right_le room)
      exact .push queued (ih registered (by rw [free]; omega))

theorem queuedInTurn_event (now unixSeconds : UInt32) (event : List Word)
    (registered : queue.semaphore ≠ none)
    (room : (Push.single now unixSeconds event).needed queue ≤ queue.free) :
    QueuedInTurn queue (.stamp now unixSeconds :: event.map Push.bare)
      ((Push.single now unixSeconds event).needed queue)
      ((Push.single now unixSeconds event).place queue) := by
  let stamp := Push.stamp now unixSeconds
  have needed : (Push.single now unixSeconds event).needed queue =
      stamp.needed queue + event.length := rfl
  rw [needed] at room ⊢
  obtain ⟨queued, registered, free, _⟩ :=
    result_queued stamp registered (Nat.le_of_add_right_le room)
  exact .push queued (queuedInTurn_words event registered (by rw [free]; omega))

end

/-- The four ways to push agree on every queue, whatever waits in it, whatever it owes and
whichever event came last.  They agree on the answer and on the whole queue that is left. -/
theorem ways_to_push_agree (queue : Queue) (now unixSeconds : UInt32) :
    (∀ event, queue.pushEvent now unixSeconds event =
      queue.pushEvents now unixSeconds [event]) ∧
    queue.pushTimestamp now unixSeconds = queue.pushEvent now unixSeconds [] ∧
    (∀ events words next, queue.pushEvents now unixSeconds events = .ok (.queued words, next) →
      QueuedInTurn queue (events.map (Push.single now unixSeconds)) words next) ∧
    (∀ event words next, queue.pushEvent now unixSeconds event = .ok (.queued words, next) →
      QueuedInTurn queue (.stamp now unixSeconds :: event.map Push.bare) words next) := by
  -- the first two agree word for word: the sums and folds of the group end after one event
  refine ⟨fun event => rfl, rfl, ?_, ?_⟩
  · intro events words next queued
    have group : (Push.group now unixSeconds events).result queue = .ok (.queued words, next) :=
      queued
    obtain ⟨registered, room, rfl, rfl⟩ := of_result_queued group
    exact queuedInTurn_group now unixSeconds events registered room
  · intro event words next queued
    have single : (Push.single now unixSeconds event).result queue = .ok (.queued words, next) :=
      queued
    obtain ⟨registered, room, rfl, rfl⟩ := of_result_queued single
    exact queuedInTurn_event now unixSeconds event registered room

/-- Two events that fill the queue to the last word, the first of them behind an absolute time,
while all counters are close to their largest values, and one event in their place. -/
theorem ways_to_push_agree_at_last_word :
    let queue : Queue :=
      { words := List.replicate 247 0x3061, semaphore := some ⟨7⟩,
        stamper := ⟨5, 4294967294⟩, owed := 65530, dropped := 4294967295 }
    let first := [Word.coordinate 7, Word.down 130]
    let second := [Word.up 97, Word.up 98, Word.up 99]
    let whole := first ++ .coordinate 8 :: second
    (∃ next, queue.pushEvents 10000 6 [first, second] = .ok (.queued 9, next) ∧
      QueuedInTurn queue [.single 10000 6 first, .single 10000 6 second] 9 next ∧
      next.length = 256 ∧ next.owed = 65535 ∧ next.stamper = ⟨10000, 4294967295⟩) ∧
    ∃ next, queue.pushEvent 10000 6 whole = .ok (.queued 9, next) ∧
      QueuedInTurn queue (.stamp 10000 6 :: whole.map Push.bare) 9 next := by
  intro queue first second whole
  have registered : queue.semaphore ≠ none := by decide
  have room : 9 ≤ queue.free := by decide +kernel
  have groupNeeds : (Push.group 10000 6 [first, second]).needed queue = 9 := by decide
  have wholeNeeds : (Push.single 10000 6 whole).needed queue = 9 := by decide
  obtain ⟨groupQueued, _⟩ := result_queued (.group 10000 6 [first, second]) registered
    (by rw [groupNeeds]; exact room)
  obtain ⟨wholeQueued, _⟩ := result_queued (.single 10000 6 whole) registered
    (by rw [wholeNeeds]; exact room)
  rw [groupNeeds] at groupQueued
  rw [wholeNeeds] at wholeQueued
  obtain ⟨_, _, groups, events⟩ := ways_to_push_agree queue 10000 6
  refine ⟨⟨_, groupQueued, groups [first, second] 9 _ groupQueued, ?_, ?_, ?_⟩,
    _, wholeQueued, events whole 9 _ wholeQueued⟩ <;> decide +kernel

end GuestConsole.Input.Queue
