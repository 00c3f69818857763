import GuestConsole.Proofs.Decoding
import GuestConsole.Proofs.QueueRun

/-!
# The timeline that the guest reads

Events are pushed and words are popped in any order.  Whatever has been dropped in
between, the words that were popped decode to the accepted events, each behind a
timestamp that counts from the accepted event before it.
-/

set_option autoImplicit false

namespace GuestConsole.Event

def Timestamp.since (previous? : Option UInt32) (now unixSeconds : UInt32) : Timestamp :=
  match previous? with
  | none => .delay 0
  | some previous =>
      let elapsed := (now.toNat + 2 ^ 32 - previous.toNat) % 2 ^ 32
      if elapsed ≤ 4095 then .delay (UInt16.ofNat elapsed)
      else .absolute (UInt32.ofNat ((unixSeconds.toNat + 2177452800) % 2 ^ 32))

theorem Timestamp.since_narrow (previous? : Option UInt32) (now unixSeconds : UInt32) :
    (Timestamp.since previous? now unixSeconds).Narrow := by
  cases previous? with
  | none => simp [Timestamp.since, Timestamp.Narrow]
  | some previous =>
      simp only [Timestamp.since]
      split
      · next short =>
          simp only [Timestamp.Narrow, UInt16.toNat_ofNat']
          omega
      · trivial

namespace Stamper

def previous? (stamper : Stamper) : Option UInt32 :=
  if stamper.count = 0 then none else some stamper.lastTick

theorem previous?_commit (stamper : Stamper) (now : UInt32) :
    (stamper.commit now).previous? = some now := by
  have counted : (stamper.commit now).count ≠ 0 := by
    intro zero
    have zeroNat := congrArg UInt32.toNat zero
    simp only [commit, Saturating.toNat_add32] at zeroNat
    simp only [UInt32.reduceToNat] at zeroNat
    omega
  rw [previous?, if_neg counted, commit]

theorem stampFor_eq (stamper : Stamper) (now unixSeconds : UInt32) :
    stamper.stampFor now unixSeconds =
      Timestamp.since stamper.previous? now unixSeconds := by
  by_cases first : stamper.count = 0
  · simp [stampFor, previous?, first, Timestamp.since]
  · have elapsedExact : (now - stamper.lastTick).toNat =
        (now.toNat + 2 ^ 32 - stamper.lastTick.toNat) % 2 ^ 32 := by
      have nowBound := now.toNat_lt
      have lastBound := stamper.lastTick.toNat_lt
      rw [UInt32.toNat_sub]
      omega
    have shortIff : now - stamper.lastTick ≤ 4095 ↔
        (now.toNat + 2 ^ 32 - stamper.lastTick.toNat) % 2 ^ 32 ≤ 4095 := by
      simp only [UInt32.le_iff_toNat_le, elapsedExact, UInt32.reduceToNat]
    have delayExact : (now - stamper.lastTick).toUInt16 =
        UInt16.ofNat ((now.toNat + 2 ^ 32 - stamper.lastTick.toNat) % 2 ^ 32) := by
      rw [← elapsedExact]
      rfl
    have secondsExact : absoluteSeconds unixSeconds =
        UInt32.ofNat ((unixSeconds.toNat + 2177452800) % 2 ^ 32) := by
      apply UInt32.toNat_inj.mp
      simp only [absoluteSeconds, epochOffset, UInt32.toNat_add, UInt32.reduceToNat,
        UInt32.toNat_ofNat', Nat.mod_mod]
    simp only [stampFor, previous?, if_neg first, Timestamp.since, shortIff, delayExact,
      secondsExact]

end Stamper

/-- An input event: its words are coordinates, presses and releases. -/
structure TimedEvent where
  tick : UInt32
  unixSeconds : UInt32
  words : List Word
  areInput : ∀ word ∈ words, (word.inputItem?).isSome

/-- What a guest should read of events one after the other: a timestamp and then the
event, where the first timestamp counts from `previous?`. -/
def timeline : Option UInt32 → List TimedEvent → List Item
  | _, [] => []
  | previous?, event :: rest =>
      (Timestamp.since previous? event.tick event.unixSeconds).item
        :: event.words.filterMap Word.inputItem? ++ timeline (some event.tick) rest

end GuestConsole.Event

namespace GuestConsole.Input.Queue

open GuestConsole.Event

inductive Use where
  | push (event : TimedEvent)
  | pop

def Use.operation : Use → Operation
  | .push event => .push (.single event.tick event.unixSeconds event.words)
  | .pop => .pop

def Use.accepted? : Use → Answer → Option TimedEvent
  | .push event, .pushed (.queued _) => some event
  | _, _ => none

def acceptedEvents : Queue → List Use → List TimedEvent
  | _, [] => []
  | queue, use :: rest =>
      (use.accepted? (queue.perform use.operation).1).toList
        ++ acceptedEvents (queue.perform use.operation).2 rest

theorem accepted_use (queue : Queue) (use : Use) :
    (queue.transition use.operation).accepted?.toList =
      (use.accepted? (queue.perform use.operation).1).toList.map
        fun event => Push.single event.tick event.unixSeconds event.words := by
  cases use with
  | pop => rfl
  | push event =>
      simp only [transition, Use.operation, Transition.accepted?]
      split
      · next same answered => cases same; simp [answered, Use.accepted?]
      · next notQueued =>
          cases answered : (queue.perform
              (.push (.single event.tick event.unixSeconds event.words))).1 with
          | pushed pushed =>
              cases pushed with
              | queued words => exact (notQueued _ words rfl answered).elim
              | dropped => rfl
          | _ => rfl

theorem accepted_uses (uses : List Use) (queue : Queue) :
    accepted (queue.trace (uses.map Use.operation)) =
      (queue.acceptedEvents uses).map
        fun event => Push.single event.tick event.unixSeconds event.words := by
  induction uses generalizing queue with
  | nil => rfl
  | cons use rest ih =>
      simp only [List.map_cons, trace, accepted_cons, accepted_use, ih, acceptedEvents,
        List.map_append]

theorem spells_timeline (events : List TimedEvent) (stamper : Stamper) :
    Decoder.Spells
      (encodings stamper (events.map
        fun event => Push.single event.tick event.unixSeconds event.words))
      (timeline stamper.previous? events) := by
  induction events generalizing stamper with
  | nil => exact Decoder.spells_nil
  | cons event rest ih =>
      have stamped := Decoder.spells_timestamp
        (Timestamp.since stamper.previous? event.tick event.unixSeconds)
        (Timestamp.since_narrow stamper.previous? event.tick event.unixSeconds)
      have words := Decoder.spells_inputWords event.words event.areInput
      have others := ih (stamper.commit event.tick)
      rw [Stamper.previous?_commit] at others
      have whole := (stamped.append words).append others
      simpa [encodings, Push.encoding, Push.commit, Stamper.stampFor_eq, timeline] using whole

theorem performAll_append (first second : List Operation) (queue : Queue) :
    queue.performAll (first ++ second) = (queue.performAll first).performAll second := by
  induction first generalizing queue with
  | nil => rfl
  | cons operation rest ih => exact ih (queue.perform operation).2

theorem performAll_pops_words (pops : Nat) (queue : Queue) :
    (queue.performAll (List.replicate pops .pop)).words = queue.words.drop pops := by
  induction pops generalizing queue with
  | zero => rfl
  | succ pops ih =>
      simp only [List.replicate_succ, performAll, ih]
      cases waiting : queue.words <;> simp [perform, pop, waiting]

/-- Whatever the order of pushes and pops and however many events are dropped, the
words of a queue that is popped until it is empty are read without an error, and what
is read is the timeline of the accepted events. -/
theorem drained_words_decode_to_timeline (policy : WakePolicy) (semaphore : Semaphore)
    (uses : List Use) (pops : Nat)
    (enough : (Queue.performAll { policy, semaphore := some semaphore }
      (uses.map Use.operation)).length ≤ pops) :
    let new : Queue := { policy, semaphore := some semaphore }
    let all := uses ++ List.replicate pops .pop
    (new.performAll (all.map Use.operation)).words = [] ∧
      Decoder.tagged.decodeAll (popped (new.trace (all.map Use.operation))) =
        ⟨timeline none (new.acceptedEvents all), none, .tagged⟩ := by
  intro new all
  have bounded : new.length ≤ capacity := Nat.zero_le capacity
  have empty : (new.performAll (all.map Use.operation)).words = [] := by
    have popsExact : (List.replicate pops Use.pop).map Use.operation =
        List.replicate pops Operation.pop := by
      simp [Use.operation]
    rw [List.map_append, performAll_append, popsExact, performAll_pops_words,
      List.drop_eq_nil_iff]
    exact enough
  obtain ⟨words, _⟩ := performAll_conserves (all.map Use.operation) new bounded
  rw [empty, List.append_nil, accepted_uses] at words
  refine ⟨empty, ?_⟩
  rw [words]
  exact (spells_timeline (new.acceptedEvents all) {}).decodeAll_eq

/-- Across the wrap of the clock, past a dropped event, and with an event that has no
words. -/
theorem drained_words_decode_across_wrap :
    let flood : TimedEvent := ⟨4294967291, 4, List.replicate 256 (Word.up 130),
      fun word member => by rw [List.eq_of_mem_replicate member]; decide⟩
    let uses : List Use :=
      [.push ⟨4294967290, 3, [Word.coordinate 7], by decide⟩, .pop, .push flood,
        .push ⟨2, 5, [Word.down 97, Word.up 97], by decide⟩, .push ⟨9999, 6, [], by decide⟩]
    let new : Queue := { policy := .onNonEmpty, semaphore := some ⟨7⟩ }
    (new.performAll (uses.map Use.operation)).length ≤ 7 ∧
      Decoder.tagged.decodeAll
          (popped (new.trace ((uses ++ List.replicate 7 Use.pop).map Use.operation))) =
        ⟨[.delay 0, .coordinate 7, .delay 8, .down 97, .up 97, .absoluteTime 2177452806],
          none, .tagged⟩ := by
  intro flood uses new
  have enough : (new.performAll (uses.map Use.operation)).length ≤ 7 := by decide +kernel
  have items : timeline none (new.acceptedEvents (uses ++ List.replicate 7 Use.pop)) =
      [.delay 0, .coordinate 7, .delay 8, .down 97, .up 97, .absoluteTime 2177452806] := by
    decide +kernel
  obtain ⟨_, read⟩ := drained_words_decode_to_timeline .onNonEmpty ⟨7⟩ uses 7 enough
  exact ⟨enough, by rw [read, items]⟩

end GuestConsole.Input.Queue
