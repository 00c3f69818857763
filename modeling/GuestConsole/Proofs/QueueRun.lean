import GuestConsole.Proofs.QueuePush
import Mathlib.Algebra.Group.Nat.Defs

/-!
# Runs of the input queue

Operations in any order, from a new queue on.  The queue is a bounded buffer that
gives back, in the same order, the encodings of the pushes that it has accepted.
A push that it refuses leaves no trace, and one that it drops is only counted.
-/

set_option autoImplicit false

namespace GuestConsole.Input.Queue

open GuestConsole.Event

inductive Operation where
  | setSemaphore (semaphore : Option Semaphore)
  | push (push : Push)
  | pop
  | takeOwed
  deriving DecidableEq, Repr

inductive Answer where
  | done
  | pushed (pushed : Pushed)
  | refused (violation : Violation)
  | word (word? : Option UInt16)
  | owed (signals : UInt16)
  deriving DecidableEq, Repr

/-- Performs an operation.  A refused push returns no queue, and the old one stays. -/
def perform (queue : Queue) : Operation → Answer × Queue
  | .setSemaphore semaphore => (.done, queue.setSemaphore semaphore)
  | .push push =>
      match push.result queue with
      | .error violation => (.refused violation, queue)
      | .ok (pushed, next) => (.pushed pushed, next)
  | .pop => (.word queue.pop.1, queue.pop.2)
  | .takeOwed => (.owed queue.takeOwed.1, queue.takeOwed.2)

structure Transition where
  before : Queue
  operation : Operation
  answer : Answer
  after : Queue

def transition (queue : Queue) (operation : Operation) : Transition :=
  ⟨queue, operation, (queue.perform operation).1, (queue.perform operation).2⟩

def trace : Queue → List Operation → List Transition
  | _, [] => []
  | queue, operation :: rest =>
      queue.transition operation :: trace (queue.perform operation).2 rest

def performAll : Queue → List Operation → Queue
  | queue, [] => queue
  | queue, operation :: rest => performAll (queue.perform operation).2 rest

/-! ## What a run has taken in and given back -/

def Transition.popped? (step : Transition) : Option UInt16 :=
  match step.answer with
  | .word word? => word?
  | _ => none

def Transition.accepted? (step : Transition) : Option Push :=
  match step.operation, step.answer with
  | .push push, .pushed (.queued _) => some push
  | _, _ => none

def popped (steps : List Transition) : List UInt16 := steps.filterMap Transition.popped?

def accepted (steps : List Transition) : List Push := steps.filterMap Transition.accepted?

/-- The encodings of pushes one after the other, where each finds the timestamps of
those before it committed. -/
def encodings : Stamper → List Push → List UInt16
  | _, [] => []
  | stamper, push :: rest =>
      push.encoding stamper ++ encodings (push.commit stamper) rest

/-! ## A single transition -/

theorem perform_push_cases (queue : Queue) (push : Push) (bounded : queue.length ≤ capacity) :
    (queue.semaphore = none ∧
      queue.perform (.push push) = (.refused .noInputSemaphore, queue)) ∨
    (queue.semaphore ≠ none ∧
      capacity < queue.length + (push.encoding queue.stamper).length ∧
      queue.perform (.push push) = (.pushed .dropped, queue.drop)) ∨
    (queue.semaphore ≠ none ∧
      queue.length + (push.encoding queue.stamper).length ≤ capacity ∧
      queue.perform (.push push) =
        (.pushed (.queued (push.encoding queue.stamper).length), push.place queue) ∧
      Extended queue (push.encoding queue.stamper) (push.commit queue.stamper)
        (push.place queue)) := by
  have freeExact : queue.free = capacity - queue.length := rfl
  cases registered : queue.semaphore with
  | none =>
      left
      simp [perform, Push.result_eq, guarded, registered]
  | some semaphore =>
      right
      by_cases full : queue.free < push.needed queue
      · left
        rw [Push.needed_eq] at full
        refine ⟨by simp, by omega, ?_⟩
        simp [perform, Push.result_eq, guarded, registered, Push.needed_eq, full]
      · right
        rw [Push.needed_eq] at full
        refine ⟨by simp, by omega, ?_, push.extended_place queue (by omega)⟩
        simp [perform, Push.result_eq, guarded, registered, Push.needed_eq, full]

/-- A transition tells the truth: a push is refused exactly where no semaphore is
registered, it is dropped exactly where its encoding does not fit, and otherwise it
makes the queue longer by the number that it answers.  A pop answers the word that
has waited longest. -/
structure Transition.Exact (step : Transition) : Prop where
  queued : ∀ words, step.answer = .pushed (.queued words) →
    step.after.length = step.before.length + words
  refused_iff : (∃ violation, step.answer = .refused violation) ↔
    (∃ push, step.operation = .push push) ∧ step.before.semaphore = none
  refused : ∀ violation, step.answer = .refused violation →
    violation = .noInputSemaphore ∧ step.after = step.before
  dropped_iff : step.answer = .pushed .dropped ↔
    ∃ push, step.operation = .push push ∧ step.before.semaphore ≠ none ∧
      capacity < step.before.length + (push.encoding step.before.stamper).length
  dropped : step.answer = .pushed .dropped →
    step.after = { step.before with
      dropped := UInt32.ofNat (min (step.before.dropped.toNat + 1) (2 ^ 32 - 1)) }
  popped : step.operation = .pop → step.answer = .word step.before.words.head?

theorem transition_exact (queue : Queue) (operation : Operation)
    (bounded : queue.length ≤ capacity) : (queue.transition operation).Exact := by
  cases operation with
  | push push =>
      rcases perform_push_cases queue push bounded with
        ⟨unregistered, performed⟩ | ⟨registered, full, performed⟩ |
          ⟨registered, room, performed, extended⟩
      · constructor <;> simp [transition, performed, unregistered]
      · constructor <;> simp [transition, performed, registered, full, drop, Saturating.add32]
      · have notFull : ¬ capacity < queue.length + (push.encoding queue.stamper).length := by
          omega
        constructor <;> simp [transition, performed, registered, notFull, extended.length]
  | setSemaphore semaphore => constructor <;> simp [transition, perform]
  | pop =>
      have head : queue.pop.1 = queue.words.head? := by
        cases waiting : queue.words <;> simp [pop, waiting]
      constructor <;> simp [transition, perform, head]
  | takeOwed => constructor <;> simp [transition, perform]

theorem perform_bounded (queue : Queue) (operation : Operation)
    (bounded : queue.length ≤ capacity) :
    (queue.perform operation).2.length ≤ capacity := by
  cases operation with
  | push push =>
      rcases perform_push_cases queue push bounded with
        ⟨_, performed⟩ | ⟨_, _, performed⟩ | ⟨_, room, performed, extended⟩
      · rw [performed]
        exact bounded
      · rw [performed]
        exact bounded
      · rw [performed, extended.length]
        exact room
  | setSemaphore semaphore => exact bounded
  | pop =>
      cases waiting : queue.words with
      | nil => simpa [perform, pop, waiting] using bounded
      | cons word rest =>
          simp only [length, waiting, List.length_cons] at bounded
          simp only [perform, pop, waiting, length]
          omega
  | takeOwed => exact bounded

theorem perform_conserves (queue : Queue) (operation : Operation)
    (bounded : queue.length ≤ capacity) :
    (queue.transition operation).popped?.toList ++ (queue.perform operation).2.words =
        queue.words ++
          encodings queue.stamper (queue.transition operation).accepted?.toList ∧
      (queue.perform operation).2.stamper =
        (queue.transition operation).accepted?.toList.foldl Push.commit queue.stamper := by
  cases operation with
  | push push =>
      rcases perform_push_cases queue push bounded with
        ⟨_, performed⟩ | ⟨_, _, performed⟩ | ⟨_, _, performed, extended⟩
      · simp [transition, Transition.popped?, Transition.accepted?, performed, encodings]
      · simp [transition, Transition.popped?, Transition.accepted?, performed, encodings, drop]
      · simp [transition, Transition.popped?, Transition.accepted?, performed, encodings,
          extended.words, extended.stamper]
  | setSemaphore semaphore =>
      simp [transition, Transition.popped?, Transition.accepted?, perform, setSemaphore,
        encodings]
  | pop =>
      cases waiting : queue.words with
      | nil =>
          simp [transition, Transition.popped?, Transition.accepted?, perform, pop, waiting,
            encodings]
      | cons word rest =>
          simp [transition, Transition.popped?, Transition.accepted?, perform, pop, waiting,
            encodings]
  | takeOwed =>
      simp [transition, Transition.popped?, Transition.accepted?, perform, takeOwed, encodings]

/-! ## Whole runs -/

theorem encodings_append (first second : List Push) (stamper : Stamper) :
    encodings stamper (first ++ second) =
      encodings stamper first ++ encodings (first.foldl Push.commit stamper) second := by
  induction first generalizing stamper with
  | nil => rfl
  | cons push rest ih => simp [encodings, ih]

theorem popped_cons (step : Transition) (steps : List Transition) :
    popped (step :: steps) = step.popped?.toList ++ popped steps := by
  cases taken : step.popped? <;> simp [popped, taken]

theorem accepted_cons (step : Transition) (steps : List Transition) :
    accepted (step :: steps) = step.accepted?.toList ++ accepted steps := by
  cases taken : step.accepted? <;> simp [accepted, taken]

theorem performAll_bounded (operations : List Operation) (queue : Queue)
    (bounded : queue.length ≤ capacity) :
    (queue.performAll operations).length ≤ capacity := by
  induction operations generalizing queue with
  | nil => exact bounded
  | cons operation rest ih => exact ih _ (perform_bounded queue operation bounded)

theorem trace_exact (operations : List Operation) (queue : Queue)
    (bounded : queue.length ≤ capacity) :
    ∀ step ∈ queue.trace operations, step.Exact := by
  induction operations generalizing queue with
  | nil => simp [trace]
  | cons operation rest ih =>
      intro step member
      rcases List.mem_cons.mp member with rfl | member
      · exact transition_exact queue operation bounded
      · exact ih _ (perform_bounded queue operation bounded) step member

theorem performAll_conserves (operations : List Operation) (queue : Queue)
    (bounded : queue.length ≤ capacity) :
    popped (queue.trace operations) ++ (queue.performAll operations).words =
        queue.words ++ encodings queue.stamper (accepted (queue.trace operations)) ∧
      (queue.performAll operations).stamper =
        (accepted (queue.trace operations)).foldl Push.commit queue.stamper := by
  induction operations generalizing queue with
  | nil => simp [trace, performAll, popped, accepted, encodings]
  | cons operation rest ih =>
      obtain ⟨firstWords, firstStamper⟩ := perform_conserves queue operation bounded
      obtain ⟨restWords, restStamper⟩ := ih _ (perform_bounded queue operation bounded)
      rw [firstStamper] at restWords restStamper
      simp only [trace, performAll, popped_cons, accepted_cons, encodings_append,
        List.foldl_append]
      refine ⟨?_, restStamper⟩
      rw [List.append_assoc, restWords, ← List.append_assoc, firstWords, List.append_assoc]

/-- The queue is a bounded buffer that loses nothing it has accepted: what has been
popped and what still waits are together the encodings of the accepted pushes, and
the stamper has seen those pushes and no others. -/
theorem trace_from_new_queue_lossless (policy : WakePolicy) (operations : List Operation) :
    let new : Queue := { policy }
    (new.performAll operations).length ≤ capacity ∧
      popped (new.trace operations) ++ (new.performAll operations).words =
        encodings {} (accepted (new.trace operations)) ∧
      (new.performAll operations).stamper =
        (accepted (new.trace operations)).foldl Push.commit {} ∧
      ∀ step ∈ new.trace operations, step.Exact := by
  intro new
  have bounded : new.length ≤ capacity := Nat.zero_le capacity
  obtain ⟨words, stamper⟩ := performAll_conserves operations new bounded
  exact ⟨performAll_bounded operations new bounded, words, stamper,
    trace_exact operations new bounded⟩

end GuestConsole.Input.Queue
