import GuestConsole.Proofs.QueueSignals
import Mathlib.Data.List.DropRight

/-!
# Counting the signals of a run

Whoever takes the signals owed is told how many have been counted since they were last taken,
or the largest word if there are more.  Only pushes that are queued count any.  While words
wait, a signal has been counted since the queue was last empty, and it has been taken or is
still owed.
-/

set_option autoImplicit false

namespace GuestConsole.Input.Queue

open GuestConsole.Event

/-- The signals that a transition counts.  Only a push that is queued counts any: one for each
word that it adds, or a single one if it adds words while none wait. -/
def Transition.signals (policy : WakePolicy) (step : Transition) : Nat :=
  match step.answer with
  | .pushed (.queued words) =>
      match policy with
      | .everyWord => words
      | .onNonEmpty => if step.before.words = [] ∧ 0 < words then 1 else 0
  | _ => 0

def signals (policy : WakePolicy) (steps : List Transition) : Nat :=
  steps.foldl (fun counted step => counted + step.signals policy) 0

def sinceTaken (steps : List Transition) : List Transition :=
  steps.rtakeWhile fun step => step.operation ≠ .takeOwed

/-- The transitions from the latest moment on at which no words waited. -/
def sinceEmpty (steps : List Transition) : List Transition :=
  steps.rtakeWhile fun step => step.after.words ≠ []

theorem signals_concat (policy : WakePolicy) (steps : List Transition) (step : Transition) :
    signals policy (steps ++ [step]) = signals policy steps + step.signals policy := by
  simp [signals]

section
variable {steps : List Transition} {step : Transition}

theorem sinceTaken_concat_taken (taken : step.operation = .takeOwed) :
    sinceTaken (steps ++ [step]) = [] :=
  List.rtakeWhile_concat_neg _ _ _ (by simpa using taken)

theorem sinceTaken_concat_other (other : step.operation ≠ .takeOwed) :
    sinceTaken (steps ++ [step]) = sinceTaken steps ++ [step] :=
  List.rtakeWhile_concat_pos _ _ _ (by simpa using other)

theorem sinceEmpty_concat (some : step.after.words ≠ []) :
    sinceEmpty (steps ++ [step]) = sinceEmpty steps ++ [step] :=
  List.rtakeWhile_concat_pos _ _ _ (by simpa using some)

end

/-! ## A single transition -/

/-- The account of a transition: what is owed is what was owed and what it counts, up to the
largest word, and nothing once the signals have been taken.  The first words to wait count. -/
structure Transition.Accounts (step : Transition) : Prop where
  policy : step.after.policy = step.before.policy
  taken : step.operation = .takeOwed →
    step.answer = .owed step.before.owed ∧ step.after.owed = 0
  owed : step.operation ≠ .takeOwed →
    step.after.owed.toNat =
      min (step.before.owed.toNat + step.signals step.before.policy) 65535
  first : step.before.words = [] → step.after.words ≠ [] →
    0 < step.signals step.before.policy

theorem signals_push_queued {queue : Queue} {push : Push} {added : List UInt16}
    (queued : (queue.transition (.push push)).answer = .pushed (.queued added.length)) :
    (queue.transition (.push push)).signals queue.policy =
      signalsDue queue.policy queue.words added := by
  rw [Transition.signals, queued]
  cases queue.policy with
  | everyWord => rfl
  | onNonEmpty => simp only [signalsDue, List.length_pos_iff, transition]

theorem accounts_of_same {step : Transition} (other : step.operation ≠ .takeOwed)
    (uncounted : step.signals step.before.policy = 0)
    (policy : step.after.policy = step.before.policy)
    (owed : step.after.owed = step.before.owed)
    (emptied : step.before.words = [] → step.after.words = []) : step.Accounts where
  policy := policy
  taken := fun same => absurd same other
  owed := by
    intro _
    have small := step.before.owed.toNat_lt
    rw [owed, uncounted]
    omega
  first := fun empty some => absurd (emptied empty) some

theorem transition_accounts (queue : Queue) (operation : Operation)
    (bounded : queue.length ≤ capacity) : (queue.transition operation).Accounts := by
  cases operation with
  | push push =>
      rcases perform_push_cases queue push bounded with
        ⟨_, performed⟩ | ⟨_, _, performed⟩ | ⟨_, room, performed, extended⟩
      · apply accounts_of_same <;> simp [transition, performed, Transition.signals]
      · apply accounts_of_same <;> simp [transition, performed, Transition.signals, drop]
      · have fits : (push.encoding queue.stamper).length ≤ queue.free := Nat.le_sub_of_add_le' room
        have counted : (queue.transition (.push push)).signals queue.policy =
            signalsDue queue.policy queue.words (push.encoding queue.stamper) :=
          signals_push_queued (by rw [transition, performed])
        have after : (queue.transition (.push push)).after = push.place queue := by
          rw [transition, performed]
        constructor
        · rw [after]
          exact extended.policy
        · intro same
          cases same
        · intro _
          rw [after]
          show _ = min (_ + (queue.transition (.push push)).signals queue.policy) _
          rw [counted]
          exact owes_place queue push fits
        · intro empty some
          show 0 < (queue.transition (.push push)).signals queue.policy
          have waiting : queue.words = [] := empty
          rw [after, extended.words, waiting, List.nil_append] at some
          rw [counted, waiting]
          exact signalsDue_pos queue.policy some
  | setSemaphore semaphore =>
      apply accounts_of_same <;> simp [transition, perform, Transition.signals, setSemaphore]
  | pop =>
      cases waiting : queue.words <;>
        (apply accounts_of_same <;> simp [transition, perform, Transition.signals, pop, waiting])
  | takeOwed =>
      constructor
      · rfl
      · exact fun _ => ⟨rfl, rfl⟩
      · exact fun other => absurd rfl other
      · exact fun empty some => absurd empty some

/-! ## Runs -/

def Noticed (queue : Queue) (steps : List Transition) : Prop :=
  queue.owed ≠ 0 ∨ ∃ step ∈ steps, ∃ owed, step.answer = .owed owed ∧ owed ≠ 0

structure Accounted (policy : WakePolicy) (steps : List Transition) (queue : Queue) : Prop where
  samePolicy : queue.policy = policy
  bounded : queue.length ≤ capacity
  owed : queue.owed.toNat = min (signals policy (sinceTaken steps)) 65535
  awake : queue.words ≠ [] →
    0 < signals policy (sinceEmpty steps) ∧ Noticed queue (sinceEmpty steps)

theorem accounted_new (policy : WakePolicy) : Accounted policy [] { policy } where
  samePolicy := rfl
  bounded := Nat.zero_le capacity
  owed := rfl
  awake := fun waiting => absurd rfl waiting

section Runs
variable {policy : WakePolicy} {steps : List Transition} {step : Transition} {queue : Queue}

theorem noticed_concat (accounts : step.Accounts) (noticed : Noticed step.before steps) :
    Noticed step.after (steps ++ [step]) := by
  rcases noticed with owed | ⟨earlier, listed, taken⟩
  · by_cases taken : step.operation = .takeOwed
    · right
      exact ⟨step, by simp, step.before.owed, (accounts.taken taken).1, owed⟩
    · left
      have later := accounts.owed taken
      have some : step.before.owed.toNat ≠ 0 := fun zero => owed (UInt16.toNat_inj.mp zero)
      intro zero
      rw [zero, UInt16.toNat_zero] at later
      omega
  · right
    exact ⟨earlier, List.mem_append_left _ listed, taken⟩

theorem owed_first (accounts : step.Accounts) (empty : step.before.words = [])
    (waiting : step.after.words ≠ []) : step.after.owed ≠ 0 := by
  have counted := accounts.first empty waiting
  have other : step.operation ≠ .takeOwed := by
    intro taken
    rw [Transition.signals, (accounts.taken taken).1] at counted
    exact Nat.lt_irrefl 0 counted
  have later := accounts.owed other
  intro zero
  rw [zero, UInt16.toNat_zero] at later
  omega

theorem perform_accounted (accounted : Accounted policy steps queue) (operation : Operation) :
    Accounted policy (steps ++ [queue.transition operation]) (queue.perform operation).2 := by
  let step := queue.transition operation
  have accounts : step.Accounts := transition_accounts queue operation accounted.bounded
  have policyBefore : step.before.policy = policy := accounted.samePolicy
  constructor
  case samePolicy => exact accounts.policy.trans policyBefore
  case bounded => exact perform_bounded queue operation accounted.bounded
  case owed =>
    show step.after.owed.toNat = min (signals policy (sinceTaken (steps ++ [step]))) 65535
    by_cases taken : step.operation = .takeOwed
    · rw [sinceTaken_concat_taken taken, (accounts.taken taken).2]
      rfl
    · have before : step.before.owed.toNat =
          min (signals policy (sinceTaken steps)) 65535 := accounted.owed
      rw [sinceTaken_concat_other taken, signals_concat, accounts.owed taken, policyBefore, before]
      omega
  case awake =>
    intro waiting
    show 0 < signals policy (sinceEmpty (steps ++ [step])) ∧
      Noticed step.after (sinceEmpty (steps ++ [step]))
    rw [sinceEmpty_concat waiting, signals_concat]
    by_cases empty : step.before.words = []
    · have counted := accounts.first empty waiting
      rw [policyBefore] at counted
      exact ⟨by omega, .inl (owed_first accounts empty waiting)⟩
    · obtain ⟨counted, noticed⟩ := accounted.awake empty
      exact ⟨by omega, noticed_concat accounts noticed⟩

theorem performAll_accounted (operations : List Operation)
    (accounted : Accounted policy steps queue) :
    Accounted policy (steps ++ queue.trace operations) (queue.performAll operations) := by
  induction operations generalizing steps queue with
  | nil => rwa [trace, List.append_nil]
  | cons operation rest ih =>
      have whole := ih (perform_accounted accounted operation)
      rwa [List.append_assoc] at whole

end Runs

/-- After any operations on a new queue, whoever takes the signals is told their count since
they were last taken, up to the largest word.  An operation that queues nothing and does not
take them leaves what is owed.  While words wait, at least one signal has been counted since
none waited, and it has been taken or is still owed. -/
theorem signals_of_operations (policy : WakePolicy) (operations : List Operation) :
    let queue := performAll { policy } operations
    let steps := trace { policy } operations
    queue.perform .takeOwed =
      (.owed (UInt16.ofNat (min 65535 (signals policy (sinceTaken steps)))),
        { queue with owed := 0 }) ∧
    (∀ operation, operation ≠ .takeOwed →
      (∀ words, (queue.perform operation).1 ≠ .pushed (.queued words)) →
      (queue.perform operation).2.owed = queue.owed) ∧
    (queue.words ≠ [] →
      0 < signals policy (sinceEmpty steps) ∧ Noticed queue (sinceEmpty steps)) := by
  intro queue steps
  have accounted : Accounted policy steps queue :=
    performAll_accounted operations (accounted_new policy)
  refine ⟨?_, ?_, accounted.awake⟩
  · have word : queue.owed = UInt16.ofNat (min 65535 (signals policy (sinceTaken steps))) := by
      rw [Nat.min_comm, ← accounted.owed, UInt16.ofNat_toNat]
    rw [← word]
    rfl
  · intro operation other unqueued
    have accounts := transition_accounts queue operation accounted.bounded
    have uncounted : (queue.transition operation).signals queue.policy = 0 := by
      unfold Transition.signals
      split
      · next words queued => exact absurd queued (unqueued words)
      · rfl
    have small := queue.owed.toNat_lt
    have owed := accounts.owed other
    have before : (queue.transition operation).before = queue := rfl
    rw [before, uncounted] at owed
    apply UInt16.toNat_inj.mp
    show (queue.transition operation).after.owed.toNat = _
    omega

/-- An event is signalled and read to its end; a timestamp then finds the queue empty again,
and a motion behind it does not.  Popping a word leaves what is owed. -/
theorem signals_of_operations_past_empty :
    let operations : List Operation :=
      [.setSemaphore (some ⟨7⟩), .push (.single 5 0 [Word.down 130]), .takeOwed, .pop, .pop,
        .push (.stamp 6 0), .push (.group 7 0 [[Word.coordinate 1], [Word.coordinate 2]])]
    let queue := performAll { policy := .onNonEmpty } operations
    let steps := trace { policy := .onNonEmpty } operations
    (queue.perform .takeOwed).1 = .owed 1 ∧
    (∀ words, (queue.perform .pop).1 ≠ .pushed (.queued words)) ∧
    (queue.perform .pop).2.owed = queue.owed ∧
    queue.words ≠ [] ∧ (sinceEmpty steps).length = 2 ∧
    0 < signals .onNonEmpty (sinceEmpty steps) ∧ Noticed queue (sinceEmpty steps) := by
  intro operations queue steps
  obtain ⟨taken, unchanged, awake⟩ := signals_of_operations .onNonEmpty operations
  have counted : signals .onNonEmpty (sinceTaken steps) = 1 := by decide
  have unqueued (words : Nat) : (queue.perform .pop).1 ≠ .pushed (.queued words) := nofun
  have waiting : queue.words ≠ [] := by decide
  refine ⟨?_, unqueued, unchanged .pop nofun unqueued, waiting, by decide, awake waiting⟩
  rw [taken, counted]
  rfl

end GuestConsole.Input.Queue
