import GuestConsole.Alarm
import Mathlib.Algebra.Group.Nat.Defs

/-!
# The alarm and the turns of the clock

The millisecond clock starts anew after 2^32 milliseconds.  An alarm compares the
reading with its tick as numbers.  That tells which of the two times is later while both
lie in one turn of the clock, and tells the opposite when the clock has started anew
between them.
-/

set_option autoImplicit false

namespace GuestConsole

def clockAt (time : Nat) : UInt32 := UInt32.ofNat time

/-- How often the clock has started anew by then. -/
def clockTurn (time : Nat) : Nat := time / 2 ^ 32

namespace Alarm

def pollAll (alarm : Alarm) : List Nat → List (Option Semaphore × Alarm)
  | [] => []
  | time :: rest =>
      let polled := alarm.poll (clockAt time)
      polled :: polled.2.pollAll rest

/-- Polls up to the target find nothing and keep the request, and the next one finds the
semaphore and ends the request. -/
def Punctual (semaphore : Semaphore) (target : Nat) (early : List Nat) (late : Nat) : Prop :=
  let alarm := schedule (some semaphore) (clockAt target)
  alarm.pollAll (early ++ [late]) =
    early.map (fun _ => (none, alarm)) ++ [(some semaphore, ({} : Alarm))]

instance (semaphore : Semaphore) (target : Nat) (early : List Nat) (late : Nat) :
    Decidable (Punctual semaphore target early late) :=
  inferInstanceAs (Decidable (_ = _))

end Alarm

/-! ## One reading -/

theorem toNat_clockAt (time : Nat) : (clockAt time).toNat = time % 2 ^ 32 := by
  rw [clockAt, UInt32.toNat_ofNat']

theorem clockAt_order_iff (time target : Nat) (notLate : time < target + 2 ^ 32)
    (notEarly : target < time + 2 ^ 32) :
    (clockAt target < clockAt time ↔ target < time) ↔ clockTurn time = clockTurn target := by
  rw [UInt32.lt_iff_toNat_lt, toNat_clockAt, toNat_clockAt, clockTurn, clockTurn]
  omega

/-! ## Polls -/

section Polls
variable {semaphore : Semaphore} {tick now : UInt32}

theorem poll_schedule :
    (Alarm.schedule (some semaphore) tick).poll now =
      if tick < now then (some semaphore, {})
      else (none, Alarm.schedule (some semaphore) tick) := rfl

theorem poll_finds_iff :
    (Alarm.schedule (some semaphore) tick).poll now = (some semaphore, {}) ↔ tick < now := by
  rw [poll_schedule]
  split
  case isTrue passed => simp [passed]
  case isFalse waits => simp [waits]

theorem poll_keeps_iff :
    (Alarm.schedule (some semaphore) tick).poll now =
      (none, Alarm.schedule (some semaphore) tick) ↔ ¬ tick < now := by
  rw [poll_schedule]
  split
  case isTrue passed => simp [passed]
  case isFalse waits => simp [waits]

theorem punctual_iff_readings {target late : Nat} (early : List Nat) :
    Alarm.Punctual semaphore target early late ↔
      (∀ time ∈ early, ¬ clockAt target < clockAt time) ∧ clockAt target < clockAt late := by
  induction early with
  | nil =>
      simp only [Alarm.Punctual, Alarm.pollAll, List.nil_append, List.map_nil, List.cons.injEq,
        and_true, poll_finds_iff]
      simp
  | cons time rest ih =>
      rw [List.forall_mem_cons, and_assoc, ← ih]
      simp only [Alarm.Punctual, Alarm.pollAll, List.cons_append, List.map_cons, List.cons.injEq,
        poll_keeps_iff]
      constructor
      · rintro ⟨waits, later⟩
        rw [poll_keeps_iff.mpr waits] at later
        exact ⟨waits, later⟩
      · rintro ⟨waits, later⟩
        rw [poll_keeps_iff.mpr waits]
        exact ⟨waits, later⟩

end Polls

/-! ## Punctuality -/

/-- A request for a time less than 2^31 milliseconds ahead is met in time exactly if the
clock does not start anew between the target and any of the polls. -/
theorem punctual_iff_same_turn (semaphore : Semaphore) (start : Nat) {target late : Nat}
    {early : List Nat} (ahead : start ≤ target) (near : target < start + 2 ^ 31)
    (notAfter : ∀ time ∈ early, start ≤ time ∧ time ≤ target)
    (after : target < late) (soon : late < target + 2 ^ 31) :
    Alarm.Punctual semaphore target early late ↔
      ∀ time ∈ early ++ [late], clockTurn time = clockTurn target := by
  have lateTurn : clockAt target < clockAt late ↔ clockTurn late = clockTurn target := by
    have order := clockAt_order_iff late target (by omega) (by omega)
    simpa [after] using order
  have earlyTurn : ∀ time ∈ early,
      (¬ clockAt target < clockAt time ↔ clockTurn time = clockTurn target) := by
    intro time polled
    obtain ⟨started, early⟩ := notAfter time polled
    have order := clockAt_order_iff time target (by omega) (by omega)
    simpa [Nat.not_lt.mpr early] using order
  rw [punctual_iff_readings, lateTurn, forall_congr' fun time => forall_congr' (earlyTurn time)]
  simp [or_imp, forall_and]

theorem punctual_at_end_of_turn :
    Alarm.Punctual ⟨7⟩ 4294967290 [4294967280, 4294967290] 4294967295 :=
  (punctual_iff_same_turn ⟨7⟩ 4294967280 (by decide) (by decide) (by decide) (by decide)
    (by decide)).mpr (by decide)

/-- A request made 16 milliseconds before the clock starts anew for a time 16 milliseconds
after that is met at once. -/
theorem not_punctual_across_turns :
    ¬ ∀ (semaphore : Semaphore) (start target late : Nat) (early : List Nat),
      start ≤ target → target < start + 2 ^ 31 →
      (early ++ [late]).Pairwise (· ≤ ·) →
      (∀ time ∈ early, start ≤ time ∧ time ≤ target) →
      target < late → late < target + 2 ^ 31 →
      Alarm.Punctual semaphore target early late := by
  intro punctual
  have met := punctual ⟨7⟩ 4294967280 4294967312 4294967313 [4294967280] (by decide)
    (by decide) (by decide) (by decide) (by decide) (by decide)
  exact absurd met (by decide)

end GuestConsole
