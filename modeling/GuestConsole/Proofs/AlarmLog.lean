import GuestConsole.Alarm

/-!
# Timed signals in the order of events

Steps of the guest begin and end, the guest asks for signals, and the clock is read for
the checks of the frames.  The order of these events and the readings decide which
signals fall due and when.  As in a history, the latest event stands first.
-/

set_option autoImplicit false

namespace GuestConsole

structure AlarmCall where
  semaphore : Option Semaphore
  tick : UInt32
  now : UInt32
  deriving DecidableEq, Repr

inductive AlarmEvent where
  | began
  | asked (call : AlarmCall)
  | ended
  /-- the clock is read for the check of a frame -/
  | checked (now : UInt32)
  deriving DecidableEq, Repr

/-- The latest call, while the clock has not passed its tick: neither at the call itself
nor at a check since. -/
def Awaits (past : List AlarmEvent) (call : AlarmCall) : Prop :=
  ∃ later earlier, past = later ++ .asked call :: earlier ∧
    (∀ other, .asked other ∉ later) ∧
    call.now ≤ call.tick ∧ ∀ reading, .checked reading ∈ later → reading ≤ call.tick

/-- What falls due with an event: at the end of a step the signal of its last call, if the
clock had passed the tick at the call, and at a check the signal of the latest call, if this
is the first reading past its tick. -/
def FallsDue (past : List AlarmEvent) (semaphore : Semaphore) : AlarmEvent → Prop
  | .ended => ∃ call earlier, past = .asked call :: earlier ∧
      call.semaphore = some semaphore ∧ call.tick < call.now
  | .checked now => ∃ call, Awaits past call ∧
      call.semaphore = some semaphore ∧ call.tick < now
  | .began => False
  | .asked _ => False

/-! ## What is awaited -/

section Awaits
variable {past : List AlarmEvent} {call : AlarmCall}

theorem awaits_cons {event : AlarmEvent} (other : ∀ call, event ≠ .asked call) :
    Awaits (event :: past) call ↔
      Awaits past call ∧ ∀ reading, event = .checked reading → reading ≤ call.tick := by
  constructor
  · rintro ⟨later, earlier, same, latest, atCall, since⟩
    cases later with
    | nil =>
        obtain ⟨here, _⟩ := List.cons.inj same
        exact absurd here (other call)
    | cons first later =>
        obtain ⟨rfl, rest⟩ := List.cons.inj same
        refine ⟨⟨later, earlier, rest, ?_, atCall, ?_⟩, ?_⟩
        · intro call listed
          exact latest call (List.mem_cons_of_mem _ listed)
        · intro reading listed
          exact since reading (List.mem_cons_of_mem _ listed)
        · intro reading here
          exact since reading (here ▸ List.mem_cons_self)
  · rintro ⟨⟨later, earlier, rfl, latest, atCall, since⟩, atEvent⟩
    refine ⟨event :: later, earlier, rfl, ?_, atCall, ?_⟩
    · intro call listed
      rcases List.mem_cons.mp listed with here | listed
      · exact other call here.symm
      · exact latest call listed
    · intro reading listed
      rcases List.mem_cons.mp listed with here | listed
      · exact atEvent reading here.symm
      · exact since reading listed

theorem awaits_began : Awaits (.began :: past) call ↔ Awaits past call := by
  simp [awaits_cons]

theorem awaits_ended : Awaits (.ended :: past) call ↔ Awaits past call := by
  simp [awaits_cons]

theorem awaits_checked {now : UInt32} :
    Awaits (.checked now :: past) call ↔ Awaits past call ∧ now ≤ call.tick := by
  simp [awaits_cons]

theorem awaits_asked {latest : AlarmCall} :
    Awaits (.asked latest :: past) call ↔ call = latest ∧ call.now ≤ call.tick := by
  constructor
  · rintro ⟨later, earlier, same, newest, atCall, _⟩
    cases later with
    | nil =>
        obtain ⟨here, _⟩ := List.cons.inj same
        exact ⟨(AlarmEvent.asked.inj here).symm, atCall⟩
    | cons first later =>
        obtain ⟨rfl, _⟩ := List.cons.inj same
        exact absurd List.mem_cons_self (newest latest)
  · rintro ⟨rfl, atCall⟩
    exact ⟨[], past, rfl, nofun, atCall, nofun⟩

theorem not_awaits_nil : ¬ Awaits [] call := by
  rintro ⟨later, earlier, same, _⟩
  simp at same

theorem awaits_of_append {later : List AlarmEvent} (none : ∀ other, .asked other ∉ later)
    (awaits : Awaits (later ++ past) call) : Awaits past call := by
  induction later with
  | nil => exact awaits
  | cons event later ih =>
      have other : ∀ call, event ≠ .asked call := by
        intro call here
        exact none call (here ▸ List.mem_cons_self)
      apply ih
      · intro call listed
        exact none call (List.mem_cons_of_mem event listed)
      · exact ((awaits_cons other).mp awaits).1

theorem awaits_unique {other : AlarmCall} (awaits : Awaits past call)
    (also : Awaits past other) : call = other := by
  induction past with
  | nil => exact absurd awaits not_awaits_nil
  | cons event past ih =>
      cases event with
      | began => exact ih (awaits_began.mp awaits) (awaits_began.mp also)
      | asked latest => exact (awaits_asked.mp awaits).1.trans (awaits_asked.mp also).1.symm
      | ended => exact ih (awaits_ended.mp awaits) (awaits_ended.mp also)
      | checked now => exact ih (awaits_checked.mp awaits).1 (awaits_checked.mp also).1

end Awaits

/-! ## Alarms that follow the events -/

def Alarm.Follows (alarm : Alarm) (past : List AlarmEvent) : Prop :=
  ∀ request, alarm.pending = some request ↔
    ∃ call, Awaits past call ∧ call.semaphore = some request.semaphore ∧
      call.tick = request.tick

section Follows
variable {alarm : Alarm} {past : List AlarmEvent}

theorem follows_nil : ({} : Alarm).Follows [] := by
  intro request
  constructor
  · nofun
  · rintro ⟨call, awaits, _⟩
    exact absurd awaits not_awaits_nil

theorem follows_of_iff {other : List AlarmEvent}
    (same : ∀ call, Awaits other call ↔ Awaits past call) (follows : alarm.Follows past) :
    alarm.Follows other := by
  intro request
  simp only [same]
  exact follows request

theorem follows_schedule (past : List AlarmEvent) (semaphore : Option Semaphore)
    (tick now : UInt32) :
    let polled := (Alarm.schedule semaphore tick).poll now
    (∀ due, polled.1 = some due ↔ semaphore = some due ∧ tick < now) ∧
      polled.2.Follows (.asked ⟨semaphore, tick, now⟩ :: past) := by
  cases semaphore with
  | none =>
      refine ⟨by simp [Alarm.schedule, Alarm.poll], fun request => ?_⟩
      simp [Alarm.schedule, Alarm.poll, awaits_asked]
  | some semaphore =>
      by_cases passed : tick < now
      · refine ⟨by simp [Alarm.schedule, Alarm.poll, passed], fun request => ?_⟩
        have late : ¬ now ≤ tick := UInt32.not_le.mpr passed
        simp [Alarm.schedule, Alarm.poll, passed, awaits_asked, late]
      · refine ⟨by simp [Alarm.schedule, Alarm.poll, passed], ?_⟩
        rintro ⟨other, deadline⟩
        have early : now ≤ tick := UInt32.not_lt.mp passed
        simp only [Alarm.schedule, Alarm.poll, Option.map_some, if_neg passed, awaits_asked,
          Option.some.injEq, Alarm.Request.mk.injEq]
        constructor
        · rintro ⟨rfl, rfl⟩
          exact ⟨_, ⟨rfl, early⟩, rfl, rfl⟩
        · rintro ⟨call, ⟨rfl, _⟩, named, tick⟩
          exact ⟨Option.some.inj named, tick⟩

theorem follows_poll (follows : alarm.Follows past) (now : UInt32) :
    (∀ due, (alarm.poll now).1 = some due ↔ FallsDue past due (.checked now)) ∧
      (alarm.poll now).2.Follows (.checked now :: past) := by
  cases pending : alarm.pending with
  | none =>
      have idle : ∀ call semaphore, Awaits past call → call.semaphore = some semaphore →
          False := by
        intro call semaphore awaits named
        have asked := (follows ⟨semaphore, call.tick⟩).mpr ⟨call, awaits, named, rfl⟩
        rw [pending] at asked
        cases asked
      have polled : alarm.poll now = (none, alarm) := by
        rw [Alarm.poll, pending]
      rw [polled]
      constructor
      · intro due
        constructor
        · nofun
        · rintro ⟨call, awaits, named, _⟩
          exact (idle call due awaits named).elim
      · intro request
        rw [pending]
        constructor
        · nofun
        · rintro ⟨call, awaits, named, _⟩
          exact (idle call request.semaphore (awaits_checked.mp awaits).1 named).elim
  | some request =>
      obtain ⟨call, awaits, named, tick⟩ := (follows request).mp pending
      have polled : alarm.poll now =
          if request.tick < now then (some request.semaphore, {}) else (none, alarm) := by
        rw [Alarm.poll, pending]
      rw [polled]
      split
      case isTrue passed =>
        constructor
        · intro due
          constructor
          · intro same
            rw [← Option.some.inj same]
            exact ⟨call, awaits, named, tick ▸ passed⟩
          · rintro ⟨other, also, otherNamed, _⟩
            rw [← awaits_unique awaits also, named] at otherNamed
            exact otherNamed
        · intro other
          constructor
          · nofun
          · rintro ⟨kept, also, _⟩
            obtain ⟨also, early⟩ := awaits_checked.mp also
            rw [← awaits_unique awaits also, tick] at early
            exact absurd passed (UInt32.not_lt.mpr early)
      case isFalse waits =>
        constructor
        · intro due
          constructor
          · nofun
          · rintro ⟨other, also, _, passed⟩
            rw [← awaits_unique awaits also, tick] at passed
            exact absurd passed waits
        · refine follows_of_iff (fun other => ?_) follows
          rw [awaits_checked]
          constructor
          · exact And.left
          · intro also
            rw [← awaits_unique awaits also, tick]
            exact ⟨awaits, UInt32.not_lt.mp waits⟩

end Follows

/-! ## Logs with signals -/

/-- An event with the signal that is delivered directly after it. -/
structure AlarmEntry where
  event : AlarmEvent
  signal : Option Semaphore := none

/-- Every delivered signal falls due there, and every signal that falls due is delivered. -/
def SignalsRightly (log : List AlarmEntry) : Prop :=
  ∀ later entry past, log = later ++ entry :: past →
    ∀ semaphore, entry.signal = some semaphore ↔
      FallsDue (past.map AlarmEntry.event) semaphore entry.event

section Logs
variable {log : List AlarmEntry} {entry : AlarmEntry}

theorem signalsRightly_cons (rightly : SignalsRightly log)
    (here : ∀ semaphore, entry.signal = some semaphore ↔
      FallsDue (log.map AlarmEntry.event) semaphore entry.event) :
    SignalsRightly (entry :: log) := by
  intro later other past same
  cases later with
  | nil =>
      obtain ⟨rfl, rfl⟩ := List.cons.inj same
      exact here
  | cons first later => exact rightly later other past (List.cons.inj same).2

theorem asked_between_signals (rightly : SignalsRightly log)
    {later between past : List AlarmEntry} {first second : AlarmEntry}
    (same : log = later ++ second :: (between ++ first :: past))
    (firstSignals : first.signal.isSome) (secondSignals : second.signal.isSome) :
    ∃ call, .asked call ∈ between.map AlarmEntry.event := by
  -- else both answer one call, and the clock has passed its tick before the second
  by_cases asked : ∃ call, .asked call ∈ between.map AlarmEntry.event
  · exact asked
  exfalso
  have unasked : ∀ call, .asked call ∉ between.map AlarmEntry.event :=
    fun call listed => asked ⟨call, listed⟩
  obtain ⟨early, earlySignal⟩ := Option.isSome_iff_exists.mp firstSignals
  obtain ⟨late, lateSignal⟩ := Option.isSome_iff_exists.mp secondSignals
  have earlyDue := (rightly (later ++ second :: between) first past
    (by rw [same, List.append_assoc]; rfl) early).mp earlySignal
  have lateDue := (rightly later second _ same late).mp lateSignal
  rw [List.map_append, List.map_cons] at lateDue
  cases event : second.event with
  | began => rw [event] at lateDue; exact lateDue
  | asked call => rw [event] at lateDue; exact lateDue
  | ended =>
      rw [event] at lateDue
      obtain ⟨call, earlier, split, _⟩ := lateDue
      cases between with
      | nil =>
          obtain ⟨here, _⟩ := List.cons.inj split
          rw [here] at earlyDue
          exact earlyDue
      | cons next between =>
          obtain ⟨here, _⟩ := List.cons.inj split
          exact unasked call (here ▸ List.mem_cons_self)
  | checked now =>
      rw [event] at lateDue
      obtain ⟨call, awaits, _⟩ := lateDue
      have awaits := awaits_of_append unasked awaits
      cases firstEvent : first.event with
      | began => rw [firstEvent] at earlyDue; exact earlyDue
      | asked other => rw [firstEvent] at earlyDue; exact earlyDue
      | ended =>
          rw [firstEvent] at earlyDue awaits
          obtain ⟨other, earlier, split, _, passed⟩ := earlyDue
          rw [awaits_ended, split, awaits_asked] at awaits
          obtain ⟨rfl, early⟩ := awaits
          exact absurd passed (UInt32.not_lt.mpr early)
      | checked reading =>
          rw [firstEvent] at earlyDue awaits
          obtain ⟨other, also, _, passed⟩ := earlyDue
          obtain ⟨awaits, early⟩ := awaits_checked.mp awaits
          rw [awaits_unique awaits also] at early
          exact absurd passed (UInt32.not_lt.mpr early)

end Logs

end GuestConsole
