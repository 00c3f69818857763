import GuestConsole.Event.Timestamp
import GuestConsole.Semaphore
import GuestConsole.Violation

/-!
# The input queue

A bounded queue of event words between the devices and the guest.  An event is
queued together with its timestamp or not at all, so the guest never reads a
part of one.  The queue counts the signals that it owes to the guest's input
semaphore; the console delivers them.
-/

set_option autoImplicit false

namespace GuestConsole.Input

open GuestConsole.Event

inductive WakePolicy where
  | everyWord
  | onNonEmpty
  deriving DecidableEq, Repr

inductive Pushed where
  | queued (words : Nat)
  | dropped
  deriving DecidableEq, Repr

structure Queue where
  policy : WakePolicy := .everyWord
  words : List UInt16 := []
  semaphore : Option Semaphore := none
  stamper : Stamper := {}
  /-- signals owed to the semaphore, 65535 at most -/
  owed : UInt16 := 0
  /-- events that did not fit; the count stops at the largest word -/
  dropped : UInt32 := 0
  deriving DecidableEq, Repr

namespace Queue

def capacity : Nat := 256

def length (queue : Queue) : Nat := queue.words.length

def isEmpty (queue : Queue) : Bool := queue.words.isEmpty

def free (queue : Queue) : Nat := capacity - queue.length

def setSemaphore (queue : Queue) (semaphore : Option Semaphore) : Queue :=
  { queue with semaphore }

def signalsFor (queue : Queue) (added : Nat) : UInt16 :=
  match queue.policy with
  | .everyWord => UInt16.ofNat added
  | .onNonEmpty => if queue.isEmpty && added != 0 then 1 else 0

/-- Adds words at the end.  The buffer takes no more than its capacity, so that words
for which there is no room would be lost; what is owed counts them all the same. -/
def enqueue (queue : Queue) (words : List UInt16) : Queue :=
  { queue with
    words := queue.words ++ words.take queue.free
    owed := Saturating.add16 queue.owed (queue.signalsFor words.length) }

def enqueueWords (queue : Queue) (event : List Word) : Queue :=
  event.foldl (fun queue word => queue.enqueue [word.raw]) queue

def drop (queue : Queue) : Queue := { queue with dropped := Saturating.add32 queue.dropped 1 }

def guarded (queue : Queue) (result : Pushed × Queue) : Except Violation (Pushed × Queue) :=
  match queue.semaphore with
  | none => .error .noInputSemaphore
  | some _ => .ok result

def pushEvent (queue : Queue) (now unixSeconds : UInt32) (event : List Word) :
    Except Violation (Pushed × Queue) :=
  queue.guarded <|
    let stamp := queue.stamper.stampFor now unixSeconds
    let needed := stamp.length + event.length
    if queue.free < needed then (.dropped, queue.drop)
    else
      let committed := { queue with stamper := queue.stamper.commit now }
      (.queued needed, (committed.enqueue stamp.words).enqueueWords event)

/-- The words that a group of events needs, each behind a timestamp of its own. -/
def groupLength (stamper : Stamper) (now unixSeconds : UInt32) : List (List Word) → Nat
  | [] => 0
  | event :: rest =>
      let (stamp, next) := stamper.stamp now unixSeconds
      stamp.length + event.length + groupLength next now unixSeconds rest

def enqueueEvent (now unixSeconds : UInt32) (queue : Queue) (event : List Word) : Queue :=
  let (stamp, stamper) := queue.stamper.stamp now unixSeconds
  ({ queue with stamper }.enqueue stamp.words).enqueueWords event

/-- Queues a group of events, each behind its timestamp.  Either all of them are
queued or none is, so that the two coordinates of a motion stay together; a group
that does not fit counts as one dropped event. -/
def pushEvents (queue : Queue) (now unixSeconds : UInt32) (events : List (List Word)) :
    Except Violation (Pushed × Queue) :=
  queue.guarded <|
    let needed := groupLength queue.stamper now unixSeconds events
    if queue.free < needed then (.dropped, queue.drop)
    else (.queued needed, events.foldl (enqueueEvent now unixSeconds) queue)

def pushTimestamp (queue : Queue) (now unixSeconds : UInt32) :
    Except Violation (Pushed × Queue) :=
  queue.guarded <|
    let stamp := queue.stamper.stampFor now unixSeconds
    if queue.free < stamp.length then (.dropped, queue.drop)
    else
      let committed := { queue with stamper := queue.stamper.commit now }
      (.queued stamp.length, committed.enqueue stamp.words)

def pushWord (queue : Queue) (word : Word) : Except Violation (Pushed × Queue) :=
  queue.guarded <|
    if queue.free = 0 then (.dropped, queue.drop)
    else (.queued 1, queue.enqueue [word.raw])

def pop (queue : Queue) : Option UInt16 × Queue :=
  match queue.words with
  | [] => (none, queue)
  | word :: rest => (some word, { queue with words := rest })

def takeOwed (queue : Queue) : UInt16 × Queue := (queue.owed, { queue with owed := 0 })

end Queue

end GuestConsole.Input
