import GuestConsole.Event.Word
import GuestConsole.Saturating

/-!
# Timestamps

Every event in the stream stands behind exactly one timestamp.  A short one is
a single word with the milliseconds since the previous event; where those do
not fit into a parameter, an absolute time in seconds takes three words.
-/

set_option autoImplicit false

namespace GuestConsole.Event

/-- Seconds from the start of 1901, where the guest counts from, to 1970. -/
def epochOffset : UInt32 := 2177452800

def absoluteSeconds (unixSeconds : UInt32) : UInt32 := unixSeconds + epochOffset

inductive Timestamp where
  | delay (ms : UInt16)
  | absolute (seconds : UInt32)
  deriving DecidableEq, Repr

def Timestamp.length : Timestamp → Nat
  | .delay _ => 1
  | .absolute _ => 3

def Timestamp.words : Timestamp → List UInt16
  | .delay ms => [(Word.tagged .delay ms).raw]
  | .absolute seconds =>
      [(Word.tagged .absoluteTime 0).raw, (seconds >>> 16).toUInt16,
        (seconds &&& 0xFFFF).toUInt16]

@[simp] theorem Timestamp.length_words (stamp : Timestamp) :
    stamp.words.length = stamp.length := by
  cases stamp <;> rfl

structure Stamper where
  lastTick : UInt32 := 0
  /-- number of committed events; it stops at the largest word, so that it never
  reads as zero again -/
  count : UInt32 := 0
  deriving DecidableEq, Repr

namespace Stamper

/-- The timestamp of an event at `now`.  The first event has no predecessor and
gets a delay of zero; a delay that does not fit becomes an absolute time. -/
def stampFor (stamper : Stamper) (now unixSeconds : UInt32) : Timestamp :=
  if stamper.count = 0 then .delay 0
  else
    let delta := now - stamper.lastTick
    if delta ≤ 4095 then .delay delta.toUInt16 else .absolute (absoluteSeconds unixSeconds)

def commit (stamper : Stamper) (now : UInt32) : Stamper :=
  { lastTick := now, count := Saturating.add32 stamper.count 1 }

def stamp (stamper : Stamper) (now unixSeconds : UInt32) : Timestamp × Stamper :=
  (stamper.stampFor now unixSeconds, stamper.commit now)

end Stamper

end GuestConsole.Event
