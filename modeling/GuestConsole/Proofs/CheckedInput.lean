import GuestConsole.Proofs.CheckedDrawing

/-!
# Input and services with checked buffers

The words of a timestamp, of a key and of the queue are pushed one after the other into
buffers of a fixed capacity.  Here a push without room has no result, just as a number that
does not fit.  A group of a few short events that the queue accepts, and every service of the
guest, give the same result as without the checks.
-/

set_option autoImplicit false

namespace GuestConsole.Checked

open GuestConsole.Console GuestConsole.Display GuestConsole.Event GuestConsole.Input
open GuestConsole.Keyboard

/-! ## Buffers -/

section Buffers
variable {α : Type}

def push? (capacity : Nat) (buffer : List α) (item : α) : Option (List α) :=
  if buffer.length < capacity then some (buffer ++ [item]) else none

/-- Pushes the items in their order. -/
def fill? (capacity : Nat) : List α → List α → Option (List α)
  | buffer, [] => some buffer
  | buffer, item :: rest => do
      let next ← push? capacity buffer item
      fill? capacity next rest

theorem fill?_eq {capacity : Nat} (items buffer : List α)
    (room : buffer.length + items.length ≤ capacity) :
    fill? capacity buffer items = some (buffer ++ items) := by
  induction items generalizing buffer with
  | nil => rw [fill?, List.append_nil]
  | cons item rest ih =>
      rw [List.length_cons] at room
      have pushed : push? capacity buffer item = some (buffer ++ [item]) := if_pos (by omega)
      have roomLeft : (buffer ++ [item]).length + rest.length ≤ capacity := by
        rw [List.length_append, List.length_singleton]
        omega
      rw [fill?, bind_of_some pushed, ih (buffer ++ [item]) roomLeft, List.append_assoc,
        List.singleton_append]

example : fill? 3 [] [1, 2, 3, 4] = none := by decide

/-- A checked fold has a result as long as there is room for the items that are left. -/
theorem foldlM_eq_foldl {β : Type} {step? : β → α → Option β} {step : β → α → β}
    (room : β → List α → Prop)
    (each : ∀ state item rest, room state (item :: rest) →
      step? state item = some (step state item) ∧ room (step state item) rest)
    (items : List α) (state : β) (start : room state items) :
    items.foldlM step? state = some (items.foldl step state) := by
  induction items generalizing state with
  | nil => rfl
  | cons item rest ih =>
      obtain ⟨given, left⟩ := each state item rest start
      rw [List.foldlM_cons, bind_of_some given, List.foldl_cons, ih _ left]

end Buffers

/-! ## Timestamps -/

/-- The difference of the clock readings may wrap around; the cast of a short one is
checked. -/
def stampFor? (stamper : Stamper) (now unixSeconds : UInt32) : Option Timestamp :=
  if stamper.count = 0 then some (.delay 0)
  else
    let delta := now - stamper.lastTick
    if delta ≤ 4095 then do
      let ms ← word16? delta.toNat
      some (.delay ms)
    else some (.absolute (absoluteSeconds unixSeconds))

def stampWords? : Timestamp → Option (List UInt16)
  | .delay ms => fill? 3 [] [(Word.tagged .delay ms).raw]
  | .absolute seconds => do
      let high ← word16? (seconds >>> 16).toNat
      let low ← word16? (seconds &&& 0xFFFF).toNat
      fill? 3 [] [(Word.tagged .absoluteTime 0).raw, high, low]

theorem word16?_toUInt16 {number : UInt32} (small : number.toNat < 65536) :
    word16? number.toNat = some number.toUInt16 := by
  apply word16?_eq
  rw [UInt32.toNat_toUInt16]
  omega

theorem stampFor?_eq (stamper : Stamper) (now unixSeconds : UInt32) :
    stampFor? stamper now unixSeconds = some (stamper.stampFor now unixSeconds) := by
  unfold stampFor? Stamper.stampFor
  by_cases first : stamper.count = 0
  · rw [if_pos first, if_pos first]
  · rw [if_neg first, if_neg first]
    dsimp only
    by_cases short : now - stamper.lastTick ≤ 4095
    · have bound : (now - stamper.lastTick).toNat ≤ 4095 := UInt32.le_iff_toNat_le.mp short
      rw [if_pos short, if_pos short, bind_of_some (word16?_toUInt16 (by omega))]
    · rw [if_neg short, if_neg short]

theorem stampWords?_eq (stamp : Timestamp) : stampWords? stamp = some stamp.words := by
  cases stamp with
  | delay ms => rfl
  | absolute seconds =>
      have high : (seconds >>> 16).toNat < 65536 := by
        have small := seconds.toNat_lt
        simp only [UInt32.toNat_shiftRight, UInt32.reduceToNat, Nat.shiftRight_eq_div_pow,
          Nat.reduceMod]
        omega
      have low : (seconds &&& 0xFFFF).toNat < 65536 := by
        simp only [UInt32.toNat_and, UInt32.reduceToNat]
        exact Nat.lt_succ_of_le Nat.and_le_right
      rw [stampWords?, bind_of_some (word16?_toUInt16 high), bind_of_some (word16?_toUInt16 low)]
      rfl

/-! ## The queue -/

section Queue

def free? (queue : Queue) : Option Nat := natural? (Queue.capacity - queue.length)

def signalsFor? (queue : Queue) (added : Nat) : Option UInt16 :=
  match queue.policy with
  | .everyWord => word16? added
  | .onNonEmpty => some (if queue.isEmpty && added != 0 then 1 else 0)

def enqueue? (queue : Queue) (words : List UInt16) : Option Queue := do
  let signals ← signalsFor? queue words.length
  let words ← fill? Queue.capacity queue.words words
  some { queue with words, owed := Saturating.add16 queue.owed signals }

def enqueueWords? (queue : Queue) (event : List Word) : Option Queue :=
  event.foldlM (fun queue word => enqueue? queue [word.raw]) queue

variable (now unixSeconds : UInt32)

def enqueueEvent? (queue : Queue) (event : List Word) : Option Queue := do
  let stamp ← stampFor? queue.stamper now unixSeconds
  let words ← stampWords? stamp
  let stamped ← enqueue? { queue with stamper := queue.stamper.commit now } words
  enqueueWords? stamped event

def groupLength? : Stamper → List (List Word) → Option Nat
  | _, [] => some 0
  | stamper, event :: rest => do
      let stamp ← stampFor? stamper now unixSeconds
      let here ← natural? (stamp.length + event.length)
      let others ← groupLength? (stamper.commit now) rest
      natural? (here + others)

def pushEvents? (queue : Queue) (events : List (List Word)) :
    Option (Except Violation (Pushed × Queue)) :=
  match queue.semaphore with
  | none => some (.error .noInputSemaphore)
  | some _ => do
      let needed ← groupLength? now unixSeconds queue.stamper events
      let free ← free? queue
      if free < needed then some (.ok (.dropped, queue.drop))
      else
        let next ← events.foldlM (enqueueEvent? now unixSeconds) queue
        some (.ok (.queued needed, next))

variable {queue : Queue}

theorem free?_eq (bounded : queue.length ≤ Queue.capacity) : free? queue = some queue.free := by
  have capacity : Queue.capacity = 256 := rfl
  exact natural?_eq (by simp only [Queue.free]; omega) (by simp only [Queue.free]; omega)

theorem le_free {count : Nat} (room : queue.length + count ≤ Queue.capacity) :
    count ≤ queue.free := by
  simp only [Queue.free]
  omega

theorem enqueue?_eq (words : List UInt16)
    (room : queue.length + words.length ≤ Queue.capacity) :
    enqueue? queue words = some (queue.enqueue words) := by
  have few : words.length ≤ 256 := Nat.le_trans (Nat.le_add_left _ _) room
  have signals : signalsFor? queue words.length = some (queue.signalsFor words.length) := by
    unfold signalsFor? Queue.signalsFor
    cases queue.policy with
    | everyWord =>
        have small : words.length < UInt16.size := Nat.lt_of_le_of_lt few (by decide)
        exact word16?_eq (congrArg Nat.cast (UInt16.toNat_ofNat_of_lt small).symm)
    | onNonEmpty => rfl
  have whole : words.take queue.free = words := List.take_of_length_le (le_free room)
  rw [enqueue?, bind_of_some signals, bind_of_some (fill?_eq words queue.words room),
    Queue.enqueue, whole]

theorem enqueueWords?_eq (event : List Word)
    (room : queue.length + event.length ≤ Queue.capacity) :
    enqueueWords? queue event = some (queue.enqueueWords event) := by
  refine foldlM_eq_foldl (fun queue event => queue.length + event.length ≤ Queue.capacity)
    (fun queue word rest room => ?_) event queue room
  rw [List.length_cons] at room
  have here : queue.length + [word.raw].length ≤ Queue.capacity := by
    rw [List.length_singleton]
    omega
  refine ⟨enqueue?_eq [word.raw] here, ?_⟩
  rw [(Queue.extended_enqueue queue [word.raw] (le_free here)).length, List.length_singleton]
  omega

theorem enqueueEvent?_eq (event : List Word)
    (room : queue.length + ((queue.stamper.stampFor now unixSeconds).length + event.length) ≤
      Queue.capacity) :
    enqueueEvent? now unixSeconds queue event =
      some (Queue.enqueueEvent now unixSeconds queue event) := by
  let committed : Queue := { queue with stamper := queue.stamper.commit now }
  have same : committed.length = queue.length := rfl
  generalize given : queue.stamper.stampFor now unixSeconds = stamp at room
  have length := Timestamp.length_words stamp
  have here : committed.length + stamp.words.length ≤ Queue.capacity := by omega
  have extended := Queue.extended_enqueue committed stamp.words (le_free here)
  have others : enqueueWords? (committed.enqueue stamp.words) event =
      some ((committed.enqueue stamp.words).enqueueWords event) := by
    apply enqueueWords?_eq
    rw [extended.length]
    omega
  rw [enqueueEvent?, bind_of_some (stampFor?_eq _ _ _), given,
    bind_of_some (stampWords?_eq stamp), bind_of_some (enqueue?_eq stamp.words here), others,
    ← given]
  rfl

theorem enqueueGroup?_eq (events : List (List Word))
    (room : queue.length + Queue.groupLength queue.stamper now unixSeconds events ≤
      Queue.capacity) :
    events.foldlM (enqueueEvent? now unixSeconds) queue =
      some (events.foldl (Queue.enqueueEvent now unixSeconds) queue) := by
  refine foldlM_eq_foldl (fun queue events => queue.length +
      Queue.groupLength queue.stamper now unixSeconds events ≤ Queue.capacity)
    (fun queue event rest room => ?_) events queue room
  simp only [Queue.groupLength, Stamper.stamp] at room
  have here : queue.length +
      ((queue.stamper.stampFor now unixSeconds).length + event.length) ≤ Queue.capacity := by
    omega
  have extended := Queue.extended_enqueueEvent now unixSeconds queue event (le_free here)
  refine ⟨enqueueEvent?_eq now unixSeconds event here, ?_⟩
  rw [extended.stamper, extended.length, List.length_append, List.length_map,
    Timestamp.length_words]
  omega

theorem groupLength?_eq (events : List (List Word)) (stamper : Stamper)
    (small : Queue.groupLength stamper now unixSeconds events < 4294967296) :
    groupLength? now unixSeconds stamper events =
      some (Queue.groupLength stamper now unixSeconds events) := by
  induction events generalizing stamper with
  | nil => rfl
  | cons event rest ih =>
      simp only [Queue.groupLength, Stamper.stamp] at small ⊢
      have here : natural? ((stamper.stampFor now unixSeconds).length + event.length) =
          some ((stamper.stampFor now unixSeconds).length + event.length) :=
        natural?_eq (Int.natCast_add _ _).symm (by omega)
      rw [groupLength?, bind_of_some (stampFor?_eq _ _ _), bind_of_some here,
        bind_of_some (ih _ (by omega))]
      exact natural?_eq (Int.natCast_add _ _).symm small

/-- As many words as a key can give. -/
def Short (event : List Word) : Prop := event.length ≤ 6

theorem groupLength_short (events : List (List Word)) (stamper : Stamper)
    (short : ∀ event ∈ events, Short event) :
    Queue.groupLength stamper now unixSeconds events ≤ 9 * events.length := by
  induction events generalizing stamper with
  | nil => exact Nat.le_refl 0
  | cons event rest ih =>
      have here : event.length ≤ 6 := short event List.mem_cons_self
      have stamp : (stamper.stampFor now unixSeconds).length ≤ 3 := by
        cases stamper.stampFor now unixSeconds <;> simp [Timestamp.length]
      have others := ih (stamper.commit now)
        fun other member => short other (List.mem_cons_of_mem event member)
      simp only [Queue.groupLength, Stamper.stamp, List.length_cons]
      omega

theorem pushEvents?_eq (events : List (List Word)) (bounded : queue.length ≤ Queue.capacity)
    (few : events.length ≤ 2) (short : ∀ event ∈ events, Short event) :
    pushEvents? now unixSeconds queue events =
      some (queue.pushEvents now unixSeconds events) := by
  have small := groupLength_short now unixSeconds events queue.stamper short
  have needed := groupLength?_eq now unixSeconds events queue.stamper (by omega)
  unfold pushEvents? Queue.pushEvents Queue.guarded
  cases queue.semaphore with
  | none => rfl
  | some semaphore =>
    dsimp only
    rw [bind_of_some needed, bind_of_some (free?_eq bounded)]
    by_cases full : queue.free < Queue.groupLength queue.stamper now unixSeconds events
    · rw [if_pos full, if_pos full]
    · have room : queue.length + Queue.groupLength queue.stamper now unixSeconds events ≤
          Queue.capacity := by
        simp only [Queue.free] at full
        omega
      rw [if_neg full, if_neg full, bind_of_some (enqueueGroup?_eq now unixSeconds events room)]

end Queue

/-! ## Devices -/

def words? : Decoded → Option Decoded
  | .words words => do
      let words ← fill? 6 [] words
      some (.words words)
  | .ignored reason => some (.ignored reason)

/-- A control character becomes a letter by a sum of bytes. -/
def character? : List UInt8 → Option (Option Character)
  | [byte] =>
      if !Character.hasOwnKey byte && 0x01 ≤ byte && byte ≤ 0x1A then do
        let sum ← byte? (0x61 + byte.toNat)
        let letter ← byte? (sum.toNat - 1)
        some (some ⟨letter, Character.controlFlag⟩)
      else some (Character.ofSequence? [byte])
  | bytes => some (Character.ofSequence? bytes)

def decodeSequence? (decoder : Keyboard.Decoder) (bytes : List UInt8) :
    Option (Decoded × Keyboard.Decoder) := do
  match ← character? bytes with
  | none => some (.ignored .unsupportedSequence, decoder)
  | some character => some (decoder.decodeCharacter character)

theorem words?_eq {decoded : Decoded} (gives : Gives Short decoded) :
    words? decoded = some decoded := by
  cases decoded with
  | ignored reason => rfl
  | words words =>
      have short : words.length ≤ 6 := gives words rfl
      rw [words?, bind_of_some (fill?_eq words [] (by rwa [List.length_nil, Nat.zero_add]))]
      rfl

theorem short_bracketed (code : UInt16) (control isMeta : Bool) :
    Short (bracketed code control isMeta) :=
  length_bracketed_le code control isMeta

theorem short_latched (keyboard : Keyboard.Decoder) (code : UInt16) :
    Short (keyboard.latched code) := by
  simp [Short, Keyboard.Decoder.latched]

theorem character?_eq (bytes : List UInt8) :
    character? bytes = some (Character.ofSequence? bytes) := by
  unfold character?
  split
  case h_2 => rfl
  case h_1 byte =>
    split
    case isFalse => rfl
    case isTrue control =>
      simp only [Bool.and_eq_true, Bool.not_eq_true', decide_eq_true_eq,
        UInt8.le_iff_toNat_le] at control
      obtain ⟨⟨other, low⟩, high⟩ := control
      have first : (1 : UInt8).toNat = 1 := rfl
      have last : (0x1A : UInt8).toNat = 26 := rfl
      have letterA : (0x61 : UInt8).toNat = 97 := rfl
      have sumExact : (0x61 + byte).toNat = 97 + byte.toNat := by
        rw [UInt8.toNat_add, letterA]
        omega
      have sum : byte? (0x61 + byte.toNat) = some (0x61 + byte) :=
        byte?_eq (by rw [sumExact]; omega)
      have letter : byte? ((0x61 + byte).toNat - 1) = some (0x61 + byte - 1) := by
        apply byte?_eq
        rw [UInt8.toNat_sub_of_le _ _ (by rw [UInt8.le_iff_toNat_le]; omega)]
        omega
      rw [bind_of_some sum, bind_of_some letter]
      have isControl : (decide ((0x01 : UInt8) ≤ byte) && decide (byte ≤ 0x1A)) = true := by
        simp only [Bool.and_eq_true, decide_eq_true_eq, UInt8.le_iff_toNat_le]
        exact ⟨low, high⟩
      simp only [Character.ofSequence?, other, isControl, Bool.false_eq_true, if_false, if_true]

theorem decodeSequence?_eq (decoder : Keyboard.Decoder) (bytes : List UInt8) :
    decodeSequence? decoder bytes = some (decoder.decodeSequence bytes) := by
  rw [decodeSequence?, bind_of_some (character?_eq bytes), Keyboard.Decoder.decodeSequence]
  cases Character.ofSequence? bytes <;> rfl

theorem takeButtons_few (tracker : Mouse.Tracker) (mask : UInt8) (modifiers : Modifiers) :
    (tracker.takeButtons mask modifiers).1.length ≤ 3 := by
  have groups := congrArg List.length (takeButtons_exact tracker mask modifiers).1
  rw [List.length_map] at groups
  rw [groups, buttonGroups, List.length_map]
  exact List.length_filter_le _ _

/-! ## Services -/

section Services
open GuestConsole.Guest.State (narrow)

def resize? (state : Guest.State) (size : Size) : Option Guest.State :=
  if size = state.display then some state
  else do
    let pointer ← clampPosition? size state.pointer
    some { state with display := size, pointer, damage := Damage.all size }

def reportDamage? (state : Guest.State) (x y width height : Int32) :
    Option (Except Violation Guest.State) :=
  if x < 0 || y < 0 || width < 0 || height < 0 then some (.error .negativeDamage)
  else do
    match ← report? state.damage ⟨narrow x, narrow y, narrow width, narrow height⟩
      state.display with
    | .error fault => some (.error (.damageOutOfBounds fault))
    | .ok damage => some (.ok { state with damage })

def movePointer? (state : Guest.State) (x y : Int32) : Option Guest.State := do
  let position ← clamp? state.display x y
  some { state with pointer := position, pointerRequest := some position }

/-- The services whose arithmetic can go wrong; the others are as they are. -/
def serve? (state : Guest.State) (clock : Guest.Clock) :
    (call : Guest.Call) → Option (Except Violation (call.Answer × Guest.State))
  | .setDisplaySize size => do
      let next ← resize? state size
      some (.ok ((), next))
  | .displayChanged x y width height => do
      match ← reportDamage? state x y width height with
      | .error violation => some (.error violation)
      | .ok next => some (.ok ((), next))
  | .tryDisplayChanged x y width height => do
      match ← reportDamage? state x y width height with
      | .error violation => some (.ok (some violation, state))
      | .ok next => some (.ok (none, next))
  | .setPointer x y => do
      let next ← movePointer? state x y
      some (.ok ((), next))
  | call => some (state.serve clock call)

variable {state : Guest.State}

theorem resize?_eq (size : Size) : resize? state size = some (state.resize size) := by
  unfold resize? Guest.State.resize
  split
  · rfl
  · rw [bind_of_some (clampPosition?_eq size state.pointer)]

theorem reportDamage?_eq (inside : state.Inside) (x y width height : Int32) :
    reportDamage? state x y width height = some (state.reportDamage x y width height) := by
  unfold reportDamage? Guest.State.reportDamage
  split
  · rfl
  · rw [bind_of_some (report?_eq inside.damage)]
    cases state.damage.report _ state.display <;> rfl

theorem serve?_eq (inside : state.Inside) (clock : Guest.Clock) (call : Guest.Call) :
    serve? state clock call = some (state.serve clock call) := by
  cases call with
  | setDisplaySize size =>
      rw [serve?, bind_of_some (resize?_eq size)]
      rfl
  | displayChanged x y width height =>
      rw [serve?, bind_of_some (reportDamage?_eq inside x y width height), Guest.State.serve]
      cases state.reportDamage x y width height <;> rfl
  | tryDisplayChanged x y width height =>
      rw [serve?, bind_of_some (reportDamage?_eq inside x y width height), Guest.State.serve]
      cases state.reportDamage x y width height <;> rfl
  | setPointer x y =>
      have moved : movePointer? state x y = some (state.movePointer x y) :=
        bind_of_some (clamp?_eq state.display x y)
      rw [serve?, bind_of_some moved]
      rfl
  | _ => rfl

end Services

end GuestConsole.Checked
