import GuestConsole.Proofs.Decoding

/-!
# The grammar of the event stream

A phrase is the words of one item.  A list of words is read phrase by phrase: to its end,
to an absolute time that is broken off there, or to a word whose tag is not in use.  Items
are read back from the words that spell them, and the items that are read spell the words
again but for the parameters of markers, which carry nothing.
-/

set_option autoImplicit false

namespace GuestConsole.Event

/-! ## Phrases -/

/-- The words of one item.  The upper four bits of the first word are its tag and the lower
twelve its parameter; the two words behind the marker of an absolute time may be any. -/
inductive Phrase : List UInt16 → Item → Prop where
  | delay {raw : UInt16} (tag : raw.toNat / 4096 = 0) :
      Phrase [raw] (.delay (.ofNat (raw.toNat % 4096)))
  | coordinate {raw : UInt16} (tag : raw.toNat / 4096 = 1) :
      Phrase [raw] (.coordinate (.ofNat (raw.toNat % 4096)))
  | down {raw : UInt16} (tag : raw.toNat / 4096 = 3) :
      Phrase [raw] (.down (.ofNat (raw.toNat % 4096)))
  | up {raw : UInt16} (tag : raw.toNat / 4096 = 4) :
      Phrase [raw] (.up (.ofNat (raw.toNat % 4096)))
  | absoluteTime {marker : UInt16} (tag : marker.toNat / 4096 = 5) (high low : UInt16) :
      Phrase [marker, high, low] (.absoluteTime (.ofNat (2 ^ 16 * high.toNat + low.toNat)))

inductive Phrases : List UInt16 → List Item → Prop where
  | nil : Phrases [] []
  | cons {words rest : List UInt16} {item : Item} {items : List Item}
      (first : Phrase words item) (others : Phrases rest items) :
      Phrases (words ++ rest) (item :: items)

/-- An absolute time of which the low half, or both halves, are missing. -/
inductive BrokenOff : List UInt16 → Prop where
  | marker {marker : UInt16} (tag : marker.toNat / 4096 = 5) : BrokenOff [marker]
  | highHalf {marker : UInt16} (tag : marker.toNat / 4096 = 5) (high : UInt16) :
      BrokenOff [marker, high]

def Unused (tag : Nat) : Prop := tag = 2 ∨ 6 ≤ tag

/-- What a list of words is read as: the items of its phrases, and why it is not read
further.  Behind a word whose tag is not in use anything may stand. -/
inductive Parses : List UInt16 → Decoder.Reading → Prop where
  | whole {words : List UInt16} {items : List Item} (phrases : Phrases words items) :
      Parses words ⟨items, none, .tagged⟩
  | truncated {words rest : List UInt16} {items : List Item} (phrases : Phrases words items)
      (broken : BrokenOff rest) : Parses (words ++ rest) ⟨items, some .truncated, .tagged⟩
  | unknownKind {words : List UInt16} {items : List Item} (phrases : Phrases words items)
      {raw : UInt16} (unused : Unused (raw.toNat / 4096)) (rest : List UInt16) :
      Parses (words ++ raw :: rest)
        ⟨items, some (.unknownKind (.ofNat (raw.toNat / 4096))), .tagged⟩

/-! ## The decoder follows the grammar -/

section Reading
variable {words rest : List UInt16} {item : Item} {items : List Item}
  {reading : Decoder.Reading}

theorem Phrase.spells (phrase : Phrase words item) : Decoder.Spells words [item] := by
  cases phrase with
  | @delay raw tag =>
      have kind : (Word.mk raw).kind? = some .delay := Word.kind?_of_tag .delay tag
      rw [Word.lowBits_eq ⟨raw⟩]
      exact Decoder.spells_word raw _ (by simp only [Decoder.feed, kind])
  | @coordinate raw tag =>
      exact Decoder.spells_inputItem ⟨raw⟩ _ (by simp only [Word.inputItem?, tag])
  | @down raw tag => exact Decoder.spells_inputItem ⟨raw⟩ _ (by simp only [Word.inputItem?, tag])
  | @up raw tag => exact Decoder.spells_inputItem ⟨raw⟩ _ (by simp only [Word.inputItem?, tag])
  | @absoluteTime marker tag high low =>
      intro rest
      have kind : (Word.mk marker).kind? = some .absoluteTime :=
        Word.kind?_of_tag .absoluteTime tag
      have joined : (high.toUInt32 <<< 16) ||| low.toUInt32 =
          .ofNat (2 ^ 16 * high.toNat + low.toNat) := by
        rw [← Decoder.toNat_joined, UInt32.ofNat_toNat]
      simp only [List.cons_append, List.nil_append, Decoder.decodeAll, Decoder.feed, kind,
        Decoder.Reading.after, Option.toList, joined]

theorem Phrases.spells (phrases : Phrases words items) : Decoder.Spells words items := by
  induction phrases with
  | nil => exact Decoder.spells_nil
  | cons first others ih => exact first.spells.append ih

theorem BrokenOff.decodeAll_eq (broken : BrokenOff words) :
    Decoder.tagged.decodeAll words = ⟨[], some .truncated, .tagged⟩ := by
  cases broken with
  | @marker marker tag =>
      have kind : (Word.mk marker).kind? = some .absoluteTime :=
        Word.kind?_of_tag .absoluteTime tag
      simp only [Decoder.decodeAll, Decoder.feed, kind]
      rfl
  | @highHalf marker tag high =>
      have kind : (Word.mk marker).kind? = some .absoluteTime :=
        Word.kind?_of_tag .absoluteTime tag
      simp only [Decoder.decodeAll, Decoder.feed, kind]
      rfl

theorem Unused.decodeAll_eq {raw : UInt16} (unused : Unused (raw.toNat / 4096))
    (rest : List UInt16) :
    Decoder.tagged.decodeAll (raw :: rest) =
      ⟨[], some (.unknownKind (.ofNat (raw.toNat / 4096))), .tagged⟩ := by
  have bits : (Word.mk raw).kindBits.toNat = raw.toNat / 4096 := Word.toNat_kindBits ⟨raw⟩
  have unknown : (Word.mk raw).kind? = none := by
    simp only [Word.kind?, Kind.ofBits?, ← UInt8.toNat_inj, bits, UInt8.reduceToNat]
    rcases unused with two | large
    · simp [two]
    · repeat rw [if_neg (by omega)]
  have named : UInt8.ofNat (raw.toNat / 4096) = (Word.mk raw).kindBits := by
    rw [← bits, UInt8.ofNat_toNat]
  simp only [Decoder.decodeAll, Decoder.feed, unknown, named]

theorem Parses.decodeAll_eq (parses : Parses words reading) :
    Decoder.tagged.decodeAll words = reading := by
  cases parses with
  | whole phrases => exact phrases.spells.decodeAll_eq
  | truncated phrases broken =>
      rw [phrases.spells, broken.decodeAll_eq]
      simp only [List.append_nil]
  | unknownKind phrases unused rest =>
      rw [phrases.spells, unused.decodeAll_eq]
      simp only [List.append_nil]

theorem Parses.cons (first : Phrase words item) (parses : Parses rest reading) :
    Parses (words ++ rest) (reading.after (some item)) := by
  cases parses with
  | whole phrases => exact .whole (.cons first phrases)
  | truncated phrases broken =>
      rw [← List.append_assoc]
      exact .truncated (.cons first phrases) broken
  | unknownKind phrases unused rest =>
      rw [← List.append_assoc]
      exact .unknownKind (.cons first phrases) unused rest

theorem phrase_or_marker_or_unused (raw : UInt16) :
    (∃ item, Phrase [raw] item) ∨ raw.toNat / 4096 = 5 ∨ Unused (raw.toNat / 4096) := by
  by_cases delay : raw.toNat / 4096 = 0
  · exact .inl ⟨_, .delay delay⟩
  by_cases coordinate : raw.toNat / 4096 = 1
  · exact .inl ⟨_, .coordinate coordinate⟩
  by_cases down : raw.toNat / 4096 = 3
  · exact .inl ⟨_, .down down⟩
  by_cases up : raw.toNat / 4096 = 4
  · exact .inl ⟨_, .up up⟩
  right
  unfold Unused
  omega

theorem parses_exists (words : List UInt16) : ∃ reading, Parses words reading := by
  match words with
  | [] => exact ⟨_, .whole .nil⟩
  | raw :: rest =>
      rcases phrase_or_marker_or_unused raw with ⟨item, phrase⟩ | marker | unused
      · obtain ⟨reading, parses⟩ := parses_exists rest
        exact ⟨_, .cons phrase parses⟩
      · match rest with
        | [] => exact ⟨_, .truncated .nil (.marker marker)⟩
        | [high] => exact ⟨_, .truncated .nil (.highHalf marker high)⟩
        | high :: low :: rest =>
            obtain ⟨reading, parses⟩ := parses_exists rest
            exact ⟨_, .cons (.absoluteTime marker high low) parses⟩
      · exact ⟨_, .unknownKind .nil unused rest⟩
termination_by words.length

theorem decodeAll_eq_iff_parses :
    Decoder.tagged.decodeAll words = reading ↔ Parses words reading := by
  constructor
  · rintro rfl
    obtain ⟨reading, parses⟩ := parses_exists words
    rw [parses.decodeAll_eq]
    exact parses
  · exact Parses.decodeAll_eq

end Reading

theorem eq_tagged_of_outside {decoder : Decoder} (outside : decoder.isMidFrame = false) :
    decoder = .tagged := by
  simpa [Decoder.isMidFrame] using outside

/-- Outside of an absolute time the decoder reads exactly what the grammar says, and it ends
outside of one again, so that the words after it are read as by a new decoder.  Phrases and
the words after them may be read at once or one after the other. -/
theorem decoder_reads_by_grammar {decoder : Decoder} (outside : decoder.isMidFrame = false)
    (words : List UInt16) :
    (∀ reading, decoder.decodeAll words = reading ↔ Parses words reading) ∧
    (decoder.decodeAll words).decoder.isMidFrame = false ∧
    (∀ next, (decoder.decodeAll words).decoder.decodeAll next =
      Decoder.tagged.decodeAll next) ∧
    ∀ items next, Phrases words items →
      let first := decoder.decodeAll words
      let second := first.decoder.decodeAll next
      decoder.decodeAll (words ++ next) = { second with items := first.items ++ second.items } := by
  obtain rfl := eq_tagged_of_outside outside
  have leaves : (Decoder.tagged.decodeAll words).decoder = .tagged := by
    obtain ⟨reading, parses⟩ := parses_exists words
    rw [parses.decodeAll_eq]
    cases parses <;> rfl
  refine ⟨fun reading => decodeAll_eq_iff_parses, ?_, ?_, ?_⟩
  · rw [leaves]
    rfl
  · intro next
    rw [leaves]
  · intro items next phrases first second
    have whole : first = ⟨items, none, .tagged⟩ := phrases.spells.decodeAll_eq
    have later : second = Decoder.tagged.decodeAll next := congrArg (·.decodeAll next) leaves
    rw [phrases.spells next, whole, later]

/-- The halves of an absolute time look like words whose tags are not in use, and a word
whose tag is not in use hides what stands behind it. -/
theorem decoder_reads_by_grammar_past_halves :
    let words : List UInt16 := [0x5000, 0xF000, 0x2000, 0x3061]
    let next : List UInt16 := [0x4061, 0x6001, 0x5000]
    Decoder.tagged.isMidFrame = false ∧
    Phrases words [.absoluteTime 0xF0002000, .down 0x61] ∧
    Parses (words ++ next)
      ⟨[.absoluteTime 0xF0002000, .down 0x61, .up 0x61], some (.unknownKind 6), .tagged⟩ := by
  intro words next
  have phrases : Phrases words [.absoluteTime 0xF0002000, .down 0x61] :=
    .cons (.absoluteTime (by decide) 0xF000 0x2000) (.cons (.down (by decide)) .nil)
  have outside : Decoder.tagged.isMidFrame = false := rfl
  obtain ⟨_, _, _, append⟩ := decoder_reads_by_grammar outside words
  obtain ⟨reads, _⟩ := decoder_reads_by_grammar outside (words ++ next)
  exact ⟨outside, phrases, (reads _).mp (append _ next phrases)⟩

/-! ## Writing items -/

def Item.Narrow : Item → Prop
  | .delay ms => ms.toNat ≤ 4095
  | .absoluteTime _ => True
  | .coordinate value => value.toNat ≤ 4095
  | .down code => code.toNat ≤ 4095
  | .up code => code.toNat ≤ 4095

instance (item : Item) : Decidable item.Narrow :=
  match item with
  | .absoluteTime _ => inferInstanceAs (Decidable True)
  | .delay ms => inferInstanceAs (Decidable (ms.toNat ≤ 4095))
  | .coordinate value => inferInstanceAs (Decidable (value.toNat ≤ 4095))
  | .down code => inferInstanceAs (Decidable (code.toNat ≤ 4095))
  | .up code => inferInstanceAs (Decidable (code.toNat ≤ 4095))

/-- The words with the parameter of every marker of an absolute time cleared, where the
first `halves` words belong to an absolute time that has begun before. -/
def clearMarkers : Nat → List UInt16 → List UInt16
  | _, [] => []
  | 0, raw :: rest =>
      if raw.toNat / 4096 = 5 then 0x5000 :: clearMarkers 2 rest else raw :: clearMarkers 0 rest
  | halves + 1, half :: rest => half :: clearMarkers halves rest

theorem Word.tagged_lowBits {raw : UInt16} (kind : Kind)
    (tag : raw.toNat / 4096 = kind.bits.toNat) :
    (Word.tagged kind (.ofNat (raw.toNat % 4096))).raw = raw := by
  apply UInt16.toNat_inj.mp
  rw [Word.toNat_raw_tagged, UInt16.toNat_ofNat', ← tag]
  omega

section Writing
variable {words rest : List UInt16} {item : Item} {items : List Item}

theorem phrase_tagged {make : UInt16 → Item} {parameter : UInt16} (kind : Kind)
    (narrow : parameter.toNat ≤ 4095)
    (phrase : ∀ raw : UInt16, raw.toNat / 4096 = kind.bits.toNat →
      Phrase [raw] (make (.ofNat (raw.toNat % 4096)))) :
    Phrase [(Word.tagged kind parameter).raw] (make parameter) := by
  have tag : (Word.tagged kind parameter).raw.toNat / 4096 = kind.bits.toNat := by
    rw [Word.toNat_raw_tagged]
    omega
  have tagged := phrase _ tag
  rw [Word.lowBits_eq, Word.parameter_tagged kind parameter narrow] at tagged
  exact tagged

theorem phrase_absoluteTime (seconds : UInt32) :
    Phrase (Item.absoluteTime seconds).words (.absoluteTime seconds) := by
  have joined : .ofNat (2 ^ 16 * (seconds >>> 16).toUInt16.toNat
      + (seconds &&& 0xFFFF).toUInt16.toNat) = seconds := by
    rw [Decoder.toNat_highHalf, Decoder.toNat_lowHalf, Nat.div_add_mod, UInt32.ofNat_toNat]
  have tag : (Word.tagged .absoluteTime 0).raw.toNat / 4096 = 5 := by decide
  have phrase := Phrase.absoluteTime tag (seconds >>> 16).toUInt16 (seconds &&& 0xFFFF).toUInt16
  rw [joined] at phrase
  exact phrase

theorem Item.Narrow.phrase (narrow : item.Narrow) : Phrase item.words item := by
  cases item with
  | delay ms => exact phrase_tagged .delay narrow fun _ tag => .delay tag
  | absoluteTime seconds => exact phrase_absoluteTime seconds
  | coordinate value => exact phrase_tagged .coordinate narrow fun _ tag => .coordinate tag
  | down code => exact phrase_tagged .down narrow fun _ tag => .down tag
  | up code => exact phrase_tagged .up narrow fun _ tag => .up tag

theorem phrases_of_narrow (narrow : ∀ item ∈ items, item.Narrow) :
    Phrases (items.flatMap Item.words) items := by
  induction items with
  | nil => exact .nil
  | cons item rest ih =>
      rw [List.flatMap_cons]
      have first := narrow item List.mem_cons_self
      exact .cons first.phrase (ih fun other member => narrow other (List.mem_cons_of_mem _ member))

theorem clearMarkers_tagged {raw : UInt16} (kind : Kind) (other : kind ≠ .absoluteTime)
    (tag : raw.toNat / 4096 = kind.bits.toNat) (rest : List UInt16) :
    clearMarkers 0 ([raw] ++ rest) =
      [(Word.tagged kind (.ofNat (raw.toNat % 4096))).raw] ++ clearMarkers 0 rest := by
  have noMarker : raw.toNat / 4096 ≠ 5 := by
    rw [tag]
    cases kind with
    | absoluteTime => exact absurd rfl other
    | _ => decide
  rw [Word.tagged_lowBits kind tag]
  simp only [clearMarkers, List.cons_append, List.nil_append, if_neg noMarker]

theorem Phrase.clearMarkers_append (phrase : Phrase words item) (rest : List UInt16) :
    clearMarkers 0 (words ++ rest) = item.words ++ clearMarkers 0 rest := by
  cases phrase with
  | delay tag => exact clearMarkers_tagged .delay nofun tag rest
  | coordinate tag => exact clearMarkers_tagged .coordinate nofun tag rest
  | down tag => exact clearMarkers_tagged .down nofun tag rest
  | up tag => exact clearMarkers_tagged .up nofun tag rest
  | @absoluteTime marker tag high low =>
      have highSmall := high.toNat_lt
      have lowSmall := low.toNat_lt
      have first : (UInt32.ofNat (2 ^ 16 * high.toNat + low.toNat) >>> 16).toUInt16 = high := by
        apply UInt16.toNat_inj.mp
        rw [Decoder.toNat_highHalf, UInt32.toNat_ofNat']
        omega
      have second : (UInt32.ofNat (2 ^ 16 * high.toNat + low.toNat) &&& 0xFFFF).toUInt16 = low := by
        apply UInt16.toNat_inj.mp
        rw [Decoder.toNat_lowHalf, UInt32.toNat_ofNat']
        omega
      have cleared : (Word.tagged .absoluteTime 0).raw = 0x5000 := by decide
      simp only [clearMarkers, tag, Item.words, Timestamp.words, first, second, cleared,
        List.cons_append, List.nil_append, if_true]

theorem Phrases.clearMarkers_eq (phrases : Phrases words items) :
    items.flatMap Item.words = clearMarkers 0 words := by
  induction phrases with
  | nil => rfl
  | cons first others ih => rw [List.flatMap_cons, first.clearMarkers_append, ih]

end Writing

/-- Items whose parameters fit are read back from their words, and the items that are read
from words without an error spell the same words but for the parameters of the markers. -/
theorem items_and_words_correspond :
    (∀ items : List Item, (∀ item ∈ items, item.Narrow) →
      Decoder.tagged.decodeAll (items.flatMap Item.words) = ⟨items, none, .tagged⟩) ∧
    ∀ words, (Decoder.tagged.decodeAll words).error? = none →
      (Decoder.tagged.decodeAll words).items.flatMap Item.words = clearMarkers 0 words := by
  constructor
  · intro items narrow
    exact (phrases_of_narrow narrow).spells.decodeAll_eq
  · intro words accepted
    obtain ⟨reading, parses⟩ := parses_exists words
    rw [parses.decodeAll_eq] at accepted ⊢
    cases parses with
    | whole phrases => exact phrases.clearMarkers_eq
    | truncated phrases broken => cases accepted
    | unknownKind phrases unused rest => cases accepted

/-- A marker with a parameter, in front of halves that look like words of their own. -/
theorem items_and_words_correspond_past_halves :
    let items : List Item := [.delay 4095, .absoluteTime 0x50003061, .up 0]
    let words : List UInt16 := [0x0FFF, 0x5123, 0x5000, 0x3061, 0x4000]
    (∀ item ∈ items, item.Narrow) ∧
    Decoder.tagged.decodeAll (items.flatMap Item.words) = ⟨items, none, .tagged⟩ ∧
    (Decoder.tagged.decodeAll words).error? = none ∧
    (Decoder.tagged.decodeAll words).items.flatMap Item.words =
      [0x0FFF, 0x5000, 0x5000, 0x3061, 0x4000] := by
  intro items words
  have narrow : ∀ item ∈ items, item.Narrow := by decide
  have accepted : (Decoder.tagged.decodeAll words).error? = none := by decide
  obtain ⟨reads, writes⟩ := items_and_words_correspond
  exact ⟨narrow, reads items narrow, accepted, writes words accepted⟩

end GuestConsole.Event
