import GuestConsole.Console.State
import GuestConsole.Proofs.SettingForms

/-!
# Settings are read exactly

All settings of a document are read one after the other, then their ranges are checked.
-/

set_option autoImplicit false

namespace GuestConsole.Config

open GuestConsole.Keyboard (Mode)
open GuestConsole.Toml (Value Table Number keysOf lookup_iff value_unique settle?_entries)

variable {ν α : Type}

/-! ## All settings -/

/-- A setting with its place in a document and in the settings. -/
structure Slot where
  Content : Type
  form : Form Content
  group : Option String
  key : String
  get : Config → Content

def slots : List Slot :=
  [⟨_, .word, none, "cycles_per_frame", (·.cyclesPerFrame)⟩,
    ⟨_, .word, none, "novsync_delay_ms", (·.novsyncDelay)⟩,
    ⟨_, .flag, none, "vsync", (·.vsync)⟩,
    ⟨_, modeForm, some "keyboard", "mode", (·.keyboard.mode)⟩,
    ⟨_, layoutForm, some "keyboard", "layout", (·.keyboard.layout)⟩,
    ⟨_, .flag, some "keyboard", "undecoded_passthrough", (·.keyboard.undecodedPassthrough)⟩,
    ⟨_, .color, some "display", "foreground", (·.display.foreground)⟩,
    ⟨_, .color, some "display", "background", (·.display.background)⟩,
    ⟨_, .color, some "display", "cursor_color", (·.display.cursorColor)⟩,
    ⟨_, policyForm, some "input", "wake_policy", (·.input.wakePolicy)⟩]

def Slot.path (slot : Slot) : List String := slot.group.toList ++ [slot.key]

theorem recognised_eq : recognised = slots.map fun slot => (slot.path, slot.form.kind) := rfl

theorem written_eq (config : Config) :
    config.written = slots.map fun slot => (slot.path, slot.form.write (slot.get config)) := rfl

theorem paths_nodup : (slots.map Slot.path).Nodup := by decide

def groupOf (table : Table Number) (group : String) : Table Number :=
  match table.lookup group with
  | some (.table inner) => inner
  | _ => []

/-- The table in which the settings of a group stand, or those of no group. -/
def within (table : Table Number) : Option String → Table Number
  | none => table
  | some group => groupOf table group

section
variable {table : Table Number}

theorem mem_groupOf (once : (keysOf table).Nodup) (group : String) (entry : String × Value Number) :
    entry ∈ groupOf table group ↔ ∃ inner, (group, .table inner) ∈ table ∧ entry ∈ inner := by
  simp only [← lookup_iff once, groupOf]
  split
  · next inner found => simp [found]
  · next other =>
      simp only [List.not_mem_nil, false_iff, not_exists, not_and]
      exact fun inner found => absurd found (other inner)

theorem within_distinct (distinct : Toml.Table.Distinct table) (group : Option String) :
    Toml.Table.Distinct (within table group) := by
  cases group with
  | none => exact distinct
  | some group =>
      rw [within, groupOf]
      split
      · next inner found =>
          exact (distinct.inner _ ((lookup_iff distinct.once _ _).mp found)).of_table
      · exact ⟨List.nodup_nil, by simp⟩

theorem Slot.holds_iff (once : (keysOf table).Nodup) (slot : Slot) (value : Value Number) :
    Holds table slot.path value ↔ (slot.key, value) ∈ within table slot.group := by
  rw [Slot.path]
  cases slot.group with
  | none => exact Iff.rfl
  | some group => exact (mem_groupOf once group _).symm

theorem readKey_iff (once : (keysOf table).Nodup) (key : String) (read : Read α)
    (default content : α) : readKey table key read default = .ok content ↔
      (∃ value, (key, value) ∈ table ∧ read value = .ok content) ∨
        (∀ value, (key, value) ∉ table) ∧ content = default := by
  unfold readKey
  split
  · next missing =>
      have absent : ∀ value, (key, value) ∉ table := fun value member => by
        rw [(lookup_iff once _ _).mpr member] at missing
        cases missing
      simp [absent, eq_comm]
  · next value found =>
      have member := (lookup_iff once _ _).mp found
      constructor
      · exact fun read => .inl ⟨value, member, read⟩
      · rintro (⟨other, otherMember, read⟩ | ⟨absent, -⟩)
        · rwa [value_unique once member otherMember]
        · exact absurd member (absent value)

theorem readKey_only (key : String) {read : Read α} (default : α)
    (only : ∀ value, OnlySyntax (read value)) : OnlySyntax (readKey table key read default) := by
  unfold readKey
  split
  · exact onlySyntax_ok _
  · exact only _

theorem readKey_group {group : String} {read : Read α} {default : α}
    (empty : read (.table []) = .ok default) (once : (keysOf table).Nodup)
    (isTable : ∀ value, (group, value) ∈ table → ∃ inner, value = .table inner) :
    readKey table group read default = read (.table (groupOf table group)) := by
  rw [readKey, groupOf]
  split
  · next missing => rw [missing, empty]
  · next value found =>
      obtain ⟨inner, rfl⟩ := isTable value ((lookup_iff once _ _).mp found)
      rw [found]

def Slot.read (slot : Slot) (table : Table Number) : Except Error slot.Content :=
  readKey (within table slot.group) slot.key slot.form.read (slot.get {})

theorem readKeyboard_iff (inner : Table Number) (settings : KeyboardSettings) :
    readKeyboard (.table inner) = .ok settings ↔
      readKey inner "mode" modeForm.read .raw = .ok settings.mode ∧
      readKey inner "layout" layoutForm.read .us = .ok settings.layout ∧
      readKey inner "undecoded_passthrough" Form.flag.read false =
        .ok settings.undecodedPassthrough := by
  simp only [readKeyboard, group, bind_eq_ok, pure, Except.pure, Except.ok.injEq, exists_eq_left']
  constructor
  · rintro ⟨mode, modeRead, layout, layoutRead, passed, passedRead, rfl⟩
    exact ⟨modeRead, layoutRead, passedRead⟩
  · rintro ⟨modeRead, layoutRead, passedRead⟩
    exact ⟨_, modeRead, _, layoutRead, _, passedRead, rfl⟩

theorem readDisplay_iff (inner : Table Number) (settings : DisplaySettings) :
    readDisplay (.table inner) = .ok settings ↔
      readKey inner "foreground" Form.color.read 0x000000 = .ok settings.foreground ∧
      readKey inner "background" Form.color.read 0xFFFFFF = .ok settings.background ∧
      readKey inner "cursor_color" Form.color.read 0x000000 = .ok settings.cursorColor := by
  simp only [readDisplay, group, bind_eq_ok, pure, Except.pure, Except.ok.injEq, exists_eq_left']
  constructor
  · rintro ⟨foreground, foregroundRead, background, backgroundRead, cursor, cursorRead, rfl⟩
    exact ⟨foregroundRead, backgroundRead, cursorRead⟩
  · rintro ⟨foregroundRead, backgroundRead, cursorRead⟩
    exact ⟨_, foregroundRead, _, backgroundRead, _, cursorRead, rfl⟩

theorem readInput_iff (inner : Table Number) (settings : InputSettings) :
    readInput (.table inner) = .ok settings ↔
      readKey inner "wake_policy" policyForm.read .everyWord = .ok settings.wakePolicy := by
  simp only [readInput, group, bind_eq_ok, pure, Except.pure, Except.ok.injEq, exists_eq_left']
  constructor
  · rintro ⟨policy, policyRead, rfl⟩
    exact policyRead
  · intro policyRead
    exact ⟨_, policyRead, rfl⟩

theorem ofTable_iff (once : (keysOf table).Nodup) (grouped : Grouped table) (config : Config) :
    ofTable table = .ok config ↔ ∀ slot ∈ slots, slot.read table = .ok (slot.get config) := by
  have isTable : ∀ group ∈ ["keyboard", "display", "input"], ∀ value, (group, value) ∈ table →
      ∃ inner, value = .table inner := grouped.groups
  have keyboard : readKey table "keyboard" readKeyboard {} = _ :=
    readKey_group rfl once (isTable _ (by simp))
  have display : readKey table "display" readDisplay {} = _ :=
    readKey_group rfl once (isTable _ (by simp))
  have input : readKey table "input" readInput {} = _ :=
    readKey_group rfl once (isTable _ (by simp))
  -- a group that is missing has the settings of an empty one
  unfold ofTable
  rw [keyboard, display, input]
  simp only [bind_eq_ok, pure, Except.pure, Except.ok.injEq, readKeyboard_iff, readDisplay_iff,
    readInput_iff, slots, List.forall_mem_cons, Slot.read, within]
  constructor
  · rintro ⟨cycles, cyclesRead, delay, delayRead, vsync, vsyncRead, keyboard, ⟨modeRead,
      layoutRead, passedRead⟩, display, ⟨foregroundRead, backgroundRead, cursorRead⟩,
      input, policyRead, rfl⟩
    exact ⟨cyclesRead, delayRead, vsyncRead, modeRead, layoutRead, passedRead,
      foregroundRead, backgroundRead, cursorRead, policyRead, nofun⟩
  · rintro ⟨cyclesRead, delayRead, vsyncRead, modeRead, layoutRead, passedRead,
      foregroundRead, backgroundRead, cursorRead, policyRead, -⟩
    exact ⟨_, cyclesRead, _, delayRead, _, vsyncRead, _, ⟨modeRead, layoutRead, passedRead⟩,
      _, ⟨foregroundRead, backgroundRead, cursorRead⟩, _, policyRead, rfl⟩

theorem ofTable_ok_iff (once : (keysOf table).Nodup) (grouped : Grouped table) :
    (∃ config, ofTable table = .ok config) ↔
      ∀ slot ∈ slots, ∃ content, slot.read table = .ok content := by
  simp only [ofTable_iff once grouped]
  constructor
  · rintro ⟨config, each⟩ slot member
    exact ⟨_, each slot member⟩
  · intro each
    simp only [slots, List.forall_mem_cons] at each ⊢
    obtain ⟨⟨cycles, cyclesRead⟩, ⟨delay, delayRead⟩, ⟨vsync, vsyncRead⟩, ⟨mode, modeRead⟩,
      ⟨layout, layoutRead⟩, ⟨passed, passedRead⟩, ⟨foreground, foregroundRead⟩,
      ⟨background, backgroundRead⟩, ⟨cursor, cursorRead⟩, ⟨policy, policyRead⟩, -⟩ := each
    exact ⟨⟨cycles, delay, vsync, ⟨mode, layout, passed⟩, ⟨foreground, background, cursor⟩,
      ⟨policy⟩⟩, cyclesRead, delayRead, vsyncRead, modeRead, layoutRead, passedRead,
      foregroundRead, backgroundRead, cursorRead, policyRead, nofun⟩

/-! ## Errors -/

theorem group_only (keys : List String) (value : Value Number) : OnlySyntax (group keys value) := by
  cases value with
  | table | array | time => exact onlySyntax_ok _
  | text | number | boolean => exact onlySyntax_bad

theorem readKeyboard_only (value : Value Number) : OnlySyntax (readKeyboard value) := by
  refine (group_only keyboardKeys value).bind fun inner => ?_
  refine (readKey_only "mode" _ modeForm.only).bind fun mode => ?_
  refine (readKey_only "layout" _ layoutForm.only).bind fun layout => ?_
  refine (readKey_only "undecoded_passthrough" _ Form.flag.only).bind fun passed => ?_
  exact onlySyntax_ok _

theorem readDisplay_only (value : Value Number) : OnlySyntax (readDisplay value) := by
  refine (group_only displayKeys value).bind fun inner => ?_
  refine (readKey_only "foreground" _ Form.color.only).bind fun foreground => ?_
  refine (readKey_only "background" _ Form.color.only).bind fun background => ?_
  refine (readKey_only "cursor_color" _ Form.color.only).bind fun cursor => ?_
  exact onlySyntax_ok _

theorem readInput_only (value : Value Number) : OnlySyntax (readInput value) := by
  refine (group_only inputKeys value).bind fun inner => ?_
  refine (readKey_only "wake_policy" _ policyForm.only).bind fun policy => ?_
  exact onlySyntax_ok _

theorem ofTable_only (table : Table Number) : OnlySyntax (ofTable table) := by
  refine (readKey_only "cycles_per_frame" _ Form.word.only).bind fun cycles => ?_
  refine (readKey_only "novsync_delay_ms" _ Form.word.only).bind fun delay => ?_
  refine (readKey_only "vsync" _ Form.flag.only).bind fun vsync => ?_
  refine (readKey_only "keyboard" _ readKeyboard_only).bind fun keyboard => ?_
  refine (readKey_only "display" _ readDisplay_only).bind fun display => ?_
  refine (readKey_only "input" _ readInput_only).bind fun input => ?_
  exact onlySyntax_ok _

/-! ## What is read -/

theorem plain_of_grouped (grouped : Grouped table) : ∀ setting ∈ recognised, ∀ value,
    Holds table setting.1 value → setting.2.Plain value := by
  have names := grouped.names
  simp only [recognised, List.forall_mem_cons] at names ⊢
  obtain ⟨mode, layout, policy, -⟩ := names
  refine ⟨nofun, nofun, nofun, ?_, ?_, nofun, nofun, nofun, nofun, ?_, nofun⟩
  · rintro value held choices inner - rfl
    exact mode inner held
  · rintro value held choices inner - rfl
    exact layout inner held
  · rintro value held choices inner - rfl
    exact policy inner held

theorem Slot.plain (grouped : Grouped table) {slot : Slot} (member : slot ∈ slots)
    {value : Value Number} (held : Holds table slot.path value) : slot.form.kind.Plain value := by
  have plain := plain_of_grouped grouped
  rw [recognised_eq] at plain
  exact plain _ (List.mem_map.mpr ⟨slot, member, rfl⟩) value held

section
variable (distinct : Toml.Table.Distinct table) (grouped : Grouped table)
include distinct grouped

/-- A setting has the value that the document holds, or its default. -/
theorem Slot.read_iff {slot : Slot} (member : slot ∈ slots) (content : slot.Content) :
    slot.read table = .ok content ↔
      Holds table slot.path (slot.form.write content) ∨
        (∀ value, ¬ Holds table slot.path value) ∧ content = slot.get {} := by
  have read := readKey_iff (within_distinct distinct slot.group).once slot.key slot.form.read
    (slot.get {}) content
  simp only [← slot.holds_iff distinct.once] at read
  rw [Slot.read, read]
  refine or_congr ?_ Iff.rfl
  constructor
  · rintro ⟨value, held, read⟩
    have plain := slot.plain grouped member held
    rwa [← (slot.form.read_iff value content plain).mp read]
  · intro held
    exact ⟨_, held, (slot.form.read_iff _ content (slot.form.plain_write content)).mpr rfl⟩

theorem Slot.readable_iff {slot : Slot} (member : slot ∈ slots) :
    (∃ content, slot.read table = .ok content) ↔
      ∀ value, Holds table slot.path value → slot.form.kind.Admits value := by
  simp only [slot.read_iff distinct grouped member, slot.form.admits_iff]
  constructor
  · rintro ⟨content, held | ⟨absent, -⟩⟩ value valueHeld
    · exact ⟨content, holds_unique distinct valueHeld held⟩
    · exact absurd valueHeld (absent value)
  · intro each
    by_cases present : ∃ value, Holds table slot.path value
    · obtain ⟨value, held⟩ := present
      obtain ⟨content, rfl⟩ := each value held
      exact ⟨content, .inl held⟩
    · exact ⟨_, .inr ⟨not_exists.mp present, rfl⟩⟩

theorem readable_iff : (∃ config, ofTable table = .ok config) ↔ WellFormed table := by
  rw [ofTable_ok_iff distinct.once grouped, WellFormed, recognised_eq, List.forall_mem_map]
  exact forall₂_congr fun slot member => slot.readable_iff distinct grouped member

theorem fits_iff (config : Config) : ofTable table = .ok config ↔ Fits table config := by
  rw [ofTable_iff distinct.once grouped, Fits, written_eq, List.forall_mem_map]
  refine forall₂_congr fun slot member => ?_
  rw [slot.read_iff distinct grouped member]
  refine or_congr Iff.rfl (and_congr Iff.rfl ?_)
  rw [written_eq, List.mem_map]
  constructor
  · intro same
    exact ⟨slot, member, by rw [same]⟩
  · rintro ⟨other, otherMember, same⟩
    obtain ⟨pathEq, writeEq⟩ := Prod.mk.inj same
    cases List.inj_on_of_nodup_map paths_nodup otherMember member pathEq
    exact slot.form.write_injective writeEq.symm

end

end

/-! ## Ranges -/

def Limit.KeptBy (limit : Limit) (config : Config) : Prop :=
  ∀ value : Int, (limit.path, .number (.integer value)) ∈ config.written →
    limit.least ≤ value ∧ value ≤ limit.greatest

theorem Limit.keptBy_of_number (limit : Limit) (config : Config) (number : Nat)
    (stands : ∀ value : Int, (limit.path, .number (.integer value)) ∈ config.written ↔
      value = number) :
    limit.KeptBy config ↔ limit.least ≤ number ∧ number ≤ limit.greatest := by
  simp only [KeptBy, stands, forall_eq, Int.ofNat_le]

open Classical in
theorem ranges_eq (config : Config) :
    config.ranges = limits.map fun limit => (limit.key, decide (limit.KeptBy config)) := by
  have cycles := Limit.keptBy_of_number ⟨["cycles_per_frame"], 100, 20000⟩ config
    config.cyclesPerFrame.toNat (by simp [written])
  have delay := Limit.keptBy_of_number ⟨["novsync_delay_ms"], 0, 1000⟩ config
    config.novsyncDelay.toNat (by simp [written])
  have foreground := Limit.keptBy_of_number ⟨["display", "foreground"], 0, 0xFFFFFF⟩ config
    config.display.foreground.toNat (by simp [written])
  have background := Limit.keptBy_of_number ⟨["display", "background"], 0, 0xFFFFFF⟩ config
    config.display.background.toNat (by simp [written])
  have cursor := Limit.keptBy_of_number ⟨["display", "cursor_color"], 0, 0xFFFFFF⟩ config
    config.display.cursorColor.toNat (by simp [written])
  simp only [limits, List.map_cons, List.map_nil, cycles, delay, foreground, background, cursor]
  simp [ranges, Limit.key, UInt16.le_iff_toNat_le, UInt32.le_iff_toNat_le]

open Classical in
theorem validate_eq (config : Config) :
    config.validate = (limits.find? fun limit => !decide (limit.KeptBy config)).elim (.ok ())
      fun limit => .error (.outOfRange limit.key) := by
  rw [validate, ranges_eq, List.find?_map]
  simp only [Function.comp_def]
  cases limits.find? fun limit => !decide (limit.KeptBy config) with
  | none => rfl
  | some limit => rfl

theorem validate_ok_iff (config : Config) :
    config.validate = .ok () ↔ ∀ limit ∈ limits, limit.KeptBy config := by
  rw [validate_eq]
  cases found : limits.find? _ with
  | none => simpa using found
  | some limit =>
      have broken : ¬ limit.KeptBy config := by simpa using List.find?_some found
      have member := List.mem_of_find?_eq_some found
      simp only [Option.elim_some, reduceCtorEq, false_iff]
      exact fun each => broken (each limit member)

/-- The first setting beyond its limits is named. -/
theorem validate_error_iff (config : Config) (error : Error) :
    config.validate = .error error ↔ ∃ limit, error = .outOfRange limit.key ∧
      FirstOf (fun limit => ¬ limit.KeptBy config) limit := by
  classical
  have first : ∀ limit, (limits.find? fun limit => !decide (limit.KeptBy config)) = some limit ↔
      FirstOf (fun limit => ¬ limit.KeptBy config) limit := by
    intro limit
    rw [List.find?_eq_some_iff_append]
    simp only [FirstOf, Bool.not_eq_true', decide_eq_false_iff_not, Bool.not_not,
      decide_eq_true_eq, not_not]
    exact ⟨fun ⟨broken, earlier, later, split, kept⟩ => ⟨earlier, later, split, broken, kept⟩,
      fun ⟨earlier, later, split, broken, kept⟩ => ⟨broken, earlier, later, split, kept⟩⟩
  simp only [← first, validate_eq]
  cases limits.find? _ with
  | none => simp
  | some limit => simp [eq_comm]

theorem defaults_kept : ∀ limit ∈ limits, limit.KeptBy {} :=
  (validate_ok_iff {}).mp rfl

/-- Of settings that fit a document, a number is inside its limits unless the document holds
one beyond them. -/
theorem Limit.keptBy_iff {table : Table Number} (distinct : Toml.Table.Distinct table)
    {config : Config} (fits : Fits table config) {limit : Limit} (member : limit ∈ limits) :
    limit.KeptBy config ↔ ¬ limit.Broken table := by
  constructor
  · rintro kept ⟨value, held, outside⟩
    have pathMem := limits_recognised limit member
    rw [← written_paths config, List.mem_map] at pathMem
    obtain ⟨⟨path, other⟩, entryMem, rfl⟩ := pathMem
    rcases fits _ entryMem with otherHeld | ⟨absent, -⟩
    · cases holds_unique distinct held otherHeld
      exact outside (kept value entryMem)
    · exact absent _ held
  · intro unbroken value entryMem
    -- every default keeps its range, so only a number of the document can be outside
    rcases fits _ entryMem with held | ⟨-, defaultMem⟩
    · by_contra outside
      exact unbroken ⟨value, held, outside⟩
    · exact defaults_kept limit member value defaultMem

theorem validate_broken_iff {table : Table Number} (distinct : Toml.Table.Distinct table)
    {config : Config} (fits : Fits table config) (key : String) :
    config.validate = .error (.outOfRange key) ↔
      ∃ limit, limit.key = key ∧ FirstOf (Limit.Broken table) limit := by
  rw [validate_error_iff]
  refine exists_congr fun limit => and_congr (by rw [Error.outOfRange.injEq, eq_comm]) ?_
  refine firstOf_congr (fun limit member => ?_) limit
  rw [limit.keptBy_iff distinct fits member, not_not]

/-! ## The whole document -/

theorem ofDocument_ok_iff (table : Table Number) (config : Config) :
    ofDocument table = .ok config ↔ ofTable table = .ok config ∧ config.validate = .ok () := by
  simp only [ofDocument, bind_eq_ok, pure, Except.pure, Except.ok.injEq]
  constructor
  · rintro ⟨_, read, ⟨⟩, valid, rfl⟩
    exact ⟨read, valid⟩
  · rintro ⟨read, valid⟩
    exact ⟨_, read, (), valid, rfl⟩

theorem ofDocument_error_iff (table : Table Number) (error : Error) :
    ofDocument table = .error error ↔ ofTable table = .error error ∨
      ∃ config, ofTable table = .ok config ∧ config.validate = .error error := by
  rw [ofDocument]
  cases ofTable table with
  | error refused => simp [bind, Except.bind]
  | ok config =>
      cases valid : config.validate with
      | error refused => simp [bind, Except.bind, valid]
      | ok => simp [bind, Except.bind, valid, pure, Except.pure]

theorem reading_of_document {table : Table Number} (distinct : Toml.Table.Distinct table)
    (grouped : Grouped table) : Reading table (ofDocument table) where
  malformed := by
    have notFormed : ¬ WellFormed table ↔ ∃ setting ∈ recognised, ∃ value,
        Holds table setting.1 value ∧ ¬ setting.2.Admits value := by
      simp only [WellFormed, not_forall, exists_prop]
    rw [← notFormed, ← readable_iff distinct grouped, ofDocument_error_iff]
    -- a range that is not kept is never reported as a bad form
    constructor
    · rintro (refused | ⟨config, -, invalid⟩) ⟨config', read⟩
      · rw [refused] at read
        cases read
      · obtain ⟨limit, named, -⟩ := (validate_error_iff config _).mp invalid
        cases named
    · intro unreadable
      cases read : ofTable table with
      | error error => exact .inl (by rw [ofTable_only table error read])
      | ok config => exact absurd ⟨config, read⟩ unreadable
  outOfRange key := by
    rw [← readable_iff distinct grouped, ofDocument_error_iff]
    constructor
    · rintro (refused | ⟨config, read, invalid⟩)
      · cases ofTable_only table _ refused
      · have fits := (fits_iff distinct grouped config).mp read
        exact ⟨⟨config, read⟩, (validate_broken_iff distinct fits key).mp invalid⟩
    · rintro ⟨⟨config, read⟩, broken⟩
      have fits := (fits_iff distinct grouped config).mp read
      exact .inr ⟨config, read, (validate_broken_iff distinct fits key).mpr broken⟩
  settled config := by
    rw [ofDocument_ok_iff, fits_iff distinct grouped, validate_ok_iff]
    refine and_congr_right fun fits => ?_
    exact forall₂_congr fun limit member => limit.keptBy_iff distinct fits member
  unmatched := by
    rw [Ne, ofDocument_error_iff]
    rintro (refused | ⟨config, -, invalid⟩)
    · cases ofTable_only table _ refused
    · obtain ⟨limit, named, -⟩ := (validate_error_iff config _).mp invalid
      cases named

/-! ## Texts -/

theorem trim_eq {table : Table ν} (groups : ∀ group ∈ ["keyboard", "display", "input"],
    ∀ value, (group, value) ∈ table → ∃ inner, value = .table inner) : trim table = table := by
  have trimmed : ∀ entry ∈ table, (entry.1, trimValue entry.1 entry.2) = entry := by
    rintro ⟨key, value⟩ member
    match value with
    | .array items =>
        have ungrouped : Config.groups.lookup key = none := by
          rw [List.lookup_eq_none_iff]
          rintro ⟨group, keys⟩ groupMem
          rw [bne_iff_ne]
          rintro rfl
          have groupKnown : key ∈ keysOf Config.groups := List.mem_map_of_mem groupMem
          obtain ⟨inner, made⟩ := groups key groupKnown _ member
          cases made
        simp only [trimValue, ungrouped]
    | .text _ | .number _ | .boolean _ | .time _ | .table _ => rfl
  exact (List.map_congr_left trimmed).trans (List.map_id table)

theorem settle_table {draft : Value (Option ν)} {inner : Table ν}
    (settled : draft.settle? = some (.table inner)) : ∃ entries, draft = .table entries := by
  cases draft with
  | table entries => exact ⟨entries, rfl⟩
  | _ => simp [Value.settle?] at settled

section
variable (reader : String → Option (Table (Option Number)))

def document? (text : String) : Option (Table Number) := (reader text).bind Toml.Table.settle?

variable {reader} {text : String}

theorem document?_distinct
    (distinctKeys : ∀ text draft, reader text = some draft → Toml.Table.Distinct draft)
    {table : Table Number} (denoted : document? reader text = some table) :
    Toml.Table.Distinct table := by
  rw [document?, Option.bind_eq_some_iff] at denoted
  obtain ⟨draft, given, settled⟩ := denoted
  exact (distinctKeys text draft given).settle settled

theorem parse_of_document {table : Table Number} (denoted : document? reader text = some table)
    (grouped : Grouped table) : parseWith reader text = ofDocument table := by
  rw [document?, Option.bind_eq_some_iff] at denoted
  obtain ⟨draft, given, settled⟩ := denoted
  have groups : ∀ group ∈ ["keyboard", "display", "input"], ∀ value, (group, value) ∈ draft →
      ∃ inner, value = .table inner := by
    intro group groupMem value member
    obtain ⟨⟨key, result⟩, resultMem, same, valueSettled⟩ :=
      Toml.exists_left (settle?_entries settled).flip member
    obtain rfl : group = key := same
    obtain ⟨inner, rfl⟩ := grouped.groups group groupMem result resultMem
    exact settle_table valueSettled
  simp only [parseWith, given, Option.bind_some, trim_eq groups, settled]

theorem parse_of_none (undenoted : document? reader text = none)
    (grouped : ∀ draft, reader text = some draft → Grouped draft) :
    parseWith reader text = .error .badSyntax := by
  cases given : reader text with
  | none => simp only [parseWith, given, Option.bind_none]
  | some draft =>
      rw [document?, given, Option.bind_some] at undenoted
      simp only [parseWith, given, Option.bind_some, trim_eq (grouped draft given).groups,
        undenoted]

end

theorem create_of_document {table : Table Number} {config : Config}
    (read : ofDocument table = .ok config) (host : Mode) :
    (host = config.keyboard.mode →
      ∃ console, Console.create config host = .ok console ∧ console.config = config) ∧
    (host ≠ config.keyboard.mode → Console.create config host = .error .keyboardMismatch) := by
  have valid := ((ofDocument_ok_iff table config).mp read).2
  constructor
  · intro fits
    simp only [Console.create, valid, if_pos fits, Except.ok.injEq, exists_eq_left']
  · intro differs
    simp only [Console.create, valid, if_neg differs]

/-- The settings of a document are exactly those that it holds, and no other value, no order
and no further key of it matters.  Texts are read so with every reader of documents that keeps
keys apart, and the one of this library is such a reader. -/
theorem settings_read_exactly (reader : String → Option (Table (Option Number)))
    (distinctKeys : ∀ text draft, reader text = some draft → Toml.Table.Distinct draft) :
    (∀ table : Table Number, Toml.Table.Distinct table → Grouped table →
      Reading table (ofDocument table)) ∧
    (∀ table other : Table Number, Toml.Table.Distinct table → Grouped table →
      Toml.Table.Distinct other → Grouped other → SameSettings table other →
      ofDocument table = ofDocument other) ∧
    (∀ (text : String) (table : Table Number), document? reader text = some table →
      Toml.Table.Distinct table ∧ (Grouped table → parseWith reader text = ofDocument table)) ∧
    (∀ text : String, document? reader text = none →
      (∀ draft, reader text = some draft → Grouped draft) →
      parseWith reader text = .error .badSyntax) ∧
    (∀ (table : Table Number) (config : Config) (host : Mode), ofDocument table = .ok config →
      (host = config.keyboard.mode →
        ∃ console, Console.create config host = .ok console ∧ console.config = config) ∧
      (host ≠ config.keyboard.mode →
        Console.create config host = .error .keyboardMismatch)) ∧
    (∀ text draft, Toml.parse? text = some draft → Toml.Table.Distinct draft) ∧
    parse = parseWith Toml.parse? := by
  refine ⟨fun table => reading_of_document, ?_, fun text table denoted => ?_,
    fun text => parse_of_none, fun table config host read => create_of_document read host,
    fun text draft => Toml.parse?_distinct, rfl⟩
  · intro table other distinct grouped otherDistinct otherGrouped same
    have reading := (reading_of_document distinct grouped).congr same
    exact reading.unique (reading_of_document otherDistinct otherGrouped)
  · exact ⟨document?_distinct distinctKeys denoted, parse_of_document denoted⟩

/-- A colour that fits into its machine word but not into its range, behind an unknown key. -/
def farColor : Table Number :=
  [("volume", .number (.integer 11)),
    ("display", .table [("foreground", .number (.integer 16777216))])]

def isFarColor : Option (Table Number) → Bool
  | some [("volume", .number (.integer 11)),
      ("display", .table [("foreground", .number (.integer 16777216))])] => true
  | _ => false

theorem eq_farColor {denoted : Option (Table Number)} (isFar : isFarColor denoted = true) :
    denoted = some farColor := by
  unfold isFarColor at isFar
  split at isFar
  · rfl
  · cases isFar

theorem farColor_grouped : Grouped farColor := by
  constructor
  · simp [farColor, Holds]
  · simp [farColor, Holds]

/-- A text with that colour, the same colour before the unknown key, a text that is no document,
and the defaults for a keyboard of the other form. -/
theorem settings_read_exactly_far_color :
    (∀ text draft, Toml.parse? text = some draft → Toml.Table.Distinct draft) ∧
      parse "volume = 11\n[display]\nforeground = 16777216\n" =
        .error (.outOfRange "display.foreground") ∧
      ofDocument [("display", .table [("foreground", .number (.integer 16777216)),
        ("volume", .number (.integer 11))])] = .error (.outOfRange "display.foreground") ∧
      parse "vsync" = .error .badSyntax ∧
      Console.create {} .cooked = .error .keyboardMismatch := by
  obtain ⟨byDocument, bySame, byText, byNone, created, distinctKeys, whole⟩ :=
    settings_read_exactly Toml.parse? fun text draft => Toml.parse?_distinct
  rw [whole]
  have denoted : document? Toml.parse? "volume = 11\n[display]\nforeground = 16777216\n" =
      some farColor := eq_farColor (by decide +kernel)
  obtain ⟨distinct, read⟩ := byText _ _ denoted
  have named : ofDocument farColor = .error (.outOfRange "display.foreground") := by
    refine ((byDocument _ distinct farColor_grouped).outOfRange _).mpr ⟨?_, ?_⟩
    · simp [WellFormed, recognised, farColor, Holds, Kind.Admits]
    · refine ⟨⟨["display", "foreground"], 0, 0xFFFFFF⟩, rfl, limits.take 2, limits.drop 3, rfl,
        ?_, ?_⟩
      · exact ⟨16777216, by simp [farColor, Holds], by decide⟩
      · simp [limits, Limit.Broken, farColor, Holds]
  refine ⟨distinctKeys, (read farColor_grouped).trans named, ?_, ?_, ?_⟩
  · rw [← named]
    refine bySame _ _ (Toml.Value.Distinct.of_table ?_) ?_ distinct farColor_grouped ?_
    · refine .table _ (by decide) (List.forall_mem_singleton.mpr ?_)
      refine .table _ (by decide) ?_
      simp only [List.forall_mem_cons]
      exact ⟨.number _, .number _, List.forall_mem_nil _⟩
    · constructor
      · simp [Holds]
      · simp [Holds]
    · simp [SameSettings, recognised, farColor, Holds]
  · have undenoted : Toml.parse? "vsync" = none := by decide +kernel
    refine byNone _ (by rw [document?, undenoted]; rfl) fun draft given => ?_
    rw [undenoted] at given
    cases given
  · exact (created [] {} .cooked rfl).2 (by decide)

end GuestConsole.Config
