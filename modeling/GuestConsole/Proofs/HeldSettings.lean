import GuestConsole.Config.Document
import GuestConsole.Proofs.DistinctKeys

/-!
# What a document says about the settings

Ten settings are known, each under a path of keys.  A value of another kind than its
setting wants makes the whole document bad.  Otherwise a setting has the value under its
path, or its default, and the first number beyond its limits is named.  Nothing else in a
document counts.
-/

set_option autoImplicit false

namespace GuestConsole.Config

open GuestConsole.Keyboard (Mode)
open GuestConsole.Input (WakePolicy)
open GuestConsole.Toml (Value Table Number value_unique)

variable {ν : Type}

/-! ## Documents -/

/-- A table holds a value under a path of keys, which leads through tables. -/
def Holds : Table ν → List String → Value ν → Prop
  | _, [], _ => False
  | table, [key], value => (key, value) ∈ table
  | table, key :: next :: path, value =>
      ∃ inner, (key, .table inner) ∈ table ∧ Holds inner (next :: path) value

/-- The groups of settings are tables where they are present, and no table stands for a
name. -/
structure Grouped (table : Table ν) : Prop where
  groups : ∀ group ∈ ["keyboard", "display", "input"], ∀ value, Holds table [group] value →
    ∃ inner, value = .table inner
  names : ∀ path ∈ [["keyboard", "mode"], ["keyboard", "layout"], ["input", "wake_policy"]],
    ∀ inner, ¬ Holds table path (.table inner)

inductive Kind where
  | integer (greatest : Nat)
  | flag
  | name (choices : List String)

def Kind.Admits : Kind → Value Number → Prop
  | .integer greatest, .number (.integer value) => 0 ≤ value ∧ value ≤ greatest
  | .flag, .boolean _ => True
  | .name choices, .text value => value ∈ choices
  | _, _ => False

def recognised : List (List String × Kind) :=
  [(["cycles_per_frame"], .integer 65535),
    (["novsync_delay_ms"], .integer 65535),
    (["vsync"], .flag),
    (["keyboard", "mode"], .name ["raw", "cooked"]),
    (["keyboard", "layout"], .name ["us", "german"]),
    (["keyboard", "undecoded_passthrough"], .flag),
    (["display", "foreground"], .integer 4294967295),
    (["display", "background"], .integer 4294967295),
    (["display", "cursor_color"], .integer 4294967295),
    (["input", "wake_policy"], .name ["every_word", "on_non_empty"])]

def modeName : Mode → String
  | .raw => "raw"
  | .cooked => "cooked"

def layoutName : LayoutName → String
  | .us => "us"
  | .german => "german"

def policyName : WakePolicy → String
  | .everyWord => "every_word"
  | .onNonEmpty => "on_non_empty"

def written (config : Config) : List (List String × Value Number) :=
  [(["cycles_per_frame"], .number (.integer config.cyclesPerFrame.toNat)),
    (["novsync_delay_ms"], .number (.integer config.novsyncDelay.toNat)),
    (["vsync"], .boolean config.vsync),
    (["keyboard", "mode"], .text (modeName config.keyboard.mode)),
    (["keyboard", "layout"], .text (layoutName config.keyboard.layout)),
    (["keyboard", "undecoded_passthrough"], .boolean config.keyboard.undecodedPassthrough),
    (["display", "foreground"], .number (.integer config.display.foreground.toNat)),
    (["display", "background"], .number (.integer config.display.background.toNat)),
    (["display", "cursor_color"], .number (.integer config.display.cursorColor.toNat)),
    (["input", "wake_policy"], .text (policyName config.input.wakePolicy))]

structure Limit where
  path : List String
  least : Nat
  greatest : Nat

def Limit.key (limit : Limit) : String := ".".intercalate limit.path

def limits : List Limit :=
  [⟨["cycles_per_frame"], 100, 20000⟩,
    ⟨["novsync_delay_ms"], 0, 1000⟩,
    ⟨["display", "foreground"], 0, 0xFFFFFF⟩,
    ⟨["display", "background"], 0, 0xFFFFFF⟩,
    ⟨["display", "cursor_color"], 0, 0xFFFFFF⟩]

/-- Of the limits in their order, this is the first that the property has. -/
def FirstOf (property : Limit → Prop) (limit : Limit) : Prop :=
  ∃ earlier later, limits = earlier ++ limit :: later ∧ property limit ∧
    ∀ other ∈ earlier, ¬ property other

section
variable (table : Table Number)

/-- Every setting that a document holds is of its kind. -/
def WellFormed : Prop :=
  ∀ setting ∈ recognised, ∀ value, Holds table setting.1 value → setting.2.Admits value

def Limit.Broken (limit : Limit) : Prop :=
  ∃ value : Int, Holds table limit.path (.number (.integer value)) ∧
    ¬ (limit.least ≤ value ∧ value ≤ limit.greatest)

/-- Each setting is what the document holds under its path, or its default where the
document holds nothing there. -/
def Fits (config : Config) : Prop :=
  ∀ entry ∈ config.written, Holds table entry.1 entry.2 ∨
    (∀ value, ¬ Holds table entry.1 value) ∧ entry ∈ ({} : Config).written

structure Reading (outcome : Except Error Config) : Prop where
  malformed : outcome = .error .badSyntax ↔
    ∃ setting ∈ recognised, ∃ value, Holds table setting.1 value ∧ ¬ setting.2.Admits value
  outOfRange (key : String) : outcome = .error (.outOfRange key) ↔
    WellFormed table ∧ ∃ limit, limit.key = key ∧ FirstOf (Limit.Broken table) limit
  settled (config : Config) : outcome = .ok config ↔
    Fits table config ∧ ∀ limit ∈ limits, ¬ limit.Broken table
  unmatched : outcome ≠ .error .keyboardMismatch

end

def SameSettings (table other : Table Number) : Prop :=
  ∀ setting ∈ recognised, ∀ value, Holds table setting.1 value ↔ Holds other setting.1 value

theorem limits_recognised : ∀ limit ∈ limits, limit.path ∈ recognised.map Prod.fst := by decide

theorem written_paths (config : Config) : config.written.map Prod.fst = recognised.map Prod.fst :=
  rfl

theorem firstOf_congr {property property' : Limit → Prop}
    (same : ∀ limit ∈ limits, property limit ↔ property' limit) (limit : Limit) :
    FirstOf property limit ↔ FirstOf property' limit := by
  refine exists_congr fun earlier => exists_congr fun later => and_congr_right fun split => ?_
  have member : limit ∈ limits := by simp [split]
  have members : ∀ other ∈ earlier, other ∈ limits := by
    intro other otherMem
    simp [split, otherMem]
  refine and_congr (same limit member) (forall₂_congr fun other otherMem => ?_)
  rw [same other (members other otherMem)]

theorem holds_unique {table : Table ν} (distinct : Toml.Table.Distinct table)
    {path : List String} {value value' : Value ν} (held : Holds table path value)
    (held' : Holds table path value') : value = value' := by
  induction path generalizing table with
  | nil => exact held.elim
  | cons key path ih =>
      cases path with
      | nil => exact value_unique distinct.once held held'
      | cons next path =>
          obtain ⟨inner, member, below⟩ := held
          obtain ⟨inner', member', below'⟩ := held'
          cases value_unique distinct.once member member'
          exact ih (distinct.inner _ member).of_table below below'

/-! ## Documents that hold the same -/

section
variable {table other : Table Number} (same : SameSettings table other)
include same

theorem SameSettings.at_path {path : List String} (known : path ∈ recognised.map Prod.fst)
    (value : Value Number) : Holds table path value ↔ Holds other path value := by
  obtain ⟨setting, member, rfl⟩ := List.mem_map.mp known
  exact same setting member value

theorem SameSettings.broken_iff {limit : Limit} (member : limit ∈ limits) :
    limit.Broken table ↔ limit.Broken other :=
  exists_congr fun value =>
    and_congr_left fun _ => same.at_path (limits_recognised limit member) (.number (.integer value))

theorem SameSettings.wellFormed_iff : WellFormed table ↔ WellFormed other :=
  forall₂_congr fun setting member => forall_congr' fun value =>
    imp_congr_left (same setting member value)

theorem SameSettings.fits_iff (config : Config) : Fits table config ↔ Fits other config := by
  refine forall₂_congr fun entry member => ?_
  have known : entry.1 ∈ recognised.map Prod.fst := List.mem_map_of_mem (f := Prod.fst) member
  refine or_congr (same.at_path known _) (and_congr_left fun _ => forall_congr' fun value => ?_)
  rw [same.at_path known]

theorem Reading.congr {outcome : Except Error Config} (reading : Reading table outcome) :
    Reading other outcome where
  malformed := by
    rw [reading.malformed]
    exact exists_congr fun setting => and_congr_right fun member => exists_congr fun value =>
      and_congr_left fun _ => same setting member value
  outOfRange key := by
    rw [reading.outOfRange key, same.wellFormed_iff]
    exact and_congr_right fun _ => exists_congr fun limit =>
      and_congr_right fun _ => firstOf_congr (fun _ member => same.broken_iff member) limit
  settled config := by
    rw [reading.settled config, same.fits_iff]
    refine and_congr_right fun _ => forall₂_congr fun limit member => ?_
    rw [same.broken_iff member]
  unmatched := reading.unmatched

end

theorem Reading.unique {table : Table Number} {first second : Except Error Config}
    (reading : Reading table first) (other : Reading table second) : first = second := by
  match second with
  | .ok config => exact (reading.settled config).mpr ((other.settled config).mp rfl)
  | .error .badSyntax => exact reading.malformed.mpr (other.malformed.mp rfl)
  | .error (.outOfRange key) => exact (reading.outOfRange key).mpr ((other.outOfRange key).mp rfl)
  | .error .keyboardMismatch => exact absurd rfl other.unmatched

end GuestConsole.Config
