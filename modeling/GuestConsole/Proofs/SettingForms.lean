import GuestConsole.Proofs.HeldSettings

/-!
# Kinds of settings

Numbers, flags and names are read in a way that is undone by writing them, and whatever is
not of its kind is refused as a bad document.
-/

set_option autoImplicit false

namespace GuestConsole.Config

open GuestConsole.Keyboard (Mode)
open GuestConsole.Input (WakePolicy)
open GuestConsole.Toml (Value Number keysOf lookup_iff)

variable {α β : Type}

theorem bind_eq_ok {first : Except Error α} {next : α → Except Error β} {result : β} :
    (first >>= next) = .ok result ↔ ∃ value, first = .ok value ∧ next value = .ok result := by
  cases first with
  | error error => simp [bind, Except.bind]
  | ok value => simp [bind, Except.bind]

/-- The only error is that something has the wrong form. -/
def OnlySyntax (outcome : Except Error α) : Prop := ∀ error, outcome = .error error → error = .badSyntax

theorem onlySyntax_ok (value : α) : OnlySyntax (.ok value : Except Error α) := nofun

theorem onlySyntax_bad : OnlySyntax (.error .badSyntax : Except Error α) := by
  rintro _ ⟨⟩
  rfl

theorem OnlySyntax.bind {first : Except Error α} {next : α → Except Error β}
    (firstOnly : OnlySyntax first) (nextOnly : ∀ value, OnlySyntax (next value)) :
    OnlySyntax (first >>= next) := by
  cases first with
  | error error =>
      rintro _ ⟨⟩
      exact firstOnly _ rfl
  | ok value => exact nextOnly value

def Kind.Plain (kind : Kind) (value : Value Number) : Prop :=
  ∀ choices inner, kind = .name choices → value ≠ .table inner

/-- A kind of setting with how it is read and how it is written. -/
structure Form (α : Type) where
  kind : Kind
  read : Read α
  write : α → Value Number
  read_iff : ∀ value content, kind.Plain value →
    (read value = .ok content ↔ value = write content)
  admits_iff : ∀ value, kind.Admits value ↔ ∃ content, value = write content
  plain_write : ∀ content, kind.Plain (write content)
  only : ∀ value, OnlySyntax (read value)

theorem Form.write_injective (form : Form α) {first second : α}
    (same : form.write first = form.write second) : first = second := by
  have readFirst := (form.read_iff _ first (form.plain_write first)).mpr rfl
  have readSecond := (form.read_iff _ second (form.plain_write second)).mpr rfl
  rw [same, readSecond] at readFirst
  exact (Except.ok.inj readFirst).symm

theorem readNat_iff (limit : Nat) (value : Value Number) (content : Nat) :
    readNat limit value = .ok content ↔ value = .number (.integer content) ∧ content ≤ limit := by
  unfold readNat
  split
  · next number =>
      split
      · next inside =>
          simp only [Bool.and_eq_true, decide_eq_true_eq] at inside
          simp only [Except.ok.injEq, Value.number.injEq, Number.integer.injEq]
          omega
      · next outside =>
          simp only [Bool.and_eq_true, decide_eq_true_eq] at outside
          simp only [reduceCtorEq, Value.number.injEq, Number.integer.injEq, false_iff]
          omega
  · next other =>
      simp only [reduceCtorEq, false_iff, not_and]
      rintro rfl
      exact absurd rfl (other content)

theorem readNat_only (limit : Nat) (value : Value Number) : OnlySyntax (readNat limit value) := by
  unfold readNat
  split
  · split
    · exact onlySyntax_ok _
    · exact onlySyntax_bad
  · exact onlySyntax_bad

def Form.number (greatest : Nat) (toNat : α → Nat) (ofNat : Nat → α)
    (bounded : ∀ content, toNat content ≤ greatest)
    (restores : ∀ content, ofNat (toNat content) = content)
    (keeps : ∀ number ≤ greatest, toNat (ofNat number) = number) : Form α where
  kind := .integer greatest
  read value := ofNat <$> readNat greatest value
  write content := .number (.integer (toNat content))
  read_iff := by
    intro value content _
    rw [map_eq_pure_bind, bind_eq_ok]
    constructor
    · rintro ⟨number, read, made⟩
      obtain ⟨rfl, inside⟩ := (readNat_iff _ _ _).mp read
      cases made
      rw [keeps number inside]
    · rintro rfl
      exact ⟨toNat content, (readNat_iff _ _ _).mpr ⟨rfl, bounded content⟩,
        congrArg Except.ok (restores content)⟩
  admits_iff := by
    intro value
    constructor
    · intro admits
      match value with
      | .number (.integer number) =>
          obtain ⟨least, greatest⟩ := admits
          refine ⟨ofNat number.toNat, ?_⟩
          rw [keeps _ (by omega), Int.toNat_of_nonneg least]
    · rintro ⟨content, rfl⟩
      exact ⟨Int.natCast_nonneg _, Int.ofNat_le.mpr (bounded content)⟩
  plain_write := nofun
  only value := by
    rw [map_eq_pure_bind]
    exact (readNat_only _ _).bind fun _ => onlySyntax_ok _

def Form.word : Form UInt16 :=
  .number 65535 UInt16.toNat UInt16.ofNat (fun content => Nat.le_of_lt_succ content.toNat_lt)
    (fun content => by simp) (fun number inside => UInt16.toNat_ofNat_of_lt' (Nat.lt_succ_of_le inside))

def Form.color : Form UInt32 :=
  .number 4294967295 UInt32.toNat UInt32.ofNat (fun content => Nat.le_of_lt_succ content.toNat_lt)
    (fun content => by simp) (fun number inside => UInt32.toNat_ofNat_of_lt' (Nat.lt_succ_of_le inside))

def Form.flag : Form Bool where
  kind := .flag
  read := readBool
  write := .boolean
  read_iff value content _ := by cases value <;> simp [readBool]
  admits_iff value := by cases value <;> simp [Kind.Admits]
  plain_write := nofun
  only value := by
    cases value with
    | boolean => exact onlySyntax_ok _
    | _ => exact onlySyntax_bad

def Form.choice (choices : List (String × α)) (name : α → String)
    (once : (keysOf choices).Nodup)
    (named : ∀ text content, (text, content) ∈ choices ↔ text = name content) : Form α where
  kind := .name (keysOf choices)
  read := readChoice choices
  write content := .text (name content)
  read_iff := by
    intro value content plain
    match value with
    | .text text =>
        simp only [readChoice, name?, Option.bind_some, Value.text.injEq, ← named,
          ← lookup_iff once]
        split
        · next choice found => simp [found]
        · next missing => simp [missing]
    | .table inner => exact absurd rfl (plain _ inner rfl)
    | .number _ | .boolean _ | .time _ | .array _ => simp [readChoice, name?]
  admits_iff := by
    intro value
    match value with
    | .text text => simp [Kind.Admits, keysOf, ← named]
    | .table _ | .number _ | .boolean _ | .time _ | .array _ => simp [Kind.Admits]
  plain_write := nofun
  only value := by
    rw [readChoice]
    split
    · exact onlySyntax_ok _
    · exact onlySyntax_bad

def modeForm : Form Mode :=
  .choice modes modeName (by decide) fun text content => by cases content <;> simp [modes, modeName]

def layoutForm : Form LayoutName :=
  .choice layouts layoutName (by decide) fun text content => by
    cases content <;> simp [layouts, layoutName]

def policyForm : Form WakePolicy :=
  .choice wakePolicies policyName (by decide) fun text content => by
    cases content <;> simp [wakePolicies, policyName]

end GuestConsole.Config
