import GuestConsole.Toml.Document
import Mathlib.Data.List.Forall2
import Mathlib.Data.List.Nodup

/-!
# Every key stands once

A text that gives the same key of a table twice is not a document.  So in the table of a
document, and in all tables inside of it, every key has exactly one value.
-/

set_option autoImplicit false

namespace GuestConsole.Toml

variable {ν α β : Type}

def keysOf (table : List (String × α)) : List String := table.map Prod.fst

/-- All tables in a value, however deep, have each of their keys once. -/
inductive Value.Distinct : Value ν → Prop where
  | text (value : String) : Distinct (.text value)
  | number (value : ν) : Distinct (.number value)
  | boolean (value : Bool) : Distinct (.boolean value)
  | time (literal : String) : Distinct (.time literal)
  | array (items : List (Value ν)) (inner : ∀ item ∈ items, Distinct item) :
      Distinct (.array items)
  | table (entries : Table ν) (once : (keysOf entries).Nodup)
      (inner : ∀ entry ∈ entries, Distinct entry.2) : Distinct (.table entries)

/-- A table has each of its keys once, and so have the tables inside of it. -/
structure Table.Distinct (table : Table ν) : Prop where
  once : (keysOf table).Nodup
  inner : ∀ entry ∈ table, entry.2.Distinct

theorem Value.Distinct.of_table {entries : Table ν} (distinct : (Value.table entries).Distinct) :
    Table.Distinct entries := by
  cases distinct with
  | table _ once inner => exact ⟨once, inner⟩

theorem Table.Distinct.value {entries : Table ν} (distinct : Table.Distinct entries) :
    (Value.table entries).Distinct :=
  .table entries distinct.once distinct.inner

theorem lookup_iff {table : List (String × α)} (once : (keysOf table).Nodup) (key : String)
    (value : α) : table.lookup key = some value ↔ (key, value) ∈ table := by
  induction table with
  | nil => simp
  | cons entry rest ih =>
      obtain ⟨other, held⟩ := entry
      obtain ⟨absent, restOnce⟩ := List.nodup_cons.mp once
      by_cases same : key = other
      · subst same
        have missing : (key, value) ∉ rest := fun member =>
          absent (List.mem_map.mpr ⟨_, member, rfl⟩)
        simp [missing, eq_comm]
      · have test : (key == other) = false := beq_eq_false_iff_ne.mpr same
        simp only [List.lookup_cons, test, ih restOnce, List.mem_cons, Prod.mk.injEq, same,
          false_and, false_or]

theorem value_unique {table : List (String × α)} (once : (keysOf table).Nodup) {key : String}
    {value value' : α} (member : (key, value) ∈ table) (member' : (key, value') ∈ table) :
    value = value' := by
  have found := (lookup_iff once key value).mpr member
  have found' := (lookup_iff once key value').mpr member'
  exact Option.some.inj (found.symm.trans found')

/-! ## Settling a draft -/

theorem exists_left {relation : α → β → Prop} {left : List α} {right : List β}
    (related : List.Forall₂ relation left right) {second : β} (member : second ∈ right) :
    ∃ first ∈ left, relation first second := by
  induction related with
  | nil => cases member
  | cons together _ ih =>
      rcases List.mem_cons.mp member with rfl | member
      · exact ⟨_, List.mem_cons_self, together⟩
      · obtain ⟨first, firstMem, othersTogether⟩ := ih member
        exact ⟨first, List.mem_cons_of_mem _ firstMem, othersTogether⟩

theorem settleAll?_items {items : List (Value (Option ν))} {values : List (Value ν)}
    (settled : Value.settleAll? items = some values) :
    List.Forall₂ (fun item value => item.settle? = some value) items values := by
  induction items generalizing values with
  | nil =>
      simp only [Value.settleAll?, Option.some.injEq] at settled
      simp [← settled]
  | cons item rest ih =>
      simp only [Value.settleAll?, Option.pure_def, Option.bind_eq_bind,
        Option.bind_eq_some_iff, Option.some.injEq] at settled
      obtain ⟨first, firstSettled, others, othersSettled, rfl⟩ := settled
      exact .cons firstSettled (ih othersSettled)

theorem settle?_entries {draft : Table (Option ν)} {table : Table ν}
    (settled : Table.settle? draft = some table) :
    List.Forall₂ (fun source entry => source.1 = entry.1 ∧ source.2.settle? = some entry.2)
      draft table := by
  induction draft generalizing table with
  | nil =>
      simp only [Table.settle?, Option.some.injEq] at settled
      simp [← settled]
  | cons source rest ih =>
      obtain ⟨key, value⟩ := source
      simp only [Table.settle?, Option.pure_def, Option.bind_eq_bind, Option.bind_eq_some_iff,
        Option.some.injEq] at settled
      obtain ⟨first, firstSettled, others, othersSettled, rfl⟩ := settled
      exact .cons ⟨rfl, firstSettled⟩ (ih othersSettled)

theorem keysOf_settle {draft : Table (Option ν)} {table : Table ν}
    (settled : Table.settle? draft = some table) : keysOf table = keysOf draft := by
  have entries := settle?_entries settled
  clear settled
  induction entries with
  | nil => rfl
  | cons first _ ih => simp only [keysOf, List.map_cons, first.1] at ih ⊢; rw [ih]

theorem Value.Distinct.settle {draft : Value (Option ν)} (distinct : draft.Distinct) {value : Value ν}
    (settled : draft.settle? = some value) : value.Distinct := by
  induction distinct generalizing value with
  | text | boolean | time =>
      simp only [Value.settle?, Option.some.injEq] at settled
      subst settled
      constructor
  | number =>
      simp only [Value.settle?, Option.map_eq_some_iff] at settled
      obtain ⟨number, -, rfl⟩ := settled
      constructor
  | array items _ ih =>
      simp only [Value.settle?, Option.map_eq_some_iff] at settled
      obtain ⟨values, valuesSettled, rfl⟩ := settled
      refine .array values fun value member => ?_
      obtain ⟨item, itemMem, itemSettled⟩ := exists_left (settleAll?_items valuesSettled) member
      exact ih item itemMem itemSettled
  | table entries once _ ih =>
      simp only [Value.settle?, Option.map_eq_some_iff] at settled
      obtain ⟨table, tableSettled, rfl⟩ := settled
      refine .table table (by rwa [keysOf_settle tableSettled]) fun entry member => ?_
      obtain ⟨source, sourceMem, -, sourceSettled⟩ :=
        exists_left (settle?_entries tableSettled) member
      exact ih source sourceMem sourceSettled

theorem Table.Distinct.settle {draft : Table (Option ν)} (distinct : Table.Distinct draft)
    {table : Table ν} (settled : Table.settle? draft = some table) : Table.Distinct table :=
  (distinct.value.settle (by rw [Value.settle?, settled]; rfl)).of_table

/-! ## Defining a table -/

inductive Node.Distinct : Node → Prop where
  | leaf {value : Draft} (distinct : value.Distinct) : Distinct (.leaf value)
  | table (origin : Origin) {entries : Entries} (once : (keysOf entries).Nodup)
      (inner : ∀ entry ∈ entries, Distinct entry.2) : Distinct (.table origin entries)
  | tables {elements : List Entries} (once : ∀ entries ∈ elements, (keysOf entries).Nodup)
      (inner : ∀ entries ∈ elements, ∀ entry ∈ entries, Distinct entry.2) :
      Distinct (.tables elements)

structure Entries.Distinct (entries : Entries) : Prop where
  once : (keysOf entries).Nodup
  inner : ∀ entry ∈ entries, entry.2.Distinct

theorem valuesOf_eq (entries : Entries) :
    Node.valuesOf entries = entries.map fun entry => (entry.1, entry.2.toValue) := by
  induction entries with
  | nil => rfl
  | cons entry rest ih => rw [Node.valuesOf, ih, List.map_cons]

theorem tablesOf_eq (elements : List Entries) :
    Node.tablesOf elements = elements.map fun entries => .table (Node.valuesOf entries) := by
  induction elements with
  | nil => rfl
  | cons entries rest ih => rw [Node.tablesOf, ih, List.map_cons]

theorem keysOf_valuesOf (entries : Entries) : keysOf (Node.valuesOf entries) = keysOf entries := by
  simp [keysOf, valuesOf_eq]

theorem Table.Distinct.of_valuesOf {entries : Entries} (once : (keysOf entries).Nodup)
    (inner : ∀ entry ∈ entries, entry.2.toValue.Distinct) :
    Table.Distinct (Node.valuesOf entries) := by
  refine ⟨by rwa [keysOf_valuesOf], fun entry member => ?_⟩
  rw [valuesOf_eq] at member
  obtain ⟨source, sourceMem, rfl⟩ := List.mem_map.mp member
  exact inner source sourceMem

theorem Node.Distinct.toValue {node : Node} (distinct : node.Distinct) : node.toValue.Distinct := by
  induction distinct with
  | leaf distinct => exact distinct
  | table origin once _ ih => exact (Table.Distinct.of_valuesOf once ih).value
  | @tables elements once _ ih =>
      refine .array _ fun item member => ?_
      rw [List.mem_reverse, tablesOf_eq] at member
      obtain ⟨entries, entriesMem, rfl⟩ := List.mem_map.mp member
      exact (Table.Distinct.of_valuesOf (once entries entriesMem) (ih entries entriesMem)).value

theorem Entries.Distinct.values {entries : Entries} (distinct : entries.Distinct) :
    Table.Distinct (Node.valuesOf entries) :=
  .of_valuesOf distinct.once fun entry member => (distinct.inner entry member).toValue

theorem Entries.Distinct.table {entries : Entries} (distinct : entries.Distinct) (origin : Origin) :
    (Node.table origin entries).Distinct :=
  .table origin distinct.once distinct.inner

theorem Node.Distinct.entries {origin : Origin} {entries : Entries}
    (distinct : (Node.table origin entries).Distinct) : entries.Distinct := by
  cases distinct with
  | table _ once inner => exact ⟨once, inner⟩

theorem distinct_tables_iff (elements : List Entries) :
    (Node.tables elements).Distinct ↔ ∀ entries ∈ elements, entries.Distinct := by
  constructor
  · intro distinct entries member
    cases distinct with
    | tables once inner => exact ⟨once entries member, inner entries member⟩
  · intro each
    exact .tables (fun entries member => (each entries member).once)
      (fun entries member => (each entries member).inner)

namespace Entries

theorem distinct_nil : Distinct [] := ⟨List.nodup_nil, by simp⟩

theorem keysOf_alter {key : String} {change : Option Node → Option Node} {entries altered : Entries}
    (done : alter key change entries = some altered) :
    keysOf altered = keysOf entries ∨
      key ∉ keysOf entries ∧ keysOf altered = keysOf entries ++ [key] := by
  induction entries generalizing altered with
  | nil =>
      simp only [alter, Option.map_eq_some_iff] at done
      obtain ⟨node, -, rfl⟩ := done
      exact .inr ⟨by simp [keysOf], rfl⟩
  | cons entry rest ih =>
      obtain ⟨other, node⟩ := entry
      by_cases same : other = key
      · simp only [alter, if_pos same, Option.map_eq_some_iff] at done
        obtain ⟨changed, -, rfl⟩ := done
        exact .inl rfl
      · simp only [alter, if_neg same, Option.map_eq_some_iff] at done
        obtain ⟨tail, tailDone, rfl⟩ := done
        rcases ih tailDone with kept | ⟨absent, added⟩
        · exact .inl (congrArg (other :: ·) kept)
        · refine .inr ⟨?_, congrArg (other :: ·) added⟩
          exact List.not_mem_cons_of_ne_of_not_mem (Ne.symm same) absent

/-- What stands in a changed table has stood there before, or is what the change gives. -/
theorem mem_alter {key : String} {change : Option Node → Option Node} {entries altered : Entries}
    (done : alter key change entries = some altered) {entry : String × Node}
    (member : entry ∈ altered) :
    entry ∈ entries ∨
      ∃ before : Option Node, (∀ node, before = some node → ∃ name, (name, node) ∈ entries) ∧
        change before = some entry.2 := by
  induction entries generalizing altered with
  | nil =>
      simp only [alter, Option.map_eq_some_iff] at done
      obtain ⟨node, changed, rfl⟩ := done
      rw [List.mem_singleton] at member
      subst member
      exact .inr ⟨none, by simp, changed⟩
  | cons first rest ih =>
      obtain ⟨other, node⟩ := first
      by_cases same : other = key
      · simp only [alter, if_pos same, Option.map_eq_some_iff] at done
        obtain ⟨changed, changedEq, rfl⟩ := done
        rcases List.mem_cons.mp member with rfl | member
        · exact .inr ⟨some node, by rintro _ ⟨⟩; exact ⟨other, by simp⟩, changedEq⟩
        · exact .inl (List.mem_cons_of_mem _ member)
      · simp only [alter, if_neg same, Option.map_eq_some_iff] at done
        obtain ⟨tail, tailDone, rfl⟩ := done
        rcases List.mem_cons.mp member with rfl | member
        · exact .inl List.mem_cons_self
        · rcases ih tailDone member with stood | ⟨before, source, changed⟩
          · exact .inl (List.mem_cons_of_mem _ stood)
          · refine .inr ⟨before, fun node found => ?_, changed⟩
            obtain ⟨name, stood⟩ := source node found
            exact ⟨name, List.mem_cons_of_mem _ stood⟩

theorem Distinct.alter {key : String} {change : Option Node → Option Node}
    {entries altered : Entries} (distinct : entries.Distinct)
    (keeps : ∀ before after, (∀ node, before = some node → node.Distinct) →
      change before = some after → after.Distinct)
    (done : Entries.alter key change entries = some altered) : altered.Distinct := by
  constructor
  · rcases keysOf_alter done with kept | ⟨absent, added⟩
    · rw [kept]
      exact distinct.once
    · rw [added]
      exact List.nodup_append.mpr ⟨distinct.once, by simp, by
        rintro a aMem b bMem rfl
        rw [List.mem_singleton] at bMem
        exact absent (bMem ▸ aMem)⟩
  · intro entry member
    rcases mem_alter done member with stood | ⟨before, source, changed⟩
    · exact distinct.inner entry stood
    · refine keeps before entry.2 (fun node found => ?_) changed
      obtain ⟨name, stood⟩ := source node found
      exact distinct.inner _ stood

/-- A change at the end of a path that keeps keys apart there keeps them apart everywhere. -/
theorem Distinct.descend {dotted : Bool} {change : Origin → Entries → Option Entries}
    (keeps : ∀ origin inner after, inner.Distinct → change origin inner = some after →
      after.Distinct) {path : List String} {origin : Origin} {entries altered : Entries}
    (distinct : entries.Distinct)
    (done : Entries.descend dotted change path origin entries = some altered) :
    altered.Distinct := by
  induction path generalizing origin entries altered with
  | nil => exact keeps origin entries altered distinct done
  | cons key path ih =>
      -- each case takes the way below the key, where the rest of the path keeps keys apart
      rw [Entries.descend] at done
      refine distinct.alter (fun before after beforeDistinct changed => ?_) done
      match before with
      | none =>
          simp only [Option.map_eq_some_iff] at changed
          obtain ⟨made, madeDone, rfl⟩ := changed
          exact (ih distinct_nil madeDone).table _
      | some (.table origin inner) =>
          have innerDistinct := (beforeDistinct _ rfl).entries
          simp only at changed
          split at changed
          · cases changed
          · simp only [Option.map_eq_some_iff] at changed
            obtain ⟨made, madeDone, rfl⟩ := changed
            exact (ih innerDistinct madeDone).table _
      | some (.tables (latest :: others)) =>
          have each := (distinct_tables_iff _).mp (beforeDistinct _ rfl)
          simp only [Option.map_eq_some_iff] at changed
          obtain ⟨made, madeDone, rfl⟩ := changed
          have madeDistinct := ih (each latest (by simp)) madeDone
          refine (distinct_tables_iff _).mpr fun element member => ?_
          rcases List.mem_cons.mp member with rfl | member
          · exact madeDistinct
          · exact each element (by simp [member])
      | some (.tables []) => cases changed
      | some (.leaf _) => cases changed

theorem Distinct.define {entries defined : Entries} (distinct : entries.Distinct)
    {setting : Setting} (value : setting.value.Distinct)
    (done : entries.define setting = some defined) : defined.Distinct := by
  refine distinct.descend (fun origin inner after innerDistinct changed => ?_) done
  split at changed
  · cases changed
  · refine innerDistinct.alter (fun before node _ added => ?_) changed
    match before with
    | none =>
        cases added
        exact .leaf value
    | some _ => cases added

theorem Distinct.foldlM {step : Entries → α → Option Entries} {items : List α}
    (keeps : ∀ item ∈ items, ∀ entries stepped : Entries, entries.Distinct →
      step entries item = some stepped → stepped.Distinct)
    {entries last : Entries} (distinct : entries.Distinct)
    (done : items.foldlM step entries = some last) : last.Distinct := by
  induction items generalizing entries with
  | nil =>
      cases done
      exact distinct
  | cons item rest ih =>
      simp only [List.foldlM_cons, Option.bind_eq_bind, Option.bind_eq_some_iff] at done
      obtain ⟨middle, first, others⟩ := done
      have middleDistinct := keeps item (by simp) entries middle distinct first
      exact ih (fun other member => keeps other (by simp [member])) middleDistinct others

theorem Distinct.defineAll {settings : List Setting} {entries defined : Entries}
    (distinct : entries.Distinct) (values : ∀ setting ∈ settings, setting.value.Distinct)
    (done : entries.defineAll settings = some defined) : defined.Distinct :=
  distinct.foldlM (fun setting member _ _ before => before.define (values setting member)) done

theorem Distinct.defineSection {entries defined : Entries} (distinct : entries.Distinct)
    {part : Section} (values : ∀ setting ∈ part.settings, setting.value.Distinct)
    (done : entries.defineSection part = some defined) : defined.Distinct := by
  refine distinct.descend (fun origin inner after innerDistinct changed => ?_) done
  refine innerDistinct.alter (fun before node beforeDistinct added => ?_) changed
  match before with
  | none =>
      simp only [Option.map_eq_some_iff] at added
      obtain ⟨table, tableDone, rfl⟩ := added
      have tableDistinct := distinct_nil.defineAll values tableDone
      split
      · exact (distinct_tables_iff _).mpr (by simpa using tableDistinct)
      · exact tableDistinct.table _
  | some (.tables elements) =>
      have each := (distinct_tables_iff _).mp (beforeDistinct _ rfl)
      simp only at added
      split at added
      · simp only [Option.map_eq_some_iff] at added
        obtain ⟨table, tableDone, rfl⟩ := added
        refine (distinct_tables_iff _).mpr fun element member => ?_
        rcases List.mem_cons.mp member with rfl | member
        · exact distinct_nil.defineAll values tableDone
        · exact each element member
      · cases added
  | some (.table .passed passed) =>
      simp only at added
      split at added
      · cases added
      · simp only [Option.map_eq_some_iff] at added
        obtain ⟨table, tableDone, rfl⟩ := added
        exact ((beforeDistinct _ rfl).entries.defineAll values tableDone).table _
  | some (.table .header _) => cases added
  | some (.table .dotted _) => cases added
  | some (.leaf _) => cases added

end Entries

theorem tableOf?_distinct {settings : List Setting} {table : Table (Option Number)}
    (values : ∀ setting ∈ settings, setting.value.Distinct)
    (done : tableOf? settings = some table) : Table.Distinct table := by
  simp only [tableOf?, Option.map_eq_some_iff] at done
  obtain ⟨entries, entriesDone, rfl⟩ := done
  exact (Entries.distinct_nil.defineAll values entriesDone).values

/-! ## Reading a text -/

namespace Reader

/-- Everything that a reader gives has a property. -/
def Gives (reader : Reader α) (property : α → Prop) : Prop :=
  ∀ input value rest, reader input = some (value, rest) → property value

variable {property : α → Prop} {property' : β → Prop}

theorem gives_any (reader : Reader α) : Gives reader fun _ => True :=
  fun _ _ _ _ => trivial

theorem gives_pure {value : α} (has : property value) : Gives (pure value) property := by
  intro input other rest read
  cases read
  exact has

theorem gives_failure : Gives (failure : Reader α) property := by
  intro input value rest read
  cases read

theorem gives_bind {first : Reader α} {next : α → Reader β} (given : Gives first property)
    (thenGives : ∀ value, property value → Gives (next value) property') :
    Gives (first >>= next) property' := by
  intro input value rest read
  simp only [bind, StateT.bind, Option.bind_eq_some_iff] at read
  obtain ⟨⟨middle, left⟩, firstRead, nextRead⟩ := read
  exact thenGives middle (given _ _ _ firstRead) _ _ _ nextRead

theorem gives_then {first : Reader α} {next : α → Reader β}
    (thenGives : ∀ value, Gives (next value) property') : Gives (first >>= next) property' :=
  gives_bind (gives_any first) fun value _ => thenGives value

theorem gives_map {reader : Reader α} {change : α → β}
    (given : Gives reader fun value => property' (change value)) :
    Gives (change <$> reader) property' := by
  rw [map_eq_pure_bind]
  exact gives_bind given fun value has => gives_pure has

theorem gives_orElse {first second : Reader α} (firstGives : Gives first property)
    (secondGives : Gives second property) : Gives (first <|> second) property := by
  intro input value rest read
  simp only [HOrElse.hOrElse, OrElse.orElse, Alternative.orElse, StateT.orElse] at read
  cases firstRead : first input with
  | none =>
      rw [firstRead] at read
      exact secondGives _ _ _ read
  | some result =>
      rw [firstRead] at read
      cases read
      exact firstGives _ _ _ firstRead

theorem gives_many {item : Reader α} (given : Gives item property) :
    Gives (many item) fun items => ∀ each ∈ items, property each := by
  suffices upTo : ∀ fuel, Gives (manyUpTo item fuel) fun items => ∀ each ∈ items, property each from
    fun input => upTo input.length input
  intro fuel
  induction fuel with
  | zero => exact gives_pure (by simp)
  | succ fuel ih =>
      intro input items rest read
      simp only [manyUpTo] at read
      cases itemRead : item input with
      | none =>
          rw [itemRead] at read
          cases read
          simp
      | some result =>
          obtain ⟨first, left⟩ := result
          simp only [itemRead] at read
          cases othersRead : manyUpTo item fuel left with
          | none => simp [othersRead] at read
          | some others =>
              simp only [othersRead, Option.some.injEq, Prod.mk.injEq] at read
              obtain ⟨rfl, -⟩ := read
              exact List.forall_mem_cons.mpr
                ⟨given _ _ _ itemRead, ih _ _ _ othersRead⟩

theorem gives_separated {item : Reader α} (given : Gives item property) (close : Char) :
    Gives (separated item close) fun items => ∀ each ∈ items, property each := by
  suffices upTo : ∀ fuel, Gives (separatedUpTo item close fuel)
      fun items => ∀ each ∈ items, property each from
    fun input => upTo input.length input
  intro fuel
  induction fuel with
  | zero => exact gives_failure
  | succ fuel ih =>
      refine gives_then fun _ => gives_then fun closed => ?_
      cases closed with
      | true => exact gives_pure (by simp)
      | false =>
          refine gives_bind given fun first has => gives_then fun _ => gives_then fun comma => ?_
          cases comma with
          | true =>
              exact gives_bind ih fun others each => gives_pure (List.forall_mem_cons.mpr ⟨has, each⟩)
          | false => exact gives_then fun _ => gives_pure (by simpa using has)

theorem readAll?_gives {reader : Reader α} (given : Gives reader property) {text : List Char}
    {value : α} (read : readAll? reader text = some value) : property value := by
  rw [readAll?] at read
  split at read
  · next all =>
      cases read
      exact given _ _ _ all
  · cases read

end Reader

open Reader

theorem ofLiteral?_distinct {literal : List Char} {value : Draft}
    (done : ofLiteral? literal = some value) : value.Distinct := by
  rw [ofLiteral?] at done
  split at done
  · cases done
    constructor
  split at done
  · cases done
    constructor
  split at done
  · cases done
    constructor
  · rw [Option.map_eq_some_iff] at done
    obtain ⟨number, -, rfl⟩ := done
    constructor

theorem scalar_gives : Gives scalar Value.Distinct := by
  refine gives_orElse (gives_map fun _ _ _ _ => .text _) (gives_then fun literal => ?_)
  split
  · next value given => exact gives_pure (ofLiteral?_distinct given)
  · exact gives_failure

theorem setting_gives {gap : Reader Unit} {value : Reader Draft}
    (given : Gives value Value.Distinct) :
    Gives (setting gap value) fun setting => setting.value.Distinct := by
  refine gives_then fun parts => gives_then fun _ => gives_then fun _ => gives_then fun _ => ?_
  exact gives_bind given fun value distinct => gives_pure distinct

theorem value_gives (depth : Nat) : Gives (value depth) Value.Distinct := by
  induction depth with
  | zero => exact scalar_gives
  | succ depth ih =>
      -- a table inside of a line is defined setting by setting, like a document
      refine gives_then fun isArray => ?_
      cases isArray with
      | true => exact gives_bind (gives_separated ih _) fun items each => gives_pure (.array items each)
      | false =>
          refine gives_then fun isTable => ?_
          cases isTable with
          | true =>
              refine gives_bind (gives_separated (setting_gives ih) _) fun settings values => ?_
              split
              · next table done => exact gives_pure (tableOf?_distinct values done).value
              · exact gives_failure
          | false => exact scalar_gives

theorem settingLine_gives : Gives settingLine fun setting => setting.value.Distinct :=
  gives_then fun _ => gives_bind (setting_gives (value_gives maxDepth)) fun _ distinct =>
    gives_then fun _ => gives_pure distinct

theorem sectionLines_gives :
    Gives sectionLines fun part => ∀ setting ∈ part.settings, setting.value.Distinct := by
  refine gives_then fun _ => gives_then fun _ => gives_then fun repeated => gives_then fun _ =>
    gives_then fun header => gives_then fun _ => gives_then fun _ => gives_then fun _ => ?_
  exact gives_bind (gives_many settingLine_gives) fun settings each => gives_pure each

theorem parts_gives :
    Gives parts fun parts => (∀ setting ∈ parts.1, setting.value.Distinct) ∧
      ∀ part ∈ parts.2, ∀ setting ∈ part.settings, setting.value.Distinct := by
  refine gives_then fun _ => gives_bind (gives_many settingLine_gives) fun settings values => ?_
  refine gives_bind (gives_many sectionLines_gives) fun sections each => gives_then fun _ => ?_
  exact gives_pure ⟨values, each⟩

theorem parse?_distinct {text : String} {draft : Table (Option Number)}
    (done : parse? text = some draft) : Table.Distinct draft := by
  simp only [parse?, Option.bind_eq_bind, Option.bind_eq_some_iff, Option.pure_def,
    Option.some.injEq] at done
  obtain ⟨⟨settings, sections⟩, read, topmost, topmostDone, entries, sectionsDone, rfl⟩ := done
  obtain ⟨values, each⟩ := readAll?_gives parts_gives read
  have topmostDistinct := Entries.distinct_nil.defineAll values topmostDone
  have distinct := topmostDistinct.foldlM
    (fun part member _ _ before => before.defineSection (each part member)) sectionsDone
  exact distinct.values

end GuestConsole.Toml
