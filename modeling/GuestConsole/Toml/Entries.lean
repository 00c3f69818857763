import GuestConsole.Toml.Value

/-!
# Tables that are still being defined

A table may be defined in several places, but each of its keys only once, and not
every table may be added to from everywhere.
-/

set_option autoImplicit false

namespace GuestConsole.Toml

inductive Origin where
  | header
  /-- as a part of the path in a header -/
  | passed
  | dotted
  deriving DecidableEq, Repr

inductive Node where
  | leaf (value : Draft)
  | table (origin : Origin) (entries : List (String × Node))
  | tables (elements : List (List (String × Node)))

abbrev Entries := List (String × Node)

mutual

def Node.toValue : Node → Draft
  | .leaf value => value
  | .table _ entries => .table (Node.valuesOf entries)
  | .tables elements => .array (Node.tablesOf elements).reverse

def Node.valuesOf : List (String × Node) → Table (Option Number)
  | [] => []
  | (key, node) :: rest => (key, node.toValue) :: Node.valuesOf rest

def Node.tablesOf : List (List (String × Node)) → List Draft
  | [] => []
  | entries :: rest => .table (Node.valuesOf entries) :: Node.tablesOf rest

end

namespace Entries

def alter (key : String) (change : Option Node → Option Node) : Entries → Option Entries
  | [] => (change none).map fun node => [(key, node)]
  | (other, node) :: rest =>
      if other = key then (change (some node)).map fun node => (other, node) :: rest
      else (alter key change rest).map ((other, node) :: ·)

/-- Changes the table at the end of a path.  The path of a dotted key makes tables of
its own and may not enter those with a header; that of a header leads through tables
of any origin, and into the latest of several. -/
def descend (dotted : Bool) (change : Origin → Entries → Option Entries) :
    List String → Origin → Entries → Option Entries
  | [], origin, entries => change origin entries
  | key :: path, _, entries =>
      entries.alter key fun
        | none =>
            let origin := if dotted then .dotted else .passed
            (descend dotted change path origin []).map (.table origin)
        | some (.table origin inner) =>
            if dotted && origin == .header then none
            else (descend dotted change path origin inner).map (.table origin)
        | some (.tables (latest :: others)) =>
            (descend dotted change path .header latest).map fun latest =>
              .tables (latest :: others)
        | some (.tables []) => none
        | some (.leaf _) => none

end Entries

structure Setting where
  path : List String
  key : String
  value : Draft

/-- Adds a setting to a table.  A dotted key only adds to tables that dotted keys have
made. -/
def Entries.define (entries : Entries) (setting : Setting) : Option Entries :=
  entries.descend true (fun origin inner =>
    if (origin == .dotted) == setting.path.isEmpty then none
    else inner.alter setting.key fun
      | none => some (.leaf setting.value)
      | some _ => none) setting.path .header

def Entries.defineAll (entries : Entries) (settings : List Setting) : Option Entries :=
  settings.foldlM Entries.define entries

def tableOf? (settings : List Setting) : Option (Table (Option Number)) :=
  (Entries.defineAll [] settings).map Node.valuesOf

structure Section where
  repeated : Bool
  path : List String
  key : String
  settings : List Setting

/-- Adds a section to a document.  Its table must be new, unless it has only been passed
by before. -/
def Entries.defineSection (entries : Entries) (part : Section) : Option Entries :=
  entries.descend false (fun _ inner =>
    inner.alter part.key fun
      | none =>
          (Entries.defineAll [] part.settings).map fun table =>
            if part.repeated then .tables [table] else .table .header table
      | some (.tables elements) =>
          if part.repeated then
            (Entries.defineAll [] part.settings).map fun table => .tables (table :: elements)
          else none
      | some (.table .passed passed) =>
          if part.repeated then none
          else (Entries.defineAll passed part.settings).map (.table .header)
      | some _ => none) part.path .header

end GuestConsole.Toml
