/-!
# Values of a document

A document in the TOML format is a table: keys with values, some of which are
tables again.  In a draft of a document the numbers are still open: their literals
are well formed, but not each of them needs to have a number.
-/

set_option autoImplicit false

namespace GuestConsole.Toml

/-- A value whose numbers are of type `ν`.  A point in time is kept as it is
written. -/
inductive Value (ν : Type) where
  | text (value : String)
  | number (value : ν)
  | boolean (value : Bool)
  | time (literal : String)
  | array (items : List (Value ν))
  | table (entries : List (String × Value ν))
  deriving Inhabited

abbrev Table (ν : Type) := List (String × Value ν)

/-- A number.  A floating-point number is kept as it is written. -/
inductive Number where
  | integer (value : Int)
  | float (literal : String)
  deriving DecidableEq, Repr

/-- A value in which a literal that has no number may stand. -/
abbrev Draft := Value (Option Number)

variable {ν : Type}

mutual

def Value.settle? : Value (Option ν) → Option (Value ν)
  | .text value => some (.text value)
  | .number value => value.map .number
  | .boolean value => some (.boolean value)
  | .time literal => some (.time literal)
  | .array items => (Value.settleAll? items).map .array
  | .table entries => (Table.settle? entries).map .table

def Value.settleAll? : List (Value (Option ν)) → Option (List (Value ν))
  | [] => some []
  | item :: rest => do return (← item.settle?) :: (← Value.settleAll? rest)

def Table.settle? : List (String × Value (Option ν)) → Option (Table ν)
  | [] => some []
  | (key, value) :: rest => do return (key, ← value.settle?) :: (← Table.settle? rest)

end

end GuestConsole.Toml
