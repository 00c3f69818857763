/-!
# Readers

A reader takes something from the front of a text and leaves the rest, or fails.
Readers are tried one after the other with `<|>`; one that fails takes nothing.
-/

set_option autoImplicit false

namespace GuestConsole.Toml

/-- Reads an `α` from the front of a text. -/
abbrev Reader (α : Type) := StateT (List Char) Option α

namespace Reader

variable {α : Type}

def satisfy (wanted : Char → Bool) : Reader Char := fun input =>
  match input with
  | [] => none
  | c :: rest => if wanted c then some (c, rest) else none

def char (c : Char) : Reader Unit := discard (satisfy (· == c))

def accept (c : Char) : Reader Bool := (char c *> pure true) <|> pure false

def chars : List Char → Reader Unit
  | [] => pure ()
  | c :: rest => do
      char c
      chars rest

def takeWhile (wanted : Char → Bool) : Reader (List Char) := fun input =>
  some (input.takeWhile wanted, input.dropWhile wanted)

def exactly (wanted : Char → Bool) : Nat → Reader (List Char)
  | 0 => pure []
  | count + 1 => do
      let c ← satisfy wanted
      return c :: (← exactly wanted count)

def done : Reader Unit := fun input => if input.isEmpty then some ((), input) else none

def manyUpTo (item : Reader α) : Nat → Reader (List α)
  | 0 => pure []
  | fuel + 1 => fun input =>
      match item input with
      | none => some ([], input)
      | some (first, rest) =>
          match manyUpTo item fuel rest with
          | none => none
          | some (others, rest) => some (first :: others, rest)

/-- As many items in a row as there are.  Each item takes at least one character,
so there are no more of them than characters. -/
def many (item : Reader α) : Reader (List α) := fun input => manyUpTo item input.length input

def readAll? (reader : Reader α) (text : List Char) : Option α :=
  match reader text with
  | some (value, []) => some value
  | _ => none

end Reader

end GuestConsole.Toml
