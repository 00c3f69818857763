import GuestConsole.Toml.Reader

/-!
# Blanks, line ends and comments

A line ends with a line feed, before which a carriage return may stand.  Control
characters other than the tab are allowed nowhere else.
-/

set_option autoImplicit false

namespace GuestConsole.Toml

open Reader

def isPrintable (c : Char) : Bool := c = '\t' || (' ' ≤ c && c ≠ '\x7f')

def isSpace (c : Char) : Bool := c = ' ' || c = '\t'

def spaces : Reader Unit := discard (takeWhile isSpace)

def newline : Reader (List Char) :=
  (char '\n' *> pure ['\n']) <|> (chars ['\r', '\n'] *> pure ['\r', '\n'])

def comment : Reader Unit := char '#' *> discard (takeWhile isPrintable)

def blanks : Reader Unit :=
  discard (many (discard (satisfy isSpace) <|> discard newline <|> comment))

def endOfLine : Reader Unit := do
  spaces
  comment <|> pure ()
  discard newline <|> done

/-- Items between commas, up to the closing bracket; a comma may follow the last
one.  No more than `fuel` items are read. -/
def separatedUpTo {α : Type} (item : Reader α) (close : Char) : Nat → Reader (List α)
  | 0 => failure
  | fuel + 1 => do
      blanks
      if ← accept close then return []
      let first ← item
      blanks
      if ← accept ',' then
        return first :: (← separatedUpTo item close fuel)
      char close
      return [first]

/-- Items between commas, up to the closing bracket.  Every item but the last takes
a comma with it, so there are no more of them than characters. -/
def separated {α : Type} (item : Reader α) (close : Char) : Reader (List α) := fun input =>
  separatedUpTo item close input.length input

end GuestConsole.Toml
