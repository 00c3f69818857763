import GuestConsole.Toml.Blank

/-!
# Quoted texts

Four forms: between double quotes with escapes, between single quotes without,
and both of them between three quotes over several lines.
-/

set_option autoImplicit false

namespace GuestConsole.Toml

open Reader

def doubleQuote : Char := '\x22'
def singleQuote : Char := '\x27'
def backslash : Char := '\x5c'

def hexDigit? (c : Char) : Option Nat :=
  if '0' ≤ c && c ≤ '9' then some (c.toNat - '0'.toNat)
  else if 'a' ≤ c && c ≤ 'f' then some (c.toNat - 'a'.toNat + 10)
  else if 'A' ≤ c && c ≤ 'F' then some (c.toNat - 'A'.toNat + 10)
  else none

def codePoint (digits : Nat) : Reader Char := do
  let code ← exactly (fun c => (hexDigit? c).isSome) digits
  let value := code.foldl (fun value c => value * 16 + (hexDigit? c).getD 0) 0
  if Nat.isValidChar value then return Char.ofNat value else failure

def escapes : List (Char × Char) :=
  [('b', '\x08'), ('t', '\t'), ('n', '\n'), ('f', '\x0c'), ('r', '\r'), ('e', '\x1b'),
    (doubleQuote, doubleQuote), (backslash, backslash)]

def escaped : Reader Char := do
  char backslash
  let c ← satisfy fun _ => true
  match escapes.lookup c with
  | some meaning => return meaning
  | none =>
      if c = 'x' then codePoint 2
      else if c = 'u' then codePoint 4
      else if c = 'U' then codePoint 8
      else failure

def basicChar : Reader Char :=
  satisfy (fun c => isPrintable c && c ≠ doubleQuote && c ≠ backslash) <|> escaped

def literalChar : Reader Char := satisfy fun c => isPrintable c && c ≠ singleQuote

def quotedBy (quote : Char) (inner : Reader Char) : Reader String := do
  char quote
  let content ← many inner
  char quote
  return String.ofList content

def quoted : Reader String := quotedBy doubleQuote basicChar <|> quotedBy singleQuote literalChar

/-- A backslash at the end of a line, which takes with it the blanks and the line
ends up to the next text. -/
def lineJoin : Reader Unit := do
  char backslash
  spaces
  discard newline
  discard (many (discard (satisfy isSpace) <|> discard newline))

def looseQuotes (quote : Char) : Reader (List Char) := fun input =>
  let quotes := input.takeWhile (· == quote)
  if quotes.length = 1 || quotes.length = 2 then some (quotes, input.drop quotes.length) else none

/-- The closing quotes of a text over several lines.  Of up to five in a row the
last three close it and the others belong to the text. -/
def closing (quote : Char) : Reader (List Char) := fun input =>
  let quotes := input.takeWhile (· == quote)
  if 3 ≤ quotes.length && quotes.length ≤ 5 then
    some (quotes.drop 3, input.drop quotes.length)
  else none

/-- A text over several lines.  A line end right behind the opening quotes does not
belong to it. -/
def multilineBy (quote : Char) (inner : Reader (List Char)) : Reader String := do
  chars [quote, quote, quote]
  discard newline <|> pure ()
  let content ← many (inner <|> newline <|> looseQuotes quote)
  let last ← closing quote
  return String.ofList (content.flatten ++ last)

def multiline : Reader String :=
  multilineBy doubleQuote ((lineJoin *> pure []) <|> ((fun c => [c]) <$> basicChar))
    <|> multilineBy singleQuote ((fun c => [c]) <$> literalChar)

def text : Reader String := multiline <|> quoted

end GuestConsole.Toml
