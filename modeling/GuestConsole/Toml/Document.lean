import GuestConsole.Toml.Entries
import GuestConsole.Toml.Time

/-!
# Reading a document

A document begins with settings of the topmost table; sections follow, each a
header with settings.  `Toml.parse?` gives the draft of the table that a text denotes.
-/

set_option autoImplicit false

namespace GuestConsole.Toml

open Reader

def isBare (c : Char) : Bool :=
  isDecimal c || ('a' ≤ c && c ≤ 'z') || ('A' ≤ c && c ≤ 'Z') || c = '_' || c = '-'

def bareKey : Reader String := do
  let key ← takeWhile isBare
  if key.isEmpty then failure else return String.ofList key

def simpleKey : Reader String := quoted <|> bareKey

/-- How many parts a key may have, and how deep arrays and tables may stand inside each
other. -/
def maxDepth : Nat := 80

def dottedKey : Reader (List String × String) := do
  let first ← simpleKey
  let others ← many do
    spaces
    char '.'
    spaces
    simpleKey
  let parts := first :: others
  if parts.length ≤ maxDepth then return (parts.dropLast, parts.getLast (by simp [parts]))
  else failure

def endsWord (c : Char) : Bool :=
  isSpace c || c ∈ ['\n', '\r', '#', ',', '=', '[', ']', '\x7b', '\x7d']

def word : Reader (List Char) := takeWhile (!endsWord ·)

def nextWord : Reader (List Char) := do
  let gap ← takeWhile isSpace
  let c ← satisfy fun c => !endsWord c && c ∉ ['.', doubleQuote, singleQuote]
  return gap ++ c :: (← word)

/-- A literal without quotes.  All words up to the end of the value belong to it. -/
def literal : Reader (List Char) := do return (← word) ++ (← many nextWord).flatten

def ofLiteral? (literal : List Char) : Option Draft :=
  if literal = "true".toList then some (.boolean true)
  else if literal = "false".toList then some (.boolean false)
  else if isTime literal then some (.time (String.ofList literal))
  else (integer? literal <|> float? literal).map .number

def scalar : Reader Draft :=
  (Value.text <$> text) <|> do
    match ofLiteral? (← literal) with
    | some value => return value
    | none => failure

def setting (gap : Reader Unit) (value : Reader Draft) : Reader Setting := do
  let (path, key) ← dottedKey
  gap
  char '='
  gap
  return { path, key, value := ← value }

/-- A value in which arrays and tables stand inside each other at most `depth` deep. -/
def value : Nat → Reader Draft
  | 0 => scalar
  | depth + 1 => do
      if ← accept '[' then
        return .array (← separated (value depth) ']')
      else if ← accept '\x7b' then
        match tableOf? (← separated (setting blanks (value depth)) '\x7d') with
        | some table => return .table table
        | none => failure
      else scalar

def settingLine : Reader Setting := do
  blanks
  let setting ← setting spaces (value maxDepth)
  endOfLine
  return setting

def sectionLines : Reader Section := do
  blanks
  char '['
  let repeated ← accept '['
  spaces
  let (path, key) ← dottedKey
  spaces
  chars (if repeated then [']', ']'] else [']'])
  endOfLine
  return { repeated, path, key, settings := ← many settingLine }

def parts : Reader (List Setting × List Section) := do
  discard (char '\ufeff') <|> pure ()
  let settings ← many settingLine
  let sections ← many sectionLines
  blanks
  return (settings, sections)

def parse? (text : String) : Option (Table (Option Number)) := do
  let (settings, sections) ← parts.readAll? text.toList
  let entries ← Entries.defineAll [] settings
  let entries ← sections.foldlM Entries.defineSection entries
  return Node.valuesOf entries

end GuestConsole.Toml
