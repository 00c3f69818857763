import GuestConsole.Toml.Number

/-!
# Points in time

A date, a time of day, or both with or without an offset from universal time.
-/

set_option autoImplicit false

namespace GuestConsole.Toml

open Reader

def field (count limit : Nat) : Reader Nat := do
  let value := ofDigits 10 (← exactly isDecimal count)
  if value ≤ limit then return value else failure

def isLeapYear (year : Nat) : Bool := year % 4 = 0 && (year % 100 ≠ 0 || year % 400 = 0)

def daysIn (year month : Nat) : Nat :=
  if month = 2 then (if isLeapYear year then 29 else 28)
  else if month = 4 || month = 6 || month = 9 || month = 11 then 30
  else 31

def date : Reader Unit := do
  let year ← field 4 9999
  char '-'
  let month ← field 2 12
  char '-'
  let day ← field 2 31
  if 1 ≤ month && 1 ≤ day && day ≤ daysIn year month then pure () else failure

def hoursAndMinutes : Reader Unit := do
  discard (field 2 23)
  char ':'
  discard (field 2 59)

def fraction : Reader Unit := do
  char '.'
  discard (satisfy isDecimal)
  discard (takeWhile isDecimal)

/-- A time of day, in the form 07:32:00.5; seconds and their fraction may be left
out, and a leap second is allowed. -/
def timeOfDay : Reader Unit := do
  hoursAndMinutes
  if ← accept ':' then
    discard (field 2 60)
    fraction <|> pure ()

def offset : Reader Unit :=
  discard (satisfy fun c => c = 'Z' || c = 'z')
    <|> (satisfy (fun c => c = '+' || c = '-') *> hoursAndMinutes)

/-- A date, and behind it perhaps a time of day with or without an offset. -/
def dateAndTime : Reader Unit := do
  date
  (do discard (satisfy fun c => c = 'T' || c = 't' || c = ' ')
      timeOfDay
      offset <|> pure ()) <|> pure ()

def isTime (literal : List Char) : Bool :=
  ((dateAndTime <|> timeOfDay).readAll? literal).isSome

end GuestConsole.Toml
