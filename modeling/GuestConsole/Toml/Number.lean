import GuestConsole.Toml.Quoted
import GuestConsole.Toml.Value

/-!
# Numbers

A literal is judged by its form alone; whether it has a number is a second question.
It has none if neither a 128-bit integer nor a double can hold the number, if the
mark of a radix stands without digits, or if a decimal goes on behind an underscore
with something other than digits.
-/

set_option autoImplicit false

namespace GuestConsole.Toml

def isDecimal (c : Char) : Bool := '0' ≤ c && c ≤ '9'

def isHexDigit (c : Char) : Bool := (hexDigit? c).isSome

/-- The characters of a literal without its underscores, each of which stands between two
digits. -/
def joined? (isDigit : Char → Bool) : List Char → Option (List Char)
  | [] => some []
  | c :: '_' :: rest =>
      if isDigit c && rest.head?.any isDigit then (joined? isDigit rest).map (c :: ·) else none
  | c :: rest => if c = '_' then none else (joined? isDigit rest).map (c :: ·)

def ofDigits (radix : Nat) (digits : List Char) : Nat :=
  digits.foldl (fun value c => value * radix + (hexDigit? c).getD 0) 0

def Number.ofInt? (value : Int) : Option Number :=
  if -Int.pow 2 127 ≤ value && value < Int.pow 2 128 then some (.integer value) else none

def splitSign : List Char → Bool × List Char
  | '+' :: rest => (false, rest)
  | '-' :: rest => (true, rest)
  | literal => (false, literal)

def signed (negative : Bool) (value : Nat) : Int := if negative then -value else value

def ofRadix? (radix : Nat) (literal : List Char) : Option (Option Number) := do
  let digits ← joined? isHexDigit literal
  if !digits.all fun c => (hexDigit? c).any (· < radix) then none
  else if digits.isEmpty then some none
  else some (Number.ofInt? (ofDigits radix digits))

/-- The number of a literal in decimals.  Its first digit is not zero, unless it is the
only one, and the digits end with the literal or at an underscore. -/
def ofDecimal? (literal : List Char) : Option (Option Number) := do
  let (negative, body) := splitSign literal
  let digits ← joined? isHexDigit body
  let next := (body.dropWhile isDecimal).head?
  if body.isEmpty || (body.head? = some '0' && body.length ≠ 1) then none
  else if next.any (· ≠ '_') || body.any (· ∈ [' ', '.', 'e', 'E']) then none
  else if !digits.all isDecimal then some none
  else some (Number.ofInt? (signed negative (ofDigits 10 digits)))

def integer? : List Char → Option (Option Number)
  | '0' :: 'x' :: rest => ofRadix? 16 rest
  | '0' :: 'o' :: rest => ofRadix? 8 rest
  | '0' :: 'b' :: rest => ofRadix? 2 rest
  | literal => ofDecimal? literal

/-- The decimal `mantissa * 10 ^ exponent` rounds to no double.  The least number
that does not is the midpoint between the largest double and 2^1024.  Only
decimals with 309 digits before the point come near to it. -/
def overflows (mantissa : Nat) (exponent : Int) : Bool :=
  if mantissa = 0 then false
  else
    let places : Int := (Nat.toDigits 10 mantissa).length + exponent
    if places ≠ 309 then places > 309
    else
      (Nat.pow 2 54 - 1) * Nat.pow 2 970 * Nat.pow 10 (-exponent).toNat
        ≤ mantissa * Nat.pow 10 exponent.toNat

def splitFraction : List Char → Option (List Char) × List Char
  | '.' :: rest => (some (rest.takeWhile isDecimal), rest.dropWhile isDecimal)
  | literal => (none, literal)

def exponent? : List Char → Option Int
  | [] => none
  | mark :: rest =>
      let (negative, digits) := splitSign rest
      if (mark = 'e' || mark = 'E') && !digits.isEmpty && digits.all isDecimal then
        some (signed negative (ofDigits 10 digits))
      else none

/-- Whether a decimal rounds to a double.  A fraction or an exponent or both follow the
digits before the point, of which the first is not zero, unless it is the only one. -/
def fits? (body : List Char) : Option Bool := do
  let literal ← joined? isDecimal body
  let whole := literal.takeWhile isDecimal
  let (fraction, rest) := splitFraction (literal.dropWhile isDecimal)
  if whole.isEmpty || (whole.head? = some '0' && whole.length ≠ 1) then none
  else if fraction.any (·.isEmpty) || (fraction.isNone && rest.isEmpty) then none
  else
    let digits := fraction.getD []
    let exponent ← if rest.isEmpty then some 0 else exponent? rest
    return !overflows (ofDigits 10 (whole ++ digits)) (exponent - digits.length)

def float? (literal : List Char) : Option (Option Number) := do
  let (_, body) := splitSign literal
  let fits ← if body = ['i', 'n', 'f'] || body = ['n', 'a', 'n'] then some true
    else fits? body
  return if fits then some (.float (String.ofList literal)) else none

end GuestConsole.Toml
