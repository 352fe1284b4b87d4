import Crosswalk.Decimal
import Crosswalk.Text.Digit
import Crosswalk.Text.Reading

/-!
# Numbers and dates of a TOML document

A bare value is told by its whole run of letters, digits and the signs `+`, `-`, `.`, `:` and `_`,
since nothing that may follow a value is one of these. Here is decided which runs are numbers or
dates. An underscore stands between two digits, an integer fits into 64 bits, and a number with a
point or an exponent must not be too large for a double-precision one, unless it is negative. A day
must be in the calendar.
-/

namespace Crosswalk.Toml

open Text Reading

/-- Whether a run is read without anything being left. -/
def reads (reading : Reading Unit) (run : List Char) : Bool :=
  (reading.all? run).isSome

/-- Reads exactly so many digits as a number between two others. -/
def readPart (length least most : Nat) : Reading Nat := do
  let digits := (← get).take length
  set ((← get).drop length)
  guard (digits.length = length ∧ digits.all Char.isDigit)
  let n := valueIn 10 digits
  guard (least ≤ n ∧ n ≤ most)
  return n

/-! ### Numbers -/

/-- The digits of a group in which underscores stand between digits, if it is one. -/
def groupDigits? (isDigit : Char → Bool) : List Char → Option (List Char)
  | [] => none
  | [c] => if isDigit c then some [c] else none
  | c :: '_' :: rest => if isDigit c then (groupDigits? isDigit rest).map (c :: ·) else none
  | c :: rest => if isDigit c then (groupDigits? isDigit rest).map (c :: ·) else none

/-- Whether a run is an integer in a base other than ten, behind its two-letter mark. -/
def isBasedInteger (base : Nat) (isDigit : Char → Bool) (run : List Char) : Bool :=
  (groupDigits? isDigit run).any fun digits => valueIn base digits ≤ 9223372036854775807

/-- Takes off a sign. -/
def unsigned : List Char → Bool × List Char
  | '-' :: rest => (true, rest)
  | '+' :: rest => (false, rest)
  | run => (false, run)

/-- The digits of a decimal integer without its sign. It does not begin with a zero, unless it is
one. -/
def wholeDigits? (run : List Char) : Option (List Char) :=
  (groupDigits? Char.isDigit run).filter fun digits => digits.head? ≠ some '0' || digits.length == 1

def isDecimalInteger (run : List Char) : Bool :=
  let (negative, rest) := unsigned run
  (wholeDigits? rest).any fun digits =>
    valueIn 10 digits ≤ 9223372036854775807 + if negative then 1 else 0

def isInteger (run : List Char) : Bool :=
  match run with
  | '0' :: 'x' :: rest => isBasedInteger 16 isHexDigit rest
  | '0' :: 'o' :: rest => isBasedInteger 8 (fun c => '0' ≤ c && c ≤ '7') rest
  | '0' :: 'b' :: rest => isBasedInteger 2 (fun c => c == '0' || c == '1') rest
  | run => isDecimalInteger run

/-- Whether a decimal is at least halfway from the largest double-precision number to the next power
of two, so that it is rounded to infinity. -/
def tooLarge (d : Decimal) : Bool :=
  let places := (Nat.toDigits 10 d.digits).length + d.exponent
  if d.digits = 0 ∨ places < 309 then false
  else if places > 309 then true
  else
    decide ((Nat.pow 2 1024 - Nat.pow 2 970) * Nat.pow 10 (-d.exponent).toNat ≤
      d.digits * Nat.pow 10 d.exponent.toNat)

/-- The value of an exponent behind its letter, if it is one. -/
def exponent? (run : List Char) : Option Int :=
  let (negative, rest) := unsigned run
  (groupDigits? Char.isDigit rest).map fun digits =>
    if negative then -(valueIn 10 digits : Int) else valueIn 10 digits

/-- The value of a number with a point, an exponent or both, without its sign. -/
def fractional? (run : List Char) : Option Decimal := do
  let mantissa := run.takeWhile fun c => c ≠ 'e' ∧ c ≠ 'E'
  let rest := run.drop mantissa.length
  let exponent ← if rest = [] then some 0 else exponent? (rest.drop 1)
  let whole ← wholeDigits? (mantissa.takeWhile (· ≠ '.'))
  let fraction ←
    match mantissa.dropWhile (· ≠ '.') with
    | [] => if rest = [] then none else some []
    | _ :: fraction => groupDigits? Char.isDigit fraction
  return ⟨valueIn 10 (whole ++ fraction), exponent - fraction.length⟩

def isFloat (run : List Char) : Bool :=
  let (negative, rest) := unsigned run
  rest = ['i', 'n', 'f'] || rest = ['n', 'a', 'n'] ||
    (fractional? rest).any fun d => negative || !tooLarge d

/-! ### Dates -/

/-- The number of days of a month. -/
def daysIn (year month : Nat) : Nat :=
  if month = 2 then
    if year % 4 = 0 ∧ (year % 100 ≠ 0 ∨ year % 400 = 0) then 29 else 28
  else if month = 4 ∨ month = 6 ∨ month = 9 ∨ month = 11 then 30
  else 31

def readDate : Reading Unit := do
  let year ← readPart 4 0 9999
  expect '-'
  let month ← readPart 2 1 12
  expect '-'
  let _ ← readPart 2 1 (daysIn year month)

/-- Reads a time of the day. The second may be a leap second. -/
def readTime : Reading Unit := do
  let _ ← readPart 2 0 23
  expect ':'
  let _ ← readPart 2 0 59
  expect ':'
  let _ ← readPart 2 0 60
  if ← accept '.' then
    let fraction ← run Char.isDigit
    guard (fraction ≠ [])

/-- Reads a time of the day, which may be followed by its distance from universal time. -/
def readOffsetTime : Reading Unit := do
  readTime
  match ← peek? with
  | some 'Z' | some 'z' => discard next
  | some '+' | some '-' =>
    discard next
    let _ ← readPart 2 0 23
    expect ':'
    let _ ← readPart 2 0 59
  | _ => return

/-- Reads a date, which may be followed by a time behind the letter T. -/
def readDateTime : Reading Unit := do
  readDate
  if ← acceptAny ['T', 't'] then readOffsetTime

def isMoment (run : List Char) : Bool :=
  reads readDateTime run || reads readTime run

/-- Whether a character may stand in a bare value. -/
def isBare (c : Char) : Bool :=
  c.isAlphanum || c ∈ ['+', '-', '.', ':', '_']

end Crosswalk.Toml
