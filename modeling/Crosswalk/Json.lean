import Crosswalk.Text.Digit
import Crosswalk.Text.Reading

/-!
# The parts of a JSON document

Readers for whole numbers and for texts, and for passing over a value of any form. A text is read
only if its escapes make up characters; in a value that is passed over, each escape has to be well
formed by itself, and numbers may be of any size.
-/

namespace Crosswalk.Json

open Text Reading

def isBlank (c : Char) : Bool :=
  c = ' ' || c = '\n' || c = '\t' || c = '\r'

def skipBlanks : Reading Unit := discard (run isBlank)

/-- Takes off a character that stands between two parts, with the blanks around it. -/
def expectSign (c : Char) : Reading Unit := do
  skipBlanks
  expect c
  skipBlanks

/-! ### Numbers -/

/-- Reads the whole part of a number, which begins with a zero only if it is one. -/
def readWhole : Reading (List Char) := do
  let digits ← run Char.isDigit
  guard (digits ≠ [] ∧ (digits.head? ≠ some '0' ∨ digits.length = 1))
  return digits

/-- Reads a whole number. One with a point or an exponent is none, and neither is the negative
zero. -/
def readInteger : Reading Int := do
  let negative ← accept '-'
  let digits ← readWhole
  guard ((← peek?).all (· ∉ ['.', 'e', 'E']))
  let n := valueIn 10 digits
  guard (¬ (negative ∧ n = 0))
  return if negative then -(n : Int) else n

/-- Passes over at least one digit. -/
def skipDigits : Reading Unit := do
  guard ((← run Char.isDigit) ≠ [])

/-- Passes over a number. -/
def skipNumber : Reading Unit := do
  discard (accept '-')
  discard readWhole
  if ← accept '.' then skipDigits
  if ← acceptAny ['e', 'E'] then
    if ← accept '-' then skipDigits
    else
      discard (accept '+')
      skipDigits

/-! ### Texts -/

/-- Reads four hexadecimal digits. -/
def readUnit : Reading Nat := do
  let code := (← get).take 4
  modify (·.drop 4)
  guard (code.length = 4 ∧ code.all isHexDigit)
  return valueIn 16 code

/-- Reads a character by its code point. One beyond the first plane is written in two halves. -/
def readCode : Reading Char := do
  let first ← readUnit
  if 0xD800 ≤ first ∧ first < 0xDC00 then
    guard (← acceptAll ['\\', 'u'])
    let second ← readUnit
    guard (0xDC00 ≤ second ∧ second < 0xE000)
    return Char.ofNat (0x10000 + (first - 0xD800) * 0x400 + (second - 0xDC00))
  else StateT.lift (charOf? first)

/-- Reads an escape behind its backslash. -/
def readEscape : Reading Char := do
  match ← next with
  | '"' => return '"'
  | '\\' => return '\\'
  | '/' => return '/'
  | 'b' => return '\x08'
  | 'f' => return '\x0c'
  | 'n' => return '\n'
  | 'r' => return '\r'
  | 't' => return '\t'
  | 'u' => readCode
  | _ => failure

/-- Passes over an escape behind its backslash. -/
def skipEscape : Reading Unit := do
  let c ← next
  if c = 'u' then discard readUnit
  else guard (c ∈ ['"', '\\', '/', 'b', 'f', 'n', 'r', 't'])

/-- Reads the rest of a text, given how to deal with its escapes. -/
def readRest {α : Type} (escape : Reading α) (plain : Char → α) : Nat → Reading (List α)
  | 0 => failure
  | fuel + 1 => do
    let c ← next
    if c = '"' then return []
    else if c = '\\' then return (← escape) :: (← readRest escape plain fuel)
    else
      guard (' ' ≤ c)
      return plain c :: (← readRest escape plain fuel)

/-- Reads a text. -/
def readText : Reading String := do
  expect '"'
  return .ofList (← readRest readEscape id ((← get).length + 1))

/-- Passes over a text. -/
def skipText : Reading Unit := do
  expect '"'
  discard (readRest skipEscape (fun _ => ()) ((← get).length + 1))

/-! ### Lists and values -/

/-- Reads items with commas between them, of which there is at least one, up to a closing sign. -/
def readItems {α : Type} (item : Reading α) (closing : Char) : Nat → Reading (List α)
  | 0 => failure
  | fuel + 1 => do
    let first ← item
    skipBlanks
    if ← accept ',' then
      skipBlanks
      return first :: (← readItems item closing fuel)
    else
      expect closing
      return [first]

/-- Reads what stands between an opening and a closing sign: items with commas between them. -/
def readBetween {α : Type} (opening closing : Char) (item : Reading α) : Reading (List α) := do
  expect opening
  skipBlanks
  if ← accept closing then return []
  else readItems item closing ((← get).length + 1)

/-- Passes over a value in which others are nested at most so deep. -/
def skipValue : Nat → Reading Unit
  | 0 => failure
  | depth + 1 => do
    match ← peek? with
    | some '"' => skipText
    | some '[' => discard (readBetween '[' ']' (skipValue depth))
    | some '\x7b' =>
      discard (readBetween '\x7b' '\x7d' do
        skipText
        expectSign ':'
        skipValue depth)
    | some 't' => guard (← acceptAll ['t', 'r', 'u', 'e'])
    | some 'f' => guard (← acceptAll ['f', 'a', 'l', 's', 'e'])
    | some 'n' => guard (← acceptAll ['n', 'u', 'l', 'l'])
    | _ => skipNumber

end Crosswalk.Json
