import Crosswalk.Text.Digit
import Crosswalk.Text.Reading

/-!
# Quoted texts of a TOML document

There are four forms: between double quotes, where a backslash begins an escape, or between single
quotes, where nothing does; and between one quote at each end on a single line, or between three on
several lines. Control characters other than the tabulator must be escaped. A text on several lines
may end in up to two quotes of its own.
-/

namespace Crosswalk.Toml

open Text Reading

/-- Whether a character may stand in a text or a comment as it is. -/
def isPlain (c : Char) : Bool :=
  c = '\t' || (' ' ≤ c && c ≠ '\x7f')

def isGap (c : Char) : Bool := c = ' ' || c = '\t'

/-- Skips spaces and tabulators. -/
def skipGap : Reading Unit := discard (run isGap)

/-- Whether a line ended here, and its end has been taken off. -/
def acceptNewline : Reading Bool
  | '\n' :: rest => some (true, rest)
  | '\r' :: '\n' :: rest => some (true, rest)
  | text => some (false, text)

/-- A text without the blank lines and gaps at its front. -/
def dropBlankLines : List Char → List Char
  | '\r' :: '\n' :: rest => dropBlankLines rest
  | c :: rest => if c = '\n' || isGap c then dropBlankLines rest else c :: rest
  | [] => []

/-- Reads a character by exactly so many hexadecimal digits. -/
def readCode (digits : Nat) : Reading Char := do
  let code := (← get).take digits
  modify (·.drop digits)
  guard (code.length = digits ∧ code.all isHexDigit)
  StateT.lift (charOf? (valueIn 16 code))

/-- Reads an escape behind its backslash. -/
def readEscape : Reading Char := do
  match ← next with
  | 'b' => return '\x08'
  | 'f' => return '\x0c'
  | 'n' => return '\n'
  | 'r' => return '\r'
  | 't' => return '\t'
  | '"' => return '"'
  | '\\' => return '\\'
  | 'u' => readCode 4
  | 'U' => readCode 8
  | _ => failure

/-- Reads the rest of a text on one line. -/
def readLine (quote : Char) : Nat → Reading (List Char)
  | 0 => failure
  | fuel + 1 => do
    let c ← next
    if c = quote then return []
    else if c = '\\' ∧ quote = '"' then
      return (← readEscape) :: (← readLine quote fuel)
    else
      guard (isPlain c)
      return c :: (← readLine quote fuel)

/-- Reads the rest of a text on several lines. A backslash at the end of a line takes with it the
blank lines and gaps that follow. -/
def readLines (quote : Char) : Nat → Reading (List Char)
  | 0 => failure
  | fuel + 1 => do
    if ← acceptNewline then return '\n' :: (← readLines quote fuel)
    let c ← next
    if c = quote then
      let quotes := quote :: (← run (· == quote))
      guard (quotes.length ≤ 5)
      if quotes.length ≤ 2 then return quotes ++ (← readLines quote fuel)
      else return quotes.drop 3
    else if c = '\\' ∧ quote = '"' then
      let here ← get
      skipGap
      if ← acceptNewline then
        modify dropBlankLines
        readLines quote fuel
      else
        set here
        return (← readEscape) :: (← readLines quote fuel)
    else
      guard (isPlain c)
      return c :: (← readLines quote fuel)

/-- Reads a text behind its opening quote, in either of the forms with this quote. -/
def readQuoted (quote : Char) : Reading String := do
  let fuel := (← get).length + 1
  if ← acceptAll [quote, quote] then
    discard acceptNewline
    return .ofList (← readLines quote fuel)
  else return .ofList (← readLine quote fuel)

end Crosswalk.Toml
