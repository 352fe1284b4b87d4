import Crosswalk.Pattern.Mode
import Crosswalk.Text.Digit

/-!
# The parts of a written pattern

Readers for what a pattern is made of below the level of groups: escapes, sets in brackets and
repetition counts. Each of them refuses what is not well formed. An escape of a character by its
code point has two, four or eight hexadecimal digits, or any number of them in braces.
-/

namespace Crosswalk

open Text Reading

namespace Pattern

/-! ### Escapes -/

/-- Reads the code point of an escape whose letter allows so many digits. -/
def readCode (mode : Mode) (digits : Nat) : Reading Pattern := do
  mode.skip
  let code ←
    if (← peek?) = some '{' then do
      let _ ← next
      let code ← mode.gather isHexDigit
      expect '}'
      mode.skip
      guard (code ≠ [])
      pure code
    else do
      let (code, rest) := mode.gatherFrom isHexDigit false digits (← get)
      set rest
      guard (code.length = digits)
      pure code
  let c ← StateT.lift (charOf? (valueIn 16 code))
  return mode.character c

/-- Reads the rest of a word boundary, which may be qualified in braces. Braces that do not begin
with a letter or a dash are left for a repetition count. -/
def readBoundary (mode : Mode) : Reading Pattern := do
  match ← get with
  | '{' :: rest =>
    let (name, rest) := mode.gatherFrom (fun c => c.isAlpha || c == '-') false rest.length rest
    if name = [] then
      guard (rest ≠ [])
      return .look .wordBoundary
    else
      set rest
      expect '}'
      match String.ofList name with
      | "start" => return .look .wordStart
      | "end" => return .look .wordEnd
      | "start-half" => return .look .wordStartHalf
      | "end-half" => return .look .wordEndHalf
      | _ => failure
  | _ => return .look .wordBoundary

/-- Reads what follows a backslash. Every ASCII character that is no letter, digit or angle bracket
may be escaped to stand for itself. -/
def readEscape (mode : Mode) : Reading Pattern := do
  match ← next with
  | 'x' => readCode mode 2
  | 'u' => readCode mode 4
  | 'U' => readCode mode 8
  | 'd' => return .oneOf .digit
  | 'D' => return .oneOf CharSet.digit.complement
  | 's' => return .oneOf .space
  | 'S' => return .oneOf CharSet.space.complement
  | 'w' => return .oneOf .word
  | 'W' => return .oneOf CharSet.word.complement
  | 'a' => return .char '\x07'
  | 'f' => return .char '\x0C'
  | 't' => return .char '\t'
  | 'n' => return .char '\n'
  | 'r' => return .char '\r'
  | 'v' => return .char '\x0B'
  | 'A' => return .look .textStart
  | 'z' => return .look .textEnd
  | 'b' => readBoundary mode
  | 'B' => return .look .notWordBoundary
  | '<' => return .look .wordStart
  | '>' => return .look .wordEnd
  | c =>
    guard (c.toNat < 128 ∧ ¬ c.isAlphanum)
    return .char c

/-! ### Sets in brackets -/

/-- Reads an item of a set after its first character. -/
def readItem (mode : Mode) (first : Char) : Reading Pattern :=
  if first = '\\' then readEscape mode else return .char first

/-- Reads the name of a class after its opening bracket. -/
def readClass : Reading CharSet := do
  expect ':'
  let complemented ← accept '^'
  let name ← run (· ≠ ':')
  expect ':'
  expect ']'
  let set ← StateT.lift (CharSet.named? (.ofList name))
  return if complemented then set.complement else set

/-- Reads a range, or a single item, after its first character. A dash before another dash or before
the end of the set makes no range. -/
def readRange (mode : Mode) (first : Char) : Reading (List (Nat × Nat)) := do
  let item ← readItem mode first
  mode.skip
  match ← get with
  | [] => failure
  | c :: rest =>
    if c = '-' ∧ mode.next? rest ≠ some ']' ∧ mode.next? rest ≠ some '-' then
      set rest
      mode.skip
      match item, ← readItem mode (← next) with
      | .char a, .char b =>
        guard (a ≤ b)
        return [(a.toNat, b.toNat)]
      | _, _ => failure
    else
      match item with
      | .char a => return [(a.toNat, a.toNat)]
      | .oneOf items => return items.ranges
      | _ => failure

/-- Reads the items of a set up to its closing bracket. -/
def readItems : Nat → Mode → List (Nat × Nat) → Reading (List (Nat × Nat))
  | 0, _, _ => failure
  | fuel + 1, mode, ranges => do
    mode.skip
    match ← next with
    | ']' => return ranges
    | '[' => readItems fuel mode (ranges ++ (← readClass).ranges)
    | c =>
      guard (¬ (c ∈ ['&', '-', '~'] ∧ (← peek?) = some c))
      readItems fuel mode (ranges ++ (← readRange mode c))

/-- Reads a set after its opening bracket. Dashes at its beginning stand for themselves, and so does
a closing bracket there. Cases are folded before the complement is taken. -/
def readSet (mode : Mode) : Reading Pattern := do
  mode.skip
  let complemented ← accept '^'
  let dashes ← mode.gather (· == '-')
  let bracket ← if dashes = [] then accept ']' else pure false
  let first := (if dashes = [] then [] else [(45, 45)]) ++ if bracket then [(93, 93)] else []
  let ranges ← readItems ((← get).length + 1) mode first
  let set := CharSet.ofRanges ranges
  let set := if mode.folded then set.foldCase else set
  return .oneOf (if complemented then set.complement else set)

/-! ### Repetition counts -/

/-- Reads a number, which may have blanks around it. -/
def readNumber (mode : Mode) : Reading Nat := do
  let _ ← run isBlank
  let digits ← mode.gather Char.isDigit
  let _ ← run isBlank
  mode.skip
  guard (digits ≠ [] ∧ valueIn 10 digits ≤ 4294967295)
  return valueIn 10 digits

/-- Reads the counts of a repetition after the opening brace: one number, a least number, or
both. -/
def readCounts (mode : Mode) : Reading (Nat × Option Nat) := do
  mode.skip
  let least ← readNumber mode
  let most ←
    if ← accept ',' then
      mode.skip
      if (← peek?) = some '}' then pure none else some <$> readNumber mode
    else pure (some least)
  expect '}'
  mode.skip
  guard (most.all (least ≤ ·))
  return (least, most)

end Pattern

end Crosswalk
