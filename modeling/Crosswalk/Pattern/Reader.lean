import Crosswalk.Pattern.Part
import Crosswalk.Text.Letter

/-!
# Reading a written pattern

A pattern is a choice of branches, a branch a row of items, and an item may be a group that again
holds a choice. `Pattern.ofText?` reads a whole text, and refuses it also if the pattern turns out
too deeply nested or too large.

Groups are read with an explicit bound on the number of steps. Each step takes at least one
character, so the length of the text is bound enough.
-/

namespace Crosswalk

open Text Reading

namespace Pattern

/-- How a group opens. -/
inductive Opening
  /-- It holds letters that switch the mode of the rest of the group around it. -/
  | switch (mode : Mode)
  /-- It only holds a part of the pattern, in a mode of its own. -/
  | plain (mode : Mode)
  /-- It gets a number, and perhaps a name. -/
  | numbered (name : Option String)

/-- Whether a group may have this name. -/
def isGroupName : List Char → Bool
  | [] => false
  | c :: cs =>
    (c == '_' || isAlphabetic c) &&
      cs.all fun c => c ∈ ['_', '.', '[', ']'] || isAlphabetic c || isNumeral c

/-- Reads the name of a group up to the closing angle bracket. -/
def readGroupName (names : List (Option String)) : Reading String := do
  let letters ← run (· ≠ '>')
  expect '>'
  let name := String.ofList letters
  guard (isGroupName letters ∧ some name ∉ names)
  return name

/-- Reads letters that switch the mode, up to a colon or the end of the group. Nothing is skipped
between them, whatever the mode. -/
def readSwitches (mode : Mode) : Reading Opening := do
  let letters ← run fun c => c ≠ ':' ∧ c ≠ ')'
  let mode ← StateT.lift (mode.switchAll? true [] letters)
  if ← accept ':' then return .plain mode
  else
    guard (letters ≠ [] ∧ (← peek?) = some ')')
    return .switch mode

/-- Reads how a group opens, after its parenthesis. There is no way to look ahead or behind. -/
def readOpening (mode : Mode) (names : List (Option String)) : Reading Opening := do
  mode.skip
  match ← get with
  | '?' :: '=' :: _ | '?' :: '!' :: _ | '?' :: '<' :: '=' :: _ | '?' :: '<' :: '!' :: _ => failure
  | '?' :: 'P' :: '<' :: rest | '?' :: '<' :: rest =>
    set rest
    return .numbered (some (← readGroupName names))
  | '?' :: rest =>
    set rest
    readSwitches mode
  | _ => return .numbered none

/-- Reads an item that is neither a group nor a set. -/
def readSimple (mode : Mode) : Reading Pattern := do
  match ← next with
  | '\\' => readEscape mode
  | '.' => return mode.dot
  | '^' => return .look mode.lineStart
  | '$' => return .look mode.lineEnd
  | c => return mode.character c

/-- What repeats the item before it: `?`, `*`, `+` or counts in braces. A question mark may follow,
which has no effect on what is described. -/
def readRepetition (mode : Mode) : Reading (Nat × Option Nat) := do
  let counts ← match ← next with
    | '?' => pure (0, some 1)
    | '*' => pure (0, none)
    | '+' => pure (1, none)
    | _ => readCounts mode
  let _ ← accept '?'
  return counts

/-- Reads the rest of a group, of which some branches and some items of the last one have been read;
the latest come first. The names are those of all numbered groups so far, the latest first. -/
def readGroup : Nat → Nat → Mode → List (Option String) → List Pattern → List Pattern →
    Reading (Pattern × List (Option String))
  | 0, _, _, _, _, _ => failure
  | fuel + 1, depth, mode, names, branches, items => do
    mode.skip
    match ← peek? with
    | none => return (oneOfParts (inSequence items.reverse :: branches).reverse, names)
    | some ')' =>
      guard (depth ≠ 0)
      return (oneOfParts (inSequence items.reverse :: branches).reverse, names)
    | some '|' =>
      expect '|'
      readGroup fuel depth mode names (inSequence items.reverse :: branches) []
    | some '(' =>
      expect '('
      match ← readOpening mode names with
      | .switch mode =>
        expect ')'
        readGroup fuel depth mode names branches items
      | .plain inner =>
        guard (depth < depthLimit)
        let (part, names) ← readGroup fuel (depth + 1) inner names [] []
        expect ')'
        readGroup fuel depth mode names branches (part :: items)
      | .numbered name =>
        guard (depth < depthLimit)
        let (part, later) ← readGroup fuel (depth + 1) mode (name :: names) [] []
        expect ')'
        readGroup fuel depth mode later branches (.group (names.length + 1) name part :: items)
    | some '[' =>
      expect '['
      readGroup fuel depth mode names branches ((← readSet mode) :: items)
    | some c =>
      if c ∈ ['?', '*', '+', '{'] then
        match items with
        | [] => failure
        | item :: items =>
          let (least, most) ← readRepetition mode
          readGroup fuel depth mode names branches (item.times least most :: items)
      else readGroup fuel depth mode names branches ((← readSimple mode) :: items)

/-- The pattern that a text writes. -/
def ofText? (text : String) : Option Pattern := do
  let cs := text.toList
  let (pattern, _) ← all? (readGroup (cs.length + 1) 0 .plain [] [] []) cs
  guard (pattern.depth ≤ depthLimit ∧ pattern.size ≤ sizeLimit)
  return pattern

end Pattern

end Crosswalk
