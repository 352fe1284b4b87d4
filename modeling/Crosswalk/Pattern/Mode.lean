import Crosswalk.Text.Reading
import Crosswalk.Text.Blank
import Crosswalk.Pattern

/-!
# How a written pattern is taken

The letters between `(?` and `)` switch the mode of the rest of a group. In the spaced mode, blanks
and comments that run from a number sign to the end of the line may stand between the parts of a
pattern, and also between the letters and digits of the longer parts.
-/

namespace Crosswalk

open Text

namespace Pattern

/-- How the rest of a group is to be taken. -/
structure Mode where
  /-- Letters stand for both their cases. -/
  folded : Bool
  /-- `^` and `$` also hold at the ends of lines. -/
  byLine : Bool
  /-- A dot stands for line ends too. -/
  dotAll : Bool
  /-- A carriage return belongs to a line end. -/
  crlf : Bool
  /-- Blanks and comments are skipped. -/
  spaced : Bool

namespace Mode

/-- The mode in which a pattern begins. -/
def plain : Mode := ⟨false, false, false, false, false⟩

/-- The mode with one letter switched on or off. Two of the letters are known and have no effect on
what a pattern describes. -/
def switch? (mode : Mode) (letter : Char) (on : Bool) : Option Mode :=
  match letter with
  | 'i' => some { mode with folded := on }
  | 'm' => some { mode with byLine := on }
  | 's' => some { mode with dotAll := on }
  | 'R' => some { mode with crlf := on }
  | 'x' => some { mode with spaced := on }
  | 'U' | 'u' => some mode
  | _ => none

/-- The mode after a row of letters. The letters after the one dash that may stand in it, and which
must not end it, are switched off. No letter is named twice. -/
def switchAll? (on : Bool) (seen : List Char) : List Char → Mode → Option Mode
  | [], mode => some mode
  | '-' :: rest, mode => if on && !rest.isEmpty then switchAll? false seen rest mode else none
  | letter :: rest, mode =>
    if letter ∈ seen then none
    else (mode.switch? letter on).bind (switchAll? on (letter :: seen) rest)

/-- Takes characters that satisfy a test from the front, at most so many. What may be skipped
before, between and after them is skipped. The first argument says whether the text begins within a
comment. -/
def gatherFrom (mode : Mode) (test : Char → Bool) : Bool → Nat → List Char → List Char × List Char
  | _, _, [] => ([], [])
  | true, most, c :: cs => gatherFrom mode test (c ≠ '\n') most cs
  | false, most, c :: cs =>
    if mode.spaced && isBlank c then gatherFrom mode test false most cs
    else if mode.spaced && c == '#' then gatherFrom mode test true most cs
    else if most ≠ 0 ∧ test c then
      let (taken, left) := gatherFrom mode test false (most - 1) cs
      (c :: taken, left)
    else ([], c :: cs)

/-- The longest run of characters that satisfy a test, with what may be skipped left out. -/
def gather (mode : Mode) (test : Char → Bool) : Reading (List Char) := fun text =>
  some (mode.gatherFrom test false text.length text)

/-- Skips what may be skipped. -/
def skip (mode : Mode) : Reading Unit := fun text =>
  some ((), (mode.gatherFrom (fun _ => false) false 0 text).2)

/-- The character that comes next, as a set sees it that has to know whether a dash begins a range.
It looks past blanks and the sign of one comment only. -/
def next? (mode : Mode) (text : List Char) : Option Char :=
  if mode.spaced then
    match text.dropWhile isBlank with
    | '#' :: comment => (comment.dropWhile isBlank).head?
    | rest => rest.head?
  else text.head?

/-- A character that stands for itself, or for both its cases. -/
def character (mode : Mode) (c : Char) : Pattern :=
  if mode.folded && c.isAlpha then .oneOf (CharSet.single c).foldCase else .char c

/-- What a dot stands for. -/
def dot (mode : Mode) : Pattern :=
  if mode.dotAll then .oneOf ⟨[(0, CharSet.last)]⟩
  else if mode.crlf then .oneOf ⟨[(0, 9), (11, 12), (14, CharSet.last)]⟩
  else .oneOf ⟨[(0, 9), (11, CharSet.last)]⟩

def lineStart (mode : Mode) : Look :=
  if mode.byLine then if mode.crlf then .crlfLineStart else .lineStart else .textStart

def lineEnd (mode : Mode) : Look :=
  if mode.byLine then if mode.crlf then .crlfLineEnd else .lineEnd else .textEnd

end Mode

end Pattern

end Crosswalk
