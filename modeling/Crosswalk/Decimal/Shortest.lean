import Crosswalk.Binary
import Crosswalk.Decimal

/-!
# The shortest decimal of a binary word

The numbers that round to a given word fill an interval that reaches halfway to the neighbouring
words; its ends belong to it if the word is even, since a half goes to the even word. Among the
decimals in that interval, the shortest ones are those on the coarsest decimal grid that meets it,
and of these the nearest to the word's own number is chosen. All comparisons are between natural
numbers, in halves of the quantum.

On a grid that meets the interval, one of the two grid points around the word's number lies in it,
so nothing else has to be looked at. On the grid of `10 ^ (-1074)` the number itself is a
point.
-/

namespace Crosswalk

namespace BinaryFormat

variable (f : BinaryFormat)

/-- Whether `a / b`, in halves of the quantum, is in the interval of an unsigned word other than
zero. -/
def roundsTo (word a b : Nat) : Bool :=
  let low := (f.magnitude (word - 1) + f.magnitude word) * f.step * b
  let high := (f.magnitude word + f.magnitude (word + 1)) * f.step * b
  if word % 2 = 0 then low ≤ a && a ≤ high else low < a && a < high

/-- The digits of the point chosen on the grid of a power of ten, if the grid meets the interval of
the word. A point halfway between two others is rounded up. -/
def onGrid? (word : Nat) (exponent : Int) : Option Nat :=
  let unit := Nat.pow 10 exponent.toNat * (2 * Number.quantaPerOne)
  let scale := Nat.pow 10 (-exponent).toNat
  let number := 2 * (f.magnitude word * f.step) * scale
  let below := number / unit
  match f.roundsTo word (below * unit) scale, f.roundsTo word ((below + 1) * unit) scale with
  | true, true => some (if 2 * (number % unit) < unit then below else below + 1)
  | true, false => some below
  | false, true => some (below + 1)
  | false, false => none

/-- The first grid to meet the interval of the word, from a power of ten down. After so many steps
the number is written out in full. -/
def shortestFrom (word : Nat) : Nat → Int → Decimal
  | 0, _ => ⟨f.magnitude word * f.step * Nat.pow 5 Number.quantumBits, -Number.quantumBits⟩
  | steps + 1, exponent =>
    match f.onGrid? word exponent with
    | some digits => ⟨digits, exponent⟩
    | none => shortestFrom word steps (exponent - 1)

/-- The shortest decimal that rounds to an unsigned finite word other than zero. No finite word of a
format here reaches `10 ^ 309`. -/
def shortest (word : Nat) : Decimal :=
  f.shortestFrom word (308 + Number.quantumBits + 1) 308

/-- A word as text. Zero has its sign, the infinities are short, and a `nan` has no sign. -/
def text (word : Nat) : String :=
  let sign := if word / f.signWord % 2 = 1 then "-" else ""
  let unsigned := word % f.signWord
  if unsigned = 0 then sign ++ "0"
  else if unsigned < f.infinityWord then sign ++ (f.shortest unsigned).text
  else if unsigned = f.infinityWord then sign ++ "inf"
  else "NaN"

end BinaryFormat

/-- The number in messages. -/
def Binary64.text (x : Binary64) : String := binary64.text x.bits.toNat

end Crosswalk
