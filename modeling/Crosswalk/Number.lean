/-!
# Exact numbers

Every number the program meets is an integer of at most 64 bits or a binary floating-point number of
at most 64 bits. All of them are whole multiples of `2 ^ (-1074)`, the least positive number of the
widest format. So an exact number is a natural number of such *quanta* together with a sign, and
nothing is ever rounded by merely looking at a number.

The sign is kept apart from the magnitude because floating-point formats tell two zeros apart. The
order `Number.le` does not: it compares signed quanta.
-/

namespace Crosswalk

/-- An exact number: an integer, or what a floating-point word denotes. -/
inductive Number
  | nan
  | infinite (negative : Bool)
  | finite (negative : Bool) (quanta : Nat)
deriving DecidableEq

namespace Number

/-- The exponent of the quantum, negated. -/
def quantumBits : Nat := 1074

/-- How many quanta make one. -/
def quantaPerOne : Nat := Nat.pow 2 quantumBits

theorem quantaPerOne_pos : 0 < quantaPerOne := by
  unfold quantaPerOne
  generalize quantumBits = bits
  exact Nat.two_pow_pos bits

/-- A whole number. Zero is the positive zero. -/
def ofInt (n : Int) : Number :=
  .finite (decide (n < 0)) (n.natAbs * quantaPerOne)

/-- A magnitude with its sign. -/
def signed (negative : Bool) (quanta : Nat) : Int :=
  if negative then -(quanta : Int) else quanta

/-- The whole number that this is, if it is one. Both zeros are the whole number zero. -/
def toInt? : Number → Option Int
  | .finite negative quanta =>
    if quanta % quantaPerOne = 0 then some (signed negative (quanta / quantaPerOne)) else none
  | _ => none

/-- The numeric order. Nothing is comparable with `nan`, and the two zeros are equal. -/
def le : Number → Number → Bool
  | .nan, _ | _, .nan => false
  | .infinite true, _ => true
  | _, .infinite false => true
  | .finite s a, .finite t b => decide (signed s a ≤ signed t b)
  | .infinite false, .finite .. | .infinite false, .infinite true => false
  | .finite .., .infinite true => false

/-- Numeric equality: `nan` differs from itself and the two zeros are equal. -/
def numericallyEqual (a b : Number) : Bool :=
  a.le b && b.le a

theorem toInt?_ofInt (n : Int) : (ofInt n).toInt? = some n := by
  have h : n.natAbs * quantaPerOne / quantaPerOne = n.natAbs :=
    Nat.mul_div_cancel _ quantaPerOne_pos
  simp only [ofInt, toInt?, Nat.mul_mod_left, if_true, h, signed, decide_eq_true_eq]
  congr 1
  split <;> omega

end Number

end Crosswalk
