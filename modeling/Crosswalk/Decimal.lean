/-!
# Decimal numbers

A decimal is a whole number of powers of ten. Its text is positional whatever the power: zeros are
added on the right of the digits or, behind a point, on the left. No exponent is ever written.
-/

namespace Crosswalk

/-- `digits * 10 ^ exponent`. -/
structure Decimal where
  digits : Nat
  exponent : Int
deriving DecidableEq

namespace Decimal

/-- The positional text. -/
def text (d : Decimal) : String :=
  let digits := Nat.toDigits 10 d.digits
  match d.exponent with
  | .ofNat zeros => .ofList (digits ++ List.replicate zeros '0')
  | .negSucc m =>
    let padded := List.replicate (m + 2 - digits.length) '0' ++ digits
    let whole := padded.length - (m + 1)
    .ofList (padded.take whole ++ '.' :: padded.drop whole)

end Decimal

end Crosswalk
