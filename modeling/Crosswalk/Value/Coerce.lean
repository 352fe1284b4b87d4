import Crosswalk.Value

/-!
# Coercion between scalar kinds

A number is coerced to another numeric kind by way of the exact number it denotes: it comes out of
its own kind, goes to the nearest value of the other kind, and is accepted only if that value
denotes the very same number, the sign of a zero included. So no coercion ever changes a number, and
`nan` and the infinities cross between floating-point kinds only.

The two representations of time convert into each other. A value that already has the wanted kind,
and the absent value, pass unchanged. Everything else has no coercion.
-/

namespace Crosswalk

namespace Value

/-- The exact number that a numeric scalar denotes. -/
def number? : Value → Option Number
  | i32 n => some (.ofInt n.toInt)
  | i64 n => some (.ofInt n.toInt)
  | u32 n => some (.ofInt n.toNat)
  | u64 n => some (.ofInt n.toNat)
  | f32 x => some x.number
  | f64 x => some x.number
  | _ => none

/-- A whole number as a value of an integer kind, if it lies in the range of the kind. -/
def ofInt? (kind : ScalarKind) (n : Int) : Option Value :=
  match kind with
  | .i32 => if -2147483648 ≤ n ∧ n ≤ 2147483647 then some (.i32 (.ofInt n)) else none
  | .i64 =>
    if -9223372036854775808 ≤ n ∧ n ≤ 9223372036854775807 then some (.i64 (.ofInt n)) else none
  | .u32 => if 0 ≤ n ∧ n ≤ 4294967295 then some (.u32 (.ofNat n.toNat)) else none
  | .u64 => if 0 ≤ n ∧ n ≤ 18446744073709551615 then some (.u64 (.ofNat n.toNat)) else none
  | _ => none

/-- The value of a numeric kind that denotes exactly this number, if the kind has one. -/
def ofNumber? (kind : ScalarKind) (n : Number) : Option Value :=
  match kind with
  | .f32 =>
    let x := Binary32.ofNumber n
    if x.number = n then some (.f32 x) else none
  | .f64 =>
    let x := Binary64.ofNumber n
    if x.number = n then some (.f64 x) else none
  | kind => n.toInt?.bind (ofInt? kind)

/-- The value as one of another scalar kind, if it can be one without loss. -/
def coerce? (v : Value) (kind : ScalarKind) : Option Value :=
  if v.isNull ∨ v.scalarKind? = some kind then some v
  else
    match v, kind with
    | .timestamp t, .datetime => t.toDateTime.toOption.map .datetime
    | .datetime d, .timestamp => some (.timestamp (.ofDateTime d))
    | v, kind => v.number?.bind (ofNumber? kind)

end Value

end Crosswalk
