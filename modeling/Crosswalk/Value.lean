import Crosswalk.Kind
import Crosswalk.Binary
import Crosswalk.Time

/-!
# Values in flight

A `Value` is what passes between the fields of two records: nothing (`null`, an absent optional), a
scalar of one of the eleven kinds, a list, or a record.

A record value is its type and one value, called a *cell*, per declared field. A record is data like
any other value here, so copying a value is nothing at all and two holders of a record never see
each other's writes. Reading and writing fields goes by the declaration of the type and is in
`Crosswalk.Record`.
-/

namespace Crosswalk

inductive Value
  | null
  | bool (b : Bool)
  | i32 (n : Int32)
  | i64 (n : Int64)
  | u32 (n : UInt32)
  | u64 (n : UInt64)
  | f32 (x : Binary32)
  | f64 (x : Binary64)
  | string (s : String)
  | bytes (bs : List UInt8)
  | timestamp (t : Timestamp)
  | datetime (d : DateTime)
  | list (items : List Value)
  | record (type : TypeId) (cells : List Value)

namespace Value

/-- The value that an unset required scalar holds. -/
def zero : ScalarKind → Value
  | .bool => .bool false
  | .i32 => .i32 0
  | .i64 => .i64 0
  | .u32 => .u32 0
  | .u64 => .u64 0
  | .f32 => .f32 .zero
  | .f64 => .f64 .zero
  | .string => .string ""
  | .bytes => .bytes []
  | .timestamp => .timestamp .epoch
  | .datetime => .datetime .epoch

/-- The kind of a scalar; nothing, lists and records have none. -/
def scalarKind? : Value → Option ScalarKind
  | bool _ => some .bool
  | i32 _ => some .i32
  | i64 _ => some .i64
  | u32 _ => some .u32
  | u64 _ => some .u64
  | f32 _ => some .f32
  | f64 _ => some .f64
  | string _ => some .string
  | bytes _ => some .bytes
  | timestamp _ => some .timestamp
  | datetime _ => some .datetime
  | null | list _ | record .. => none

/-- The shape of a value, as error messages name it. -/
def shapeName (v : Value) : String :=
  match v.scalarKind? with
  | some kind => kind.name
  | none =>
    match v with
    | .list _ => "list"
    | .record .. => "record"
    | _ => "null"

def isNull : Value → Bool
  | null => true
  | _ => false

@[simp] theorem scalarKind?_zero (k : ScalarKind) : (zero k).scalarKind? = some k := by
  cases k <;> rfl

end Value

end Crosswalk
