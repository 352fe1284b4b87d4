import Crosswalk.Schema

/-!
# Reading and writing records

A record is its type and a cell for each declared field. Fields are reached by position, or by name,
which means the first field of that name.

What a write does is decided field by field. `FieldKind.admit?` says what an ordinary field of a
kind keeps when it is given a value: a scalar field keeps a scalar of its own kind, an optional one
also the absence of a value; a list field keeps a list of fitting items and takes an absent value
for the empty list; a required nested field takes an absent value for the initial record of its
type. Any other value is refused, and the error names the type, the field, the kind and the shape of
the value. A hand-made field does what it was made to do, with no effect on other fields.

Two records are the same when they have one type and each field reads the same in both, as `Value`s.
That relation and sameness of values define each other.
-/

namespace Crosswalk

namespace AccessError

def message (S : Schema) : AccessError → String
  | rejected type field expected actual =>
    s!"{S.nameOf type}.{field}: expected {S.kindText expected}, got {actual}"
  | noFieldAt type index => s!"{S.nameOf type}: no field at index {index}"
  | unknownField type field => S.nameOf type ++ ": unknown field '" ++ field ++ "'"

end AccessError

/-- Whether a value is a record of the type. -/
def Value.isRecordOf (type : TypeId) : Value → Bool
  | .record t _ => decide (t = type)
  | _ => false

/-- What a field of the kind keeps when the value is written to it. -/
def FieldKind.admit? (S : Schema) (kind : FieldKind) (v : Value) : Option Value :=
  match kind with
  | .scalar k optional =>
    if v.scalarKind? = some k ∨ (optional ∧ v.isNull) then some v else none
  | .scalarList k =>
    match v with
    | .null => some (.list [])
    | .list items => if items.all (·.scalarKind? = some k) then some v else none
    | _ => none
  | .nested type optional =>
    match v with
    | .null => some (if optional then .null else .record type (S.initialCells type))
    | _ => if v.isRecordOf type then some v else none
  | .nestedList type =>
    match v with
    | .null => some (.list [])
    | .list items => if items.all (·.isRecordOf type) then some v else none
    | _ => none
  | .unsupported _ => none

/-- Whether there is a field at the position and it can be read. -/
def TypeDecl.readableAt (d : TypeDecl) (index : Nat) : Bool :=
  d.fields[index]?.any (·.readable)

/-- How a write of the value changes the cell of the field, in records of the type. -/
def FieldDecl.write (S : Schema) (type : TypeId) (f : FieldDecl) (v : Value) :
    Except AccessError (Value → Value) :=
  match f.access with
  | .handmade _ take => take v
  | .declared =>
    match f.kind.admit? S v with
    | some cell => .ok fun _ => cell
    | none => .error (.rejected type f.name f.kind v.shapeName)

/-- A record: its type and a cell for each declared field. -/
structure Record where
  type : TypeId
  cells : List Value

namespace Record

variable (S : Schema)

/-- The record of a type whose fields have never been written. -/
def initial (type : TypeId) : Record := ⟨type, S.initialCells type⟩

/-- The record as a value. -/
def toValue (r : Record) : Value := .record r.type r.cells

/-- The declaration of the record's type. -/
def decl (r : Record) : TypeDecl := S.decl r.type

/-- The value of the field at a position. -/
def get? (r : Record) (index : Nat) : Option Value :=
  if (r.decl S).readableAt index then r.cells[index]? else none

/-- The record with a value written to the field at a position. -/
def set (r : Record) (index : Nat) (v : Value) : Except AccessError Record :=
  match (r.decl S).fields[index]? with
  | none => .error (.noFieldAt r.type index)
  | some f => (f.write S r.type v).map fun change => { r with cells := r.cells.modify index change }

/-- The value of the first field of a name. -/
def getByName? (r : Record) (name : String) : Option Value :=
  ((r.decl S).column? name).bind fun c => r.get? S c.index

/-- The record with a value written to the first field of a name. -/
def setByName (r : Record) (name : String) (v : Value) : Except AccessError Record :=
  match (r.decl S).column? name with
  | none => .error (.unknownField r.type name)
  | some c => r.set S c.index v

end Record

/-! ### Sameness -/

namespace Value

mutual

/-- Whether two values are the same. Floating-point numbers are the same if their words or their
numbers are, and records are if their types are and each field reads the same in both. -/
def same (S : Schema) : Value → Value → Bool
  | null, null => true
  | bool a, bool b => a == b
  | i32 a, i32 b => a == b
  | i64 a, i64 b => a == b
  | u32 a, u32 b => a == b
  | u64 a, u64 b => a == b
  | f32 a, f32 b => a.same b
  | f64 a, f64 b => a.same b
  | string a, string b => a == b
  | bytes a, bytes b => a == b
  | timestamp a, timestamp b => a == b
  | datetime a, datetime b => a == b
  | list as, list bs => sameItems S as bs
  | record t as, record u bs => t == u && sameCells S (S.decl t).fields as bs
  | _, _ => false

/-- Whether two lists are the same item by item. -/
def sameItems (S : Schema) : List Value → List Value → Bool
  | [], [] => true
  | a :: as, b :: bs => same S a b && sameItems S as bs
  | _, _ => false

/-- Whether every one of these fields reads the same from both lists of cells. -/
def sameCells (S : Schema) : List FieldDecl → List Value → List Value → Bool
  | [], _, _ => true
  | f :: fs, a :: as, b :: bs => (!f.readable || same S a b) && sameCells S fs as bs
  | _ :: _, [], [] => true
  | _, _, _ => false

end

end Value

/-- Whether two records are of one type and read the same in every field. -/
def Record.same (S : Schema) (a b : Record) : Bool :=
  a.toValue.same S b.toValue

end Crosswalk
