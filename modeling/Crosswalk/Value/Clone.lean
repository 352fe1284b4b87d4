import Crosswalk.Schema

/-!
# Copies of values

A value is copied part by part: a list item by item, a record field by field. What can be read of a
record is copied with it, so nothing is changed by copying a value of ordinary types. A type with
fields that cannot be read is made by hand and decides for itself what its copies have in them, be
it what was there or something else.
-/

namespace Crosswalk

namespace Value

variable (S : Schema) (unread : TypeId → FieldDecl → Value → Value)

mutual

/-- A copy of a value, where `unread` says what the copy of a record has in a field that cannot be
read. -/
def clone : Value → Value
  | list items => list (cloneItems items)
  | record type cells => record type (cloneCells type (S.decl type).fields cells)
  | v => v

/-- Copies of all of these values. -/
def cloneItems : List Value → List Value
  | [] => []
  | v :: vs => clone v :: cloneItems vs

/-- What a copy of a record has in its cells, where these fields and cells are left. -/
def cloneCells (type : TypeId) : List FieldDecl → List Value → List Value
  | f :: fs, v :: vs =>
    (if f.readable then clone v else unread type f v) :: cloneCells type fs vs
  | _, vs => vs

end

end Value

end Crosswalk
