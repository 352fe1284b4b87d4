import Crosswalk.Record

/-!
# Redaction

Redacting a record replaces what its sensitive fields hold. A sensitive text becomes a fixed marker,
any other sensitive scalar the zero of its kind, and the same happens to every item of a sensitive
list of scalars; a sensitive record, or list of records, is cleared. What is absent stays absent.
Records in fields that are not sensitive are redacted in their turn.

The result is the number of values that were replaced. A nested record is written back only if
something in it was replaced. A field that refuses the write ends the redaction, and what was
redacted before it stays so; this can only happen to hand-made records.
-/

namespace Crosswalk

namespace Redaction

/-- What stands in place of a sensitive text. -/
def marker : String := "[REDACTED]"

/-- What stands in place of a sensitive scalar. -/
def scalar : ScalarKind → Value
  | .string => .string marker
  | kind => .zero kind

/-- How many values are replaced in a field, and what is then written to it. -/
abbrev Replacement := Option (Nat × Value)

/-- The replacement of what a sensitive field holds. -/
def ofSensitive (kind : FieldKind) (v : Value) : Replacement :=
  match kind, v with
  | _, .null => none
  | .scalar k _, _ => some (1, scalar k)
  | .scalarList k, .list items => some (items.length, .list (items.map fun _ => scalar k))
  | .nested .., _ | .nestedList _, _ => some (1, .null)
  | _, _ => none

/-- The replacement of something that holds records, when so many values in them were replaced. -/
def ofInner (count : Nat) (v : Value) : Replacement :=
  if count = 0 then none else some (count, v)

variable (S : Schema)

mutual

/-- The replacement of what a field holds. -/
def replacement (f : FieldDecl) : Value → Except AccessError Replacement
  | .record type cells =>
    if f.sensitive then .ok (ofSensitive f.kind (.record type cells))
    else
      match f.kind with
      | .nested .. =>
        match redactCells type (S.decl type).fields cells with
        | (.error e, _) => .error e
        | (.ok count, made) => .ok (ofInner count (.record type made))
      | _ => .ok none
  | .list items =>
    if f.sensitive then .ok (ofSensitive f.kind (.list items))
    else
      match f.kind with
      | .nestedList _ => (redactItems items).map fun (count, made) => ofInner count (.list made)
      | _ => .ok none
  | v => .ok (if f.sensitive then ofSensitive f.kind v else none)

/-- Redacts the cells of some fields of a type. -/
def redactCells (type : TypeId) :
    List FieldDecl → List Value → Except AccessError Nat × List Value
  | f :: fs, cell :: cells =>
    match if f.readable then replacement f cell else .ok none with
    | .error e => (.error e, cell :: cells)
    | .ok none =>
      let (count, made) := redactCells type fs cells
      (count, cell :: made)
    | .ok (some (here, v)) =>
      match f.write S type v with
      | .error e => (.error e, cell :: cells)
      | .ok change =>
        let (count, made) := redactCells type fs cells
        (count.map (here + ·), change cell :: made)
  | _, cells => (.ok 0, cells)

/-- Redacts the records of a list and leaves other items alone. -/
def redactItems : List Value → Except AccessError (Nat × List Value)
  | [] => .ok (0, [])
  | .record type cells :: rest =>
    match redactCells type (S.decl type).fields cells with
    | (.error e, _) => .error e
    | (.ok here, made) =>
      (redactItems rest).map fun (count, others) => (here + count, .record type made :: others)
  | v :: rest => (redactItems rest).map fun (count, others) => (count, v :: others)

end

end Redaction

/-- Redacts a record: how many values were replaced, and the record after it. -/
def Record.redact (S : Schema) (r : Record) : Except AccessError Nat × Record :=
  let (count, cells) := Redaction.redactCells S r.type (r.decl S).fields r.cells
  (count, { r with cells })

end Crosswalk
