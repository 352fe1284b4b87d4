import Crosswalk.Value

/-!
# Declared record types

A record type is declared by a name and an ordered list of fields. A `Schema` gives the declaration
of every type and the cells with which its records start. These are the default that belongs to the
type, and may be anything that fits it: a schema has a proof that every ordinary field starts with a
value of its kind, and the records in it do too (`Value.fitsWhere`). That leaves no room for a type
that requires itself through ordinary fields. Through optional fields and lists a type may well
reach itself.

Fields differ in how they can be reached. An ordinary (`declared`) field holds values of its kind
and nothing else. A field of a hand-made record holds whatever it likes. It can be read or not, and
whoever made it decides which values it takes, why it refuses the others, and what it makes of a
value that it takes and of what it held before. Statements about arbitrary records range over all
such fields.
-/

namespace Crosswalk

/-- Why a field could not be reached. -/
inductive AccessError
  /-- The field does not hold values of that shape. -/
  | rejected (type : TypeId) (field : String) (expected : FieldKind) (actual : String)
  /-- There is no field at that position. -/
  | noFieldAt (type : TypeId) (index : Nat)
  /-- There is no field of that name. -/
  | unknownField (type : TypeId) (field : String)
deriving DecidableEq

/-- How a field can be reached. -/
inductive Access
  | declared
  /-- Whether the field can be read, and what a value that is given to it does: it is refused, or it
  changes what the field holds. -/
  | handmade (readable : Bool) (take : Value → Except AccessError (Value → Value))

namespace Access

/-- A field that takes anything as it is. -/
def loose : Access := handmade true fun v => .ok fun _ => v

/-- A field that refuses everything. -/
def closed (readable : Bool) (why : Value → AccessError) : Access :=
  handmade readable fun v => .error (why v)

instance : DecidablePred (· = declared) := fun a =>
  match a with
  | declared => .isTrue rfl
  | handmade .. => .isFalse nofun

end Access

/-- One field of a record type. A sensitive field is redacted when redaction is in effect. -/
structure FieldDecl where
  name : String
  kind : FieldKind
  sensitive : Bool
  access : Access

/-- Whether the field can be read. -/
def FieldDecl.readable (f : FieldDecl) : Bool :=
  match f.access with
  | .declared => true
  | .handmade readable _ => readable

/-- A field together with its position in the record. -/
structure Column extends FieldDecl where
  index : Nat

/-- The declaration of a record type. Nothing keeps two fields from having one name. -/
structure TypeDecl where
  name : String
  fields : List FieldDecl

namespace TypeDecl

variable (d : TypeDecl)

/-- The fields with their positions. -/
def columns : List Column :=
  d.fields.mapIdx fun index f => { f with index }

/-- The field at a position. -/
def columnAt? (index : Nat) : Option Column :=
  d.columns[index]?

/-- The first field of a name, which must be spelled exactly. -/
def column? (name : String) : Option Column :=
  d.columns.find? (·.name = name)

/-- The first of these names that is among the names before it. -/
def firstRepeat (earlier : List String) : List String → Option String
  | [] => none
  | name :: rest => if name ∈ earlier then some name else firstRepeat (name :: earlier) rest

/-- The first field name that an earlier field already has. -/
def repeatedName? : Option String :=
  firstRepeat [] (d.fields.map (·.name))

end TypeDecl

/-! ### Values of a kind -/

namespace Value

variable (decl : TypeId → TypeDecl) (asked : FieldDecl → Bool)

mutual

/-- Whether a value is of the kind, and every record in it holds a value of its kind in each field
that is asked. Of a field that cannot be copied nothing is asked. -/
def fitsWhere : FieldKind → Value → Bool
  | .scalar k optional, v => v.scalarKind? = some k || (optional && v.isNull)
  | .scalarList k, .list items => items.all (·.scalarKind? = some k)
  | .nested _ optional, .null => optional
  | .nested t _, .record u cells => u = t && cellsFitWhere (decl u).fields cells
  | .nestedList t, .list items => itemsFitWhere t items
  | .unsupported _, _ => true
  | _, _ => false

/-- Whether there is a cell for each of these fields and no more, and each field that is asked holds
a value of its kind. -/
def cellsFitWhere : List FieldDecl → List Value → Bool
  | f :: fs, v :: vs => (!asked f || fitsWhere f.kind v) && cellsFitWhere fs vs
  | [], [] => true
  | _, _ => false

/-- Whether these are records of the type whose cells fit. -/
def itemsFitWhere (t : TypeId) : List Value → Bool
  | .record u cells :: rest =>
    u = t && cellsFitWhere (decl u).fields cells && itemsFitWhere t rest
  | [] => true
  | _ => false

end

end Value

/-- What a field of the kind starts with where nothing else is chosen: a zero value, an empty list
or nothing, and in place of a record that it cannot be without one with the given cells. -/
def FieldKind.zero (required : TypeId → List Value) : FieldKind → Value
  | .scalar kind false => .zero kind
  | .scalarList _ | .nestedList _ => .list []
  | .nested u false => .record u (required u)
  | .scalar _ true | .nested _ true | .unsupported _ => .null

/-! ### Schemas -/

/-- Record types by identity. -/
structure Schema where
  decl : TypeId → TypeDecl
  /-- The cells of a record whose fields have never been written. -/
  initialCells : TypeId → List Value
  initialCells_fit : ∀ t, Value.cellsFitWhere decl (·.access = .declared) (decl t).fields
    (initialCells t) = true

namespace Schema

/-- The schema of a table of declarations and a table of the cells that records start with, where a
type is a position in both. There is none if some of the cells do not fit. -/
def ofTables? (decls : List TypeDecl) (cells : List (List Value)) : Option Schema :=
  let decl (t : TypeId) : TypeDecl := decls.getD t.index ⟨"", []⟩
  let initialCells (t : TypeId) : List Value := cells.getD t.index []
  let fit (t : TypeId) : Bool :=
    Value.cellsFitWhere decl (·.access = .declared) (decl t).fields (initialCells t)
  if h : ∀ i < max decls.length cells.length, fit ⟨i⟩ then
    some {
      decl, initialCells
      initialCells_fit := fun t => by
        by_cases ht : t.index < max decls.length cells.length
        · exact h t.index ht
        · have hdecl : decl t = ⟨"", []⟩ := by
            simp [decl, List.getElem?_eq_none (l := decls) (i := t.index) (by omega)]
          have hcells : initialCells t = [] := by
            simp [initialCells, List.getElem?_eq_none (l := cells) (i := t.index) (by omega)]
          rw [hdecl, hcells]
          rfl }
  else none

/-- The cells of a record whose ordinary fields start with zero values, nested to a given depth.
What a hand-made field starts with is given. -/
def zeroCells (decls : List TypeDecl) (handmade : FieldDecl → Value) : Nat → TypeDecl → List Value
  | 0, _ => []
  | depth + 1, d => d.fields.map fun f =>
    if f.access = .declared then
      f.kind.zero fun u => zeroCells decls handmade depth (decls.getD u.index ⟨"", []⟩)
    else handmade f

/-- The schema of a table of declarations whose records start with zero values. There is none if a
type requires itself. -/
def ofDecls? (decls : List TypeDecl) (handmade : FieldDecl → Value) : Option Schema :=
  ofTables? decls (decls.map (zeroCells decls handmade decls.length))

/-- Types past the end of the tables have no fields. -/
theorem eq_of_ofTables? {decls : List TypeDecl} {cells : List (List Value)} {S : Schema}
    (h : ofTables? decls cells = some S) (t : TypeId) :
    S.decl t = decls.getD t.index ⟨"", []⟩ ∧ S.initialCells t = cells.getD t.index [] := by
  rw [ofTables?] at h
  split at h
  · cases h
    exact ⟨rfl, rfl⟩
  · cases h

/-- What is true of the fields of every declaration in the tables is true of those of every type. -/
theorem forall_fields_of_ofTables? {decls : List TypeDecl} {cells : List (List Value)} {S : Schema}
    (h : ofTables? decls cells = some S) {p : FieldDecl → Prop}
    (hall : ∀ d ∈ decls, ∀ f ∈ d.fields, p f) (t : TypeId) : ∀ f ∈ (S.decl t).fields, p f := by
  rw [(eq_of_ofTables? h t).1, List.getD_eq_getElem?_getD]
  cases hd : decls[t.index]? with
  | none => exact fun f hf => absurd hf List.not_mem_nil
  | some d => exact hall d (List.mem_of_getElem? hd)

variable (S : Schema)

/-- The declared name of a type. -/
def nameOf (t : TypeId) : String := (S.decl t).name

/-- The kind as messages write it. -/
def kindText (kind : FieldKind) : String := kind.text S.nameOf

end Schema

end Crosswalk
