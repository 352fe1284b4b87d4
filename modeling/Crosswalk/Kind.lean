/-!
# Kinds of fields

Every field of a record declares a kind. A kind says which values the field may hold and, for two
fields of equal name, whether a value can cross from one to the other.

A *scalar kind* is one of eleven primitive shapes. Between two of them there is at most one
`ScalarConversion`, and it is a static matter: `ScalarKind.conversion` looks at the two kinds only.
Whether a particular value survives a narrowing is decided later, value by value.

A *field kind* is a scalar that may or may not be optional, a list of scalars, a nested record that
may or may not be optional, a list of records, or something that cannot be copied at all. Record
types are named by `TypeId`, their identity, and not by their declared name: two types may be
declared under one name and are still two types. That is also what lets a record type mention
itself.
-/

namespace Crosswalk

/-- The identity of a record type. -/
structure TypeId where
  index : Nat
deriving DecidableEq

/-- The primitive shape of a scalar. `timestamp` is the pair of seconds and nanoseconds that wire
messages carry, `datetime` the calendar instant that models hold. -/
inductive ScalarKind
  | bool | i32 | i64 | u32 | u64 | f32 | f64 | string | bytes | timestamp | datetime
deriving DecidableEq

/-- How a scalar changes kind on its way across. -/
inductive ScalarConversion
  /-- Both kinds are the same. -/
  | identity
  /-- Every number of the first kind is also one of the second. -/
  | widen (source target : ScalarKind)
  /-- Some numbers of the first kind are not of the second, so each value is checked. -/
  | narrow (source target : ScalarKind)
  /-- From one representation of time to the other. -/
  | timeCodec (source target : ScalarKind)
deriving DecidableEq

namespace ScalarKind

/-- All scalar kinds, in the order in which they are listed to a reader. -/
def all : List ScalarKind :=
  [bool, i32, i64, u32, u64, f32, f64, string, bytes, timestamp, datetime]

theorem mem_all (k : ScalarKind) : k ∈ all := by cases k <;> decide

/-- The integer and floating-point kinds. -/
def isNumeric : ScalarKind → Bool
  | i32 | i64 | u32 | u64 | f32 | f64 => true
  | _ => false

/-- The two representations of time. -/
def isTime : ScalarKind → Bool
  | timestamp | datetime => true
  | _ => false

/-- Whether every number of the first kind is exactly a number of the second. -/
def widensTo : ScalarKind → ScalarKind → Bool
  | i32, i64 | i32, f64 | u32, u64 | u32, i64 | u32, f64 | f32, f64 => true
  | _, _ => false

/-- The conversion between two scalar kinds, if there is one. -/
def conversion (source target : ScalarKind) : Option ScalarConversion :=
  if source = target then some .identity
  else if source.widensTo target then some (.widen source target)
  else if source.isNumeric && target.isNumeric then some (.narrow source target)
  else if source.isTime && target.isTime then some (.timeCodec source target)
  else none

/-- The name of a kind in messages. -/
def name : ScalarKind → String
  | bool => "bool"
  | i32 => "i32"
  | i64 => "i64"
  | u32 => "u32"
  | u64 => "u64"
  | f32 => "f32"
  | f64 => "f64"
  | string => "string"
  | bytes => "bytes"
  | timestamp => "timestamp"
  | datetime => "datetime"

/-- The kind of a name. -/
def ofName? (name : String) : Option ScalarKind :=
  all.find? (·.name = name)

/-- The spelling of a kind in stored documents, where words are joined by underscores. -/
def tag : ScalarKind → String
  | datetime => "date_time"
  | k => k.name

/-- The kind that a stored document spells so. Spelling is exact. -/
def ofTag? (text : String) : Option ScalarKind :=
  all.find? (·.tag = text)

end ScalarKind

/-- What makes a field impossible to copy. -/
inductive UnsupportedKind
  | function | channel | union
deriving DecidableEq

namespace UnsupportedKind

def all : List UnsupportedKind := [function, channel, union]

/-- The name in messages, which is also the spelling in stored documents. -/
def name : UnsupportedKind → String
  | function => "function"
  | channel => "channel"
  | union => "union"

/-- The kind that a stored document spells so. -/
def ofTag? (text : String) : Option UnsupportedKind :=
  all.find? (·.name = text)

end UnsupportedKind

/-- The kind of a record field. -/
inductive FieldKind
  | scalar (kind : ScalarKind) (optional : Bool)
  | scalarList (kind : ScalarKind)
  | nested (type : TypeId) (optional : Bool)
  | nestedList (type : TypeId)
  | unsupported (what : UnsupportedKind)
deriving DecidableEq

namespace FieldKind

/-- What stands in the way of copying the field, if anything does. -/
def unsupported? : FieldKind → Option UnsupportedKind
  | unsupported what => some what
  | _ => none

/-- The record type inside a nested field or a list of records. -/
def nestedType? : FieldKind → Option TypeId
  | nested type _ | nestedList type => some type
  | _ => none

/-- The kind as messages write it. Record types appear under their declared names, which `nameOf`
supplies. -/
def text (nameOf : TypeId → String) : FieldKind → String
  | scalar kind false => kind.name
  | scalar kind true => "optional " ++ kind.name
  | scalarList kind => "list of " ++ kind.name
  | nested type false => "record " ++ nameOf type
  | nested type true => "optional record " ++ nameOf type
  | nestedList type => "list of record " ++ nameOf type
  | unsupported what => "unsupported " ++ what.name

/-- What follows some words at the beginning of a text. -/
def after? (words text : String) : Option String :=
  if words.toList.isPrefixOf text.toList then
    some (.ofList (text.toList.drop words.length))
  else none

/-- The kind that is written so, where `typeOf?` finds record types by name. -/
def ofText? (typeOf? : String → Option TypeId) (text : String) : Option FieldKind :=
  match after? "optional record " text, after? "list of record " text, after? "record " text with
  | some name, _, _ => (typeOf? name).map (nested · true)
  | _, some name, _ => (typeOf? name).map nestedList
  | _, _, some name => (typeOf? name).map (nested · false)
  | _, _, _ =>
    match after? "optional " text, after? "list of " text, after? "unsupported " text with
    | some name, _, _ => (ScalarKind.ofName? name).map (scalar · true)
    | _, some name, _ => (ScalarKind.ofName? name).map scalarList
    | _, _, some name => (UnsupportedKind.ofTag? name).map unsupported
    | _, _, _ => (ScalarKind.ofName? text).map (scalar · false)

/-- The kind as diagnostics write it. -/
def debugText (nameOf : TypeId → String) (kind : FieldKind) : String :=
  "FieldKind(" ++ kind.text nameOf ++ ")"

end FieldKind

end Crosswalk
