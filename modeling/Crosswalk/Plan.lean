import Crosswalk.Schema

/-!
# Plans

Records come in pairs of types: a *wire* type, as messages carry it, and a *model* type, as the
program holds it. A `PlanKey` is such a pair with a direction. A `Plan` for a key says, field by
field, what a conversion in that direction does.

* A `Link` joins two fields of one name. It knows both positions and both kinds, and its `Transfer`
  says how a value crosses. A transfer that is `impossible` stays in the plan: it is the conversion
  that fails, when it comes to that field.
* An `Omission` is a field that takes no part, with the side it was declared on and the cause.

The links are in the order of the model's fields in both directions.
-/

namespace Crosswalk

/-- The direction of a conversion. -/
inductive Direction
  | toModel | toWire
deriving DecidableEq

namespace Direction

def all : List Direction := [toModel, toWire]

def name : Direction → String
  | toModel => "to_model"
  | toWire => "to_wire"

/-- The name in diagnostics. -/
def debugName : Direction → String
  | toModel => "ToModel"
  | toWire => "ToWire"

/-- The direction that a stored document spells so. -/
def ofTag? (text : String) : Option Direction :=
  all.find? (·.name = text)

end Direction

/-- A wire type and a model type. -/
structure TypePair where
  wire : TypeId
  model : TypeId
deriving DecidableEq

namespace TypePair

def debugText (S : Schema) (p : TypePair) : String :=
  s!"TypePair({S.nameOf p.wire} <-> {S.nameOf p.model})"

end TypePair

/-- A pair of types and a direction. Two keys are equal when the types are, whatever their declared
names. -/
structure PlanKey where
  pair : TypePair
  direction : Direction
deriving DecidableEq

namespace PlanKey

/-- The key for copying records of the source type into records of the target type. -/
def between (source target : TypeId) : Direction → PlanKey
  | .toModel => ⟨⟨source, target⟩, .toModel⟩
  | .toWire => ⟨⟨target, source⟩, .toWire⟩

def source (key : PlanKey) : TypeId :=
  match key.direction with
  | .toModel => key.pair.wire
  | .toWire => key.pair.model

def target (key : PlanKey) : TypeId :=
  match key.direction with
  | .toModel => key.pair.model
  | .toWire => key.pair.wire

@[simp] theorem source_between (s t : TypeId) (d : Direction) : (between s t d).source = s := by
  cases d <;> rfl

@[simp] theorem target_between (s t : TypeId) (d : Direction) : (between s t d).target = t := by
  cases d <;> rfl

@[simp] theorem direction_between (s t : TypeId) (d : Direction) :
    (between s t d).direction = d := by
  cases d <;> rfl

/-- The key in messages. -/
def text (S : Schema) (key : PlanKey) : String :=
  s!"{S.nameOf key.source} -> {S.nameOf key.target}"

def debugText (S : Schema) (key : PlanKey) : String :=
  "PlanKey \x7b pair: " ++ key.pair.debugText S ++ ", direction: " ++
    key.direction.debugName ++ " \x7d"

end PlanKey

/-- How the presence of a value changes on its way across. -/
inductive Presence
  | same
  /-- From a required field to an optional one. -/
  | wrap
  /-- From an optional field to a required one, where an absent value becomes the zero value. -/
  | unwrap
deriving DecidableEq

namespace Presence

def between (sourceOptional targetOptional : Bool) : Presence :=
  match sourceOptional, targetOptional with
  | false, true => wrap
  | true, false => unwrap
  | _, _ => same

def name : Presence → String
  | same => "same"
  | wrap => "wrap"
  | unwrap => "unwrap"

end Presence

/-- How the value of a field crosses to the field of the same name. -/
inductive Transfer
  | scalar (conversion : ScalarConversion) (presence : Presence)
  | scalarList (conversion : ScalarConversion)
  | nested (key : PlanKey)
  | nestedList (key : PlanKey)
  | impossible (source target : FieldKind)
deriving DecidableEq

namespace Transfer

/-- How a value of one kind crosses to a field of another. Nested records cross by the plan of their
own types in the same direction. -/
def between (source target : FieldKind) (direction : Direction) : Transfer :=
  match source, target with
  | .scalar k optional, .scalar l optional' =>
    match k.conversion l with
    | some conversion => .scalar conversion (.between optional optional')
    | none => .impossible source target
  | .scalarList k, .scalarList l =>
    match k.conversion l with
    | some conversion => .scalarList conversion
    | none => .impossible source target
  | .nested t _, .nested u _ => .nested (.between t u direction)
  | .nestedList t, .nestedList u => .nestedList (.between t u direction)
  | _, _ => .impossible source target

/-- Whether a value that fits the source field is handed over untouched. -/
def isDirect : Transfer → Bool
  | scalar .identity .same | scalarList .identity => true
  | _ => false

theorem isDirect_iff {t : Transfer} :
    t.isDirect = true ↔ t = scalar .identity .same ∨ t = scalarList .identity := by
  rw [isDirect.eq_def]
  split
  · simp
  · simp
  · next hscalar hlist =>
    simp only [Bool.false_eq_true, false_iff, not_or]
    exact ⟨hscalar, hlist⟩

/-- Nothing that moves records is handed over. -/
theorem not_nested_of_isDirect {t : Transfer} (h : t.isDirect = true) :
    (∀ key, t ≠ nested key) ∧ ∀ key, t ≠ nestedList key := by
  rcases isDirect_iff.mp h with rfl | rfl
  · exact ⟨fun _ => Transfer.noConfusion, fun _ => Transfer.noConfusion⟩
  · exact ⟨fun _ => Transfer.noConfusion, fun _ => Transfer.noConfusion⟩

end Transfer

/-- Two fields of one name, joined. -/
structure Link where
  name : String
  sourceIndex : Nat
  targetIndex : Nat
  sourceKind : FieldKind
  targetKind : FieldKind
  transfer : Transfer
deriving DecidableEq

namespace Link

/-- The link of a wire field and a model field in a direction. -/
def join (direction : Direction) (wire model : Column) : Link :=
  let (source, target) := match direction with
    | .toModel => (wire, model)
    | .toWire => (model, wire)
  { name := model.name
    sourceIndex := source.index
    targetIndex := target.index
    sourceKind := source.kind
    targetKind := target.kind
    transfer := .between source.kind target.kind direction }

end Link

/-- The record that a field was declared on. -/
inductive Side
  | wire | model
deriving DecidableEq

namespace Side

def all : List Side := [wire, model]

/-- The spelling in stored documents. -/
def tag : Side → String
  | wire => "wire"
  | model => "model"

/-- The name in diagnostics. -/
def debugName : Side → String
  | wire => "Wire"
  | model => "Model"

def ofTag? (text : String) : Option Side :=
  all.find? (·.tag = text)

end Side

/-- Why a field takes no part in a conversion. -/
inductive OmissionCause
  /-- It has no field to be linked with. -/
  | oneSided
  /-- Its kind cannot be copied. -/
  | unsupported (what : UnsupportedKind)
deriving DecidableEq

/-- A field that takes no part in a conversion. -/
structure Omission where
  name : String
  side : Side
  cause : OmissionCause
deriving DecidableEq

/-- What a conversion does, field by field. -/
structure Plan where
  key : PlanKey
  links : List Link
  omissions : List Omission
deriving DecidableEq

namespace Plan

variable (p : Plan)

def link? (name : String) : Option Link :=
  p.links.find? (·.name = name)

/-- The names of the linked fields, in order. -/
def fieldNames : List String :=
  p.links.map (·.name)

/-- The fields that were left out because of their kind. -/
def unsupported : List (String × UnsupportedKind) :=
  p.omissions.filterMap fun o =>
    match o.cause with
    | .unsupported what => some (o.name, what)
    | .oneSided => none

end Plan

end Crosswalk
