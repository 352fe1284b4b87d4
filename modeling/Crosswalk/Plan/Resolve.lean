import Crosswalk.Plan

/-!
# Making a plan

A plan depends on the two declarations and the direction only. Neither type may have two fields of
one name, since a link would not know which of them is meant; that is the only way to have no plan.

The fields of the model are taken in order. One whose kind cannot be copied is left out, and so is
one without a wire field of its name; the others are linked, unless it is the wire field that cannot
be copied. Then the fields of the wire type are taken in order, and those that no link names are
left out.
-/

namespace Crosswalk

/-- A type with two fields of one name, which has no plans. -/
structure RepeatedField where
  key : PlanKey
  type : TypeId
  field : String
deriving DecidableEq

namespace RepeatedField

/-- What is wrong with the type. -/
def reason (S : Schema) (e : RepeatedField) : String :=
  S.nameOf e.type ++ " declares field '" ++ e.field ++ "' more than once"

end RepeatedField

namespace Plan

/-- The link of a model field, if it has one. -/
def linkFor? (direction : Direction) (wire : TypeDecl) (m : Column) : Option Link :=
  if m.kind.unsupported?.isSome then none
  else match wire.column? m.name with
    | none => none
    | some w => if w.kind.unsupported?.isSome then none else some (.join direction w m)

/-- The omission of a model field, if it is left out. -/
def modelOmission? (wire : TypeDecl) (m : Column) : Option Omission :=
  match m.kind.unsupported? with
  | some what => some ⟨m.name, .model, .unsupported what⟩
  | none => if (wire.column? m.name).isSome then none else some ⟨m.name, .model, .oneSided⟩

/-- The omission of a wire field, if none of the links names it. -/
def wireOmission? (links : List Link) (w : Column) : Option Omission :=
  if links.any (·.name = w.name) then none
  else match w.kind.unsupported? with
    | some what => some ⟨w.name, .wire, .unsupported what⟩
    | none => some ⟨w.name, .wire, .oneSided⟩

/-- The plan for two declarations whose field names are distinct. -/
def ofDecls (key : PlanKey) (wire model : TypeDecl) : Plan :=
  let links := model.columns.filterMap (linkFor? key.direction wire)
  { key, links
    omissions := model.columns.filterMap (modelOmission? wire) ++
      wire.columns.filterMap (wireOmission? links) }

/-- The plan of a key. The wire type is examined for a repeated name first. -/
def resolve (S : Schema) (key : PlanKey) : Except RepeatedField Plan :=
  let wire := S.decl key.pair.wire
  let model := S.decl key.pair.model
  match wire.repeatedName?, model.repeatedName? with
  | some field, _ => .error ⟨key, key.pair.wire, field⟩
  | none, some field => .error ⟨key, key.pair.model, field⟩
  | none, none => .ok (ofDecls key wire model)

end Plan

end Crosswalk
