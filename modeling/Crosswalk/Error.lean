import Crosswalk.Record
import Crosswalk.Plan.Resolve

/-!
# Failures of a conversion

A failure is kept as its cause. Only `ConvertError.message` turns it into words, and for that it
needs the schema, since messages call types by their declared names.

A field that fails inside nested records is reported with its whole path: the fields on the way
down, the position of the record where a list was entered, and at the end the field itself.
-/

namespace Crosswalk

/-- One step of the way to a field: its name, and the item if the step goes into a list. -/
structure PathStep where
  name : String
  item : Option Nat
deriving DecidableEq

namespace PathStep

def text (s : PathStep) : String :=
  match s.item with
  | none => s.name
  | some index => s!"{s.name}[{index}]"

end PathStep

/-- The way to a field from the outermost record. -/
abbrev FieldPath := List PathStep

namespace FieldPath

/-- The steps joined by dots. -/
def text (path : FieldPath) : String :=
  ".".intercalate (path.map PathStep.text)

end FieldPath

/-- Why the value of a field could not be copied. -/
inductive MismatchReason
  /-- The value has no counterpart under the conversion. -/
  | lossy (conversion : ScalarConversion)
  /-- The source field holds a value of a shape that its kind does not allow. -/
  | unexpectedShape (shape : String)
  /-- The target field did not take the value. -/
  | refused (error : AccessError)
  /-- There is no way from the one kind to the other. -/
  | noConversion (source target : FieldKind)
deriving DecidableEq

namespace MismatchReason

def text (S : Schema) : MismatchReason → String
  | lossy (.widen _ target) | lossy (.narrow _ target) => s!"value does not fit in {target.name}"
  | lossy (.timeCodec ..) => "timestamp is outside the supported range"
  | lossy .identity => "value has the wrong shape"
  | unexpectedShape shape => s!"source produced a {shape} value"
  | refused error => error.message S
  | noConversion source target => s!"{S.kindText source} has no conversion to {S.kindText target}"

end MismatchReason

/-- A rule that a record does not satisfy. -/
structure RuleFailure where
  typeName : String
  field : String
  message : String
deriving DecidableEq

namespace RuleFailure

def text (f : RuleFailure) : String :=
  s!"validation failed for {f.typeName}.{f.field}: {f.message}"

end RuleFailure

/-- The two records of a conversion. -/
inductive Endpoint
  | source | destination
deriving DecidableEq

namespace Endpoint

def name : Endpoint → String
  | source => "source"
  | destination => "destination"

end Endpoint

/-- Why a conversion failed. -/
inductive ConvertError
  /-- A linked field could not be copied. -/
  | mismatch (path : FieldPath) (source target : FieldKind) (reason : MismatchReason)
  /-- A field cannot be copied at all. It is reported with a plan and never stops a conversion. -/
  | unsupportedField (field : String) (what : UnsupportedKind)
  /-- The converted record does not satisfy a rule. -/
  | invalid (failure : RuleFailure)
  /-- One of the two records is not there. -/
  | absent (endpoint : Endpoint)
  /-- There is no plan for the two types. -/
  | noPlan (cause : RepeatedField)
  /-- An element of a list failed. -/
  | element (index : Nat) (error : ConvertError)
  /-- A field could not be reached. -/
  | access (error : AccessError)
  /-- The settings make no sense. -/
  | config (text : String)
deriving DecidableEq

namespace ConvertError

/-- The failure as seen from the record that holds the failing one under this step. -/
def within (step : PathStep) : ConvertError → ConvertError
  | mismatch path source target reason => mismatch (step :: path) source target reason
  | e => e

def message (S : Schema) : ConvertError → String
  | mismatch path source target reason =>
    "field '" ++ FieldPath.text path ++ "': cannot copy " ++ S.kindText source ++ " into " ++
      S.kindText target ++ ": " ++ reason.text S
  | unsupportedField field what =>
    "field '" ++ field ++ "' has unsupported kind " ++ what.name ++ " and is excluded"
  | invalid failure => failure.text
  | absent endpoint => s!"{endpoint.name} record is absent"
  | noPlan cause => s!"cannot build conversion plan for {cause.key.text S}: {cause.reason S}"
  | element index error => s!"element {index}: {error.message S}"
  | access error => s!"record access failed: {error.message S}"
  | config text => s!"invalid configuration: {text}"

/-- The field at which a conversion failed, where the failure is about a field. -/
def field? : ConvertError → Option String
  | mismatch path .. => some (FieldPath.text path)
  | unsupportedField field _ => some field
  | invalid failure => some failure.field
  | element _ error => error.field?
  | _ => none

end ConvertError

namespace Plan

/-- The warnings that come with a plan. -/
def warnings (p : Plan) : List ConvertError :=
  p.unsupported.map fun (field, what) => .unsupportedField field what

end Plan

end Crosswalk
