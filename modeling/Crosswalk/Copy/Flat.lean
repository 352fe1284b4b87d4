import Crosswalk.Error
import Crosswalk.Value.Coerce

/-!
# Copying values that hold no records

How a link turns the value of its source field into a value for its target field, as far as no
nested record is involved. A scalar that is present is coerced; under `ScalarConversion.identity` it
is not even looked at. An absent scalar stays absent, unless the target is required and gets the
zero value of its kind. A list of scalars is coerced item by item, and the first item that fails is
the one reported.
-/

namespace Crosswalk

namespace ScalarConversion

/-- The value after the conversion, if it has a counterpart. -/
def image? (c : ScalarConversion) (v : Value) : Option Value :=
  match c with
  | identity => some v
  | widen _ target | narrow _ target | timeCodec _ target => v.coerce? target

end ScalarConversion

namespace Link

variable (l : Link)

/-- The failure of this link for a reason of its own. -/
def mismatch (reason : MismatchReason) : ConvertError :=
  .mismatch [⟨l.name, none⟩] l.sourceKind l.targetKind reason

/-- The failure of one item of this link's list. -/
def itemMismatch (index : Nat) (reason : MismatchReason) : ConvertError :=
  .mismatch [⟨l.name, some index⟩] l.sourceKind l.targetKind reason

/-- The failure over a value whose shape the source kind does not allow. -/
def unexpected (v : Value) : ConvertError :=
  l.mismatch (.unexpectedShape v.shapeName)

/-- What an absent scalar becomes. -/
def absentScalar (presence : Presence) : Value :=
  match presence, l.targetKind with
  | .unwrap, .scalar kind _ => .zero kind
  | _, _ => .null

/-- What a scalar becomes. -/
def carryScalar (c : ScalarConversion) (presence : Presence) (v : Value) :
    Except ConvertError Value :=
  if v.isNull then .ok (l.absentScalar presence)
  else match c.image? v with
    | some w => .ok w
    | none => .error (l.mismatch (.lossy c))

/-- What the items of a list of scalars become, counted from a given index. -/
def carryScalars (c : ScalarConversion) : Nat → List Value → Except ConvertError (List Value)
  | _, [] => .ok []
  | index, v :: vs =>
    match c.image? v with
    | none => .error (l.itemMismatch index (.lossy c))
    | some w => (carryScalars c (index + 1) vs).map (w :: ·)

/-- What a value becomes on a link that moves no nested record. -/
def carryFlat (v : Value) : Except ConvertError Value :=
  match l.transfer, v with
  | .scalar c presence, v => l.carryScalar c presence v
  | .scalarList _, .null | .nestedList _, .null => .ok (.list [])
  | .scalarList c, .list items => (l.carryScalars c 0 items).map .list
  | .nested _, .null => .ok .null
  | .impossible source target, _ => .error (l.mismatch (.noConversion source target))
  | _, v => .error (l.unexpected v)

end Link

end Crosswalk
