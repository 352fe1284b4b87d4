import Crosswalk.Plan

/-!
# What is logged about a plan

When a plan is made and kept, its omissions are logged in order and then its completion. Only an
omission because of the kind of a field is a warning; the rest is for those who look closely.
-/

namespace Crosswalk

/-- An entry of the log. -/
inductive PlanEvent
  | omitted (key : PlanKey) (omission : Omission)
  | built (key : PlanKey) (links omissions : Nat)
deriving DecidableEq

namespace PlanEvent

/-- Whether the entry warns about a field that cannot be copied, and about which. -/
def warning? : PlanEvent → Option (PlanKey × String × UnsupportedKind)
  | omitted key ⟨name, _, .unsupported what⟩ => some (key, name, what)
  | _ => none

def message : PlanEvent → String
  | omitted _ ⟨_, _, .unsupported _⟩ => "Unsupported field kind excluded from conversion plan"
  | omitted _ ⟨_, _, .oneSided⟩ => "Field has no counterpart, skipped"
  | built .. => "Conversion plan built"

end PlanEvent

/-- The entries that a plan leaves in the log. -/
def Plan.report (p : Plan) : List PlanEvent :=
  p.omissions.map (.omitted p.key) ++ [.built p.key p.links.length p.omissions.length]

end Crosswalk
