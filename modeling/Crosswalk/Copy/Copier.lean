import Crosswalk.Record
import Crosswalk.Plan

/-!
# Copiers

A `Copier` is one link of a plan made ready to be carried out. It fixes how the two fields are
reached, by their name or by the positions that the link has stored, and whether the value is
converted on the way or handed over untouched. Only a link between equal kinds of equal presence is
handed over, and only by position.
-/

namespace Crosswalk

inductive Copier
  /-- Reaches both fields by name. -/
  | byName (link : Link)
  /-- Reaches both fields by position. -/
  | byPosition (link : Link)
  /-- Reaches both fields by position and does not look at the value. -/
  | handOver (link : Link)
deriving DecidableEq

namespace Copier

variable (S : Schema)

def link : Copier → Link
  | byName link | byPosition link | handOver link => link

/-- The copier by position that a link is compiled to. -/
def compile (link : Link) : Copier :=
  if link.transfer.isDirect then handOver link else byPosition link

/-- The position at which a record of the type is read, if it can be read there. -/
def sourceIndex? (c : Copier) (type : TypeId) : Option Nat :=
  let index? : Option Nat := match c with
    | byName link => ((S.decl type).column? link.name).map Column.index
    | byPosition link | handOver link => some link.sourceIndex
  index?.filter (S.decl type).readableAt

/-- The value of the source field. -/
def read? (c : Copier) (src : Record) : Option Value :=
  (c.sourceIndex? S src.type).bind (src.cells[·]?)

/-- The destination after a value has been written to the target field. -/
def write (c : Copier) (dst : Record) (v : Value) : Except AccessError Record :=
  match c with
  | byName link => dst.setByName S link.name v
  | byPosition link | handOver link => dst.set S link.targetIndex v

theorem read?_byName (link : Link) (src : Record) :
    (byName link).read? S src = src.getByName? S link.name := by
  simp only [read?, sourceIndex?, Record.getByName?, Record.get?, Record.decl]
  cases (S.decl src.type).column? link.name with
  | none => rfl
  | some c =>
    simp only [Option.map_some, Option.filter_some, Option.bind_some]
    split <;> simp_all

theorem read?_byPosition (link : Link) (src : Record) :
    (byPosition link).read? S src = src.get? S link.sourceIndex := by
  simp only [read?, sourceIndex?, Record.get?, Record.decl, Option.filter_some]
  split <;> simp_all

theorem read?_handOver (link : Link) (src : Record) :
    (handOver link).read? S src = src.get? S link.sourceIndex :=
  read?_byPosition S link src

end Copier

/-- A plan with a copier for each link. -/
structure CompiledPlan where
  plan : Plan
  copiers : List Copier
deriving DecidableEq

namespace CompiledPlan

def ofPlan (plan : Plan) : CompiledPlan := ⟨plan, plan.links.map .compile⟩

/-- The compiled plan in diagnostics. -/
def debugText (S : Schema) (p : CompiledPlan) : String :=
  "CompiledPlan \x7b key: " ++ p.plan.key.debugText S ++ ", copiers: " ++
    toString p.copiers.length ++ " \x7d"

end CompiledPlan

end Crosswalk
