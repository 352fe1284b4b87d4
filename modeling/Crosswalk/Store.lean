import Crosswalk.Memo
import Crosswalk.Copy.Copier
import Crosswalk.Plan.Report

/-!
# Kept plans

The plans that are kept between conversions, the compiled plans that are kept beside them, and the
log that making a plan leaves behind. A compiled plan is always compiled from the kept plan of its
key, so both ways of using a plan agree on what is linked, and each omission is logged once per key.
-/

namespace Crosswalk

structure Store where
  plans : Memo Plan
  compiled : Memo CompiledPlan
  log : List PlanEvent

namespace Store

variable (S : Schema)

def empty : Store := ⟨.empty, .empty, []⟩

def updatePlans (g : Memo Plan → Memo Plan) (s : Store) : Store :=
  { s with plans := g s.plans }

def updateCompiled (g : Memo CompiledPlan → Memo CompiledPlan) (s : Store) : Store :=
  { s with compiled := g s.compiled }

/-- Makes the plan of a key and logs what there is to say about it. -/
def makePlan (key : PlanKey) (s : Store) : Except ConvertError Plan × Store :=
  match Plan.resolve S key with
  | .ok plan => (.ok plan, { s with log := s.log ++ plan.report })
  | .error cause => (.error (.noPlan cause), s)

/-- The kept plan of a key. -/
def plan (key : PlanKey) (s : Store) : Except ConvertError Plan × Store :=
  Memo.getOrBuild Store.plans updatePlans key (makePlan S key) s

/-- Compiles the kept plan of a key. -/
def makeCompiled (key : PlanKey) (s : Store) : Except ConvertError CompiledPlan × Store :=
  let (plan, s) := s.plan S key
  (plan.map .ofPlan, s)

/-- The kept compiled plan of a key. -/
def compiledPlan (key : PlanKey) (s : Store) : Except ConvertError CompiledPlan × Store :=
  Memo.getOrBuild Store.compiled updateCompiled key (makeCompiled S key) s

end Store

end Crosswalk
