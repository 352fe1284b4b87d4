import Crosswalk.Proofs.Histories
import Mathlib.Data.List.Induction
import Mathlib.Data.List.Nodup

/-!
# What one request does to a memo

`Crosswalk.Proofs.Histories` says what a request answers. This module says what it leaves behind,
which is one of two things. A request for a key that is there changes nothing. A request for a new
key adds one finished entry at the end (`Memo.add`), and the entries that were there stay as they
are. For the kept plans and the kept compiled plans of a store this comes as equations:
`Store.plan_of_mem` and `Store.plan_of_not_mem`, and the same two for compiled plans, where a new
key first asks for the plan.

So the number of builds is the number of entries and no key has two of them, as long as it was so
before (`Memo.Tidy`).
-/

namespace Crosswalk

/-! ### Keys in the order of their first mention -/

theorem eraseDups_concat (keys : List PlanKey) (key : PlanKey) :
    (keys ++ [key]).eraseDups = keys.eraseDups ++ if key ∈ keys then [] else [key] := by
  rw [List.eraseDups_append]
  by_cases h : key ∈ keys <;> simp [List.removeAll, h, List.eraseDups_cons]

theorem nodup_eraseDups (keys : List PlanKey) : keys.eraseDups.Nodup := by
  induction keys using List.reverseRecOn with
  | nil => exact List.nodup_nil
  | append_singleton keys key ih =>
    rw [eraseDups_concat]
    split_ifs with h
    · rwa [List.append_nil]
    · refine ih.append (List.nodup_singleton key) (List.disjoint_singleton.mpr fun hkey => h ?_)
      exact List.mem_eraseDups.mp hkey

namespace Memo

variable {α σ : Type} {answer : PlanKey → Except ConvertError α} {m : Memo α} {key : PlanKey}

/-- The keys that there are entries for, in the order in which they came. -/
def keys (m : Memo α) : List PlanKey := m.slots.map Prod.fst

/-- The memo with a finished entry for a new key. -/
def add (m : Memo α) (key : PlanKey) (result : Except ConvertError α) : Memo α where
  slots := m.slots ++ [(key, .done result)]
  builds := m.builds + 1

@[simp] theorem keys_add (m : Memo α) (key : PlanKey) (result : Except ConvertError α) :
    (m.add key result).keys = m.keys ++ [key] := by
  simp [keys, add]

theorem slot?_eq_none_iff : m.slot? key = none ↔ key ∉ m.keys := by
  rw [slot?, List.lookup_eq_none_iff, keys, List.mem_map, not_exists]
  refine forall_congr' fun slot => ?_
  rw [not_and, bne_iff_ne, ne_comm]

theorem slot?_of_not_mem (h : key ∉ m.keys) : m.slot? key = none := slot?_eq_none_iff.mpr h

theorem result?_of_not_mem (h : key ∉ m.keys) : m.result? key = none := by
  rw [result?, slot?_of_not_mem h]

/-- A settled memo has the answer for every key that it has an entry for. -/
theorem Settled.result?_of_mem (hm : m.Settled answer) (h : key ∈ m.keys) :
    m.result? key = some (answer key) := by
  have hfound : m.slot? key ≠ none := fun hnone => slot?_eq_none_iff.mp hnone h
  obtain ⟨slot, hslot⟩ := Option.ne_none_iff_exists'.mp hfound
  obtain ⟨before, after, hslots, -⟩ := List.lookup_eq_some_iff.mp hslot
  have hdone : slot = .done (answer key) := hm key slot (by simp [hslots])
  rw [result?, hslot, hdone]

/-- A build for a new key, from its beginning to its end. -/
theorem finish_start_of_not_mem (h : key ∉ m.keys) (result : Except ConvertError α) :
    (m.start key).finish key result = m.add key result := by
  have hold : ∀ slot ∈ m.slots, slot.1 ≠ key := fun slot hslot heq =>
    h (heq ▸ List.mem_map_of_mem hslot)
  have hkept : m.slots.map (fun slot => (slot.1, if slot.1 = key then .done result else slot.2)) =
      m.slots := by
    conv_rhs => rw [← List.map_id m.slots]
    refine List.map_congr_left fun slot hslot => ?_
    rw [if_neg (hold slot hslot)]
    rfl
  simp only [finish, start, add, slot?_of_not_mem h, Option.isSome_none, Bool.false_eq_true,
    if_false, List.map_append, List.map_cons, List.map_nil, if_true, hkept]

/-! ### Tidiness -/

/-- No key has two entries, and there was one build for each entry. -/
structure Tidy (m : Memo α) : Prop where
  nodup : m.keys.Nodup
  builds_eq : m.builds = m.entries

theorem tidy_empty : (empty : Memo α).Tidy := ⟨List.nodup_nil, rfl⟩

theorem Tidy.add (hm : m.Tidy) (h : key ∉ m.keys) (result : Except ConvertError α) :
    (m.add key result).Tidy := by
  constructor
  · rw [keys_add, List.nodup_append]
    refine ⟨hm.nodup, List.nodup_singleton key, fun k hk k' hk' heq => h ?_⟩
    rwa [← List.mem_singleton.mp hk', ← heq]
  · have hbuilds := hm.builds_eq
    simp only [Memo.add, entries, List.length_append, List.length_singleton] at hbuilds ⊢
    omega

end Memo

namespace Store

variable {S : Schema} {key : PlanKey} {s : Store}

/-! ### Requests for plans -/

/-- What is logged when the plan of a key is made. -/
def logOf (S : Schema) (key : PlanKey) : List PlanEvent :=
  match Plan.resolve S key with
  | .ok plan => plan.report
  | .error _ => []

theorem makePlan_eq (key : PlanKey) (s : Store) :
    makePlan S key s = (planAnswer S key, { s with log := s.log ++ logOf S key }) := by
  rw [makePlan, planAnswer, logOf]
  cases Plan.resolve S key with
  | ok plan => rfl
  | error cause => simp [Except.mapError]

theorem plan_of_mem (hs : s.plans.Settled (planAnswer S)) (h : key ∈ s.plans.keys) :
    s.plan S key = (planAnswer S key, s) := by
  rw [plan, Memo.getOrBuild, hs.result?_of_mem h]

theorem plan_of_not_mem (h : key ∉ s.plans.keys) :
    s.plan S key = (planAnswer S key,
      { s with plans := s.plans.add key (planAnswer S key), log := s.log ++ logOf S key }) := by
  rw [plan, Memo.getOrBuild, Memo.result?_of_not_mem h]
  simp only [makePlan_eq, updatePlans, Memo.finish_start_of_not_mem h]

/-- A request for a plan does not look at the compiled plans. -/
theorem plan_updateCompiled (hs : s.plans.Settled (planAnswer S))
    (g : Memo CompiledPlan → Memo CompiledPlan) :
    (updateCompiled g s).plan S key = ((s.plan S key).1, updateCompiled g (s.plan S key).2) := by
  by_cases h : key ∈ s.plans.keys
  · rw [plan_of_mem hs h]
    exact plan_of_mem (s := updateCompiled g s) hs h
  · rw [plan_of_not_mem h]
    exact plan_of_not_mem (s := updateCompiled g s) h

/-! ### Requests for compiled plans -/

/-- What there is to be kept as the compiled plan of a key. -/
def compiledAnswer (S : Schema) (key : PlanKey) : Except ConvertError CompiledPlan :=
  (planAnswer S key).map .ofPlan

theorem compiledPlan_of_mem (hs : s.compiled.Settled (compiledAnswer S))
    (h : key ∈ s.compiled.keys) : s.compiledPlan S key = (compiledAnswer S key, s) := by
  rw [compiledPlan, Memo.getOrBuild, hs.result?_of_mem h]

/-- A new compiled plan is compiled from the kept plan, which is made before if it is new too. -/
theorem compiledPlan_of_not_mem (hs : s.Consistent S) (h : key ∉ s.compiled.keys) :
    s.compiledPlan S key = (compiledAnswer S key,
      updateCompiled (·.add key (compiledAnswer S key)) (s.plan S key).2) := by
  obtain ⟨hanswer, -, hcompiled⟩ := plan_spec (S := S) key hs.plans
  rw [compiledPlan, Memo.getOrBuild, Memo.result?_of_not_mem h]
  simp only [makeCompiled, plan_updateCompiled hs.plans]
  rw [hanswer]
  simp only [updateCompiled, hcompiled, compiledAnswer, Memo.finish_start_of_not_mem h]

end Store

end Crosswalk
