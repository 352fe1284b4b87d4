import Crosswalk.Proofs.CacheContents
import Crosswalk.Proofs.Links

/-!
# Warnings

A plan leaves out the fields that cannot be copied, and when it is made and kept there is a warning
in the log for each of them. So a warning comes when the plan is needed for the first time, and not
with every conversion. This module says which warnings there are after any history of requests, and
in which order.

It takes two facts. One is about a plan alone: the fields that it leaves out because of their kind
are all those fields of its two types, and none of them twice (`Plan.unsupported_of_resolve`). The
wire side is the delicate one, since a wire field is left out only if no link names it. The other is
about a store (`Store.Reported`): its log is made up of the reports on the keys that were reached,
in the order in which they were reached for the first time. Both ways of keeping plans lead to a
report, since a compiled plan is compiled from the kept plan, and neither leads to a second one.

Which keys a history reaches, and in which order, is told by the trails of its conversions and not
by the store. `Store.warnings_after` puts all of it together.
-/

namespace Crosswalk

/-! ### Fields that cannot be copied -/

/-- The fields of a type that cannot be copied, in order, and what is in the way. -/
def TypeDecl.unsupportedFields (d : TypeDecl) : List (String × UnsupportedKind) :=
  d.fields.filterMap fun f => f.kind.unsupported?.map (f.name, ·)

theorem TypeDecl.unsupportedFields_eq (d : TypeDecl) : d.unsupportedFields =
    d.columns.filterMap fun c => c.kind.unsupported?.map (c.name, ·) := by
  rw [unsupportedFields, ← map_toFieldDecl_columns, List.filterMap_map]
  rfl

namespace Plan

variable {S : Schema} {key : PlanKey} {plan : Plan}

/-- A wire field of a name that is linked can be copied. -/
theorem unsupported?_eq_none_of_linked {direction : Direction} {wire model : TypeDecl}
    (hwire : wire.names.Nodup) {w : Column} (hw : w ∈ wire.columns)
    (h : (model.columns.filterMap (linkFor? direction wire)).any (·.name = w.name) = true) :
    w.kind.unsupported? = none := by
  obtain ⟨l, hl, hname⟩ := List.any_eq_true.mp h
  obtain ⟨m, -, hm⟩ := List.mem_filterMap.mp hl
  rw [linkFor?_eq, Option.map_eq_some_iff] at hm
  obtain ⟨partner, hpartner, rfl⟩ := hm
  obtain ⟨-, hcolumn, hsupported⟩ := partner?_eq_some_iff.mp hpartner
  obtain ⟨hmem, hpartnerName⟩ := wire.mem_of_column? hcolumn
  have hsame : partner.name = w.name := by
    rw [hpartnerName, ← name_join direction partner m]
    simpa using hname
  rwa [← TypeDecl.eq_of_name_eq hwire hmem hw hsame]

/-- **What a plan leaves out because of its kind** are the fields of the model and then those of the
wire type that cannot be copied, each once. -/
theorem unsupported_of_resolve (h : resolve S key = .ok plan) :
    plan.unsupported = (S.decl key.pair.model).unsupportedFields ++
      (S.decl key.pair.wire).unsupportedFields := by
  obtain ⟨hwire, -, rfl⟩ := resolve_eq_ok_iff.mp h
  rw [unsupported, ofDecls, List.filterMap_append, List.filterMap_filterMap,
    List.filterMap_filterMap, TypeDecl.unsupportedFields_eq, TypeDecl.unsupportedFields_eq]
  congr 1
  · refine List.filterMap_congr fun m _ => ?_
    rw [modelOmission?]
    cases m.kind.unsupported? with
    | some what => rfl
    | none => cases (S.decl key.pair.wire).column? m.name <;> rfl
  · refine List.filterMap_congr fun w hw => ?_
    rw [wireOmission?]
    split
    · next hlinked =>
      rw [unsupported?_eq_none_of_linked hwire hw hlinked]
      rfl
    · cases w.kind.unsupported? <;> rfl

/-- The warnings in the report of a plan are about what it leaves out because of its kind. -/
theorem filterMap_warning?_report (plan : Plan) :
    plan.report.filterMap PlanEvent.warning? = plan.unsupported.map (plan.key, ·) := by
  rw [report, List.filterMap_append, List.filterMap_map, unsupported, List.map_filterMap,
    List.filterMap_cons_none rfl, List.filterMap_nil, List.append_nil]
  refine List.filterMap_congr fun o _ => ?_
  obtain ⟨name, side, cause⟩ := o
  cases cause <;> rfl

end Plan

/-! ### Reports -/

namespace Store

variable {S : Schema} {s : Store} {key : PlanKey} {reached : List PlanKey}

/-- The warnings in the log, in order, each with the key of the plan. -/
def warnings (s : Store) : List (PlanKey × String × UnsupportedKind) :=
  s.log.filterMap PlanEvent.warning?

/-- What there is to warn about when a key is first reached. That is each field of the two types
that cannot be copied, if the key has a plan, and nothing otherwise. -/
def warningsOf (S : Schema) (key : PlanKey) : List (PlanKey × String × UnsupportedKind) :=
  match Plan.resolve S key with
  | .ok _ => ((S.decl key.pair.model).unsupportedFields ++
      (S.decl key.pair.wire).unsupportedFields).map (key, ·)
  | .error _ => []

theorem filterMap_warning?_logOf (S : Schema) (key : PlanKey) :
    (logOf S key).filterMap PlanEvent.warning? = warningsOf S key := by
  rw [logOf, warningsOf]
  cases h : Plan.resolve S key with
  | error cause => rfl
  | ok plan =>
    have hkey : plan.key = key := by
      obtain ⟨-, -, rfl⟩ := Plan.resolve_eq_ok_iff.mp h
      rfl
    dsimp only
    rw [Plan.filterMap_warning?_report, Plan.unsupported_of_resolve h, hkey]

/-! ### Keys that are reached -/

/-- The keys that a request reaches, in order, in a way that keeps their plans. -/
def Request.reaches (S : Schema) : Request → List PlanKey
  | .convert tier (some src) (some dst) direction =>
    if tier = .naive then [] else tier.trail S (.between src.type dst.type direction) src
  | .convert .. => []
  | .plan key | .compiledPlan key => [key]

/-- The keys have been reached so far, and the plan of each was made and reported when it was
reached for the first time. -/
structure Reported (S : Schema) (s : Store) (reached : List PlanKey) : Prop
    extends s.Orderly S where
  keys_eq : s.plans.keys = reached.eraseDups
  log_eq : s.log = reached.eraseDups.flatMap (logOf S)

theorem reported_empty (S : Schema) : empty.Reported S [] where
  toOrderly := orderly_empty S
  keys_eq := rfl
  log_eq := rfl

/-- A request for a plan reports it, unless the key has been reached before. -/
theorem Reported.plan (hs : s.Reported S reached) (key : PlanKey) :
    (s.plan S key).2.Reported S (reached ++ [key]) := by
  have horderly := (grown_plan hs.toOrderly key).orderly
  have hkey : key ∈ s.plans.keys ↔ key ∈ reached := by rw [hs.keys_eq, List.mem_eraseDups]
  by_cases h : key ∈ s.plans.keys
  · rw [plan_of_mem hs.plans h] at horderly ⊢
    refine ⟨horderly, ?_, ?_⟩
    · rw [eraseDups_concat, if_pos (hkey.mp h), List.append_nil, hs.keys_eq]
    · rw [eraseDups_concat, if_pos (hkey.mp h), List.append_nil, hs.log_eq]
  · rw [plan_of_not_mem h] at horderly ⊢
    refine ⟨horderly, ?_, ?_⟩
    · rw [eraseDups_concat, if_neg (mt hkey.mpr h), Memo.keys_add, hs.keys_eq]
    · rw [eraseDups_concat, if_neg (mt hkey.mpr h), hs.log_eq, List.flatMap_append,
        List.flatMap_singleton]

/-- So does a request for a compiled plan. If that is kept, then so is the plan. -/
theorem Reported.compiledPlan (hs : s.Reported S reached) (key : PlanKey) :
    (s.compiledPlan S key).2.Reported S (reached ++ [key]) := by
  have horderly := (grown_compiledPlan hs.toOrderly key).orderly
  by_cases h : key ∈ s.compiled.keys
  · have hplan := hs.plan key
    rw [plan_of_mem hs.plans (hs.subset key h)] at hplan
    rwa [compiledPlan_of_mem hs.compiled h]
  · have hplan := hs.plan key
    rw [compiledPlan_of_not_mem hs.toConsistent h] at horderly ⊢
    exact ⟨horderly, hplan.keys_eq, hplan.log_eq⟩

theorem Reported.ask {tier : Tier} (htier : tier ≠ .naive) (hs : s.Reported S reached)
    (key : PlanKey) : (tier.ask S s key).Reported S (reached ++ [key]) := by
  cases tier with
  | naive => exact absurd rfl htier
  | cached => exact hs.plan key
  | compiled => exact hs.compiledPlan key

theorem Reported.foldl_ask {tier : Tier} (htier : tier ≠ .naive) (hs : s.Reported S reached)
    (keys : List PlanKey) : (keys.foldl (tier.ask S) s).Reported S (reached ++ keys) := by
  induction keys generalizing s reached with
  | nil => rwa [List.append_nil]
  | cons key rest ih =>
    rw [List.append_cons]
    exact ih (hs.ask htier key)

/-- **What one request reports**, whatever came of it. -/
theorem Reported.serve (hs : s.Reported S reached) (request : Request) :
    (s.serve S request).Reported S (reached ++ request.reaches S) := by
  have hnothing : s.Reported S (reached ++ []) := by rwa [List.append_nil]
  cases request with
  | plan key => exact hs.plan key
  | compiledPlan key => exact hs.compiledPlan key
  | convert tier src dst direction =>
    cases src with
    | none => exact hnothing
    | some src =>
      cases dst with
      | none => exact hnothing
      | some dst =>
        rw [serve_convert hs.toConsistent, Request.reaches]
        split_ifs with htier
        · rw [htier, List.foldl_fixed' (Tier.ask_naive S s)]
          exact hnothing
        · exact hs.foldl_ask htier _

/-- **What a history reports.** -/
theorem reported_after (S : Schema) (history : List Request) :
    (after S history).Reported S (history.flatMap (·.reaches S)) := by
  induction history using List.reverseRecOn with
  | nil => exact reported_empty S
  | append_singleton history request ih =>
    rw [after_concat, List.flatMap_append, List.flatMap_singleton]
    exact ih.serve request

/-- The keys that a request reaches are those that it asks for. -/
theorem Request.mem_reaches_iff {request : Request} :
    key ∈ request.reaches S ↔ request.AsksPlan S key := by
  cases request with
  | plan other => exact List.mem_singleton
  | compiledPlan other => exact List.mem_singleton
  | convert tier src dst direction =>
    cases src with
    | none => exact iff_of_false List.not_mem_nil id
    | some src =>
      cases dst with
      | none => exact iff_of_false List.not_mem_nil id
      | some dst =>
        rw [reaches, AsksPlan]
        split_ifs with htier
        · exact iff_of_false List.not_mem_nil fun h => h.1 htier
        · rw [Tier.mem_trail_iff, and_iff_right htier]

/-! ### Warnings in the log -/

/-- The warnings are those for the keys that were reached. -/
theorem Reported.warnings_eq (hs : s.Reported S reached) :
    s.warnings = reached.eraseDups.flatMap (warningsOf S) := by
  rw [warnings, hs.log_eq, List.filterMap_flatMap]
  exact List.flatMap_congr fun key _ => filterMap_warning?_logOf S key

/-- Distinct keys of which one matters. -/
theorem flatMap_ite_of_nodup {α : Type} {keys : List PlanKey} (h : keys.Nodup) (key : PlanKey)
    (xs : List α) :
    (keys.flatMap fun other => if other = key then xs else []) = if key ∈ keys then xs else [] := by
  induction keys with
  | nil => rfl
  | cons first rest ih =>
    obtain ⟨hfirst, hrest⟩ := List.nodup_cons.mp h
    rw [List.flatMap_cons, ih hrest]
    by_cases hkey : first = key
    · subst hkey
      simp [hfirst]
    · simp [hkey, Ne.symm hkey]

/-- A warning for a key is about that key. -/
theorem filter_warningsOf (other key : PlanKey) :
    (warningsOf S other).filter (·.1 = key) = if other = key then warningsOf S key else [] := by
  have habout : ∀ warning ∈ warningsOf S other, warning.1 = other := by
    intro warning hwarning
    rw [warningsOf] at hwarning
    split at hwarning
    · obtain ⟨field, -, rfl⟩ := List.mem_map.mp hwarning
      rfl
    · cases hwarning
  split_ifs with h
  · rw [← h, List.filter_eq_self]
    simpa using habout
  · rw [List.filter_eq_nil_iff]
    intro warning hwarning
    simpa [habout warning hwarning] using h

/-- All that is warned about a key is warned about when it is first reached. -/
theorem filter_warnings (S : Schema) (history : List Request) (key : PlanKey) :
    (after S history).warnings.filter (·.1 = key) =
      if key ∈ history.flatMap (·.reaches S) then warningsOf S key else [] := by
  rw [(reported_after S history).warnings_eq, List.filter_flatMap]
  simp only [filter_warningsOf, flatMap_ite_of_nodup (nodup_eraseDups _), List.mem_eraseDups]

/-- **A field that cannot be copied is warned about once for each plan.** In any history of
conversions, in any tier and whatever came of them, and of requests for plans:

* the keys that are reached are those that the requests ask for in a way that keeps the plan;
* the warnings are those for the keys that were reached, in the order in which they were reached for
  the first time. For each of these keys there is one for each field of the model and of the wire
  type that cannot be copied, if the key has a plan, and for other keys there is none;
* they are the warnings that come with the plan, one for one and in their order;
* a request adds the warnings for the keys that it is the first to reach, and a conversion that
  keeps nothing adds none;
* so it is in the middle of a conversion. It asks for the keys of its trail one by one, and when it
  has asked for some of them, there are the warnings for what has been reached by then. -/
theorem warnings_after (S : Schema) (history : List Request) :
    (∀ key, key ∈ history.flatMap (·.reaches S) ↔ ∃ request ∈ history, request.AsksPlan S key) ∧
    (after S history).warnings =
      (history.flatMap (·.reaches S)).eraseDups.flatMap (warningsOf S) ∧
    (∀ key, (after S history).warnings.filter (·.1 = key) =
      if key ∈ history.flatMap (·.reaches S) then warningsOf S key else []) ∧
    (∀ key plan, Plan.resolve S key = .ok plan → plan.warnings =
      (warningsOf S key).map fun (_, name, what) => .unsupportedField name what) ∧
    (∀ request, (after S (history ++ [request])).warnings = (after S history).warnings ++
      ((request.reaches S).removeAll (history.flatMap (·.reaches S))).eraseDups.flatMap
        (warningsOf S)) ∧
    (∀ src dst direction, (after S (history ++ [.convert .naive src dst direction])).warnings =
      (after S history).warnings) ∧
    (∀ tier src dst direction,
      after S (history ++ [.convert tier (some src) (some dst) direction]) =
        (tier.trail S (.between src.type dst.type direction) src).foldl (tier.ask S)
          (after S history)) ∧
    ∀ (tier : Tier) keys, tier ≠ .naive → (keys.foldl (tier.ask S) (after S history)).warnings =
      (history.flatMap (·.reaches S) ++ keys).eraseDups.flatMap (warningsOf S) := by
  have hreported := reported_after S history
  have hnext (request : Request) : (after S (history ++ [request])).warnings =
      (after S history).warnings ++
        ((request.reaches S).removeAll (history.flatMap (·.reaches S))).eraseDups.flatMap
          (warningsOf S) := by
    rw [(reported_after S (history ++ [request])).warnings_eq, hreported.warnings_eq,
      List.flatMap_append, List.flatMap_singleton, List.eraseDups_append, List.flatMap_append]
  refine ⟨fun key => ?_, hreported.warnings_eq, filter_warnings S history, fun key plan h => ?_,
    hnext, fun src dst direction => ?_, fun tier src dst direction => ?_,
    fun tier keys htier => (hreported.foldl_ask htier keys).warnings_eq⟩
  · simp only [List.mem_flatMap, Request.mem_reaches_iff]
  · rw [warningsOf, h, Plan.warnings, Plan.unsupported_of_resolve h, List.map_map]
    rfl
  · have hreaches : (Request.convert .naive src dst direction).reaches S = [] := by
      cases src <;> cases dst <;> rfl
    rw [hnext, hreaches]
    exact List.append_nil _
  · rw [after_concat]
    exact serve_convert hreported.toConsistent

open Parcels in
/-- The message about a parcel has a hook. The first conversion keeps nothing, the second fails, and
the third is the first in its tier. -/
example :
    let convert (tier : Tier) (message : Record) : Request :=
      .convert tier (some message) (some (.initial schema ⟨2⟩)) .toModel
    (after schema [convert .naive parcel, convert .cached oddParcel,
      convert .compiled parcel]).warnings = [(.between ⟨0⟩ ⟨2⟩ .toModel, "hook", .function)] := by
  decide +kernel

end Store

end Crosswalk
