import Crosswalk.Proofs.Asking
import Crosswalk.Proofs.Fitting

/-!
# What a store holds after any history

A store begins empty and is only changed by requests. After every one of them its contents are
known exactly, and `Store.contents_after` says what they are:

* the kept plan of a key is the plan that would be made now, or the failure of making it;
* the kept compiled plan of a key is compiled from the kept plan of that key, link by link, or is
  its failure, so there is a kept plan beside every compiled one;
* there was one build for each entry;
* there are entries for the keys that were asked for, and for no others.

A key is a pair of types and a direction, and types are told apart by identity, so two types of one
declared name have entries of their own.

The proof has one step, what a single request for a key does (`Store.grown_ask`). All else is a
number of such requests: a conversion by `Tier.follows_run`, a history by definition.
-/

namespace Crosswalk

namespace Store

/-- A consistent store with tidy memos, and a plan beside every compiled plan. -/
structure Orderly (S : Schema) (s : Store) : Prop extends Consistent S s where
  plans_tidy : s.plans.Tidy
  compiled_tidy : s.compiled.Tidy
  subset : ∀ key ∈ s.compiled.keys, key ∈ s.plans.keys

theorem orderly_empty (S : Schema) : empty.Orderly S where
  toConsistent := consistent_empty S
  plans_tidy := Memo.tidy_empty
  compiled_tidy := Memo.tidy_empty
  subset _ h := absurd h List.not_mem_nil

/-- The second store is orderly, and has the keys of the first and these besides. -/
structure Grown (S : Schema) (s s' : Store) (plans compiled : PlanKey → Prop) : Prop where
  orderly : s'.Orderly S
  plans_iff : ∀ key, key ∈ s'.plans.keys ↔ key ∈ s.plans.keys ∨ plans key
  compiled_iff : ∀ key, key ∈ s'.compiled.keys ↔ key ∈ s.compiled.keys ∨ compiled key

variable {S : Schema} {s s' s'' : Store} {key : PlanKey}

theorem Grown.refl (hs : s.Orderly S) : Grown S s s (fun _ => False) fun _ => False :=
  ⟨hs, fun _ => by simp, fun _ => by simp⟩

theorem Grown.trans {plans compiled plans' compiled' : PlanKey → Prop}
    (h : Grown S s s' plans compiled) (h' : Grown S s' s'' plans' compiled') :
    Grown S s s'' (fun key => plans key ∨ plans' key) fun key => compiled key ∨ compiled' key where
  orderly := h'.orderly
  plans_iff key := by rw [h'.plans_iff, h.plans_iff, or_assoc]
  compiled_iff key := by rw [h'.compiled_iff, h.compiled_iff, or_assoc]

theorem Grown.congr {plans compiled plans' compiled' : PlanKey → Prop}
    (h : Grown S s s' plans compiled) (hplans : ∀ key, plans key ↔ plans' key)
    (hcompiled : ∀ key, compiled key ↔ compiled' key) : Grown S s s' plans' compiled' where
  orderly := h.orderly
  plans_iff key := by rw [h.plans_iff, hplans]
  compiled_iff key := by rw [h.compiled_iff, hcompiled]

/-! ### One request -/

theorem grown_plan (hs : s.Orderly S) (key : PlanKey) :
    Grown S s (s.plan S key).2 (· = key) fun _ => False := by
  have hconsistent := (yields_plan key s hs.toConsistent).2
  by_cases hkey : key ∈ s.plans.keys
  · rw [plan_of_mem hs.plans hkey]
    refine ⟨hs, fun k => ?_, fun k => by simp⟩
    exact ⟨.inl, fun h => h.elim id fun heq => heq ▸ hkey⟩
  · rw [plan_of_not_mem hkey] at hconsistent ⊢
    refine ⟨⟨hconsistent, hs.plans_tidy.add hkey _, hs.compiled_tidy, fun k hk => ?_⟩, fun k => ?_,
      fun k => by simp⟩
    · simp [hs.subset k hk]
    · simp

theorem grown_compiledPlan (hs : s.Orderly S) (key : PlanKey) :
    Grown S s (s.compiledPlan S key).2 (· = key) (· = key) := by
  have hconsistent := (yields_compiledPlan key s hs.toConsistent).2
  by_cases hkey : key ∈ s.compiled.keys
  · rw [compiledPlan_of_mem hs.compiled hkey]
    refine ⟨hs, fun k => ?_, fun k => ?_⟩
    · exact ⟨.inl, fun h => h.elim id fun heq => heq ▸ hs.subset key hkey⟩
    · exact ⟨.inl, fun h => h.elim id fun heq => heq ▸ hkey⟩
  · obtain ⟨-, -, hcompiled⟩ := plan_spec (S := S) key hs.plans
    have hplan := grown_plan hs key
    have hkeys : ((s.plan S key).2.compiled.add key (compiledAnswer S key)).keys =
        s.compiled.keys ++ [key] := by rw [hcompiled, Memo.keys_add]
    rw [compiledPlan_of_not_mem hs.toConsistent hkey] at hconsistent ⊢
    refine ⟨⟨hconsistent, hplan.orderly.plans_tidy, ?_, fun k hk => ?_⟩, hplan.plans_iff,
      fun k => ?_⟩
    · rw [← hcompiled] at hkey
      exact hplan.orderly.compiled_tidy.add hkey _
    · change k ∈ (Memo.add _ _ _).keys at hk
      rw [hkeys, List.mem_append, List.mem_singleton] at hk
      refine (hplan.plans_iff k).mpr ?_
      exact hk.imp_left (hs.subset k)
    · change k ∈ (Memo.add _ _ _).keys ↔ _
      rw [hkeys, List.mem_append, List.mem_singleton]

/-- **One request for a key**, in the way of a tier. -/
theorem grown_ask (tier : Tier) (hs : s.Orderly S) (key : PlanKey) :
    Grown S s (tier.ask S s key) (fun k => tier ≠ .naive ∧ k = key)
      fun k => tier = .compiled ∧ k = key := by
  cases tier with
  | naive =>
    rw [Tier.ask_naive]
    exact (Grown.refl hs).congr (by simp) (by simp)
  | cached => exact (grown_plan hs key).congr (by simp) (by simp)
  | compiled => exact (grown_compiledPlan hs key).congr (by simp) (by simp)

theorem grown_foldl_ask (tier : Tier) (hs : s.Orderly S) (keys : List PlanKey) :
    Grown S s (keys.foldl (tier.ask S) s) (fun k => tier ≠ .naive ∧ k ∈ keys)
      fun k => tier = .compiled ∧ k ∈ keys := by
  induction keys generalizing s with
  | nil => exact (Grown.refl hs).congr (by simp) (by simp)
  | cons key rest ih =>
    have hfirst := grown_ask tier hs key
    refine (hfirst.trans (ih hfirst.orderly)).congr (fun k => ?_) fun k => ?_
    · rw [List.mem_cons, and_or_left]
    · rw [List.mem_cons, and_or_left]

/-! ### Histories -/

/-- The request asks for the plan of the key, in a way that keeps it. -/
def Request.AsksPlan (S : Schema) (key : PlanKey) : Request → Prop
  | .convert tier (some src) (some dst) direction =>
    tier ≠ .naive ∧ tier.Asks S (.between src.type dst.type direction) src key
  | .convert .. => False
  | .plan key' | .compiledPlan key' => key = key'

/-- The request asks for the compiled plan of the key. -/
def Request.AsksCompiled (S : Schema) (key : PlanKey) : Request → Prop
  | .convert tier (some src) (some dst) direction =>
    tier = .compiled ∧ tier.Asks S (.between src.type dst.type direction) src key
  | .convert .. | .plan _ => False
  | .compiledPlan key' => key = key'

/-- A conversion asks for the keys of its trail. -/
theorem serve_convert (hs : s.Consistent S) {tier : Tier} {src dst : Record}
    {direction : Direction} : s.serve S (.convert tier (some src) (some dst) direction) =
      (tier.trail S (.between src.type dst.type direction) src).foldl (tier.ask S) s :=
  tier.follows_run src _ dst (by simp) s hs

theorem grown_serve (hs : s.Orderly S) (request : Request) :
    Grown S s (s.serve S request) (request.AsksPlan S) (request.AsksCompiled S) := by
  cases request with
  | plan key => exact grown_plan hs key
  | compiledPlan key => exact grown_compiledPlan hs key
  | convert tier src dst direction =>
    cases src with
    | none => exact Grown.refl hs
    | some src =>
      cases dst with
      | none => exact Grown.refl hs
      | some dst =>
        rw [serve_convert hs.toConsistent]
        exact (grown_foldl_ask tier hs _).congr
          (fun k => and_congr_right fun _ => Tier.mem_trail_iff)
          fun k => and_congr_right fun _ => Tier.mem_trail_iff

/-- After a history there are entries for what its requests asked for. -/
theorem grown_after (S : Schema) (history : List Request) :
    Grown S empty (after S history) (fun key => ∃ request ∈ history, request.AsksPlan S key)
      fun key => ∃ request ∈ history, request.AsksCompiled S key := by
  suffices h : ∀ s : Store, s.Orderly S → Grown S s (history.foldl (Store.serve S) s)
      (fun key => ∃ request ∈ history, request.AsksPlan S key)
      fun key => ∃ request ∈ history, request.AsksCompiled S key from h empty (orderly_empty S)
  induction history with
  | nil => exact fun s hs => (Grown.refl hs).congr (by simp) (by simp)
  | cons request rest ih =>
    intro s hs
    have hfirst := grown_serve hs request
    exact (hfirst.trans (ih _ hfirst.orderly)).congr (by simp) (by simp)

/-- **The contents of a store after any history** of conversions, in any tier and whatever came of
them, and of requests for plans and compiled plans. -/
theorem contents_after (S : Schema) (history : List Request) :
    let s := after S history
    (∀ key slot, (key, slot) ∈ s.plans.slots →
      slot = .done ((Plan.resolve S key).mapError .noPlan)) ∧
    (∀ key slot, (key, slot) ∈ s.compiled.slots →
      (∃ plan compiled, s.plans.result? key = some (.ok plan) ∧ slot = .done (.ok compiled) ∧
        compiled.plan = plan ∧ compiled.copiers = plan.links.map .compile) ∨
      ∃ e, s.plans.result? key = some (.error e) ∧ slot = .done (.error e)) ∧
    (∀ key ∈ s.compiled.keys, key ∈ s.plans.keys) ∧
    (s.plans.builds = s.plans.entries ∧ s.compiled.builds = s.compiled.entries) ∧
    (s.plans.keys.Nodup ∧ ∀ key, key ∈ s.plans.keys ↔
      ∃ request ∈ history, request.AsksPlan S key) ∧
    (s.compiled.keys.Nodup ∧ ∀ key, key ∈ s.compiled.keys ↔
      ∃ request ∈ history, request.AsksCompiled S key) := by
  intro s
  have hgrown := grown_after S history
  have hs : s.Orderly S := hgrown.orderly
  refine ⟨hs.plans, fun key slot hslot => ?_, hs.subset, ?_, ?_, ?_⟩
  · have hkept := hs.plans.result?_of_mem (hs.subset key (List.mem_map_of_mem hslot))
    have hanswer := hs.compiled key slot hslot
    dsimp only at hanswer
    rw [hanswer, hkept]
    cases planAnswer S key with
    | ok plan => exact .inl ⟨plan, .ofPlan plan, rfl, rfl, rfl, rfl⟩
    | error e => exact .inr ⟨e, rfl, rfl⟩
  · exact ⟨hs.plans_tidy.builds_eq, hs.compiled_tidy.builds_eq⟩
  · refine ⟨hs.plans_tidy.nodup, fun key => (hgrown.plans_iff key).trans ?_⟩
    exact or_iff_right List.not_mem_nil
  · refine ⟨hs.compiled_tidy.nodup, fun key => (hgrown.compiled_iff key).trans ?_⟩
    exact or_iff_right List.not_mem_nil

open Parcels in
/-- A conversion that fails at the time of a parcel has come to its place of origin by then, but not
to its stops. Plans for messages about places are not those for places. -/
example :
    let s := after schema [.plan (.between ⟨1⟩ ⟨3⟩ .toWire),
      .convert .compiled (some oddParcel) (some (.initial schema ⟨2⟩)) .toModel]
    s.plans.keys =
        [.between ⟨1⟩ ⟨3⟩ .toWire, .between ⟨0⟩ ⟨2⟩ .toModel, .between ⟨1⟩ ⟨3⟩ .toModel] ∧
      s.compiled.keys = [.between ⟨0⟩ ⟨2⟩ .toModel, .between ⟨1⟩ ⟨3⟩ .toModel] := by
  decide +kernel

end Store

end Crosswalk
