import Crosswalk.Proofs.Effects
import Crosswalk.Proofs.Nesting

/-!
# What a history leaves in the store

A store is only ever changed by requests: conversions in any tier, and requests for the kept plan or
the kept compiled plan of a key. `Store.after` is the store that a history of requests leads to,
beginning with nothing kept.

The invariant is `Store.Consistent`: whatever is kept for a key is what making it now would give,
and no build is under way. It is all that a conversion needs to know about the past. Under it a
conversion comes out as it would without a store (`Tier.yields_run`), and it is kept by every
request, hence by every history (`Store.consistent_after`). The two together are
`Tier.convert_after`, which is how everything else speaks of conversions.

Conversions fill the store in the middle of other conversions. So the statement for the induction is
`Yields`, about a computation that is handed *some* consistent store and hands on another one.
-/

namespace Crosswalk

/-! ### Memos -/

namespace Memo

variable {α : Type}

/-- All builds are over, and each came to the given answer for its key. -/
def Settled (answer : PlanKey → Except ConvertError α) (m : Memo α) : Prop :=
  ∀ key slot, (key, slot) ∈ m.slots → slot = .done (answer key)

variable {answer : PlanKey → Except ConvertError α} {m : Memo α}

theorem settled_empty : (empty : Memo α).Settled answer :=
  fun _ _ h => absurd h List.not_mem_nil

theorem Settled.result?_eq (h : m.Settled answer) {key : PlanKey} {result : Except ConvertError α}
    (hr : m.result? key = some result) : result = answer key := by
  rw [result?, slot?] at hr
  cases hlookup : m.slots.lookup key with
  | none => simp [hlookup] at hr
  | some slot =>
    obtain ⟨before, after, hslots, -⟩ := List.lookup_eq_some_iff.mp hlookup
    have hslot : slot = .done (answer key) := h key slot (by simp [hslots])
    rw [hlookup, hslot] at hr
    exact (Option.some.inj hr).symm

/-- A build that comes to the answer leaves a settled memo settled. -/
theorem Settled.finish_start (h : m.Settled answer) (key : PlanKey) :
    ((m.start key).finish key (answer key)).Settled answer := by
  intro other slot hmem
  simp only [finish, start, List.mem_map] at hmem
  obtain ⟨⟨k, kept⟩, hk, heq⟩ := hmem
  obtain ⟨rfl, rfl⟩ := Prod.mk.inj heq
  by_cases hkey : k = key
  · rw [if_pos hkey, hkey]
  · rw [if_neg hkey]
    have hold : (k, kept) ∈ m.slots := by
      split at hk
      · exact hk
      · rcases List.mem_append.mp hk with hk | hk
        · exact hk
        · simp only [List.mem_singleton, Prod.mk.injEq] at hk
          exact absurd hk.1 hkey
    exact h k kept hold

end Memo

/-! ### Stores -/

namespace Store

variable (S : Schema)

/-- What there is to be kept for a key. -/
def planAnswer (key : PlanKey) : Except ConvertError Plan :=
  (Plan.resolve S key).mapError .noPlan

/-- Whatever is kept for a key is what making it now would give. -/
structure Consistent (s : Store) : Prop where
  plans : s.plans.Settled (planAnswer S)
  compiled : s.compiled.Settled fun key => (planAnswer S key).map .ofPlan

theorem consistent_empty : empty.Consistent S := ⟨Memo.settled_empty, Memo.settled_empty⟩

/-- From any consistent store the computation has this result, and it leaves one behind. -/
def Yields {α : Type} (compute : Store → α × Store) (a : α) : Prop :=
  ∀ s : Store, s.Consistent S → (compute s).1 = a ∧ (compute s).2.Consistent S

variable {S}

theorem Yields.pure {α : Type} (a : α) : Yields S (fun s => (a, s)) a := fun _ hs => ⟨rfl, hs⟩

theorem makePlan_spec (key : PlanKey) (s : Store) :
    (makePlan S key s).1 = planAnswer S key ∧ (makePlan S key s).2.plans = s.plans ∧
      (makePlan S key s).2.compiled = s.compiled := by
  rw [makePlan, planAnswer]
  cases Plan.resolve S key <;> exact ⟨rfl, rfl, rfl⟩

/-- A request for a plan needs to know the kept plans only, and leaves the compiled ones alone. That
is why it may be made while a compiled plan is being built. -/
theorem plan_spec (key : PlanKey) {s : Store} (hs : s.plans.Settled (planAnswer S)) :
    (plan S key s).1 = planAnswer S key ∧ (plan S key s).2.plans.Settled (planAnswer S) ∧
      (plan S key s).2.compiled = s.compiled := by
  rw [plan, Memo.getOrBuild]
  cases hkept : s.plans.result? key with
  | some result => exact ⟨hs.result?_eq hkept, hs, rfl⟩
  | none =>
    obtain ⟨hanswer, hplans, hcompiled⟩ :=
      makePlan_spec (S := S) key (updatePlans (·.start key) s)
    refine ⟨hanswer, ?_, hcompiled⟩
    change Memo.Settled _ (Memo.finish (makePlan S key _).2.plans key (makePlan S key _).1)
    rw [hplans, hanswer]
    exact hs.finish_start key

theorem yields_plan (key : PlanKey) : Yields S (plan S key) (planAnswer S key) := by
  intro s hs
  obtain ⟨hanswer, hplans, hcompiled⟩ := plan_spec key hs.plans
  exact ⟨hanswer, hplans, hcompiled ▸ hs.compiled⟩

theorem yields_compiledPlan (key : PlanKey) :
    Yields S (compiledPlan S key) ((planAnswer S key).map .ofPlan) := by
  intro s hs
  rw [compiledPlan, Memo.getOrBuild]
  cases hkept : s.compiled.result? key with
  | some result => exact ⟨hs.compiled.result?_eq hkept, hs⟩
  | none =>
    obtain ⟨hanswer, hplans, hcompiled⟩ :=
      plan_spec (s := updateCompiled (·.start key) s) key hs.plans
    refine ⟨congrArg (Except.map CompiledPlan.ofPlan) hanswer, hplans, ?_⟩
    change Memo.Settled _ (Memo.finish (plan S key _).2.compiled key
      ((plan S key _).1.map CompiledPlan.ofPlan))
    rw [hcompiled, hanswer]
    exact hs.compiled.finish_start key

end Store

/-! ### Conversions -/

namespace Tier

variable {S : Schema}

open Store (Yields)

theorem yields_copiers (tier : Tier) (key : PlanKey) :
    Yields S (tier.copiers S key) (tier.program S key) := by
  intro s hs
  cases tier with
  | naive =>
    rw [copiers, program]
    cases Plan.resolve S key with
    | ok plan => exact ⟨rfl, hs⟩
    | error cause => exact ⟨rfl, hs⟩
  | cached =>
    obtain ⟨hanswer, hs'⟩ := Store.yields_plan key s hs
    refine ⟨?_, hs'⟩
    change ((s.plan S key).1.map _ : Except _ _) = _
    rw [hanswer, Store.planAnswer, program]
    cases Plan.resolve S key <;> rfl
  | compiled =>
    obtain ⟨hanswer, hs'⟩ := Store.yields_compiledPlan key s hs
    refine ⟨?_, hs'⟩
    change ((s.compiledPlan S key).1.map _ : Except _ _) = _
    rw [hanswer, Store.planAnswer, program]
    cases Plan.resolve S key <;> rfl

/-- What is carried of a value is its image, under every copier. -/
def Carries (S : Schema) (tier : Tier) (v : Value) : Prop :=
  ∀ c, Yields S (tier.carry S v c) (tier.image S v c)

variable {tier : Tier}

theorem yields_copyAll {cells : List Value} (h : ∀ v ∈ cells, Carries S tier v) (source : TypeId)
    (copiers : List Copier) (dst : Record) :
    Yields S (copyAll S source (cells.map (tier.carry S)) copiers dst)
      (.ofEffects
        (copiers.map (Copier.effectOf S source dst.type (cells.map (tier.image S)))) dst) := by
  have hread : ∀ {α : Type} (f : Value → α) (c : Copier),
      ((c.sourceIndex? S source).bind ((cells.map f)[·]?)) =
        ((c.sourceIndex? S source).bind (cells[·]?)).map f := by
    intro α f c
    cases c.sourceIndex? S source <;> simp
  induction copiers generalizing dst with
  | nil => exact Yields.pure _
  | cons c rest ih =>
    intro s hs
    rw [List.map_cons, copyAll, Copier.effectOf, hread, hread]
    cases hcell : (c.sourceIndex? S source).bind (cells[·]?) with
    | none => exact ⟨rfl, hs⟩
    | some v =>
      obtain ⟨index, -, hindex⟩ := Option.bind_eq_some_iff.mp hcell
      obtain ⟨himage, hs'⟩ := h v (List.mem_of_getElem? hindex) c s hs
      simp only [Option.map_some]
      rw [← himage]
      rcases hv : tier.carry S v c s with ⟨answer, s'⟩
      rw [hv] at hs'
      cases answer with
      | error e => exact ⟨rfl, hs'⟩
      | ok w =>
        simp only [Copier.write_eq]
        cases c.placement S dst.type w with
        | error e => exact ⟨rfl, hs'⟩
        | ok p => exact ih (dst.place p) s' hs'

theorem yields_run_of_cells {src : Record} (h : ∀ v ∈ src.cells, Carries S tier v)
    (key : PlanKey) (dst : Record) :
    Yields S (tier.run S key src dst) (tier.outcome S key src dst) := by
  intro s hs
  obtain ⟨hprogram, hs'⟩ := yields_copiers (S := S) tier key s hs
  rw [run, runParts, outcome, outcomeOf, carryEach_eq_map, imageEach_eq_map, ← hprogram]
  rcases hc : tier.copiers S key s with ⟨answer, s'⟩
  rw [hc] at hs'
  cases answer with
  | error e => exact ⟨rfl, hs'⟩
  | ok copiers => exact yields_copyAll h src.type copiers dst s' hs'

theorem carry_flat {v : Value} (hv : v.IsFlat) (c : Copier) (s : Store) :
    tier.carry S v c s = (tier.image S v c, s) := by
  cases v with
  | list items => exact absurd rfl (hv.1 items)
  | record type cells => exact absurd rfl (hv.2 type cells)
  | _ => cases c <;> rfl

theorem carry_record (r : Record) {link : Link} {c : Copier}
    (hc : c.Looks link) (s : Store) :
    tier.carry S r.toValue c s =
      match link.transfer with
      | .nested key =>
        match tier.run S key r (.initial S key.target) s with
        | (⟨.ok _, made⟩, s) => (.ok made.toValue, s)
        | (⟨.error e, _⟩, s) => (.error (e.within ⟨link.name, none⟩), s)
      | _ => (link.carryFlat r.toValue, s) := by
  cases hc
  · unfold Record.toValue carry
    rfl
  · unfold Record.toValue carry
    rfl

/-- It is enough to ask this of the copiers that look at the value. -/
theorem carries_of_looks {v : Value} (h : ∀ {link : Link} {c : Copier}, c.Looks link →
    Yields S (tier.carry S v c) (tier.image S v c)) : Carries S tier v := by
  intro c
  cases c with
  | byName link => exact h .byName
  | byPosition link => exact h .byPosition
  | handOver link => cases v <;> exact Yields.pure _

theorem carries_record {r : Record}
    (h : ∀ key dst, Yields S (tier.run S key r dst) (tier.outcome S key r dst)) :
    Carries S tier r.toValue := by
  refine carries_of_looks fun {link c} hc s hs => ?_
  rw [carry_record r hc, image_record S tier r hc]
  cases link.transfer with
  | nested key =>
    obtain ⟨houtcome, hs'⟩ := h key (.initial S key.target) s hs
    dsimp only
    rw [← houtcome]
    rcases hrun : tier.run S key r (.initial S key.target) s with ⟨⟨result, made⟩, s'⟩
    rw [hrun] at hs'
    cases result <;> exact ⟨rfl, hs'⟩
  | _ => exact ⟨rfl, hs⟩

theorem carryItems_cons (link : Link) (key : PlanKey) (index : Nat) (r : Record)
    (rest : List Value) (s : Store) :
    tier.carryItems S link key index (r.toValue :: rest) s =
      match tier.run S key r (.initial S key.target) s with
      | (⟨.error e, _⟩, s) => (.error (e.within ⟨link.name, some index⟩), s)
      | (⟨.ok _, made⟩, s) =>
        let (others, s) := tier.carryItems S link key (index + 1) rest s
        (others.map (made.toValue :: ·), s) := by
  rw [Record.toValue, carryItems]
  rfl

theorem yields_carryItems {items : List Value}
    (h : ∀ r : Record, r.toValue ∈ items → ∀ key dst,
      Yields S (tier.run S key r dst) (tier.outcome S key r dst))
    (link : Link) (key : PlanKey) (index : Nat) :
    Yields S (tier.carryItems S link key index items) (tier.imageItems S link key index items) := by
  induction items generalizing index with
  | nil => exact Yields.pure _
  | cons v rest ih =>
    intro s hs
    have hrest := ih fun r hr => h r (List.mem_cons_of_mem _ hr)
    cases v with
    | record type cells =>
      obtain ⟨houtcome, hs'⟩ := h ⟨type, cells⟩ List.mem_cons_self key (.initial S key.target) s hs
      change (tier.carryItems S link key index (Record.toValue ⟨type, cells⟩ :: rest) s).1 = _ ∧
        (tier.carryItems S link key index (Record.toValue ⟨type, cells⟩ :: rest) s).2.Consistent S
      rw [← Record.toValue.eq_1 ⟨type, cells⟩, carryItems_cons, imageItems_cons, ← houtcome]
      rcases hrun : tier.run S key ⟨type, cells⟩ (.initial S key.target) s with ⟨⟨result, made⟩, s'⟩
      rw [hrun] at hs'
      cases result with
      | error e => exact ⟨rfl, hs'⟩
      | ok =>
        obtain ⟨hitems, hs''⟩ := hrest (index + 1) s' hs'
        exact ⟨congrArg (Except.map (made.toValue :: ·)) hitems, hs''⟩
    | _ => exact ⟨rfl, hs⟩

theorem carry_list (items : List Value) {link : Link} {c : Copier}
    (hc : c.Looks link) (s : Store) :
    tier.carry S (.list items) c s =
      match link.transfer with
      | .nestedList key =>
        let (made, s) := tier.carryItems S link key 0 items s
        (made.map .list, s)
      | _ => (link.carryFlat (.list items), s) := by
  cases hc
  · unfold carry
    rfl
  · unfold carry
    rfl

theorem carry_handOver (link : Link) (v : Value) :
    tier.carry S v (.handOver link) = fun s => (.ok v, s) := by
  funext s
  cases v <;> rfl

/-- A link that moves no records asks for nothing. -/
theorem carry_of_not_nested {link : Link} (h : ∀ key, link.transfer ≠ .nested key)
    (h' : ∀ key, link.transfer ≠ .nestedList key) (v : Value) {c : Copier} (hc : c.Looks link)
    (s : Store) : tier.carry S v c s = (link.carryFlat v, s) := by
  cases v with
  | list items =>
    rw [carry_list items hc]
    split
    · next key hkey => exact absurd hkey (h' key)
    · rfl
  | record type cells =>
    change tier.carry S (Record.toValue ⟨type, cells⟩) c s = _
    rw [carry_record _ hc]
    split
    · next key hkey => exact absurd hkey (h key)
    · rfl
  | _ => cases hc <;> rfl

theorem carries_list {items : List Value}
    (h : ∀ r : Record, r.toValue ∈ items → ∀ key dst,
      Yields S (tier.run S key r dst) (tier.outcome S key r dst)) :
    Carries S tier (.list items) := by
  refine carries_of_looks fun {link c} hc s hs => ?_
  rw [carry_list items hc, image_list S tier items hc]
  cases link.transfer with
  | nestedList key =>
    obtain ⟨hitems, hs'⟩ := yields_carryItems h link key 0 s hs
    exact ⟨congrArg (Except.map Value.list) hitems, hs'⟩
  | _ => exact ⟨rfl, hs⟩

/-- **A conversion needs no more of the past than a consistent store.** The induction goes down the
source; a nested record is converted with the copiers that the store yields at that moment. -/
theorem yields_run (tier : Tier) (key : PlanKey) (src dst : Record) :
    Yields S (tier.run S key src dst) (tier.outcome S key src dst) := by
  suffices h : ∀ v : Value, Carries S tier v ∧ ∀ r : Record, v = r.toValue → ∀ key dst,
      Yields S (tier.run S key r dst) (tier.outcome S key r dst) from
    (h src.toValue).2 src rfl key dst
  intro v
  induction v using Value.induction with
  | flat v hv =>
    refine ⟨fun c s hs => ?_, fun r hr => absurd hr (hv.2 _ _)⟩
    rw [carry_flat hv]
    exact ⟨rfl, hs⟩
  | list items ih =>
    exact ⟨carries_list fun r hr => (ih _ hr).2 r rfl, fun r hr => by cases hr⟩
  | record type cells ih =>
    have hrun : ∀ key dst,
        Yields S (tier.run S key ⟨type, cells⟩ dst) (tier.outcome S key ⟨type, cells⟩ dst) :=
      yields_run_of_cells fun v hv => (ih v hv).1
    refine ⟨carries_record (r := ⟨type, cells⟩) hrun, fun r hr => ?_⟩
    cases hr
    exact hrun

/-- What is carried of any value is its image. -/
theorem carries (v : Value) : Carries S tier v := by
  induction v using Value.induction with
  | flat v hv =>
    intro c s hs
    rw [carry_flat hv]
    exact ⟨rfl, hs⟩
  | list items => exact carries_list fun r _ key dst => yields_run tier key r dst
  | record type cells =>
    have hrecord : Carries S tier (Record.toValue ⟨type, cells⟩) :=
      carries_record fun key dst => yields_run tier key _ dst
    exact hrecord

/-- Copiers that are carried out from a consistent store have the effects that they have without
one. -/
theorem yields_copyFrom (src : Record) (copiers : List Copier) (dst : Record) :
    Yields S (tier.copyFrom S src copiers dst)
      (.ofEffects (copiers.map (tier.effect S src dst.type)) dst) := by
  have hcells : ∀ v ∈ src.cells, Carries S tier v := fun v _ => carries v
  have h := yields_copyAll hcells src.type copiers dst
  rwa [← imageEach_eq_map] at h

end Tier

/-! ### Histories -/

namespace Store

variable (S : Schema)

/-- What a store may be asked to do. -/
inductive Request
  | convert (tier : Tier) (src dst : Option Record) (direction : Direction)
  | plan (key : PlanKey)
  | compiledPlan (key : PlanKey)

/-- The store after a request, whatever came of it. -/
def serve (s : Store) : Request → Store
  | .convert tier src dst direction => (tier.convert S src dst direction s).2
  | .plan key => (s.plan S key).2
  | .compiledPlan key => (s.compiledPlan S key).2

/-- The store after a history of requests, where nothing was kept at first. -/
def after (history : List Request) : Store := history.foldl (serve S) empty

theorem after_concat (history : List Request) (request : Request) :
    after S (history ++ [request]) = (after S history).serve S request :=
  List.foldl_append ..

variable {S}

theorem Consistent.serve {s : Store} (hs : s.Consistent S) (request : Request) :
    (s.serve S request).Consistent S := by
  cases request with
  | convert tier src dst direction =>
    cases src with
    | none => exact hs
    | some src =>
      cases dst with
      | none => exact hs
      | some dst => exact (Tier.yields_run tier _ src dst s hs).2
  | plan key => exact (yields_plan key s hs).2
  | compiledPlan key => exact (yields_compiledPlan key s hs).2

/-- **Every history leaves a consistent store.** -/
theorem consistent_after (history : List Request) : (after S history).Consistent S := by
  suffices h : ∀ s : Store, s.Consistent S → (history.foldl (Store.serve S) s).Consistent S from
    h empty (consistent_empty S)
  induction history with
  | nil => exact fun _ hs => hs
  | cons request rest ih => exact fun s hs => ih _ (hs.serve request)

end Store

/-- **A conversion comes out as it would without a store**, whatever was asked for before it. -/
theorem Tier.convert_after (S : Schema) (tier : Tier) (src dst : Record) (direction : Direction)
    (history : List Store.Request) :
    (tier.convert S (some src) (some dst) direction (Store.after S history)).1 =
      ((tier.outcome S (.between src.type dst.type direction) src dst).result,
        some (tier.outcome S (.between src.type dst.type direction) src dst).target) := by
  have h := (Tier.yields_run tier (.between src.type dst.type direction) src dst _
    (Store.consistent_after (S := S) history)).1
  rw [← h]
  rfl

end Crosswalk
