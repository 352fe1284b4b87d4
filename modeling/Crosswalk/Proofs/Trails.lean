import Crosswalk.Proofs.Requests

/-!
# The keys that a conversion comes to

A conversion asks for the plan of its own key, and then, field by field, for the plans of the
records that it comes to on the way. It comes to a record only if everything before it went well:
the links before the one that holds the record, and the items before it in a list. A conversion that
fails early therefore leaves some keys unasked for.

`Tier.trail` lists these keys in order, with repetitions, and needs no store for that. It follows
`Tier.image`, along the same recursion, and asks the images where to stop. It is all that a
conversion does to a store: `Tier.follows_run` says that the store after a conversion is the store
after requests, one after the other, for the keys of the trail.
-/

namespace Crosswalk

namespace Tier

variable (S : Schema)

/-- The store after the plan of a key has been asked for, in the way of the tier. -/
def ask (tier : Tier) (s : Store) (key : PlanKey) : Store := (tier.copiers S key s).2

/-- Where nothing is kept, asking for a plan changes nothing. -/
theorem ask_naive (s : Store) (key : PlanKey) : naive.ask S s key = s := by
  rw [ask, copiers]
  cases Plan.resolve S key <;> rfl

/-! ### Trails -/

/-- The keys that a value leads to under a copier. -/
abbrev Trail := Copier → List PlanKey

/-- The keys that copiers lead to, in order and up to the first that fails. The trails and the
images are those of the cells of the source. -/
def trailOfCopiers (source target : TypeId) (trails : List Trail) (images : List Image) :
    List Copier → List PlanKey
  | [] => []
  | c :: rest =>
    let here := match (c.sourceIndex? S source).bind (trails[·]?) with
      | none => []
      | some trail => trail c
    match c.effectOf S source target images with
    | .error _ => here
    | .ok _ => here ++ trailOfCopiers source target trails images rest

/-- The keys that the conversion of a source comes to, given where its cells lead. -/
def trailOf (tier : Tier) (key : PlanKey) (source : TypeId) (trails : List Trail)
    (images : List Image) : List PlanKey :=
  match tier.program S key with
  | .error _ => [key]
  | .ok copiers => key :: trailOfCopiers S source key.target trails images copiers

mutual

/-- The keys that a value of the source leads to. -/
def trailIn (tier : Tier) : Value → Trail
  | _, .handOver _ => []
  | .record type cells, .byName link | .record type cells, .byPosition link =>
    match link.transfer with
    | .nested key => tier.trailOf S key type (trailEach tier cells) (imageEach S tier cells)
    | _ => []
  | .list items, .byName link | .list items, .byPosition link =>
    match link.transfer with
    | .nestedList key => trailItems tier key items
    | _ => []
  | _, .byName _ | _, .byPosition _ => []

/-- Where each of some cells leads. -/
def trailEach (tier : Tier) : List Value → List Trail
  | [] => []
  | v :: vs => trailIn tier v :: trailEach tier vs

/-- The keys that the records of a list lead to, up to the first that fails. -/
def trailItems (tier : Tier) (key : PlanKey) : List Value → List PlanKey
  | [] => []
  | .record type cells :: rest =>
    let here := tier.trailOf S key type (trailEach tier cells) (imageEach S tier cells)
    match (tier.outcomeOf S key type (imageEach S tier cells) (.initial S key.target)).result with
    | .error _ => here
    | .ok _ => here ++ trailItems tier key rest
  | _ :: _ => []

end

/-- The keys that the conversion of a record by a key comes to, in order. -/
def trail (tier : Tier) (key : PlanKey) (r : Record) : List PlanKey :=
  tier.trailOf S key r.type (trailEach S tier r.cells) (imageEach S tier r.cells)

/-- The keys that copiers for a source come to, in order and up to the first that fails. -/
def trailFrom (tier : Tier) (src : Record) (target : TypeId) : List Copier → List PlanKey :=
  trailOfCopiers S src.type target (trailEach S tier src.cells) (imageEach S tier src.cells)

/-! ### In terms of reading the source -/

theorem trailEach_eq_map (tier : Tier) (cells : List Value) :
    trailEach S tier cells = cells.map (trailIn S tier) := by
  induction cells with
  | nil => rfl
  | cons v vs ih => rw [trailEach, ih, List.map_cons]

theorem trail_eq (tier : Tier) (key : PlanKey) (r : Record) :
    tier.trail S key r =
      match tier.program S key with
      | .error _ => [key]
      | .ok copiers => key :: tier.trailFrom S r key.target copiers := rfl

theorem trailFrom_cons (tier : Tier) (src : Record) (target : TypeId) (c : Copier)
    (rest : List Copier) :
    tier.trailFrom S src target (c :: rest) =
      ((c.read? S src).elim [] fun v => tier.trailIn S v c) ++
        match tier.effect S src target c with
        | .error _ => []
        | .ok _ => tier.trailFrom S src target rest := by
  have hread : ((c.sourceIndex? S src.type).bind ((trailEach S tier src.cells)[·]?)) =
      (c.read? S src).map (trailIn S tier) := by
    rw [trailEach_eq_map, Copier.read?]
    cases c.sourceIndex? S src.type <;> simp
  rw [trailFrom, trailOfCopiers, hread, effect]
  cases c.read? S src <;>
    cases c.effectOf S src.type target (imageEach S tier src.cells) <;> simp

variable {S} {tier : Tier}

/-- There is nothing to come to in a value that is neither a record nor a list. -/
theorem trailIn_flat {v : Value} (hv : v.IsFlat) (c : Copier) : tier.trailIn S v c = [] := by
  cases v with
  | list items => exact absurd rfl (hv.1 items)
  | record type cells => exact absurd rfl (hv.2 type cells)
  | _ => cases c <;> rfl

theorem trailIn_handOver (v : Value) (link : Link) : tier.trailIn S v (.handOver link) = [] := by
  cases v <;> rfl

theorem trailIn_record (r : Record) {link : Link} {c : Copier} (hc : c.Looks link) :
    tier.trailIn S r.toValue c =
      match link.transfer with
      | .nested key => tier.trail S key r
      | _ => [] := by
  cases hc <;> (rw [Record.toValue, trailIn]; rfl)

theorem trailIn_list (items : List Value) {link : Link} {c : Copier} (hc : c.Looks link) :
    tier.trailIn S (.list items) c =
      match link.transfer with
      | .nestedList key => tier.trailItems S key items
      | _ => [] := by
  cases hc <;> rw [trailIn]

theorem trailItems_cons (key : PlanKey) (r : Record) (rest : List Value) :
    tier.trailItems S key (r.toValue :: rest) = tier.trail S key r ++
      match (tier.outcome S key r (.initial S key.target)).result with
      | .error _ => []
      | .ok _ => tier.trailItems S key rest := by
  rw [Record.toValue, trailItems, outcome, trail]
  cases (tier.outcomeOf S key r.type (imageEach S tier r.cells) (.initial S key.target)).result <;>
    simp

theorem trailItems_of_not_record {v : Value} (hv : ∀ r : Record, v ≠ r.toValue) (key : PlanKey)
    (rest : List Value) : tier.trailItems S key (v :: rest) = [] := by
  cases v with
  | record type cells => exact absurd rfl (hv ⟨type, cells⟩)
  | _ => rfl

/-! ### What a conversion does to a store -/

/-- From any consistent store, the computation does to it what requests for the keys do. -/
def Follows (S : Schema) (tier : Tier) {α : Type} (compute : Store → α × Store)
    (keys : List PlanKey) : Prop :=
  ∀ s : Store, s.Consistent S → (compute s).2 = keys.foldl (tier.ask S) s

/-- A conversion of the record follows its trail, whatever the key. -/
def FollowsTrail (S : Schema) (tier : Tier) (r : Record) : Prop :=
  ∀ (key : PlanKey) (dst : Record), dst.type = key.target →
    Follows S tier (tier.run S key r dst) (tier.trail S key r)

/-- The records of a list are converted one after the other, up to the first that fails. -/
theorem follows_carryItems {items : List Value}
    (h : ∀ r : Record, r.toValue ∈ items → FollowsTrail S tier r) (link : Link) (key : PlanKey)
    (index : Nat) :
    Follows S tier (tier.carryItems S link key index items) (tier.trailItems S key items) := by
  induction items generalizing index with
  | nil => exact fun s _ => rfl
  | cons v rest ih =>
    have hrest := ih fun r hr => h r (List.mem_cons_of_mem _ hr)
    intro s hs
    by_cases hv : ∃ r : Record, v = r.toValue
    · obtain ⟨r, rfl⟩ := hv
      have hstore := h r List.mem_cons_self key (.initial S key.target) rfl s hs
      obtain ⟨hresult, hs'⟩ := yields_run (S := S) tier key r (.initial S key.target) s hs
      rw [carryItems_cons, trailItems_cons, List.foldl_append, ← hstore, ← hresult]
      rcases hrun : tier.run S key r (.initial S key.target) s with ⟨⟨result, made⟩, s'⟩
      rw [hrun] at hs'
      cases result with
      | error e => rfl
      | ok => exact hrest (index + 1) s' hs'
    · rw [trailItems_of_not_record fun r hr => hv ⟨r, hr⟩]
      cases v with
      | record type cells => exact absurd ⟨⟨type, cells⟩, rfl⟩ hv
      | _ => rfl

theorem follows_carry_record {r : Record} (h : FollowsTrail S tier r) {l : Link} {c : Copier}
    (hc : c.Looks l) :
    Follows S tier (tier.carry S r.toValue c) (tier.trailIn S r.toValue c) := by
  intro s hs
  rw [carry_record r hc, trailIn_record r hc]
  cases l.transfer with
  | nested key =>
    dsimp only
    rw [← h key (.initial S key.target) rfl s hs]
    rcases tier.run S key r (.initial S key.target) s with ⟨⟨result, made⟩, s'⟩
    cases result <;> rfl
  | _ => rfl

theorem follows_carry_list {items : List Value}
    (h : ∀ r : Record, r.toValue ∈ items → FollowsTrail S tier r) {l : Link} {c : Copier}
    (hc : c.Looks l) :
    Follows S tier (tier.carry S (.list items) c) (tier.trailIn S (.list items) c) := by
  intro s hs
  rw [carry_list items hc, trailIn_list items hc]
  cases l.transfer with
  | nestedList key => exact follows_carryItems h l key 0 s hs
  | _ => rfl

/-- A value is carried along its trail, under every copier. -/
theorem follows_carry {v : Value} (h : ∀ inner : Record, v.Holds inner → FollowsTrail S tier inner)
    (c : Copier) : Follows S tier (tier.carry S v c) (tier.trailIn S v c) := by
  have hlooking : ∀ {l : Link} {c : Copier}, c.Looks l →
      Follows S tier (tier.carry S v c) (tier.trailIn S v c) := by
    intro l c hc
    induction v using Value.induction with
    | flat v hv =>
      intro s _
      rw [carry_flat hv, trailIn_flat hv]
      rfl
    | list items => exact follows_carry_list (fun r hr => h r (Value.holds_item hr)) hc
    | record type cells => exact follows_carry_record (h ⟨type, cells⟩ (Value.holds_self ⟨_, _⟩)) hc
  cases c with
  | byName link => exact hlooking .byName
  | byPosition link => exact hlooking .byPosition
  | handOver link =>
    intro s _
    rw [carry_handOver, trailIn_handOver]
    rfl

/-- Copiers are carried out in order, up to the first that fails. -/
theorem follows_copyFrom {src : Record}
    (h : ∀ v ∈ src.cells, ∀ inner : Record, v.Holds inner → FollowsTrail S tier inner)
    (copiers : List Copier) (dst : Record) :
    Follows S tier (tier.copyFrom S src copiers dst)
      (tier.trailFrom S src dst.type copiers) := by
  induction copiers generalizing dst with
  | nil => exact fun s _ => rfl
  | cons c rest ih =>
    intro s hs
    rw [copyFrom_cons, trailFrom_cons, effect_eq, List.foldl_append]
    cases hv : c.read? S src with
    | none => rfl
    | some v =>
      obtain ⟨index, -, hindex⟩ := Option.bind_eq_some_iff.mp hv
      have hstore := follows_carry (h v (List.mem_of_getElem? hindex)) c s hs
      obtain ⟨himage, hs'⟩ := carries v c s hs
      dsimp only [Option.elim]
      rw [← hstore, ← himage]
      rcases hcarry : tier.carry S v c s with ⟨answer, s'⟩
      rw [hcarry] at hs'
      cases answer with
      | error e => rfl
      | ok w =>
        dsimp only
        rw [Copier.write_eq]
        cases c.placement S dst.type w with
        | error e => rfl
        | ok p => exact ih (dst.place p) s' hs'

/-- **A conversion does to the store what requests for its keys do**, one after the other along the
trail. By induction on the nesting of the source. -/
theorem follows_run (tier : Tier) (r : Record) : FollowsTrail S tier r := by
  induction r using Record.nestedInduction with
  | step r ih =>
    intro key dst hdst s hs
    obtain ⟨hprogram, hs'⟩ := yields_copiers (S := S) tier key s hs
    rw [run_eq, trail_eq, ← hprogram]
    have hask : tier.ask S s key = (tier.copiers S key s).2 := rfl
    rcases hcopiers : tier.copiers S key s with ⟨answer, s'⟩
    rw [hcopiers] at hs' hask
    cases answer with
    | error e => exact hask.symm
    | ok copiers =>
      dsimp only
      rw [List.foldl_cons, hask, ← hdst]
      exact follows_copyFrom ih copiers dst s' hs'

end Tier

end Crosswalk
