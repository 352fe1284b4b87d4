import Crosswalk.Proofs.Coercion
import Crosswalk.Proofs.FlatImages
import Crosswalk.Proofs.TierAgreement

/-!
# Crossing, as a relation

For a source that fits, what a link makes of a value can be said without an interpreter.
`Link.Crosses` says it, transfer by transfer, and the interpreter makes exactly
that of the value (`Tier.image_eq_ok_iff`). What a nested record is made into is left to its own
conversion, `Made`.

The relation is what the failure condition and the round trip argue about. A value of the kind of
the source field that does not cross is one that the transfer rejects, or has a record inside that
cannot be made (`Link.crosses_or`); and whatever crosses, the target field takes
(`Link.Crosses.exists_admit?`).

By the agreement of the tiers nothing is lost in speaking of the first tier only.
-/

namespace Crosswalk

variable {S : Schema}

/-- The conversion by the key makes the second record out of the first, beginning with a fresh
one. -/
def Made (S : Schema) (key : PlanKey) (r r' : Record) : Prop :=
  Tier.naive.outcome S key r (.initial S key.target) = ⟨.ok (), r'⟩

/-- What a link makes of a value. -/
def Link.Crosses (S : Schema) (l : Link) (v w : Value) : Prop :=
  match l.transfer with
  | .scalar c presence =>
    (v = .null ∧ w = l.absentScalar presence) ∨ (v.isNull = false ∧ c.image? v = some w)
  | .scalarList c => ∃ vs ws, v = .list vs ∧ w = .list ws ∧
    List.Forall₂ (fun v w => c.image? v = some w) vs ws
  | .nested key => (v = .null ∧ w = .null) ∨
    ∃ r r', v = r.toValue ∧ w = r'.toValue ∧ Made S key r r'
  | .nestedList key => ∃ rs rs' : List Record, v = .list (rs.map (·.toValue)) ∧
    w = .list (rs'.map (·.toValue)) ∧ List.Forall₂ (Made S key) rs rs'
  | .impossible .. => False

/-! ### The interpreter makes what crosses -/

namespace Tier

theorem imageItems_eq_ok_iff {l : Link} {key : PlanKey} {index : Nat} {rs : List Record}
    {ws : List Value} :
    naive.imageItems S l key index (rs.map (·.toValue)) = .ok ws ↔
      ∃ rs', ws = rs'.map (·.toValue) ∧ List.Forall₂ (Made S key) rs rs' := by
  induction rs generalizing index ws with
  | nil =>
    rw [List.map_nil, imageItems]
    constructor
    · intro h
      cases h
      exact ⟨[], rfl, .nil⟩
    · rintro ⟨rs', rfl, h⟩
      cases h
      rfl
  | cons r rest ih =>
    rw [List.map_cons, imageItems_cons]
    rcases hr : naive.outcome S key r (.initial S key.target) with ⟨result, made⟩
    cases result with
    | error e =>
      simp only [reduceCtorEq, false_iff]
      rintro ⟨rs', rfl, h⟩
      cases h with
      | cons hmade _ =>
        rw [Made, hr] at hmade
        cases hmade
    | ok =>
      dsimp only
      rw [map_eq_ok_iff]
      constructor
      · rintro ⟨others, hrest, rfl⟩
        obtain ⟨rs', rfl, hrs'⟩ := ih.mp hrest
        exact ⟨made :: rs', rfl, .cons hr hrs'⟩
      · rintro ⟨rs', rfl, h⟩
        cases h with
        | cons hmade hrest =>
          rw [Made, hr] at hmade
          cases hmade
          exact ⟨_, ih.mpr ⟨_, rfl, hrest⟩, rfl⟩

theorem image_record_eq_ok_iff {l : Link} {key : PlanKey} (h : l.transfer = .nested key)
    {r : Record} {w : Value} : naive.image S r.toValue (.byName l) = .ok w ↔
      ∃ r', w = r'.toValue ∧ Made S key r r' := by
  rw [image_record S naive r .byName, h]
  dsimp only [Made]
  rcases naive.outcome S key r (.initial S key.target) with ⟨result, made⟩
  cases result with
  | error e => simp
  | ok => simp [eq_comm]

theorem image_records_eq_ok_iff {l : Link} {key : PlanKey} (h : l.transfer = .nestedList key)
    {rs : List Record} {w : Value} :
    naive.image S (.list (rs.map (·.toValue))) (.byName l) = .ok w ↔
      ∃ rs', w = .list (rs'.map (·.toValue)) ∧ List.Forall₂ (Made S key) rs rs' := by
  rw [image_list S naive _ .byName, h]
  dsimp only
  rw [map_eq_ok_iff]
  constructor
  · rintro ⟨ws, hws, rfl⟩
    obtain ⟨rs', rfl, hrs'⟩ := imageItems_eq_ok_iff.mp hws
    exact ⟨rs', rfl, hrs'⟩
  · rintro ⟨rs', rfl, hrs'⟩
    exact ⟨_, imageItems_eq_ok_iff.mpr ⟨rs', rfl, hrs'⟩, rfl⟩

/-- **The interpreter makes what crosses**, and nothing else. -/
theorem image_eq_ok_iff {direction : Direction} {l : Link}
    (hsuits : Transfer.Suits direction l.sourceKind l.targetKind l.transfer) {v w : Value}
    (hv : v.fits S l.sourceKind = true) :
    naive.image S v (.byName l) = .ok w ↔ l.Crosses S v w := by
  rw [Link.Crosses]
  generalize hsource : l.sourceKind = sourceKind at hsuits hv
  generalize htarget : l.targetKind = targetKind at hsuits
  generalize htransfer : l.transfer = transfer at hsuits
  cases hsuits with
  | scalar h o o' =>
    rw [image_scalar .byName htransfer, Link.carryScalar_eq_ok_iff]
  | scalarList h =>
    obtain ⟨items, rfl, -⟩ := Value.fits_scalarList.mp hv
    rw [image_scalarList .byName htransfer, map_eq_ok_iff]
    constructor
    · rintro ⟨ws, hws, rfl⟩
      exact ⟨items, ws, rfl, rfl, Link.carryScalars_eq_ok_iff.mp hws⟩
    · rintro ⟨vs, ws, hvs, rfl, hws⟩
      cases hvs
      exact ⟨ws, Link.carryScalars_eq_ok_iff.mpr hws, rfl⟩
  | nested t u o o' =>
    rcases Value.fits_nested.mp hv with ⟨-, rfl⟩ | ⟨r, rfl, -, -⟩
    · rw [image_noRecord .byName htransfer]
      simp [Record.toValue, eq_comm]
    · rw [image_record_eq_ok_iff htransfer]
      constructor
      · rintro ⟨made, rfl, hmade⟩
        exact .inr ⟨r, made, rfl, rfl, hmade⟩
      · rintro (⟨hr, -⟩ | ⟨r₁, made, hr, rfl, hmade⟩)
        · cases hr
        · rw [Record.toValue_injective hr]
          exact ⟨made, rfl, hmade⟩
  | nestedList t u =>
    obtain ⟨rs, rfl, -⟩ := Value.fits_nestedList.mp hv
    rw [image_records_eq_ok_iff htransfer]
    constructor
    · rintro ⟨rs', rfl, hrs'⟩
      exact ⟨rs, rs', rfl, rfl, hrs'⟩
    · rintro ⟨rs₁, rs', hrs, rfl, hrs'⟩
      rw [Value.list.injEq] at hrs
      rw [Record.map_toValue_injective hrs]
      exact ⟨rs', rfl, hrs'⟩
  | impossible source target =>
    rw [image_impossible .byName htransfer]
    simp

end Tier

end Crosswalk
