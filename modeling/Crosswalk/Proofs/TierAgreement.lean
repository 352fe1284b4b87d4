import Crosswalk.Proofs.FlatImages
import Crosswalk.Proofs.Histories
import Crosswalk.Proofs.LinkEffects

/-!
# The tiers agree

The three tiers are three ways to the same end: plans made anew or kept, fields reached by name or
by position, values converted or, between equal kinds, handed over untouched. For a source that
holds what it declares they cannot be told apart by what comes out, whatever was kept before
(`Tier.convert_agrees`).

Two of the differences are settled elsewhere. What is kept does not matter, by `Tier.convert_after`,
and names and positions lead to the same fields, by `Tier.effect_copier`. What remains is a
statement about values, `Tier.image_agrees`, and this is where the source has to fit. Handing over
is right for a value of the kind of its field, and a nested record is only met by the plan of its
own type.
-/

namespace Crosswalk

namespace Tier

variable {S : Schema}

/-- The tiers agree on the record as a source, whenever the key is one for its type. -/
def AgreesOn (S : Schema) (tier : Tier) (r : Record) : Prop :=
  ∀ (key : PlanKey) (dst : Record), r.type = key.source → dst.type = key.target →
    tier.outcome S key r dst = naive.outcome S key r dst

variable {tier : Tier} {direction : Direction}

theorem imageItems_agrees {rs : List Record} {link : Link} {key : PlanKey}
    (h : ∀ r ∈ rs, r.type = key.source ∧ AgreesOn S tier r) (index : Nat) :
    tier.imageItems S link key index (rs.map (·.toValue)) =
      naive.imageItems S link key index (rs.map (·.toValue)) := by
  induction rs generalizing index with
  | nil => rfl
  | cons r rest ih =>
    obtain ⟨htype, hr⟩ := h r List.mem_cons_self
    rw [List.map_cons, imageItems_cons, imageItems_cons, hr key (.initial S key.target) htype rfl,
      ih fun r hr => h r (List.mem_cons_of_mem _ hr)]

/-- A copier that looks at the value makes the same of it in every tier. -/
theorem image_agrees_of_looking {link : Link} {c : Copier}
    (hc : c.Looks link)
    (hsuits : Transfer.Suits direction link.sourceKind link.targetKind link.transfer) {v : Value}
    (hv : v.fits S link.sourceKind = true)
    (hinner : ∀ inner : Record, v.Holds inner → inner.fits S = true → AgreesOn S tier inner) :
    tier.image S v c = naive.image S v (.byName link) := by
  have hflat : (∀ key, link.transfer ≠ .nested key) → (∀ key, link.transfer ≠ .nestedList key) →
      tier.image S v c = naive.image S v (.byName link) := fun h h' => by
    rw [image_of_not_nested S tier h h' v hc, image_of_not_nested S naive h h' v .byName]
  generalize hsource : link.sourceKind = sourceKind at hsuits hv
  generalize htarget : link.targetKind = targetKind at hsuits
  generalize htransfer : link.transfer = transfer at hsuits hflat
  cases hsuits with
  | scalar h o o' => exact hflat (by simp) (by simp)
  | scalarList h => exact hflat (by simp) (by simp)
  | impossible source target => exact hflat (by simp) (by simp)
  | nested t u o o' =>
    rcases Value.fits_nested.mp hv with ⟨-, rfl⟩ | ⟨r, rfl, rfl, hr⟩
    · rw [image_flat S tier Value.isFlat_null hc, image_flat S naive Value.isFlat_null .byName]
    · have hagree := hinner r (Value.holds_self r) hr (.between r.type u direction)
        (.initial S u) (by simp) (by simp [Record.initial])
      rw [image_record S tier r hc, image_record S naive r .byName, htransfer]
      dsimp only
      rw [PlanKey.target_between, hagree]
  | nestedList t u =>
    obtain ⟨rs, rfl, hrs⟩ := Value.fits_nestedList.mp hv
    rw [image_list S tier _ hc, image_list S naive _ .byName, htransfer]
    dsimp only
    rw [imageItems_agrees fun r hr => ?_]
    obtain ⟨rfl, hfits⟩ := hrs r hr
    exact ⟨by simp, hinner r (Value.holds_item (List.mem_map_of_mem hr)) hfits⟩

/-- A value that fits its field is what handing it over makes of it. -/
theorem image_eq_of_isDirect {link : Link}
    (hsuits : Transfer.Suits direction link.sourceKind link.targetKind link.transfer)
    (hdirect : link.transfer.isDirect = true) {v : Value}
    (hv : v.fits S link.sourceKind = true) : naive.image S v (.byName link) = .ok v := by
  rcases Transfer.isDirect_iff.mp hdirect with htransfer | htransfer
  · rw [image_scalar .byName htransfer, Link.carryScalar_identity_same]
  · -- only a list fits, so the absent list, which would become the empty one, is out of the way
    generalize hsource : link.sourceKind = sourceKind at hsuits hv
    generalize htarget : link.targetKind = targetKind at hsuits
    rw [htransfer] at hsuits
    cases hsuits with
    | scalarList h =>
      obtain ⟨items, rfl, -⟩ := Value.fits_scalarList.mp hv
      rw [image_scalarList .byName htransfer, Link.carryScalars_identity]
      rfl

theorem image_agrees {link : Link}
    (hsuits : Transfer.Suits direction link.sourceKind link.targetKind link.transfer) {v : Value}
    (hv : v.fits S link.sourceKind = true)
    (hinner : ∀ inner : Record, v.Holds inner → inner.fits S = true → AgreesOn S tier inner) :
    tier.image S v (tier.copier link) = naive.image S v (.byName link) := by
  cases tier with
  | naive => rfl
  | cached => exact image_agrees_of_looking .byName hsuits hv hinner
  | compiled =>
    rw [copier, Copier.compile]
    split
    · next hdirect => rw [image_handOver, image_eq_of_isDirect hsuits hdirect hv]
    · exact image_agrees_of_looking .byPosition hsuits hv hinner

/-- **The outcome does not depend on the tier.** By induction on the nesting of the source. -/
theorem agreesOn_of_fits (tier : Tier) {src : Record} (hsrc : src.fits S = true) :
    AgreesOn S tier src := by
  induction src using Record.nestedInduction with
  | step r ih =>
    intro key dst htype hdst
    rw [outcome_eq, outcome_eq, program, program]
    cases hplan : Plan.resolve S key with
    | error cause => rfl
    | ok plan =>
      dsimp only
      congr 1
      rw [List.map_map, List.map_map]
      refine List.map_congr_left fun l hl => ?_
      obtain ⟨source, target, hj⟩ := Plan.exists_joins hplan hl
      rw [Function.comp_apply, Function.comp_apply, hdst, effect_copier hplan hl tier htype,
        effect_copier hplan hl naive htype]
      cases hv : r.get? S l.sourceIndex with
      | none => rfl
      | some v =>
        dsimp only
        have hfit := hj.fits_of_get? htype hsrc hv
        rw [image_agrees hj.suits hfit (ih v (Record.mem_cells_of_get? hv))]
        rfl

/-- **All tiers do the same.** For a source that holds what it declares, or none, any destination of
any type, or none, and whatever had been asked of the two stores: the result is the same, be it a
failure with its cause, and so is the destination afterwards. -/
theorem convert_agrees (S : Schema) (src dst : Option Record)
    (hsrc : ∀ r ∈ src, r.fits S = true) (direction : Direction) (tier tier' : Tier)
    (history history' : List Store.Request) :
    (tier.convert S src dst direction (Store.after S history)).1 =
      (tier'.convert S src dst direction (Store.after S history')).1 := by
  cases src with
  | none => rfl
  | some src =>
    cases dst with
    | none => rfl
    | some dst =>
      have hagree (t : Tier) := agreesOn_of_fits t (hsrc src rfl)
        (.between src.type dst.type direction) dst (by simp) (by simp)
      rw [convert_after, convert_after, hagree tier, hagree tier']

/-- A compiled conversion, after another one that failed, does what one without a past does. -/
theorem convert_parcel_agrees :
    Parcels.parcel.fits Parcels.schema = true ∧
      (compiled.convert Parcels.schema (some Parcels.parcel) (some (.initial Parcels.schema ⟨2⟩))
          .toModel (Store.after Parcels.schema
            [.convert cached (some Parcels.oddParcel) (some (.initial Parcels.schema ⟨2⟩))
              .toModel])).1 =
        (naive.convert Parcels.schema (some Parcels.parcel) (some (.initial Parcels.schema ⟨2⟩))
          .toModel (Store.after Parcels.schema [])).1 := by
  have hfits : Parcels.parcel.fits Parcels.schema = true := by decide
  refine ⟨hfits, convert_agrees Parcels.schema _ _ (fun r hr => ?_) .toModel compiled naive _ _⟩
  rw [← Option.some.inj hr]
  exact hfits

end Tier

end Crosswalk
