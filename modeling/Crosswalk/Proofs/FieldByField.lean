import Crosswalk.Proofs.RoundTrip

/-!
# A conversion, field by field

What a successful conversion leaves in a field can be said in terms of smaller conversions and
nothing else. `Becomes` says it, by the kind of the target field and without plans or transfers: a
scalar is coerced, an absent one stays absent or becomes the zero value, a list of scalars is
coerced item by item, and a record becomes what converting it alone makes of it.

*Alone* means from the top, into an initial record, in any tier and whatever was asked for before
(`ConvertedAlone`). That is the delicate part. Inside a larger conversion the record is converted in
the tier of that conversion and with the plans that it has gathered so far. Neither makes a
difference, since the record fits (`Made.convertedAlone`).
-/

namespace Crosswalk

variable {S : Schema} {key : PlanKey} {plan : Plan} {l : Link} {direction : Direction}

/-- A conversion of its own, in any tier and after any history, makes the second record of the first
one and an initial record of the type. -/
def ConvertedAlone (S : Schema) (direction : Direction) (type : TypeId) (r r' : Record) : Prop :=
  ∀ (tier : Tier) (history : List Store.Request),
    (tier.convert S (some r) (some (.initial S type)) direction (Store.after S history)).1 =
      (.ok (), some r')

/-- What a field of the kind reads when the conversion has come to it with a value. -/
def Becomes (S : Schema) (direction : Direction) (kind : FieldKind) (v w : Value) : Prop :=
  match kind with
  | .scalar k optional =>
    (w = .null ↔ v = .null ∧ optional = true) ∧ (v = .null ∧ optional = false → w = .zero k) ∧
      (v ≠ .null → v.coerce? k = some w)
  | .scalarList k =>
    ∃ vs ws, v = .list vs ∧ w = .list ws ∧ List.Forall₂ (fun v w => v.coerce? k = some w) vs ws
  | .nested type optional =>
    (v = .null ∧ w = if optional then .null else (Record.initial S type).toValue) ∨
      ∃ r r', v = r.toValue ∧ w = r'.toValue ∧ ConvertedAlone S direction type r r'
  | .nestedList type =>
    ∃ rs rs' : List Record, v = .list (rs.map (·.toValue)) ∧ w = .list (rs'.map (·.toValue)) ∧
      List.Forall₂ (ConvertedAlone S direction type) rs rs'
  | .unsupported _ => False

/-! ### Scalars -/

/-- Converting a scalar is coercing it, also where there is nothing to be done. -/
theorem ScalarConversion.Between.image?_eq_coerce? {k k' : ScalarKind} {c : ScalarConversion}
    (h : Between k k' c) {v : Value} (hv : v.scalarKind? = some k) : c.image? v = v.coerce? k' := by
  by_cases hne : k = k'
  · subst hne
    have hsame : v.coerce? k = some v := if_pos (.inr hv)
    rw [h.eq_identity, hsame, image?]
  · exact h.image?_eq hne v

theorem Value.ne_null_of_scalarKind? {v : Value} {k : ScalarKind} (h : v.scalarKind? = some k) :
    v ≠ .null := by
  rintro rfl
  cases h

/-- What crosses to a scalar field. -/
theorem Link.Crosses.becomes_scalar {k k' : ScalarKind} {c : ScalarConversion} {o o' : Bool}
    (hc : ScalarConversion.Between k k' c) (htarget : l.targetKind = .scalar k' o')
    (htransfer : l.transfer = .scalar c (.between o o')) {v w : Value} (h : l.Crosses S v w)
    (hv : v.fits S (.scalar k o) = true) : Becomes S direction (.scalar k' o') v w := by
  rcases h.scalar_cases htransfer hv with ⟨rfl, rfl, rfl⟩ | ⟨hkind, himage⟩
  · cases o' with
    | true => simp [Becomes, Presence.between, absentScalar_same]
    | false =>
      have hzero := Value.ne_null_of_scalarKind? (Value.scalarKind?_zero k')
      simp [Becomes, Presence.between, absentScalar_unwrap htarget, hzero]
  · have hv' := Value.ne_null_of_scalarKind? hkind
    have hw := Value.ne_null_of_scalarKind? (hc.scalarKind?_image? hkind himage)
    rw [hc.image?_eq_coerce? hkind] at himage
    simp [Becomes, hv', hw, himage]

theorem Link.Crosses.becomes_scalarList {k k' : ScalarKind} {c : ScalarConversion}
    (hc : ScalarConversion.Between k k' c) (htransfer : l.transfer = .scalarList c) {v w : Value}
    (h : l.Crosses S v w) (hv : v.fits S (.scalarList k) = true) :
    Becomes S direction (.scalarList k') v w := by
  obtain ⟨vs, ws, rfl, rfl, hkinds, hws⟩ := h.exists_scalars htransfer hv
  have hpairs := (List.forall₂_and_left vs ws).mpr ⟨hkinds, hws⟩
  refine ⟨vs, ws, rfl, rfl, hpairs.imp ?_⟩
  rintro v w ⟨hkind, himage⟩
  rw [← hc.image?_eq_coerce? hkind, himage]

/-! ### Records -/

/-- **A record that was made inside a conversion is what a conversion of its own makes.** -/
theorem Made.convertedAlone {t u : TypeId} {r r' : Record}
    (h : Made S (.between t u direction) r r') (hr : Source S (.between t u direction) r) :
    ConvertedAlone S direction u r r' := by
  intro tier history
  have htype : r.type = t := by simpa using hr.type_eq
  have hagree : tier.outcome S (.between t u direction) r (.initial S u) =
      Tier.naive.outcome S (.between t u direction) r (.initial S u) :=
    Tier.agreesOn_of_fits tier hr.fits _ _ (by simpa using htype) (by simp [Record.initial])
  rw [Made, PlanKey.target_between] at h
  rw [Tier.convert_after, htype, show (Record.initial S u).type = u from rfl, hagree, h]

/-- Records that were made one by one are what conversions of their own make. -/
theorem convertedAlone_of_made {t u : TypeId} {rs rs' : List Record}
    (h : List.Forall₂ (Made S (.between t u direction)) rs rs')
    (hrs : ∀ r ∈ rs, Source S (.between t u direction) r) :
    List.Forall₂ (ConvertedAlone S direction u) rs rs' := by
  have hpairs := (List.forall₂_and_left rs rs').mpr ⟨hrs, h⟩
  exact hpairs.imp fun r r' hrr' => hrr'.2.convertedAlone hrr'.1

/-! ### Fields -/

/-- **What a field takes of what crosses to it**, in terms of smaller conversions. -/
theorem Link.Crosses.becomes
    (hsuits : Transfer.Suits direction l.sourceKind l.targetKind l.transfer) {v w cell : Value}
    (hv : v.fits S l.sourceKind = true) (h : l.Crosses S v w)
    (hcell : l.targetKind.admit? S w = some cell)
    (hinner : ∀ key r, l.transfer.Enters v key r → Source S key r) :
    Becomes S direction l.targetKind v cell := by
  generalize hsource : l.sourceKind = sourceKind at hsuits hv
  generalize htarget : l.targetKind = targetKind at hsuits hcell ⊢
  generalize htransfer : l.transfer = transfer at hsuits hinner
  cases hsuits with
  | scalar hc o o' =>
    have hbetween := ScalarKind.between_of_conversion hc
    have hw := h.scalarKind? hbetween htarget htransfer hv
    rw [FieldKind.admit?_scalar hw, Option.some.injEq] at hcell
    rw [← hcell]
    exact h.becomes_scalar hbetween htarget htransfer hv
  | @scalarList k k' c hc =>
    have hbetween := ScalarKind.between_of_conversion hc
    obtain ⟨vs, ws, rfl, rfl, hkinds, hws⟩ := h.exists_scalars htransfer hv
    rw [FieldKind.admit?_list (hbetween.scalarKind?_images hkinds hws), Option.some.injEq] at hcell
    rw [← hcell]
    exact h.becomes_scalarList hbetween htransfer hv
  | nested t u o o' =>
    rw [Crosses, htransfer] at h
    rcases h with ⟨rfl, rfl⟩ | ⟨r, r', rfl, rfl, hmade⟩
    · rw [FieldKind.admit?, Option.some.injEq] at hcell
      exact .inl ⟨rfl, hcell.symm⟩
    · have htype : r'.type = u := by rw [hmade.type_eq, PlanKey.target_between]
      rw [FieldKind.admit?_record htype, Option.some.injEq] at hcell
      exact .inr ⟨r, r', rfl, hcell.symm, hmade.convertedAlone (hinner _ r (.record _ r))⟩
  | nestedList t u =>
    rw [Crosses, htransfer] at h
    obtain ⟨rs, rs', rfl, rfl, hmade⟩ := h
    have htypes := types_of_made hmade
    rw [PlanKey.target_between] at htypes
    rw [FieldKind.admit?_records htypes, Option.some.injEq] at hcell
    refine ⟨rs, rs', rfl, hcell.symm, convertedAlone_of_made hmade fun r hr => ?_⟩
    exact hinner _ r (.item (List.mem_map_of_mem hr))
  | impossible source target =>
    rw [Crosses, htransfer] at h
    exact h.elim

/-- **A successful conversion, field by field.** Between ordinary types, in any tier and whatever
was asked for before, every linked field of the destination reads in the end what the value of its
source field becomes. -/
theorem Tier.convert_field_by_field (S : Schema) (tier : Tier) (src dst left : Record)
    (direction : Direction) (history : List Store.Request) (hsrc : S.Ordinary src.type)
    (hdst : S.Ordinary dst.type) (hfits : src.fits S = true) (hwhole : dst.Whole S)
    (hok : (tier.convert S (some src) (some dst) direction (Store.after S history)).1 =
      (.ok (), some left)) :
    ∃ plan, Plan.resolve S (.between src.type dst.type direction) = .ok plan ∧
      ∀ l ∈ plan.links, ∃ v w, src.get? S l.sourceIndex = some v ∧
        left.get? S l.targetIndex = some w ∧ Becomes S direction l.targetKind v w := by
  have hsource : Source S (.between src.type dst.type direction) src :=
    ⟨by simp, hfits, by simpa using hsrc, by simpa using hdst⟩
  have htarget : dst.type = (PlanKey.between src.type dst.type direction).target := by simp
  rw [convert_after, agreesOn_of_fits tier hfits _ dst (by simp) htarget, Prod.mk.injEq,
    Option.some.injEq] at hok
  obtain ⟨hresult, rfl⟩ := hok
  obtain ⟨plan, hplan, -⟩ := (outcome_ok_iff hsource htarget).mp hresult
  have hdone := carriedOut_of_ok hplan hsource.type_eq htarget hdst.plain hwhole hresult
  refine ⟨plan, hplan, fun l hl => ?_⟩
  obtain ⟨v, w, cell, hv, hcrosses, hcell, hleft⟩ :=
    hdone.exists_crosses hplan hsource htarget hl hl
  obtain ⟨source, target, hj⟩ := Plan.exists_joins hplan hl
  have hsuits := hj.suits
  rw [PlanKey.direction_between] at hsuits
  exact ⟨v, cell, hv, hleft, hcrosses.becomes hsuits
    (hj.fits_of_get? hsource.type_eq hfits hv) hcell fun _ _ => hsource.enter hplan hl hv⟩

/-- The parcel, in the compiled tier and after a conversion that failed in another. What it leaves
in its list of stops, to take one field, is what each stop alone is converted to. -/
theorem Tier.convert_parcel_field_by_field :
    let history := [Store.Request.convert cached (some Parcels.oddParcel)
      (some (.initial Parcels.schema ⟨2⟩)) .toModel]
    (Parcels.schema.Ordinary ⟨0⟩ ∧ Parcels.schema.Ordinary ⟨2⟩ ∧
      Parcels.parcel.fits Parcels.schema = true ∧
      (Record.initial Parcels.schema ⟨2⟩).Whole Parcels.schema) ∧
      ∃ left, (compiled.convert Parcels.schema (some Parcels.parcel)
          (some (.initial Parcels.schema ⟨2⟩)) .toModel (Store.after Parcels.schema history)).1 =
            (.ok (), some left) ∧
        ∃ v w, Parcels.parcel.get? Parcels.schema 5 = some v ∧
          left.get? Parcels.schema 5 = some w ∧
          Becomes Parcels.schema .toModel (.nestedList ⟨3⟩) v w := by
  intro history
  have hfits : Parcels.parcel.fits Parcels.schema = true := by decide
  have hwhole := Record.whole_of_fits (Record.initial_fits (Parcels.ordinary ⟨2⟩))
  have hok : (compiled.convert Parcels.schema (some Parcels.parcel)
      (some (.initial Parcels.schema ⟨2⟩)) .toModel (Store.after Parcels.schema history)).1.1 =
        .ok () := by decide +kernel
  obtain ⟨left, hleft⟩ : ∃ left, (compiled.convert Parcels.schema (some Parcels.parcel)
      (some (.initial Parcels.schema ⟨2⟩)) .toModel (Store.after Parcels.schema history)).1.2 =
        some left := by
    rw [convert_after]
    exact ⟨_, rfl⟩
  obtain ⟨plan, hplan, hall⟩ := convert_field_by_field Parcels.schema compiled Parcels.parcel
    (.initial Parcels.schema ⟨2⟩) left .toModel history (Parcels.ordinary _) (Parcels.ordinary _)
    hfits hwhole (Prod.ext hok hleft)
  refine ⟨⟨Parcels.ordinary _, Parcels.ordinary _, hfits, hwhole⟩, left, Prod.ext hok hleft, ?_⟩
  have hstops : ⟨"stops", 5, 5, .nestedList ⟨1⟩, .nestedList ⟨3⟩,
      .nestedList (.between ⟨1⟩ ⟨3⟩ .toModel)⟩ ∈ plan.links := by
    rw [Parcels.links_parcel hplan]
    simp
  exact hall _ hstops

end Crosswalk
