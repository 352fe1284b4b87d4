import Crosswalk.Proofs.Admission

/-!
# When a conversion fails

A conversion between ordinary types fails for one of three reasons, and each of them can be read off
the source without running anything (`Breaks`): a type repeats a field name, so that there is no
plan; a link is impossible; or a checked conversion rejects a scalar. It fails exactly when one of
the records that it comes to has such a reason (`Tier.convert_fails_iff`).

One direction follows the way to the record with the reason. The other goes down the source: a value
that does not cross has a reason of its own, or holds a record that cannot be made
(`Link.crosses_or`).

That nothing else fails is as much of the result. No write is refused, no field is missing, no value
has an unexpected shape, and neither a widening nor an instant on its way to a timestamp ever fails:
every error is `ConvertError.Regular`.
-/

namespace Crosswalk

variable {S : Schema} {key : PlanKey} {plan : Plan} {l : Link} {direction : Direction}

/-! ### Reasons -/

/-- The conversion checks each value, and rejects this one. -/
inductive ScalarConversion.Rejects : ScalarConversion → Value → Prop
  | narrow {k l : ScalarKind} {v : Value} (h : v.coerce? l = none) : Rejects (.narrow k l) v
  | readTime {v : Value} (h : v.coerce? .datetime = none) :
    Rejects (.timeCodec .timestamp .datetime) v

/-- The scalar, or some item of the list of scalars, is rejected. -/
inductive Transfer.Rejects : Transfer → Value → Prop
  | scalar {c : ScalarConversion} {presence : Presence} {v : Value} (h : c.Rejects v) :
    Rejects (.scalar c presence) v
  | item {c : ScalarConversion} {items : List Value} {v : Value} (hmem : v ∈ items)
    (h : c.Rejects v) : Rejects (.scalarList c) (.list items)

/-- The record itself, whatever is inside it, is a reason for its conversion by the key to fail. -/
inductive Breaks (S : Schema) (key : PlanKey) (r : Record) : Prop
  | repeatedName (h : ¬ (S.decl key.pair.wire).names.Nodup ∨
    ¬ (S.decl key.pair.model).names.Nodup)
  | impossible {plan : Plan} {l : Link} {source target : FieldKind}
    (hplan : Plan.resolve S key = .ok plan) (hl : l ∈ plan.links)
    (h : l.transfer = .impossible source target)
  | rejected {plan : Plan} {l : Link} {v : Value} (hplan : Plan.resolve S key = .ok plan)
    (hl : l ∈ plan.links) (hv : r.get? S l.sourceIndex = some v) (h : l.transfer.Rejects v)

theorem ScalarConversion.Rejects.image?_eq {c : ScalarConversion} {v : Value} (h : c.Rejects v) :
    c.image? v = none := by
  cases h with
  | narrow h => exact h
  | readTime h => exact h

/-- What has no counterpart has been rejected by a check. -/
theorem ScalarConversion.Between.rejects_of_image? {k l : ScalarKind} {c : ScalarConversion}
    (hc : Between k l c) {v : Value} (hv : v.scalarKind? = some k) (h : c.image? v = none) :
    c.Rejects v := by
  have hsome := hc.isSome_image? hv
  rw [h] at hsome
  cases hc with
  | narrow => exact .narrow h
  | readTime => exact .readTime h
  | identity => cases h
  | widen => exact absurd (hsome (by simp) (by simp)) Bool.false_ne_true
  | writeTime => exact absurd (hsome (by simp) (by simp)) Bool.false_ne_true

/-! ### Crossing or not -/

/-- What crosses is not impossible. -/
theorem Link.Crosses.ne_impossible {v w : Value} (h : l.Crosses S v w) {source target : FieldKind} :
    l.transfer ≠ .impossible source target := by
  intro htransfer
  rw [Crosses, htransfer] at h
  exact h

/-- What crosses is not rejected. -/
theorem Link.Crosses.not_rejects {v w : Value} (h : l.Crosses S v w) : ¬ l.transfer.Rejects v := by
  intro hrejects
  rw [Crosses] at h
  generalize l.transfer = transfer at h hrejects
  cases hrejects with
  | scalar hrejects =>
    rcases h with ⟨rfl, -⟩ | ⟨-, hw⟩
    · cases hrejects with
      | narrow h => cases h
      | readTime h => cases h
    · rw [hrejects.image?_eq] at hw
      cases hw
  | item hmem hrejects =>
    obtain ⟨vs, ws, hvs, -, hws⟩ := h
    cases hvs
    obtain ⟨w, -, hw⟩ := exists_partner hws.flip hmem
    have hnone := hrejects.image?_eq
    rw [hw] at hnone
    cases hnone

/-- A record inside of what crosses can be made. -/
theorem Link.Crosses.exists_made {v w : Value} (h : l.Crosses S v w) {inner : Record}
    (henter : l.transfer.Enters v key inner) : ∃ made, Made S key inner made := by
  rw [Crosses] at h
  generalize l.transfer = transfer at h henter
  cases henter with
  | record =>
    rcases h with ⟨hnull, -⟩ | ⟨r, r', hr, -, hmade⟩
    · cases hnull
    · rw [Record.toValue_injective hr]
      exact ⟨r', hmade⟩
  | item hmem =>
    obtain ⟨rs, rs', hrs, -, hmade⟩ := h
    cases hrs
    obtain ⟨r, hr, hvalue⟩ := List.mem_map.mp hmem
    obtain ⟨r', -, hr'⟩ := exists_partner hmade.flip hr
    rw [← Record.toValue_injective hvalue]
    exact ⟨r', hr'⟩

/-- **A value that fits crosses, or there is a reason why not.** -/
theorem Link.crosses_or (hsuits : Transfer.Suits direction l.sourceKind l.targetKind l.transfer)
    {v : Value} (hv : v.fits S l.sourceKind = true) : (∃ w, l.Crosses S v w) ∨
      (∃ source target, l.transfer = .impossible source target) ∨ l.transfer.Rejects v ∨
      ∃ key inner, l.transfer.Enters v key inner ∧ ¬ ∃ made, Made S key inner made := by
  simp only [Crosses]
  generalize l.sourceKind = sourceKind at hsuits hv
  generalize l.targetKind = targetKind at hsuits
  generalize l.transfer = transfer at hsuits
  cases hsuits with
  | @scalar k k' c hc o o' =>
    rcases Value.fits_scalar.mp hv with hkind | ⟨-, rfl⟩
    · cases himage : c.image? v with
      | none =>
        have hrejects := (ScalarKind.between_of_conversion hc).rejects_of_image? hkind himage
        exact .inr (.inr (.inl (.scalar hrejects)))
      | some w => exact .inl ⟨w, .inr ⟨Value.isNull_of_scalarKind? hkind, himage⟩⟩
    · exact .inl ⟨_, .inl ⟨rfl, rfl⟩⟩
  | @scalarList k k' c hc =>
    obtain ⟨vs, rfl, hkinds⟩ := Value.fits_scalarList.mp hv
    rcases exists_partners_or (fun v w => c.image? v = some w) vs with
      ⟨ws, hws⟩ | ⟨v, hmem, hnone⟩
    · exact .inl ⟨.list ws, vs, ws, rfl, rfl, hws⟩
    · have himage : c.image? v = none := Option.eq_none_iff_forall_ne_some.mpr (not_exists.mp hnone)
      have hbetween := ScalarKind.between_of_conversion hc
      have hrejects := hbetween.rejects_of_image? (hkinds v hmem) himage
      exact .inr (.inr (.inl (.item hmem hrejects)))
  | nested t u o o' =>
    rcases Value.fits_nested.mp hv with ⟨-, rfl⟩ | ⟨r, rfl, -, -⟩
    · exact .inl ⟨.null, .inl ⟨rfl, rfl⟩⟩
    · by_cases hmade : ∃ r', Made S (.between t u direction) r r'
      · obtain ⟨r', hr'⟩ := hmade
        exact .inl ⟨_, .inr ⟨r, r', rfl, rfl, hr'⟩⟩
      · exact .inr (.inr (.inr ⟨_, r, .record _ r, hmade⟩))
  | nestedList t u =>
    obtain ⟨rs, rfl, -⟩ := Value.fits_nestedList.mp hv
    rcases exists_partners_or (Made S (.between t u direction)) rs with
      ⟨rs', hrs'⟩ | ⟨r, hr, hmade⟩
    · exact .inl ⟨_, rs, rs', rfl, rfl, hrs'⟩
    · exact .inr (.inr (.inr ⟨_, r, .item (List.mem_map_of_mem hr), hmade⟩))
  | impossible source target => exact .inr (.inl ⟨_, _, rfl⟩)

/-! ### Failing or not -/

theorem exists_made_iff {r : Record} : (∃ made, Made S key r made) ↔
    (Tier.naive.outcome S key r (.initial S key.target)).result = .ok () := by
  rw [show (∃ made, Made S key r made) ↔ ∃ made, Tier.naive.outcome S key r
    (.initial S key.target) = ⟨.ok (), made⟩ from Iff.rfl]
  rcases Tier.naive.outcome S key r (.initial S key.target) with ⟨result, target⟩
  simp

/-- Every value that a successful conversion has met has crossed. -/
theorem Tier.exists_crosses_of_ok {src dst : Record} (hsrc : Source S key src)
    (hdst : dst.type = key.target) (hok : (naive.outcome S key src dst).result = .ok ())
    (hplan : Plan.resolve S key = .ok plan) (hl : l ∈ plan.links) {v : Value}
    (hv : src.get? S l.sourceIndex = some v) : ∃ w, l.Crosses S v w := by
  obtain ⟨plan', hplan', hlinks⟩ := (outcome_ok_iff hsrc hdst).mp hok
  obtain rfl := Except.ok.inj (hplan.symm.trans hplan')
  obtain ⟨v', w, hv', hcrosses⟩ := hlinks l hl
  obtain rfl := Option.some.inj (hv.symm.trans hv')
  exact ⟨w, hcrosses⟩

/-- A reason to fail is one. -/
theorem Breaks.result_ne_ok {src dst : Record} (h : Breaks S key src) (hsrc : Source S key src)
    (hdst : dst.type = key.target) : (Tier.naive.outcome S key src dst).result ≠ .ok () := by
  intro hok
  cases h with
  | repeatedName h =>
    obtain ⟨plan, hplan, -⟩ := (Tier.outcome_ok_iff hsrc hdst).mp hok
    obtain ⟨cause, herror⟩ := Plan.resolve_eq_error_iff.mpr h
    rw [hplan] at herror
    cases herror
  | impossible hplan hl h =>
    obtain ⟨source, target, hj⟩ := Plan.exists_joins hplan hl
    obtain ⟨v, hv⟩ := hsrc.exists_get? hj
    obtain ⟨w, hcrosses⟩ := Tier.exists_crosses_of_ok hsrc hdst hok hplan hl hv
    exact hcrosses.ne_impossible h
  | rejected hplan hl hv h =>
    obtain ⟨w, hcrosses⟩ := Tier.exists_crosses_of_ok hsrc hdst hok hplan hl hv
    exact hcrosses.not_rejects h

/-- A conversion fails if something breaks on the way. By induction on the way there: what is inside
of what crosses can be made. -/
theorem Reached.result_ne_ok {key' : PlanKey} {src r dst : Record} (h : Reached S key src key' r)
    (hbreaks : Breaks S key' r) (hsrc : Source S key src) (hdst : dst.type = key.target) :
    (Tier.naive.outcome S key src dst).result ≠ .ok () := by
  induction h generalizing dst with
  | here => exact hbreaks.result_ne_ok hsrc hdst
  | inside hplan hl hv henter _ ih =>
    intro hok
    obtain ⟨w, hcrosses⟩ := Tier.exists_crosses_of_ok hsrc hdst hok hplan hl hv
    have hmade := exists_made_iff.mp (hcrosses.exists_made henter)
    exact ih hbreaks (hsrc.enter hplan hl hv henter) rfl hmade

/-- A conversion that fails has come to something that breaks. By induction on the nesting of the
source: what does not cross has a reason, or holds a record that cannot be made. -/
theorem Tier.exists_breaks {src dst : Record} (hsrc : Source S key src)
    (hdst : dst.type = key.target) (h : (naive.outcome S key src dst).result ≠ .ok ()) :
    ∃ key' r, Reached S key src key' r ∧ Breaks S key' r := by
  induction src using Record.nestedInduction generalizing key dst with
  | step r ih =>
    rw [ne_eq, outcome_ok_iff hsrc hdst] at h
    cases hplan : Plan.resolve S key with
    | error cause =>
      exact ⟨key, r, .here key r, .repeatedName (Plan.resolve_eq_error_iff.mp ⟨cause, hplan⟩)⟩
    | ok plan =>
      have hstuck : ¬ ∀ l ∈ plan.links, ∃ v w, r.get? S l.sourceIndex = some v ∧
          l.Crosses S v w := fun hall => h ⟨plan, hplan, hall⟩
      simp only [not_forall] at hstuck
      obtain ⟨l, hl, hstuck⟩ := hstuck
      obtain ⟨source, target, hj⟩ := Plan.exists_joins hplan hl
      obtain ⟨v, hv⟩ := hsrc.exists_get? hj
      rcases Link.crosses_or hj.suits (hj.fits_of_get? hsrc.type_eq hsrc.fits hv) with
        ⟨w, hw⟩ | ⟨source, target, himpossible⟩ | hrejects | ⟨key', inner, henter, hmade⟩
      · exact absurd ⟨v, w, hv, hw⟩ hstuck
      · exact ⟨key, r, .here key r, .impossible hplan hl himpossible⟩
      · exact ⟨key, r, .here key r, .rejected hplan hl hv hrejects⟩
      · rw [exists_made_iff] at hmade
        obtain ⟨key'', r'', hreached, hbreaks⟩ := ih v (Record.mem_cells_of_get? hv) inner
          henter.holds (hsrc.enter hplan hl hv henter) rfl hmade
        exact ⟨key'', r'', .inside hplan hl hv henter hreached, hbreaks⟩

/-- **A conversion fails exactly when something breaks that it comes to.** -/
theorem Tier.outcome_fails_iff {src dst : Record} (hsrc : Source S key src)
    (hdst : dst.type = key.target) :
    (naive.outcome S key src dst).result ≠ .ok () ↔
      ∃ key' r, Reached S key src key' r ∧ Breaks S key' r := by
  constructor
  · exact exists_breaks hsrc hdst
  · rintro ⟨key', r, hreached, hbreaks⟩
    exact hreached.result_ne_ok hbreaks hsrc hdst

/-! ### What is returned -/

/-- The errors that conversions between ordinary types return: there is no plan, there is no
conversion between two kinds, or a check has rejected a scalar. -/
inductive ConvertError.Regular : ConvertError → Prop
  | noPlan (cause : RepeatedField) : Regular (.noPlan cause)
  | noConversion (path : FieldPath) (source target source' target' : FieldKind) :
    Regular (.mismatch path source target (.noConversion source' target'))
  | narrow (path : FieldPath) (source target : FieldKind) (k l : ScalarKind) :
    Regular (.mismatch path source target (.lossy (.narrow k l)))
  | readTime (path : FieldPath) (source target : FieldKind) :
    Regular (.mismatch path source target (.lossy (.timeCodec .timestamp .datetime)))

theorem ConvertError.Regular.within {e : ConvertError} (h : e.Regular) (step : PathStep) :
    (e.within step).Regular := by
  cases h <;> constructor

theorem ScalarConversion.Rejects.regular {c : ScalarConversion} {v : Value} (h : c.Rejects v)
    (path : FieldPath) (source target : FieldKind) :
    (ConvertError.mismatch path source target (.lossy c)).Regular := by
  cases h <;> constructor

namespace Tier

theorem exists_of_imageItems_eq_error {rs : List Record} {index : Nat} {e : ConvertError}
    (h : naive.imageItems S l key index (rs.map (·.toValue)) = .error e) :
    ∃ r ∈ rs, ∃ e' place, (naive.outcome S key r (.initial S key.target)).result = .error e' ∧
      e = e'.within ⟨l.name, place⟩ := by
  induction rs generalizing index with
  | nil => cases h
  | cons r rest ih =>
    rw [List.map_cons, imageItems_cons] at h
    rcases hr : naive.outcome S key r (.initial S key.target) with ⟨result, made⟩
    rw [hr] at h
    cases result with
    | error e' =>
      cases h
      exact ⟨r, List.mem_cons_self, e', some index, by rw [hr], rfl⟩
    | ok =>
      obtain ⟨r', hr', herror⟩ := ih (map_eq_error_iff.mp h)
      exact ⟨r', List.mem_cons_of_mem _ hr', herror⟩

/-- A value that fits fails to become something with a regular error, if the records in it do. -/
theorem regular_of_image_eq_error
    (hsuits : Transfer.Suits direction l.sourceKind l.targetKind l.transfer) {v : Value}
    (hv : v.fits S l.sourceKind = true)
    (hinner : ∀ key inner e, l.transfer.Enters v key inner →
      (naive.outcome S key inner (.initial S key.target)).result = .error e → e.Regular)
    {e : ConvertError} (h : naive.image S v (.byName l) = .error e) : e.Regular := by
  generalize hsource : l.sourceKind = sourceKind at hsuits hv
  generalize htarget : l.targetKind = targetKind at hsuits
  generalize htransfer : l.transfer = transfer at hsuits hinner
  cases hsuits with
  | @scalar k k' c hc o o' =>
    rw [image_scalar .byName htransfer, Link.carryScalar] at h
    split at h
    · cases h
    · next hnull =>
      split at h
      · cases h
      · next himage =>
        cases h
        rcases Value.fits_scalar.mp hv with hkind | ⟨-, rfl⟩
        · exact ((ScalarKind.between_of_conversion hc).rejects_of_image? hkind himage).regular _ _ _
        · exact absurd rfl hnull
  | @scalarList k k' c hc =>
    obtain ⟨vs, rfl, hkinds⟩ := Value.fits_scalarList.mp hv
    rw [image_scalarList .byName htransfer, map_eq_error_iff] at h
    obtain ⟨⟨v, hmem, himage⟩, place, rfl⟩ := Link.exists_of_carryScalars_eq_error h
    have hrejects := (ScalarKind.between_of_conversion hc).rejects_of_image? (hkinds v hmem) himage
    exact hrejects.regular _ _ _
  | nested t u o o' =>
    rcases Value.fits_nested.mp hv with ⟨-, rfl⟩ | ⟨r, rfl, -, -⟩
    · rw [image_noRecord .byName htransfer] at h
      cases h
    · rw [image_record S naive r .byName, htransfer] at h
      dsimp only at h
      split at h
      · cases h
      · next e' made hr =>
        cases h
        exact (hinner _ r e' (.record _ r) (by rw [hr])).within _
  | nestedList t u =>
    obtain ⟨rs, rfl, -⟩ := Value.fits_nestedList.mp hv
    rw [image_list S naive _ .byName, htransfer] at h
    dsimp only at h
    rw [map_eq_error_iff] at h
    obtain ⟨r, hr, e', place, herror, rfl⟩ := exists_of_imageItems_eq_error h
    exact (hinner _ r e' (.item (List.mem_map_of_mem hr)) herror).within _
  | impossible source target =>
    rw [image_impossible .byName htransfer] at h
    cases h
    exact .noConversion _ _ _ _ _

/-- **Nothing but a regular error comes out.** -/
theorem regular_of_outcome {src dst : Record} (hsrc : Source S key src)
    (hdst : dst.type = key.target) {e : ConvertError}
    (h : (naive.outcome S key src dst).result = .error e) : e.Regular := by
  induction src using Record.nestedInduction generalizing key dst e with
  | step r ih =>
    rw [outcome_eq, program] at h
    cases hplan : Plan.resolve S key with
    | error cause =>
      rw [hplan] at h
      cases h
      exact .noPlan cause
    | ok plan =>
      rw [hplan] at h
      dsimp only at h
      have hmem := Outcome.mem_of_result_eq_error h
      rw [List.map_map, List.mem_map, hdst] at hmem
      obtain ⟨l, hl, heffect⟩ := hmem
      obtain ⟨source, target, hj⟩ := Plan.exists_joins hplan hl
      obtain ⟨v, hv⟩ := hsrc.exists_get? hj
      have hfits := hj.fits_of_get? hsrc.type_eq hsrc.fits hv
      rw [Function.comp_apply, effect_copier hplan hl naive hsrc.type_eq, hv] at heffect
      dsimp only [copier] at heffect
      cases himage : naive.image S v (.byName l) with
      | error e' =>
        rw [himage] at heffect
        cases heffect
        refine regular_of_image_eq_error hj.suits hfits ?_ himage
        intro key' inner e' henter herror
        exact ih v (Record.mem_cells_of_get? hv) inner henter.holds
          (hsrc.enter hplan hl hv henter) rfl herror
      | ok w =>
        obtain ⟨cell, hcell⟩ :=
          hsrc.exists_admit? hplan hl hv ((image_eq_ok_iff hj.suits hfits).mp himage)
        have hplacement := Schema.placement_of_plain hsrc.target_ordinary.plain hj.target_mem w
        rw [← hj.targetIndex_eq, ← hj.targetKind_eq, hcell] at hplacement
        rw [himage] at heffect
        dsimp only at heffect
        rw [hplacement] at heffect
        cases heffect

/-- **The exact failure condition.** In any tier, and whatever was asked for before: a conversion
between records of ordinary types fails if and only if something breaks that it comes to, and then
the error is a regular one. In particular no field is found missing, no write is refused, no value
has an unexpected shape, and what has no counterpart had none under a narrowing or as an instant. -/
theorem convert_fails_iff (S : Schema) (tier : Tier) (src dst : Record) (direction : Direction)
    (history : List Store.Request) (hsrc : S.Ordinary src.type) (hdst : S.Ordinary dst.type)
    (hfits : src.fits S = true) :
    let answer := (tier.convert S (some src) (some dst) direction (Store.after S history)).1.1
    ((∃ e, answer = .error e) ↔ ∃ key r,
      Reached S (.between src.type dst.type direction) src key r ∧ Breaks S key r) ∧
      ∀ e, answer = .error e → e.Regular := by
  intro answer
  have hsource : Source S (.between src.type dst.type direction) src :=
    ⟨by simp, hfits, by simpa using hsrc, by simpa using hdst⟩
  have hdst' : dst.type = (PlanKey.between src.type dst.type direction).target := by simp
  have hanswer : answer =
      (naive.outcome S (.between src.type dst.type direction) src dst).result := by
    show (tier.convert S (some src) (some dst) direction (Store.after S history)).1.1 = _
    rw [convert_after, agreesOn_of_fits tier hfits _ dst (by simp) hdst']
  rw [hanswer]
  constructor
  · rw [← outcome_fails_iff hsource hdst']
    cases (naive.outcome S (.between src.type dst.type direction) src dst).result <;> simp
  · exact fun e => regular_of_outcome hsource hdst'

/-- A parcel with a time that is no instant is not converted. The reason is found in the parcel
itself, before anything is run. -/
theorem convert_oddParcel_fails :
    (Parcels.schema.Ordinary Parcels.oddParcel.type ∧ Parcels.schema.Ordinary ⟨2⟩ ∧
      Parcels.oddParcel.fits Parcels.schema = true) ∧
      ∃ e, (compiled.convert Parcels.schema (some Parcels.oddParcel)
        (some (.initial Parcels.schema ⟨2⟩)) .toModel (Store.after Parcels.schema [])).1.1 =
          .error e ∧ e.Regular := by
  have hfits : Parcels.oddParcel.fits Parcels.schema = true := by decide
  obtain ⟨hiff, hregular⟩ := convert_fails_iff Parcels.schema compiled Parcels.oddParcel
    (.initial Parcels.schema ⟨2⟩) .toModel [] (Parcels.ordinary _) (Parcels.ordinary _) hfits
  have hplan : Plan.resolve Parcels.schema (.between ⟨0⟩ ⟨2⟩ .toModel) =
      .ok (.ofDecls (.between ⟨0⟩ ⟨2⟩ .toModel) (Parcels.schema.decl ⟨0⟩)
        (Parcels.schema.decl ⟨2⟩)) := rfl
  have hlink : ⟨"sent", 2, 4, .scalar .timestamp false, .scalar .datetime true,
      .scalar (.timeCodec .timestamp .datetime) .wrap⟩ ∈
        (Plan.ofDecls (.between ⟨0⟩ ⟨2⟩ .toModel) (Parcels.schema.decl ⟨0⟩)
          (Parcels.schema.decl ⟨2⟩)).links := by decide
  obtain ⟨e, he⟩ := hiff.mpr ⟨_, _, .here _ _, .rejected hplan hlink rfl (.scalar (.readTime rfl))⟩
  exact ⟨⟨Parcels.ordinary _, Parcels.ordinary _, hfits⟩, e, he, hregular e he⟩

end Tier

end Crosswalk
