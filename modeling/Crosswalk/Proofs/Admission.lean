import Crosswalk.Proofs.Crossing
import Crosswalk.Proofs.Reaching

/-!
# What crosses is taken

Plans look at kinds and fields look at values, and nothing in the program compares the two. This
module does. Between ordinary types, whatever a link makes of a value that fits is a value that the
target field takes (`Link.Crosses.exists_admit?`), so no write is ever refused; and what the field
then holds fits it. A conversion therefore leaves a fitting destination fitting, whether it succeeds
or not (`Tier.outcome_fits`).

The two statements need each other by way of nested records. A field takes the record that was made
for it because that record is of the right type, and the field fits afterwards because the record
does.
-/

namespace Crosswalk

variable {S : Schema} {key : PlanKey} {plan : Plan} {l : Link} {direction : Direction}

theorem Made.type_eq {r r' : Record} (h : Made S key r r') : r'.type = key.target := by
  have htype := Tier.type_outcome S .naive key r (.initial S key.target)
  rw [show Tier.naive.outcome S key r (.initial S key.target) = ⟨.ok (), r'⟩ from h] at htype
  exact htype

theorem Made.unique {r m m' : Record} (h : Made S key r m) (h' : Made S key r m') : m = m' := by
  rw [Made, h] at h'
  cases h'
  rfl

theorem types_of_made {rs rs' : List Record} (h : List.Forall₂ (Made S key) rs rs') :
    ∀ r' ∈ rs', r'.type = key.target := by
  intro r' hr'
  obtain ⟨r, -, hmade⟩ := exists_partner h hr'
  exact hmade.type_eq

/-! ### One field -/

theorem FieldKind.admit?_scalar {k : ScalarKind} {optional : Bool} {w : Value}
    (h : w.scalarKind? = some k ∨ (optional = true ∧ w = .null)) :
    (FieldKind.scalar k optional).admit? S w = some w := by
  rw [admit?, if_pos]
  rcases h with h | ⟨rfl, rfl⟩
  · exact .inl h
  · exact .inr ⟨rfl, rfl⟩

theorem FieldKind.admit?_list {k : ScalarKind} {ws : List Value}
    (h : ∀ w ∈ ws, w.scalarKind? = some k) :
    (FieldKind.scalarList k).admit? S (.list ws) = some (.list ws) := by
  have hall : ws.all (·.scalarKind? = some k) = true := by simpa using h
  rw [admit?]
  exact if_pos hall

/-- A value counts as a record of the type when it is one. -/
theorem Value.isRecordOf_iff {t : TypeId} {v : Value} :
    v.isRecordOf t = true ↔ ∃ r : Record, r.toValue = v ∧ r.type = t := by
  constructor
  · intro h
    cases v with
    | record u cells => exact ⟨⟨u, cells⟩, rfl, of_decide_eq_true h⟩
    | _ => cases h
  · rintro ⟨r, rfl, rfl⟩
    exact decide_eq_true rfl

theorem Value.all_isRecordOf_iff {t : TypeId} {items : List Value} :
    items.all (·.isRecordOf t) = true ↔
      ∃ rs : List Record, rs.map (·.toValue) = items ∧ ∀ r ∈ rs, r.type = t := by
  simp only [List.all_eq_true, isRecordOf_iff]
  constructor
  · intro h
    induction items with
    | nil => exact ⟨[], rfl, List.forall_mem_nil _⟩
    | cons v items ih =>
      obtain ⟨⟨r, rfl, hr⟩, hitems⟩ := List.forall_mem_cons.mp h
      obtain ⟨rs, rfl, hrs⟩ := ih hitems
      exact ⟨r :: rs, rfl, List.forall_mem_cons.mpr ⟨hr, hrs⟩⟩
  · rintro ⟨rs, rfl, hrs⟩ v hv
    obtain ⟨r, hr, rfl⟩ := List.mem_map.mp hv
    exact ⟨r, rfl, hrs r hr⟩

theorem FieldKind.admit?_record {t : TypeId} {r : Record} (h : r.type = t) (optional : Bool) :
    (FieldKind.nested t optional).admit? S r.toValue = some r.toValue := by
  have hrecord : r.toValue.isRecordOf t = true := Value.isRecordOf_iff.mpr ⟨r, rfl, h⟩
  rw [Record.toValue] at hrecord ⊢
  rw [admit?.eq_def]
  exact if_pos hrecord

theorem FieldKind.admit?_records {t : TypeId} {rs : List Record} (h : ∀ r ∈ rs, r.type = t) :
    (FieldKind.nestedList t).admit? S (.list (rs.map (·.toValue))) =
      some (.list (rs.map (·.toValue))) := by
  have hall : (rs.map (·.toValue)).all (·.isRecordOf t) = true :=
    Value.all_isRecordOf_iff.mpr ⟨rs, rfl, h⟩
  rw [admit?]
  exact if_pos hall

/-- What crosses between scalar fields is the image of a scalar, or stands for one that is absent
from an optional field. -/
theorem Link.Crosses.scalar_cases {k : ScalarKind} {o : Bool} {c : ScalarConversion}
    {presence : Presence} (htransfer : l.transfer = .scalar c presence) {v w : Value}
    (h : l.Crosses S v w) (hv : v.fits S (.scalar k o) = true) :
    (o = true ∧ v = .null ∧ w = l.absentScalar presence) ∨
      (v.scalarKind? = some k ∧ c.image? v = some w) := by
  rw [Crosses, htransfer] at h
  rcases h with ⟨rfl, rfl⟩ | ⟨hpresent, hw⟩
  · obtain hkind | ⟨ho, -⟩ := Value.fits_scalar.mp hv
    · cases hkind
    · exact .inl ⟨ho, rfl, rfl⟩
  · obtain hkind | ⟨-, rfl⟩ := Value.fits_scalar.mp hv
    · exact .inr ⟨hkind, hw⟩
    · cases hpresent

/-- What crosses between lists of scalars is the list of their images. -/
theorem Link.Crosses.exists_scalars {k : ScalarKind} {c : ScalarConversion}
    (htransfer : l.transfer = .scalarList c) {v w : Value} (h : l.Crosses S v w)
    (hv : v.fits S (.scalarList k) = true) :
    ∃ vs ws, v = .list vs ∧ w = .list ws ∧ (∀ v ∈ vs, v.scalarKind? = some k) ∧
      List.Forall₂ (fun v w => c.image? v = some w) vs ws := by
  rw [Crosses, htransfer] at h
  obtain ⟨vs, ws, rfl, rfl, hws⟩ := h
  obtain ⟨items, hitems, hkinds⟩ := Value.fits_scalarList.mp hv
  cases hitems
  exact ⟨vs, ws, rfl, rfl, hkinds, hws⟩

/-- What crosses to a scalar field is of its kind, or absent from a field that may be. -/
theorem Link.Crosses.scalarKind? {k k' : ScalarKind} {c : ScalarConversion} {o o' : Bool}
    (hc : ScalarConversion.Between k k' c) (htarget : l.targetKind = .scalar k' o')
    (htransfer : l.transfer = .scalar c (.between o o')) {v w : Value} (h : l.Crosses S v w)
    (hv : v.fits S (.scalar k o) = true) : w.scalarKind? = some k' ∨ (o' = true ∧ w = .null) := by
  rcases h.scalar_cases htransfer hv with ⟨rfl, -, rfl⟩ | ⟨hkind, hw⟩
  · cases o' with
    | true => exact .inr ⟨rfl, absentScalar_same⟩
    | false =>
      refine .inl ?_
      rw [Presence.between, absentScalar_unwrap htarget, Value.scalarKind?_zero]
  · exact .inl (hc.scalarKind?_image? hkind hw)

/-- **Whatever crosses is taken**, and the field fits then. -/
theorem Link.Crosses.exists_admit?
    (hsuits : Transfer.Suits direction l.sourceKind l.targetKind l.transfer) {v w : Value}
    (hv : v.fits S l.sourceKind = true) (h : l.Crosses S v w)
    (hinitial : ∀ {t}, l.targetKind.nestedType? = some t → S.Ordinary t)
    (hmade : ∀ key r r', l.transfer.Enters v key r → Made S key r r' → r'.fits S = true) :
    ∃ cell, l.targetKind.admit? S w = some cell ∧ cell.fits S l.targetKind = true := by
  generalize hsource : l.sourceKind = sourceKind at hsuits hv
  generalize htarget : l.targetKind = targetKind at hsuits hinitial
  generalize htransfer : l.transfer = transfer at hsuits hmade
  cases hsuits with
  | scalar hc o o' =>
    have hw := h.scalarKind? (ScalarKind.between_of_conversion hc) htarget htransfer hv
    exact ⟨w, FieldKind.admit?_scalar hw, Value.fits_scalar.mpr hw⟩
  | @scalarList k k' c hc =>
    obtain ⟨vs, ws, rfl, rfl, hkinds, hws⟩ := h.exists_scalars htransfer hv
    have hkinds' := (ScalarKind.between_of_conversion hc).scalarKind?_images hkinds hws
    exact ⟨_, FieldKind.admit?_list hkinds', Value.fits_scalarList.mpr ⟨ws, rfl, hkinds'⟩⟩
  | nested t u o o' =>
    rw [Crosses, htransfer] at h
    rcases h with ⟨rfl, rfl⟩ | ⟨r, r', rfl, rfl, hr⟩
    · refine ⟨_, rfl, Value.fits_nested.mpr ?_⟩
      cases o' with
      | true => exact .inl ⟨rfl, rfl⟩
      | false => exact .inr ⟨.initial S u, rfl, rfl, Record.initial_fits (hinitial rfl)⟩
    · have htype : r'.type = u := by rw [hr.type_eq, PlanKey.target_between]
      have hfits : r'.fits S = true := hmade _ r r' (.record _ r) hr
      exact ⟨_, FieldKind.admit?_record htype o',
        Value.fits_nested.mpr (.inr ⟨r', rfl, htype, hfits⟩)⟩
  | nestedList t u =>
    rw [Crosses, htransfer] at h
    obtain ⟨rs, rs', rfl, rfl, hrs⟩ := h
    have htypes := types_of_made hrs
    rw [PlanKey.target_between] at htypes
    refine ⟨_, FieldKind.admit?_records htypes,
      Value.fits_nestedList.mpr ⟨rs', rfl, fun r' hr' => ⟨htypes r' hr', ?_⟩⟩⟩
    obtain ⟨r, hr, hrr'⟩ := exists_partner hrs hr'
    exact hmade _ r r' (.item (List.mem_map_of_mem hr)) hrr'
  | impossible source target =>
    rw [Crosses, htransfer] at h
    exact h.elim

/-! ### One link -/

/-- **When a link succeeds**, and what it places then. -/
theorem Tier.effect_eq_ok_iff (h : Plan.resolve S key = .ok plan) (hl : l ∈ plan.links)
    {src : Record} (hsrc : Source S key src) {p : Placement} :
    naive.effect S src key.target (naive.copier l) = .ok p ↔
      ∃ v w cell, src.get? S l.sourceIndex = some v ∧ l.Crosses S v w ∧
        l.targetKind.admit? S w = some cell ∧ p = .put l.targetIndex cell := by
  obtain ⟨source, target, hj⟩ := Plan.exists_joins h hl
  have hplacement {w : Value} : S.placement key.target l.targetIndex w = .ok p ↔
      ∃ cell, l.targetKind.admit? S w = some cell ∧ p = .put l.targetIndex cell := by
    rw [hj.targetIndex_eq, hj.targetKind_eq]
    exact Schema.placement_eq_ok_iff hsrc.target_ordinary.plain hj.target_mem w
  have himage {v w : Value} (hv : src.get? S l.sourceIndex = some v) :
      naive.image S v (.byName l) = .ok w ↔ l.Crosses S v w :=
    image_eq_ok_iff hj.suits (hj.fits_of_get? hsrc.type_eq hsrc.fits hv)
  rw [effect_copier_eq_ok_iff h hl naive hsrc.type_eq]
  constructor
  · rintro ⟨v, hv, w, hw, hplace⟩
    obtain ⟨cell, hcell, hp⟩ := hplacement.mp hplace
    exact ⟨v, w, cell, hv, (himage hv).mp hw, hcell, hp⟩
  · rintro ⟨v, w, cell, hv, hcrosses, hcell, hp⟩
    exact ⟨v, hv, w, (himage hv).mpr hcrosses, hplacement.mpr ⟨cell, hcell, hp⟩⟩

/-! ### Whole records -/

/-- Whatever stood in the place, what stands there afterwards fits the field, in records of the
type. -/
def Placement.Fits (S : Schema) (t : TypeId) (p : Placement) : Prop :=
  ∃ f, (S.decl t).fields[p.index]? = some f ∧ ∀ held, (p.change held).fits S f.kind = true

theorem Record.fits_place {r : Record} {p : Placement} (hr : r.fits S = true)
    (hp : p.Fits S r.type) : (r.place p).fits S = true := by
  obtain ⟨hwhole, hcells⟩ := fits_iff.mp hr
  obtain ⟨f, hf, hfits⟩ := hp
  refine fits_iff.mpr ⟨(List.length_modify ..).trans hwhole, fun index g v hg hv hread => ?_⟩
  by_cases hindex : p.index = index
  · subst hindex
    rw [show (r.place p).decl S = S.decl r.type from rfl, hf] at hg
    cases hg
    rw [place, List.getElem?_modify_eq] at hv
    obtain ⟨held, -, rfl⟩ := Option.map_eq_some_iff.mp hv
    exact hfits held
  · rw [place, List.getElem?_modify_ne _ _ hindex] at hv
    exact hcells index g v hg hv hread

theorem Outcome.ofEffects_fits {effects : List Effect} {dst : Record} (hdst : dst.fits S = true)
    (h : ∀ p, .ok p ∈ effects → p.Fits S dst.type) :
    (ofEffects effects dst).target.fits S = true := by
  induction effects generalizing dst with
  | nil => exact hdst
  | cons effect rest ih =>
    cases effect with
    | error e => exact hdst
    | ok p =>
      refine ih (Record.fits_place hdst (h p List.mem_cons_self)) fun q hq => ?_
      exact h q (List.mem_cons_of_mem _ hq)

/-- **A conversion leaves a fitting destination fitting**, whatever comes of it. By induction on the
nesting of the source. -/
theorem Tier.outcome_fits {src dst : Record} (hsrc : Source S key src)
    (hdst : dst.type = key.target) (hfits : dst.fits S = true) :
    (naive.outcome S key src dst).target.fits S = true := by
  induction src using Record.nestedInduction generalizing key dst with
  | step r ih =>
    rw [outcome_eq, program]
    cases hplan : Plan.resolve S key with
    | error cause => exact hfits
    | ok plan =>
      dsimp only
      refine Outcome.ofEffects_fits hfits fun p hp => ?_
      simp only [List.map_map, List.mem_map, Function.comp_apply] at hp
      obtain ⟨l, hl, hp⟩ := hp
      rw [hdst, effect_eq_ok_iff hplan hl hsrc] at hp
      obtain ⟨v, w, cell, hv, hcrosses, hcell, rfl⟩ := hp
      have hmade : ∀ key' inner inner', l.transfer.Enters v key' inner → Made S key' inner inner' →
          inner'.fits S = true := by
        intro key' inner inner' henter hmade
        have hinner := hsrc.enter hplan hl hv henter
        have hfits : (naive.outcome S key' inner (.initial S key'.target)).target.fits S = true :=
          ih v (Record.mem_cells_of_get? hv) inner henter.holds hinner rfl
            (Record.initial_fits hinner.target_ordinary)
        rwa [hmade] at hfits
      obtain ⟨source, target, hj⟩ := Plan.exists_joins hplan hl
      obtain ⟨cell', hcell', hcellFits⟩ := hcrosses.exists_admit? hj.suits
        (hj.fits_of_get? hsrc.type_eq hsrc.fits hv) (hj.ordinary_target hsrc.target_ordinary) hmade
      rw [hcell, Option.some.injEq] at hcell'
      rw [← hcell', hj.targetKind_eq] at hcellFits
      refine ⟨target.toFieldDecl, ?_, fun _ => hcellFits⟩
      rw [hdst, hj.targetIndex_eq]
      exact (TypeDecl.mem_columns_iff _).mp hj.target_mem

theorem Made.fits {r r' : Record} (h : Made S key r r') (hr : Source S key r) :
    r'.fits S = true := by
  have hmade : (Tier.naive.outcome S key r (.initial S key.target)).target.fits S = true :=
    Tier.outcome_fits hr rfl (Record.initial_fits hr.target_ordinary)
  rwa [h] at hmade

/-- What crosses from a source is taken by the target field. -/
theorem Source.exists_admit? {src : Record} (hsrc : Source S key src)
    (h : Plan.resolve S key = .ok plan) (hl : l ∈ plan.links) {v w : Value}
    (hv : src.get? S l.sourceIndex = some v) (hcrosses : l.Crosses S v w) :
    ∃ cell, l.targetKind.admit? S w = some cell := by
  obtain ⟨source, target, hj⟩ := Plan.exists_joins h hl
  obtain ⟨cell, hcell, -⟩ := hcrosses.exists_admit? hj.suits
    (hj.fits_of_get? hsrc.type_eq hsrc.fits hv) (hj.ordinary_target hsrc.target_ordinary)
    fun _ _ _ henter hmade => hmade.fits (hsrc.enter h hl hv henter)
  exact ⟨cell, hcell⟩

/-- **When a conversion succeeds.** There is a plan, and every link finds a value that crosses. -/
theorem Tier.outcome_ok_iff {src dst : Record} (hsrc : Source S key src)
    (hdst : dst.type = key.target) :
    (naive.outcome S key src dst).result = .ok () ↔ ∃ plan, Plan.resolve S key = .ok plan ∧
      ∀ l ∈ plan.links, ∃ v w, src.get? S l.sourceIndex = some v ∧ l.Crosses S v w := by
  rw [outcome_eq, program]
  cases hplan : Plan.resolve S key with
  | error cause => simp
  | ok plan =>
    dsimp only
    rw [Outcome.result_ofEffects_eq_ok_iff, List.map_map, List.forall_mem_map, hdst]
    have hlink : ∀ l ∈ plan.links, (∃ p, naive.effect S src key.target (naive.copier l) = .ok p) ↔
        ∃ v w, src.get? S l.sourceIndex = some v ∧ l.Crosses S v w := by
      intro l hl
      constructor
      · rintro ⟨p, hp⟩
        rw [effect_eq_ok_iff hplan hl hsrc] at hp
        obtain ⟨v, w, cell, hv, hcrosses, -⟩ := hp
        exact ⟨v, w, hv, hcrosses⟩
      · rintro ⟨v, w, hv, hcrosses⟩
        obtain ⟨cell, hcell⟩ := hsrc.exists_admit? hplan hl hv hcrosses
        exact ⟨_, (effect_eq_ok_iff hplan hl hsrc).mpr ⟨v, w, cell, hv, hcrosses, hcell, rfl⟩⟩
    simp only [Function.comp_apply, Except.ok.injEq, exists_eq_left']
    exact forall₂_congr hlink

/-- The same for a record that is to be made. -/
theorem Source.exists_made_iff {src : Record} (hsrc : Source S key src) :
    (∃ made, Made S key src made) ↔ ∃ plan, Plan.resolve S key = .ok plan ∧
      ∀ l ∈ plan.links, ∃ v w, src.get? S l.sourceIndex = some v ∧ l.Crosses S v w := by
  have hdst : (Record.initial S key.target).type = key.target := rfl
  rw [← Tier.outcome_ok_iff hsrc hdst]
  constructor
  · rintro ⟨made, hmade⟩
    exact congrArg Outcome.result hmade
  · intro hok
    exact ⟨_, by rw [Made, ← hok]⟩

end Crosswalk
