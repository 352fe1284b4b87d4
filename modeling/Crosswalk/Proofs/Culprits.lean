import Crosswalk.Proofs.FailureCondition
import Crosswalk.Proofs.Places

/-!
# Which place a failure is about

A conversion that fails with a mismatch reports a path and two kinds. The path was put together on
the way up, one step for each record that the failure passed through. `Tier.convert_reports` says
what it comes to. Of the places of the conversion, in the order in which it goes through them, the
path is the route of the first that does not convert, and the kinds are those of the two fields that
are linked there.

The work is in one equation, `Tier.findSome?_places`: the first failure along the places is the
failure that the conversion returns. Everything that stops a conversion has its counterpart there,
each early exit in the search for the first place that fails, and each step that is put in front of
a path in a route that is one step longer (`ConvertError.under_within`).
-/

namespace Crosswalk

variable {S : Schema} {key : PlanKey} {plan : Plan} {l : Link} {direction : Direction}

/-! ### Failures along the places -/

/-- The complaint about a scalar without a counterpart. -/
def ScalarConversion.complaint? (c : ScalarConversion) (v : Value) : Option MismatchReason :=
  match c.image? v with
  | some _ => none
  | none => some (.lossy c)

/-- Why a value that is met on its own does not cross the link, if it does not. An absent scalar
always crosses, and so does an absent record. -/
def Link.complaint? (l : Link) (v : Value) : Option MismatchReason :=
  match l.transfer with
  | .scalar c _ => if v.isNull then none else c.complaint? v
  | .scalarList c => c.complaint? v
  | .nested _ | .nestedList _ => none
  | .impossible source target => some (.noConversion source target)

/-- The failure at a place, reported under its route. Where a conversion begins there is one if
there is no plan. -/
def Place.error? (S : Schema) : Place → Option ConvertError
  | entry _ key =>
    match Plan.resolve S key with
    | .ok _ => none
    | .error cause => some (.noPlan cause)
  | value route _ l v => (l.complaint? v).map (.mismatch route l.sourceKind l.targetKind)

/-- Nothing fails at the place itself. -/
def Place.Converts (S : Schema) (p : Place) : Prop := p.error? S = none

namespace ConvertError

/-- The failure that was returned, if it was one. -/
def returned? {α : Type} : Except ConvertError α → Option ConvertError
  | .ok _ => none
  | .error e => some e

theorem returned?_map {α β : Type} (answer : Except ConvertError α) (f : α → β) :
    returned? (answer.map f) = returned? answer := by
  cases answer <;> rfl

/-- The failure as seen from the record where the route begins. -/
def under (route : FieldPath) : ConvertError → ConvertError
  | mismatch path source target reason => mismatch (route ++ path) source target reason
  | e => e

@[simp] theorem under_nil (e : ConvertError) : e.under [] = e := by
  cases e <;> rfl

/-- **A step in front of the path is a step at the end of the route.** -/
theorem under_within (route : FieldPath) (step : PathStep) (e : ConvertError) :
    (e.within step).under route = e.under (route ++ [step]) := by
  cases e <;> simp [within, under]

end ConvertError

open ConvertError (returned? returned?_map under_within)

theorem Outcome.returned?_ofEffects (effects : List Effect) (dst : Record) :
    returned? (ofEffects effects dst).result = effects.findSome? returned? := by
  induction effects generalizing dst with
  | nil => rfl
  | cons effect rest ih =>
    cases effect with
    | error e => rfl
    | ok p => exact ih (dst.place p)

/-- The first failure link by link is the first failure along the places of all links. -/
theorem Place.findSome?_flatMap {links : List Link} {places : Link → List Place}
    {failure? : Link → Option ConvertError}
    (h : ∀ l ∈ links, (places l).findSome? (Place.error? S) = failure? l) :
    (links.flatMap places).findSome? (Place.error? S) = links.findSome? failure? := by
  induction links with
  | nil => rfl
  | cons l rest ih =>
    rw [List.flatMap_cons, List.findSome?_append, List.findSome?_cons, h l List.mem_cons_self,
      ih fun m hm => h m (List.mem_cons_of_mem _ hm)]
    cases failure? l <;> rfl

/-! ### What a value reports -/

/-- Along the places of the record the first failure is the one that its conversion returns. -/
def Record.Reports (S : Schema) (r : Record) (key : PlanKey) : Prop :=
  ∀ (dst : Record) (route : FieldPath), dst.type = key.target →
    (r.places S key route).findSome? (Place.error? S) =
      (returned? (Tier.naive.outcome S key r dst).result).map (·.under route)

namespace Tier

theorem findSome?_ofScalars {c : ScalarConversion} (h : l.transfer = .scalarList c)
    (route : FieldPath) (index : Nat) (items : List Value) :
    (Place.ofScalars route key l index items).findSome? (Place.error? S) =
      (returned? (l.carryScalars c index items)).map (·.under route) := by
  induction items generalizing index with
  | nil => rfl
  | cons v vs ih =>
    rw [Place.ofScalars, Link.carryScalars, List.findSome?_cons, Place.error?, Link.complaint?, h]
    dsimp only
    rw [ScalarConversion.complaint?]
    cases c.image? v with
    | none => rfl
    | some w =>
      dsimp only
      rw [returned?_map, ← ih]
      rfl

theorem findSome?_inItems {rs : List Record} (h : ∀ r ∈ rs, r.Reports S key) (route : FieldPath)
    (index : Nat) :
    (Place.inItems S l key route index (rs.map (·.toValue))).findSome? (Place.error? S) =
      (returned? (naive.imageItems S l key index (rs.map (·.toValue)))).map (·.under route) := by
  induction rs generalizing index with
  | nil => rfl
  | cons r rest ih =>
    have hr := h r List.mem_cons_self (.initial S key.target) (route ++ [⟨l.name, some index⟩]) rfl
    rw [List.map_cons, Place.inItems_cons, imageItems_cons, List.findSome?_append, hr,
      ih fun r hr => h r (List.mem_cons_of_mem _ hr)]
    rcases naive.outcome S key r (.initial S key.target) with ⟨result, made⟩
    cases result with
    | error e => exact congrArg some (under_within route _ e).symm
    | ok =>
      dsimp only
      rw [returned?_map]
      rfl

theorem findSome?_inRecord {key' : PlanKey} (h : l.transfer = .nested key') {r : Record}
    (hr : r.Reports S key') (key : PlanKey) (route : FieldPath) :
    (Place.inValue S r.toValue route key l).findSome? (Place.error? S) =
      (returned? (naive.image S r.toValue (.byName l))).map (·.under route) := by
  rw [Place.inValue_record h, image_record S naive r .byName, h,
    hr (.initial S key'.target) _ rfl]
  dsimp only
  rcases naive.outcome S key' r (.initial S key'.target) with ⟨result, made⟩
  cases result with
  | error e => exact congrArg some (under_within route _ e).symm
  | ok => rfl

/-- Along the places in a value that fits, the first failure is the one that the value meets on its
way across. -/
theorem findSome?_inValue
    (hsuits : Transfer.Suits direction l.sourceKind l.targetKind l.transfer) {v : Value}
    (hv : v.fits S l.sourceKind = true)
    (hinner : ∀ key inner, l.transfer.Enters v key inner → inner.Reports S key)
    (key : PlanKey) (route : FieldPath) :
    (Place.inValue S v route key l).findSome? (Place.error? S) =
      (returned? (naive.image S v (.byName l))).map (·.under route) := by
  generalize hsource : l.sourceKind = sourceKind at hsuits hv
  generalize htarget : l.targetKind = targetKind at hsuits
  generalize htransfer : l.transfer = transfer at hsuits hinner
  cases hsuits with
  | @scalar k k' c hc o o' =>
    have hopens : l.transfer.opens v = false := by rw [htransfer]; cases v <;> rfl
    rw [Place.inValue_of_not_opens hopens, image_scalar .byName htransfer, Link.carryScalar,
      List.findSome?_singleton, Place.error?, Link.complaint?, htransfer]
    dsimp only
    rw [ScalarConversion.complaint?]
    cases v.isNull with
    | true => rfl
    | false => cases c.image? v <;> rfl
  | @scalarList k k' c hc =>
    obtain ⟨items, rfl, -⟩ := Value.fits_scalarList.mp hv
    rw [Place.inValue_scalars htransfer, image_scalarList .byName htransfer, returned?_map,
      findSome?_ofScalars htransfer]
  | nested t u o o' =>
    rcases Value.fits_nested.mp hv with ⟨-, rfl⟩ | ⟨r, rfl, -, -⟩
    · have hopens : l.transfer.opens .null = false := by rw [htransfer]; rfl
      rw [Place.inValue_of_not_opens hopens, image_noRecord .byName htransfer,
        List.findSome?_singleton, Place.error?, Link.complaint?, htransfer]
      rfl
    · exact findSome?_inRecord htransfer (hinner _ r (.record _ r)) key route
  | nestedList t u =>
    obtain ⟨rs, rfl, -⟩ := Value.fits_nestedList.mp hv
    have hrs : ∀ r ∈ rs, r.Reports S (.between t u direction) := fun r hr =>
      hinner _ r (.item (List.mem_map_of_mem hr))
    rw [Place.inValue_records htransfer, image_list S naive _ .byName, htransfer]
    dsimp only
    rw [returned?_map, findSome?_inItems hrs]
  | impossible source target =>
    have hopens : l.transfer.opens v = false := by rw [htransfer]; cases v <;> rfl
    rw [Place.inValue_of_not_opens hopens, image_impossible .byName htransfer,
      List.findSome?_singleton, Place.error?, Link.complaint?, htransfer]
    rfl

/-! ### What a record reports -/

/-- A link of a source fails over nothing but the value. The field is there to be read, and no write
is refused. -/
theorem returned?_effect {src : Record} (hsrc : Source S key src)
    (hplan : Plan.resolve S key = .ok plan) (hl : l ∈ plan.links) {v : Value}
    (hv : src.get? S l.sourceIndex = some v) :
    returned? (naive.effect S src key.target (naive.copier l)) =
      returned? (naive.image S v (.byName l)) := by
  obtain ⟨source, target, hj⟩ := Plan.exists_joins hplan hl
  have hfits := hj.fits_of_get? hsrc.type_eq hsrc.fits hv
  rw [effect_copier hplan hl naive hsrc.type_eq, hv]
  dsimp only [copier]
  cases himage : naive.image S v (.byName l) with
  | error e => rfl
  | ok w =>
    have hcrosses := (image_eq_ok_iff hj.suits hfits).mp himage
    obtain ⟨cell, hcell⟩ := hsrc.exists_admit? hplan hl hv hcrosses
    have hplacement := Schema.placement_of_plain hsrc.target_ordinary.plain hj.target_mem w
    rw [← hj.targetIndex_eq, ← hj.targetKind_eq, hcell] at hplacement
    dsimp only
    rw [hplacement]
    rfl

/-- **The first failure along the places is the one that is returned.** By induction on the nesting
of the source. -/
theorem findSome?_places {src : Record} (hsrc : Source S key src) : src.Reports S key := by
  induction src using Record.nestedInduction generalizing key with
  | step r ih =>
    intro dst route hdst
    rw [Record.places_eq, outcome_eq, program, List.findSome?_cons, Place.error?]
    cases hplan : Plan.resolve S key with
    | error cause => rfl
    | ok plan =>
      dsimp only
      rw [Outcome.returned?_ofEffects, List.map_map, List.findSome?_map, List.map_findSome?]
      refine Place.findSome?_flatMap fun l hl => ?_
      obtain ⟨source, target, hj⟩ := Plan.exists_joins hplan hl
      obtain ⟨v, hv⟩ := hsrc.exists_get? hj
      have hfits := hj.fits_of_get? hsrc.type_eq hsrc.fits hv
      have hinner : ∀ key' inner, l.transfer.Enters v key' inner → inner.Reports S key' :=
        fun key' inner henter =>
          ih v (Record.mem_cells_of_get? hv) inner henter.holds (hsrc.enter hplan hl hv henter)
      simp only [Function.comp_apply, hv, Option.elim_some, hdst]
      rw [returned?_effect hsrc hplan hl hv]
      exact findSome?_inValue hj.suits hfits hinner key route

end Tier

/-! ### The culprit -/

theorem Link.Leads.enters {v : Value} {step : PathStep} {inner : Record}
    (h : l.Leads v step key inner) : l.transfer.Enters v key inner := by
  cases h with
  | record h =>
    rw [h]
    exact .record key inner
  | item h hitem =>
    rw [h]
    exact .item (List.mem_of_getElem? hitem)

theorem Descends.reached {route way : FieldPath} {key' : PlanKey} {r holder : Record}
    (h : Descends S route key r way key' holder) : Reached S key r key' holder := by
  induction h with
  | here _ key r => exact .here key r
  | inside hplan hl hv hleads _ ih => exact .inside hplan hl hv hleads.enters ih

/-- The first place of the conversion that does not convert. -/
def Place.FirstToFail (S : Schema) (key : PlanKey) (src : Record) (p : Place) : Prop :=
  ∃ before after, src.places S key [] = before ++ p :: after ∧ (∀ q ∈ before, q.Converts S) ∧
    ¬ p.Converts S

/-- The value that stops a conversion, with the link that it does not cross and the record that
holds it. -/
structure Culprit (S : Schema) (key : PlanKey) (src : Record) where
  /-- From the outermost record to the one with the failing field, which is converted by a key of
  its own. -/
  way : FieldPath
  innerKey : PlanKey
  holder : Record
  link : Link
  source : Column
  target : Column
  /-- What the failing field holds, and what of it is at fault. -/
  field : Value
  step : PathStep
  value : Value
  descends : Descends S [] key src way innerKey holder
  type_eq : holder.type = innerKey.source
  linked : ∃ plan, Plan.resolve S innerKey = .ok plan ∧ link ∈ plan.links
  joins : link.Joins S innerKey source target
  reads : holder.get? S link.sourceIndex = some field
  spot : link.Spot field step value
  first : Place.FirstToFail S key src (.value (way ++ [step]) innerKey link value)

namespace Culprit

/-- The route from the outermost record to the value. -/
def path {src : Record} (c : Culprit S key src) : FieldPath := c.way ++ [c.step]

/-- A place that is met first, of those that fail, is a culprit if it is a value. -/
theorem exists_of_first {src : Record} (hsrc : Source S key src) {route : FieldPath}
    {key' : PlanKey} {v : Value} (h : Place.FirstToFail S key src (.value route key' l v)) :
    ∃ c : Culprit S key src, route = c.path ∧ l = c.link ∧ v = c.value := by
  have hstands : (Place.value route key' l v).Stands S [] key src := by
    obtain ⟨before, after, hplaces, -⟩ := h
    rw [← Record.mem_places_iff, hplaces]
    exact List.mem_append_right _ List.mem_cons_self
  cases hstands with
  | @value way _ holder plan _ field _ step hdescends hplan hl hv hspot =>
    obtain ⟨source, target, hj⟩ := Plan.exists_joins hplan hl
    have hholder := hsrc.of_reached hdescends.reached
    exact ⟨{
      way, holder, source, target, field, step
      innerKey := key'
      link := l
      value := v
      descends := hdescends
      type_eq := hholder.type_eq
      linked := ⟨plan, hplan, hl⟩
      joins := hj
      reads := hv
      spot := hspot
      first := h }, rfl, rfl, rfl⟩

end Culprit

namespace Tier

/-- The first place that fails is the one that a mismatch is about. -/
theorem exists_culprit {src dst : Record} (hsrc : Source S key src) (hdst : dst.type = key.target)
    {path : FieldPath} {source target : FieldKind} {reason : MismatchReason}
    (h : (naive.outcome S key src dst).result = .error (.mismatch path source target reason)) :
    ∃ c : Culprit S key src, path = c.path ∧ source = c.source.kind ∧ target = c.target.kind ∧
      c.link.complaint? c.value = some reason := by
  have hfirst := findSome?_places hsrc dst [] hdst
  rw [h, returned?, Option.map_some, ConvertError.under_nil, List.findSome?_eq_some_iff] at hfirst
  obtain ⟨before, p, after, hplaces, hp, hbefore⟩ := hfirst
  have hfails : ¬ p.Converts S := by
    rw [Place.Converts, hp]
    exact Option.some_ne_none _
  have hfirst : Place.FirstToFail S key src p := ⟨before, after, hplaces, hbefore, hfails⟩
  cases p with
  | entry route key' =>
    -- where there is no plan it is not a mismatch that is returned
    rw [Place.error?] at hp
    split at hp
    · cases hp
    · cases hp
  | value route key' l v =>
    obtain ⟨reason', hreason, hmismatch⟩ := Option.map_eq_some_iff.mp hp
    cases hmismatch
    obtain ⟨c, rfl, rfl, rfl⟩ := Culprit.exists_of_first hsrc hfirst
    exact ⟨c, rfl, c.joins.sourceKind_eq, c.joins.targetKind_eq, hreason⟩

/-- **A mismatch points at its culprit.** In any tier, and whatever was asked for before: if a
conversion between records of ordinary types fails with a mismatch, its path is the route to the
first place that does not convert, in the order of the plans and depth first; the two kinds are
those of the linked fields there, each declared by the type of its own record; and the message
names the field by the steps of the route, joined by dots. -/
theorem convert_mismatch_culprit (S : Schema) (tier : Tier) (src dst : Record)
    (direction : Direction) (history : List Store.Request) (hsrc : S.Ordinary src.type)
    (hdst : S.Ordinary dst.type) (hfits : src.fits S = true) {path : FieldPath}
    {source target : FieldKind} {reason : MismatchReason}
    (h : (tier.convert S (some src) (some dst) direction (Store.after S history)).1.1 =
      .error (.mismatch path source target reason)) :
    ∃ c : Culprit S (.between src.type dst.type direction) src,
      path = c.path ∧ source = c.source.kind ∧ target = c.target.kind ∧
      c.link.complaint? c.value = some reason ∧
      (ConvertError.mismatch path source target reason).field? =
        some (".".intercalate (c.path.map PathStep.text)) ∧
      (ConvertError.mismatch path source target reason).message S =
        "field '" ++ ".".intercalate (c.path.map PathStep.text) ++ "': cannot copy " ++
          S.kindText c.source.kind ++ " into " ++ S.kindText c.target.kind ++ ": " ++
          reason.text S := by
  have hsource : Source S (.between src.type dst.type direction) src :=
    ⟨by simp, hfits, by simpa using hsrc, by simpa using hdst⟩
  have hdst' : dst.type = (PlanKey.between src.type dst.type direction).target := by simp
  rw [convert_after, agreesOn_of_fits tier hfits _ dst (by simp) hdst'] at h
  obtain ⟨c, rfl, rfl, rfl, hreason⟩ := exists_culprit hsource hdst' h
  exact ⟨c, rfl, rfl, rfl, hreason, rfl, rfl⟩

end Tier

/-! ### A trip with a code that is too large -/

namespace Trips

/-- Trips and their legs, as messages and as models. -/
def decls : List TypeDecl :=
  [⟨"TripMessage", [
      ⟨"name", .scalar .string false, false, .declared⟩,
      ⟨"legs", .nestedList ⟨1⟩, false, .declared⟩]⟩,
   ⟨"LegMessage", [
      ⟨"id", .scalar .i64 false, false, .declared⟩,
      ⟨"codes", .scalarList .i64, false, .declared⟩]⟩,
   ⟨"Trip", [
      ⟨"legs", .nestedList ⟨3⟩, false, .declared⟩,
      ⟨"name", .scalar .string true, false, .declared⟩]⟩,
   ⟨"Leg", [
      ⟨"codes", .scalarList .i32, false, .declared⟩,
      ⟨"id", .scalar .i32 false, false, .declared⟩]⟩]

theorem isSome_ofDecls? : (Schema.ofDecls? decls fun _ => .null).isSome = true := by decide

def schema : Schema := (Schema.ofDecls? decls fun _ => .null).get isSome_ofDecls?

theorem ordinary (t : TypeId) : schema.Ordinary t := by
  have hall : ∀ d ∈ decls, ∀ f ∈ d.fields, f.access = .declared := by decide
  exact fun u _ => Schema.plain_of_ofTables? (Option.some_get isSome_ofDecls?).symm hall u

/-- Two legs. The number of the second would be too large as well, but its codes come first. -/
def trip : Record where
  type := ⟨0⟩
  cells := [.string "Ulm", .list [
    .record ⟨1⟩ [.i64 1, .list [.i64 10]],
    .record ⟨1⟩ [.i64 8589934592, .list [.i64 20, .i64 21, .i64 4294967296]]]]

/-- The mismatch that the trip is reported with. -/
def mismatch : ConvertError :=
  .mismatch [⟨"legs", some 1⟩, ⟨"codes", some 2⟩] (.scalarList .i64) (.scalarList .i32)
    (.lossy (.narrow .i64 .i32))

example : mismatch.field? = some "legs[1].codes[2]" := by decide

/-- The third code of the second leg is the culprit, in the tier that goes by positions. -/
theorem convert_trip_culprit :
    (schema.Ordinary trip.type ∧ schema.Ordinary ⟨2⟩ ∧ trip.fits schema = true ∧
      (Tier.compiled.convert schema (some trip) (some (.initial schema ⟨2⟩)) .toModel
        (Store.after schema [])).1.1 = .error mismatch) ∧
      ∃ c : Culprit schema (.between ⟨0⟩ ⟨2⟩ .toModel) trip,
        [⟨"legs", some 1⟩, ⟨"codes", some 2⟩] = c.path ∧
          FieldKind.scalarList .i64 = c.source.kind := by
  have hfits : trip.fits schema = true := by decide
  have hfails : (Tier.compiled.convert schema (some trip) (some (.initial schema ⟨2⟩)) .toModel
      (Store.after schema [])).1.1 = .error mismatch := by decide +kernel
  obtain ⟨c, hpath, hsource, -⟩ := Tier.convert_mismatch_culprit schema .compiled trip
    (.initial schema ⟨2⟩) .toModel [] (ordinary _) (ordinary _) hfits hfails
  exact ⟨⟨ordinary _, ordinary _, hfits, hfails⟩, c, hpath, hsource⟩

end Trips

end Crosswalk
