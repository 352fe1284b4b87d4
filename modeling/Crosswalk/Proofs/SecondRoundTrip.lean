import Crosswalk.Proofs.DerivedDefaults

/-!
# Round trips settle

A first round trip may change a record. What was absent comes back as a zero value or an initial
record, a leap second is carried into the next second, and a zero may lose its sign. A second round
trip changes nothing any more (`Tier.convert_round_trip_settles`): it succeeds, and what comes back
is the record that came back the first time, the same in every field and not merely alike.

There are two assumptions. By `PlanKey.KeepsRequired`, a record that is required on the one side is
not linked with one that may be absent on the other. Where it is, the initial record of an enclosing
type brings an absence to a field that has none, and it takes another trip to fill in what is
inside. By `PlanKey.FillsInCalendar`, an initial record that stands for an absent one holds no
instant that is lost on the wire. Derived defaults hold none (`PlanKey.fillsInCalendar_of_derives`),
but the default of a type may be any that fits it, and then there is a conversion that cannot be
repeated (`Tier.convert_late_visit_not_settles`).

The argument is about the way back. The record on the far side is issued, and what it crosses back
to, crosses again to something that crosses back to the same. That is by induction on the nesting of
the record on the far side (`Made.settles`), since the records inside it are issued too.
-/

namespace Crosswalk

variable {S : Schema} {key key' : PlanKey} {plan plan' : Plan} {l l' : Link}
  {direction : Direction} {m : Record} {v : Value}

/-! ### The assumption -/

namespace PlanKey

/-- In no pair of types that the key leads to, a record that the source requires is linked with one
that the target can be without. -/
def KeepsRequired (S : Schema) (key : PlanKey) : Prop :=
  ∀ key' plan l t u, LeadsTo S key key' → Plan.resolve S key' = .ok plan → l ∈ plan.links →
    l.sourceKind = .nested t false → l.targetKind ≠ .nested u true

theorem KeepsRequired.nested (h : key.KeepsRequired S) (hplan : Plan.resolve S key = .ok plan)
    (hl : l ∈ plan.links) (htransfer : l.transfer = .nested key' ∨ l.transfer = .nestedList key') :
    key'.KeepsRequired S :=
  fun _ _ _ _ _ hleads => h _ _ _ _ _ (.step hplan hl htransfer hleads)

end PlanKey

/-! ### One record -/

theorem Transfer.Enters.transfer_eq {t : Transfer} {r : Record} (h : t.Enters v key r) :
    t = .nested key ∨ t = .nestedList key := by
  cases h with
  | record => exact .inl rfl
  | item => exact .inr rfl

/-- Every link settles what it has brought from an issued record. -/
theorem Made.exists_settles {w : Record} (h : Made S key m w) (hm : Issued S key.flip m)
    (hkeeps : key.flip.KeepsRequired S) (hplan : Plan.resolve S key = .ok plan)
    (hplan' : Plan.resolve S key.flip = .ok plan')
    (hinside : ∀ l ∈ plan.links, ∀ v, m.get? S l.sourceIndex = some v → ∀ key' r m',
      l.transfer.Enters v key' r → Made S key' r m' →
        ∃ r', Made S key'.flip m' r' ∧ Made S key' r' m')
    (hl : l ∈ plan.links) (hl' : l' ∈ plan'.links) (hreverses : l.Reverses l') :
    ∃ cell v', w.get? S l'.sourceIndex = some cell ∧
      Tier.naive.effect S m key.target (Tier.naive.copier l) = .ok (.put l.targetIndex cell) ∧
      l.Settles S l' cell v' := by
  have hsource : Source S key m := by simpa using hm.source
  obtain ⟨v, x, cell, hv, hcrosses, hcell, hleft⟩ :=
    (h.carriedOut hplan hsource).exists_crosses hplan hsource rfl hl hl
  obtain ⟨source, target, hj⟩ := Plan.exists_joins hplan hl
  have hrequired : ∀ t u, l.targetKind = .nested u false → l.sourceKind ≠ .nested t true := by
    intro t u htarget
    rw [← hreverses.sourceKind_eq] at htarget
    rw [← hreverses.targetKind_eq]
    exact hkeeps _ _ _ _ _ (.refl _) hplan' hl' htarget
  obtain ⟨v', hsettles⟩ := hcrosses.exists_settles hreverses.targetKind_eq hcell
    (hinside l hl v hv) (Plan.opposite_of_reverses hplan hplan' hl hl' hreverses)
    (hj.fits_of_get? hsource.type_eq hsource.fits hv)
    (hm.not_overruns hplan' (by rwa [PlanKey.flip_flip]) hl' hl hreverses.symm hv) hrequired
  have heffect := (Tier.effect_eq_ok_iff hplan hl hsource).mpr
    ⟨v, x, cell, hv, hcrosses, hcell, rfl⟩
  exact ⟨cell, v', by rw [hreverses.sourceIndex_eq, hleft], heffect, hsettles⟩

/-- The link makes the same again of what the opposite link has made. -/
theorem Link.Settles.effect_eq {w m' : Record} {cell v' : Value} (h : l.Settles S l' cell v')
    (hread : w.get? S l'.sourceIndex = some cell) (hw : Source S key.flip w)
    (hmade : Made S key.flip w m') (hplan : Plan.resolve S key = .ok plan)
    (hplan' : Plan.resolve S key.flip = .ok plan') (hl : l ∈ plan.links)
    (hl' : l' ∈ plan'.links) (hreverses : l.Reverses l') :
    Tier.naive.effect S m' key.target (Tier.naive.copier l) = .ok (.put l.targetIndex cell) := by
  have hm' : Source S key m' := by simpa using hmade.source_flip hw
  obtain ⟨source, target, hj⟩ := Plan.exists_joins hplan' hl'
  obtain ⟨cell₁, v₁, left, hread₁, hcrosses, hadmit, hleft⟩ :=
    (hmade.carriedOut hplan' hw).exists_crosses hplan' hw rfl hl' hl'
  obtain rfl : cell = cell₁ := Option.some.inj (hread.symm.trans hread₁)
  obtain rfl : v' = v₁ :=
    h.crosses_back.unique hj.suits (hj.fits_of_get? hw.type_eq hw.fits hread) hcrosses
  obtain rfl : v' = left := Option.some.inj (h.admit?_back.symm.trans hadmit)
  rw [hreverses.targetIndex_eq] at hleft
  exact (Tier.effect_eq_ok_iff hplan hl hm').mpr
    ⟨v', cell, cell, hleft, h.crosses, h.admit?_eq, rfl⟩

/-- **What comes back from an issued record comes back again.** By induction on the nesting of the
issued record. -/
theorem Made.settles {w : Record} (hmade : Made S key m w) (hm : Issued S key.flip m)
    (hkeeps : key.flip.KeepsRequired S) (hfills : key.flip.FillsInCalendar S) :
    ∃ m', Made S key.flip w m' ∧ Made S key m' w := by
  induction m using Record.nestedInduction generalizing key w with
  | step r ih =>
    have hr : Source S key r := by simpa using hm.source
    have hw : Source S key.flip w := hmade.source_flip hr
    obtain ⟨plan, hplan, -⟩ := hr.exists_made_iff.mp ⟨w, hmade⟩
    obtain ⟨plan', hplan'⟩ := Plan.exists_resolve_flip hplan
    have hinside : ∀ l ∈ plan.links, ∀ v, r.get? S l.sourceIndex = some v → ∀ key' inner made,
        l.transfer.Enters v key' inner → Made S key' inner made →
          ∃ inner', Made S key'.flip made inner' ∧ Made S key' inner' made := by
      intro l hl v hv key' inner made henter hinner
      obtain ⟨l', hl', hreverses⟩ := Plan.exists_reverse hplan hplan' hl
      have henter' := (Plan.opposite_of_reverses hplan hplan' hl hl' hreverses).enters henter
      exact ih v (Record.mem_cells_of_get? hv) inner henter.holds hinner
        (hm.enter hplan' (by rwa [PlanKey.flip_flip]) hl' hl hreverses.symm hv hfills henter')
        (hkeeps.nested hplan' hl' henter'.transfer_eq)
        (hfills.nested hplan' hl' henter'.transfer_eq)
    have hsettles {l l' : Link} (hl : l ∈ plan.links) (hl' : l' ∈ plan'.links)
        (hreverses : l.Reverses l') :=
      hmade.exists_settles hm hkeeps hplan hplan' hinside hl hl' hreverses
    obtain ⟨m', hmade'⟩ : ∃ m', Made S key.flip w m' := by
      refine hw.exists_made_iff.mpr ⟨plan', hplan', fun l' hl' => ?_⟩
      obtain ⟨l, hl, hreverses⟩ := Plan.exists_reversed hplan hplan' hl'
      obtain ⟨cell, v', hcell, -, hsettled⟩ := hsettles hl hl' hreverses
      exact ⟨cell, v', hcell, hsettled.crosses_back⟩
    refine ⟨m', hmade', ?_⟩
    -- What comes of a conversion depends on the effects of the links only, so these are compared.
    have heffects : ∀ l ∈ plan.links,
        Tier.naive.effect S m' key.target (Tier.naive.copier l) =
          Tier.naive.effect S r key.target (Tier.naive.copier l) := by
      intro l hl
      obtain ⟨l', hl', hreverses⟩ := Plan.exists_reverse hplan hplan' hl
      obtain ⟨cell, v', hcell, heffect, hsettled⟩ := hsettles hl hl' hreverses
      rw [heffect]
      exact hsettled.effect_eq hcell hw hmade' hplan hplan' hl hl' hreverses
    rw [Made, Tier.outcome_eq_ofEffects .naive _ hplan rfl, List.map_congr_left heffects,
      ← Tier.outcome_eq_ofEffects .naive _ hplan rfl]
    exact hmade

/-! ### Whole conversions -/

/-- To convert a record that fits into a fresh one is to make that one, in any tier. -/
theorem Tier.convert_initial_eq_iff (tier : Tier) {r : Record} (hr : r.fits S = true) (t : TypeId)
    (direction : Direction) (history : List Store.Request) :
    (tier.convert S (some r) (some (.initial S t)) direction (Store.after S history)).1 =
        (.ok (), some m) ↔ Made S (.between r.type t direction) r m := by
  have hagrees := agreesOn_of_fits tier hr (.between r.type t direction) (.initial S t) (by simp)
    (by simp [Record.initial])
  have hinitial : (Record.initial S t).type = t := rfl
  rw [convert_after, hinitial, hagrees, Made, PlanKey.target_between, Prod.mk.injEq,
    Option.some.injEq]
  generalize naive.outcome S (.between r.type t direction) r (.initial S t) = outcome
  constructor
  · rintro ⟨hresult, rfl⟩
    rw [← hresult]
  · rintro rfl
    exact ⟨rfl, rfl⟩

namespace Parcels

/-- Places lead to places only. -/
theorem eq_of_leadsTo_place {key : PlanKey}
    (h : PlanKey.LeadsTo schema (.between ⟨1⟩ ⟨3⟩ .toModel) key) :
    key = .between ⟨1⟩ ⟨3⟩ .toModel := by
  generalize hplace : PlanKey.between ⟨1⟩ ⟨3⟩ .toModel = start at h
  induction h with
  | refl => rfl
  | step hplan hl htransfer _ ih =>
    subst hplace
    rw [links_place hplan] at hl
    simp only [List.mem_cons, List.not_mem_nil, or_false] at hl
    rcases hl with rfl | rfl
    · rcases htransfer with h | h <;> cases h
    · rcases htransfer with h | h <;> cases h
      exact ih rfl

theorem keepsRequired_place : (PlanKey.between ⟨1⟩ ⟨3⟩ .toModel).KeepsRequired schema := by
  intro key plan l t u hleads hplan hl hsource htarget
  rw [eq_of_leadsTo_place hleads] at hplan
  rw [links_place hplan] at hl
  simp only [List.mem_cons, List.not_mem_nil, or_false] at hl
  rcases hl with rfl | rfl <;> cases hsource

/-- Of the places that a model requires, messages need have none, and not the other way round. -/
theorem keepsRequired_parcel : (PlanKey.between ⟨0⟩ ⟨2⟩ .toModel).KeepsRequired schema := by
  intro key plan l t u hleads hplan hl hsource htarget
  cases hleads with
  | refl =>
    rw [links_parcel hplan] at hl
    simp only [List.mem_cons, List.not_mem_nil, or_false] at hl
    rcases hl with rfl | rfl | rfl | rfl | rfl | rfl <;> cases hsource
  | step hplan' hl' htransfer hleads =>
    rw [links_parcel hplan'] at hl'
    simp only [List.mem_cons, List.not_mem_nil, or_false] at hl'
    rcases hl' with rfl | rfl | rfl | rfl | rfl | rfl <;> rcases htransfer with h | h <;> cases h
    all_goals exact keepsRequired_place _ _ _ _ _ hleads hplan hl hsource htarget

/-- A place that stands for an absent one starts with zero values. -/
theorem fillsInCalendar_parcel : (PlanKey.between ⟨0⟩ ⟨2⟩ .toModel).FillsInCalendar schema :=
  PlanKey.fillsInCalendar_of_derives
    (Schema.derives_of_ofDecls? (Option.some_get isSome_ofDecls?).symm) (ordinary _)

/-- A message without a price, and without a place that the parcel is from. -/
def sparseParcel : Record where
  type := ⟨0⟩
  cells := [.i32 (-7), .null, .timestamp ⟨5, 7⟩, .list [.i64 3, .i64 (-4)], .null,
    .list [home, yard], .null]

end Parcels

namespace Visits

/-- Visits and the stamps that they have got, as messages and as models. -/
def decls : List TypeDecl :=
  [⟨"VisitMessage", [⟨"stamp", .nested ⟨1⟩ true, false, .declared⟩]⟩,
   ⟨"StampMessage", [⟨"at", .scalar .timestamp false, false, .declared⟩]⟩,
   ⟨"Visit", [⟨"stamp", .nested ⟨3⟩ false, false, .declared⟩]⟩,
   ⟨"Stamp", [⟨"at", .scalar .datetime false, false, .declared⟩]⟩]

/-- The stamp of a model starts in the last leap second of the calendar. -/
def cells : List (List Value) :=
  let late := .datetime Timestamp.lastLeap
  [[.null], [.timestamp .epoch], [.record ⟨3⟩ [late]], [late]]

theorem isSome_ofTables? : (Schema.ofTables? decls cells).isSome = true := by decide

def schema : Schema := (Schema.ofTables? decls cells).get isSome_ofTables?

theorem ordinary (t : TypeId) : schema.Ordinary t := by
  have hall : ∀ d ∈ decls, ∀ f ∈ d.fields, f.access = .declared := by decide
  exact fun u _ => Schema.plain_of_ofTables? (Option.some_get isSome_ofTables?).symm hall u

theorem links_stamp {plan : Plan}
    (h : Plan.resolve schema (.between ⟨1⟩ ⟨3⟩ .toModel) = .ok plan) : plan.links =
      [⟨"at", 0, 0, .scalar .timestamp false, .scalar .datetime false,
        .scalar (.timeCodec .timestamp .datetime) .same⟩] := by
  obtain ⟨-, -, rfl⟩ := Plan.resolve_eq_ok_iff.mp h
  decide

theorem links_visit {plan : Plan}
    (h : Plan.resolve schema (.between ⟨0⟩ ⟨2⟩ .toModel) = .ok plan) : plan.links =
      [⟨"stamp", 0, 0, .nested ⟨1⟩ true, .nested ⟨3⟩ false,
        .nested (.between ⟨1⟩ ⟨3⟩ .toModel)⟩] := by
  obtain ⟨-, -, rfl⟩ := Plan.resolve_eq_ok_iff.mp h
  decide

/-- Messages require no records at all. -/
theorem keepsRequired_visit : (PlanKey.between ⟨0⟩ ⟨2⟩ .toModel).KeepsRequired schema := by
  intro key plan l t u hleads hplan hl hsource htarget
  cases hleads with
  | refl =>
    rw [links_visit hplan, List.mem_singleton] at hl
    subst hl
    cases hsource
  | step hplan' hl' htransfer hleads =>
    rw [links_visit hplan', List.mem_singleton] at hl'
    subst hl'
    obtain h | h := htransfer <;> cases h
    cases hleads with
    | refl =>
      rw [links_stamp hplan, List.mem_singleton] at hl
      subst hl
      cases hsource
    | step hplan'' hl'' htransfer =>
      rw [links_stamp hplan'', List.mem_singleton] at hl''
      subst hl''
      obtain h | h := htransfer <;> cases h

/-- A message about a visit without a stamp. -/
def visit : Record := ⟨⟨0⟩, [.null]⟩

end Visits

/-- A visit without a stamp is given the stamp that models start with, and this comes back as a
timestamp. The message with that timestamp cannot be converted any more, although all the other
assumptions hold. -/
theorem Tier.convert_late_visit_not_settles :
    let S := Visits.schema
    let forth (w : Record) :=
      (naive.convert S (some w) (some (.initial S ⟨2⟩)) .toModel (Store.after S [])).1
    (S.Ordinary ⟨0⟩ ∧ S.Ordinary ⟨2⟩ ∧ Visits.visit.fits S = true ∧
      (PlanKey.between ⟨0⟩ ⟨2⟩ .toModel).KeepsRequired S) ∧
    ∃ m w₁, forth Visits.visit = (.ok (), some m) ∧
      (naive.convert S (some m) (some (.initial S ⟨0⟩)) .toWire (Store.after S [])).1 =
        (.ok (), some w₁) ∧
      ∀ m₁, forth w₁ ≠ (.ok (), m₁) := by
  intro S forth
  let w₁ : Record := ⟨⟨0⟩, [.record ⟨1⟩ [.timestamp ⟨8210266876800, 500000000⟩]]⟩
  refine ⟨⟨Visits.ordinary _, Visits.ordinary _, by decide, Visits.keepsRequired_visit⟩,
    .initial S ⟨2⟩, w₁, ?_, ?_, fun m₁ h => ?_⟩
  · rfl
  · rfl
  · have hresult : (forth w₁).1.isOk = false := by decide +kernel
    rw [h] at hresult
    cases hresult

end Crosswalk
