import Crosswalk.Proofs.Settling

/-!
# Records that a conversion hands over

A record that stands where a conversion has put it is not just any record of its type. Either the
conversion has made it, or it was in stock: it is the initial record of its type, which stands for
one that was absent, or inside of such a record. It is `Issued`.

What matters is how such a record fares on the way back. What was made of a timestamp is in no leap
second, so that nothing a conversion has made is past the end of the calendar
(`Link.Crosses.not_overruns`). The initial records are the choice of their types. Of those that
may stand for an absent record it is assumed that they are within the calendar
(`PlanKey.FillsInCalendar`).

The records inside an issued record are issued too, by the keys of their own links
(`Issued.enter`).
-/

namespace Crosswalk

variable {S : Schema} {key key' : PlanKey} {plan plan' : Plan} {l l' : Link}
  {direction : Direction} {m inner : Record} {v w cell : Value}

/-! ### The end of the calendar -/

theorem Value.isLeap_zero (k : ScalarKind) : (zero k).isLeap = false := by
  cases k <;> rfl

theorem Link.isLeap_absentScalar (l : Link) (presence : Presence) :
    (l.absentScalar presence).isLeap = false := by
  rw [absentScalar.eq_def]
  split
  · exact Value.isLeap_zero _
  · rfl

/-- What is in no leap second is not at the end of the calendar either. -/
theorem DateTime.not_endsCalendar {d : DateTime} (h : d.isLeap = false) : ¬ d.EndsCalendar := by
  rintro ⟨-, hleap⟩
  rw [h] at hleap
  cases hleap

namespace Link.Crosses

theorem isLeap_scalar {k : ScalarKind} {c : ScalarConversion} {presence : Presence} {o : Bool}
    (hc : ScalarConversion.Between .timestamp k c) (htransfer : l.transfer = .scalar c presence)
    (h : l.Crosses S v w) (hv : v.fits S (.scalar .timestamp o) = true) : w.isLeap = false := by
  rcases h.scalar_cases htransfer hv with ⟨-, -, rfl⟩ | ⟨hkind, himage⟩
  · exact l.isLeap_absentScalar _
  · exact hc.isLeap_image? hkind himage rfl

/-- **What has crossed one way does not overrun the calendar the other way.** -/
theorem not_overruns
    (hsuits : Transfer.Suits direction l'.sourceKind l'.targetKind l'.transfer)
    (h : l'.Crosses S v w) (hv : v.fits S l'.sourceKind = true)
    (hcell : l'.targetKind.admit? S w = some cell) (hreverses : l.Reverses l') :
    ¬ l.Overruns cell := by
  intro hoverruns
  generalize htransfer : l'.transfer = transfer at hsuits
  cases hoverruns with
  | instant htarget hsource hd =>
    rw [← hreverses.targetKind_eq] at htarget
    rw [← hreverses.sourceKind_eq] at hsource
    rw [hsource] at hsuits hv
    rw [htarget] at hsuits hcell
    cases hsuits with
    | scalar hc =>
      have hbetween := ScalarKind.between_of_conversion hc
      rw [FieldKind.admit?_scalar (h.scalarKind? hbetween htarget htransfer hv),
        Option.some.injEq] at hcell
      have hleap := h.isLeap_scalar hbetween htransfer hv
      rw [hcell] at hleap
      exact DateTime.not_endsCalendar hleap hd
    | impossible =>
      rw [Crosses, htransfer] at h
      exact h
  | item htarget hsource hmem hd =>
    rw [← hreverses.targetKind_eq] at htarget
    rw [← hreverses.sourceKind_eq] at hsource
    rw [hsource] at hsuits hv
    rw [htarget] at hsuits hcell
    cases hsuits with
    | scalarList hc =>
      have hbetween := ScalarKind.between_of_conversion hc
      obtain ⟨vs, ws, rfl, rfl, hkinds, hws⟩ := h.exists_scalars htransfer hv
      rw [FieldKind.admit?_list (hbetween.scalarKind?_images hkinds hws), Option.some.injEq,
        Value.list.injEq] at hcell
      obtain ⟨v, hv, himage⟩ := exists_partner hws (hcell ▸ hmem)
      exact DateTime.not_endsCalendar (hbetween.isLeap_image? (hkinds v hv) himage rfl) hd
    | impossible =>
      rw [Crosses, htransfer] at h
      exact h

end Link.Crosses

/-- Nothing that the conversion of the record comes to is past the end of the calendar. -/
def Record.InCalendar (S : Schema) (key : PlanKey) (r : Record) : Prop :=
  ∀ key' inner plan l v, Reached S key r key' inner → Plan.resolve S key' = .ok plan →
    l ∈ plan.links → inner.get? S l.sourceIndex = some v → ¬ l.Overruns v

theorem Record.InCalendar.enter {r : Record} (h : r.InCalendar S key)
    (hplan : Plan.resolve S key = .ok plan) (hl : l ∈ plan.links)
    (hv : r.get? S l.sourceIndex = some v) (henter : l.transfer.Enters v key' inner) :
    inner.InCalendar S key' :=
  fun _ _ _ _ _ hreached => h _ _ _ _ _ (.inside hplan hl hv henter hreached)

namespace PlanKey

/-- The plan of the first key, and the plans of the nested fields that it links, lead to the second
key. -/
inductive LeadsTo (S : Schema) : PlanKey → PlanKey → Prop
  | refl (key : PlanKey) : LeadsTo S key key
  | step {key key' key'' : PlanKey} {plan : Plan} {l : Link} (hplan : Plan.resolve S key = .ok plan)
    (hl : l ∈ plan.links) (htransfer : l.transfer = .nested key' ∨ l.transfer = .nestedList key')
    (h : LeadsTo S key' key'') : LeadsTo S key key''

/-- Wherever the key leads to a record that may be absent and is required on the other side, the
initial record that stands for it there is within the calendar. -/
def FillsInCalendar (S : Schema) (key : PlanKey) : Prop :=
  ∀ key' plan l key'' t u, LeadsTo S key key' → Plan.resolve S key' = .ok plan → l ∈ plan.links →
    l.transfer = .nested key'' → l.sourceKind = .nested t true → l.targetKind = .nested u false →
      (Record.initial S u).InCalendar S key''.flip

theorem FillsInCalendar.nested (h : key.FillsInCalendar S) (hplan : Plan.resolve S key = .ok plan)
    (hl : l ∈ plan.links) (htransfer : l.transfer = .nested key' ∨ l.transfer = .nestedList key') :
    key'.FillsInCalendar S :=
  fun _ _ _ _ _ _ hleads => h _ _ _ _ _ _ (.step hplan hl htransfer hleads)

end PlanKey

/-! ### Issued records -/

/-- The transfers of opposite links enter records by opposite keys. -/
theorem Transfer.Opposite.enters {source target : FieldKind} {t t' : Transfer}
    (h : Opposite direction source target t t') {key : PlanKey} {r : Record}
    (henter : t.Enters v key r) : t'.Enters v key.flip r := by
  cases h with
  | nested t u o o' =>
    cases henter
    rw [PlanKey.flip_between]
    exact .record _ r
  | nestedList t u =>
    cases henter with
    | item hmem =>
      rw [PlanKey.flip_between]
      exact .item hmem
  | _ => cases henter

/-- What a conversion by the key can hand over: a record that it has made, or one that was in stock
and is within the calendar on the way back. -/
inductive Issued (S : Schema) (key : PlanKey) : Record → Prop
  | made {r m : Record} (hr : Source S key r) (h : Made S key r m) : Issued S key m
  | stocked {m : Record} (hm : Source S key.flip m) (h : m.InCalendar S key.flip) : Issued S key m

/-- The initial record that stands for an absent one is in stock. -/
theorem Issued.initial {t u : TypeId} (ht : S.Ordinary t) (hu : S.Ordinary u)
    (h : (Record.initial S u).InCalendar S (PlanKey.between t u direction).flip) :
    Issued S (.between t u direction) (.initial S u) :=
  .stocked
    ⟨by simp [Record.initial], Record.initial_fits hu, by simpa using hu, by simpa using ht⟩ h

section Made

variable {r : Record} (hmade : Made S key r m) (hr : Source S key r)
  (hplan : Plan.resolve S key = .ok plan) (hl : l ∈ plan.links)

include hmade hr hplan hl

/-- The record in a linked field has been made, or it stands for an absent one. -/
theorem Made.issues_record (hfills : key.FillsInCalendar S) (htransfer : l.transfer = .nested key')
    (hv : m.get? S l.targetIndex = some inner.toValue) : Issued S key' inner := by
  obtain ⟨source, target, hj⟩ := Plan.exists_joins hplan hl
  obtain ⟨t, u, o, o', hsource, htarget, rfl⟩ := (htransfer ▸ hj.suits).exists_nested
  obtain ⟨v, w, cell, hv₀, hcrosses, hcell, hleft⟩ :=
    (hmade.carriedOut hplan hr).exists_crosses hplan hr rfl hl hl
  obtain rfl : inner.toValue = cell := Option.some.inj (hv.symm.trans hleft)
  have hfits := hj.fits_of_get? hr.type_eq hr.fits hv₀
  rw [hsource] at hfits
  rw [htarget] at hcell
  rw [Link.Crosses, htransfer] at hcrosses
  rcases hcrosses with ⟨rfl, rfl⟩ | ⟨r', m', rfl, rfl, hmade'⟩
  · obtain ⟨rfl, -⟩ | ⟨r', hr', -⟩ := Value.fits_nested.mp hfits
    · cases o' with
      | true => cases hcell
      | false =>
        obtain rfl : Record.initial S u = inner := Record.toValue_injective (Option.some.inj hcell)
        exact .initial (hj.ordinary_source hr.source_ordinary (by rw [hsource]; rfl))
          (hj.ordinary_target hr.target_ordinary (by rw [htarget]; rfl))
          (hfills _ _ _ _ _ _ (.refl _) hplan hl htransfer hsource htarget)
    · cases hr'
  · have htype : m'.type = u := by rw [hmade'.type_eq, PlanKey.target_between]
    rw [FieldKind.admit?_record htype, Option.some.injEq] at hcell
    rw [← Record.toValue_injective hcell]
    exact .made (hr.enter hplan hl hv₀ (htransfer ▸ .record _ r')) hmade'

/-- The records in a linked list have all been made. -/
theorem Made.issues_item (htransfer : l.transfer = .nestedList key') {items : List Value}
    (hv : m.get? S l.targetIndex = some (.list items)) (hmem : inner.toValue ∈ items) :
    Issued S key' inner := by
  obtain ⟨source, target, hj⟩ := Plan.exists_joins hplan hl
  obtain ⟨t, u, hsource, htarget, rfl⟩ := (htransfer ▸ hj.suits).exists_nestedList
  obtain ⟨v, w, cell, hv₀, hcrosses, hcell, hleft⟩ :=
    (hmade.carriedOut hplan hr).exists_crosses hplan hr rfl hl hl
  obtain rfl : .list items = cell := Option.some.inj (hv.symm.trans hleft)
  rw [Link.Crosses, htransfer] at hcrosses
  obtain ⟨rs, ms, rfl, rfl, hms⟩ := hcrosses
  have htypes := types_of_made hms
  rw [PlanKey.target_between] at htypes
  rw [htarget, FieldKind.admit?_records htypes, Option.some.injEq, Value.list.injEq] at hcell
  rw [← hcell, List.mem_map] at hmem
  obtain ⟨m', hm', hvalue⟩ := hmem
  obtain ⟨r', hr', hmade'⟩ := exists_partner hms hm'
  rw [← Record.toValue_injective hvalue]
  exact .made (hr.enter hplan hl hv₀ (htransfer ▸ .item (List.mem_map_of_mem hr'))) hmade'

end Made

namespace Issued

/-- What is issued is a source for the way back. -/
theorem source (h : Issued S key m) : Source S key.flip m := by
  cases h with
  | made hr h => exact h.source_flip hr
  | stocked hm => exact hm

section Fields

variable (h : Issued S key m) (hplan : Plan.resolve S key = .ok plan)
  (hplan' : Plan.resolve S key.flip = .ok plan') (hl : l ∈ plan.links) (hl' : l' ∈ plan'.links)
  (hreverses : l.Reverses l') (hv : m.get? S l'.sourceIndex = some v)

include h hplan hplan' hl hl' hreverses hv

/-- **No linked field of an issued record overruns the calendar on the way back.** -/
theorem not_overruns : ¬ l'.Overruns v := by
  cases h with
  | @made r m hr h =>
    obtain ⟨source, target, hj⟩ := Plan.exists_joins hplan hl
    obtain ⟨v₀, w, cell, hv₀, hcrosses, hcell, hleft⟩ :=
      (h.carriedOut hplan hr).exists_crosses hplan hr rfl hl hl
    rw [← hreverses.sourceIndex_eq, hv, Option.some.injEq] at hleft
    exact hcrosses.not_overruns hj.suits (hj.fits_of_get? hr.type_eq hr.fits hv₀) (hleft ▸ hcell)
      hreverses.symm
  | stocked _ h => exact h _ _ _ _ _ (.here _ _) hplan' hl' hv

/-- **A record inside an issued record is issued.** -/
theorem enter (hfills : key.FillsInCalendar S) (henter : l.transfer.Enters v key' inner) :
    Issued S key' inner := by
  cases h with
  | made hr hmade =>
    rw [hreverses.sourceIndex_eq] at hv
    generalize htransfer : l.transfer = transfer at henter
    cases henter with
    | record => exact hmade.issues_record hr hplan hl hfills htransfer hv
    | item hmem => exact hmade.issues_item hr hplan hl htransfer hv hmem
  | stocked hm hcalendar =>
    have henter' := (Plan.opposite_of_reverses hplan hplan' hl hl' hreverses).enters henter
    exact .stocked (hm.enter hplan' hl' hv henter') (hcalendar.enter hplan' hl' hv henter')

end Fields

end Issued

end Crosswalk
