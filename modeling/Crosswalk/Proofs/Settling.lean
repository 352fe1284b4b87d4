import Crosswalk.Proofs.Instants
import Crosswalk.Proofs.RoundTrip

/-!
# What comes back crosses as before

A value that crosses and comes back need not be the value that it was. A `nan` comes back with its
own word, a negative zero as a positive one, a leap second as part of the second after it, and what
was absent may come back as a zero value. But what comes back crosses as before: it makes the very
value again from which it came back.

`Link.Crosses.exists_settles` is that there is such a value, for whatever has crossed. Two things
are left to assume. No absent record is turned into a required one, and no instant is written as a
timestamp that is too late to be read: the link does not *overrun* (`Link.Overruns`). About the
records inside a value it is assumed that they settle themselves.
-/

namespace Crosswalk

variable {S : Schema} {key : PlanKey} {l l' : Link} {direction : Direction} {v w cell : Value}

/-- The link writes an instant in the value as a timestamp that is past the end of the calendar. -/
inductive Link.Overruns (l : Link) : Value → Prop
  | instant {o o' : Bool} {d : DateTime} (hsource : l.sourceKind = .scalar .datetime o)
    (htarget : l.targetKind = .scalar .timestamp o') (hd : d.EndsCalendar) :
    Overruns l (.datetime d)
  | item {items : List Value} {d : DateTime} (hsource : l.sourceKind = .scalarList .datetime)
    (htarget : l.targetKind = .scalarList .timestamp) (hmem : .datetime d ∈ items)
    (hd : d.EndsCalendar) : Overruns l (.list items)

/-- A scalar that has a counterpart has one again in the kind that it came from, and that one has
the same counterpart. Only the end of the calendar is an exception. -/
theorem ScalarConversion.Between.exists_image?_settles (S : Schema) {k k' : ScalarKind}
    {c c' : ScalarConversion} (hc : Between k k' c) (hc' : Between k' k c')
    (hkind : v.scalarKind? = some k) (hw : c.image? v = some w)
    (hends : k = .datetime → k' = .timestamp → ∀ d, v = .datetime d → ¬ d.EndsCalendar) :
    ∃ v', c'.image? w = some v' ∧ c.image? v' = some w := by
  suffices h : ∃ v', c'.image? w = some v' by
    obtain ⟨v', hv'⟩ := h
    exact ⟨v', hv', hc.image?_of_back hc' hkind hw hv'⟩
  by_cases htimes : k' = .timestamp ∧ k = .datetime
  · obtain ⟨rfl, rfl⟩ := htimes
    cases v <;> cases hkind
    rw [hc.image?_eq (by decide), Value.coerce?_datetime, Option.some.injEq] at hw
    obtain ⟨d', hd'⟩ := (Timestamp.exists_toDateTime_ofDateTime_iff _).mpr (hends rfl rfl _ rfl)
    rw [hc'.image?_eq (by decide), ← hw]
    exact ⟨_, Value.coerce?_timestamp_eq_some_iff.mpr ⟨d', hd', rfl⟩⟩
  · have hleap : k' = .timestamp → k = .datetime → v.isLeap = false :=
      fun hk' hk => absurd ⟨hk', hk⟩ htimes
    obtain ⟨v', hv', -⟩ := hc.exists_image?_back S hc' hkind hw hleap
    exact ⟨v', hv'⟩

/-- Items that settle one by one settle together. -/
theorem exists_settled {α β : Type} {R : α → β → Prop} {R' : β → α → Prop} {as : List α}
    {bs : List β} (h : List.Forall₂ R as bs)
    (hsettles : ∀ a ∈ as, ∀ b, R a b → ∃ a', R' b a' ∧ R a' b) :
    ∃ as', List.Forall₂ R' bs as' ∧ List.Forall₂ R as' bs := by
  induction h with
  | nil => exact ⟨[], .nil, .nil⟩
  | cons hab _ ih =>
    obtain ⟨a', hba', hagain⟩ := hsettles _ List.mem_cons_self _ hab
    obtain ⟨as', hbs, has⟩ := ih fun a ha => hsettles a (List.mem_cons_of_mem _ ha)
    exact ⟨a' :: as', .cons hba' hbs, .cons hagain has⟩

/-- From what a link has left in its target field, the opposite link makes a value of which the link
makes the same again. Both fields take these as they are. -/
structure Link.Settles (S : Schema) (l l' : Link) (cell v' : Value) : Prop where
  crosses_back : l'.Crosses S cell v'
  admit?_back : l'.targetKind.admit? S v' = some v'
  crosses : l.Crosses S v' cell
  admit?_eq : l.targetKind.admit? S cell = some cell

/-- What the target field takes as it is, it has been left with. -/
theorem Link.Settles.of_admit? {v' : Value} (hcell : l.targetKind.admit? S w = some cell)
    (hkept : l.targetKind.admit? S w = some w) (hback : l'.Crosses S w v')
    (hkept' : l'.targetKind.admit? S v' = some v') (h : l.Crosses S v' w) :
    l.Settles S l' cell v' := by
  obtain rfl : w = cell := Option.some.inj (hkept.symm.trans hcell)
  exact ⟨hback, hkept', h, hkept⟩

/-- Between scalar fields that is so where the two conversions make the scalars of each other. -/
theorem Link.Settles.of_scalars {k k' : ScalarKind} {c c' : ScalarConversion}
    {o o' : Bool} {presence presence' : Presence} {v' : Value}
    (hsource : l'.targetKind = .scalar k o) (htarget : l.targetKind = .scalar k' o')
    (htransfer : l.transfer = .scalar c presence) (htransfer' : l'.transfer = .scalar c' presence')
    (hcell : l.targetKind.admit? S w = some cell) (hw : w.scalarKind? = some k')
    (hv' : v'.scalarKind? = some k) (hback : c'.image? w = some v')
    (hagain : c.image? v' = some w) : l.Settles S l' cell v' := by
  refine .of_admit? hcell ?_ ?_ ?_ ?_
  · rw [htarget]
    exact FieldKind.admit?_scalar (.inl hw)
  · rw [Crosses, htransfer']
    exact .inr ⟨Value.isNull_of_scalarKind? hw, hback⟩
  · rw [hsource]
    exact FieldKind.admit?_scalar (.inl hv')
  · rw [Crosses, htransfer]
    exact .inr ⟨Value.isNull_of_scalarKind? hv', hagain⟩

namespace Link.Crosses

variable (htarget' : l'.targetKind = l.sourceKind) (h : l.Crosses S v w)
  (hcell : l.targetKind.admit? S w = some cell)

include htarget' h hcell

section Scalars

variable {k k' : ScalarKind} {c c' : ScalarConversion} (hc : ScalarConversion.Between k k' c)
  (hc' : ScalarConversion.Between k' k c')

include hc hc'

theorem settles_scalar {o o' : Bool} (hsource : l.sourceKind = .scalar k o)
    (htarget : l.targetKind = .scalar k' o') (htransfer : l.transfer = .scalar c (.between o o'))
    (htransfer' : l'.transfer = .scalar c' (.between o' o))
    (hv : v.fits S (.scalar k o) = true) (hends : ¬ l.Overruns v) :
    ∃ v', l.Settles S l' cell v' := by
  have hsource' := htarget'.trans hsource
  rcases h.scalar_cases htransfer hv with ⟨rfl, rfl, rfl⟩ | ⟨hkind, hw⟩
  -- An absence comes back as it is or, where it cannot, there is a zero value on either side.
  · cases o' with
    | true =>
      refine ⟨.null, .of_admit? hcell ?_ ?_ ?_ h⟩
      · rw [htarget]
        exact FieldKind.admit?_scalar (.inr ⟨rfl, rfl⟩)
      · rw [Crosses, htransfer']
        exact .inl ⟨rfl, rfl⟩
      · rw [hsource']
        exact FieldKind.admit?_scalar (.inr ⟨rfl, rfl⟩)
    | false =>
      have hzero : l.absentScalar (.between true false) = .zero k' := absentScalar_unwrap htarget
      rw [hzero] at hcell
      exact ⟨.zero k, .of_scalars hsource' htarget htransfer htransfer' hcell
        (Value.scalarKind?_zero k') (Value.scalarKind?_zero k) hc'.image?_zero hc.image?_zero⟩
  · obtain ⟨v', hv', hagain⟩ := hc.exists_image?_settles S hc' hkind hw
      fun hk hk' d hd hd' => hends (hd ▸ .instant (hk ▸ hsource) (hk' ▸ htarget) hd')
    have hkind' := hc.scalarKind?_image? hkind hw
    exact ⟨v', .of_scalars hsource' htarget htransfer htransfer' hcell hkind'
      (hc'.scalarKind?_image? hkind' hv') hv' hagain⟩

theorem settles_scalarList (hsource : l.sourceKind = .scalarList k)
    (htarget : l.targetKind = .scalarList k') (htransfer : l.transfer = .scalarList c)
    (htransfer' : l'.transfer = .scalarList c') (hv : v.fits S (.scalarList k) = true)
    (hends : ¬ l.Overruns v) : ∃ v', l.Settles S l' cell v' := by
  obtain ⟨vs, ws, rfl, rfl, hkinds, hws⟩ := h.exists_scalars htransfer hv
  have hkinds' := hc.scalarKind?_images hkinds hws
  have hsettles (v : Value) (hmem : v ∈ vs) (w : Value) (hw : c.image? v = some w) :
      ∃ v', c'.image? w = some v' ∧ c.image? v' = some w :=
    hc.exists_image?_settles S hc' (hkinds v hmem) hw fun hk hk' d hd hd' =>
      hends (.item (hk ▸ hsource) (hk' ▸ htarget) (hd ▸ hmem) hd')
  obtain ⟨vs', hback, hagain⟩ := exists_settled hws hsettles
  refine ⟨.list vs', .of_admit? hcell ?_ ?_ ?_ ?_⟩
  · rw [htarget]
    exact FieldKind.admit?_list hkinds'
  · rw [Crosses, htransfer']
    exact ⟨ws, vs', rfl, rfl, hback⟩
  · rw [htarget', hsource]
    exact FieldKind.admit?_list (hc'.scalarKind?_images hkinds' hback)
  · rw [Crosses, htransfer]
    exact ⟨vs', ws, rfl, rfl, hagain⟩

end Scalars

section Records

variable (hinside : ∀ key r m, l.transfer.Enters v key r → Made S key r m →
  ∃ r', Made S key.flip m r' ∧ Made S key r' m)

include hinside

theorem settles_nested {t u : TypeId} {o o' : Bool} (hsource : l.sourceKind = .nested t o)
    (htarget : l.targetKind = .nested u o')
    (htransfer : l.transfer = .nested (.between t u direction))
    (htransfer' : l'.transfer = .nested (.between u t direction.flip))
    (hv : v.fits S (.nested t o) = true) (hrequired : o = true → o' = true) :
    ∃ v', l.Settles S l' cell v' := by
  have hcrosses := h
  rw [Crosses, htransfer] at hcrosses
  rw [htransfer] at hinside
  rcases hcrosses with ⟨rfl, rfl⟩ | ⟨r, m, rfl, rfl, hmade⟩
  · obtain ⟨rfl, -⟩ | ⟨r, hr, -⟩ := Value.fits_nested.mp hv
    · obtain rfl := hrequired rfl
      refine ⟨.null, .of_admit? hcell (by rw [htarget]; rfl) ?_ ?_ h⟩
      · rw [Crosses, htransfer']
        exact .inl ⟨rfl, rfl⟩
      · rw [htarget', hsource]
        rfl
    · cases hr
  · obtain ⟨r', hr', hagain⟩ := hinside _ r m (.record _ r) hmade
    rw [PlanKey.flip_between] at hr'
    refine ⟨r'.toValue, .of_admit? hcell ?_ ?_ ?_ ?_⟩
    · rw [htarget]
      exact FieldKind.admit?_record (by simp [hmade.type_eq]) o'
    · rw [Crosses, htransfer']
      exact .inr ⟨m, r', rfl, rfl, hr'⟩
    · rw [htarget', hsource]
      exact FieldKind.admit?_record (by simp [hr'.type_eq]) o
    · rw [Crosses, htransfer]
      exact .inr ⟨r', m, rfl, rfl, hagain⟩

theorem settles_nestedList {t u : TypeId} (hsource : l.sourceKind = .nestedList t)
    (htarget : l.targetKind = .nestedList u)
    (htransfer : l.transfer = .nestedList (.between t u direction))
    (htransfer' : l'.transfer = .nestedList (.between u t direction.flip)) :
    ∃ v', l.Settles S l' cell v' := by
  rw [Crosses, htransfer] at h
  rw [htransfer] at hinside
  obtain ⟨rs, ms, rfl, rfl, hms⟩ := h
  obtain ⟨rs', hback, hagain⟩ := exists_settled hms fun r hr m hmade =>
    hinside _ r m (.item (List.mem_map_of_mem hr)) hmade
  rw [PlanKey.flip_between] at hback
  have htypes := types_of_made hms
  have htypes' := types_of_made hback
  rw [PlanKey.target_between] at htypes htypes'
  refine ⟨.list (rs'.map (·.toValue)), .of_admit? hcell ?_ ?_ ?_ ?_⟩
  · rw [htarget]
    exact FieldKind.admit?_records htypes
  · rw [Crosses, htransfer']
    exact ⟨ms, rs', rfl, rfl, hback⟩
  · rw [htarget', hsource]
    exact FieldKind.admit?_records htypes'
  · rw [Crosses, htransfer]
    exact ⟨rs', ms, rfl, rfl, hagain⟩

/-- **What has crossed settles**, if what is inside does, nothing is written past the end of the
calendar and no absent record turns into a required one. -/
theorem exists_settles
    (hopposite : Transfer.Opposite direction l.sourceKind l.targetKind l.transfer l'.transfer)
    (hv : v.fits S l.sourceKind = true) (hends : ¬ l.Overruns v)
    (hrequired : ∀ t u, l.targetKind = .nested u false → l.sourceKind ≠ .nested t true) :
    ∃ v', l.Settles S l' cell v' := by
  generalize hsource : l.sourceKind = sourceKind at hopposite hv
  generalize htarget : l.targetKind = targetKind at hopposite
  generalize htransfer : l.transfer = transfer at hopposite
  generalize htransfer' : l'.transfer = transfer' at hopposite
  cases hopposite with
  | scalar hc hc' o o' =>
    exact settles_scalar htarget' h hcell hc hc' hsource htarget htransfer htransfer' hv hends
  | scalarList hc hc' =>
    exact settles_scalarList htarget' h hcell hc hc' hsource htarget htransfer htransfer' hv hends
  | nested t u o o' =>
    have hkept : o = true → o' = true := by
      rintro rfl
      rw [← Bool.not_eq_false]
      rintro rfl
      exact hrequired _ _ htarget hsource
    exact settles_nested htarget' h hcell hinside hsource htarget htransfer htransfer' hv hkept
  | nestedList t u =>
    exact settles_nestedList htarget' h hcell hinside hsource htarget htransfer htransfer'
  | impossible =>
    rw [Crosses, htransfer] at h
    exact h.elim

end Records

end Link.Crosses

end Crosswalk
