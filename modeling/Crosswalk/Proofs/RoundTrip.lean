import Crosswalk.Proofs.Admission
import Crosswalk.Proofs.PartialWrites
import Crosswalk.Proofs.Reversal

/-!
# There and back

A record that has been converted in one direction can be converted in the other, and what comes back
agrees with the record in every linked field, at every depth (`Tier.convert_round_trip`). Two things
are lost on the way there and stand as an assumption, `Recoverable`: that a field was absent, where
its counterpart cannot be, and the part of a leap second that a timestamp carries over.

The way back never fails. A value that came across is met by the opposite link, and the opposite
transfer takes it back (`Link.Crosses.takesBack`); this goes field by field for scalars and by
induction on the nesting of the source for records.

Agreement is no equality of records. Fields without a link keep what the second destination held,
and two values that are both `nan` agree whatever their words.
-/

namespace Crosswalk

variable {S : Schema} {key : PlanKey} {plan plan' : Plan} {l l' : Link} {direction : Direction}
  {r : Record}

/-! ### What agrees -/

/-- Two values of a field agree. For records inside, the relation decides. -/
inductive FieldAgrees (S : Schema) (R : PlanKey → Record → Record → Prop) :
    Transfer → Value → Value → Prop
  | scalar {c : ScalarConversion} {presence : Presence} {v v' : Value} (h : v'.Alike S v) :
    FieldAgrees S R (.scalar c presence) v v'
  | scalarList {c : ScalarConversion} {vs vs' : List Value}
    (h : List.Forall₂ (fun v v' => Value.Alike S v' v) vs vs') :
    FieldAgrees S R (.scalarList c) (.list vs) (.list vs')
  | noRecord (key : PlanKey) : FieldAgrees S R (.nested key) .null .null
  | record {key : PlanKey} {r r' : Record} (h : R key r r') :
    FieldAgrees S R (.nested key) r.toValue r'.toValue
  | records {key : PlanKey} {rs rs' : List Record} (hlength : rs.length = rs'.length)
    (h : ∀ r r', (r, r') ∈ rs.zip rs' → R key r r') :
    FieldAgrees S R (.nestedList key) (.list (rs.map (·.toValue))) (.list (rs'.map (·.toValue)))

/-- Two records agree in every field that the plan of the key links, and the records in such a field
agree by the plan of their own pair. -/
inductive Agree (S : Schema) : PlanKey → Record → Record → Prop
  | intro {key : PlanKey} {r r' : Record} {plan : Plan} (hplan : Plan.resolve S key = .ok plan)
    (hread : ∀ l ∈ plan.links, ∃ v v', r.get? S l.sourceIndex = some v ∧
      r'.get? S l.sourceIndex = some v')
    (h : ∀ l v v', l ∈ plan.links → r.get? S l.sourceIndex = some v →
      r'.get? S l.sourceIndex = some v' → FieldAgrees S (Agree S) l.transfer v v') :
    Agree S key r r'

/-! ### What is lost on the way there -/

/-- The link makes something of the value that the value cannot be told from. -/
inductive Link.Loses (l : Link) : Value → Prop
  /-- An absent scalar is given the zero value. -/
  | absentScalar {k k' : ScalarKind} (hsource : l.sourceKind = .scalar k true)
    (htarget : l.targetKind = .scalar k' false) : Loses l .null
  /-- An absent record is given the initial one. -/
  | absentRecord {t u : TypeId} (hsource : l.sourceKind = .nested t true)
    (htarget : l.targetKind = .nested u false) : Loses l .null
  /-- The part of a leap second becomes part of the second after it. -/
  | leap {o o' : Bool} {v : Value} (hsource : l.sourceKind = .scalar .datetime o)
    (htarget : l.targetKind = .scalar .timestamp o') (hv : v.isLeap = true) : Loses l v
  | leapItem {items : List Value} {v : Value} (hsource : l.sourceKind = .scalarList .datetime)
    (htarget : l.targetKind = .scalarList .timestamp) (hmem : v ∈ items) (hv : v.isLeap = true) :
    Loses l (.list items)

/-- Nothing is lost in any linked field of any record that the conversion comes to. -/
def Recoverable (S : Schema) (key : PlanKey) (r : Record) : Prop :=
  ∀ key' inner plan l v, Reached S key r key' inner → Plan.resolve S key' = .ok plan →
    l ∈ plan.links → inner.get? S l.sourceIndex = some v → ¬ l.Loses v

theorem Recoverable.enter (h : Recoverable S key r) (hplan : Plan.resolve S key = .ok plan)
    (hl : l ∈ plan.links) {v : Value} (hv : r.get? S l.sourceIndex = some v) {key' : PlanKey}
    {inner : Record} (henter : l.transfer.Enters v key' inner) : Recoverable S key' inner :=
  fun _ _ _ _ _ hreached => h _ _ _ _ _ (.inside hplan hl hv henter hreached)

/-! ### One value -/

/-- Items that come back one by one come back together. -/
theorem exists_back {α β : Type} {R : α → β → Prop} {R' : β → α → Prop} {Q : α → α → Prop}
    {as : List α} {bs : List β} (h : List.Forall₂ R as bs)
    (hback : ∀ a ∈ as, ∀ b, R a b → ∃ a', R' b a' ∧ Q a a') :
    ∃ as', List.Forall₂ R' bs as' ∧ List.Forall₂ Q as as' := by
  induction h with
  | nil => exact ⟨[], .nil, .nil⟩
  | cons hab _ ih =>
    obtain ⟨a', hba', haa'⟩ := hback _ List.mem_cons_self _ hab
    obtain ⟨as', hbs, has⟩ := ih fun a ha => hback a (List.mem_cons_of_mem _ ha)
    exact ⟨a' :: as', .cons hba' hbs, .cons haa' has⟩

/-- The second link takes back what the first has made of the value, and what comes of it agrees
with the value. Neither of the two fields makes anything else of what is written to it. -/
def Link.TakesBack (S : Schema) (R : PlanKey → Record → Record → Prop) (l l' : Link) (v w : Value) :
    Prop :=
  ∃ v', l'.Crosses S w v' ∧ FieldAgrees S R l.transfer v v' ∧
    l.targetKind.admit? S w = some w ∧ l.sourceKind.admit? S v' = some v'

namespace Link.Crosses

variable {R : PlanKey → Record → Record → Prop} {v w : Value}

theorem takesBack_scalar {k k' : ScalarKind} {c c' : ScalarConversion} {o o' : Bool}
    (hc : ScalarConversion.Between k k' c) (hc' : ScalarConversion.Between k' k c')
    (hsource : l.sourceKind = .scalar k o) (htarget : l.targetKind = .scalar k' o')
    (htransfer : l.transfer = .scalar c (.between o o'))
    (htransfer' : l'.transfer = .scalar c' (.between o' o)) (h : l.Crosses S v w)
    (hv : v.fits S (.scalar k o) = true) (hkeep : ¬ l.Loses v) : l.TakesBack S R l' v w := by
  have hcases := h.scalar_cases htransfer hv
  simp only [TakesBack, Crosses, htransfer, htransfer', hsource, htarget]
  rcases hcases with ⟨rfl, rfl, rfl⟩ | ⟨hkind, hw⟩
  · cases o' with
    | true =>
      have hnull : Value.null.Alike S .null := .inl rfl
      exact ⟨.null, .inl ⟨rfl, rfl⟩, .scalar hnull, FieldKind.admit?_scalar (.inr ⟨rfl, rfl⟩),
        FieldKind.admit?_scalar (.inr ⟨rfl, rfl⟩)⟩
    | false => exact absurd (.absentScalar hsource htarget) hkeep
  · have hleap : k' = .timestamp → k = .datetime → v.isLeap = false := by
      rintro rfl rfl
      rw [← Bool.not_eq_true]
      exact fun hleap => hkeep (.leap hsource htarget hleap)
    obtain ⟨v', hv', halike⟩ := hc.exists_image?_back S hc' hkind hw hleap
    have hkind' := hc.scalarKind?_image? hkind hw
    have hkind'' := hc'.scalarKind?_image? hkind' hv'
    exact ⟨v', .inr ⟨Value.isNull_of_scalarKind? hkind', hv'⟩, .scalar halike,
      FieldKind.admit?_scalar (.inl hkind'), FieldKind.admit?_scalar (.inl hkind'')⟩

theorem takesBack_scalarList {k k' : ScalarKind} {c c' : ScalarConversion}
    (hc : ScalarConversion.Between k k' c) (hc' : ScalarConversion.Between k' k c')
    (hsource : l.sourceKind = .scalarList k) (htarget : l.targetKind = .scalarList k')
    (htransfer : l.transfer = .scalarList c) (htransfer' : l'.transfer = .scalarList c')
    (h : l.Crosses S v w) (hv : v.fits S (.scalarList k) = true) (hkeep : ¬ l.Loses v) :
    l.TakesBack S R l' v w := by
  obtain ⟨vs, ws, rfl, rfl, hkinds, hws⟩ := h.exists_scalars htransfer hv
  simp only [TakesBack, Crosses, htransfer, htransfer', hsource, htarget]
  obtain ⟨vs', hback, halike⟩ := exists_back (Q := fun v v' => Value.Alike S v' v) hws
    fun v hmem w hw => by
      refine hc.exists_image?_back S hc' (hkinds v hmem) hw ?_
      rintro rfl rfl
      rw [← Bool.not_eq_true]
      exact fun hleap => hkeep (.leapItem hsource htarget hmem hleap)
  have hkinds' := hc.scalarKind?_images hkinds hws
  exact ⟨.list vs', ⟨ws, vs', rfl, rfl, hback⟩, .scalarList halike, FieldKind.admit?_list hkinds',
    FieldKind.admit?_list (hc'.scalarKind?_images hkinds' hback)⟩

section Records

variable (hinner : ∀ key r r', l.transfer.Enters v key r → Made S key r r' →
  ∃ r'', Made S key.flip r' r'' ∧ R key r r'')

include hinner

theorem takesBack_nested {t u : TypeId} {o o' : Bool} (hsource : l.sourceKind = .nested t o)
    (htarget : l.targetKind = .nested u o')
    (htransfer : l.transfer = .nested (.between t u direction))
    (htransfer' : l'.transfer = .nested (.between u t direction.flip)) (h : l.Crosses S v w)
    (hv : v.fits S (.nested t o) = true) (hkeep : ¬ l.Loses v) : l.TakesBack S R l' v w := by
  rw [Crosses, htransfer] at h
  rw [htransfer] at hinner
  simp only [TakesBack, Crosses, htransfer, htransfer', hsource, htarget]
  rcases h with ⟨rfl, rfl⟩ | ⟨r, r', rfl, rfl, hmade⟩
  · obtain ⟨rfl, -⟩ | ⟨r, hr, -⟩ := Value.fits_nested.mp hv
    · cases o' with
      | true => exact ⟨.null, .inl ⟨rfl, rfl⟩, .noRecord _, rfl, rfl⟩
      | false => exact absurd (.absentRecord hsource htarget) hkeep
    · cases hr
  · obtain ⟨r'', hmade', hr''⟩ := hinner _ r r' (.record _ r) hmade
    rw [PlanKey.flip_between] at hmade'
    exact ⟨r''.toValue, .inr ⟨r', r'', rfl, rfl, hmade'⟩, .record hr'',
      FieldKind.admit?_record (by simp [hmade.type_eq]) o',
      FieldKind.admit?_record (by simp [hmade'.type_eq]) o⟩

theorem takesBack_nestedList {t u : TypeId} (hsource : l.sourceKind = .nestedList t)
    (htarget : l.targetKind = .nestedList u)
    (htransfer : l.transfer = .nestedList (.between t u direction))
    (htransfer' : l'.transfer = .nestedList (.between u t direction.flip)) (h : l.Crosses S v w) :
    l.TakesBack S R l' v w := by
  rw [Crosses, htransfer] at h
  rw [htransfer] at hinner
  simp only [TakesBack, Crosses, htransfer, htransfer', hsource, htarget]
  obtain ⟨rs, rs', rfl, rfl, hrs⟩ := h
  obtain ⟨rs'', hback, hagree⟩ := exists_back hrs fun r hr r' hmade =>
    hinner _ r r' (.item (List.mem_map_of_mem hr)) hmade
  rw [PlanKey.flip_between] at hback
  obtain ⟨hlength, hzip⟩ := List.forall₂_iff_zip.mp hagree
  have htypes := types_of_made hrs
  have htypes' := types_of_made hback
  rw [PlanKey.target_between] at htypes htypes'
  exact ⟨_, ⟨rs', rs'', rfl, rfl, hback⟩, .records hlength fun r r' hr => hzip hr,
    FieldKind.admit?_records htypes, FieldKind.admit?_records htypes'⟩

/-- **What crossed is taken back** by the opposite link, if the records inside can be made again. -/
theorem takesBack
    (hopposite : Transfer.Opposite direction l.sourceKind l.targetKind l.transfer l'.transfer)
    (h : l.Crosses S v w) (hv : v.fits S l.sourceKind = true) (hkeep : ¬ l.Loses v) :
    l.TakesBack S R l' v w := by
  generalize hsource : l.sourceKind = sourceKind at hopposite hv
  generalize htarget : l.targetKind = targetKind at hopposite
  generalize htransfer : l.transfer = transfer at hopposite
  generalize htransfer' : l'.transfer = transfer' at hopposite
  cases hopposite with
  | scalar hc hc' o o' =>
    exact h.takesBack_scalar hc hc' hsource htarget htransfer htransfer' hv hkeep
  | scalarList hc hc' =>
    exact h.takesBack_scalarList hc hc' hsource htarget htransfer htransfer' hv hkeep
  | nested t u o o' => exact takesBack_nested hinner hsource htarget htransfer htransfer' h hv hkeep
  | nestedList t u => exact takesBack_nestedList hinner hsource htarget htransfer htransfer' h
  | impossible source target =>
    rw [Crosses, htransfer] at h
    exact h.elim

end Records

end Link.Crosses

/-! ### One record -/

/-- What a carried out link has read and what it has left. -/
theorem CarriedOut.exists_crosses {src dst left : Record} {links : List Link}
    (h : CarriedOut S .naive src links dst left) (hplan : Plan.resolve S key = .ok plan)
    (hsrc : Source S key src) (hdst : dst.type = key.target) (hl : l ∈ links)
    (hmem : l ∈ plan.links) :
    ∃ v w cell, src.get? S l.sourceIndex = some v ∧ l.Crosses S v w ∧
      l.targetKind.admit? S w = some cell ∧ left.get? S l.targetIndex = some cell := by
  obtain ⟨cell, harrival, hleft⟩ := h.arrived l hl
  rw [hdst, Tier.arrival, map_eq_ok_iff] at harrival
  obtain ⟨p, heffect, rfl⟩ := harrival
  obtain ⟨v, w, cell, hv, hcrosses, hcell, rfl⟩ :=
    (Tier.effect_eq_ok_iff hplan hmem hsrc).mp heffect
  exact ⟨v, w, cell, hv, hcrosses, hcell, hleft⟩

/-- What a value crosses to is determined. -/
theorem Link.Crosses.unique
    (hsuits : Transfer.Suits direction l.sourceKind l.targetKind l.transfer) {v w w' : Value}
    (hv : v.fits S l.sourceKind = true) (h : l.Crosses S v w) (h' : l.Crosses S v w') : w = w' := by
  rw [← Tier.image_eq_ok_iff hsuits hv] at h h'
  exact Except.ok.inj (h.symm.trans h')

/-- Both records have the linked fields, and agree in each of them. -/
theorem Agree.of_fields {r' : Record} (hplan : Plan.resolve S key = .ok plan)
    (h : ∀ l ∈ plan.links, ∃ v v', r.get? S l.sourceIndex = some v ∧
      r'.get? S l.sourceIndex = some v' ∧ FieldAgrees S (Agree S) l.transfer v v') :
    Agree S key r r' := by
  refine .intro hplan ?_ ?_
  · intro l hl
    obtain ⟨v, v', hv, hv', -⟩ := h l hl
    exact ⟨v, v', hv, hv'⟩
  · intro l v v' hl hv hv'
    obtain ⟨v₁, v₁', hv₁, hv₁', hagrees⟩ := h l hl
    obtain rfl : v = v₁ := Option.some.inj (hv.symm.trans hv₁)
    obtain rfl : v' = v₁' := Option.some.inj (hv'.symm.trans hv₁')
    exact hagrees

/-- What a conversion has made of a source is a source for the way back. -/
theorem Source.flip {m₀ m : Record} (h : Source S key r) (hm₀ : m₀.type = key.target)
    (hfits : m₀.fits S = true) (hforth : Tier.naive.outcome S key r m₀ = ⟨.ok (), m⟩) :
    Source S key.flip m := by
  have htype := Tier.type_outcome S .naive key r m₀
  have hmfits := Tier.outcome_fits h hm₀ hfits
  rw [hforth] at htype hmfits
  refine ⟨?_, hmfits, by simpa using h.target_ordinary, by simpa using h.source_ordinary⟩
  rw [PlanKey.source_flip, ← hm₀]
  exact htype

/-- What has been made is a source for the way back. -/
theorem Made.source_flip {m : Record} (h : Made S key r m) (hr : Source S key r) :
    Source S key.flip m :=
  hr.flip rfl (Record.initial_fits hr.target_ordinary) h

/-- What has been made came of carrying out every link on an initial record. -/
theorem Made.carriedOut {m : Record} (h : Made S key r m) (hplan : Plan.resolve S key = .ok plan)
    (hr : Source S key r) : CarriedOut S .naive r plan.links (.initial S key.target) m := by
  have hdone := Tier.carriedOut_of_ok hplan hr.type_eq rfl (hr.target_ordinary.plain_decl rfl)
    (Record.whole_initial key.target) (congrArg Outcome.result h)
  rwa [h] at hdone

/-- The value that the second link takes from the model agrees with the one that the first link has
read in the record. -/
structure Link.Returns (S : Schema) (r m : Record) (l l' : Link) (v' : Value) : Prop where
  agrees : ∃ v, r.get? S l.sourceIndex = some v ∧ FieldAgrees S (Agree S) l.transfer v v'
  crosses : ∃ w, m.get? S l'.sourceIndex = some w ∧ l'.Crosses S w v'
  admit?_eq : l'.targetKind.admit? S v' = some v'

/-- A carried out link has one that returns what it brought, if the records inside return. -/
theorem CarriedOut.exists_returns {m₀ m : Record} (h : CarriedOut S .naive r plan.links m₀ m)
    (hplan : Plan.resolve S key = .ok plan) (hplan' : Plan.resolve S key.flip = .ok plan')
    (hr : Source S key r) (hm₀ : m₀.type = key.target) (hkeep : Recoverable S key r)
    (hinner : ∀ l ∈ plan.links, ∀ v, r.get? S l.sourceIndex = some v → ∀ key' inner inner',
      l.transfer.Enters v key' inner → Made S key' inner inner' →
        ∃ inner'', Made S key'.flip inner' inner'' ∧ Agree S key' inner inner'')
    (hl : l ∈ plan.links) (hl' : l' ∈ plan'.links) (hreverses : l.Reverses l') :
    ∃ v', l.Returns S r m l' v' := by
  obtain ⟨v, w, cell, hv, hcrosses, hcell, hleft⟩ := h.exists_crosses hplan hr hm₀ hl hl
  obtain ⟨source, target, hj⟩ := Plan.exists_joins hplan hl
  have hopposite := Plan.opposite_of_reverses hplan hplan' hl hl' hreverses
  obtain ⟨v', hcrosses', hagrees, hkept, hkept'⟩ :=
    Link.Crosses.takesBack (hinner l hl v hv) hopposite hcrosses
      (hj.fits_of_get? hr.type_eq hr.fits hv) (hkeep _ _ _ _ _ (.here key r) hplan hl hv)
  rw [hkept] at hcell
  cases hcell
  rw [← hreverses.sourceIndex_eq] at hleft
  rw [← hreverses.targetKind_eq] at hkept'
  exact ⟨v', ⟨v, hv, hagrees⟩, ⟨w, hleft, hcrosses'⟩, hkept'⟩

/-- What a link returns is what it leaves, once it has been carried out. -/
theorem Link.Returns.get?_eq {m w₀ w' : Record} {v' : Value} (h : l.Returns S r m l' v')
    (hdone : CarriedOut S .naive m plan'.links w₀ w') (hplan' : Plan.resolve S key = .ok plan')
    (hm : Source S key m) (hw₀ : w₀.type = key.target) (hl' : l' ∈ plan'.links) :
    w'.get? S l'.targetIndex = some v' := by
  obtain ⟨w, hread, hcrosses⟩ := h.crosses
  obtain ⟨w₁, v₁, cell, hread₁, hcrosses₁, hcell, hleft⟩ :=
    hdone.exists_crosses hplan' hm hw₀ hl' hl'
  obtain ⟨source, target, hj⟩ := Plan.exists_joins hplan' hl'
  obtain rfl : w = w₁ := Option.some.inj (hread.symm.trans hread₁)
  obtain rfl : v' = v₁ :=
    hcrosses.unique hj.suits (hj.fits_of_get? hm.type_eq hm.fits hread) hcrosses₁
  obtain rfl : v' = cell := Option.some.inj (h.admit?_eq.symm.trans hcell)
  exact hleft

/-- **A conversion that loses nothing can be undone.** By induction on the nesting of the source:
the records in its fields come back by the plans for the other direction of their own pairs. -/
theorem Tier.outcome_round_trip {w m₀ m w₀ : Record} (hw : Source S key w)
    (hm₀ : m₀.type = key.target) (hfits : m₀.fits S = true)
    (hforth : naive.outcome S key w m₀ = ⟨.ok (), m⟩) (hkeep : Recoverable S key w)
    (hw₀ : w₀.type = key.source) (hwhole : w₀.Whole S) :
    ∃ w', naive.outcome S key.flip m w₀ = ⟨.ok (), w'⟩ ∧ Agree S key w w' := by
  induction w using Record.nestedInduction generalizing key m₀ m w₀ with
  | step r ih =>
    have hm : Source S key.flip m := hw.flip hm₀ hfits hforth
    have hw₀' : w₀.type = key.flip.target := by rw [PlanKey.target_flip, hw₀]
    obtain ⟨plan, hplan, -⟩ := (outcome_ok_iff hw hm₀).mp (by rw [hforth])
    obtain ⟨plan', hplan'⟩ := Plan.exists_resolve_flip hplan
    have hthere : CarriedOut S naive r plan.links m₀ (naive.outcome S key r m₀).target :=
      carriedOut_of_ok hplan hw.type_eq hm₀ (hw.target_ordinary.plain_decl hm₀)
        (Record.whole_of_fits hfits) (by rw [hforth])
    rw [hforth] at hthere
    have hinner : ∀ l ∈ plan.links, ∀ v, r.get? S l.sourceIndex = some v → ∀ key' inner inner',
        l.transfer.Enters v key' inner → Made S key' inner inner' →
          ∃ inner'', Made S key'.flip inner' inner'' ∧ Agree S key' inner inner'' := by
      intro l hl v hv key' inner inner' henter hmade
      have hsource := hw.enter hplan hl hv henter
      have hstart : (Record.initial S key'.flip.target).Whole S :=
        Record.whole_of_fits (Record.initial_fits (by simpa using hsource.source_ordinary))
      exact ih v (Record.mem_cells_of_get? hv) inner henter.holds hsource rfl
        (Record.initial_fits hsource.target_ordinary) hmade (hkeep.enter hplan hl hv henter)
        (by simp [Record.initial]) hstart
    have hreturns : ∀ l ∈ plan.links, ∀ l' ∈ plan'.links, l.Reverses l' →
        ∃ v', l.Returns S r m l' v' := fun l hl l' hl' hreverses =>
      hthere.exists_returns hplan hplan' hw hm₀ hkeep hinner hl hl' hreverses
    have hok : (naive.outcome S key.flip m w₀).result = .ok () := by
      rw [outcome_ok_iff hm hw₀']
      refine ⟨plan', hplan', fun l' hl' => ?_⟩
      obtain ⟨l, hl, hreverses⟩ := Plan.exists_reversed hplan hplan' hl'
      obtain ⟨v', hreturned⟩ := hreturns l hl l' hl' hreverses
      obtain ⟨w, hread, hcrosses⟩ := hreturned.crosses
      exact ⟨w, v', hread, hcrosses⟩
    have hback : CarriedOut S naive m plan'.links w₀ (naive.outcome S key.flip m w₀).target :=
      carriedOut_of_ok hplan' hm.type_eq hw₀' (hw.source_ordinary.plain_decl hw₀) hwhole hok
    refine ⟨(naive.outcome S key.flip m w₀).target, by rw [← hok], .of_fields hplan fun l hl => ?_⟩
    obtain ⟨l', hl', hreverses⟩ := Plan.exists_reverse hplan hplan' hl
    obtain ⟨v', hreturned⟩ := hreturns l hl l' hl' hreverses
    obtain ⟨v, hv, hagrees⟩ := hreturned.agrees
    have hleft := hreturned.get?_eq hback hplan' hm hw₀' hl'
    rw [hreverses.targetIndex_eq] at hleft
    exact ⟨v, v', hv, hleft, hagrees⟩

/-! ### Whole conversions -/

namespace Parcels

theorem links_place {plan : Plan}
    (h : Plan.resolve schema (.between ⟨1⟩ ⟨3⟩ .toModel) = .ok plan) : plan.links =
      [⟨"city", 0, 0, .scalar .string false, .scalar .string true, .scalar .identity .wrap⟩,
        ⟨"within", 1, 1, .nested ⟨1⟩ true, .nested ⟨3⟩ true,
          .nested (.between ⟨1⟩ ⟨3⟩ .toModel)⟩] := by
  obtain ⟨-, -, rfl⟩ := Plan.resolve_eq_ok_iff.mp h
  decide

theorem links_parcel {plan : Plan}
    (h : Plan.resolve schema (.between ⟨0⟩ ⟨2⟩ .toModel) = .ok plan) : plan.links =
      [⟨"codes", 3, 0, .scalarList .i64, .scalarList .i32, .scalarList (.narrow .i64 .i32)⟩,
        ⟨"from", 4, 1, .nested ⟨1⟩ true, .nested ⟨3⟩ false, .nested (.between ⟨1⟩ ⟨3⟩ .toModel)⟩,
        ⟨"weight", 0, 2, .scalar .i32 false, .scalar .f64 false, .scalar (.widen .i32 .f64) .same⟩,
        ⟨"price", 1, 3, .scalar .f64 true, .scalar .f32 false,
          .scalar (.narrow .f64 .f32) .unwrap⟩,
        ⟨"sent", 2, 4, .scalar .timestamp false, .scalar .datetime true,
          .scalar (.timeCodec .timestamp .datetime) .wrap⟩,
        ⟨"stops", 5, 5, .nestedList ⟨1⟩, .nestedList ⟨3⟩,
          .nestedList (.between ⟨1⟩ ⟨3⟩ .toModel)⟩] := by
  obtain ⟨-, -, rfl⟩ := Plan.resolve_eq_ok_iff.mp h
  decide

/-- Places lose nothing: what is optional stays so, and there is no time in them. -/
theorem recoverable_place (r : Record) : Recoverable schema (.between ⟨1⟩ ⟨3⟩ .toModel) r := by
  have hkey : ∀ key key' r inner, Reached schema key r key' inner →
      key = .between ⟨1⟩ ⟨3⟩ .toModel → key' = .between ⟨1⟩ ⟨3⟩ .toModel := by
    intro key key' r inner hreached
    induction hreached with
    | here => exact id
    | inside hplan hl _ henter _ ih =>
      rintro rfl
      rw [links_place hplan] at hl
      simp only [List.mem_cons, List.not_mem_nil, or_false] at hl
      rcases hl with rfl | rfl
      · cases henter
      · cases henter
        exact ih rfl
  intro key' inner plan l v hreached hplan hl _ hloses
  obtain rfl := hkey _ _ _ _ hreached rfl
  rw [links_place hplan] at hl
  simp only [List.mem_cons, List.not_mem_nil, or_false] at hl
  rcases hl with rfl | rfl <;> cases hloses <;> simp_all

/-- The parcel has a price and a place that it is from, which models require. -/
theorem recoverable_parcel : Recoverable schema (.between ⟨0⟩ ⟨2⟩ .toModel) parcel := by
  intro key' inner plan l v hreached hplan hl hv hloses
  cases hreached with
  | here =>
    rw [links_parcel hplan] at hl
    simp only [List.mem_cons, List.not_mem_nil, or_false] at hl
    have hfrom : parcel.get? schema 4 = some yard := rfl
    have hprice : parcel.get? schema 1 = some (.f64 ⟨0x3FF8000000000000⟩) := rfl
    rcases hl with rfl | rfl | rfl | rfl | rfl | rfl <;> cases hloses <;> simp_all [yard]
  | inside hplan' hl' _ henter hreached =>
    rw [links_parcel hplan'] at hl'
    simp only [List.mem_cons, List.not_mem_nil, or_false] at hl'
    rcases hl' with rfl | rfl | rfl | rfl | rfl | rfl <;> cases henter <;>
      exact recoverable_place _ _ _ _ _ _ hreached hplan hl hv hloses

end Parcels

/-- **There and back.** Between ordinary types, in any tiers, and whatever was asked for before: if
a record has been converted and nothing was lost, then what came of it is converted back into any
record of the first type, and the two agree in every linked field at every depth. -/
theorem Tier.convert_round_trip (S : Schema) (forth back : Tier) (direction : Direction)
    (w m₀ m w₀ : Record) (history history' : List Store.Request) (hw : S.Ordinary w.type)
    (hm₀ : S.Ordinary m₀.type) (hwFits : w.fits S = true) (hm₀Fits : m₀.fits S = true)
    (hw₀ : w₀.type = w.type) (hwhole : w₀.Whole S)
    (hforth : (forth.convert S (some w) (some m₀) direction (Store.after S history)).1 =
      (.ok (), some m))
    (hkeep : Recoverable S (.between w.type m₀.type direction) w) :
    ∃ w', (back.convert S (some m) (some w₀) direction.flip (Store.after S history')).1 =
        (.ok (), some w') ∧ Agree S (.between w.type m₀.type direction) w w' := by
  have hsource : Source S (.between w.type m₀.type direction) w :=
    ⟨by simp, hwFits, by simpa using hw, by simpa using hm₀⟩
  have htarget : m₀.type = (PlanKey.between w.type m₀.type direction).target := by simp
  rw [convert_after, agreesOn_of_fits forth hwFits _ m₀ (by simp) htarget, Prod.mk.injEq,
    Option.some.injEq] at hforth
  have houtcome : naive.outcome S (.between w.type m₀.type direction) w m₀ = ⟨.ok (), m⟩ := by
    rw [← hforth.1, ← hforth.2]
  obtain ⟨w', hback, hagree⟩ :=
    outcome_round_trip hsource htarget hm₀Fits houtcome hkeep (by simpa using hw₀) hwhole
  have hmtype : m.type = m₀.type := by rw [← hforth.2, type_outcome]
  have hmfits : m.fits S = true := by
    rw [← hforth.2]
    exact outcome_fits hsource htarget hm₀Fits
  refine ⟨w', ?_, hagree⟩
  rw [PlanKey.flip_between] at hback
  rw [convert_after, agreesOn_of_fits back hmfits _ w₀ (by simp) (by simp), hmtype, hw₀, hback]

/-- The parcel there and back, in different tiers: numbers are narrowed and widened, the time is
read and written, and places come back at every depth. -/
theorem Tier.convert_parcel_round_trip :
    ((Record.initial Parcels.schema ⟨2⟩).fits Parcels.schema = true ∧
      (Record.initial Parcels.schema ⟨0⟩).Whole Parcels.schema ∧
      Recoverable Parcels.schema (.between ⟨0⟩ ⟨2⟩ .toModel) Parcels.parcel) ∧
      ∃ m w', (naive.convert Parcels.schema (some Parcels.parcel)
          (some (.initial Parcels.schema ⟨2⟩)) .toModel (Store.after Parcels.schema [])).1 =
            (.ok (), some m) ∧
        (compiled.convert Parcels.schema (some m) (some (.initial Parcels.schema ⟨0⟩)) .toWire
          (Store.after Parcels.schema [])).1 = (.ok (), some w') ∧
        Agree Parcels.schema (.between ⟨0⟩ ⟨2⟩ .toModel) Parcels.parcel w' := by
  have hfits : Parcels.parcel.fits Parcels.schema = true := by decide
  have hinitial := Record.initial_fits (Parcels.ordinary ⟨2⟩)
  have hwhole := Record.whole_of_fits (Record.initial_fits (Parcels.ordinary ⟨0⟩))
  have hok : (naive.convert Parcels.schema (some Parcels.parcel)
      (some (.initial Parcels.schema ⟨2⟩)) .toModel (Store.after Parcels.schema [])).1.1 =
        .ok () := by decide +kernel
  obtain ⟨m, hm⟩ : ∃ m, (naive.convert Parcels.schema (some Parcels.parcel)
      (some (.initial Parcels.schema ⟨2⟩)) .toModel (Store.after Parcels.schema [])).1.2 =
        some m := by
    rw [convert_after]
    exact ⟨_, rfl⟩
  have hforth : (naive.convert Parcels.schema (some Parcels.parcel)
      (some (.initial Parcels.schema ⟨2⟩)) .toModel (Store.after Parcels.schema [])).1 =
        (.ok (), some m) := Prod.ext hok hm
  obtain ⟨w', hback, hagree⟩ := convert_round_trip Parcels.schema naive compiled .toModel
    Parcels.parcel (.initial Parcels.schema ⟨2⟩) m (.initial Parcels.schema ⟨0⟩) [] []
    (Parcels.ordinary _) (Parcels.ordinary _) hfits hinitial rfl hwhole hforth
    Parcels.recoverable_parcel
  exact ⟨⟨hinitial, hwhole, Parcels.recoverable_parcel⟩, m, w', hforth, hback, hagree⟩

end Crosswalk
