import Crosswalk.Proofs.LinkEffects

/-!
# What a conversion comes to

A conversion of a record leads to conversions of the records inside it, each by the plan of its own
pair of types. `Reached` says which records these are and by which key each of them is converted. It
goes by what the linked fields of the source hold, and so says nothing about how far a conversion
gets before it fails.

`Source` is what is assumed of a record that is to be converted, and it is handed on to every record
inside (`Source.enter`).
-/

namespace Crosswalk

variable {S : Schema} {key key' : PlanKey} {plan : Plan} {l : Link} {r inner : Record} {v : Value}

/-- A value that crosses by the transfer holds the record, which then is converted by the key. -/
inductive Transfer.Enters : Transfer → Value → PlanKey → Record → Prop
  | record (key : PlanKey) (r : Record) : Enters (.nested key) r.toValue key r
  | item {key : PlanKey} {items : List Value} {r : Record} (h : r.toValue ∈ items) :
    Enters (.nestedList key) (.list items) key r

/-- Converting the first record by the first key comes to the second record and the second key. -/
inductive Reached (S : Schema) : PlanKey → Record → PlanKey → Record → Prop
  | here (key : PlanKey) (r : Record) : Reached S key r key r
  | inside {key : PlanKey} {r : Record} {plan : Plan} {l : Link} {v : Value} {key' : PlanKey}
    {inner : Record} {key'' : PlanKey} {r'' : Record} (hplan : Plan.resolve S key = .ok plan)
    (hl : l ∈ plan.links) (hv : r.get? S l.sourceIndex = some v)
    (henter : l.transfer.Enters v key' inner) (h : Reached S key' inner key'' r'') :
    Reached S key r key'' r''

/-- The record can be converted by the key: it is of the source type and fits it, and the two types
are ordinary ones. -/
structure Source (S : Schema) (key : PlanKey) (r : Record) : Prop where
  type_eq : r.type = key.source
  fits : r.fits S = true
  source_ordinary : S.Ordinary key.source
  target_ordinary : S.Ordinary key.target

theorem Transfer.Enters.holds {t : Transfer} (h : t.Enters v key r) : v.Holds r := by
  cases h with
  | record => exact Value.holds_self r
  | item h => exact Value.holds_item h

/-- A link that leads to a record converts it from the type that the source field declares into the
type that the target field declares. -/
theorem Link.Joins.nestedTypes_eq {source target : Column} (hj : l.Joins S key source target)
    (henter : l.transfer.Enters v key' inner) :
    l.sourceKind.nestedType? = some key'.source ∧ l.targetKind.nestedType? = some key'.target := by
  have hsuits := hj.suits
  generalize l.sourceKind = sourceKind at hsuits ⊢
  generalize l.targetKind = targetKind at hsuits ⊢
  generalize l.transfer = transfer at hsuits henter
  cases hsuits with
  | nested t u o o' =>
    cases henter
    simp [FieldKind.nestedType?]
  | nestedList t u =>
    cases henter
    simp [FieldKind.nestedType?]
  | _ => cases henter

theorem Link.Joins.ordinary_source {source target : Column} (hj : l.Joins S key source target)
    (h : S.Ordinary key.source) {t : TypeId} (ht : l.sourceKind.nestedType? = some t) :
    S.Ordinary t := by
  have hfield := (TypeDecl.mem_columns_iff _).mp hj.source_mem
  rw [hj.sourceKind_eq] at ht
  exact h.nested (List.mem_of_getElem? hfield) ht

theorem Link.Joins.ordinary_target {source target : Column} (hj : l.Joins S key source target)
    (h : S.Ordinary key.target) {t : TypeId} (ht : l.targetKind.nestedType? = some t) :
    S.Ordinary t := by
  have hfield := (TypeDecl.mem_columns_iff _).mp hj.target_mem
  rw [hj.targetKind_eq] at ht
  exact h.nested (List.mem_of_getElem? hfield) ht

namespace Reached

variable {src : Record}

theorem trans (h : Reached S key src key' r) {key'' : PlanKey}
    (h' : Reached S key' r key'' inner) : Reached S key src key'' inner := by
  induction h with
  | here => exact h'
  | inside hplan hl hv henter _ ih => exact .inside hplan hl hv henter (ih h')

/-- A source that fits leads to records of the right types, which fit as well. -/
theorem fits (h : Reached S key src key' r) (htype : src.type = key.source)
    (hfits : src.fits S = true) : r.type = key'.source ∧ r.fits S = true := by
  induction h with
  | here => exact ⟨htype, hfits⟩
  | inside hplan hl hv henter _ ih =>
    obtain ⟨source, target, hj⟩ := Plan.exists_joins hplan hl
    obtain ⟨hsource, -⟩ := hj.nestedTypes_eq henter
    have hvfits := hj.fits_of_get? htype hfits hv
    obtain ⟨htype', hfits'⟩ := Value.fits_of_holds hvfits hsource henter.holds
    exact ih htype' hfits'

end Reached

namespace Source

/-- Every linked field of a source can be read. -/
theorem exists_get? (h : Source S key r) {source target : Column}
    (hj : l.Joins S key source target) : ∃ v, r.get? S l.sourceIndex = some v := by
  have hmem : source ∈ (r.decl S).columns := by
    rw [Record.decl, h.type_eq]
    exact hj.source_mem
  rw [hj.sourceIndex_eq]
  exact Record.exists_get? (h.source_ordinary.plain_decl h.type_eq)
    (Record.whole_of_fits h.fits) hmem

/-- **A record inside a source is a source**, for the key that it is converted by. -/
theorem enter (h : Source S key r) (hplan : Plan.resolve S key = .ok plan) (hl : l ∈ plan.links)
    (hv : r.get? S l.sourceIndex = some v) (henter : l.transfer.Enters v key' inner) :
    Source S key' inner := by
  obtain ⟨source, target, hj⟩ := Plan.exists_joins hplan hl
  have hfits := hj.fits_of_get? h.type_eq h.fits hv
  obtain ⟨hsource, htarget⟩ := hj.nestedTypes_eq henter
  obtain ⟨htype, hinner⟩ := Value.fits_of_holds hfits hsource henter.holds
  exact ⟨htype, hinner, hj.ordinary_source h.source_ordinary hsource,
    hj.ordinary_target h.target_ordinary htarget⟩

/-- All that is reached from a source is one. -/
theorem of_reached (h : Source S key r) (hreached : Reached S key r key' inner) :
    Source S key' inner := by
  induction hreached with
  | here => exact h
  | inside hplan hl hv henter _ ih => exact ih (h.enter hplan hl hv henter)

end Source

end Crosswalk
