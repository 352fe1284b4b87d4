import Crosswalk.Proofs.PartialWrites

/-!
# What the destination held before

A conversion never looks at its destination. Two destinations of one type may hold whatever they
like, and still the conversion of one source has the same result for both, carries out the same
links and leaves the same in their fields, and every other field of either one is as it was
(`Tier.convert_independent`). In particular nothing of an old nested record, or of an old list,
shows through in a field that has been written. Such a field is overwritten as a whole, and the
record in it was made from a fresh one.

The source may be any record. Of the destinations it is needed that their fields are ordinary ones.
A hand-made field may ignore what is written to it, and then it reads as before although its link
was carried out.
-/

namespace Crosswalk

namespace Tier

/-- **The old contents of the destination do not matter.** In any tier, from any source into two
destinations of one type with ordinary fields, whatever was asked for before either of the two
conversions. Both have the same result and have carried out the same links: none without a plan,
those before the first that fails, or all of them. Their fields read the same in both destinations,
at every depth, and any other field reads as before in its own one. -/
theorem convert_independent (S : Schema) (tier : Tier) (src dst dst' : Record)
    (direction : Direction) (history history' : List Store.Request) (htype : dst'.type = dst.type)
    (hplain : (S.decl dst.type).Plain) (hwhole : dst.Whole S) (hwhole' : dst'.Whole S) :
    ∃ result written left left',
      (tier.convert S (some src) (some dst) direction (Store.after S history)).1 =
        (result, some left) ∧
      (tier.convert S (some src) (some dst') direction (Store.after S history')).1 =
        (result, some left') ∧
      (match Plan.resolve S (.between src.type dst.type direction) with
        | .error cause => result = .error (.noPlan cause) ∧ written = []
        | .ok plan => (result = .ok () ∧ written = plan.links) ∨
          ∃ l rest e, plan.links = written ++ l :: rest ∧ result = .error e) ∧
      CarriedOut S tier src written dst left ∧ CarriedOut S tier src written dst' left' ∧
      ∀ l ∈ written, left'.get? S l.targetIndex = left.get? S l.targetIndex := by
  rw [convert_after, convert_after, htype]
  cases hplan : Plan.resolve S (.between src.type dst.type direction) with
  | error cause =>
    refine ⟨.error (.noPlan cause), [], dst, dst', ?_, ?_, ⟨rfl, rfl⟩, .nothing S tier src dst,
      .nothing S tier src dst', fun l hl => absurd hl List.not_mem_nil⟩
    · rw [outcome_eq, program, hplan]
    · rw [outcome_eq, program, hplan]
  | ok plan =>
    have hplain' : (S.decl (PlanKey.between src.type dst.type direction).target).Plain := by
      rwa [PlanKey.target_between]
    rcases outcome_uniform tier src hplan (by simp) hplain' with
      hall | ⟨done, l, rest, e, hlinks, -, hall⟩
    · obtain ⟨hresult, hdone⟩ := hall dst (by simp) hwhole
      obtain ⟨hresult', hdone'⟩ := hall dst' (by simp [htype]) hwhole'
      exact ⟨.ok (), plan.links, _, _, by rw [hresult], by rw [hresult'], .inl ⟨rfl, rfl⟩, hdone,
        hdone', fun l hl => hdone.get?_eq_get? hdone' htype hl⟩
    · obtain ⟨hresult, hdone⟩ := hall dst (by simp) hwhole
      obtain ⟨hresult', hdone'⟩ := hall dst' (by simp [htype]) hwhole'
      exact ⟨.error e, done, _, _, by rw [hresult], by rw [hresult'],
        .inr ⟨l, rest, e, hlinks, rfl⟩, hdone, hdone',
        fun l hl => hdone.get?_eq_get? hdone' htype hl⟩

end Tier

/-- A model of some other parcel, with something in every field. -/
def Parcels.usedParcel : Record where
  type := ⟨2⟩
  cells := [.list [.i32 9], .record ⟨3⟩ [.string "Bern", .record ⟨3⟩ [.null, .null]],
    .f64 ⟨0x4000000000000000⟩, .f32 ⟨0x3F800000⟩, .datetime .epoch,
    .list [.record ⟨3⟩ [.string "Chur", .null], .record ⟨3⟩ [.null, .null]]]

/-- A parcel converted into a fresh model and into one that was used before, the second time after
another conversion has failed. -/
theorem Tier.convert_parcel_independent :
    let start := Record.initial Parcels.schema ⟨2⟩
    let plan := Plan.ofDecls (.between ⟨0⟩ ⟨2⟩ .toModel) (Parcels.schema.decl ⟨0⟩)
      (Parcels.schema.decl ⟨2⟩)
    (Parcels.usedParcel.type = start.type ∧ (Parcels.schema.decl start.type).Plain ∧
      start.Whole Parcels.schema ∧ Parcels.usedParcel.Whole Parcels.schema) ∧
      ∃ left left',
        (compiled.convert Parcels.schema (some Parcels.parcel) (some start) .toModel
          (Store.after Parcels.schema [])).1 = (.ok (), some left) ∧
        (compiled.convert Parcels.schema (some Parcels.parcel) (some Parcels.usedParcel) .toModel
          (Store.after Parcels.schema [.convert compiled (some Parcels.oddParcel) (some start)
            .toModel])).1 = (.ok (), some left') ∧
        ∀ l ∈ plan.links, left'.get? Parcels.schema l.targetIndex =
          left.get? Parcels.schema l.targetIndex := by
  intro start plan
  have htype : Parcels.usedParcel.type = start.type := rfl
  have hplain : (Parcels.schema.decl start.type).Plain := Parcels.plain _
  refine ⟨⟨htype, hplain, rfl, rfl⟩, ?_⟩
  obtain ⟨result, written, left, left', hrun, hrun', hwritten, -, -, hsame⟩ :=
    convert_independent Parcels.schema compiled Parcels.parcel start Parcels.usedParcel .toModel []
      [.convert compiled (some Parcels.oddParcel) (some start) .toModel] htype hplain rfl rfl
  have hplan : Plan.resolve Parcels.schema (.between Parcels.parcel.type start.type .toModel) =
      .ok plan := rfl
  have hok : (compiled.convert Parcels.schema (some Parcels.parcel) (some start) .toModel
      (Store.after Parcels.schema [])).1.1 = .ok () := by decide +kernel
  rw [hrun] at hok
  obtain rfl : result = .ok () := hok
  rw [hplan] at hwritten
  obtain ⟨-, rfl⟩ | ⟨l, rest, e, -, hfailed⟩ := hwritten
  · exact ⟨left, left', hrun, hrun', hsame⟩
  · cases hfailed

end Crosswalk
