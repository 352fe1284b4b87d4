import Crosswalk.Proofs.Effects
import Crosswalk.Proofs.Fitting
import Crosswalk.Proofs.Links

/-!
# What a link does, in any tier

A link of a plan is carried out by name in two tiers and by position in the third. When the records
have the types that the plan was made for, the two ways reach the same fields, since no name repeats
in a type that has plans. So the effect of a link reads at its source position and writes at its
target position, whatever the tier (`Tier.effect_copier`). All that is left of the tier is the image
of the value in between.
-/

namespace Crosswalk

variable {S : Schema} {key : PlanKey} {plan : Plan} {l : Link} {source target : Column}

/-! ### Reaching the two fields -/

theorem Copier.read?_copier (h : Plan.resolve S key = .ok plan)
    (hj : l.Joins S key source target) (tier : Tier) {src : Record} (hsrc : src.type = key.source) :
    (tier.copier l).read? S src = src.get? S l.sourceIndex := by
  cases tier with
  | naive | cached =>
    have hcolumn : (S.decl src.type).column? l.name = some source := by
      rw [hsrc, TypeDecl.column?_eq_some_iff (Plan.source_nodup h)]
      exact ⟨hj.source_mem, hj.source_name⟩
    rw [Tier.copier, read?_byName, Record.getByName?, Record.decl, hcolumn, hj.sourceIndex_eq]
    rfl
  | compiled =>
    rw [Tier.copier, compile]
    split
    · exact read?_handOver S l src
    · exact read?_byPosition S l src

theorem Copier.placement_copier (h : Plan.resolve S key = .ok plan)
    (hj : l.Joins S key source target) (tier : Tier) (v : Value) :
    (tier.copier l).placement S key.target v = S.placement key.target l.targetIndex v := by
  cases tier with
  | naive | cached =>
    have hcolumn : (S.decl key.target).column? l.name = some target := by
      rw [TypeDecl.column?_eq_some_iff (Plan.target_nodup h)]
      exact ⟨hj.target_mem, hj.target_name⟩
    rw [Tier.copier, placement, hcolumn, hj.targetIndex_eq]
  | compiled =>
    rw [Tier.copier, compile]
    split <;> rfl

/-- What a link reads of a record that fits is of the kind of its source field. -/
theorem Link.Joins.fits_of_get? (hj : l.Joins S key source target) {src : Record}
    (hsrc : src.type = key.source) (hfits : src.fits S = true) {v : Value}
    (hv : src.get? S l.sourceIndex = some v) : v.fits S l.sourceKind = true := by
  have hmem : source ∈ (src.decl S).columns := by
    rw [Record.decl, hsrc]
    exact hj.source_mem
  rw [hj.sourceIndex_eq] at hv
  rw [hj.sourceKind_eq]
  exact Record.fits_of_get? hfits hmem hv

/-- **The effect of a link.** It reads one field, and places what becomes of the value in
another. -/
theorem Tier.effect_copier (h : Plan.resolve S key = .ok plan) (hl : l ∈ plan.links) (tier : Tier)
    {src : Record} (hsrc : src.type = key.source) :
    tier.effect S src key.target (tier.copier l) =
      match src.get? S l.sourceIndex with
      | none => .error (.access (.unknownField src.type l.name))
      | some v =>
        match tier.image S v (tier.copier l) with
        | .error e => .error e
        | .ok w =>
          match S.placement key.target l.targetIndex w with
          | .error e => .error (l.mismatch (.refused e))
          | .ok p => .ok p := by
  obtain ⟨source, target, hj⟩ := Plan.exists_joins h hl
  rw [effect_eq, Copier.read?_copier h hj tier hsrc, link_copier]
  cases src.get? S l.sourceIndex with
  | none => rfl
  | some v =>
    dsimp only
    cases tier.image S v (tier.copier l) with
    | error e => rfl
    | ok w =>
      have hplace := Copier.placement_copier h hj tier w
      dsimp only
      cases hp : S.placement key.target l.targetIndex w with
      | error e => rw [hplace, hp]
      | ok p => rw [hplace, hp]

theorem Tier.effect_copier_eq_ok_iff (h : Plan.resolve S key = .ok plan) (hl : l ∈ plan.links)
    (tier : Tier) {src : Record} (hsrc : src.type = key.source) {p : Placement} :
    tier.effect S src key.target (tier.copier l) = .ok p ↔
      ∃ v, src.get? S l.sourceIndex = some v ∧ ∃ w, tier.image S v (tier.copier l) = .ok w ∧
        S.placement key.target l.targetIndex w = .ok p := by
  rw [effect_copier h hl tier hsrc]
  cases src.get? S l.sourceIndex with
  | none => simp
  | some v =>
    simp only [Option.some.injEq, exists_eq_left']
    cases tier.image S v (tier.copier l) with
    | error e => simp
    | ok w =>
      simp only [Except.ok.injEq, exists_eq_left']
      cases S.placement key.target l.targetIndex w <;> simp

/-- A placement is at the position that was written to. -/
theorem Schema.index_of_placement {type : TypeId} {index : Nat} {v : Value} {p : Placement}
    (h : S.placement type index v = .ok p) : p.index = index := by
  rw [placement] at h
  split at h
  · cases h
  · next f _ =>
    cases hw : f.write S type v with
    | error e =>
      rw [hw] at h
      cases h
    | ok change =>
      rw [hw] at h
      cases h
      rfl

/-- What is written to an ordinary field is what its kind admits, and replaces what was there. -/
theorem Schema.placement_of_plain {t : TypeId} (hplain : (S.decl t).Plain) {c : Column}
    (hc : c ∈ (S.decl t).columns) (v : Value) :
    S.placement t c.index v =
      match c.kind.admit? S v with
      | some cell => .ok (.put c.index cell)
      | none => .error (.rejected t c.name c.kind v.shapeName) := by
  have hfield := (TypeDecl.mem_columns_iff _).mp hc
  have haccess : c.access = .declared := hplain _ (List.mem_of_getElem? hfield)
  rw [placement, hfield]
  dsimp only
  rw [FieldDecl.write, haccess]
  dsimp only
  cases c.kind.admit? S v <;> rfl

theorem Schema.placement_eq_ok_iff {t : TypeId} (hplain : (S.decl t).Plain) {c : Column}
    (hc : c ∈ (S.decl t).columns) (v : Value) {p : Placement} :
    S.placement t c.index v = .ok p ↔
      ∃ cell, c.kind.admit? S v = some cell ∧ p = .put c.index cell := by
  rw [placement_of_plain hplain hc]
  cases c.kind.admit? S v <;> simp [eq_comm]

/-- A link writes at its target position, if it comes to that. -/
theorem Tier.index_of_effect (h : Plan.resolve S key = .ok plan) (hl : l ∈ plan.links) {tier : Tier}
    {src : Record} (hsrc : src.type = key.source) {p : Placement}
    (hp : tier.effect S src key.target (tier.copier l) = .ok p) : p.index = l.targetIndex := by
  obtain ⟨v, -, w, -, hplace⟩ := (effect_copier_eq_ok_iff h hl tier hsrc).mp hp
  exact Schema.index_of_placement hplace

/-- In an ordinary field a link puts something in the place of what was there. -/
theorem Tier.exists_put_of_effect (h : Plan.resolve S key = .ok plan) (hl : l ∈ plan.links)
    {tier : Tier} {src : Record} (hsrc : src.type = key.source) (hplain : (S.decl key.target).Plain)
    {p : Placement} (hp : tier.effect S src key.target (tier.copier l) = .ok p) :
    ∃ cell, p = .put l.targetIndex cell := by
  obtain ⟨source, target, hj⟩ := Plan.exists_joins h hl
  obtain ⟨v, -, w, -, hplace⟩ := (effect_copier_eq_ok_iff h hl tier hsrc).mp hp
  rw [hj.targetIndex_eq] at hplace ⊢
  obtain ⟨cell, -, hcell⟩ := (Schema.placement_eq_ok_iff hplain hj.target_mem w).mp hplace
  exact ⟨cell, hcell⟩

end Crosswalk
