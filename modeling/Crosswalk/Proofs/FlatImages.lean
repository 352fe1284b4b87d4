import Crosswalk.Proofs.Coercion
import Crosswalk.Proofs.Effects
import Mathlib.Data.List.Forall2

/-!
# What scalars and lists of scalars become

The equations of `Link.carryFlat`, one for each transfer that moves no records, and with them those
of `Tier.image`. What a list of scalars becomes is said as a whole: item by item, or the failure of
the first item that has no counterpart.
-/

namespace Crosswalk

theorem map_eq_ok_iff {ε α β : Type} {answer : Except ε α} {f : α → β} {b : β} :
    answer.map f = .ok b ↔ ∃ a, answer = .ok a ∧ b = f a := by
  cases answer <;> simp [Except.map, eq_comm]

theorem map_eq_error_iff {ε α β : Type} {answer : Except ε α} {f : α → β} {e : ε} :
    answer.map f = .error e ↔ answer = .error e := by
  cases answer <;> simp [Except.map]

/-- In lists that correspond item by item, every item of the second has its partner in the first. -/
theorem exists_partner {α β : Type} {R : α → β → Prop} {as : List α} {bs : List β}
    (h : List.Forall₂ R as bs) {b : β} (hb : b ∈ bs) : ∃ a ∈ as, R a b := by
  induction h with
  | nil => exact absurd hb List.not_mem_nil
  | cons hab _ ih =>
    rcases List.mem_cons.mp hb with rfl | hb
    · exact ⟨_, List.mem_cons_self, hab⟩
    · obtain ⟨a, ha, hab⟩ := ih hb
      exact ⟨a, List.mem_cons_of_mem _ ha, hab⟩

/-- There is a list of partners, or an item without one. -/
theorem exists_partners_or {α β : Type} (R : α → β → Prop) (as : List α) :
    (∃ bs, List.Forall₂ R as bs) ∨ ∃ a ∈ as, ¬ ∃ b, R a b := by
  induction as with
  | nil => exact .inl ⟨[], .nil⟩
  | cons a as ih =>
    by_cases ha : ∃ b, R a b
    · obtain ⟨b, hb⟩ := ha
      rcases ih with ⟨bs, hbs⟩ | ⟨a', ha', hnone⟩
      · exact .inl ⟨b :: bs, .cons hb hbs⟩
      · exact .inr ⟨a', List.mem_cons_of_mem _ ha', hnone⟩
    · exact .inr ⟨a, List.mem_cons_self, ha⟩

theorem Value.isNull_of_scalarKind? {v : Value} {k : ScalarKind} (h : v.scalarKind? = some k) :
    v.isNull = false := by
  cases v with
  | null => cases h
  | _ => rfl

/-- The counterparts of scalars of a kind are of the kind that was asked for. -/
theorem ScalarConversion.Between.scalarKind?_images {k l : ScalarKind} {c : ScalarConversion}
    (h : Between k l c) {vs ws : List Value} (hvs : ∀ v ∈ vs, v.scalarKind? = some k)
    (hws : List.Forall₂ (fun v w => c.image? v = some w) vs ws) :
    ∀ w ∈ ws, w.scalarKind? = some l := by
  intro w hw
  obtain ⟨v, hv, himage⟩ := exists_partner hws hw
  exact h.scalarKind?_image? (hvs v hv) himage

namespace Link

variable {l : Link}

theorem carryFlat_scalar {c : ScalarConversion} {presence : Presence}
    (h : l.transfer = .scalar c presence) (v : Value) :
    l.carryFlat v = l.carryScalar c presence v := by
  rw [carryFlat.eq_def, h]

theorem carryFlat_scalarList {c : ScalarConversion} (h : l.transfer = .scalarList c)
    (items : List Value) : l.carryFlat (.list items) = (l.carryScalars c 0 items).map .list := by
  rw [carryFlat.eq_def, h]

theorem carryFlat_nested_null {key : PlanKey} (h : l.transfer = .nested key) :
    l.carryFlat .null = .ok .null := by
  rw [carryFlat.eq_def, h]

theorem carryFlat_impossible {source target : FieldKind}
    (h : l.transfer = .impossible source target) (v : Value) :
    l.carryFlat v = .error (l.mismatch (.noConversion source target)) := by
  rw [carryFlat.eq_def, h]

theorem absentScalar_same : l.absentScalar .same = .null := rfl

theorem absentScalar_unwrap {k : ScalarKind} {optional : Bool}
    (h : l.targetKind = .scalar k optional) : l.absentScalar .unwrap = .zero k := by
  rw [absentScalar.eq_def, h]

/-- An absent scalar has its own image, and any other one is converted. -/
theorem carryScalar_eq_ok_iff {c : ScalarConversion} {presence : Presence} {v w : Value} :
    l.carryScalar c presence v = .ok w ↔
      (v = .null ∧ w = l.absentScalar presence) ∨ (v.isNull = false ∧ c.image? v = some w) := by
  rw [carryScalar]
  cases hv : v.isNull with
  | true =>
    have hnull : v = .null := by cases v <;> first | rfl | cases hv
    simp [hnull, eq_comm]
  | false =>
    have hnull : v ≠ .null := by
      rintro rfl
      cases hv
    cases c.image? v <;> simp [hnull]

/-- A list of scalars comes across when each of its items has a counterpart, and then it is the list
of the counterparts. -/
theorem carryScalars_eq_ok_iff {c : ScalarConversion} {index : Nat} {vs ws : List Value} :
    l.carryScalars c index vs = .ok ws ↔ List.Forall₂ (fun v w => c.image? v = some w) vs ws := by
  induction vs generalizing index ws with
  | nil =>
    rw [carryScalars, List.forall₂_nil_left_iff, Except.ok.injEq, eq_comm]
  | cons v vs ih =>
    rw [carryScalars, List.forall₂_cons_left_iff]
    cases hv : c.image? v with
    | none => simp
    | some w =>
      dsimp only
      rw [map_eq_ok_iff]
      constructor
      · rintro ⟨rest, hrest, rfl⟩
        exact ⟨w, rest, rfl, ih.mp hrest, rfl⟩
      · rintro ⟨w', rest, hw, hrest, rfl⟩
        rw [← Option.some.inj hw]
        exact ⟨rest, ih.mpr hrest, rfl⟩

/-- A list of scalars fails over an item without a counterpart, and says at which place it was. -/
theorem exists_of_carryScalars_eq_error {c : ScalarConversion} {index : Nat} {vs : List Value}
    {e : ConvertError} (h : l.carryScalars c index vs = .error e) :
    (∃ v ∈ vs, c.image? v = none) ∧ ∃ place, e = l.itemMismatch place (.lossy c) := by
  induction vs generalizing index with
  | nil => cases h
  | cons v vs ih =>
    rw [carryScalars] at h
    cases hv : c.image? v with
    | none =>
      rw [hv] at h
      cases h
      exact ⟨⟨v, List.mem_cons_self, hv⟩, index, rfl⟩
    | some w =>
      rw [hv] at h
      obtain ⟨⟨v', hmem, hv'⟩, hplace⟩ := ih (map_eq_error_iff.mp h)
      exact ⟨⟨v', List.mem_cons_of_mem _ hmem, hv'⟩, hplace⟩

theorem carryScalars_identity (index : Nat) (vs : List Value) :
    l.carryScalars .identity index vs = .ok vs := by
  rw [carryScalars_eq_ok_iff]
  exact List.forall₂_same.mpr fun _ _ => rfl

theorem carryScalar_identity_same (v : Value) : l.carryScalar .identity .same v = .ok v := by
  rw [carryScalar]
  split
  · cases v with
    | null => rfl
    | _ => contradiction
  · rfl

end Link

namespace Tier

variable {S : Schema} {tier : Tier} {l : Link} {c : Copier} (hc : c.Looks l)

include hc

theorem image_scalar {conversion : ScalarConversion} {presence : Presence}
    (h : l.transfer = .scalar conversion presence) (v : Value) :
    tier.image S v c = l.carryScalar conversion presence v := by
  rw [image_of_not_nested S tier (by simp [h]) (by simp [h]) v hc, Link.carryFlat_scalar h]

theorem image_scalarList {conversion : ScalarConversion} (h : l.transfer = .scalarList conversion)
    (items : List Value) :
    tier.image S (.list items) c = (l.carryScalars conversion 0 items).map .list := by
  rw [image_of_not_nested S tier (by simp [h]) (by simp [h]) _ hc, Link.carryFlat_scalarList h]

theorem image_noRecord {key : PlanKey} (h : l.transfer = .nested key) :
    tier.image S .null c = .ok .null := by
  rw [image_flat S tier Value.isFlat_null hc, Link.carryFlat_nested_null h]

theorem image_impossible {source target : FieldKind} (h : l.transfer = .impossible source target)
    (v : Value) : tier.image S v c = .error (l.mismatch (.noConversion source target)) := by
  rw [image_of_not_nested S tier (by simp [h]) (by simp [h]) v hc, Link.carryFlat_impossible h]

end Tier

end Crosswalk
