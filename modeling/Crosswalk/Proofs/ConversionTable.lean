import Crosswalk.Proofs.Coercion

/-!
# The table of conversions tells what coercion does

Which conversion a plan uses between two scalar kinds is read off the kinds
(`ScalarKind.conversion`), long before there is a value. Coercion decides about each value by its
number. The two were written independently of each other, and they agree
(`ScalarKind.conversion_agrees`): a conversion that is called widening accepts every value, one that
is called narrowing turns some value away, and where the table has no conversion nothing is coerced
at all.

The entries that need values are those of the narrowing conversions. `ScalarKind.stray` has one for
each pair of kinds: a number out of range, one with too many bits for the other format, or no number
at all.
-/

namespace Crosswalk

/-! ### Where there is no conversion -/

/-- Kinds that are neither both numeric nor both times have nothing in common. -/
theorem Value.coerce?_eq_none {v : Value} {k l : ScalarKind} (hv : v.scalarKind? = some k)
    (hne : k ≠ l) (hnumeric : ¬ (k.isNumeric && l.isNumeric) = true)
    (htime : ¬ (k.isTime && l.isTime) = true) : v.coerce? l = none := by
  rw [coerce?_of_not_time hv hne htime]
  by_cases hk : k.isNumeric = true
  · have hl : ¬ l.isNumeric = true := fun hl => hnumeric (by rw [hk, hl, Bool.and_self])
    rw [ofNumber?_of_not_numeric hl, Option.bind_fun_none]
  · have hnumber : v.number? = none := by
      cases v <;> first | rfl | exact absurd (by cases hv; rfl) hk
    rw [hnumber, Option.bind_none]

namespace ScalarKind

variable {k l : ScalarKind}

/-! ### Where some values are turned away -/

/-- A value of the first numeric kind that is none of the second, where the first does not widen to
the second. -/
def stray : ScalarKind → ScalarKind → Value
  | i32, f32 => .i32 2147483647
  | i32, _ => .i32 (-1)
  | i64, u32 | i64, u64 => .i64 (-1)
  | i64, _ => .i64 9223372036854775807
  | u32, _ => .u32 4294967295
  | u64, _ => .u64 18446744073709551615
  | f64, f32 => .f64 ⟨1⟩
  | f64, _ => .f64 ⟨0x7FF8000000000000⟩
  | _, _ => .f32 ⟨0x7FC00000⟩

theorem coerce?_stray (hk : k.isNumeric = true) (hl : l.isNumeric = true) (hne : k ≠ l)
    (hwiden : ¬ k.widensTo l = true) :
    (stray k l).scalarKind? = some k ∧ (stray k l).coerce? l = none := by
  rw [← Option.isNone_iff_eq_none]
  cases k <;> cases hk <;> cases l <;> cases hl <;>
    first
    | exact absurd rfl hne
    | exact absurd rfl hwiden
    | decide +kernel

/-! ### The four verdicts -/

theorem conversion_eq_widen_iff (hne : k ≠ l) : k.conversion l = some (.widen k l) ↔
    k.isNumeric = true ∧ l.isNumeric = true ∧
      ∀ v : Value, v.scalarKind? = some k → (v.coerce? l).isSome = true := by
  constructor
  · intro h
    cases between_of_conversion h with
    | widen hwiden =>
      obtain ⟨hk, hl, -⟩ := numeric_of_widensTo hwiden
      exact ⟨hk, hl, fun v hv => Value.isSome_coerce?_of_widensTo hv hwiden⟩
  · rintro ⟨hk, hl, hall⟩
    have hwiden : k.widensTo l = true := by
      by_contra hwiden
      obtain ⟨hkind, hnone⟩ := coerce?_stray hk hl hne hwiden
      have hsome := hall _ hkind
      rw [hnone] at hsome
      cases hsome
    rw [conversion, if_neg hne, if_pos hwiden]

theorem conversion_eq_narrow_iff (hne : k ≠ l) : k.conversion l = some (.narrow k l) ↔
    k.isNumeric = true ∧ l.isNumeric = true ∧
      ∃ v : Value, v.scalarKind? = some k ∧ v.coerce? l = none := by
  constructor
  · intro h
    have hwiden : ¬ k.widensTo l = true := by
      intro hwiden
      rw [conversion, if_neg hne, if_pos hwiden] at h
      cases h
    cases between_of_conversion h with
    | narrow hk hl => exact ⟨hk, hl, _, coerce?_stray hk hl hne hwiden⟩
  · rintro ⟨hk, hl, v, hv, hnone⟩
    have hwiden : ¬ k.widensTo l = true := by
      intro hwiden
      have hsome := Value.isSome_coerce?_of_widensTo hv hwiden
      rw [hnone] at hsome
      cases hsome
    rw [conversion, if_neg hne, if_neg hwiden, if_pos (by rw [hk, hl, Bool.and_self])]

theorem conversion_eq_timeCodec_iff : k.conversion l = some (.timeCodec k l) ↔
    (k = .timestamp ∧ l = .datetime) ∨ (k = .datetime ∧ l = .timestamp) := by
  constructor
  · intro h
    cases between_of_conversion h with
    | readTime => exact .inl ⟨rfl, rfl⟩
    | writeTime => exact .inr ⟨rfl, rfl⟩
  · rintro (⟨rfl, rfl⟩ | ⟨rfl, rfl⟩)
    · rfl
    · rfl

/-- Where there is a conversion, the zero value at least is coerced. -/
theorem conversion_eq_none_iff (hne : k ≠ l) : k.conversion l = none ↔
    ∀ v : Value, v.scalarKind? = some k → v.coerce? l = none := by
  constructor
  · intro h v hv
    rw [conversion, if_neg hne] at h
    have hnumeric : ¬ (k.isNumeric && l.isNumeric) = true := by
      intro hnumeric
      rw [if_pos hnumeric] at h
      split at h <;> cases h
    have htime : ¬ (k.isTime && l.isTime) = true := by
      intro htime
      rw [if_neg hnumeric, if_pos htime] at h
      split at h <;> cases h
    exact Value.coerce?_eq_none hv hne hnumeric htime
  · intro hnone
    cases hc : k.conversion l with
    | none => rfl
    | some c =>
      have hbetween := between_of_conversion hc
      have hzero := hbetween.image?_zero
      rw [hbetween.image?_eq hne, hnone _ (Value.scalarKind?_zero k)] at hzero
      cases hzero

/-- What is coerced is of the kind that was asked for. -/
theorem scalarKind?_coerce? (hne : k ≠ l) {v w : Value} (hv : v.scalarKind? = some k)
    (hw : v.coerce? l = some w) : w.scalarKind? = some l := by
  cases hc : k.conversion l with
  | none =>
    rw [(conversion_eq_none_iff hne).mp hc v hv] at hw
    cases hw
  | some c =>
    have hbetween := between_of_conversion hc
    rw [← hbetween.image?_eq hne] at hw
    exact hbetween.scalarKind?_image? hv hw

theorem conversion_eq_or (hne : k ≠ l) : k.conversion l = none ∨
    k.conversion l = some (.widen k l) ∨ k.conversion l = some (.narrow k l) ∨
      k.conversion l = some (.timeCodec k l) := by
  cases hc : k.conversion l with
  | none => exact .inl rfl
  | some c =>
    cases between_of_conversion hc with
    | identity => exact absurd rfl hne
    | widen => exact .inr (.inl rfl)
    | narrow => exact .inr (.inr (.inl rfl))
    | readTime => exact .inr (.inr (.inr rfl))
    | writeTime => exact .inr (.inr (.inr rfl))

/-- **The table of conversions agrees with coercion.** Between two different kinds it has nothing or
one of three conversions, and each entry says what coercion does with the values of the first kind.
-/
theorem conversion_agrees (hne : k ≠ l) :
    (k.conversion l = none ∨ k.conversion l = some (.widen k l) ∨
      k.conversion l = some (.narrow k l) ∨ k.conversion l = some (.timeCodec k l)) ∧
    (k.conversion l = some (.widen k l) ↔ k.isNumeric = true ∧ l.isNumeric = true ∧
      ∀ v : Value, v.scalarKind? = some k → (v.coerce? l).isSome = true) ∧
    (k.conversion l = some (.narrow k l) ↔ k.isNumeric = true ∧ l.isNumeric = true ∧
      ∃ v : Value, v.scalarKind? = some k ∧ v.coerce? l = none) ∧
    (k.conversion l = some (.timeCodec k l) ↔
      (k = .timestamp ∧ l = .datetime) ∨ (k = .datetime ∧ l = .timestamp)) ∧
    (k.conversion l = none ↔ ∀ v : Value, v.scalarKind? = some k → v.coerce? l = none) ∧
    (∀ v w : Value, v.scalarKind? = some k → v.coerce? l = some w → w.scalarKind? = some l) :=
  ⟨conversion_eq_or hne, conversion_eq_widen_iff hne, conversion_eq_narrow_iff hne,
    conversion_eq_timeCodec_iff, conversion_eq_none_iff hne, fun _ _ => scalarKind?_coerce? hne⟩

/-- Narrowing from long integers to double precision is not idle. -/
theorem conversion_agrees_i64_f64 : ScalarKind.i64 ≠ .f64 ∧
    ∃ v : Value, v.scalarKind? = some .i64 ∧ v.coerce? .f64 = none := by
  have hne : ScalarKind.i64 ≠ .f64 := by decide
  obtain ⟨-, -, hnarrow, -⟩ := conversion_agrees hne
  exact ⟨hne, (hnarrow.mp rfl).2.2⟩

end ScalarKind

end Crosswalk
