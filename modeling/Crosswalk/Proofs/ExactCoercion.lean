import Crosswalk.Proofs.MachineCasts
import Crosswalk.Proofs.Quantities

/-!
# Coercion of numbers is exact and complete

Does coercion accept a number whenever the other kind has it, and is the result that number? Between
any two numeric kinds, yes (`Value.coerce?_exact`). The kinds are asked in terms of what their
values denote (`ScalarKind.Represents`), so a number that is merely rounded to is not represented,
and neither is one just outside of a range.

Exactness (`Value.quantity?_of_coerce?`) is that the number which is made of a number is that
number, but for the sign of a zero. Completeness (`Value.isSome_coerce?_iff`) is that the nearest
value is not missed where there is an exact one. Here the two zeros need care. They are one quantity
and two numbers, and a kind that has one of them as a value has to be able to take the other.
-/

namespace Crosswalk

namespace ScalarKind

/-- Single and double precision. -/
def isFloat : ScalarKind → Bool
  | f32 | f64 => true
  | _ => false

theorem isFloat_iff {k : ScalarKind} : k.isFloat = true ↔ k = .f32 ∨ k = .f64 := by
  cases k <;> decide

theorem isNumeric_of_isFloat {k : ScalarKind} (h : k.isFloat = true) : k.isNumeric = true := by
  rcases isFloat_iff.mp h with rfl | rfl
  · rfl
  · rfl

end ScalarKind

/-! ### Signs and zeros -/

namespace Number

/-- The sign, also of a zero; what is no number has none. -/
def sign? : Number → Option Bool
  | nan => none
  | infinite negative => some negative
  | finite negative _ => some negative

/-- The whole number does not depend on the sign of a zero. -/
theorem ForgetsSign.toInt?_eq {n n' : Number} (h : n.ForgetsSign n') : n'.toInt? = n.toInt? := by
  rcases h with rfl | ⟨rfl, rfl⟩
  · rfl
  · simp [toInt?, signed]

/-- A number that denotes a whole number is that whole number. -/
theorem toInt?_of_quantity_eq {n : Number} {i : Int} (h : (ofInt i).quantity = n.quantity) :
    n.toInt? = some i := by
  rw [← toInt?_ofInt i]
  exact (quantity_eq_iff.mp h).elim ForgetsSign.toInt?_eq fun h => h.toInt?_eq.symm

end Number

namespace BinaryFormat

theorem sign?_decode (f : BinaryFormat) {word : Nat} (h : f.decode word ≠ .nan) :
    (f.decode word).sign? = some (f.negative word) := by
  rw [decode] at h ⊢
  split
  · rfl
  · next hfinite =>
    rw [if_neg hfinite] at h
    split
    · rfl
    · next hinfinite => exact absurd (if_neg hinfinite) h

/-- A format that has a number has every number of the same quantity. -/
theorem Denotes.of_quantity_eq {f : BinaryFormat} (hf : 0 < f.infinityWord) {n n' : Number}
    (h : f.Denotes n) (hquantity : n.quantity = n'.quantity) : f.Denotes n' := by
  rcases Number.quantity_eq_iff.mp hquantity with (rfl | ⟨-, rfl⟩) | (rfl | ⟨rfl, -⟩)
  · exact h
  · exact f.denotes_zero hf false
  · exact h
  · exact f.denotes_zero hf true

end BinaryFormat

namespace Value

/-- The sign bit of a floating-point value. -/
def negative? : Value → Option Bool
  | f32 x => some (binary32.negative x.bits.toNat)
  | f64 x => some (binary64.negative x.bits.toNat)
  | _ => none

/-- The sign bit is the sign of the number. -/
theorem negative?_eq_sign? {v : Value} {k : ScalarKind} {n : Number}
    (hv : v.scalarKind? = some k) (hk : k.isFloat = true) (hn : v.number? = some n)
    (hnan : n ≠ .nan) : v.negative? = n.sign? := by
  cases v with
  | f32 x =>
    cases hn
    exact (binary32.sign?_decode hnan).symm
  | f64 x =>
    cases hn
    exact (binary64.sign?_decode hnan).symm
  | _ => cases hv <;> cases hk

/-! ### Soundness and completeness -/

/-- What is made of a number denotes what the number denotes. -/
theorem quantity?_of_ofNumber? {k : ScalarKind} {n : Number} {v : Value}
    (h : ofNumber? k n = some v) : v.scalarKind? = some k ∧ v.quantity? = some n.quantity := by
  obtain ⟨hkind, n', hn', hsign⟩ := number?_of_ofNumber? h
  refine ⟨hkind, ?_⟩
  rw [quantity?_eq, hn', Option.map_some, Number.quantity_eq_iff.mpr (.inr hsign)]

/-- **A value is made of every number that the kind represents, and of no other.** -/
theorem isSome_ofNumber?_iff {k : ScalarKind} (hk : k.isNumeric = true) {n : Number} :
    (ofNumber? k n).isSome = true ↔ k.Represents n.quantity := by
  constructor
  · intro h
    obtain ⟨v, hv⟩ := Option.isSome_iff_exists.mp h
    exact ⟨v, quantity?_of_ofNumber? hv⟩
  · rintro ⟨v, hv, hquantity⟩
    rw [quantity?_eq] at hquantity
    rcases numeric_cases hv hk with ⟨rfl, x, rfl⟩ | ⟨rfl, x, rfl⟩ | ⟨hof, i, hi⟩
    · have hdenotes : binary32.Denotes n :=
        x.denotes_number.of_quantity_eq (by decide) (Option.some.inj hquantity)
      rw [ofNumber?, if_pos (Binary32.number_ofNumber hdenotes), Option.isSome_some]
    · exact isSome_ofNumber?_f64
        (x.denotes_number.of_quantity_eq (by decide) (Option.some.inj hquantity))
    · rw [number?_of_int? hi, Option.map_some, Option.some.injEq] at hquantity
      rw [hof, Number.toInt?_of_quantity_eq hquantity, Option.bind_some, ofInt?_of_int? hv hi,
        Option.isSome_some]

end Value

/-- Infinities and what is no number are represented by the floating-point kinds only. -/
theorem ScalarKind.represents_iff_isFloat {k : ScalarKind} (hk : k.isNumeric = true) {q : Quantity}
    (hq : ∀ r, q ≠ .rational r) : k.Represents q ↔ k.isFloat = true := by
  have hint (hk : k = .i32 ∨ k = .i64 ∨ k = .u32 ∨ k = .u64) : ¬ k.Represents q := by
    rw [represents_iff_ofInt? hk]
    rintro ⟨n, rfl, -⟩
    exact hq _ rfl
  have hfloat : ScalarKind.f32.Represents q ∧ ScalarKind.f64.Represents q := by
    cases q with
    | nan => exact ⟨⟨.f32 ⟨0x7FC00000⟩, rfl, rfl⟩, .f64 ⟨0x7FF8000000000000⟩, rfl, rfl⟩
    | infinite negative =>
      cases negative with
      | false => exact ⟨⟨.f32 ⟨0x7F800000⟩, rfl, rfl⟩, .f64 ⟨0x7FF0000000000000⟩, rfl, rfl⟩
      | true => exact ⟨⟨.f32 ⟨0xFF800000⟩, rfl, rfl⟩, .f64 ⟨0xFFF0000000000000⟩, rfl, rfl⟩
    | rational r => exact absurd rfl (hq r)
  cases k with
  | i32 | i64 | u32 | u64 => simp [hint, isFloat]
  | f32 => exact iff_of_true hfloat.1 rfl
  | f64 => exact iff_of_true hfloat.2 rfl
  | _ => cases hk

/-! ### Coercion -/

namespace Value

variable {v w : Value} {k t : ScalarKind} {q : Quantity}

theorem exists_number? (hv : v.scalarKind? = some k) (hk : k.isNumeric = true) :
    ∃ n, v.number? = some n := by
  rcases numeric_cases hv hk with ⟨-, x, rfl⟩ | ⟨-, x, rfl⟩ | ⟨-, i, hi⟩
  · exact ⟨_, rfl⟩
  · exact ⟨_, rfl⟩
  · exact ⟨_, number?_of_int? hi⟩

theorem coerce?_same (hv : v.scalarKind? = some k) : v.coerce? k = some v := if_pos (.inr hv)

theorem coerce?_of_number? {n : Number} (hv : v.scalarKind? = some k) (hk : k.isNumeric = true)
    (hne : k ≠ t) (hn : v.number? = some n) : v.coerce? t = ofNumber? t n := by
  rw [coerce?_of_numeric hv hk hne, hn, Option.bind_some]

/-- **Complete:** what the other kind represents is accepted, and nothing else is. -/
theorem isSome_coerce?_iff (hv : v.scalarKind? = some k) (hk : k.isNumeric = true)
    (ht : t.isNumeric = true) (hq : v.quantity? = some q) :
    (v.coerce? t).isSome = true ↔ t.Represents q := by
  by_cases hne : k = t
  · subst hne
    rw [coerce?_same hv]
    exact iff_of_true rfl ⟨v, hv, hq⟩
  · obtain ⟨n, hn⟩ := exists_number? hv hk
    rw [quantity?_eq, hn, Option.map_some, Option.some.injEq] at hq
    rw [coerce?_of_number? hv hk hne hn, isSome_ofNumber?_iff ht, hq]

/-- **Exact:** what is accepted denotes afterwards what it denoted before. -/
theorem quantity?_of_coerce? (hv : v.scalarKind? = some k) (hk : k.isNumeric = true)
    (hq : v.quantity? = some q) (hw : v.coerce? t = some w) :
    w.scalarKind? = some t ∧ w.quantity? = some q := by
  by_cases hne : k = t
  · subst hne
    rw [coerce?_same hv, Option.some.injEq] at hw
    rw [← hw]
    exact ⟨hv, hq⟩
  · obtain ⟨n, hn⟩ := exists_number? hv hk
    rw [quantity?_eq, hn, Option.map_some] at hq
    rw [coerce?_of_number? hv hk hne hn] at hw
    rw [← hq]
    exact quantity?_of_ofNumber? hw

/-- Between floating-point kinds the sign is kept, also that of a zero. -/
theorem negative?_of_coerce? (hv : v.scalarKind? = some k) (hk : k.isFloat = true)
    (ht : t.isFloat = true) (hnan : v.quantity? ≠ some .nan) (hw : v.coerce? t = some w) :
    w.negative? = v.negative? := by
  by_cases hne : k = t
  · subst hne
    rw [coerce?_same hv, Option.some.injEq] at hw
    rw [hw]
  · have hnumeric := ScalarKind.isNumeric_of_isFloat hk
    obtain ⟨n, hn⟩ := exists_number? hv hnumeric
    rw [coerce?_of_number? hv hnumeric hne hn] at hw
    obtain ⟨hkind, hnumber⟩ := number?_of_ofNumber?_float (ScalarKind.isFloat_iff.mp ht) hw
    have hnan' : n ≠ .nan := by
      rintro rfl
      exact hnan (by rw [quantity?_eq, hn]; rfl)
    rw [negative?_eq_sign? hkind ht hnumber hnan', negative?_eq_sign? hv hk hn hnan']

/-- **Coercion between numeric kinds is exact and complete.** A value is accepted exactly if the
other kind represents what it denotes, which for an infinity and for what is no number means a
floating-point kind. The result is of that kind and denotes the same, and between floating-point
kinds it has the same sign, also where it is zero. Casts between machine numbers do the same. -/
theorem coerce?_exact {v : Value} {k t : ScalarKind} (hv : v.scalarKind? = some k)
    (hk : k.isNumeric = true) (ht : t.isNumeric = true) :
    ∃ q, v.quantity? = some q ∧
      ((v.coerce? t).isSome = true ↔ t.Represents q) ∧
      ((∀ r, q ≠ .rational r) → ((v.coerce? t).isSome = true ↔ t.isFloat = true)) ∧
      (∀ w, v.coerce? t = some w → w.scalarKind? = some t ∧ w.quantity? = some q ∧
        (k.isFloat = true → t.isFloat = true → q ≠ .nan → w.negative? = v.negative?)) ∧
      v.coerceByCasts? t = v.coerce? t := by
  obtain ⟨n, hn⟩ := exists_number? hv hk
  have hq : v.quantity? = some n.quantity := by rw [quantity?_eq, hn, Option.map_some]
  have hsome := isSome_coerce?_iff hv hk ht hq
  refine ⟨_, hq, hsome, fun hq => hsome.trans (ScalarKind.represents_iff_isFloat ht hq),
    fun w hw => ?_, coerceByCasts?_eq v t⟩
  obtain ⟨hkind, hw'⟩ := quantity?_of_coerce? hv hk hq hw
  refine ⟨hkind, hw', fun hkfloat htfloat hnan => ?_⟩
  refine negative?_of_coerce? hv hkfloat htfloat ?_ hw
  rwa [hq, Ne, Option.some.injEq]

/-- The least whole number that double precision does not have. -/
theorem coerce?_exact_halfway : ((i64 9007199254740993).coerce? .f64).isSome = false ∧
    ¬ ScalarKind.f64.Represents (.rational 9007199254740993) := by
  have hnone : ((i64 9007199254740993).coerce? .f64).isSome = false := by decide +kernel
  obtain ⟨q, hq, hsome, -⟩ :=
    coerce?_exact (v := i64 9007199254740993) (k := .i64) (t := .f64) rfl rfl rfl
  cases hq
  refine ⟨hnone, fun hrepresents => ?_⟩
  rw [hsome.mpr hrepresents] at hnone
  cases hnone

end Value

end Crosswalk
