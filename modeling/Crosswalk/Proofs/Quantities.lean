import Crosswalk.Proofs.Coercion
import Mathlib.Algebra.Order.Field.Power
import Mathlib.Data.Rat.Cast.Order
import Mathlib.Tactic.FieldSimp
import Mathlib.Tactic.Ring

/-!
# What numeric values denote

An integer denotes itself, and a floating-point word denotes what its three fields say: a rational
number, an infinity, or no number at all. `Value.quantity?` reads values in this way, without
counting in quanta, and zero is one number there, whatever its sign.

The exact numbers of `Crosswalk.Number` agree with this reading (`BinaryFormat.quantity_decode`,
`Value.quantity?_eq`). They tell more, namely the sign of a zero, and nothing else
(`Number.quantity_eq_iff`).

A kind *represents* a quantity if one of its values denotes it. For the integer kinds this is a
question of their range (`ScalarKind.represents_iff_ofInt?`), for the floating-point kinds one of
the bits of a significand and of the room for an exponent. `BinaryFormat.exists_quantity_iff` says
so for any format, and `ScalarKind.represents_f64_rational_iff` for double precision.
-/

namespace Crosswalk

/-- What a numeric value denotes. -/
inductive Quantity
  | nan
  | infinite (negative : Bool)
  | rational (q : ℚ)

/-! ### Numbers -/

namespace Number

/-- What an exact number denotes, of which the sign of a zero is no part. -/
def quantity : Number → Quantity
  | nan => .nan
  | infinite negative => .infinite negative
  | finite negative quanta => .rational (signed negative quanta / quantaPerOne)

theorem quantaPerOne_ne_zero : (quantaPerOne : ℚ) ≠ 0 :=
  Nat.cast_ne_zero.mpr (Nat.ne_of_gt quantaPerOne_pos)

theorem cast_signed (negative : Bool) (quanta : Nat) :
    (signed negative quanta : ℚ) = (if negative then -1 else 1) * quanta := by
  cases negative <;> simp [signed]

theorem quantity_ofInt (n : Int) : (ofInt n).quantity = .rational n := by
  rw [ofInt, quantity, cast_signed, Nat.cast_mul, ← mul_assoc, ← cast_signed, signed_natAbs,
    mul_div_cancel_right₀ _ quantaPerOne_ne_zero]

theorem signed_eq_iff {negative negative' : Bool} {quanta quanta' : Nat} :
    signed negative quanta = signed negative' quanta' ↔
      (negative = negative' ∧ quanta = quanta') ∨ (quanta = 0 ∧ quanta' = 0) := by
  cases negative <;> cases negative' <;> simp only [signed] <;> grind

/-- **A number is known by its quantity, but for the sign of a zero.** -/
theorem quantity_eq_iff {n n' : Number} :
    n.quantity = n'.quantity ↔ n.ForgetsSign n' ∨ n'.ForgetsSign n := by
  constructor
  · intro h
    cases n with
    | nan =>
      cases n' <;> cases h
      exact .inl (forgetsSign_refl _)
    | infinite negative =>
      cases n' <;> cases h
      exact .inl (forgetsSign_refl _)
    | finite negative quanta =>
      cases n' with
      | nan | infinite negative' => cases h
      | finite negative' quanta' =>
        rw [quantity, quantity, Quantity.rational.injEq,
          div_left_inj' quantaPerOne_ne_zero, Int.cast_inj, signed_eq_iff] at h
        rcases h with ⟨rfl, rfl⟩ | ⟨rfl, rfl⟩
        · exact .inl (forgetsSign_refl _)
        · cases negative <;> cases negative'
          · exact .inl (forgetsSign_refl _)
          · exact .inr (.inr ⟨rfl, rfl⟩)
          · exact .inl (.inr ⟨rfl, rfl⟩)
          · exact .inl (forgetsSign_refl _)
  · have hzero (negative : Bool) : (finite negative 0).quantity = .rational 0 := by
      rw [quantity, cast_signed, Nat.cast_zero, mul_zero, zero_div]
    rintro ((rfl | ⟨rfl, rfl⟩) | (rfl | ⟨rfl, rfl⟩))
    · rfl
    · rw [hzero, hzero]
    · rfl
    · rw [hzero, hzero]

end Number

/-! ### Words -/

namespace BinaryFormat

variable (f : BinaryFormat)

/-- The sign of a word. -/
def negative (word : Nat) : Bool := decide (word / f.signWord % 2 = 1)

/-- The exponent field of a word. -/
def exponentField (word : Nat) : Nat := word / f.fractionSize % Nat.pow 2 f.exponentBits

/-- The fraction field of a word. -/
def fractionField (word : Nat) : Nat := word % f.fractionSize

/-- What a word denotes, by its fields. The greatest exponent is that of the infinities and of what
is no number, and the least one that of the numbers without a hidden bit. -/
def quantity (word : Nat) : Quantity :=
  let sign : ℚ := if f.negative word then -1 else 1
  let fraction : ℚ := f.fractionField word / f.fractionSize
  if f.exponentField word = Nat.pow 2 f.exponentBits - 1 then
    if f.fractionField word = 0 then .infinite (f.negative word) else .nan
  else if f.exponentField word = 0 then .rational (sign * 2 ^ (1 - f.bias : ℤ) * fraction)
  else .rational (sign * 2 ^ ((f.exponentField word : ℤ) - f.bias) * (1 + fraction))

/-- A word less its sign is its exponent field and its fraction field. -/
theorem unsigned_fields (word : Nat) : word % f.signWord / f.fractionSize = f.exponentField word ∧
    word % f.signWord % f.fractionSize = f.fractionField word := by
  have hsign : f.signWord = f.fractionSize * Nat.pow 2 f.exponentBits :=
    (Nat.pow_add 2 f.exponentBits f.fractionBits).trans (Nat.mul_comm _ _)
  rw [hsign]
  exact ⟨Nat.mod_mul_right_div_self _ _ _, Nat.mod_mul_right_mod _ _ _⟩

theorem cast_two_pow (n : Nat) : ((Nat.pow 2 n : ℕ) : ℚ) = 2 ^ (n : ℤ) := by
  rw [Nat.pow_eq, Nat.cast_pow, Nat.cast_ofNat, zpow_natCast]

theorem cast_fractionSize : (f.fractionSize : ℚ) = 2 ^ (f.fractionBits : ℤ) := cast_two_pow _

theorem fractionSize_ne_zero : (f.fractionSize : ℚ) ≠ 0 :=
  Nat.cast_ne_zero.mpr (Nat.ne_of_gt f.fractionSize_pos)

/-- The step of a format in terms of its bias, for a format that has room for its exponents above
the quantum. -/
theorem step_div_quantaPerOne (hroom : f.bias + f.fractionBits ≤ Number.quantumBits + 1) :
    (f.step : ℚ) / Number.quantaPerOne = 2 ^ (1 - f.bias : ℤ) / f.fractionSize := by
  obtain ⟨bits, hbits⟩ := Nat.exists_eq_add_of_le hroom
  have hstep : (f.step : ℚ) = 2 ^ (bits : ℤ) := by
    rw [step, hbits, Nat.sub_sub, Nat.add_sub_cancel_left, cast_two_pow]
  have hone : (Number.quantaPerOne : ℚ) = 2 ^ (Number.quantumBits : ℤ) := by
    unfold Number.quantaPerOne
    generalize Number.quantumBits = bits
    exact cast_two_pow bits
  rw [hstep, hone, cast_fractionSize, ← zpow_sub₀ two_ne_zero, ← zpow_sub₀ two_ne_zero]
  congr 1
  omega

/-- **What a word is decoded to denotes what the fields of the word say.** -/
theorem quantity_decode (hroom : f.bias + f.fractionBits ≤ Number.quantumBits + 1) (word : Nat) :
    (f.decode word).quantity = f.quantity word := by
  obtain ⟨hexponent, hfraction⟩ := f.unsigned_fields word
  have hunsigned := Nat.div_add_mod' (word % f.signWord) f.fractionSize
  have hexponent_lt : f.exponentField word < Nat.pow 2 f.exponentBits :=
    Nat.mod_lt _ (Nat.two_pow_pos _)
  have hfraction_lt : f.fractionField word < f.fractionSize := Nat.mod_lt _ f.fractionSize_pos
  have hinfinity : f.infinityWord = (Nat.pow 2 f.exponentBits - 1) * f.fractionSize := rfl
  rw [hexponent, hfraction] at hunsigned
  rw [decode, quantity]
  by_cases hlast : f.exponentField word = Nat.pow 2 f.exponentBits - 1
  · rw [hlast, ← hinfinity] at hunsigned
    rw [if_pos hlast, if_neg (by omega)]
    by_cases hzero : f.fractionField word = 0
    · rw [if_pos hzero, if_pos (by omega)]
      rfl
    · rw [if_neg hzero, if_neg (by omega)]
      rfl
  · have hfinite : word % f.signWord < f.infinityWord := by
      have hnext : (f.exponentField word + 1) * f.fractionSize ≤ f.infinityWord :=
        Nat.mul_le_mul_right _ (by omega)
      rw [Nat.succ_mul] at hnext
      omega
    have hstep := f.step_div_quantaPerOne hroom
    rw [if_neg hlast, if_pos hfinite, Number.quantity, Number.cast_signed, Nat.cast_mul,
      mul_div_assoc, mul_div_assoc, hstep, magnitude, hexponent, hfraction]
    by_cases hfirst : f.exponentField word = 0
    · rw [if_pos hfirst, if_pos hfirst, negative]
      congr 1
      ring
    · have hpower : (2 : ℚ) ^ ((f.exponentField word : ℤ) - f.bias) =
          2 ^ (f.exponentField word - 1) * 2 ^ (1 - f.bias : ℤ) := by
        rw [← zpow_natCast, ← zpow_add₀ two_ne_zero, Nat.cast_sub (by omega)]
        congr 1
        ring
      have hsize := f.fractionSize_ne_zero
      rw [if_neg hfirst, if_neg hfirst, hpower, negative, Nat.pow_eq]
      congr 1
      push_cast
      field_simp

/-! ### The numbers of a format -/

variable {f}

/-- A finite magnitude has few bits, doubled not too often. -/
theorem exists_bits_of_lt_infinityWord (hexponent : 1 < f.exponentBits) {unsigned : Nat}
    (h : unsigned < f.infinityWord) : ∃ m doublings, m < 2 * f.fractionSize ∧
      doublings + 2 ≤ Nat.pow 2 f.exponentBits - 1 ∧
        f.magnitude unsigned = m * 2 ^ doublings := by
  have hroom : 2 ^ 2 ≤ Nat.pow 2 f.exponentBits := Nat.pow_le_pow_right Nat.two_pos hexponent
  rcases f.word_cases unsigned with hlt | ⟨doublings, fraction, hfraction, rfl⟩
  · refine ⟨unsigned, 0, by omega, by omega, ?_⟩
    rw [f.magnitude_of_lt hlt, Nat.pow_zero, Nat.mul_one]
  · have hlast : doublings + 1 < Nat.pow 2 f.exponentBits - 1 :=
      Nat.lt_of_mul_lt_mul_right (Nat.lt_of_le_of_lt (Nat.le_add_right _ fraction) h)
    exact ⟨f.fractionSize + fraction, doublings, by omega, hlast,
      f.magnitude_add doublings hfraction⟩

/-- What a number of so many quanta denotes, as a significand and an exponent. -/
theorem quantity_finite (hroom : f.bias + f.fractionBits ≤ Number.quantumBits + 1) (negative : Bool)
    (m doublings : Nat) : (Number.finite negative (m * 2 ^ doublings * f.step)).quantity =
      .rational (Number.signed negative m * 2 ^ (doublings + 1 - f.bias - f.fractionBits : ℤ)) := by
  have hpower : (2 : ℚ) ^ (doublings + 1 - f.bias - f.fractionBits : ℤ) =
      2 ^ doublings * (2 ^ (1 - f.bias : ℤ) / f.fractionSize) := by
    rw [cast_fractionSize, ← zpow_natCast, ← zpow_sub₀ two_ne_zero, ← zpow_add₀ two_ne_zero]
    congr 1
    ring
  rw [Number.quantity, Number.cast_signed, Number.cast_signed, Nat.cast_mul, mul_div_assoc,
    mul_div_assoc, f.step_div_quantaPerOne hroom, hpower]
  push_cast
  congr 1
  ring

/-- **The rational numbers of a format** are the products of a significand that fits beside the
hidden bit with a power of two that the exponent field has room for. -/
theorem exists_quantity_iff (hroom : f.bias + f.fractionBits ≤ Number.quantumBits + 1)
    (hexponent : 1 < f.exponentBits) {q : ℚ} : (∃ word, f.quantity word = .rational q) ↔
      ∃ m e : ℤ, q = m * 2 ^ e ∧ m.natAbs < 2 * f.fractionSize ∧
        (1 - f.bias - f.fractionBits : ℤ) ≤ e ∧
        e ≤ (Nat.pow 2 f.exponentBits : ℕ) - 2 - f.bias - f.fractionBits := by
  constructor
  · rintro ⟨word, hword⟩
    rw [← f.quantity_decode hroom] at hword
    rcases f.decode_cases word with ⟨negative, unsigned, hfinite, h⟩ | ⟨negative, h⟩ | h
    · obtain ⟨m, doublings, hm, hdoublings, hmagnitude⟩ :=
        exists_bits_of_lt_infinityWord hexponent hfinite
      rw [h, hmagnitude, quantity_finite hroom] at hword
      cases hword
      exact ⟨_, _, rfl, by rwa [Number.natAbs_signed], by omega, by omega⟩
    · rw [h] at hword
      cases hword
    · rw [h] at hword
      cases hword
  · rintro ⟨m, e, rfl, hm, hleast, hgreatest⟩
    obtain ⟨doublings, rfl⟩ : ∃ doublings : ℕ, e = doublings + 1 - f.bias - f.fractionBits :=
      ⟨(e - (1 - f.bias - f.fractionBits)).toNat, by omega⟩
    have hlast : (doublings + 2) * f.fractionSize ≤ f.infinityWord :=
      Nat.mul_le_mul_right _ (by omega)
    obtain ⟨word, hword⟩ := denotes_finite (decide (m < 0)) doublings hm hlast
    exact ⟨word, by
      rw [← f.quantity_decode hroom, hword, quantity_finite hroom, Number.signed_natAbs]⟩

end BinaryFormat

/-! ### Values -/

namespace Value

/-- What a numeric value denotes: an integer denotes itself, a floating-point word what its fields
say. -/
def quantity? : Value → Option Quantity
  | i32 n => some (.rational n.toInt)
  | i64 n => some (.rational n.toInt)
  | u32 n => some (.rational n.toNat)
  | u64 n => some (.rational n.toNat)
  | f32 x => some (binary32.quantity x.bits.toNat)
  | f64 x => some (binary64.quantity x.bits.toNat)
  | _ => none

/-- **The exact number of a value denotes what the value denotes.** -/
theorem quantity?_eq (v : Value) : v.quantity? = v.number?.map Number.quantity := by
  cases v with
  | i32 n | i64 n => exact congrArg some (Number.quantity_ofInt _).symm
  | u32 n | u64 n => exact congrArg some ((Number.quantity_ofInt _).trans (by norm_cast)).symm
  | f32 x => exact congrArg some (binary32.quantity_decode (by decide) _).symm
  | f64 x => exact congrArg some (binary64.quantity_decode (by decide) _).symm
  | _ => rfl

end Value

namespace ScalarKind

/-- Some value of the kind denotes the quantity. -/
def Represents (k : ScalarKind) (q : Quantity) : Prop :=
  ∃ v : Value, v.scalarKind? = some k ∧ v.quantity? = some q

/-- **An integer kind represents the whole numbers of its range.** -/
theorem represents_iff_ofInt? {k : ScalarKind} (hk : k = .i32 ∨ k = .i64 ∨ k = .u32 ∨ k = .u64)
    {q : Quantity} :
    k.Represents q ↔ ∃ n : ℤ, q = .rational n ∧ (Value.ofInt? k n).isSome = true := by
  constructor
  · rintro ⟨v, hv, hq⟩
    have hint : ∃ i, v.int? = some i := by
      rcases hk with rfl | rfl | rfl | rfl <;> cases v <;> cases hv <;> exact ⟨_, rfl⟩
    obtain ⟨i, hi⟩ := hint
    rw [Value.quantity?_eq, Value.number?_of_int? hi, Option.map_some, Number.quantity_ofInt,
      Option.some.injEq] at hq
    exact ⟨i, hq.symm, by rw [Value.ofInt?_of_int? hv hi, Option.isSome_some]⟩
  · rintro ⟨n, rfl, hn⟩
    obtain ⟨v, hv⟩ := Option.isSome_iff_exists.mp hn
    obtain ⟨hkind, hint⟩ := Value.int?_of_ofInt? hv
    refine ⟨v, hkind, ?_⟩
    rw [Value.quantity?_eq, Value.number?_of_int? hint, Option.map_some, Number.quantity_ofInt]

/-- Double precision represents what words of its format denote. -/
theorem represents_f64_iff {q : Quantity} :
    f64.Represents q ↔ ∃ word, binary64.quantity word = q := by
  constructor
  · rintro ⟨v, hv, hq⟩
    cases v <;> cases hv
    exact ⟨_, Option.some.inj hq⟩
  · rintro ⟨word, rfl⟩
    refine ⟨.f64 (.ofNumber (binary64.decode word)), rfl, ?_⟩
    rw [Value.quantity?_eq, Value.number?, Binary64.number_ofNumber ⟨word, rfl⟩, Option.map_some,
      binary64.quantity_decode (by decide)]

/-- **Double precision** has significands of 53 bits. -/
theorem represents_f64_rational_iff {q : ℚ} : f64.Represents (.rational q) ↔
    ∃ m e : ℤ, q = m * 2 ^ e ∧ m.natAbs < 2 ^ 53 ∧ -1074 ≤ e ∧ e ≤ 971 := by
  have hsize : 2 * binary64.fractionSize = 2 ^ 53 := by decide
  have hleast : (1 - binary64.bias - binary64.fractionBits : ℤ) = -1074 := by decide
  have hgreatest : ((Nat.pow 2 binary64.exponentBits : ℕ) : ℤ) - 2 - binary64.bias -
      binary64.fractionBits = 971 := by decide
  rw [represents_f64_iff, BinaryFormat.exists_quantity_iff (by decide) (by decide), hsize, hleast,
    hgreatest]

end ScalarKind

end Crosswalk
