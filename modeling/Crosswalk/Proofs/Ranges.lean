import Crosswalk.Proofs.ExactCoercion
import Crosswalk.Rule
import Mathlib.Algebra.Order.Field.Basic

/-!
# What a range lets through

A range compares a number with its two ends in double precision. Most numbers are doubles and are
compared as what they are. A 64-bit integer beyond `2 ^ 53` need not be one; it is rounded first,
and may be rounded to the very end of the range that it lies beyond.

That is all that can go wrong (`Rule.range_holds_iff`). Rounding keeps the order of numbers, and the
ends, being doubles, stay where they are. So a number inside the range is always let through, and
one outside of it only if it is rounded to the end that it has passed. `Rule.range_passes_end` is
such a number.
-/

namespace Crosswalk

/-! ### Rounding keeps the order -/

namespace Number

theorem infinite_le {n : Number} (h : n ≠ .nan) : (infinite true).le n = true := by
  cases n with
  | nan => exact absurd rfl h
  | _ => rfl

theorem le_infinite {n : Number} (h : n ≠ .nan) : n.le (infinite false) = true := by
  cases n with
  | nan => exact absurd rfl h
  | infinite negative => cases negative <;> rfl
  | finite => rfl

/-- Numbers are in order if one of them is an infinity at its own end, or both are finite. -/
theorem le_cases {n n' : Number} (h : n.le n' = true) :
    (n = infinite true ∧ n' ≠ .nan) ∨ (n ≠ .nan ∧ n' = infinite false) ∨
      ∃ s a t b, n = finite s a ∧ n' = finite t b ∧ signed s a ≤ signed t b := by
  cases n with
  | nan => cases h
  | infinite s =>
    cases s with
    | true =>
      refine .inl ⟨rfl, ?_⟩
      rintro rfl
      cases h
    | false =>
      cases n' with
      | infinite t =>
        cases t with
        | true => cases h
        | false => exact .inr (.inl ⟨Number.noConfusion, rfl⟩)
      | _ => cases h
  | finite s a =>
    cases n' with
    | nan => cases h
    | infinite t =>
      cases t with
      | true => cases h
      | false => exact .inr (.inl ⟨Number.noConfusion, rfl⟩)
    | finite t b => exact .inr (.inr ⟨s, a, t, b, rfl, rfl, of_decide_eq_true h⟩)

end Number

namespace BinaryFormat

variable (f : BinaryFormat)

/-- A greater magnitude has no lesser nearest word, since the two would better be exchanged. -/
theorem nearestWord_mono : Monotone f.nearestWord := by
  intro a b h
  by_contra hlt
  rw [Nat.not_le] at hlt
  have hmagnitude := Nat.mul_lt_mul_of_pos_right (f.strictMono_magnitude hlt) f.step_pos
  have ha := f.dist_nearestWord_le a (f.nearestWord_le b)
  have hb := f.dist_nearestWord_le b (f.nearestWord_le a)
  simp only [Nat.dist] at ha hb
  obtain rfl : a = b := by omega
  exact Nat.lt_irrefl _ hlt

/-- What a magnitude of the sign is rounded to, as the number of its word. Words up to that of
infinity are in order. -/
def roundedTo (negative : Bool) (word : Nat) : Number :=
  if word < f.infinityWord then .finite negative (f.magnitude word * f.step)
  else .infinite negative

theorem roundedTo_ne_nan (negative : Bool) (word : Nat) : f.roundedTo negative word ≠ .nan := by
  rw [roundedTo]
  split <;> exact Number.noConfusion

theorem roundedTo_mono {word word' : Nat} (h : word ≤ word') :
    (f.roundedTo false word).le (f.roundedTo false word') = true ∧
      (f.roundedTo true word').le (f.roundedTo true word) = true := by
  by_cases hinfinite : word' < f.infinityWord
  · have hmagnitude : f.magnitude word * f.step ≤ f.magnitude word' * f.step :=
      Nat.mul_le_mul_right _ (f.strictMono_magnitude.monotone h)
    rw [roundedTo, roundedTo, roundedTo, roundedTo, if_pos hinfinite, if_pos (by omega),
      if_pos hinfinite, if_pos (by omega)]
    refine ⟨decide_eq_true ?_, decide_eq_true ?_⟩ <;> simp only [Number.signed] <;> grind
  · have hend (negative : Bool) : f.roundedTo negative word' = .infinite negative :=
      if_neg hinfinite
    rw [hend, hend]
    exact ⟨Number.le_infinite (f.roundedTo_ne_nan _ _), Number.infinite_le (f.roundedTo_ne_nan _ _)⟩

theorem roundedTo_nearestWord_zero (hf : 0 < f.infinityWord) (negative : Bool) :
    f.roundedTo negative (f.nearestWord 0) = .finite negative 0 := by
  have hmagnitude : f.magnitude 0 = 0 := f.magnitude_of_lt f.fractionSize_pos
  have hzero := f.nearestWord_magnitude (Nat.zero_le f.infinityWord)
  rw [hmagnitude, Nat.zero_mul] at hzero
  rw [hzero, roundedTo, if_pos hf, hmagnitude, Nat.zero_mul]

/-- Negative numbers come before positive ones, however they are rounded. -/
theorem roundedTo_le_roundedTo (word word' : Nat) :
    (f.roundedTo true word).le (f.roundedTo false word') = true := by
  rw [roundedTo, roundedTo]
  split <;> split <;> first | rfl | exact decide_eq_true (by simp only [Number.signed]; grind)

/-- **Rounding keeps the order of numbers**, whatever their signs are. -/
theorem decode_encode_mono (hf : 0 < f.infinityWord) {n n' : Number} (h : n.le n' = true) :
    (f.decode (f.encode n)).le (f.decode (f.encode n')) = true := by
  have hfinite (s : Bool) (a : Nat) :
      f.decode (f.encode (.finite s a)) = f.roundedTo s (f.nearestWord a) :=
    f.decode_encode_finite s a
  have hnan {n : Number} (hn : n ≠ .nan) : f.decode (f.encode n) ≠ .nan := by
    cases n with
    | nan => exact absurd rfl hn
    | infinite s => rw [f.decode_encode_infinite]; exact Number.noConfusion
    | finite s a => rw [hfinite]; exact f.roundedTo_ne_nan _ _
  rcases Number.le_cases h with ⟨rfl, hn'⟩ | ⟨hn, rfl⟩ | ⟨s, a, t, b, rfl, rfl, hle⟩
  · rw [f.decode_encode_infinite]
    exact Number.infinite_le (hnan hn')
  · rw [f.decode_encode_infinite]
    exact Number.le_infinite (hnan hn)
  · rw [hfinite, hfinite]
    cases s <;> cases t <;>
      simp only [Number.signed, if_true, if_false, Bool.false_eq_true] at hle
    · exact (f.roundedTo_mono (f.nearestWord_mono (by omega))).1
    · -- A positive number is at most a negative one only if both are zero.
      obtain rfl : a = 0 := by omega
      obtain rfl : b = 0 := by omega
      rw [f.roundedTo_nearestWord_zero hf, f.roundedTo_nearestWord_zero hf]
      rfl
    · exact f.roundedTo_le_roundedTo _ _
    · exact (f.roundedTo_mono (f.nearestWord_mono (by omega))).2

end BinaryFormat

/-! ### Quantities in order -/

namespace Quantity

/-- The order of the rational numbers, with an infinity at either end. What is no number is not
comparable with anything. -/
inductive Le : Quantity → Quantity → Prop
  | least {q : Quantity} (hq : q ≠ nan) : Le (infinite true) q
  | greatest {q : Quantity} (hq : q ≠ nan) : Le q (infinite false)
  | rational {a b : ℚ} (h : a ≤ b) : Le (rational a) (rational b)

instance : LE Quantity := ⟨Le⟩

/-- Quantities are in order if one of them is an infinity at its own end, or both are rational. -/
theorem le_cases {p q : Quantity} (h : p ≤ q) : (p = infinite true ∧ q ≠ nan) ∨
    (p ≠ nan ∧ q = infinite false) ∨ ∃ a b, p = rational a ∧ q = rational b ∧ a ≤ b := by
  cases h with
  | least hq => exact .inl ⟨rfl, hq⟩
  | greatest hp => exact .inr (.inl ⟨hp, rfl⟩)
  | rational h => exact .inr (.inr ⟨_, _, rfl, rfl, h⟩)

theorem le_total {p q : Quantity} (hp : p ≠ nan) (hq : q ≠ nan) : p ≤ q ∨ q ≤ p := by
  cases p with
  | nan => exact absurd rfl hp
  | infinite s =>
    cases s with
    | true => exact .inl (.least hq)
    | false => exact .inr (.greatest hq)
  | rational a =>
    cases q with
    | nan => exact absurd rfl hq
    | infinite t =>
      cases t with
      | true => exact .inr (.least hp)
      | false => exact .inl (.greatest hp)
    | rational b => exact (Std.le_total (a := a) (b := b)).imp .rational .rational

theorem le_refl {q : Quantity} (hq : q ≠ nan) : q ≤ q := (le_total hq hq).elim id id

theorem le_antisymm {p q : Quantity} (h : p ≤ q) (h' : q ≤ p) : p = q := by
  cases h with
  | least hq => cases h' with | least => rfl
  | greatest hp => cases h' with | greatest => rfl
  | rational h => cases h' with | rational h' => rw [Rat.le_antisymm h h']

end Quantity

namespace Number

theorem quantity_eq_nan_iff {n : Number} : n.quantity = .nan ↔ n = .nan := by
  cases n <;> simp only [quantity, reduceCtorEq]

theorem quantity_eq_infinite_iff {n : Number} {negative : Bool} :
    n.quantity = .infinite negative ↔ n = .infinite negative := by
  cases n <;> simp only [quantity, reduceCtorEq, Quantity.infinite.injEq, infinite.injEq]

theorem exists_finite_of_quantity_eq {n : Number} {a : ℚ} (h : n.quantity = .rational a) :
    ∃ negative quanta, n = finite negative quanta := by
  cases n with
  | finite negative quanta => exact ⟨negative, quanta, rfl⟩
  | _ => cases h

/-- Where one magnitude is nearer than another, and nearer than zero, the signs do not matter. -/
theorem natAbs_sub_le {a b m : Nat} (s t : Bool) (h : Nat.dist m a ≤ Nat.dist m b)
    (hzero : Nat.dist m a ≤ Nat.dist m 0) :
    (signed s a - signed s m).natAbs ≤ (signed t b - signed s m).natAbs := by
  simp only [Nat.dist] at h hzero
  cases s <;> cases t <;> simp only [signed, if_true, if_false, Bool.false_eq_true] <;> omega

/-- **Numbers are in order as the quantities are that they denote.** -/
theorem le_iff {n n' : Number} : n.le n' = true ↔ n.quantity ≤ n'.quantity := by
  have hcast {s t : Bool} {a b : Nat} : signed s a ≤ signed t b ↔
      (signed s a / quantaPerOne : ℚ) ≤ signed t b / quantaPerOne := by
    rw [div_le_div_iff_of_pos_right (Nat.cast_pos.mpr quantaPerOne_pos), Int.cast_le]
  constructor
  · intro h
    rcases le_cases h with ⟨rfl, hn'⟩ | ⟨hn, rfl⟩ | ⟨s, a, t, b, rfl, rfl, hle⟩
    · exact .least (mt quantity_eq_nan_iff.mp hn')
    · exact .greatest (mt quantity_eq_nan_iff.mp hn)
    · exact .rational (hcast.mp hle)
  · intro h
    rcases Quantity.le_cases h with ⟨hn, hn'⟩ | ⟨hn, hn'⟩ | ⟨a, b, hn, hn', hle⟩
    · rw [quantity_eq_infinite_iff.mp hn]
      exact infinite_le (mt quantity_eq_nan_iff.mpr hn')
    · rw [quantity_eq_infinite_iff.mp hn']
      exact le_infinite (mt quantity_eq_nan_iff.mpr hn)
    · obtain ⟨s, m, rfl⟩ := exists_finite_of_quantity_eq hn
      obtain ⟨t, m', rfl⟩ := exists_finite_of_quantity_eq hn'
      cases hn
      cases hn'
      exact decide_eq_true (hcast.mpr hle)

end Number

/-! ### Doubles -/

namespace Binary64

/-- What a double denotes, by the fields of its word. -/
def quantity (x : Binary64) : Quantity := binary64.quantity x.bits.toNat

theorem quantity_eq (x : Binary64) : x.quantity = x.number.quantity :=
  (binary64.quantity_decode (by decide) _).symm

variable {x : Binary64} {n n' : Number}

theorem quantity_ofNumber (n : Number) :
    (ofNumber n).quantity = (binary64.decode (binary64.encode n)).quantity := by
  rw [quantity_eq, number_ofNumber_eq]

theorem quantity_ofNumber_mono (h : n.quantity ≤ n'.quantity) :
    (ofNumber n).quantity ≤ (ofNumber n').quantity := by
  rw [quantity_ofNumber, quantity_ofNumber, ← Number.le_iff]
  exact binary64.decode_encode_mono (by decide) (Number.le_iff.mpr h)

/-- What double precision represents is kept. -/
theorem quantity_ofNumber_of_represents (h : ScalarKind.f64.Represents n.quantity) :
    (ofNumber n).quantity = n.quantity := by
  have hsome : (Value.ofNumber? .f64 n).isSome = true := (Value.isSome_ofNumber?_iff rfl).mpr h
  rw [Value.ofNumber?] at hsome
  split at hsome
  · next hsame => rw [quantity_eq, hsame]
  · cases hsome

theorem quantity_ofNumber_number (x : Binary64) : (ofNumber x.number).quantity = x.quantity := by
  rw [quantity_ofNumber_of_represents, ← quantity_eq]
  rw [← quantity_eq]
  exact ⟨.f64 x, rfl, rfl⟩

/-- No number is rounded past a double. -/
theorem quantity_le_ofNumber (h : x.quantity ≤ n.quantity) :
    x.quantity ≤ (ofNumber n).quantity := by
  rw [quantity_eq] at h
  rw [← quantity_ofNumber_number x]
  exact quantity_ofNumber_mono h

theorem ofNumber_le_quantity (h : n.quantity ≤ x.quantity) :
    (ofNumber n).quantity ≤ x.quantity := by
  rw [quantity_eq] at h
  rw [← quantity_ofNumber_number x]
  exact quantity_ofNumber_mono h

/-- **A double is at most what a number is rounded to** exactly if it is at most the number, or is
what the number is rounded to. -/
theorem quantity_le_ofNumber_iff (hx : x.quantity ≠ .nan) (hn : n.quantity ≠ .nan) :
    x.quantity ≤ (ofNumber n).quantity ↔
      x.quantity ≤ n.quantity ∨ (ofNumber n).quantity = x.quantity := by
  constructor
  · intro h
    refine (Quantity.le_total hx hn).imp_right fun hbelow => ?_
    exact Quantity.le_antisymm (ofNumber_le_quantity hbelow) h
  · rintro (h | h)
    · exact quantity_le_ofNumber h
    · rw [h]
      exact Quantity.le_refl hx

theorem ofNumber_le_quantity_iff (hx : x.quantity ≠ .nan) (hn : n.quantity ≠ .nan) :
    (ofNumber n).quantity ≤ x.quantity ↔
      n.quantity ≤ x.quantity ∨ (ofNumber n).quantity = x.quantity := by
  constructor
  · intro h
    refine (Quantity.le_total hn hx).imp_right fun habove => ?_
    exact Quantity.le_antisymm h (quantity_le_ofNumber habove)
  · rintro (h | h)
    · exact ofNumber_le_quantity h
    · rw [h]
      exact Quantity.le_refl hx

/-- **No double is nearer** than the one that a number is rounded to. -/
theorem abs_sub_ofNumber_le {r e c : ℚ} (hr : n.quantity = .rational r)
    (he : (ofNumber n).quantity = .rational e) {y : Binary64} (hy : y.quantity = .rational c) :
    |e - r| ≤ |c - r| := by
  obtain ⟨s, quanta, rfl⟩ := Number.exists_finite_of_quantity_eq hr
  rw [quantity_ofNumber, binary64.decode_encode_finite] at he
  split at he
  · rw [quantity_eq] at hy
    rcases binary64.decode_cases y.bits.toNat with ⟨t, word, hword, h⟩ | ⟨t, h⟩ | h
    · rw [number, h] at hy
      cases hr
      cases he
      cases hy
      have hnearest := binary64.dist_nearestWord_le quanta (Nat.le_of_lt hword)
      have hzero := binary64.dist_nearestWord_le quanta (Nat.zero_le binary64.infinityWord)
      rw [binary64.magnitude_of_lt binary64.fractionSize_pos, Nat.zero_mul] at hzero
      have hle := Nat.cast_le (α := ℚ).mpr (Number.natAbs_sub_le s t hnearest hzero)
      rw [Nat.cast_natAbs, Nat.cast_natAbs, Int.cast_abs, Int.cast_abs, Int.cast_sub,
        Int.cast_sub] at hle
      rw [← sub_div, ← sub_div, abs_div, abs_div]
      exact div_le_div_of_nonneg_right hle (abs_nonneg _)
    · rw [number, h] at hy
      cases hy
    · rw [number, h] at hy
      cases hy
  · cases he

end Binary64

/-! ### The range rule -/

namespace ScalarKind

/-- Double precision has the whole numbers up to `2 ^ 53`. -/
theorem represents_f64_of_natAbs_le {n : ℤ} (h : n.natAbs ≤ 2 ^ 53) :
    f64.Represents (.rational n) := by
  rw [represents_f64_rational_iff]
  rcases Nat.lt_or_eq_of_le h with hlt | heq
  · exact ⟨n, 0, by simp, hlt, by decide, by decide⟩
  · -- The bound itself has one bit too many, the last of which is zero.
    obtain ⟨m, rfl⟩ : ∃ m, n = m * 2 := ⟨n / 2, by omega⟩
    exact ⟨m, 1, by simp, by omega, by decide, by decide⟩

end ScalarKind

namespace Value

variable {v : Value} {q : Quantity}

/-- The double that a numeric value is compared as. -/
def nearestDouble? (v : Value) : Option Binary64 := v.number?.map .ofNumber

/-- **Only large 64-bit integers are not doubles.** -/
theorem represents_f64_or (hq : v.quantity? = some q) : ScalarKind.f64.Represents q ∨
    (v.scalarKind? = some .i64 ∨ v.scalarKind? = some .u64) ∧
      ∃ n : ℤ, q = .rational n ∧ 2 ^ 53 < n.natAbs := by
  have hwiden {k : ScalarKind} (hv : v.scalarKind? = some k) (h : k.widensTo .f64 = true) :
      ScalarKind.f64.Represents q :=
    (isSome_coerce?_iff hv (ScalarKind.numeric_of_widensTo h).1 rfl hq).mp
      (isSome_coerce?_of_widensTo hv h)
  have hlarge (n : ℤ) : ScalarKind.f64.Represents (.rational n) ∨ 2 ^ 53 < n.natAbs :=
    (Nat.lt_or_ge (2 ^ 53) n.natAbs).symm.imp_left ScalarKind.represents_f64_of_natAbs_le
  cases v with
  | i32 | u32 | f32 => exact .inl (hwiden rfl rfl)
  | f64 x => exact .inl ⟨_, rfl, hq⟩
  | i64 n =>
    cases hq
    exact (hlarge n.toInt).imp_right fun h => ⟨.inl rfl, _, rfl, h⟩
  | u64 n =>
    cases hq
    exact (hlarge n.toNat).imp_right fun h => ⟨.inr rfl, _, rfl, h⟩
  | _ => cases hq

/-- A value lies in a range if the double lies in it that it is compared as. -/
theorem holds_between_iff {n : Number} (hn : v.number? = some n) (least most : Binary64) :
    (Requirement.between least most).holds v = true ↔
      least.quantity ≤ (Binary64.ofNumber n).quantity ∧
        (Binary64.ofNumber n).quantity ≤ most.quantity := by
  rw [Requirement.holds, hn, Option.all_some, Bool.and_eq_true, Number.le_iff, Number.le_iff,
    ← Binary64.quantity_eq, ← Binary64.quantity_eq, ← Binary64.quantity_eq]

end Value

/-- **What a range lets through.** A value is compared as a double to which none is nearer. It is
let through exactly if it keeps to each end of the range or is compared as that end. So all that
lies in the range is let through; and nothing else is, of the numbers that are doubles themselves.
The others are 64-bit integers beyond `2 ^ 53`. -/
theorem Rule.range_holds_iff {σ : Type} (audit : Audit σ) (field : String)
    {least most : Binary64} {a b : ℚ} (hleast : least.quantity = .rational a)
    (hmost : most.quantity = .rational b) {v : Value} {q : Quantity} (hv : v.quantity? = some q)
    (hq : q ≠ .nan) :
    let holds := ((Rule.asking field (.between least most)).check v audit).1
    ∃ x, v.nearestDouble? = some x ∧
      (∀ r e, q = .rational r → x.quantity = .rational e →
        ∀ y : Binary64, ∀ c, y.quantity = .rational c → |e - r| ≤ |c - r|) ∧
      (holds = true ↔ (.rational a ≤ q ∨ x.quantity = .rational a) ∧
        (q ≤ .rational b ∨ x.quantity = .rational b)) ∧
      (ScalarKind.f64.Represents q →
        (holds = true ↔ .rational a ≤ q ∧ q ≤ .rational b)) ∧
      (¬ ScalarKind.f64.Represents q →
        (v.scalarKind? = some .i64 ∨ v.scalarKind? = some .u64) ∧
          ∃ n : ℤ, q = .rational n ∧ 2 ^ 53 < n.natAbs) := by
  intro holds
  have hnumber := hv
  rw [Value.quantity?_eq, Option.map_eq_some_iff] at hnumber
  obtain ⟨n, hn, rfl⟩ := hnumber
  have hrational {x : Binary64} {r : ℚ} (hx : x.quantity = .rational r) : x.quantity ≠ .nan := by
    rw [hx]
    exact Quantity.noConfusion
  have hholds : holds = true ↔
      (.rational a ≤ n.quantity ∨ (Binary64.ofNumber n).quantity = .rational a) ∧
        (n.quantity ≤ .rational b ∨ (Binary64.ofNumber n).quantity = .rational b) := by
    rw [← hleast, ← hmost, ← Binary64.quantity_le_ofNumber_iff (hrational hleast) hq,
      ← Binary64.ofNumber_le_quantity_iff (hrational hmost) hq]
    exact Value.holds_between_iff hn least most
  refine ⟨.ofNumber n, by rw [Value.nearestDouble?, hn, Option.map_some], ?_, hholds, fun h => ?_,
    (Value.represents_f64_or hv).resolve_left⟩
  · exact fun r e hr he y c hy => Binary64.abs_sub_ofNumber_le hr he hy
  · rw [hholds, Binary64.quantity_ofNumber_of_represents h]
    have hle {r : ℚ} (hr : n.quantity = .rational r) :
        .rational r ≤ n.quantity ∧ n.quantity ≤ .rational r := by
      rw [← hr]
      exact ⟨Quantity.le_refl hq, Quantity.le_refl hq⟩
    rw [or_iff_left_of_imp fun hr => (hle hr).1, or_iff_left_of_imp fun hr => (hle hr).2]

namespace Counters

/-- The counts up to `2 ^ 53`. -/
def range : Rule Unit := .asking "count" (.between .zero ⟨0x4340000000000000⟩)

/-- No rule has been run yet. -/
def audit : Audit Unit := ⟨(), []⟩

/-- The number after that. -/
def tooMany : Value := .i64 9007199254740993

theorem quantity_zero : Binary64.zero.quantity = .rational (0 : ℤ) := by
  have hnumber : Binary64.zero.number = .ofInt 0 := by decide +kernel
  rw [Binary64.quantity_eq, hnumber, Number.quantity_ofInt]

theorem quantity_last :
    (⟨0x4340000000000000⟩ : Binary64).quantity = .rational (9007199254740992 : ℤ) := by
  have hnumber : (⟨0x4340000000000000⟩ : Binary64).number = .ofInt 9007199254740992 := by
    decide +kernel
  rw [Binary64.quantity_eq, hnumber, Number.quantity_ofInt]

/-- The number that is too large is not at most the end of the range. -/
theorem not_le_last :
    ¬ Quantity.rational (9007199254740993 : ℤ) ≤ .rational (9007199254740992 : ℤ) := by
  intro h
  cases h with
  | rational h => exact absurd (Int.cast_le.mp h) (by decide)

end Counters

/-- One count too many is compared as the last one. -/
theorem Rule.range_holds_iff_tooMany :
    Counters.tooMany.quantity? = some (.rational (9007199254740993 : ℤ)) ∧
      ∃ x, Counters.tooMany.nearestDouble? = some x ∧
        x.quantity = .rational (9007199254740992 : ℤ) := by
  have hv : Counters.tooMany.quantity? = some (.rational (9007199254740993 : ℤ)) := rfl
  obtain ⟨x, hx, -, hholds, -, -⟩ := range_holds_iff Counters.audit "count"
    Counters.quantity_zero Counters.quantity_last hv Quantity.noConfusion
  have htrue : (Counters.range.check Counters.tooMany Counters.audit).1 = true := by
    decide +kernel
  exact ⟨hv, x, hx, (hholds.mp htrue).2.resolve_left Counters.not_le_last⟩

/-- A count beyond the end of its range is let through. -/
theorem Rule.range_passes_end :
    ∃ least most q, Counters.range = .asking "count" (.between least most) ∧
      least.quantity = .rational (0 : ℤ) ∧ most.quantity = .rational (9007199254740992 : ℤ) ∧
      Counters.tooMany.quantity? = some q ∧
      ¬ ((Counters.range.check Counters.tooMany Counters.audit).1 = true ↔
        least.quantity ≤ q ∧ q ≤ most.quantity) := by
  refine ⟨_, _, _, rfl, Counters.quantity_zero, Counters.quantity_last, rfl, fun h => ?_⟩
  have hle := (h.mp (by decide +kernel)).2
  rw [Counters.quantity_last] at hle
  exact Counters.not_le_last hle

end Crosswalk
