import Crosswalk.Proofs.Coercion
import Crosswalk.Proofs.Rounding

/-!
# Coercion by way of machine casts

`Value.coerce?` looks for the nearest value of the other kind and asks whether it denotes the very
same number. A machine has no exact numbers to ask that of. There a numeric value is carried over in
a wide integer or in double precision, is cast to the other kind, and what came out is cast back and
compared; before a cast to an integer, fractions and magnitudes above `10 ^ 38` are turned away.
Casts to floating point round to the nearest, casts to an integer cut fractions off and saturate at
the ends of the wide integer.

Both are the same function (`Value.coerceByCasts?_eq`). The casts that could spoil it are those that
change a number without being noticed when it comes back. None does:

* A whole number is rounded to a whole number, so nothing is cut off on the way back, and the wide
  integer is so wide that saturation cannot restore what rounding took away
  (`Number.truncate_encode_ofInt`).
* Rounding keeps the sign, so that a zero which is numerically equal is the same zero
  (`BinaryFormat.numericallyEqual_encode_iff`).
* Magnitudes that are turned away, infinities among them, are beyond all integer kinds
  (`Value.ofInt?_eq_none`).
-/

namespace Crosswalk

/-! ### Casts -/

/-- What a numeric value is carried over in: an integer of 128 bits or double precision. -/
inductive Carrier
  | int (n : Int)
  | float (x : Binary64)

namespace Carrier

/-- The greatest integer that can be carried over. -/
def greatest : Int := 170141183460469231731687303715884105727

/-- The least integer that can be carried over. -/
def least : Int := -170141183460469231731687303715884105728

end Carrier

namespace Number

/-- The cast to the wide integer: without the fraction, at the ends of the range where the number is
beyond it, and zero where there is no number. -/
def truncate : Number → Int
  | nan => 0
  | infinite negative => if negative then Carrier.least else Carrier.greatest
  | finite negative quanta =>
    max Carrier.least (min Carrier.greatest (signed negative (quanta / quantaPerOne)))

/-- Finite and without a fraction. -/
def isWhole : Number → Bool
  | finite _ quanta => decide (quanta % quantaPerOne = 0)
  | _ => false

/-- The number without its sign. -/
def abs : Number → Number
  | nan => nan
  | infinite _ => infinite false
  | finite _ quanta => finite false quanta

end Number

/-- `10 ^ 38` in double precision, which is a little less. -/
def Binary64.tenToThe38 : Binary64 := .ofNumber (.ofInt (10 ^ 38))

namespace Value

/-- The carrier of a numeric value. -/
def carrier? : Value → Option Carrier
  | i32 n => some (.int n.toInt)
  | i64 n => some (.int n.toInt)
  | u32 n => some (.int n.toNat)
  | u64 n => some (.int n.toNat)
  | f32 x => some (.float (.ofNumber x.number))
  | f64 x => some (.float x)
  | _ => none

/-- The value of a numeric kind that casts make of a carrier, if it survives them. -/
def ofCarrier? (kind : ScalarKind) (c : Carrier) : Option Value :=
  match kind, c with
  | .f64, .float x => some (.f64 x)
  | .f64, .int n =>
    let x := Binary64.ofNumber (.ofInt n)
    if x.number.truncate = n then some (.f64 x) else none
  | .f32, .float x =>
    let y := Binary32.ofNumber x.number
    if x.number = .nan ∨ (Binary64.ofNumber y.number).number.numericallyEqual x.number then
      some (.f32 y)
    else none
  | .f32, .int n =>
    let x := Binary32.ofNumber (.ofInt n)
    if x.number.truncate = n then some (.f32 x) else none
  | kind, .int n => ofInt? kind n
  | kind, .float x =>
    if x.number.isWhole ∧ x.number.abs.le Binary64.tenToThe38.number then
      ofInt? kind x.number.truncate
    else none

/-- Coercion to another scalar kind, by casts between machine numbers. -/
def coerceByCasts? (v : Value) (kind : ScalarKind) : Option Value :=
  if v.isNull ∨ v.scalarKind? = some kind then some v
  else
    match v, kind with
    | .timestamp t, .datetime => t.toDateTime.toOption.map .datetime
    | .datetime d, .timestamp => some (.timestamp (.ofDateTime d))
    | v, kind => if kind.isNumeric then v.carrier?.bind (ofCarrier? kind) else none

end Value

/-! ### To floating point and back -/

namespace Number

/-- **A whole number survives rounding and truncation exactly if rounding does not change it.** -/
theorem truncate_encode_ofInt {f : BinaryFormat} {bits : Nat}
    (hunit : f.step * 2 ^ bits = quantaPerOne) {n : Int} (hleast : Carrier.least < n)
    (hgreatest : n < Carrier.greatest) :
    (f.decode (f.encode (ofInt n))).truncate = n ↔ f.decode (f.encode (ofInt n)) = ofInt n := by
  rcases exists_whole_of_encode hunit n with h | ⟨whole, h⟩
  · rw [h]
    constructor
    · intro htruncate
      rw [truncate] at htruncate
      split at htruncate <;> omega
    · intro hinfinite
      cases hinfinite
  · have hdiv : whole * quantaPerOne / quantaPerOne = whole :=
      Nat.mul_div_cancel _ quantaPerOne_pos
    rw [h, truncate, hdiv]
    constructor
    · intro htruncate
      have hwhole : signed (decide (n < 0)) whole = n := by omega
      rw [ofInt, ← hwhole, natAbs_signed, hwhole]
    · intro hsame
      rw [ofInt, finite.injEq] at hsame
      have hwhole : whole = n.natAbs := Nat.eq_of_mul_eq_mul_right quantaPerOne_pos hsame.2
      rw [hwhole, signed_natAbs]
      omega

/-- No saturation, where the magnitude is small enough. -/
theorem max_min_signed {negative : Bool} {whole : Nat} (h : whole ≤ Carrier.greatest) :
    max Carrier.least (min Carrier.greatest (signed negative whole)) = signed negative whole := by
  have hnatAbs := natAbs_signed negative whole
  simp only [Carrier.least, Carrier.greatest] at h ⊢
  omega

theorem le_ofInt_iff {quanta n : Nat} :
    (finite false quanta).le (ofInt n) = true ↔ quanta ≤ n * quantaPerOne := by
  have hsign : decide ((n : Int) < 0) = false := decide_eq_false (by omega)
  rw [ofInt, hsign, Int.natAbs_natCast]
  exact decide_eq_true_iff.trans Int.ofNat_le

theorem numericallyEqual_finite_iff {negative : Bool} {a b : Nat} :
    (finite negative a).numericallyEqual (finite negative b) = true ↔ a = b := by
  show (decide (signed negative a ≤ signed negative b) &&
    decide (signed negative b ≤ signed negative a)) = true ↔ a = b
  rw [Bool.and_eq_true, decide_eq_true_eq, decide_eq_true_eq]
  cases negative <;> simp only [signed] <;> grind

end Number

/-- **Rounding keeps a number exactly if what comes out is numerically equal**, or if there was no
number to begin with. -/
theorem BinaryFormat.numericallyEqual_encode_iff {f : BinaryFormat} (hf : 0 < f.fractionBits)
    (n : Number) : n = .nan ∨ (f.decode (f.encode n)).numericallyEqual n = true ↔
      f.decode (f.encode n) = n := by
  cases n with
  | nan => simp [f.decode_encode_nan hf]
  | infinite negative => cases negative <;> simp [f.decode_encode_infinite] <;> rfl
  | finite negative quanta =>
    rw [f.decode_encode_finite]
    split
    · rw [Number.numericallyEqual_finite_iff, Number.finite.injEq]
      simp
    · cases negative <;> simp [Number.numericallyEqual, Number.le]

/-! ### To an integer -/

namespace Value

/-- Large numbers are beyond all integer kinds. -/
theorem ofInt?_eq_none {kind : ScalarKind} {n : Int} (h : 2 ^ 64 ≤ n.natAbs) :
    ofInt? kind n = none := by
  cases kind with
  | i32 | i64 | u32 | u64 => exact if_neg (by omega)
  | _ => rfl

/-- The bound lies above all integer kinds and within the wide integer. -/
theorem number_tenToThe38 : ∃ bound : Nat, Binary64.tenToThe38.number = .ofInt bound ∧
    2 ^ 64 ≤ bound ∧ bound ≤ Carrier.greatest :=
  ⟨99999999999999997748809823456034029568, by decide +kernel, by decide, by decide⟩

/-- **What is turned away before the cast to an integer is beyond all kinds**, and nothing else is
changed by saturation. -/
theorem ofInt?_truncate (kind : ScalarKind) (n : Number) :
    (if n.isWhole ∧ n.abs.le Binary64.tenToThe38.number then ofInt? kind n.truncate else none) =
      n.toInt?.bind (ofInt? kind) := by
  cases n with
  | nan | infinite negative =>
    rw [if_neg fun h => Bool.false_ne_true h.1]
    rfl
  | finite negative quanta =>
    obtain ⟨bound, hbound, hkinds, hgreatest⟩ := number_tenToThe38
    by_cases hwhole : quanta % Number.quantaPerOne = 0
    · have hquanta : quanta / Number.quantaPerOne * Number.quantaPerOne = quanta :=
        Nat.div_mul_cancel (Nat.dvd_of_mod_eq_zero hwhole)
      have hle : (Number.finite negative quanta).abs.le Binary64.tenToThe38.number = true ↔
          quanta / Number.quantaPerOne ≤ bound := by
        rw [hbound, Number.abs, Number.le_ofInt_iff,
          ← Nat.mul_le_mul_right_iff (n := quanta / _) Number.quantaPerOne_pos, hquanta]
      rw [Number.toInt?, if_pos hwhole, Option.bind_some, Number.truncate]
      split
      · next h =>
        rw [Number.max_min_signed (Int.le_trans (Int.ofNat_le.mpr (hle.mp h.2)) hgreatest)]
      · next h =>
        have hlarge := mt hle.mpr fun hle => h ⟨decide_eq_true hwhole, hle⟩
        refine (ofInt?_eq_none ?_).symm
        rw [Number.natAbs_signed]
        exact Nat.le_trans hkinds (Nat.le_of_not_le hlarge)
    · rw [Number.toInt?, if_neg hwhole, Option.bind_none, if_neg]
      rintro ⟨h, -⟩
      exact hwhole (of_decide_eq_true h)

/-! ### Coercion -/

/-- The integer kinds are far from the ends of the wide integer. -/
theorem int?_bounds {v : Value} {n : Int} (h : v.int? = some n) :
    Carrier.least < n ∧ n < Carrier.greatest := by
  obtain ⟨k, hk⟩ : ∃ k, v.scalarKind? = some k := by
    cases v <;> first | exact ⟨_, rfl⟩ | cases h
  have hsmall : n.natAbs < 2 ^ 64 := by
    by_contra hlarge
    have hnone : ofInt? k n = none := ofInt?_eq_none (Nat.le_of_not_lt hlarge)
    rw [ofInt?_of_int? hk h] at hnone
    cases hnone
  simp only [Carrier.least, Carrier.greatest]
  omega

/-- A value is carried over without loss, and what is carried over in double precision from a single
one has no payload of a `nan`. -/
theorem carrier?_cases (v : Value) :
    (v.carrier? = none ∧ v.number? = none) ∨
      (∃ n, v.carrier? = some (.int n) ∧ v.number? = some (.ofInt n) ∧
        Carrier.least < n ∧ n < Carrier.greatest) ∨
      ∃ x, v.carrier? = some (.float x) ∧ v.number? = some x.number ∧
        (v.scalarKind? = some .f64 ∨ Binary64.ofNumber x.number = x) := by
  have hbounds (n : Int) (h : v.int? = some n) := int?_bounds h
  cases v with
  | i32 n | i64 n | u32 n | u64 n => exact .inr (.inl ⟨_, rfl, rfl, hbounds _ rfl⟩)
  | f32 x =>
    have hnumber := Binary64.number_ofNumber (denotes_of_denotes x.denotes_number)
    exact .inr (.inr ⟨_, rfl, by rw [hnumber]; rfl, .inr (by rw [hnumber])⟩)
  | f64 x => exact .inr (.inr ⟨_, rfl, rfl, .inl rfl⟩)
  | _ => exact .inl ⟨rfl, rfl⟩

theorem ofCarrier?_int {kind : ScalarKind} (hkind : kind.isNumeric = true) {n : Int}
    (hleast : Carrier.least < n) (hgreatest : n < Carrier.greatest) :
    ofCarrier? kind (.int n) = ofNumber? kind (.ofInt n) := by
  have hunit32 : binary32.step * 2 ^ 149 = Number.quantaPerOne := by decide +kernel
  have hunit64 : binary64.step * 2 ^ 1074 = Number.quantaPerOne := by decide +kernel
  cases kind with
  | f32 =>
    have h := Number.truncate_encode_ofInt hunit32 hleast hgreatest
    rw [← Binary32.number_ofNumber_eq] at h
    simp only [ofCarrier?, ofNumber?, h]
  | f64 =>
    have h := Number.truncate_encode_ofInt hunit64 hleast hgreatest
    rw [← Binary64.number_ofNumber_eq] at h
    simp only [ofCarrier?, ofNumber?, h]
  | i32 | i64 | u32 | u64 => exact (congrArg (Option.bind · _) (Number.toInt?_ofInt n)).symm
  | _ => cases hkind

theorem ofCarrier?_float {kind : ScalarKind} (hkind : kind.isNumeric = true) {x : Binary64}
    (hx : kind = .f64 → Binary64.ofNumber x.number = x) :
    ofCarrier? kind (.float x) = ofNumber? kind x.number := by
  cases kind with
  | f32 =>
    have h := binary32.numericallyEqual_encode_iff (by decide) x.number
    rw [← Binary32.number_ofNumber_eq] at h
    simp only [ofCarrier?, ofNumber?,
      Binary64.number_ofNumber (denotes_of_denotes (Binary32.denotes_number _)), h]
  | f64 => simp only [ofCarrier?, ofNumber?, hx rfl, if_true]
  | i32 | i64 | u32 | u64 => exact ofInt?_truncate _ _
  | _ => cases hkind

/-- **Coercion by casts is coercion by exact numbers.** -/
theorem coerceByCasts?_eq (v : Value) (kind : ScalarKind) :
    v.coerceByCasts? kind = v.coerce? kind := by
  rw [coerceByCasts?.eq_def, coerce?.eq_def]
  by_cases hsame : v.isNull = true ∨ v.scalarKind? = some kind
  · rw [if_pos hsame, if_pos hsame]
  · rw [if_neg hsame, if_neg hsame]
    have hnumber : (if kind.isNumeric then v.carrier?.bind (ofCarrier? kind) else none) =
        v.number?.bind (ofNumber? kind) := by
      split
      · next hkind =>
        rcases v.carrier?_cases with ⟨hc, hn⟩ | ⟨n, hc, hn, hleast, hgreatest⟩ | ⟨x, hc, hn, hx⟩
        · rw [hc, hn, Option.bind_none, Option.bind_none]
        · rw [hc, hn, Option.bind_some, Option.bind_some, ofCarrier?_int hkind hleast hgreatest]
        · rw [hc, hn, Option.bind_some, Option.bind_some, ofCarrier?_float hkind]
          exact fun hf64 => hx.resolve_left fun hv => hsame (.inr (by rw [hv, hf64]))
      · next hkind =>
        rw [ofNumber?_of_not_numeric hkind, Option.bind_fun_none]
    cases v with
    | timestamp t | datetime d => cases kind <;> rfl
    | _ => exact hnumber

end Value

end Crosswalk
