import Crosswalk.Copy.Flat
import Crosswalk.Proofs.BinaryWords

/-!
# What coercion keeps

A coercion between numeric kinds goes through the exact number and accepts it or not. So the value
that comes out denotes the number that went in, up to the sign of a zero, which no integer kind has
(`Value.number?_of_ofNumber?`). Four things follow.

* The result is of the kind that was asked for (`ScalarConversion.Between.scalarKind?_image?`).
* Where every number of the one kind is a number of the other, nothing is rejected, and no instant
  is rejected on its way to a timestamp (`ScalarConversion.Between.isSome_image?`).
* What was accepted is accepted on the way back, and comes back as what it was
  (`ScalarConversion.Between.exists_image?_back`). Only an instant within a leap second does not.
* What came back makes the same again, also where it is not what it was
  (`ScalarConversion.Between.image?_of_back`).

Two floating-point values that are both `nan` differ for `Value.same` when their words do, and a
word does not survive the way through another format. `Value.Alike` counts them as one.
-/

namespace Crosswalk

namespace Number

/-- The second number is the first one, or the positive zero in place of the negative one. -/
def ForgetsSign (n n' : Number) : Prop := n' = n ∨ (n = .finite true 0 ∧ n' = .finite false 0)

theorem forgetsSign_refl (n : Number) : ForgetsSign n n := .inl rfl

@[simp] theorem natAbs_signed (negative : Bool) (quanta : Nat) :
    (signed negative quanta).natAbs = quanta := by
  cases negative <;> simp [signed]

/-- An integer is its magnitude with its sign. -/
@[simp] theorem signed_natAbs (n : Int) : signed (decide (n < 0)) n.natAbs = n := by
  rw [signed]
  simp only [decide_eq_true_eq]
  split <;> omega

theorem ofInt_signed (negative : Bool) (whole : Nat) :
    ForgetsSign (.finite negative (whole * quantaPerOne)) (ofInt (signed negative whole)) := by
  cases negative with
  | false => exact .inl (by simp [ofInt, signed])
  | true =>
    by_cases hwhole : whole = 0
    · exact .inr (by simp [hwhole, ofInt, signed])
    · have hpos : 0 < whole := Nat.pos_of_ne_zero hwhole
      exact .inl (by simp [ofInt, signed, hpos])

theorem forgetsSign_of_toInt? {n : Number} {i : Int} (h : n.toInt? = some i) :
    ForgetsSign n (ofInt i) := by
  cases n with
  | nan => cases h
  | infinite negative => cases h
  | finite negative quanta =>
    rw [toInt?] at h
    split at h
    · next hwhole =>
      have hquanta : quanta / quantaPerOne * quantaPerOne = quanta :=
        Nat.div_mul_cancel (Nat.dvd_of_mod_eq_zero hwhole)
      have hsigned := ofInt_signed negative (quanta / quantaPerOne)
      rwa [hquanta, Option.some.inj h] at hsigned
    · cases h

/-- Whole numbers have no negative zero. -/
theorem ofInt_ne_negative_zero (i : Int) : ofInt i ≠ .finite true 0 := by
  intro h
  rw [ofInt, Number.finite.injEq, decide_eq_true_eq, Nat.mul_eq_zero] at h
  have := quantaPerOne_pos
  omega

/-- Apart from `nan`, a number equals itself and what forgetting its sign makes of it. -/
theorem ForgetsSign.numericallyEqual {n n' : Number} (h : ForgetsSign n n') (hn : n ≠ .nan) :
    n'.numericallyEqual n = true := by
  rcases h with rfl | ⟨rfl, rfl⟩
  · cases n' with
    | nan => exact absurd rfl hn
    | infinite negative => cases negative <;> rfl
    | finite negative quanta =>
      show (decide _ && decide _) = true
      simp
  · rfl

end Number

namespace Value

/-! ### Integer kinds -/

/-- The integer that a value of an integer kind is. -/
def int? : Value → Option Int
  | i32 n => some n.toInt
  | i64 n => some n.toInt
  | u32 n => some n.toNat
  | u64 n => some n.toNat
  | _ => none

theorem number?_of_int? {v : Value} {i : Int} (h : v.int? = some i) :
    v.number? = some (.ofInt i) := by
  cases v <;> cases h <;> rfl

/-- A value of an integer kind is found again by its integer. -/
theorem ofInt?_of_int? {v : Value} {k : ScalarKind} {i : Int} (hk : v.scalarKind? = some k)
    (h : v.int? = some i) : ofInt? k i = some v := by
  cases v with
  | i32 n =>
    cases hk
    cases h
    have := n.le_toInt
    have := n.toInt_lt
    rw [ofInt?, if_pos (by omega), Int32.ofInt_toInt]
  | i64 n =>
    cases hk
    cases h
    have := n.le_toInt
    have := n.toInt_lt
    rw [ofInt?, if_pos (by omega), Int64.ofInt_toInt]
  | u32 n =>
    cases hk
    cases h
    have := n.toNat_lt
    rw [ofInt?, if_pos (by omega), Int.toNat_natCast, UInt32.ofNat_toNat]
  | u64 n =>
    cases hk
    cases h
    have := n.toNat_lt
    rw [ofInt?, if_pos (by omega), Int.toNat_natCast, UInt64.ofNat_toNat]
  | _ => cases h

theorem int?_of_ofInt? {k : ScalarKind} {i : Int} {v : Value} (h : ofInt? k i = some v) :
    v.scalarKind? = some k ∧ v.int? = some i := by
  cases k with
  | i32 =>
    rw [ofInt?, Option.ite_none_right_eq_some] at h
    obtain ⟨hrange, h⟩ := h
    cases h
    exact ⟨rfl, by rw [int?, Int32.toInt_ofInt_of_le (by omega) (by omega)]⟩
  | i64 =>
    rw [ofInt?, Option.ite_none_right_eq_some] at h
    obtain ⟨hrange, h⟩ := h
    cases h
    exact ⟨rfl, by rw [int?, Int64.toInt_ofInt_of_le (by omega) (by omega)]⟩
  | u32 =>
    rw [ofInt?, Option.ite_none_right_eq_some] at h
    obtain ⟨hrange, h⟩ := h
    cases h
    have hlt : i.toNat < 2 ^ 32 := by omega
    exact ⟨rfl, by rw [int?, UInt32.toNat_ofNat_of_lt' hlt, Int.toNat_of_nonneg hrange.1]⟩
  | u64 =>
    rw [ofInt?, Option.ite_none_right_eq_some] at h
    obtain ⟨hrange, h⟩ := h
    cases h
    have hlt : i.toNat < 2 ^ 64 := by omega
    exact ⟨rfl, by rw [int?, UInt64.toNat_ofNat_of_lt' hlt, Int.toNat_of_nonneg hrange.1]⟩
  | _ => cases h

/-! ### Numeric kinds -/

/-- A value of a numeric kind is of one of the two floating-point kinds or has an integer. -/
theorem numeric_cases {v : Value} {k : ScalarKind} (hk : v.scalarKind? = some k)
    (hnumeric : k.isNumeric = true) : (k = .f32 ∧ ∃ x, v = .f32 x) ∨ (k = .f64 ∧ ∃ x, v = .f64 x) ∨
      ((∀ n, ofNumber? k n = n.toInt?.bind (ofInt? k)) ∧ ∃ i, v.int? = some i) := by
  cases v with
  | f32 x =>
    cases hk
    exact .inl ⟨rfl, x, rfl⟩
  | f64 x =>
    cases hk
    exact .inr (.inl ⟨rfl, x, rfl⟩)
  | i32 n | i64 n | u32 n | u64 n =>
    cases hk
    exact .inr (.inr ⟨fun _ => rfl, _, rfl⟩)
  | _ => cases hk <;> cases hnumeric

/-- The other kinds have no numbers. -/
theorem ofNumber?_of_not_numeric {k : ScalarKind} (hk : ¬ k.isNumeric = true) :
    ofNumber? k = fun _ => none := by
  have hint (h : ofInt? k = fun _ => none) : (fun n : Number => n.toInt?.bind (ofInt? k)) =
      fun _ => none := by
    rw [h]
    exact funext fun n => Option.bind_fun_none _
  cases k with
  | i32 | i64 | u32 | u64 | f32 | f64 => exact absurd rfl hk
  | _ => exact hint rfl

/-- A floating-point value keeps the number that it is made of, with the sign of a zero. -/
theorem number?_of_ofNumber?_float {k : ScalarKind} (hfloat : k = .f32 ∨ k = .f64) {n : Number}
    {v : Value} (h : ofNumber? k n = some v) : v.scalarKind? = some k ∧ v.number? = some n := by
  rcases hfloat with rfl | rfl
  all_goals
    simp only [ofNumber?, Option.ite_none_right_eq_some, Option.some.injEq] at h
    obtain ⟨hexact, rfl⟩ := h
    exact ⟨rfl, by rw [number?, hexact]⟩

/-- **The number that comes out is the number that went in**, but for the sign of a zero. -/
theorem number?_of_ofNumber? {k : ScalarKind} {n : Number} {v : Value}
    (h : ofNumber? k n = some v) :
    v.scalarKind? = some k ∧ ∃ n', v.number? = some n' ∧ n.ForgetsSign n' := by
  have hfloat (hk : k = .f32 ∨ k = .f64) :
      v.scalarKind? = some k ∧ ∃ n', v.number? = some n' ∧ n.ForgetsSign n' := by
    obtain ⟨hkind, hn⟩ := number?_of_ofNumber?_float hk h
    exact ⟨hkind, n, hn, n.forgetsSign_refl⟩
  have hint (h : n.toInt?.bind (ofInt? k) = some v) :
      v.scalarKind? = some k ∧ ∃ n', v.number? = some n' ∧ n.ForgetsSign n' := by
    obtain ⟨i, hi, hv⟩ := Option.bind_eq_some_iff.mp h
    obtain ⟨hk, hint⟩ := int?_of_ofInt? hv
    exact ⟨hk, _, number?_of_int? hint, Number.forgetsSign_of_toInt? hi⟩
  cases k with
  | f32 => exact hfloat (.inl rfl)
  | f64 => exact hfloat (.inr rfl)
  | _ => exact hint h

/-- The number of what a number was made of makes the same value again. -/
theorem ofNumber?_of_number? {k : ScalarKind} {n n' : Number} {v : Value}
    (h : ofNumber? k n = some v) (hn' : v.number? = some n') : ofNumber? k n' = some v := by
  have hfloat (hk : k = .f32 ∨ k = .f64) : ofNumber? k n' = some v := by
    rw [(number?_of_ofNumber?_float hk h).2, Option.some.injEq] at hn'
    rwa [← hn']
  have hint (h : n.toInt?.bind (ofInt? k) = some v) : n'.toInt?.bind (ofInt? k) = some v := by
    obtain ⟨i, -, hv⟩ := Option.bind_eq_some_iff.mp h
    obtain ⟨-, hint⟩ := int?_of_ofInt? hv
    rw [number?_of_int? hint, Option.some.injEq] at hn'
    rw [← hn', Number.toInt?_ofInt, Option.bind_some, hv]
  cases k with
  | f32 => exact hfloat (.inl rfl)
  | f64 => exact hfloat (.inr rfl)
  | _ => exact hint h

/-- The zero of a numeric kind is the number zero. -/
theorem number?_zero {k : ScalarKind} (hk : k.isNumeric = true) :
    (zero k).number? = some (.ofInt 0) := by
  cases k with
  | i32 | i64 | u32 | u64 => exact number?_of_int? rfl
  | f32 | f64 => decide +kernel
  | _ => cases hk

theorem ofNumber?_zero {k : ScalarKind} (hk : k.isNumeric = true) :
    ofNumber? k (.ofInt 0) = some (zero k) := by
  have hword32 : Binary32.ofNumber (.ofInt 0) = .zero := by decide +kernel
  have hword64 : Binary64.ofNumber (.ofInt 0) = .zero := by decide +kernel
  have h32 : Binary32.number .zero = .ofInt 0 := by decide +kernel
  have h64 : Binary64.number .zero = .ofInt 0 := by decide +kernel
  cases k with
  | i32 | i64 | u32 | u64 =>
    rw [ofNumber?, Number.toInt?_ofInt]
    · rfl
    all_goals exact ScalarKind.noConfusion
  | f32 => simp only [ofNumber?, hword32, h32, zero, if_true]
  | f64 => simp only [ofNumber?, hword64, h64, zero, if_true]
  | _ => cases hk

/-! ### The same value again -/

theorem same_self {v : Value} {k : ScalarKind} (hk : v.scalarKind? = some k) (S : Schema) :
    v.same S v = true := by
  cases v with
  | null | list items | record type cells => cases hk
  | f32 x => simp [same, Binary32.same]
  | f64 x => simp [same, Binary64.same]
  | _ => simp [same]

/-- The same value, where all `nan`s of one kind count as one. -/
def Alike (S : Schema) (a b : Value) : Prop :=
  a.same S b = true ∨
    (a.scalarKind? = b.scalarKind? ∧ a.number? = some .nan ∧ b.number? = some .nan)

theorem alike_self {v : Value} {k : ScalarKind} (hk : v.scalarKind? = some k) (S : Schema) :
    v.Alike S v := .inl (same_self hk S)

/-- Floating-point values of one kind with one number, up to the sign of a zero, are alike. -/
theorem alike_of_forgetsSign (S : Schema) {v v' : Value} {k : ScalarKind} {n n' : Number}
    (hfloat : k = .f32 ∨ k = .f64) (hk : v.scalarKind? = some k) (hk' : v'.scalarKind? = some k)
    (hn : v.number? = some n) (hn' : v'.number? = some n') (h : n.ForgetsSign n') :
    v'.Alike S v := by
  by_cases hnan : n = .nan
  · rcases h with rfl | ⟨hzero, -⟩
    · exact .inr ⟨by rw [hk, hk'], by rw [hn', hnan], by rw [hn, hnan]⟩
    · rw [hzero] at hnan
      cases hnan
  · have hequal := h.numericallyEqual hnan
    refine .inl ?_
    rcases hfloat with rfl | rfl
    · cases v <;> cases hk
      cases v' <;> cases hk'
      cases hn
      cases hn'
      rw [same, Binary32.same, hequal, Bool.or_true]
    · cases v <;> cases hk
      cases v' <;> cases hk'
      cases hn
      cases hn'
      rw [same, Binary64.same, hequal, Bool.or_true]

/-- An integer goes back as it was. -/
theorem ofNumber?_of_int? {v : Value} {k : ScalarKind} {i : Int} {n n' : Number}
    (hk : v.scalarKind? = some k) (hof : ∀ n, ofNumber? k n = n.toInt?.bind (ofInt? k))
    (hi : v.int? = some i) (hn : v.number? = some n) (h : n.ForgetsSign n') :
    ofNumber? k n' = some v := by
  rw [number?_of_int? hi, Option.some.injEq] at hn
  have hsame : n' = .ofInt i := by
    rcases h with rfl | ⟨hzero, -⟩
    · exact hn.symm
    · rw [← hn] at hzero
      exact absurd hzero (Number.ofInt_ne_negative_zero i)
  rw [hof, hsame, Number.toInt?_ofInt]
  exact ofInt?_of_int? hk hi

/-- **A number goes back where it came from.** -/
theorem exists_ofNumber?_back (S : Schema) {v : Value} {k : ScalarKind} {n n' : Number}
    (hk : v.scalarKind? = some k) (hnumeric : k.isNumeric = true) (hn : v.number? = some n)
    (h : n.ForgetsSign n') : ∃ v', ofNumber? k n' = some v' ∧ v'.Alike S v := by
  rcases numeric_cases hk hnumeric with ⟨rfl, x, rfl⟩ | ⟨rfl, x, rfl⟩ | ⟨hof, i, hi⟩
  · have hdenotes : binary32.Denotes n' := by
      cases hn
      rcases h with rfl | ⟨-, rfl⟩
      · exact x.denotes_number
      · exact binary32.denotes_zero (by decide) false
    have hexact := Binary32.number_ofNumber hdenotes
    exact ⟨.f32 (.ofNumber n'), if_pos hexact,
      alike_of_forgetsSign S (.inl rfl) hk rfl hn (congrArg some hexact) h⟩
  · have hdenotes : binary64.Denotes n' := by
      cases hn
      rcases h with rfl | ⟨-, rfl⟩
      · exact x.denotes_number
      · exact binary64.denotes_zero (by decide) false
    have hexact := Binary64.number_ofNumber hdenotes
    exact ⟨.f64 (.ofNumber n'), if_pos hexact,
      alike_of_forgetsSign S (.inr rfl) hk rfl hn (congrArg some hexact) h⟩
  · exact ⟨v, ofNumber?_of_int? hk hof hi hn h, alike_self hk S⟩

end Value

/-! ### Times -/

theorem DateTime.ofParts?_eq_some_iff {seconds : Int} {nanos : Nat} {d : DateTime} :
    ofParts? seconds nanos = some d ↔
      (d.seconds = seconds ∧ d.nanos = nanos) ∧ (nanosPerSecond ≤ nanos → seconds % 60 = 59) := by
  rw [ofParts?]
  constructor
  · intro h
    split at h
    · next hparts =>
      cases h
      exact ⟨⟨rfl, rfl⟩, hparts.2.2.2⟩
    · cases h
  · rintro ⟨⟨rfl, rfl⟩, hleap⟩
    rw [dif_pos ⟨d.first_le, d.le_last, d.nanos_lt, hleap⟩]

namespace Timestamp

/-- A timestamp that is read as an instant is normalized and has the parts of the instant. -/
theorem parts_of_toDateTime {t : Timestamp} {d : DateTime} (h : t.toDateTime = .ok d) :
    (0 ≤ t.nanos.toInt ∧ t.nanos.toInt < nanosPerSecond) ∧ d.seconds = t.seconds.toInt ∧
      d.nanos = t.nanos.toInt.toNat := by
  rw [toDateTime] at h
  split at h
  · next hnormal =>
    rw [isNormalized, decide_eq_true_eq] at hnormal
    cases hparts : DateTime.ofParts? t.seconds.toInt t.nanos.toInt.toNat with
    | none =>
      rw [hparts] at h
      cases h
    | some d' =>
      rw [hparts] at h
      cases h
      exact ⟨hnormal, (DateTime.ofParts?_eq_some_iff.mp hparts).1⟩
  · cases h

theorem ofDateTime_of_toDateTime {t : Timestamp} {d : DateTime} (h : t.toDateTime = .ok d) :
    ofDateTime d = t := by
  obtain ⟨⟨hnonneg, hlt⟩, hseconds, hnanos⟩ := parts_of_toDateTime h
  have hproper : t.nanos.toInt.toNat < nanosPerSecond := by omega
  rw [ofDateTime, hseconds, hnanos, Nat.div_eq_of_lt hproper, Nat.mod_eq_of_lt hproper,
    Int.natCast_zero, Int.add_zero, Int64.ofInt_toInt, ← Int32.ofInt_eq_ofNat,
    Int.toNat_of_nonneg hnonneg, Int32.ofInt_toInt]

/-- No timestamp is read as an instant within a leap second. -/
theorem isLeap_of_toDateTime {t : Timestamp} {d : DateTime} (h : t.toDateTime = .ok d) :
    d.isLeap = false := by
  obtain ⟨⟨hnonneg, hlt⟩, -, hnanos⟩ := parts_of_toDateTime h
  rw [DateTime.isLeap, hnanos, decide_eq_false_iff_not]
  omega

/-- An instant is found again by its timestamp, unless it lies within a leap second. -/
theorem toDateTime_ofDateTime {d : DateTime} (h : d.isLeap = false) :
    (ofDateTime d).toDateTime = .ok d := by
  rw [DateTime.isLeap, decide_eq_false_iff_not, Nat.not_le] at h
  have hfirst := d.first_le
  have hlast := d.le_last
  have hnps : nanosPerSecond = 1000000000 := rfl
  have hseconds : (ofDateTime d).seconds.toInt = d.seconds := by
    rw [ofDateTime, Nat.div_eq_of_lt h, Int.natCast_zero, Int.add_zero,
      Int64.toInt_ofInt_of_le (by omega) (by omega)]
  have hnanos : (ofDateTime d).nanos.toInt = d.nanos := by
    rw [ofDateTime, Nat.mod_eq_of_lt h, Int32.toInt_ofNat_of_lt (by omega)]
  have hnormal : (ofDateTime d).isNormalized = true := by
    rw [isNormalized, hnanos, decide_eq_true_eq]
    omega
  have hparts : DateTime.ofParts? (ofDateTime d).seconds.toInt (ofDateTime d).nanos.toInt.toNat =
      some d :=
    DateTime.ofParts?_eq_some_iff.mpr
      ⟨⟨hseconds.symm, by rw [hnanos, Int.toNat_natCast]⟩, fun hleap => absurd hleap (by omega)⟩
  rw [toDateTime, if_pos hnormal, hparts]

end Timestamp

/-! ### Coercion between numeric kinds -/

theorem ScalarKind.numeric_of_widensTo {k l : ScalarKind} (h : k.widensTo l = true) :
    k.isNumeric = true ∧ l.isNumeric = true ∧ k ≠ l := by
  revert h
  cases k <;> cases l <;> decide

namespace Value

/-- Between two kinds that are not both times a value is coerced by way of its number. -/
theorem coerce?_of_not_time {v : Value} {k l : ScalarKind} (hv : v.scalarKind? = some k)
    (hne : k ≠ l) (htime : ¬ (k.isTime && l.isTime) = true) :
    v.coerce? l = v.number?.bind (ofNumber? l) := by
  have hnot : ¬ (v.isNull = true ∨ v.scalarKind? = some l) := by
    rw [hv, Option.some.injEq, not_or]
    refine ⟨?_, hne⟩
    cases v <;> first | cases hv; done | exact Bool.false_ne_true
  rw [coerce?.eq_def, if_neg hnot]
  split
  · cases hv
    exact absurd rfl htime
  · cases hv
    exact absurd rfl htime
  · rfl

theorem coerce?_of_numeric {v : Value} {k l : ScalarKind} (hv : v.scalarKind? = some k)
    (hk : k.isNumeric = true) (hne : k ≠ l) :
    v.coerce? l = v.number?.bind (ofNumber? l) := by
  refine coerce?_of_not_time hv hne ?_
  cases k <;> first | exact Bool.false_ne_true | cases hk

theorem isSome_ofNumber?_f64 {n : Number} (h : binary64.Denotes n) :
    (ofNumber? .f64 n).isSome = true := by
  rw [ofNumber?, if_pos (Binary64.number_ofNumber h), Option.isSome_some]

theorem isSome_ofNumber?_ofInt {k : ScalarKind} {i : Int} (h : (ofInt? k i).isSome = true) :
    (ofNumber? k (.ofInt i)).isSome = true := by
  rw [ofNumber?.eq_def]
  split
  · cases h
  · cases h
  · rwa [Number.toInt?_ofInt, Option.bind_some]

/-- **Nothing is lost to a wider kind.** -/
theorem isSome_coerce?_of_widensTo {v : Value} {k l : ScalarKind} (hv : v.scalarKind? = some k)
    (h : k.widensTo l = true) : (v.coerce? l).isSome = true := by
  obtain ⟨hk, -, hne⟩ := ScalarKind.numeric_of_widensTo h
  rw [coerce?_of_numeric hv hk hne]
  cases v with
  | i32 n =>
    have hlt := n.toInt_lt
    have hle := n.le_toInt
    cases hv
    rw [number?, Option.bind_some]
    cases l with
    | i64 => exact isSome_ofNumber?_ofInt (by rw [ofInt?, if_pos (by omega), Option.isSome_some])
    | f64 => exact isSome_ofNumber?_f64 (denotes_ofInt (by omega))
    | _ => cases h
  | u32 n =>
    have hlt := n.toNat_lt
    cases hv
    rw [number?, Option.bind_some]
    cases l with
    | i64 => exact isSome_ofNumber?_ofInt (by rw [ofInt?, if_pos (by omega), Option.isSome_some])
    | u64 => exact isSome_ofNumber?_ofInt (by rw [ofInt?, if_pos (by omega), Option.isSome_some])
    | f64 => exact isSome_ofNumber?_f64 (denotes_ofInt (by omega))
    | _ => cases h
  | f32 x =>
    cases hv
    rw [number?, Option.bind_some]
    cases l with
    | f64 => exact isSome_ofNumber?_f64 (denotes_of_denotes x.denotes_number)
    | _ => cases h
  | _ => cases hv <;> cases l <;> cases h

theorem scalarKind?_of_coerce? {v w : Value} {k l : ScalarKind} (hv : v.scalarKind? = some k)
    (hk : k.isNumeric = true) (hne : k ≠ l) (hw : v.coerce? l = some w) :
    w.scalarKind? = some l := by
  rw [coerce?_of_numeric hv hk hne] at hw
  obtain ⟨n, -, hn⟩ := Option.bind_eq_some_iff.mp hw
  exact (number?_of_ofNumber? hn).1

/-- **What was accepted is accepted on the way back**, and comes back as what it was. -/
theorem exists_coerce?_back (S : Schema) {v w : Value} {k l : ScalarKind}
    (hv : v.scalarKind? = some k) (hk : k.isNumeric = true) (hl : l.isNumeric = true) (hne : k ≠ l)
    (hw : v.coerce? l = some w) : ∃ v', w.coerce? k = some v' ∧ v'.Alike S v := by
  have hwl := scalarKind?_of_coerce? hv hk hne hw
  rw [coerce?_of_numeric hv hk hne] at hw
  obtain ⟨n, hn, hof⟩ := Option.bind_eq_some_iff.mp hw
  obtain ⟨-, n', hn', hsign⟩ := number?_of_ofNumber? hof
  rw [coerce?_of_numeric hwl hl hne.symm, hn', Option.bind_some]
  exact exists_ofNumber?_back S hv hk hn hsign

/-- **What comes back makes the same again.** It need not be what was there at first, which may have
been a `nan` or the negative zero. -/
theorem coerce?_of_back {v w v' : Value} {k l : ScalarKind} (hv : v.scalarKind? = some k)
    (hk : k.isNumeric = true) (hl : l.isNumeric = true) (hne : k ≠ l)
    (hw : v.coerce? l = some w) (hv' : w.coerce? k = some v') : v'.coerce? l = some w := by
  have hwl := scalarKind?_of_coerce? hv hk hne hw
  have hof := hw
  rw [coerce?_of_numeric hv hk hne] at hof
  obtain ⟨n, hn, hof⟩ := Option.bind_eq_some_iff.mp hof
  obtain ⟨-, n', hn', hsign⟩ := number?_of_ofNumber? hof
  have hback : ofNumber? k n' = some v' := by
    rwa [coerce?_of_numeric hwl hl hne.symm, hn', Option.bind_some] at hv'
  -- A float keeps the number as it came back, so this is a second step by that number. An integer
  -- has lost the sign of a zero on the way, but then it is the one that was there at first.
  have hfloat (hkind : k = .f32 ∨ k = .f64) : v'.coerce? l = some w := by
    obtain ⟨hk', hn''⟩ := number?_of_ofNumber?_float hkind hback
    rw [coerce?_of_numeric hk' hk hne, hn'', Option.bind_some]
    exact ofNumber?_of_number? hof hn'
  rcases numeric_cases hv hk with ⟨hkind, -⟩ | ⟨hkind, -⟩ | ⟨hofInt, i, hi⟩
  · exact hfloat (.inl hkind)
  · exact hfloat (.inr hkind)
  · rw [ofNumber?_of_int? hv hofInt hi hn hsign] at hback
    rwa [← Option.some.inj hback]

theorem coerce?_zero {k l : ScalarKind} (hk : k.isNumeric = true) (hl : l.isNumeric = true)
    (hne : k ≠ l) : (zero k).coerce? l = some (zero l) := by
  rw [coerce?_of_numeric (scalarKind?_zero k) hk hne, number?_zero hk, Option.bind_some,
    ofNumber?_zero hl]

/-! ### Coercion between times -/

theorem coerce?_datetime (d : DateTime) :
    (datetime d).coerce? .timestamp = some (timestamp (.ofDateTime d)) := rfl

theorem coerce?_timestamp_eq_some_iff {t : Timestamp} {w : Value} :
    (timestamp t).coerce? .datetime = some w ↔ ∃ d, t.toDateTime = .ok d ∧ w = datetime d := by
  show t.toDateTime.toOption.map datetime = some w ↔ _
  cases t.toDateTime with
  | error e => simp [Except.toOption]
  | ok d => simp [Except.toOption, eq_comm]

/-- Whether this is an instant within a leap second. -/
def isLeap : Value → Bool
  | datetime d => d.isLeap
  | _ => false

end Value

/-! ### Conversions between scalar kinds -/

/-- Which conversion belongs to which two kinds. -/
inductive ScalarConversion.Between : ScalarKind → ScalarKind → ScalarConversion → Prop
  | identity (k : ScalarKind) : Between k k .identity
  | widen {k l : ScalarKind} (h : k.widensTo l = true) : Between k l (.widen k l)
  | narrow {k l : ScalarKind} (hk : k.isNumeric = true) (hl : l.isNumeric = true) (hne : k ≠ l) :
    Between k l (.narrow k l)
  | readTime : Between .timestamp .datetime (.timeCodec .timestamp .datetime)
  | writeTime : Between .datetime .timestamp (.timeCodec .datetime .timestamp)

theorem ScalarKind.isTime_iff {k : ScalarKind} :
    k.isTime = true ↔ k = .timestamp ∨ k = .datetime := by
  cases k <;> decide

theorem ScalarKind.between_of_conversion {k l : ScalarKind} {c : ScalarConversion}
    (h : k.conversion l = some c) : ScalarConversion.Between k l c := by
  rw [conversion] at h
  split at h
  · next heq =>
    cases h
    rw [heq]
    exact .identity l
  · next hne =>
    split at h
    · next hwiden =>
      cases h
      exact .widen hwiden
    · split at h
      · next hnumeric =>
        cases h
        rw [Bool.and_eq_true] at hnumeric
        exact .narrow hnumeric.1 hnumeric.2 hne
      · split at h
        · next htime =>
          cases h
          rw [Bool.and_eq_true, isTime_iff, isTime_iff] at htime
          rcases htime with ⟨rfl | rfl, rfl | rfl⟩
          · exact absurd rfl hne
          · exact .readTime
          · exact .writeTime
          · exact absurd rfl hne
        · cases h

namespace ScalarConversion

variable {k l : ScalarKind} {c c' : ScalarConversion} {v w : Value}

theorem Between.eq_identity (h : Between k k c) : c = .identity := by
  cases h with
  | identity => rfl
  | widen h => exact absurd rfl (ScalarKind.numeric_of_widensTo h).2.2
  | narrow hk hl hne => exact absurd rfl hne

/-- Between different kinds, converting is coercing. -/
theorem Between.image?_eq (h : Between k l c) (hne : k ≠ l) (v : Value) :
    c.image? v = v.coerce? l := by
  cases h with
  | identity => exact absurd rfl hne
  | _ => rfl

theorem Between.scalarKind?_image? (h : Between k l c) (hv : v.scalarKind? = some k)
    (hw : c.image? v = some w) : w.scalarKind? = some l := by
  cases h with
  | identity =>
    cases hw
    exact hv
  | widen h =>
    obtain ⟨hk, -, hne⟩ := ScalarKind.numeric_of_widensTo h
    exact Value.scalarKind?_of_coerce? hv hk hne hw
  | narrow hk hl hne => exact Value.scalarKind?_of_coerce? hv hk hne hw
  | readTime =>
    cases v <;> cases hv
    obtain ⟨d, -, rfl⟩ := Value.coerce?_timestamp_eq_some_iff.mp hw
    rfl
  | writeTime =>
    cases v <;> cases hv
    cases hw
    rfl

/-- **Only narrowing and reading a timestamp can fail.** -/
theorem Between.isSome_image? (h : Between k l c) (hv : v.scalarKind? = some k)
    (hnarrow : c ≠ .narrow k l) (htime : c ≠ .timeCodec .timestamp .datetime) :
    (c.image? v).isSome = true := by
  cases h with
  | identity => rfl
  | widen h => exact Value.isSome_coerce?_of_widensTo hv h
  | narrow => exact absurd rfl hnarrow
  | readTime => exact absurd rfl htime
  | writeTime =>
    cases v <;> cases hv
    rfl

/-- **There and back.** A scalar that has a counterpart is the counterpart of its counterpart. The
exception is an instant within a leap second that was made a timestamp. -/
theorem Between.exists_image?_back (S : Schema) (h : Between k l c) (h' : Between l k c')
    (hv : v.scalarKind? = some k) (hw : c.image? v = some w)
    (hleap : l = .timestamp → k = .datetime → v.isLeap = false) :
    ∃ v', c'.image? w = some v' ∧ v'.Alike S v := by
  cases h with
  | identity =>
    cases hw
    rw [h'.eq_identity]
    exact ⟨v, rfl, Value.alike_self hv S⟩
  | widen h =>
    obtain ⟨hk, hl, hne⟩ := ScalarKind.numeric_of_widensTo h
    rw [h'.image?_eq hne.symm]
    exact Value.exists_coerce?_back S hv hk hl hne hw
  | narrow hk hl hne =>
    rw [h'.image?_eq hne.symm]
    exact Value.exists_coerce?_back S hv hk hl hne hw
  | readTime =>
    rw [h'.image?_eq (by decide)]
    cases v <;> cases hv
    obtain ⟨d, hd, rfl⟩ := Value.coerce?_timestamp_eq_some_iff.mp hw
    rw [Value.coerce?_datetime, Timestamp.ofDateTime_of_toDateTime hd]
    exact ⟨_, rfl, Value.alike_self rfl S⟩
  | writeTime =>
    rw [h'.image?_eq (by decide)]
    cases v <;> cases hv
    cases hw
    have hback := Timestamp.toDateTime_ofDateTime (hleap rfl rfl)
    exact ⟨_, Value.coerce?_timestamp_eq_some_iff.mpr ⟨_, hback, rfl⟩, Value.alike_self rfl S⟩

/-- **What comes back makes the same again**, also where it is not what was there at first. -/
theorem Between.image?_of_back (h : Between k l c) (h' : Between l k c') {v' : Value}
    (hv : v.scalarKind? = some k) (hw : c.image? v = some w) (hv' : c'.image? w = some v') :
    c.image? v' = some w := by
  cases h with
  | identity =>
    rw [h'.eq_identity] at hv'
    cases hw
    cases hv'
    rfl
  | widen h =>
    obtain ⟨hk, hl, hne⟩ := ScalarKind.numeric_of_widensTo h
    rw [h'.image?_eq hne.symm] at hv'
    exact Value.coerce?_of_back hv hk hl hne hw hv'
  | narrow hk hl hne =>
    rw [h'.image?_eq hne.symm] at hv'
    exact Value.coerce?_of_back hv hk hl hne hw hv'
  | readTime =>
    rw [h'.image?_eq (by decide)] at hv'
    cases v <;> cases hv
    obtain ⟨d, hd, rfl⟩ := Value.coerce?_timestamp_eq_some_iff.mp hw
    rw [Value.coerce?_datetime, Timestamp.ofDateTime_of_toDateTime hd] at hv'
    cases hv'
    exact hw
  | writeTime =>
    rw [h'.image?_eq (by decide)] at hv'
    cases v <;> cases hv
    cases hw
    obtain ⟨d, hd, rfl⟩ := Value.coerce?_timestamp_eq_some_iff.mp hv'
    exact congrArg (some <| Value.timestamp ·) (Timestamp.ofDateTime_of_toDateTime hd)

/-- Zero values are counterparts. -/
theorem Between.image?_zero (h : Between k l c) : c.image? (.zero k) = some (.zero l) := by
  cases h with
  | widen h =>
    obtain ⟨hk, hl, hne⟩ := ScalarKind.numeric_of_widensTo h
    exact Value.coerce?_zero hk hl hne
  | narrow hk hl hne => exact Value.coerce?_zero hk hl hne
  | _ => rfl

/-- Nothing that was a timestamp is an instant within a leap second. -/
theorem Between.isLeap_image? (h : Between k l c) (hv : v.scalarKind? = some k)
    (hw : c.image? v = some w) (hk : k = .timestamp) : w.isLeap = false := by
  subst hk
  cases v <;> cases hv
  cases h with
  | identity =>
    cases hw
    rfl
  | readTime =>
    obtain ⟨d, hd, rfl⟩ := Value.coerce?_timestamp_eq_some_iff.mp hw
    exact Timestamp.isLeap_of_toDateTime hd
  | widen h => cases h
  | narrow hk => cases hk

end ScalarConversion

end Crosswalk
