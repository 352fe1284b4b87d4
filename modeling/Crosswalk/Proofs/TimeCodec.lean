import Crosswalk.Proofs.Instants

/-!
# The two representations of time as one

`Timestamp.toDateTime` and `Timestamp.ofDateTime` are written apart from each other. One tests both
parts of a timestamp, the other divides and carries. This module says that they are inverse to each
other where they can be. The timestamps that can be read are those that are normalized and in the
range of the calendar, and they correspond one to one to the date-times that are in no leap second.

A leap second has a timestamp too, but that one belongs to the second after it. So nothing is read
as a leap second, and this is why it is left out on the side of the date-times.

The carry is done by machine arithmetic, in 64 bits for the seconds and 32 for the nanoseconds, with
an addition that saturates. `Timestamp.carried` is that computation. For the parts of an instant the
sum of the seconds is nowhere near the end of the range, and hence exact
(`Timestamp.seconds_carried`).

Timestamps are compared by their seconds and then by their nanoseconds. As long as both are
normalized this is the order of the instants, and so the correspondence keeps the order.
-/

namespace Crosswalk

namespace Timestamp

/-! ### Machine arithmetic -/

/-- The sum of two machine integers, or the end of their range that it has passed. -/
def saturatingAdd (a b : Int64) : Int64 :=
  .ofInt (max (-9223372036854775808) (min 9223372036854775807 (a.toInt + b.toInt)))

/-- A sum within the range is exact. -/
theorem toInt_saturatingAdd {a b : Int64} (hleast : -9223372036854775808 ≤ a.toInt + b.toInt)
    (hmost : a.toInt + b.toInt ≤ 9223372036854775807) :
    (saturatingAdd a b).toInt = a.toInt + b.toInt := by
  rw [saturatingAdd, min_eq_right hmost, max_eq_right hleast,
    Int64.toInt_ofInt_of_le (by omega) (by omega)]

/-- The timestamp of these seconds and nanoseconds, a full second of which is carried. -/
def carried (seconds : Int64) (nanos : Int32) : Timestamp where
  seconds := saturatingAdd seconds (nanos / 1000000000).toInt64
  nanos := nanos % 1000000000

section Carried

variable {seconds : Int64} {nanos : Int32} (hnonneg : 0 ≤ nanos.toInt)

include hnonneg

/-- The nanoseconds that are left are a proper part of a second. -/
theorem nanos_carried : (carried seconds nanos).nanos.toInt = nanos.toInt % nanosPerSecond := by
  rw [carried, Int32.toInt_mod]
  exact Int.tmod_eq_emod_of_nonneg hnonneg

/-- **Nothing saturates.** Within the calendar the sum of the seconds is exact. -/
theorem seconds_carried (hfirst : -8334601228800 ≤ seconds.toInt)
    (hlast : seconds.toInt ≤ 8210266876799) (hlt : nanos.toInt < 2 * nanosPerSecond) :
    (carried seconds nanos).seconds.toInt = seconds.toInt + nanos.toInt / nanosPerSecond := by
  have hnps : nanosPerSecond = 1000000000 := rfl
  have hmin : nanos ≠ Int32.minValue := by
    rintro rfl
    exact absurd hnonneg (by decide)
  have hcarry : (nanos / 1000000000).toInt64.toInt = nanos.toInt / nanosPerSecond := by
    rw [Int32.toInt_toInt64, Int32.toInt_div_of_ne_left _ _ hmin]
    exact Int.tdiv_eq_ediv_of_nonneg hnonneg
  have hexact := toInt_saturatingAdd (a := seconds) (b := (nanos / 1000000000).toInt64)
  rw [hnps] at hcarry hlt ⊢
  rw [hcarry] at hexact
  exact hexact (by omega) (by omega)

end Carried

/-- A date-time is written by machine arithmetic on its parts. -/
theorem ofDateTime_eq_carried (d : DateTime) :
    ofDateTime d = carried (.ofInt d.seconds) (.ofNat d.nanos) := by
  have hfirst := d.first_le
  have hlast := d.le_last
  have hlt := d.nanos_lt
  have hnps : nanosPerSecond = 1000000000 := rfl
  have hseconds : (Int64.ofInt d.seconds).toInt = d.seconds :=
    Int64.toInt_ofInt_of_le (by omega) (by omega)
  have hnanos : (Int32.ofNat d.nanos).toInt = d.nanos := Int32.toInt_ofNat_of_lt (by omega)
  have hnonneg : 0 ≤ (Int32.ofNat d.nanos).toInt := by omega
  have hsecondsEq : (ofDateTime d).seconds =
      (carried (.ofInt d.seconds) (.ofNat d.nanos)).seconds := by
    rw [← Int64.toInt_inj, seconds_ofDateTime, seconds_carried hnonneg (by omega) (by omega)
      (by omega), hseconds, hnanos]
    rfl
  have hnanosEq : (ofDateTime d).nanos = (carried (.ofInt d.seconds) (.ofNat d.nanos)).nanos := by
    rw [← Int32.toInt_inj, nanos_ofDateTime, nanos_carried hnonneg, hnanos]
    rfl
  rw [Timestamp.mk.injEq]
  exact ⟨hsecondsEq, hnanosEq⟩

/-! ### One to one -/

/-- **Reading and writing undo each other.** A timestamp is read as a date-time exactly if it is the
timestamp of that date-time and this is in no leap second. -/
theorem toDateTime_eq_ok_iff {t : Timestamp} {d : DateTime} :
    t.toDateTime = .ok d ↔ ofDateTime d = t ∧ d.isLeap = false := by
  constructor
  · intro h
    exact ⟨ofDateTime_of_toDateTime h, isLeap_of_toDateTime h⟩
  · rintro ⟨rfl, hleap⟩
    exact toDateTime_ofDateTime hleap

/-! ### Order -/

/-- **On normalized timestamps the order is that of the instants.** -/
theorem compare_eq_compare_instant {t u : Timestamp} (ht : t.isNormalized = true)
    (hu : u.isNormalized = true) : compare t u = Ord.compare t.instant u.instant := by
  have hnps : nanosPerSecond = 1000000000 := rfl
  obtain ⟨ht₀, ht₁⟩ := isNormalized_iff.mp ht
  obtain ⟨hu₀, hu₁⟩ := isNormalized_iff.mp hu
  rw [compare]
  rcases Int.lt_trichotomy t.seconds.toInt u.seconds.toInt with hlt | heq | hgt
  · have hinstant : t.instant < u.instant := by
      rw [instant, instant, hnps]
      omega
    rw [Int.compare_eq_lt.mpr hlt, Int.compare_eq_lt.mpr hinstant]
    rfl
  · -- within one second the nanoseconds decide, and the same seconds before them change nothing
    rw [Int.compare_eq_eq.mpr heq, instant, instant, heq, ← cmp_eq_compare (_ + _), cmp_add_left,
      cmp_eq_compare]
    rfl
  · have hinstant : u.instant < t.instant := by
      rw [instant, instant, hnps]
      omega
    rw [Int.compare_eq_gt.mpr hgt, Int.compare_eq_gt.mpr hinstant]
    rfl

/-- Date-times of different instants are written in their order. -/
theorem compare_ofDateTime (d e : DateTime) :
    compare (ofDateTime d) (ofDateTime e) = Ord.compare d.instant e.instant := by
  rw [compare_eq_compare_instant (isNormalized_ofDateTime d) (isNormalized_ofDateTime e),
    instant_ofDateTime, instant_ofDateTime]

/-- **The time codec is a bijection that keeps the order.** A timestamp can be read exactly if its
nanoseconds make less than a second and its seconds are in the range of the calendar. Otherwise the
failure returns it. Reading and writing are inverse between the timestamps that can be read and the
date-times that are in no leap second. Any date-time is written as a normalized timestamp by machine
arithmetic that is exact, and the order of timestamps, as long as they are normalized, is that of
the nanoseconds since the epoch. -/
theorem codec_bijective (t u : Timestamp) (d e : DateTime) :
    ((∃ read, t.toDateTime = .ok read) ↔ (0 ≤ t.nanos.toInt ∧ t.nanos.toInt < nanosPerSecond) ∧
      -8334601228800 ≤ t.seconds.toInt ∧ t.seconds.toInt ≤ 8210266876799) ∧
    ((∃ read, t.toDateTime = .ok read) ∨ t.toDateTime = .error ⟨t⟩) ∧
    (t.toDateTime = .ok d ↔ ofDateTime d = t ∧ d.isLeap = false) ∧
    (ofDateTime d = carried (.ofInt d.seconds) (.ofNat d.nanos) ∧
      (ofDateTime d).isNormalized = true ∧
      (ofDateTime d).seconds.toInt = d.seconds + (d.nanos / nanosPerSecond : Nat) ∧
      (ofDateTime d).nanos.toInt = (d.nanos % nanosPerSecond : Nat)) ∧
    (t.isNormalized = true → u.isNormalized = true →
      compare t u = Ord.compare (t.seconds.toInt * nanosPerSecond + t.nanos.toInt)
        (u.seconds.toInt * nanosPerSecond + u.nanos.toInt)) ∧
    compare (ofDateTime d) (ofDateTime e) = Ord.compare d.instant e.instant := by
  refine ⟨?_, toDateTime_cases t, toDateTime_eq_ok_iff, ?_, ?_, compare_ofDateTime d e⟩
  · rw [exists_toDateTime_iff, isNormalized_iff]
  · exact ⟨ofDateTime_eq_carried d, isNormalized_ofDateTime d, seconds_ofDateTime d,
      nanos_ofDateTime d⟩
  · exact fun ht hu => compare_eq_compare_instant ht hu

/-- Before the epoch the seconds are negative and the nanoseconds still count forwards, up to the
last one. -/
theorem codec_bijective_beforeEpoch :
    let first : Timestamp := ⟨-1, 0⟩
    let last : Timestamp := ⟨-1, 999999999⟩
    (∃ d, last.toDateTime = .ok d) ∧ first.isNormalized = true ∧ last.isNormalized = true ∧
      compare first last = Ord.compare (-1000000000 : Int) (-1) := by
  intro first last
  obtain ⟨hread, -⟩ := codec_bijective last first .epoch .epoch
  obtain ⟨-, -, -, -, horder, -⟩ := codec_bijective first last .epoch .epoch
  have hfirst : first.isNormalized = true := by decide
  have hlast : last.isNormalized = true := by decide
  exact ⟨hread.mpr (by decide), hfirst, hlast, horder hfirst hlast⟩

end Timestamp

end Crosswalk
