import Crosswalk.Proofs.Coercion

/-!
# Instants, and the way to the wire

A date-time and a timestamp both denote an instant, counted here in nanoseconds since the epoch. Two
date-times may denote one instant. The second half of a leap second is the first half of the second
after it, and the two are different date-times all the same. A timestamp has no such choice once it
is normalized, so `Timestamp.ofDateTime` keeps the instant and forgets which of the two it was.

Nothing overflows on the way. The calendar is far smaller than what a machine integer holds, and the
carry moves the seconds by one at most.

The way back is where the calendar ends. Its last second is the last of a minute and so may be a
leap second, and what is carried over from that one has no second to go to. No other date-time has a
timestamp that cannot be read (`Timestamp.read_back`), on whatever second its leap second is.

## Main results

* `Timestamp.isNormalized_ofDateTime`, `Timestamp.instant_ofDateTime` — what is written
* `Timestamp.exists_toDateTime_iff` — what can be read at all
* `Timestamp.read_back` — which date-times are read back, and as what
-/

namespace Crosswalk

namespace DateTime

/-- The nanoseconds since the epoch. -/
def instant (d : DateTime) : Int := d.seconds * nanosPerSecond + d.nanos

/-- The date-time is in the leap second with which the calendar ends. -/
def EndsCalendar (d : DateTime) : Prop := d.seconds = 8210266876799 ∧ d.isLeap = true

theorem isLeap_iff {d : DateTime} : d.isLeap = true ↔ nanosPerSecond ≤ d.nanos := by
  rw [isLeap, decide_eq_true_eq]

/-- The carry is one in a leap second and nothing otherwise. -/
theorem carry_cases (d : DateTime) :
    (d.isLeap = false ∧ d.nanos / nanosPerSecond = 0 ∧ d.nanos % nanosPerSecond = d.nanos) ∨
      (d.isLeap = true ∧ d.nanos / nanosPerSecond = 1 ∧
        d.nanos % nanosPerSecond = d.nanos - nanosPerSecond) := by
  have hlt := d.nanos_lt
  by_cases hleap : nanosPerSecond ≤ d.nanos
  · have hdiv : d.nanos / nanosPerSecond = 1 := Nat.div_eq_of_lt_le (by omega) (by omega)
    refine .inr ⟨isLeap_iff.mpr hleap, hdiv, ?_⟩
    rw [Nat.mod_eq_sub_mod hleap, Nat.mod_eq_of_lt (by omega)]
  · have hproper : d.nanos < nanosPerSecond := Nat.lt_of_not_le hleap
    refine .inl ⟨?_, Nat.div_eq_of_lt hproper, Nat.mod_eq_of_lt hproper⟩
    rw [isLeap, decide_eq_false_iff_not]
    exact hleap

end DateTime

namespace Timestamp

/-- The nanoseconds since the epoch. -/
def instant (t : Timestamp) : Int := t.seconds.toInt * nanosPerSecond + t.nanos.toInt

theorem isNormalized_iff {t : Timestamp} :
    t.isNormalized = true ↔ 0 ≤ t.nanos.toInt ∧ t.nanos.toInt < nanosPerSecond := by
  rw [isNormalized, decide_eq_true_eq]

/-! ### What is written -/

/-- The seconds with the carry fit their machine integer. -/
theorem seconds_ofDateTime (d : DateTime) :
    (ofDateTime d).seconds.toInt = d.seconds + (d.nanos / nanosPerSecond : Nat) := by
  have hfirst := d.first_le
  have hlast := d.le_last
  rcases d.carry_cases with ⟨-, hcarry, -⟩ | ⟨-, hcarry, -⟩ <;>
    rw [ofDateTime, hcarry, Int64.toInt_ofInt_of_le (by omega) (by omega)]

theorem nanos_ofDateTime (d : DateTime) :
    (ofDateTime d).nanos.toInt = (d.nanos % nanosPerSecond : Nat) := by
  have hnps : nanosPerSecond = 1000000000 := rfl
  have hlt : d.nanos % nanosPerSecond < nanosPerSecond := Nat.mod_lt _ (by omega)
  rw [ofDateTime, Int32.toInt_ofNat_of_lt (by omega)]

theorem isNormalized_ofDateTime (d : DateTime) : (ofDateTime d).isNormalized = true := by
  have hlt : d.nanos % nanosPerSecond < nanosPerSecond := Nat.mod_lt _ (by decide)
  rw [isNormalized_iff, nanos_ofDateTime]
  omega

/-- **No instant is changed on the way to the wire.** -/
theorem instant_ofDateTime (d : DateTime) : (ofDateTime d).instant = d.instant := by
  have hsplit : nanosPerSecond * (d.nanos / nanosPerSecond) + d.nanos % nanosPerSecond = d.nanos :=
    Nat.div_add_mod ..
  calc (ofDateTime d).instant
      = (d.seconds + (d.nanos / nanosPerSecond : Nat)) * nanosPerSecond +
          (d.nanos % nanosPerSecond : Nat) := by
        rw [instant, seconds_ofDateTime, nanos_ofDateTime]
    _ = d.seconds * nanosPerSecond +
          (nanosPerSecond * (d.nanos / nanosPerSecond) + d.nanos % nanosPerSecond : Nat) := by
        push_cast
        ring
    _ = d.instant := by rw [hsplit, DateTime.instant]

/-! ### What is read -/

/-- What is read denotes the instant of the timestamp. -/
theorem instant_of_toDateTime {t : Timestamp} {d : DateTime} (h : t.toDateTime = .ok d) :
    d.instant = t.instant := by
  obtain ⟨⟨hnonneg, -⟩, hseconds, hnanos⟩ := parts_of_toDateTime h
  rw [DateTime.instant, instant, hseconds, hnanos, Int.toNat_of_nonneg hnonneg]

/-- A timestamp can be read if it is normalized and its second is one of the calendar. -/
theorem exists_toDateTime_iff {t : Timestamp} : (∃ d, t.toDateTime = .ok d) ↔
    t.isNormalized = true ∧ -8334601228800 ≤ t.seconds.toInt ∧
      t.seconds.toInt ≤ 8210266876799 := by
  constructor
  · rintro ⟨d, hd⟩
    obtain ⟨hnormal, hseconds, -⟩ := parts_of_toDateTime hd
    exact ⟨isNormalized_iff.mpr hnormal, hseconds ▸ d.first_le, hseconds ▸ d.le_last⟩
  · rintro ⟨hnormal, hfirst, hlast⟩
    obtain ⟨hnonneg, hlt⟩ := isNormalized_iff.mp hnormal
    have hproper : t.nanos.toInt.toNat < nanosPerSecond := by omega
    let d : DateTime := ⟨t.seconds.toInt, t.nanos.toInt.toNat, hfirst, hlast, by omega⟩
    have hparts : DateTime.ofParts? t.seconds.toInt t.nanos.toInt.toNat = some d :=
      DateTime.ofParts?_eq_some_iff.mpr ⟨⟨rfl, rfl⟩, fun hleap => absurd hleap (by omega)⟩
    exact ⟨d, by rw [toDateTime, if_pos hnormal, hparts]⟩

/-- Failing to read returns the timestamp. -/
theorem toDateTime_cases (t : Timestamp) :
    (∃ d, t.toDateTime = .ok d) ∨ t.toDateTime = .error ⟨t⟩ := by
  rw [toDateTime]
  split
  · cases DateTime.ofParts? t.seconds.toInt t.nanos.toInt.toNat with
    | some d => exact .inl ⟨d, rfl⟩
    | none => exact .inr rfl
  · exact .inr rfl

/-- The timestamp of a date-time can be read, except at the very end of the calendar. -/
theorem exists_toDateTime_ofDateTime_iff (d : DateTime) :
    (∃ d', (ofDateTime d).toDateTime = .ok d') ↔ ¬ d.EndsCalendar := by
  have hfirst := d.first_le
  have hlast := d.le_last
  rw [exists_toDateTime_iff, seconds_ofDateTime, DateTime.EndsCalendar]
  rcases d.carry_cases with ⟨hleap, hcarry, -⟩ | ⟨hleap, hcarry, -⟩
  · simp [isNormalized_ofDateTime, hleap, hcarry, hfirst, hlast]
  · simp only [isNormalized_ofDateTime, hleap, hcarry, true_and, and_true]
    omega

/-! ### There and back -/

/-- **What becomes of a date-time on the wire.** It is written as a normalized timestamp of the same
instant. That timestamp is read as a date-time that again denotes the instant and is in no leap
second, unless the date-time was in the leap second at the end of the calendar. Then, and only then,
the timestamp is refused as out of range. -/
theorem read_back (d : DateTime) :
    (ofDateTime d).isNormalized = true ∧ (ofDateTime d).instant = d.instant ∧
      ((∃ d', (ofDateTime d).toDateTime = .ok d' ∧ d'.instant = d.instant ∧ d'.isLeap = false) ↔
        ¬ d.EndsCalendar) ∧
      ((ofDateTime d).toDateTime = .error ⟨ofDateTime d⟩ ↔ d.EndsCalendar) := by
  have hread := exists_toDateTime_ofDateTime_iff d
  refine ⟨isNormalized_ofDateTime d, instant_ofDateTime d, ?_, ?_⟩
  · rw [← hread]
    constructor
    · rintro ⟨d', hd', -⟩
      exact ⟨d', hd'⟩
    · rintro ⟨d', hd'⟩
      have hinstant := (instant_of_toDateTime hd').trans (instant_ofDateTime d)
      exact ⟨d', hd', hinstant, isLeap_of_toDateTime hd'⟩
  · rw [← not_iff_not, ← hread]
    constructor
    · intro hne
      exact (toDateTime_cases _).resolve_right hne
    · rintro ⟨d', hd'⟩ herror
      rw [hd'] at herror
      cases herror

/-- Half a second into the leap second with which the calendar ends. -/
def lastLeap : DateTime := ⟨8210266876799, 1500000000, by decide, by decide, by decide⟩

/-- The date-time is lost on the way to the wire. Its timestamp is normalized and denotes the
instant, and no date-time is read from it. -/
theorem lastLeap_lost :
    (ofDateTime lastLeap).isNormalized = true ∧
      (ofDateTime lastLeap).instant = lastLeap.instant ∧
      (ofDateTime lastLeap).toDateTime = .error ⟨⟨8210266876800, 500000000⟩⟩ ∧
      ¬ ∃ d', (ofDateTime lastLeap).toDateTime = .ok d' ∧ d'.instant = lastLeap.instant := by
  have herror : (ofDateTime lastLeap).toDateTime = .error ⟨⟨8210266876800, 500000000⟩⟩ := by decide
  refine ⟨by decide, by decide, herror, ?_⟩
  rintro ⟨d', hd', -⟩
  rw [herror] at hd'
  cases hd'

end Timestamp

end Crosswalk
