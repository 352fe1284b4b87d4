import Crosswalk.Proofs.ConversionTable
import Crosswalk.Proofs.ExactCoercion
import Crosswalk.Proofs.Fitting
import Crosswalk.Proofs.Sameness

/-!
# Coercing along a path

A value may come to a kind directly or by way of other kinds. Among numeric kinds the way makes no
difference, since coercion is exact and complete. What a value denotes is kept by every step, and
whether a kind accepts it is decided by that alone (`Value.exists_coerce?_of_quantity?`). So a path
can only restrict which values arrive. It cannot admit one that the direct way turns away, and it
cannot bring it to another place.

What arrives need not be the same word. A negative zero that passes through an integer kind comes
out as the positive one, and a `nan` has one word after coercion whatever it had before. Values of
one numeric kind that denote the same are still `Value.Alike` (`Value.alike_of_quantity?_eq`), and
this is the sense in which paths agree.

Between the two kinds of time it is different. An instant in a leap second is written as a timestamp
of the second after it, and is read from there as another instant, or not at all. It is the one
exception (`Value.not_alike_back_of_isLeap`).
-/

namespace Crosswalk.Value

variable {S : Schema} {v w u : Value} {k l : ScalarKind}

/-! ### Values that denote the same -/

theorem Alike.symm (h : v.Alike S w) : w.Alike S v := by
  rcases h with h | ⟨hkind, hv, hw⟩
  · exact .inl (same_comm S v w ▸ h)
  · exact .inr ⟨hkind.symm, hw, hv⟩

theorem alike_refl (S : Schema) (v : Value) : v.Alike S v := .inl (same_refl S v)

/-- **Values of one numeric kind that denote the same are alike.** They are equal, up to the sign of
a zero and the word of what is no number. -/
theorem alike_of_quantity?_eq (S : Schema) (hk : k.isNumeric = true) (hv : v.scalarKind? = some k)
    (hw : w.scalarKind? = some k) (h : v.quantity? = w.quantity?) : v.Alike S w := by
  obtain ⟨n, hn⟩ := exists_number? hv hk
  obtain ⟨m, hm⟩ := exists_number? hw hk
  have hsign : n.ForgetsSign m ∨ m.ForgetsSign n := by
    rw [quantity?_eq, quantity?_eq, hn, hm, Option.map_some, Option.map_some,
      Option.some.injEq] at h
    exact Number.quantity_eq_iff.mp h
  have hfloat (hkind : k = .f32 ∨ k = .f64) : v.Alike S w := by
    rcases hsign with hsign | hsign
    · exact (alike_of_forgetsSign S hkind hv hw hn hm hsign).symm
    · exact alike_of_forgetsSign S hkind hw hv hm hn hsign
  rcases numeric_cases hv hk with ⟨hkind, -⟩ | ⟨hkind, -⟩ | ⟨-, i, hi⟩
  · exact hfloat (.inl hkind)
  · exact hfloat (.inr hkind)
  rcases numeric_cases hw hk with ⟨hkind, -⟩ | ⟨hkind, -⟩ | ⟨-, j, hj⟩
  · exact hfloat (.inl hkind)
  · exact hfloat (.inr hkind)
  -- both are found again by the whole number that they are
  have hij : j = i := by
    rw [quantity?_eq, quantity?_eq, number?_of_int? hi, number?_of_int? hj, Option.map_some,
      Option.map_some, Option.some.injEq] at h
    exact Option.some.inj ((Number.toInt?_ofInt j).symm.trans (Number.toInt?_of_quantity_eq h))
  have hvw : some v = some w := by
    rw [← ofInt?_of_int? hv hi, ← ofInt?_of_int? hw hj, hij]
  rw [Option.some.inj hvw]
  exact alike_refl S w

/-! ### What coercion does -/

/-- The ways in which a value is coerced. -/
inductive Coerces : Value → ScalarKind → Value → Prop
  /-- Nothing, and what has the kind already, pass as they are. -/
  | unchanged {v : Value} {k : ScalarKind} (h : v = null ∨ v.scalarKind? = some k) : Coerces v k v
  /-- From one numeric kind to another, keeping what is denoted. -/
  | number {v w : Value} {j k : ScalarKind} {q : Quantity} (hj : j.isNumeric = true)
    (hk : k.isNumeric = true) (hv : v.scalarKind? = some j) (hw : w.scalarKind? = some k)
    (hq : v.quantity? = some q) (hq' : w.quantity? = some q) : Coerces v k w
  | readTime {t : Timestamp} {d : DateTime} (h : t.toDateTime = .ok d) :
    Coerces (timestamp t) .datetime (datetime d)
  | writeTime (d : DateTime) : Coerces (datetime d) .timestamp (timestamp (.ofDateTime d))

/-- **Every coercion is one of these.** -/
theorem coerces_of_coerce? (h : v.coerce? k = some w) : Coerces v k w := by
  cases hv : v.scalarKind? with
  | none =>
    cases v with
    | null =>
      cases h
      exact .unchanged (.inl rfl)
    | list items => cases h
    | record type cells => cases h
    | _ => cases hv
  | some j =>
    by_cases hne : j = k
    · rw [hne] at hv
      rw [coerce?_same hv, Option.some.injEq] at h
      rw [← h]
      exact .unchanged (.inr hv)
    by_cases hnumeric : (j.isNumeric && k.isNumeric) = true
    · obtain ⟨hj, hk⟩ := Bool.and_eq_true_iff.mp hnumeric
      obtain ⟨n, hn⟩ := exists_number? hv hj
      have hq : v.quantity? = some n.quantity := by rw [quantity?_eq, hn, Option.map_some]
      obtain ⟨hw, hq'⟩ := quantity?_of_coerce? hv hj hq h
      exact .number hj hk hv hw hq hq'
    by_cases htime : (j.isTime && k.isTime) = true
    · rw [Bool.and_eq_true, ScalarKind.isTime_iff, ScalarKind.isTime_iff] at htime
      rcases htime with ⟨rfl | rfl, rfl | rfl⟩
      · exact absurd rfl hne
      · cases v <;> cases hv
        obtain ⟨d, hd, rfl⟩ := coerce?_timestamp_eq_some_iff.mp h
        exact .readTime hd
      · cases v <;> cases hv
        cases h
        exact .writeTime _
      · exact absurd rfl hne
    · rw [coerce?_eq_none hv hne hnumeric htime] at h
      cases h

/-- What is coerced has the kind afterwards, unless it passed as it is. -/
theorem Coerces.eq_or_scalarKind? (h : Coerces v k w) : w = v ∨ w.scalarKind? = some k := by
  cases h with
  | unchanged => exact .inl rfl
  | number _ _ _ hw => exact .inr hw
  | readTime => exact .inr rfl
  | writeTime => exact .inr rfl

/-! ### Paths -/

/-- **A numeric value comes to every value that denotes the same**, as far as values of one kind can
be told apart by what they denote. -/
theorem exists_coerce?_of_quantity? (S : Schema) {q : Quantity} (hk : k.isNumeric = true)
    (hl : l.isNumeric = true) (hv : v.scalarKind? = some k) (hu : u.scalarKind? = some l)
    (hq : v.quantity? = some q) (hq' : u.quantity? = some q) :
    ∃ u', v.coerce? l = some u' ∧ u'.Alike S u := by
  have hsome : (v.coerce? l).isSome = true := (isSome_coerce?_iff hv hk hl hq).mpr ⟨u, hu, hq'⟩
  obtain ⟨u', hu'⟩ := Option.isSome_iff_exists.mp hsome
  obtain ⟨hkind, hquantity⟩ := quantity?_of_coerce? hv hk hq hu'
  exact ⟨u', hu', alike_of_quantity?_eq S hl hkind hu (hquantity.trans hq'.symm)⟩

/-- Where two steps lead, one step leads. -/
theorem exists_direct (S : Schema) (hleap : v.isLeap = false) (hw : v.coerce? k = some w)
    (hu : w.coerce? l = some u) : ∃ u', v.coerce? l = some u' ∧ u'.Alike S u := by
  have hfirst := coerces_of_coerce? hw
  rcases hfirst.eq_or_scalarKind? with rfl | hkind
  · exact ⟨u, hu, alike_refl S u⟩
  by_cases hne : k = l
  · rw [← hne, coerce?_same hkind, Option.some.injEq] at hu
    rw [← hne, ← hu]
    exact ⟨w, hw, alike_refl S w⟩
  have hsecond := coerces_of_coerce? hu
  have hchanged : ¬ (w = null ∨ w.scalarKind? = some l) := by
    rintro (rfl | hl)
    · cases hkind
    · exact hne (Option.some.inj (hkind.symm.trans hl))
  cases hfirst with
  | unchanged => exact ⟨u, hu, alike_refl S u⟩
  | number hj hk hv _ hq hq' =>
    cases hsecond with
    | unchanged h => exact absurd h hchanged
    | number _ hl _ hu hq₂ hq₂' =>
      obtain rfl := Option.some.inj (hq'.symm.trans hq₂)
      exact exists_coerce?_of_quantity? S hj hl hv hu hq hq₂'
    | readTime | writeTime =>
      cases hkind
      cases hk
  | readTime hd =>
    cases hsecond with
    | unchanged h => exact absurd h hchanged
    | number hj _ hv =>
      cases hv
      cases hj
    | writeTime =>
      rw [Timestamp.ofDateTime_of_toDateTime hd]
      exact ⟨_, coerce?_same rfl, alike_refl S _⟩
  | writeTime d =>
    cases hsecond with
    | unchanged h => exact absurd h hchanged
    | number hj _ hv =>
      cases hv
      cases hj
    | readTime hd =>
      rw [Timestamp.toDateTime_ofDateTime hleap, Except.ok.injEq] at hd
      rw [← hd]
      exact ⟨_, coerce?_same rfl, alike_refl S _⟩

/-- What has been coerced comes back. -/
theorem exists_back (S : Schema) (hleap : v.isLeap = false) (hv : v.scalarKind? = some l)
    (hw : v.coerce? k = some w) : ∃ v', w.coerce? l = some v' ∧ v'.Alike S v := by
  cases coerces_of_coerce? hw with
  | unchanged => exact ⟨v, coerce?_same hv, alike_refl S v⟩
  | number hj hk hkind hwkind hq hq' =>
    obtain rfl := Option.some.inj (hv.symm.trans hkind)
    exact exists_coerce?_of_quantity? S hk hj hwkind hv hq' hq
  | readTime hd =>
    cases hv
    rw [coerce?_datetime, Timestamp.ofDateTime_of_toDateTime hd]
    exact ⟨_, rfl, alike_refl S _⟩
  | writeTime d =>
    cases hv
    have hback := Timestamp.toDateTime_ofDateTime hleap
    exact ⟨_, coerce?_timestamp_eq_some_iff.mpr ⟨d, hback, rfl⟩, alike_refl S _⟩

/-- An instant in a leap second does not come back. -/
theorem not_alike_back_of_isLeap {d : DateTime} (hleap : d.isLeap = true) :
    ¬ ∃ v', (timestamp (.ofDateTime d)).coerce? .datetime = some v' ∧ v'.Alike S (datetime d) := by
  rintro ⟨v', hv', hsame | ⟨-, hnumber, -⟩⟩
  · obtain ⟨d', hd', rfl⟩ := coerce?_timestamp_eq_some_iff.mp hv'
    have heq : d' = d := by simpa [same] using hsame
    rw [← heq, Timestamp.isLeap_of_toDateTime hd'] at hleap
    cases hleap
  · obtain ⟨d', -, rfl⟩ := coerce?_timestamp_eq_some_iff.mp hv'
    cases hnumber

/-- **Coercion does not depend on the path, and can be undone.** A value that comes to a kind by way
of another one, whichever it is, comes to it directly as well, and to the same value there, where
all that is no number counts as one value. In particular what has been coerced comes back to the
kind that it had, as what it was. Only an instant in a leap second is excluded. -/
theorem coerce?_path_independent (S : Schema) {v w : Value} {k : ScalarKind}
    (hleap : v.isLeap = false) (hw : v.coerce? k = some w) :
    (∀ l u, w.coerce? l = some u → ∃ u', v.coerce? l = some u' ∧ u'.Alike S u) ∧
      ∀ l, v.scalarKind? = some l → ∃ v', w.coerce? l = some v' ∧ v'.Alike S v :=
  ⟨fun _ _ hu => exists_direct S hleap hw hu, fun _ hv => exists_back S hleap hv hw⟩

/-- The negative zero loses its sign on the way through an integer kind, and comes to single
precision all the same, as another word than directly. From the integer it also comes back. -/
theorem coerce?_path_independent_negativeZero :
    let zero := f64 ⟨0x8000000000000000⟩
    zero.isLeap = false ∧ zero.coerce? .i32 = some (i32 0) ∧
      (i32 0).coerce? .f32 = some (f32 ⟨0⟩) ∧ zero.coerce? .f32 = some (f32 ⟨0x80000000⟩) ∧
      (f32 ⟨0x80000000⟩).Alike Parcels.schema (f32 ⟨0⟩) ∧
      ∃ back, (i32 0).coerce? .f64 = some back ∧ back.Alike Parcels.schema zero := by
  intro zero
  have hleap : zero.isLeap = false := rfl
  have hnumber : zero.number? = some (.finite true 0) := by decide +kernel
  have hw : zero.coerce? .i32 = some (i32 0) := by
    have hwhole : (Number.finite true 0).toInt? = some 0 := by decide +kernel
    have hof (n : Number) : ofNumber? .i32 n = n.toInt?.bind (ofInt? .i32) := rfl
    rw [coerce?_of_number? (k := .f64) rfl rfl (by decide) hnumber, hof, hwhole]
    rfl
  have hu : (i32 0).coerce? .f32 = some (f32 ⟨0⟩) :=
    coerce?_zero (k := .i32) (l := .f32) rfl rfl (by decide)
  have hdirect : zero.coerce? .f32 = some (f32 ⟨0x80000000⟩) := by
    have hword : Binary32.ofNumber (.finite true 0) = ⟨0x80000000⟩ := by decide +kernel
    have hexact : Binary32.number ⟨0x80000000⟩ = .finite true 0 := by decide +kernel
    rw [coerce?_of_number? (k := .f64) rfl rfl (by decide) hnumber]
    simp only [ofNumber?, hword, hexact, if_true]
  obtain ⟨hpath, hback⟩ := coerce?_path_independent Parcels.schema hleap hw
  obtain ⟨u', hu', halike⟩ := hpath .f32 _ hu
  rw [hdirect, Option.some.injEq] at hu'
  rw [← hu'] at halike
  exact ⟨hleap, hw, hu, hdirect, halike, hback .f64 rfl⟩

end Crosswalk.Value
