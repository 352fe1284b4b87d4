import Crosswalk.Proofs.BinaryWords
import Mathlib.Data.Nat.Dist

/-!
# Rounding is to the nearest, a half to the even

`BinaryFormat.nearestWord` computes a word from a magnitude by one division. That this is the word
nearest to the magnitude, and the even one of two that are equally near, is shown here
(`BinaryFormat.dist_nearestWord_le`, `BinaryFormat.even_nearestWord`). The word of infinity counts
as the magnitude that would follow the greatest finite one, as the binary formats have it.

The bits of a magnitude that do not fit beside the leading one are dropped, and with their number
`drop` fixed the magnitudes of the format come in two kinds (`BinaryFormat.magnitude_grid`). The
multiples of `2 ^ drop` form a grid, and on it rounding is the rounding of a quotient. All others
lie below the grid's leading part, hence below the magnitude that is rounded, and are further away
than the first point of that part. A quotient that is rounded up past the last fraction needs no
care: the carry runs into the exponent (`BinaryFormat.magnitude_add_of_le`).

What conversions need of this is that whole numbers are rounded to whole numbers
(`Number.exists_whole_of_encode`). A cast back to an integer then cuts nothing off.
-/

namespace Crosswalk

/-! ### Rounding a quotient -/

/-- The quotient is rounded down, at most half a divisor away, or up. -/
theorem roundHalfEven_cases (x d : Nat) :
    (roundHalfEven x d = x / d ∧ (2 * (x % d) < d ∨ (2 * (x % d) = d ∧ x / d % 2 = 0))) ∨
      (roundHalfEven x d = x / d + 1 ∧ (d < 2 * (x % d) ∨ (2 * (x % d) = d ∧ x / d % 2 = 1))) := by
  rw [roundHalfEven]
  split
  · next hdown => exact .inl ⟨rfl, hdown⟩
  · exact .inr ⟨rfl, by omega⟩

theorem dist_quotient (x d : Nat) : Nat.dist x (x / d * d) = x % d := by
  have hdiv := Nat.div_add_mod' x d
  simp only [Nat.dist]
  omega

theorem dist_quotient_succ (x : Nat) {d : Nat} (hd : 0 < d) :
    Nat.dist x ((x / d + 1) * d) = d - x % d := by
  have hdiv := Nat.div_add_mod' x d
  have hmod := Nat.mod_lt x hd
  rw [Nat.succ_mul]
  simp only [Nat.dist]
  omega

/-- All multiples but the two around `x` are at least a divisor away. -/
theorem le_dist_mul {x k d : Nat} (hd : 0 < d) (hk : k ≠ x / d) (hk' : k ≠ x / d + 1) :
    d ≤ Nat.dist x (k * d) := by
  have hdiv := Nat.div_add_mod' x d
  have hmod := Nat.mod_lt x hd
  simp only [Nat.dist]
  rcases Nat.lt_or_ge k (x / d) with hlt | hge
  · have hbelow : (k + 1) * d ≤ x / d * d := Nat.mul_le_mul_right d hlt
    rw [Nat.succ_mul] at hbelow
    omega
  · have habove : (x / d + 1 + 1) * d ≤ k * d := Nat.mul_le_mul_right d (by omega)
    rw [Nat.succ_mul, Nat.succ_mul] at habove
    omega

/-- The rounded quotient is at most half a divisor away. -/
theorem two_mul_dist_roundHalfEven_le (x : Nat) {d : Nat} (hd : 0 < d) :
    2 * Nat.dist x (roundHalfEven x d * d) ≤ d := by
  have hmod := Nat.mod_lt x hd
  rcases roundHalfEven_cases x d with ⟨hround, hhalf⟩ | ⟨hround, hhalf⟩
  · rw [hround, dist_quotient]
    omega
  · rw [hround, dist_quotient_succ x hd]
    omega

/-- **The rounded quotient is a nearest multiple.** -/
theorem dist_roundHalfEven_le (x k : Nat) {d : Nat} (hd : 0 < d) :
    Nat.dist x (roundHalfEven x d * d) ≤ Nat.dist x (k * d) := by
  have hhalf := two_mul_dist_roundHalfEven_le x hd
  have hdown := dist_quotient x d
  have hup := dist_quotient_succ x hd
  by_cases hk : k = x / d
  · rw [hk]
    rcases roundHalfEven_cases x d with ⟨hround, -⟩ | ⟨hround, -⟩
    · rw [hround]
    · rw [hround] at hhalf ⊢
      omega
  · by_cases hk' : k = x / d + 1
    · rw [hk']
      rcases roundHalfEven_cases x d with ⟨hround, -⟩ | ⟨hround, -⟩
      · rw [hround] at hhalf ⊢
        omega
      · rw [hround]
    · have hfar := le_dist_mul hd hk hk'
      omega

/-- **Of two nearest multiples it is the even one.** -/
theorem even_roundHalfEven {x k d : Nat} (hd : 0 < d) (hk : k ≠ roundHalfEven x d)
    (htie : Nat.dist x (roundHalfEven x d * d) = Nat.dist x (k * d)) :
    roundHalfEven x d % 2 = 0 := by
  have hdown := dist_quotient x d
  have hup := dist_quotient_succ x hd
  have hmod := Nat.mod_lt x hd
  have hnear : k = x / d ∨ k = x / d + 1 := by
    by_contra hcon
    have hhalf := two_mul_dist_roundHalfEven_le x hd
    have hfar := le_dist_mul hd (fun h => hcon (.inl h)) fun h => hcon (.inr h)
    omega
  rcases roundHalfEven_cases x d with ⟨hround, hhalf⟩ | ⟨hround, hhalf⟩
  · rw [hround] at hk htie ⊢
    obtain rfl : k = x / d + 1 := hnear.resolve_left hk
    omega
  · rw [hround] at hk htie ⊢
    obtain rfl : k = x / d := hnear.resolve_right hk
    omega

namespace BinaryFormat

variable (f : BinaryFormat)

/-! ### Magnitudes on a grid -/

/-- A rounded quotient is put into place by addition, whether it carries into the exponent or not.
-/
theorem magnitude_add_of_le {drop r : Nat} (hlow : drop = 0 ∨ f.fractionSize ≤ r)
    (hle : r ≤ 2 * f.fractionSize) :
    f.magnitude (drop * f.fractionSize + r) = r * 2 ^ drop := by
  have hpos := f.fractionSize_pos
  by_cases hlt : r < f.fractionSize
  · obtain rfl : drop = 0 := hlow.resolve_right (by omega)
    rw [Nat.zero_mul, Nat.zero_add, f.magnitude_of_lt hlt, Nat.pow_zero, Nat.mul_one]
  · obtain ⟨fraction, rfl⟩ : ∃ fraction, r = f.fractionSize + fraction :=
      ⟨r - f.fractionSize, by omega⟩
    by_cases hcarry : fraction = f.fractionSize
    · have hword : drop * f.fractionSize + (f.fractionSize + fraction) =
          (drop + 1 + 1) * f.fractionSize + 0 := by rw [hcarry]; ring
      rw [hword, f.magnitude_add (drop + 1) hpos, hcarry]
      ring
    · have hword : drop * f.fractionSize + (f.fractionSize + fraction) =
          (drop + 1) * f.fractionSize + fraction := by ring
      rw [hword, f.magnitude_add drop (by omega)]

theorem magnitude_lt_succ (word : Nat) : f.magnitude word < f.magnitude (word + 1) := by
  rcases f.word_cases word with hlt | ⟨doublings, fraction, hfraction, rfl⟩
  · have hsucc : f.magnitude (0 * f.fractionSize + (word + 1)) = (word + 1) * 2 ^ 0 :=
      f.magnitude_add_of_le (.inl rfl) (by omega)
    rw [Nat.zero_mul, Nat.zero_add, Nat.pow_zero, Nat.mul_one] at hsucc
    rw [hsucc, f.magnitude_of_lt hlt]
    exact Nat.lt_succ_self word
  · have hword : (doublings + 1) * f.fractionSize + fraction + 1 =
        doublings * f.fractionSize + (f.fractionSize + fraction + 1) := by ring
    rw [f.magnitude_add doublings hfraction, hword,
      f.magnitude_add_of_le (.inr (by omega)) (by omega)]
    exact Nat.mul_lt_mul_of_pos_right (Nat.lt_succ_self _) (Nat.two_pow_pos _)

/-- **Greater words have greater magnitudes.** -/
theorem strictMono_magnitude : StrictMono f.magnitude :=
  strictMono_nat_of_lt_succ f.magnitude_lt_succ

/-- With so many bits dropped, a magnitude is on the grid or below its leading part. -/
theorem magnitude_grid (drop word : Nat) :
    (∃ k, f.magnitude word = k * 2 ^ drop) ∨
      (0 < drop ∧ f.magnitude word < f.fractionSize * 2 ^ drop) := by
  have hleading : 0 < drop → f.fractionSize * 2 ^ 1 ≤ f.fractionSize * 2 ^ drop := fun h =>
    Nat.mul_le_mul_left _ (Nat.pow_le_pow_right Nat.two_pos h)
  rcases f.word_cases word with hlt | ⟨doublings, fraction, hfraction, rfl⟩
  · rw [f.magnitude_of_lt hlt]
    rcases Nat.eq_zero_or_pos drop with rfl | hdrop
    · exact .inl ⟨word, by rw [Nat.pow_zero, Nat.mul_one]⟩
    · have := hleading hdrop
      exact .inr ⟨hdrop, by omega⟩
  · rw [f.magnitude_add doublings hfraction]
    rcases Nat.lt_or_ge doublings drop with hlt | hge
    · refine .inr ⟨by omega, ?_⟩
      calc (f.fractionSize + fraction) * 2 ^ doublings
          < f.fractionSize * 2 * 2 ^ doublings :=
            Nat.mul_lt_mul_of_pos_right (by omega) (Nat.two_pow_pos _)
        _ = f.fractionSize * 2 ^ (doublings + 1) := by rw [Nat.pow_succ]; ring
        _ ≤ f.fractionSize * 2 ^ drop :=
            Nat.mul_le_mul_left _ (Nat.pow_le_pow_right Nat.two_pos hlt)
    · refine .inl ⟨(f.fractionSize + fraction) * 2 ^ (doublings - drop), ?_⟩
      rw [Nat.mul_assoc, ← Nat.pow_add, Nat.sub_add_cancel hge]

/-! ### The nearest word -/

/-- How many low bits of a magnitude do not fit beside the leading one. -/
def drop (quanta : Nat) : Nat := Nat.log2 (quanta / f.step) - f.fractionBits

/-- The quotient that is rounded to find the nearest word. -/
def rounded (quanta : Nat) : Nat := roundHalfEven quanta (f.step * 2 ^ f.drop quanta)

theorem nearestWord_eq (quanta : Nat) : f.nearestWord quanta =
    min (f.drop quanta * f.fractionSize + f.rounded quanta) f.infinityWord := rfl

theorem grid_pos (quanta : Nat) : 0 < f.step * 2 ^ f.drop quanta :=
  Nat.mul_pos f.step_pos (Nat.two_pow_pos _)

/-- Just so many bits are dropped that a leading one and the fraction stay. -/
theorem quotient_bounds (quanta : Nat) :
    quanta / (f.step * 2 ^ f.drop quanta) < 2 * f.fractionSize ∧
      (f.drop quanta = 0 ∨ f.fractionSize ≤ quanta / (f.step * 2 ^ f.drop quanta)) := by
  have hsize : f.fractionSize = 2 ^ f.fractionBits := rfl
  rw [← Nat.div_div_eq_div_mul, Nat.div_lt_iff_lt_mul (Nat.two_pow_pos _), hsize, drop]
  constructor
  · have hlt : quanta / f.step < 2 ^ (Nat.log2 (quanta / f.step) + 1) := Nat.lt_log2_self
    refine Nat.lt_of_lt_of_le hlt ?_
    rw [← Nat.pow_succ', ← Nat.pow_add]
    exact Nat.pow_le_pow_right Nat.two_pos (by omega)
  · by_cases hdrop : Nat.log2 (quanta / f.step) - f.fractionBits = 0
    · exact .inl hdrop
    · have hne : quanta / f.step ≠ 0 := by
        intro hzero
        rw [hzero, Nat.log2_zero, Nat.zero_sub] at hdrop
        exact hdrop rfl
      refine .inr ((Nat.le_div_iff_mul_le (Nat.two_pow_pos _)).mpr ?_)
      rw [← Nat.pow_add, Nat.add_sub_cancel' (by omega)]
      exact Nat.log2_self_le hne

/-- The magnitude that a rounded quotient stands for. -/
theorem magnitude_rounded (quanta : Nat) :
    f.magnitude (f.drop quanta * f.fractionSize + f.rounded quanta) =
      f.rounded quanta * 2 ^ f.drop quanta := by
  obtain ⟨hlt, hlow⟩ := f.quotient_bounds quanta
  have hcases := roundHalfEven_cases quanta (f.step * 2 ^ f.drop quanta)
  refine f.magnitude_add_of_le (hlow.imp_right fun h => ?_) ?_ <;> rw [rounded] <;> omega

/-- Among all words, those past infinity included, the rounded quotient gives a nearest one, and
if another is as near then the quotient is even. -/
theorem dist_rounded_le (quanta word : Nat) :
    Nat.dist quanta (f.rounded quanta * (f.step * 2 ^ f.drop quanta)) ≤
        Nat.dist quanta (f.magnitude word * f.step) ∧
      (word ≠ f.drop quanta * f.fractionSize + f.rounded quanta →
        Nat.dist quanta (f.rounded quanta * (f.step * 2 ^ f.drop quanta)) =
          Nat.dist quanta (f.magnitude word * f.step) → f.rounded quanta % 2 = 0) := by
  have hgrid := f.grid_pos quanta
  rcases f.magnitude_grid (f.drop quanta) word with ⟨k, hk⟩ | ⟨hdrop, hbelow⟩
  · have hmultiple : f.magnitude word * f.step = k * (f.step * 2 ^ f.drop quanta) := by
      rw [hk]; ring
    rw [hmultiple]
    refine ⟨dist_roundHalfEven_le quanta k hgrid, fun hne => even_roundHalfEven hgrid ?_⟩
    rintro rfl
    exact hne (f.strictMono_magnitude.injective (hk.trans (f.magnitude_rounded quanta).symm))
  · -- Below the leading part of the grid all magnitudes are further away than its first point.
    have hleading : f.fractionSize * (f.step * 2 ^ f.drop quanta) ≤ quanta :=
      (Nat.le_div_iff_mul_le hgrid).mp ((f.quotient_bounds quanta).2.resolve_left (by omega))
    have hnearest := dist_roundHalfEven_le quanta f.fractionSize hgrid
    have hlt : f.magnitude word * f.step < f.fractionSize * (f.step * 2 ^ f.drop quanta) := by
      calc f.magnitude word * f.step
          < f.fractionSize * 2 ^ f.drop quanta * f.step :=
            Nat.mul_lt_mul_of_pos_right hbelow f.step_pos
        _ = f.fractionSize * (f.step * 2 ^ f.drop quanta) := by ring
    rw [rounded]
    simp only [Nat.dist] at hnearest ⊢
    exact ⟨by omega, fun _ _ => by omega⟩

/-- Where rounding goes past infinity, infinity is the nearest word there is. -/
theorem magnitude_infinityWord_le {quanta : Nat}
    (h : f.infinityWord < f.drop quanta * f.fractionSize + f.rounded quanta) :
    f.magnitude f.infinityWord * f.step ≤ quanta := by
  have hnearest := (f.dist_rounded_le quanta f.infinityWord).1
  have hlt : f.magnitude f.infinityWord * f.step <
      f.rounded quanta * (f.step * 2 ^ f.drop quanta) := by
    calc f.magnitude f.infinityWord * f.step
        < f.rounded quanta * 2 ^ f.drop quanta * f.step := by
          rw [← f.magnitude_rounded]
          exact Nat.mul_lt_mul_of_pos_right (f.strictMono_magnitude h) f.step_pos
      _ = f.rounded quanta * (f.step * 2 ^ f.drop quanta) := by ring
  simp only [Nat.dist] at hnearest
  omega

/-- **No word is nearer.** -/
theorem dist_nearestWord_le (quanta : Nat) {word : Nat} (h : word ≤ f.infinityWord) :
    Nat.dist quanta (f.magnitude (f.nearestWord quanta) * f.step) ≤
      Nat.dist quanta (f.magnitude word * f.step) := by
  rw [nearestWord_eq]
  rcases Nat.lt_or_ge f.infinityWord (f.drop quanta * f.fractionSize + f.rounded quanta) with
    hlt | hge
  · have hinfinity := f.magnitude_infinityWord_le hlt
    have hword : f.magnitude word * f.step ≤ f.magnitude f.infinityWord * f.step :=
      Nat.mul_le_mul_right _ (f.strictMono_magnitude.monotone h)
    rw [Nat.min_eq_right (Nat.le_of_lt hlt)]
    simp only [Nat.dist]
    omega
  · rw [Nat.min_eq_left hge, f.magnitude_rounded, Nat.mul_assoc, Nat.mul_comm (2 ^ _)]
    exact (f.dist_rounded_le quanta word).1

/-- **Where another word is as near, the nearest word is even.** -/
theorem even_nearestWord (hf : 0 < f.fractionBits) {quanta word : Nat}
    (hne : word ≠ f.nearestWord quanta)
    (htie : Nat.dist quanta (f.magnitude (f.nearestWord quanta) * f.step) =
      Nat.dist quanta (f.magnitude word * f.step)) :
    f.nearestWord quanta % 2 = 0 := by
  have heven (k : Nat) : k * f.fractionSize % 2 = 0 := by
    have hsize : f.fractionSize = 2 ^ (f.fractionBits - 1) * 2 := by
      rw [← Nat.pow_succ, Nat.succ_eq_add_one, Nat.sub_add_cancel hf]
      rfl
    rw [hsize, ← Nat.mul_assoc, Nat.mul_mod_left]
  rw [nearestWord_eq] at hne htie ⊢
  rcases Nat.lt_or_ge f.infinityWord (f.drop quanta * f.fractionSize + f.rounded quanta) with
    hlt | hge
  · rw [Nat.min_eq_right (Nat.le_of_lt hlt), infinityWord]
    exact heven _
  · rw [Nat.min_eq_left hge] at hne htie ⊢
    rw [f.magnitude_rounded, Nat.mul_assoc, Nat.mul_comm (2 ^ _)] at htie
    have hrounded := (f.dist_rounded_le quanta word).2 hne htie
    rw [Nat.add_mod, heven, hrounded]

/-! ### Whole numbers -/

/-- A rounded magnitude keeps its sign. -/
theorem decode_encode_finite (negative : Bool) (quanta : Nat) :
    f.decode (f.encode (.finite negative quanta)) =
      if f.nearestWord quanta < f.infinityWord then
        .finite negative (f.magnitude (f.nearestWord quanta) * f.step)
      else .infinite negative := by
  have hsize := f.infinityWord_add
  have hpos := f.fractionSize_pos
  have hle := f.nearestWord_le quanta
  rw [encode.eq_def]
  dsimp only
  rw [f.decode_add negative (by omega)]
  split
  · rfl
  · rw [if_pos (by omega)]

/-- Rounding leaves a multiple of a power of two times the step a multiple of it: either the grid is
so fine that nothing is rounded, or it consists of such multiples. -/
theorem dvd_magnitude_nearestWord {m bits : Nat}
    (h : f.nearestWord (m * (f.step * 2 ^ bits)) < f.infinityWord) :
    f.step * 2 ^ bits ∣ f.magnitude (f.nearestWord (m * (f.step * 2 ^ bits))) * f.step := by
  rw [nearestWord_eq] at h ⊢
  rw [Nat.min_eq_left (by omega), f.magnitude_rounded]
  rcases Nat.le_total bits (f.drop (m * (f.step * 2 ^ bits))) with hle | hge
  · rw [Nat.mul_assoc, Nat.mul_comm _ f.step]
    exact Nat.dvd_mul_left_of_dvd (Nat.mul_dvd_mul_left _ (Nat.pow_dvd_pow 2 hle)) _
  · obtain ⟨more, hbits⟩ := Nat.exists_eq_add_of_le hge
    have hround : f.rounded (m * (f.step * 2 ^ bits)) = m * 2 ^ more := by
      rw [rounded]
      generalize f.drop (m * (f.step * 2 ^ bits)) = drop at hbits ⊢
      have hquanta : m * (f.step * 2 ^ bits) = m * 2 ^ more * (f.step * 2 ^ drop) := by
        rw [hbits, Nat.pow_add]; ring
      rw [hquanta, roundHalfEven_mul _ (Nat.mul_pos f.step_pos (Nat.two_pow_pos _))]
    refine ⟨m, ?_⟩
    rw [hround]
    generalize f.drop (m * (f.step * 2 ^ bits)) = drop at hbits ⊢
    rw [hbits, Nat.pow_add]
    ring

end BinaryFormat

/-- **A whole number is rounded to a whole number of its sign**, or to an infinity. -/
theorem Number.exists_whole_of_encode {f : BinaryFormat} {bits : Nat}
    (hunit : f.step * 2 ^ bits = quantaPerOne) (n : Int) :
    f.decode (f.encode (ofInt n)) = .infinite (decide (n < 0)) ∨
      ∃ whole, f.decode (f.encode (ofInt n)) = .finite (decide (n < 0)) (whole * quantaPerOne) := by
  rw [ofInt, f.decode_encode_finite]
  split
  · next hfinite =>
    rw [← hunit] at hfinite ⊢
    obtain ⟨whole, hwhole⟩ := f.dvd_magnitude_nearestWord hfinite
    exact .inr ⟨whole, by rw [hwhole, Nat.mul_comm]⟩
  · exact .inl rfl

end Crosswalk
