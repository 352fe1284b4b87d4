import Crosswalk.Binary
import Mathlib.Tactic.Ring

/-!
# Words and what they denote

Rounding a number to a format and reading the word back gives the number itself as soon as some word
of the format denotes it (`BinaryFormat.decode_encode_decode`). This is the one fact about rounding
that conversions rest on, and it needs no theory of rounding errors. A magnitude of the format is a
whole number of units in the last place, so nothing is rounded, and the word that comes out is the
one that went in (`BinaryFormat.nearestWord_magnitude`).

Which numbers are denoted is a question of two bounds. A product of a number of at most
`fractionBits + 1` bits with a power of two is a magnitude, provided that the power leaves room
below infinity (`BinaryFormat.exists_magnitude`). The kinds that widen into double precision are
instances.
-/

namespace Crosswalk

theorem roundHalfEven_mul (q : Nat) {d : Nat} (hd : 0 < d) : roundHalfEven (q * d) d = q := by
  rw [roundHalfEven, Nat.mul_mod_left, Nat.mul_div_cancel _ hd]
  exact if_pos (.inl hd)

namespace BinaryFormat

variable (f : BinaryFormat)

theorem fractionSize_pos : 0 < f.fractionSize := Nat.two_pow_pos _

theorem step_pos : 0 < f.step := Nat.two_pow_pos _

/-! ### The two shapes of a word -/

/-- Without a hidden bit, a word is its magnitude. -/
theorem magnitude_of_lt {word : Nat} (h : word < f.fractionSize) : f.magnitude word = word := by
  rw [magnitude, Nat.div_eq_of_lt h, Nat.mod_eq_of_lt h]
  rfl

/-- With one, the exponent field counts the doublings. -/
theorem magnitude_add (doublings : Nat) {fraction : Nat} (h : fraction < f.fractionSize) :
    f.magnitude ((doublings + 1) * f.fractionSize + fraction) =
      (f.fractionSize + fraction) * 2 ^ doublings := by
  have hdiv : ((doublings + 1) * f.fractionSize + fraction) / f.fractionSize = doublings + 1 := by
    rw [Nat.add_comm, Nat.add_mul_div_right _ _ f.fractionSize_pos, Nat.div_eq_of_lt h,
      Nat.zero_add]
  have hmod : ((doublings + 1) * f.fractionSize + fraction) % f.fractionSize = fraction := by
    rw [Nat.add_comm, Nat.add_mul_mod_self_right, Nat.mod_eq_of_lt h]
  rw [magnitude, hdiv, hmod]
  exact if_neg (Nat.succ_ne_zero _)

theorem word_cases (word : Nat) : word < f.fractionSize ∨ ∃ doublings fraction,
    fraction < f.fractionSize ∧ word = (doublings + 1) * f.fractionSize + fraction := by
  by_cases h : word < f.fractionSize
  · exact .inl h
  · have hexponent : 1 ≤ word / f.fractionSize :=
      (Nat.one_le_div_iff f.fractionSize_pos).mpr (by omega)
    refine .inr ⟨word / f.fractionSize - 1, word % f.fractionSize,
      Nat.mod_lt _ f.fractionSize_pos, ?_⟩
    rw [Nat.sub_add_cancel hexponent, Nat.div_add_mod']

/-! ### Rounding a magnitude of the format -/

theorem log2_magnitude (doublings : Nat) {fraction : Nat} (h : fraction < f.fractionSize) :
    Nat.log2 ((f.fractionSize + fraction) * 2 ^ doublings) = f.fractionBits + doublings := by
  have hpos : 0 < (f.fractionSize + fraction) * 2 ^ doublings :=
    Nat.mul_pos (Nat.add_pos_left f.fractionSize_pos _) (Nat.two_pow_pos _)
  rw [Nat.log2_eq_iff (Nat.ne_of_gt hpos), Nat.pow_add, Nat.add_right_comm, Nat.pow_add]
  constructor
  · exact Nat.mul_le_mul_right _ (Nat.le_add_right _ _)
  · refine Nat.mul_lt_mul_of_pos_right ?_ (Nat.two_pow_pos _)
    have hdouble : 2 ^ (f.fractionBits + 1) = f.fractionSize + f.fractionSize := by
      rw [Nat.pow_succ, Nat.mul_two]
      rfl
    omega

/-- **A word is the nearest one to its own magnitude.** -/
theorem nearestWord_magnitude {word : Nat} (h : word ≤ f.infinityWord) :
    f.nearestWord (f.magnitude word * f.step) = word := by
  rw [nearestWord, Nat.mul_div_cancel _ f.step_pos]
  rcases f.word_cases word with hlt | ⟨doublings, fraction, hfraction, rfl⟩
  · have hdrop : Nat.log2 word - f.fractionBits = 0 := by
      by_cases hword : word = 0
      · rw [hword, Nat.log2_zero, Nat.zero_sub]
      · have := (Nat.log2_lt hword).mpr hlt
        omega
    have hround : roundHalfEven (word * f.step) (f.step * Nat.pow 2 0) = word := by
      rw [show f.step * Nat.pow 2 0 = f.step from Nat.mul_one _, roundHalfEven_mul word f.step_pos]
    rw [f.magnitude_of_lt hlt, hdrop, hround, Nat.zero_mul, Nat.zero_add, Nat.min_eq_left h]
  · have hround : roundHalfEven ((f.fractionSize + fraction) * 2 ^ doublings * f.step)
        (f.step * Nat.pow 2 doublings) = f.fractionSize + fraction := by
      rw [Nat.mul_assoc, Nat.mul_comm (2 ^ doublings)]
      exact roundHalfEven_mul _ (Nat.mul_pos f.step_pos (Nat.two_pow_pos _))
    have hword : doublings * f.fractionSize + (f.fractionSize + fraction) =
        (doublings + 1) * f.fractionSize + fraction := by ring
    rw [f.magnitude_add doublings hfraction, f.log2_magnitude doublings hfraction,
      Nat.add_sub_cancel_left, hround, hword, Nat.min_eq_left h]

theorem nearestWord_le (quanta : Nat) : f.nearestWord quanta ≤ f.infinityWord :=
  Nat.min_le_right _ _

/-! ### Signs -/

/-- The sign bit stands just above the words of the `nan`s. -/
theorem infinityWord_add : f.infinityWord + f.fractionSize = f.signWord := by
  have hpos : 0 < 2 ^ f.exponentBits := Nat.two_pow_pos _
  show (2 ^ f.exponentBits - 1) * f.fractionSize + f.fractionSize =
    2 ^ (f.exponentBits + f.fractionBits)
  rw [Nat.sub_one_mul, Nat.pow_add, Nat.sub_add_cancel (Nat.le_mul_of_pos_left _ hpos)]
  rfl

/-- Reading a word of which the sign is known. -/
theorem decode_add (negative : Bool) {unsigned : Nat} (h : unsigned < f.signWord) :
    f.decode ((if negative then f.signWord else 0) + unsigned) =
      if unsigned < f.infinityWord then .finite negative (f.magnitude unsigned * f.step)
      else if unsigned = f.infinityWord then .infinite negative
      else .nan := by
  have hsign : decide (((if negative then f.signWord else 0) + unsigned) / f.signWord % 2 = 1) =
      negative := by
    cases negative with
    | false => simp [Nat.div_eq_of_lt h]
    | true => simp [Nat.add_div_left _ (Nat.zero_lt_of_lt h), Nat.div_eq_of_lt h]
  have hrest : ((if negative then f.signWord else 0) + unsigned) % f.signWord = unsigned := by
    cases negative with
    | false => simp [Nat.mod_eq_of_lt h]
    | true => simp [Nat.mod_eq_of_lt h]
  rw [decode, hsign, hrest]

theorem decode_cases (word : Nat) :
    (∃ negative unsigned, unsigned < f.infinityWord ∧
        f.decode word = .finite negative (f.magnitude unsigned * f.step)) ∨
      (∃ negative, f.decode word = .infinite negative) ∨ f.decode word = .nan := by
  rw [decode]
  split
  · next h => exact .inl ⟨_, _, h, rfl⟩
  · split
    · exact .inr (.inl ⟨_, rfl⟩)
    · exact .inr (.inr rfl)

/-! ### Exact numbers of a format -/

theorem decode_encode_infinite (negative : Bool) :
    f.decode (f.encode (.infinite negative)) = .infinite negative := by
  have hsize := f.infinityWord_add
  have hpos := f.fractionSize_pos
  rw [encode.eq_def]
  dsimp only
  rw [decode_add _ _ (by omega), if_neg (Nat.lt_irrefl _), if_pos rfl]

/-- The quiet `nan` lies between infinity and the sign bit. -/
theorem decode_encode_nan (hf : 0 < f.fractionBits) : f.decode (f.encode .nan) = .nan := by
  have hsize := f.infinityWord_add
  have hquiet : Nat.pow 2 (f.fractionBits - 1) < f.fractionSize :=
    Nat.pow_lt_pow_right Nat.one_lt_two (by omega)
  have hpos : 0 < Nat.pow 2 (f.fractionBits - 1) := Nat.two_pow_pos _
  have hnan := f.decode_add false
    (show f.infinityWord + Nat.pow 2 (f.fractionBits - 1) < f.signWord by omega)
  rw [if_neg Bool.false_ne_true, Nat.zero_add, if_neg (by omega), if_neg (by omega)] at hnan
  exact hnan

/-- Some word denotes the number. -/
def Denotes (n : Number) : Prop := ∃ word, f.decode word = n

theorem denotes_zero (hf : 0 < f.infinityWord) (negative : Bool) :
    f.Denotes (.finite negative 0) := by
  have hzero := f.decode_add negative (show 0 < f.signWord from Nat.two_pow_pos _)
  rw [if_pos hf, f.magnitude_of_lt f.fractionSize_pos, Nat.zero_mul] at hzero
  exact ⟨_, hzero⟩

variable {f}

/-- **A number that has a word is rounded to itself.** -/
theorem Denotes.decode_encode (hf : 0 < f.fractionBits) {n : Number} (h : f.Denotes n) :
    f.decode (f.encode n) = n := by
  obtain ⟨word, rfl⟩ := h
  rcases f.decode_cases word with ⟨negative, unsigned, hfinite, h⟩ | ⟨negative, h⟩ | h
  · have hsize := f.infinityWord_add
    rw [h, encode.eq_def]
    dsimp only
    rw [f.nearestWord_magnitude (Nat.le_of_lt hfinite), decode_add _ _ (by omega), if_pos hfinite]
  · rw [h, decode_encode_infinite]
  · rw [h, f.decode_encode_nan hf]

theorem exists_magnitude_of_le {m : Nat} (doublings : Nat) (hle : f.fractionSize ≤ m)
    (hlt : m < 2 * f.fractionSize) :
    ∃ word < (doublings + 2) * f.fractionSize, f.magnitude word = m * 2 ^ doublings := by
  refine ⟨(doublings + 1) * f.fractionSize + (m - f.fractionSize), ?_, ?_⟩
  · have : (doublings + 2) * f.fractionSize =
        (doublings + 1) * f.fractionSize + f.fractionSize := by ring
    omega
  · rw [f.magnitude_add doublings (by omega), Nat.add_sub_cancel' hle]

/-- Few enough bits, doubled not too often, are a magnitude of the format. A number without the
leading bit gets one by taking over doublings, as long as there are any. -/
theorem exists_magnitude {m : Nat} (doublings : Nat) (hm : m < 2 * f.fractionSize) :
    ∃ word < (doublings + 2) * f.fractionSize, f.magnitude word = m * 2 ^ doublings := by
  induction doublings generalizing m with
  | zero =>
    by_cases hle : f.fractionSize ≤ m
    · exact exists_magnitude_of_le 0 hle hm
    · exact ⟨m, by omega, by rw [f.magnitude_of_lt (by omega), Nat.pow_zero, Nat.mul_one]⟩
  | succ doublings ih =>
    by_cases hle : f.fractionSize ≤ m
    · exact exists_magnitude_of_le (doublings + 1) hle hm
    · obtain ⟨word, hword, hmagnitude⟩ := ih (show 2 * m < 2 * f.fractionSize by omega)
      have hroom : (doublings + 1 + 2) * f.fractionSize =
          (doublings + 2) * f.fractionSize + f.fractionSize := by ring
      exact ⟨word, by omega, by rw [hmagnitude]; ring⟩

theorem denotes_finite (negative : Bool) {m : Nat} (doublings : Nat) (hm : m < 2 * f.fractionSize)
    (hroom : (doublings + 2) * f.fractionSize ≤ f.infinityWord) :
    f.Denotes (.finite negative (m * 2 ^ doublings * f.step)) := by
  obtain ⟨word, hword, hmagnitude⟩ := exists_magnitude doublings hm
  have hsize := f.infinityWord_add
  refine ⟨(if negative then f.signWord else 0) + word, ?_⟩
  rw [decode_add _ _ (by omega), if_pos (by omega), hmagnitude]

theorem encode_lt (hf : 0 < f.fractionBits) (n : Number) : f.encode n < 2 * f.signWord := by
  have hsize := f.infinityWord_add
  have hpos := f.fractionSize_pos
  have hquiet : Nat.pow 2 (f.fractionBits - 1) < f.fractionSize :=
    Nat.pow_lt_pow_right Nat.one_lt_two (by omega)
  have hsign (negative : Bool) : (if negative then f.signWord else 0) ≤ f.signWord := by
    split <;> omega
  cases n with
  | nan =>
    rw [encode.eq_def]
    dsimp only
    omega
  | infinite negative =>
    have := hsign negative
    rw [encode.eq_def]
    dsimp only
    omega
  | finite negative quanta =>
    have := hsign negative
    have := f.nearestWord_le quanta
    rw [encode.eq_def]
    dsimp only
    omega

end BinaryFormat

/-! ### The two formats -/

theorem Binary32.denotes_number (x : Binary32) : binary32.Denotes x.number := ⟨_, rfl⟩

theorem Binary64.denotes_number (x : Binary64) : binary64.Denotes x.number := ⟨_, rfl⟩

theorem Binary32.number_ofNumber_eq (n : Number) :
    (ofNumber n).number = binary32.decode (binary32.encode n) := by
  have hlt : binary32.encode n < 2 ^ 32 := BinaryFormat.encode_lt (by decide) n
  rw [number, ofNumber, UInt32.toNat_ofNat_of_lt' hlt]

theorem Binary64.number_ofNumber_eq (n : Number) :
    (ofNumber n).number = binary64.decode (binary64.encode n) := by
  have hlt : binary64.encode n < 2 ^ 64 := BinaryFormat.encode_lt (by decide) n
  rw [number, ofNumber, UInt64.toNat_ofNat_of_lt' hlt]

theorem Binary32.number_ofNumber {n : Number} (h : binary32.Denotes n) :
    (Binary32.ofNumber n).number = n := by
  rw [number_ofNumber_eq, h.decode_encode (by decide)]

theorem Binary64.number_ofNumber {n : Number} (h : binary64.Denotes n) :
    (Binary64.ofNumber n).number = n := by
  rw [number_ofNumber_eq, h.decode_encode (by decide)]

/-- Double precision has room for quanta by the power of two. -/
theorem denotes_mul_two_pow (negative : Bool) {m : Nat} (bits : Nat) (hm : m < 2 ^ 53)
    (hbits : bits ≤ 2045) : binary64.Denotes (.finite negative (m * Nat.pow 2 bits)) := by
  have hstep : binary64.step = 1 := by decide
  have hroom : (bits + 2) * binary64.fractionSize ≤ binary64.infinityWord :=
    Nat.mul_le_mul_right _ (show bits + 2 ≤ 2047 by omega)
  have hdenotes := BinaryFormat.denotes_finite (f := binary64) negative bits hm hroom
  rwa [hstep, Nat.mul_one] at hdenotes

/-- **Double precision has every whole number of at most 53 bits.** -/
theorem denotes_ofInt {n : Int} (h : n.natAbs < 2 ^ 53) : binary64.Denotes (.ofInt n) := by
  unfold Number.ofInt Number.quantaPerOne
  exact denotes_mul_two_pow (decide (n < 0)) Number.quantumBits h (by decide)

/-- **Double precision has every number of single precision.** -/
theorem denotes_of_denotes {n : Number} (h : binary32.Denotes n) : binary64.Denotes n := by
  obtain ⟨word, rfl⟩ := h
  rcases binary32.decode_cases word with ⟨negative, unsigned, hfinite, h⟩ | ⟨negative, h⟩ | h
  · obtain ⟨bits, hstep, hbits⟩ : ∃ bits, binary32.step = Nat.pow 2 bits ∧ bits = 925 :=
      ⟨_, BinaryFormat.step.eq_1 binary32, by decide⟩
    rw [h, hstep]
    rcases binary32.word_cases unsigned with hlt | ⟨doublings, fraction, hfraction, rfl⟩
    · rw [binary32.magnitude_of_lt hlt]
      exact denotes_mul_two_pow _ _ (Nat.lt_trans hlt (by decide)) (by omega)
    · have hdoublings : doublings + 1 < 255 := by
        refine Nat.lt_of_mul_lt_mul_right (a := binary32.fractionSize) ?_
        exact Nat.lt_of_le_of_lt (Nat.le_add_right _ _) hfinite
      have hm : binary32.fractionSize + fraction < 2 ^ 53 :=
        Nat.lt_trans (Nat.add_lt_add_left hfraction _) (by decide)
      have hbits' : 2 ^ doublings * Nat.pow 2 bits = Nat.pow 2 (doublings + bits) :=
        (Nat.pow_add 2 doublings bits).symm
      rw [binary32.magnitude_add doublings hfraction, Nat.mul_assoc, hbits']
      exact denotes_mul_two_pow _ _ hm (by omega)
  · rw [h]
    exact ⟨_, binary64.decode_encode_infinite negative⟩
  · rw [h]
    exact ⟨_, binary64.decode_encode_nan (by decide)⟩

end Crosswalk
