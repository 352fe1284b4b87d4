import Crosswalk.Number

/-!
# Binary floating-point words

A binary format has a fraction field and an exponent field. Without its sign bit, a word is a
natural number, and larger words denote larger magnitudes: the word read as a number *is* the
position of the magnitude among all magnitudes of the format. Two consequences are used throughout.
Rounding up past the last fraction carries into the exponent by ordinary addition, and the
neighbours of a number are the words next to its own.

`BinaryFormat.nearestWord` rounds an exact magnitude to the nearest one of the format, a half going
to the even word. `BinaryFormat.decode` and `BinaryFormat.encode` relate whole words, sign included,
to exact numbers. Rounding and then comparing decides whether a number is one of the format
(`Value.coerce?` does that), so there is no second notion of being representable.
-/

namespace Crosswalk

/-- The widths of the fraction and exponent fields of a binary interchange format. -/
structure BinaryFormat where
  fractionBits : Nat
  exponentBits : Nat
deriving DecidableEq

/-- Single precision. -/
def binary32 : BinaryFormat := ⟨23, 8⟩

/-- Double precision. -/
def binary64 : BinaryFormat := ⟨52, 11⟩

/-- `x / d` rounded to the nearest natural number, a half to the even one. -/
def roundHalfEven (x d : Nat) : Nat :=
  let q := x / d
  let r := x % d
  if 2 * r < d ∨ (2 * r = d ∧ q % 2 = 0) then q else q + 1

namespace BinaryFormat

variable (f : BinaryFormat)

/-- The number of fractions, which is the weight of the lowest exponent bit. -/
def fractionSize : Nat := Nat.pow 2 f.fractionBits

/-- The offset of the exponent field. -/
def bias : Nat := Nat.pow 2 (f.exponentBits - 1) - 1

/-- The least positive magnitude of the format, in quanta. -/
def step : Nat := Nat.pow 2 (Number.quantumBits + 1 - f.bias - f.fractionBits)

/-- The word of infinity. Every larger unsigned word is a `nan`. -/
def infinityWord : Nat := (Nat.pow 2 f.exponentBits - 1) * f.fractionSize

/-- The weight of the sign bit. -/
def signWord : Nat := Nat.pow 2 (f.exponentBits + f.fractionBits)

/-- The magnitude of an unsigned word, in steps of the format. An exponent field of zero means that
there is no hidden leading bit. -/
def magnitude (word : Nat) : Nat :=
  let exponent := word / f.fractionSize
  let fraction := word % f.fractionSize
  if exponent = 0 then fraction
  else (f.fractionSize + fraction) * Nat.pow 2 (exponent - 1)

/-- The unsigned word nearest to a magnitude given in quanta, infinity when the magnitude lies
beyond the largest finite one by half a step or more. `drop` is the number of low bits that do not
fit beside the leading one. -/
def nearestWord (quanta : Nat) : Nat :=
  let drop := Nat.log2 (quanta / f.step) - f.fractionBits
  let word := drop * f.fractionSize + roundHalfEven quanta (f.step * Nat.pow 2 drop)
  min word f.infinityWord

/-- What a word denotes. -/
def decode (word : Nat) : Number :=
  let negative := decide (word / f.signWord % 2 = 1)
  let unsigned := word % f.signWord
  if unsigned < f.infinityWord then .finite negative (f.magnitude unsigned * f.step)
  else if unsigned = f.infinityWord then .infinite negative
  else .nan

/-- The word nearest to a number. There is one word for `nan`, the quiet one without a payload. -/
def encode : Number → Nat
  | .nan => f.infinityWord + Nat.pow 2 (f.fractionBits - 1)
  | .infinite negative => (if negative then f.signWord else 0) + f.infinityWord
  | .finite negative quanta => (if negative then f.signWord else 0) + f.nearestWord quanta

end BinaryFormat

/-- A single-precision number, as its word. -/
structure Binary32 where
  bits : UInt32
deriving DecidableEq

/-- A double-precision number, as its word. -/
structure Binary64 where
  bits : UInt64
deriving DecidableEq

namespace Binary32

/-- The exact number. -/
def number (x : Binary32) : Number := binary32.decode x.bits.toNat

/-- The nearest single-precision number. Payloads are not followed: every `nan` becomes the one word
that `encode` has for it. -/
def ofNumber (n : Number) : Binary32 := ⟨UInt32.ofNat (binary32.encode n)⟩

def zero : Binary32 := ⟨0⟩

/-- Equal words or equal numbers, so that a `nan` is the same as itself and both zeros are the
same. -/
def same (a b : Binary32) : Bool :=
  a.bits == b.bits || a.number.numericallyEqual b.number

end Binary32

namespace Binary64

/-- The exact number. -/
def number (x : Binary64) : Number := binary64.decode x.bits.toNat

/-- The nearest double-precision number. Payloads are not followed: every `nan` becomes the one word
that `encode` has for it. -/
def ofNumber (n : Number) : Binary64 := ⟨UInt64.ofNat (binary64.encode n)⟩

def zero : Binary64 := ⟨0⟩

/-- Equal words or equal numbers, so that a `nan` is the same as itself and both zeros are the
same. -/
def same (a b : Binary64) : Bool :=
  a.bits == b.bits || a.number.numericallyEqual b.number

end Binary64

end Crosswalk
