/-!
# Floating-point words

A coordinate, speed or sensor component is a binary floating-point number of 64 bits. It is
held as its word, so that equality is equality of bits: the two zeros differ, and a
not-a-number keeps its payload. Arithmetic is exact arithmetic on natural numbers followed by
one rounding to the nearest word, ties to the even one.

## Main definitions

* `Double` — a word of 64 bits
* `Double.significand`, `Double.scale` — a finite word stands for
  `significand * 2 ^ scale / 2 ^ 1074`
* `Double.kept`, `Double.StoredAs` — what a database column makes of a word
* `Double.ofRatio` — the word nearest to a quotient of natural numbers
* `Double.mul`, `Double.div` — exact product and quotient, rounded once
* `Double.centi` — hundredths, rounded half away from zero to 32 bits
-/

namespace TripRecorder

/-- A binary floating-point number of 64 bits, given by its word. -/
structure Double where
  /-- Sign bit, eleven exponent bits, fifty-two fraction bits. -/
  bits : UInt64
deriving DecidableEq, Repr, Inhabited

namespace Double

/-- The value of the sign bit within a word. -/
def signBound : Nat := 0x8000000000000000

/-- The word without its sign bit. Words of one sign are ordered as these numbers are. -/
def payload (x : Double) : Nat := x.bits.toNat % signBound

/-- The sign bit. -/
def negative (x : Double) : Bool := decide (signBound ≤ x.bits.toNat)

/-- Fractions are below this bound, which is the value of the lowest exponent bit. -/
def fractionBound : Nat := 0x10000000000000

/-- The payload of the infinities: greater payloads are not numbers. -/
def infinityPayload : Nat := 2047 * fractionBound

/-- The word with the given sign and payload. -/
def ofPayload (negative : Bool) (payload : Nat) : Double :=
  ⟨UInt64.ofNat (payload + if negative then signBound else 0)⟩

/-- Positive zero. -/
def zero : Double := ⟨0⟩

/-- Not a number. -/
def isNaN (x : Double) : Bool := decide (infinityPayload < x.payload)

/-- Neither infinite nor not-a-number. -/
def isFinite (x : Double) : Bool := decide (x.payload < infinityPayload)

/-- One of the two zeros. -/
def isZero (x : Double) : Bool := decide (x.payload = 0)

/-- The value as a database column keeps it: negative zero becomes positive zero. -/
def kept (x : Double) : Double := if x.isZero then zero else x

/-- In a column negative zero is the only word that changes. -/
theorem bits_kept (x : Double) :
    x.kept.bits = if x.bits = 0x8000000000000000 then 0 else x.bits := by
  have hlt : x.bits.toNat < 2 * signBound := x.bits.toNat_lt
  have hnegative : x.bits = 0x8000000000000000 ↔ x.bits.toNat = signBound := UInt64.toNat_inj.symm
  have hpositive : x.bits = 0 ↔ x.bits.toNat = 0 := UInt64.toNat_inj.symm
  unfold kept
  cases hzero : x.isZero with
  | true =>
    have hpayload : x.bits.toNat % signBound = 0 := of_decide_eq_true hzero
    rw [if_pos rfl]
    split
    · rfl
    · -- Of the two zeros only the positive one is left.
      rename_i hsign
      rw [hnegative] at hsign
      refine (hpositive.mpr ?_).symm
      unfold signBound at *
      omega
  | false =>
    have hpayload : ¬ x.bits.toNat % signBound = 0 := of_decide_eq_false hzero
    have hsign : ¬ x.bits = 0x8000000000000000 := by
      rw [hnegative]
      intro heq
      rw [heq, Nat.mod_self] at hpayload
      exact hpayload rfl
    rw [if_neg hsign, if_neg Bool.false_ne_true]

/-- A word is stored as another one: the same, unless a zero has lost its sign. -/
def StoredAs (x y : Double) : Prop :=
  y.bits = x.bits ∨ x.bits = 0x8000000000000000 ∧ y.bits = 0

theorem storedAs_kept (x : Double) : x.StoredAs x.kept := by
  rw [StoredAs, bits_kept]
  split
  · rename_i hsign
    exact .inr ⟨hsign, rfl⟩
  · exact .inl rfl

/-- The other sign. -/
def neg (x : Double) : Double := ofPayload (!x.negative) x.payload

/-! ### Value of a finite word -/

/-- The integer significand of a finite word. -/
def significand (x : Double) : Nat :=
  if x.payload < fractionBound then x.payload
  else x.payload % fractionBound + fractionBound

/-- A finite word stands for `significand * 2 ^ scale / 2 ^ 1074`. -/
def scale (x : Double) : Nat := x.payload / fractionBound - 1

/-- The numerator of the magnitude of a finite word over `2 ^ 1074`. -/
def numerator (x : Double) : Nat := x.significand <<< x.scale

/-- The common denominator of all finite words. -/
def denominator : Nat := 1 <<< 1074

/-! ### Rounding -/

/-- The natural number nearest to `n / d`, a tie going to the even neighbour. -/
def divToEven (n d : Nat) : Nat :=
  let q := n / d
  let r := n % d
  if 2 * r < d then q else if d < 2 * r then q + 1 else q + q % 2

/-- The payload nearest to `n / d`: fifty-three significant bits where the quotient is large
enough, the spacing of the smallest words below, and infinity above the largest word. -/
def payloadOfRatio (n d : Nat) : Nat :=
  let scaled := n * denominator
  let scale := (scaled / d).log2 - 52
  min (scale * fractionBound + divToEven scaled (d <<< scale)) infinityPayload

/-- The word nearest to `n / d` with the given sign. -/
def ofRatio (negative : Bool) (n d : Nat) : Double := ofPayload negative (payloadOfRatio n d)

/-- The word nearest to a natural number. -/
def ofNat (n : Nat) : Double := ofRatio false n 1

/-- The word nearest to an integer. -/
def ofInt (i : Int) : Double := ofRatio (decide (i < 0)) i.natAbs 1

/-- The product of two finite words, rounded once. -/
def mul (x y : Double) : Double :=
  ofRatio (x.negative != y.negative) (x.numerator * y.numerator) (denominator * denominator)

/-- The quotient of two finite words, the divisor not zero, rounded once. -/
def div (x y : Double) : Double :=
  ofRatio (x.negative != y.negative) x.numerator y.numerator

/-! ### Hundredths -/

/-- The smallest and the largest integer of 32 bits bound the value. -/
def clampInt32 (i : Int) : Int := max (-2147483648) (min i 2147483647)

/-- The integer nearest to a finite word, a half going away from zero. -/
def roundAway (x : Double) : Int :=
  let magnitude : Nat := (2 * x.numerator + denominator) / (2 * denominator)
  if x.negative then -(magnitude : Int) else magnitude

/-- The value in hundredths as an integer of 32 bits: the product with one hundred is rounded to
a word and then half away from zero, values beyond the range stop at its ends, and
not-a-number gives zero. -/
def centi (x : Double) : Int :=
  if x.isNaN then 0
  else if x.isFinite then
    let product := x.mul (ofNat 100)
    if product.isFinite then clampInt32 product.roundAway
    else if x.negative then -2147483648 else 2147483647
  else if x.negative then -2147483648 else 2147483647

/-! ### Exchange with machine arithmetic -/

/-- The machine number of a word, for trigonometric functions. -/
def toFloat (x : Double) : Float := Float.ofBits x.bits

/-- The word of a machine number. -/
def ofFloat (f : Float) : Double := ⟨f.toBits⟩

end Double

end TripRecorder
