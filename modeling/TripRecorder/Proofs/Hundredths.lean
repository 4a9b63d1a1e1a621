import Mathlib.Algebra.Order.Field.Basic
import Mathlib.Data.Rat.Cast.Order
import Mathlib.Tactic.Linarith
import TripRecorder.Proofs.Rounding

/-!
# Hundredths

A word is multiplied by one hundred, the product is rounded to a word, and this one is rounded to an
integer. Two roundings are one more than the nearest integer would need, so the result may differ
from the exact value by half of one and by a small part of the value.

## Main definitions

* `Double.value` — the value of a finite word
* `Double.InHundredths` — an integer of 32 bits is the value of a word in hundredths

## Main results

* `Double.numerator_ofRatio` — the value of the word that a quotient is rounded to
* `Double.numerator_ofRatio_near` — it differs from the quotient by one part in `2 ^ 53` at most
* `Double.inHundredths_centi` — hundredths are what they are meant to be
-/

namespace TripRecorder

namespace Double

variable {x : Double} {n d : Nat}

/-- The value of a finite word. -/
def value (x : Double) : ℚ :=
  if x.negative then -(x.numerator / denominator) else x.numerator / denominator

/-- An integer of 32 bits is the value of a word in hundredths: it is nearest to a number that is
off by one part in `2 ^ 53` at most. Values beyond the range stop at its ends, and what is not a
number counts as zero. -/
structure InHundredths (x : Double) (hundredths : Int) : Prop where
  finite : x.isFinite = true → ∃ nearest : Int,
    |(nearest : ℚ) - 100 * x.value| ≤ 1 / 2 + |100 * x.value| / 9007199254740992 ∧
    hundredths = max (-2147483648) (min nearest 2147483647)
  infinite : x.isFinite = false → x.isNaN = false →
    hundredths = if x.negative then -2147483648 else 2147483647
  nan : x.isNaN = true → hundredths = 0

/-! ### Words near a quotient -/

/-- A quotient is rounded by a half at most. -/
theorem divToEven_near (n : Nat) (hd : 0 < d) :
    2 * (divToEven n d * d) ≤ 2 * n + d ∧ 2 * n ≤ 2 * (divToEven n d * d) + d := by
  have hmod : n / d * d + n % d = n := Nat.div_add_mod' n d
  have hlt : n % d < d := Nat.mod_lt n hd
  have hup : (n / d + 1) * d = n / d * d + d := Nat.succ_mul ..
  unfold divToEven
  simp only
  split_ifs
  · omega
  · rw [hup]
    omega
  · -- In the middle either neighbour is as near.
    rcases Nat.mod_two_eq_zero_or_one (n / d) with heven | hodd
    · rw [heven, Nat.add_zero]
      omega
    · rw [hodd, hup]
      omega

/-- A quotient is rounded to a whole number of steps of its scale. -/
theorem numerator_ofRatio {negative : Bool} (hd : 0 < d)
    (hfinite : (ofRatio negative n d).isFinite = true) :
    (ofRatio negative n d).numerator =
      divToEven (n * denominator) (d <<< scaleOf n d) * 2 ^ scaleOf n d := by
  have hpayload : (ofRatio negative n d).payload = scaleOf n d * fractionBound +
      divToEven (n * denominator) (d <<< scaleOf n d) := by
    have hlt := isFinite_ofRatio_iff.mp hfinite
    rw [payload_ofRatio]
    rw [payloadOfRatio_eq] at hlt ⊢
    omega
  have hhigh := divToEven_scaleOf_le n hd
  have hlow := le_divToEven_scaleOf (n := n) hd
  rw [numerator_eq]
  generalize ofRatio negative n d = y at hpayload
  generalize divToEven (n * denominator) (d <<< scaleOf n d) = q at *
  generalize scaleOf n d = s at *
  -- A significand with one bit more has a word of the next scale.
  have hword : (y.scale = s ∧ y.significand = q) ∨
      (y.scale = s + 1 ∧ y.significand = fractionBound ∧ q = 2 * fractionBound) := by
    rcases y.payload_eq with ⟨hsmall, hsignificand, hscale⟩ | ⟨hnormal, hbound, hy⟩ <;>
      unfold fractionBound at * <;> omega
  rcases hword with ⟨hscale, hsignificand⟩ | ⟨hscale, hsignificand, hq⟩
  · rw [hscale, hsignificand]
  · rw [hscale, hsignificand, hq, Nat.pow_succ]
    ring

/-- A quotient over the common denominator is kept but for one part in `2 ^ 53`. -/
theorem numerator_ofRatio_near {negative : Bool}
    (hfinite : (ofRatio negative n denominator).isFinite = true) :
    9007199254740992 * (ofRatio negative n denominator).numerator ≤ 9007199254740992 * n + n ∧
      9007199254740992 * n ≤
        9007199254740992 * (ofRatio negative n denominator).numerator + n := by
  have hdivide : divToEven (n * denominator) (denominator <<< scaleOf n denominator) =
      divToEven n (2 ^ scaleOf n denominator) := by
    rw [Nat.shiftLeft_eq, Nat.mul_comm denominator, divToEven_mul_right _ _ denominator_pos]
  have hnear := divToEven_near n (Nat.two_pow_pos (scaleOf n denominator))
  rw [numerator_ofRatio denominator_pos hfinite, hdivide]
  rcases Nat.eq_zero_or_pos (scaleOf n denominator) with hscale | hscale
  · -- Without a scale nothing is rounded.
    rw [hscale, Nat.pow_zero, Nat.mul_one, ← Nat.mul_one n, divToEven_mul_self _ Nat.one_pos]
    omega
  · -- A step of the scale is less than the lowest of fifty-three bits.
    have hstep : 4503599627370496 * 2 ^ scaleOf n denominator ≤ n := by
      have hlog : n.log2 = 52 + scaleOf n denominator := by
        unfold scaleOf at hscale ⊢
        rw [Nat.mul_div_cancel _ denominator_pos] at hscale ⊢
        omega
      have hne : n ≠ 0 := by
        rintro rfl
        rw [Nat.log2_zero] at hlog
        omega
      have hbits := Nat.log2_self_le hne
      rwa [hlog, Nat.pow_add] at hbits
    omega

/-! ### Products with one hundred -/

theorem mul_hundred (x : Double) : x.mul (ofNat 100) =
    ofRatio x.negative (100 * x.numerator) denominator := by
  obtain ⟨hstands, hpositive⟩ := stands_ofNat (m := 100) (j := 0) (by decide) (by decide)
  have hhundred : (ofNat 100).numerator = 100 * denominator := by
    have hvalue := hstands.value
    rwa [Nat.shiftLeft_zero, Nat.mul_one] at hvalue
  have hnegative : (x.negative != (ofNat 100).negative) = x.negative := by
    rw [Nat.shiftLeft_zero] at hpositive
    rw [hpositive, Bool.bne_false]
  rw [mul, hnegative, hhundred, ofRatio, ofRatio, ← Nat.mul_assoc,
    payloadOfRatio_mul_right _ _ denominator_pos, Nat.mul_comm 100]

/-- A product that is not finite is far beyond the range. -/
theorem le_of_not_isFinite {negative : Bool}
    (h : (ofRatio negative n denominator).isFinite = false) :
    9007199254740992 * denominator ≤ n := by
  by_contra hlt
  have hbound : (ofNat (1 <<< 53)).isFinite = true :=
    (stands_ofNat (m := 1) (j := 53) (by decide) (by decide)).1.isFinite
  have hle : payloadOfRatio n denominator ≤ payloadOfRatio (1 <<< 53) 1 := by
    refine payloadOfRatio_mono denominator_pos Nat.one_pos ?_
    rw [Nat.mul_one]
    exact Nat.le_of_not_le hlt
  rw [Bool.eq_false_iff, Ne, isFinite_ofRatio_iff] at h
  exact h (hle.trans_lt (isFinite_ofRatio_iff.mp hbound))

/-! ### Distances of values -/

/-- A distance of magnitudes is a distance of values. -/
theorem abs_signed_sub (negative : Bool) (a b : ℚ) :
    |(if negative then -a else a) - (if negative then -b else b)| = |a - b| := by
  cases negative
  · rfl
  · rw [if_pos rfl, if_pos rfl, neg_sub_neg, abs_sub_comm]

theorem cast_signed (negative : Bool) (k : Nat) :
    ((if negative then -(k : Int) else k : Int) : ℚ) = if negative then -(k : ℚ) else k := by
  cases negative
  · rfl
  · rw [if_pos rfl, if_pos rfl, Int.cast_neg, Int.cast_natCast]

theorem abs_sub_div_le {k n d : Nat} {bound : ℚ} (hd : 0 < d) (hlow : (n : ℚ) ≤ k * d + bound * d)
    (hhigh : (k * d : ℚ) ≤ n + bound * d) : |(k : ℚ) - n / d| ≤ bound := by
  have hpos : (0 : ℚ) < d := Nat.cast_pos.mpr hd
  have hquotient : (k : ℚ) - n / d = (k * d - n) / d := by
    rw [sub_div, mul_div_cancel_right₀ _ hpos.ne']
  rw [hquotient, abs_div, abs_of_pos hpos, div_le_iff₀ hpos, abs_le]
  constructor <;> linarith

/-- A word is rounded to an integer by a half at most. -/
theorem roundAway_near (x : Double) : |(x.roundAway : ℚ) - x.value| ≤ 1 / 2 := by
  have hpos := denominator_pos
  have hdivide := Nat.div_add_mod' (2 * x.numerator + denominator) (2 * denominator)
  have hmod := Nat.mod_lt (2 * x.numerator + denominator) (Nat.mul_pos Nat.two_pos hpos)
  rw [roundAway, value]
  generalize (2 * x.numerator + denominator) / (2 * denominator) = k at hdivide ⊢
  generalize (2 * x.numerator + denominator) % (2 * denominator) = r at hdivide hmod
  have hk : 2 * (k * denominator) + r = 2 * x.numerator + denominator := by
    rw [← hdivide]
    ring
  rw [cast_signed, abs_signed_sub]
  refine abs_sub_div_le hpos ?_ ?_
  · have hlow : 2 * x.numerator ≤ 2 * (k * denominator) + denominator := by omega
    have hlow' : (2 * x.numerator : ℚ) ≤ 2 * (k * denominator) + denominator := by
      exact_mod_cast hlow
    linarith
  · have hhigh : 2 * (k * denominator) ≤ 2 * x.numerator + denominator := by omega
    have hhigh' : (2 * (k * denominator) : ℚ) ≤ 2 * x.numerator + denominator := by
      exact_mod_cast hhigh
    linarith

/-! ### Hundredths -/

theorem hundred_mul_value (x : Double) : 100 * x.value =
    if x.negative then -((100 * x.numerator : Nat) / denominator : ℚ)
    else (100 * x.numerator : Nat) / denominator := by
  rw [value]
  split <;> push_cast <;> ring

theorem abs_hundred_mul_value (x : Double) :
    |100 * x.value| = (100 * x.numerator : Nat) / denominator := by
  have hnonneg : (0 : ℚ) ≤ (100 * x.numerator : Nat) / denominator :=
    div_nonneg (Nat.cast_nonneg _) (Nat.cast_nonneg _)
  rw [hundred_mul_value]
  split
  · rw [abs_neg, abs_of_nonneg hnonneg]
  · exact abs_of_nonneg hnonneg

/-- A product with one hundred is rounded by one part in `2 ^ 53` at most. -/
theorem mul_hundred_near (hfinite : (x.mul (ofNat 100)).isFinite = true) :
    |(x.mul (ofNat 100)).value - 100 * x.value| ≤ |100 * x.value| / 9007199254740992 := by
  have hpos : (0 : ℚ) < denominator := Nat.cast_pos.mpr denominator_pos
  rw [mul_hundred] at hfinite ⊢
  have hnegative : (ofRatio x.negative (100 * x.numerator) denominator).negative = x.negative :=
    negative_ofPayload _ ((payloadOfRatio_le _ _).trans_lt (by decide))
  obtain ⟨hhigh, hlow⟩ := numerator_ofRatio_near hfinite
  rw [abs_hundred_mul_value, hundred_mul_value, value, hnegative, abs_signed_sub]
  generalize (ofRatio x.negative (100 * x.numerator) denominator).numerator = m at hhigh hlow
  generalize 100 * x.numerator = n at hhigh hlow
  have hhigh' : (9007199254740992 * m : ℚ) ≤ 9007199254740992 * n + n := by exact_mod_cast hhigh
  have hlow' : (9007199254740992 * n : ℚ) ≤ 9007199254740992 * m + n := by exact_mod_cast hlow
  rw [← sub_div, abs_div, abs_of_pos hpos, div_right_comm]
  refine div_le_div_of_nonneg_right ?_ hpos.le
  rw [abs_le]
  constructor <;> linarith

/-- Beyond the range the whole part is near enough, and stops at an end. -/
theorem exists_near_of_large (negative : Bool) (hd : 0 < d) (hlarge : 9007199254740992 * d ≤ n) :
    ∃ nearest : Int,
      |(nearest : ℚ) - if negative then -(n / d : ℚ) else n / d| ≤
        1 / 2 + n / d / 9007199254740992 ∧
      max (-2147483648) (min nearest 2147483647) =
        if negative then -2147483648 else 2147483647 := by
  have hdivide := Nat.div_add_mod' n d
  have hmod := Nat.mod_lt n hd
  refine ⟨if negative then -((n / d : Nat) : Int) else (n / d : Nat), ?_, ?_⟩
  · have hlow : (n : ℚ) ≤ (n / d : Nat) * d + 1 * d := by
      exact_mod_cast (by omega : n ≤ n / d * d + 1 * d)
    have hhigh : ((n / d : Nat) * d : ℚ) ≤ n + 1 * d := by
      exact_mod_cast (by omega : n / d * d ≤ n + 1 * d)
    have hvalue : (9007199254740992 : ℚ) ≤ n / d :=
      (le_div_iff₀ (Nat.cast_pos.mpr hd)).mpr (by exact_mod_cast hlarge)
    rw [cast_signed, abs_signed_sub]
    refine (abs_sub_div_le hd hlow hhigh).trans ?_
    linarith
  · have hbound := (Nat.le_div_iff_mul_le hd).mpr hlarge
    generalize n / d = k at hbound
    cases negative
    · rw [if_neg Bool.false_ne_true, if_neg Bool.false_ne_true]
      omega
    · rw [if_pos rfl, if_pos rfl]
      omega

/-- Within the range a product is rounded once more, and beyond it every neighbour will do. -/
theorem finite_centi (hfinite : x.isFinite = true) : ∃ nearest : Int,
    |(nearest : ℚ) - 100 * x.value| ≤ 1 / 2 + |100 * x.value| / 9007199254740992 ∧
    x.centi = max (-2147483648) (min nearest 2147483647) := by
  have hnan : x.isNaN = false := decide_eq_false (Nat.lt_asymm (of_decide_eq_true hfinite))
  have hcenti : x.centi =
      if (x.mul (ofNat 100)).isFinite then clampInt32 (x.mul (ofNat 100)).roundAway
      else if x.negative then -2147483648 else 2147483647 := by
    rw [centi, hnan, hfinite, if_neg Bool.false_ne_true, if_pos rfl]
  rw [hcenti]
  cases hproduct : (x.mul (ofNat 100)).isFinite with
  | true =>
    have hrounded := roundAway_near (x.mul (ofNat 100))
    have hnear := mul_hundred_near hproduct
    refine ⟨_, (abs_sub_le _ _ _).trans (add_le_add hrounded hnear), ?_⟩
    rw [if_pos rfl, clampInt32]
  | false =>
    rw [mul_hundred] at hproduct
    obtain ⟨nearest, hnear, hend⟩ :=
      exists_near_of_large x.negative denominator_pos (le_of_not_isFinite hproduct)
    rw [abs_hundred_mul_value, hundred_mul_value]
    exact ⟨nearest, hnear, by rw [if_neg Bool.false_ne_true, hend]⟩

/-- Hundredths are the value of a word, but for what the two roundings allow. -/
theorem inHundredths_centi (x : Double) : x.InHundredths x.centi where
  finite := finite_centi
  infinite hfinite hnan := by
    rw [centi, hnan, hfinite]
    rfl
  nan hnan := by
    rw [centi, hnan]
    rfl

end Double

end TripRecorder
