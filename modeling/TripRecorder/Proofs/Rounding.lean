import Mathlib.Data.Nat.Log
import TripRecorder.Proofs.Decimal

/-!
# Rounding keeps the order

A greater quotient is never rounded to a smaller word, whichever denominators the quotients have.
So a bound on a quotient is a bound on its word, and sums of rounded steps are compared by the exact
values that they stand for.

## Main results

* `Double.payloadOfRatio_mono` — a greater quotient has no smaller payload
* `Double.numerator_mono` — words of one sign are ordered as their payloads are
* `Double.isFinite_div` — a quotient by one or more is finite
-/

namespace TripRecorder

namespace Double

variable {x y : Double} {n n' d d' : Nat}

/-! ### Rounding to a natural number -/

theorem div_le_divToEven (n d : Nat) : n / d ≤ divToEven n d := by
  unfold divToEven
  simp only
  split_ifs <;> omega

theorem divToEven_le (n d : Nat) : divToEven n d ≤ n / d + 1 := by
  unfold divToEven
  simp only
  split_ifs <;> omega

theorem divToEven_mono (d : Nat) (h : n ≤ n') : divToEven n d ≤ divToEven n' d := by
  rcases Nat.eq_or_lt_of_le (Nat.div_le_div_right (c := d) h) with heq | hlt
  · -- With one whole part, the remainders are ordered as the numbers are.
    have hmod : n % d ≤ n' % d := by
      have hn := Nat.div_add_mod n d
      have hn' := Nat.div_add_mod n' d
      rw [heq] at hn
      omega
    unfold divToEven
    simp only [heq]
    split_ifs <;> omega
  · exact (divToEven_le n d).trans ((Nat.succ_le_of_lt hlt).trans (div_le_divToEven n' d))

/-! ### Rounding to a word -/

/-- The scale of the word that a quotient is rounded to. -/
def scaleOf (n d : Nat) : Nat := (n * denominator / d).log2 - 52

theorem payloadOfRatio_eq (n d : Nat) : payloadOfRatio n d =
    min (scaleOf n d * fractionBound + divToEven (n * denominator) (d <<< scaleOf n d))
      infinityPayload := rfl

theorem payloadOfRatio_le (n d : Nat) : payloadOfRatio n d ≤ infinityPayload := Nat.min_le_right ..

theorem scaleOf_mono (d : Nat) (h : n ≤ n') : scaleOf n d ≤ scaleOf n' d := by
  have hdiv : n * denominator / d ≤ n' * denominator / d :=
    Nat.div_le_div_right (Nat.mul_le_mul_right _ h)
  unfold scaleOf
  rw [Nat.log2_eq_log_two, Nat.log2_eq_log_two]
  exact Nat.sub_le_sub_right (Nat.log_mono_right hdiv) 52

theorem shiftLeft_pos (hd : 0 < d) (bits : Nat) : 0 < d <<< bits := by
  rw [Nat.shiftLeft_eq]
  exact Nat.mul_pos hd (Nat.two_pow_pos _)

/-- Fifty-three bits are kept at most. -/
theorem divToEven_scaleOf_le (n : Nat) (hd : 0 < d) :
    divToEven (n * denominator) (d <<< scaleOf n d) ≤ 2 * fractionBound := by
  have hbits : n * denominator / d < 2 ^ (53 + scaleOf n d) := by
    refine Nat.lt_log2_self.trans_le (Nat.pow_le_pow_right (by decide) ?_)
    unfold scaleOf
    omega
  have hle : n * denominator ≤ 2 * fractionBound * (d <<< scaleOf n d) := by
    have hlt := (Nat.div_lt_iff_lt_mul hd).mp hbits
    rw [Nat.pow_add, Nat.mul_assoc, Nat.mul_comm (2 ^ scaleOf n d), ← Nat.shiftLeft_eq] at hlt
    exact hlt.le
  exact (divToEven_mono _ hle).trans (divToEven_mul_self _ (shiftLeft_pos hd _)).le

/-- Fifty-three bits are kept at least where the scale is not the lowest. -/
theorem le_divToEven_scaleOf (hd : 0 < d) (hscale : 0 < scaleOf n d) :
    fractionBound ≤ divToEven (n * denominator) (d <<< scaleOf n d) := by
  have hlog : (n * denominator / d).log2 = 52 + scaleOf n d := by
    unfold scaleOf at hscale ⊢
    omega
  have hne : n * denominator / d ≠ 0 := by
    intro hzero
    rw [hzero, Nat.log2_zero] at hlog
    omega
  have hbits := Nat.log2_self_le hne
  rw [hlog, Nat.le_div_iff_mul_le hd, Nat.pow_add, Nat.mul_assoc, Nat.mul_comm (2 ^ scaleOf n d),
    ← Nat.shiftLeft_eq] at hbits
  exact (divToEven_mul_self _ (shiftLeft_pos hd _)).symm.le.trans (divToEven_mono _ hbits)

theorem payloadOfRatio_mono_left (hd : 0 < d) (h : n ≤ n') :
    payloadOfRatio n d ≤ payloadOfRatio n' d := by
  rw [payloadOfRatio_eq, payloadOfRatio_eq]
  refine min_le_min_right _ ?_
  rcases Nat.eq_or_lt_of_le (scaleOf_mono d h) with heq | hlt
  · rw [heq]
    exact Nat.add_le_add_left (divToEven_mono _ (Nat.mul_le_mul_right _ h)) _
  · -- Between two scales the lower word is at most the least one of the higher scale.
    have hlow := divToEven_scaleOf_le n hd
    have hhigh := le_divToEven_scaleOf hd (Nat.zero_lt_of_lt hlt)
    have hscale := Nat.mul_le_mul_right fractionBound hlt
    rw [Nat.succ_mul] at hscale
    omega

/-- A greater quotient has no smaller payload. -/
theorem payloadOfRatio_mono (hd : 0 < d) (hd' : 0 < d') (h : n * d' ≤ n' * d) :
    payloadOfRatio n d ≤ payloadOfRatio n' d' := by
  -- Over one denominator the greater quotient has the greater numerator.
  rw [← payloadOfRatio_mul_right n d hd', ← payloadOfRatio_mul_right n' d' hd, Nat.mul_comm d' d]
  exact payloadOfRatio_mono_left (Nat.mul_pos hd hd') h

/-! ### Words -/

theorem payload_ofRatio (negative : Bool) (n d : Nat) :
    (ofRatio negative n d).payload = payloadOfRatio n d :=
  payload_ofPayload negative (Nat.lt_of_le_of_lt (payloadOfRatio_le n d) (by decide))

theorem isFinite_ofRatio_iff {negative : Bool} :
    (ofRatio negative n d).isFinite = true ↔ payloadOfRatio n d < infinityPayload := by
  rw [isFinite, decide_eq_true_eq, payload_ofRatio]

theorem payload_neg (x : Double) : x.neg.payload = x.payload :=
  payload_ofPayload _ x.payload_lt_signBound

/-- A word with a greater payload has a greater magnitude. -/
theorem numerator_mono (h : x.payload ≤ y.payload) : x.numerator ≤ y.numerator := by
  have hscale : x.scale ≤ y.scale := Nat.sub_le_sub_right (Nat.div_le_div_right h) 1
  rw [numerator_eq, numerator_eq]
  rcases Nat.eq_or_lt_of_le hscale with heq | hlt
  · rw [heq]
    refine Nat.mul_le_mul_right _ ?_
    rcases x.payload_eq with ⟨hx, hsx, hx0⟩ | ⟨hlow, hhigh, hpx⟩ <;>
      rcases y.payload_eq with ⟨hy, hsy, hy0⟩ | ⟨hlow', hhigh', hpy⟩
    · omega
    · omega
    · omega
    · rw [heq] at hpx
      omega
  · -- A higher scale makes up for any significand.
    have hx : x.significand ≤ 2 * fractionBound := by
      rcases x.payload_eq with ⟨hx, hsx, -⟩ | ⟨-, hhigh, -⟩ <;> omega
    have hy : fractionBound ≤ y.significand := by
      rcases y.payload_eq with ⟨-, -, hzero⟩ | ⟨hlow, -, -⟩ <;> omega
    calc x.significand * 2 ^ x.scale
        ≤ 2 * fractionBound * 2 ^ x.scale := Nat.mul_le_mul_right _ hx
      _ = fractionBound * 2 ^ (x.scale + 1) := by rw [Nat.pow_succ]; ring
      _ ≤ fractionBound * 2 ^ y.scale :=
          Nat.mul_le_mul_left _ (Nat.pow_le_pow_right (by decide) hlt)
      _ ≤ y.significand * 2 ^ y.scale := Nat.mul_le_mul_right _ hy

/-- The word of a greater natural number is not smaller. -/
theorem numerator_ofNat_mono (h : n ≤ n') : (ofNat n).numerator ≤ (ofNat n').numerator := by
  refine numerator_mono ?_
  rw [ofNat, ofNat, payload_ofRatio, payload_ofRatio]
  exact payloadOfRatio_mono_left Nat.one_pos h

theorem numerator_one : (ofNat 1).numerator = denominator := by
  have hstands := (stands_ofNat (m := 1) (j := 0) (by decide) (by decide)).1.value
  rwa [Nat.shiftLeft_zero, Nat.mul_one, Nat.one_mul] at hstands

theorem denominator_le_numerator (h : 1 ≤ n) : denominator ≤ (ofNat n).numerator :=
  numerator_one ▸ numerator_ofNat_mono h

/-- The quotient of a finite word by one or more is finite. -/
theorem isFinite_div (hx : x.isFinite = true) (hy : denominator ≤ y.numerator) :
    (x.div y).isFinite = true := by
  have hpos := denominator_pos
  rw [div, isFinite_ofRatio_iff]
  calc payloadOfRatio x.numerator y.numerator
      ≤ payloadOfRatio x.numerator denominator :=
        payloadOfRatio_mono (hpos.trans_le hy) hpos (Nat.mul_le_mul_left _ hy)
    _ = x.payload := payloadOfRatio_numerator hx
    _ < infinityPayload := of_decide_eq_true hx

end Double

namespace Decimal

variable {c c' : Nat} {e e' : Int}

theorem nearest_mono (h : c ≤ c') : nearest ⟨c, e⟩ ≤ nearest ⟨c', e⟩ :=
  Double.payloadOfRatio_mono_left (Nat.pow_pos (by decide)) (Nat.mul_le_mul_right _ h)

/-- A greater power of ten has no smaller payload. -/
theorem nearest_one_mono (h : e ≤ e') : nearest ⟨1, e⟩ ≤ nearest ⟨1, e'⟩ := by
  obtain ⟨k, rfl⟩ := Int.le.dest h
  rw [← nearest_mul_pow, Nat.one_mul]
  exact nearest_mono (Nat.one_le_two_pow.trans (Nat.pow_le_pow_left (by decide) k))

end Decimal

end TripRecorder
