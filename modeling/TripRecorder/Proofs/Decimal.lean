import Mathlib.Data.Nat.Log
import Mathlib.Tactic.Ring
import TripRecorder.Decimal

/-!
# Exact words and shortest digits

Rounding depends on the value alone, and gives back a value that a word has. So the shortest digits
of a word read back as that word, whichever way the candidates are searched, and small integers and
powers of ten are exact.

## Main definitions

* `Double.Stands` — a word whose magnitude is a quotient

## Main results

* `Double.payloadOfRatio_congr` — equal quotients are rounded alike
* `Double.ofRatio_of_stands` — a quotient that is the value of a word is rounded to it
* `Double.stands_ofNat` — a natural number of 53 bits with zero bits behind them is a word
* `Decimal.nearest_shortest` — the shortest digits of a word read back as the word
-/

namespace TripRecorder

namespace Double

variable {x : Double} {n d n' d' : Nat}

/-! ### Rounding -/

/-- The denominator is a power of two. -/
theorem exists_denominator : ∃ k, k = 1074 ∧ denominator = 2 ^ k := by
  refine ⟨_, rfl, ?_⟩
  generalize hk : 1074 = k
  rw [denominator, hk, Nat.one_shiftLeft]

theorem denominator_pos : 0 < denominator := by
  obtain ⟨k, -, hk⟩ := exists_denominator
  rw [hk]
  exact Nat.two_pow_pos k

/-- Rounding does not depend on a common factor. -/
theorem divToEven_mul_right (n d : Nat) {k : Nat} (hk : 0 < k) :
    divToEven (n * k) (d * k) = divToEven n d := by
  have hleft : 2 * (n % d * k) < d * k ↔ 2 * (n % d) < d := by
    rw [← Nat.mul_assoc, Nat.mul_lt_mul_right hk]
  have hright : d * k < 2 * (n % d * k) ↔ d < 2 * (n % d) := by
    rw [← Nat.mul_assoc, Nat.mul_lt_mul_right hk]
  simp only [divToEven, Nat.mul_div_mul_right n d hk, Nat.mul_mod_mul_right, hleft, hright]

/-- A whole quotient is not rounded. -/
theorem divToEven_mul_self (q : Nat) (hd : 0 < d) : divToEven (q * d) d = q := by
  simp [divToEven, Nat.mul_div_cancel q hd, hd]

theorem payloadOfRatio_mul_right (n d : Nat) {k : Nat} (hk : 0 < k) :
    payloadOfRatio (n * k) (d * k) = payloadOfRatio n d := by
  have hscaled : n * k * denominator = n * denominator * k := Nat.mul_right_comm ..
  have hshift (s : Nat) : (d * k) <<< s = (d <<< s) * k := by
    rw [Nat.shiftLeft_eq, Nat.shiftLeft_eq, Nat.mul_right_comm]
  simp only [payloadOfRatio, hscaled, Nat.mul_div_mul_right _ d hk, hshift,
    divToEven_mul_right _ _ hk]

/-- Equal quotients are rounded alike. -/
theorem payloadOfRatio_congr (hd : 0 < d) (hd' : 0 < d') (h : n * d' = n' * d) :
    payloadOfRatio n d = payloadOfRatio n' d' := by
  rw [← payloadOfRatio_mul_right n d hd', h, Nat.mul_comm d d', payloadOfRatio_mul_right n' d' hd]

theorem payloadOfRatio_zero (d : Nat) : payloadOfRatio 0 d = 0 := by
  simp [payloadOfRatio, divToEven]

/-! ### Values of words -/

theorem payload_lt_signBound (x : Double) : x.payload < signBound :=
  Nat.mod_lt _ (by decide)

theorem ofPayload_payload (x : Double) : ofPayload x.negative x.payload = x := by
  obtain ⟨bits⟩ := x
  have hbits : bits.toNat < 2 * signBound := bits.toNat_lt
  rw [ofPayload, Double.mk.injEq, ← UInt64.toNat_inj, UInt64.toNat_ofNat']
  unfold negative payload
  simp only [decide_eq_true_eq]
  split <;> unfold signBound at * <;> omega

theorem payload_ofPayload {p : Nat} (negative : Bool) (h : p < signBound) :
    (ofPayload negative p).payload = p := by
  unfold payload ofPayload
  rw [UInt64.toNat_ofNat']
  unfold signBound at *
  split <;> omega

theorem negative_ofPayload {p : Nat} (negative : Bool) (h : p < signBound) :
    (ofPayload negative p).negative = negative := by
  unfold Double.negative ofPayload
  rw [UInt64.toNat_ofNat']
  cases negative <;> unfold signBound at * <;> simp <;> omega

/-- A word without a fraction bound: its significand and its scale make up the payload. -/
theorem payload_eq (x : Double) :
    (x.payload < fractionBound ∧ x.significand = x.payload ∧ x.scale = 0) ∨
      (fractionBound ≤ x.significand ∧ x.significand < 2 * fractionBound ∧
        x.payload = x.scale * fractionBound + x.significand) := by
  unfold significand scale
  by_cases h : x.payload < fractionBound
  · refine .inl ⟨h, if_pos h, ?_⟩
    rw [Nat.div_eq_of_lt h]
  · refine .inr ?_
    rw [if_neg h]
    unfold fractionBound at *
    omega

/-- The numerator of a word without its powers of two. -/
theorem numerator_eq (x : Double) : x.numerator = x.significand * 2 ^ x.scale :=
  Nat.shiftLeft_eq ..

/-- The value of a finite word is rounded to the word. -/
theorem payloadOfRatio_numerator (hfinite : x.isFinite = true) :
    payloadOfRatio x.numerator denominator = x.payload := by
  have hbound : x.payload ≤ infinityPayload := Nat.le_of_lt (of_decide_eq_true hfinite)
  rcases x.payload_eq with ⟨hsmall, hsignificand, hscale⟩ | ⟨hlow, hhigh, hpayload⟩
  · -- The significand has no leading bit, and is the payload itself.
    have hnumerator : x.numerator = x.payload := by
      rw [numerator_eq, hsignificand, hscale, Nat.pow_zero, Nat.mul_one]
    have hlog : x.payload.log2 - 52 = 0 := by
      by_cases hzero : x.payload = 0
      · rw [hzero]
        rfl
      · have hlog : x.payload.log2 < 52 := (Nat.log2_lt hzero).mpr hsmall
        omega
    simp only [payloadOfRatio, Nat.mul_div_cancel _ denominator_pos, hnumerator, hlog,
      Nat.shiftLeft_zero, divToEven_mul_self _ denominator_pos, Nat.zero_mul, Nat.zero_add]
    exact Nat.min_eq_left hbound
  · -- The leading bit tells the scale, and without it the quotient is whole.
    have hpos : 0 < x.significand := Nat.lt_of_lt_of_le (by decide) hlow
    have hlog : x.numerator.log2 - 52 = x.scale := by
      have hlog : x.numerator.log2 = 52 + x.scale := by
        rw [numerator_eq, Nat.log2_eq_iff (Nat.mul_pos hpos (Nat.two_pow_pos _)).ne',
          Nat.add_right_comm, Nat.pow_add, Nat.pow_add]
        exact ⟨Nat.mul_le_mul_right _ hlow, Nat.mul_lt_mul_of_pos_right hhigh (Nat.two_pow_pos _)⟩
      omega
    have hscaled : x.numerator * denominator = x.significand * (denominator <<< x.scale) := by
      rw [numerator_eq, Nat.shiftLeft_eq]
      ring
    have hdenominator : 0 < denominator <<< x.scale := by
      rw [Nat.shiftLeft_eq]
      exact Nat.mul_pos denominator_pos (Nat.two_pow_pos _)
    simp only [payloadOfRatio, Nat.mul_div_cancel _ denominator_pos, hlog]
    rw [hscaled, divToEven_mul_self _ hdenominator, ← hpayload]
    exact Nat.min_eq_left hbound

/-- The magnitude of a finite word is a quotient. -/
structure Stands (x : Double) (n d : Nat) : Prop where
  isFinite : x.isFinite = true
  value : x.numerator * d = n * denominator

/-- A quotient that is the value of a word is rounded to it. -/
theorem payloadOfRatio_of_stands (h : x.Stands n d) (hd : 0 < d) :
    payloadOfRatio n d = x.payload := by
  rw [← payloadOfRatio_numerator h.isFinite]
  exact payloadOfRatio_congr hd denominator_pos h.value.symm

theorem ofRatio_of_stands (h : x.Stands n d) (hd : 0 < d) : ofRatio x.negative n d = x := by
  rw [ofRatio, payloadOfRatio_of_stands h hd, ofPayload_payload]

/-- The word with a significand of 53 bits and a scale. -/
theorem numerator_ofPayload (negative : Bool) (significand scale : Nat)
    (hlow : fractionBound ≤ significand) (hhigh : significand < 2 * fractionBound)
    (hscale : scale ≤ 2045) :
    (ofPayload negative (scale * fractionBound + significand)).isFinite = true ∧
      (ofPayload negative (scale * fractionBound + significand)).negative = negative ∧
      (ofPayload negative (scale * fractionBound + significand)).numerator =
        significand * 2 ^ scale := by
  have hpayload : scale * fractionBound + significand < infinityPayload := by
    unfold infinityPayload fractionBound at *
    omega
  have hword : scale * fractionBound + significand < signBound :=
    Nat.lt_trans hpayload (by decide)
  have hsignificand :
      (ofPayload negative (scale * fractionBound + significand)).significand = significand := by
    unfold Double.significand
    rw [payload_ofPayload negative hword]
    unfold fractionBound at *
    rw [if_neg (by omega)]
    omega
  have hscale : (ofPayload negative (scale * fractionBound + significand)).scale = scale := by
    unfold Double.scale
    rw [payload_ofPayload negative hword]
    unfold fractionBound at *
    omega
  refine ⟨?_, negative_ofPayload negative hword, ?_⟩
  · rw [Double.isFinite, payload_ofPayload negative hword]
    exact decide_eq_true hpayload
  · rw [numerator_eq, hsignificand, hscale]

/-- A natural number of at most 53 bits, with zero bits behind them, is the value of a word. -/
theorem stands_ofNat {m j : Nat} (hm : m < 2 * fractionBound) (hj : j ≤ 900) :
    (ofNat (m <<< j)).Stands (m <<< j) 1 ∧ (ofNat (m <<< j)).negative = false := by
  suffices h : ∃ x : Double, x.Stands (m <<< j) 1 ∧ x.negative = false by
    obtain ⟨x, hstands, hpositive⟩ := h
    have hx : ofNat (m <<< j) = x := by
      rw [ofNat, ← hpositive]
      exact ofRatio_of_stands hstands Nat.one_pos
    rw [hx]
    exact ⟨hstands, hpositive⟩
  rcases Nat.eq_zero_or_pos m with rfl | hpos
  · exact ⟨zero, ⟨rfl, by simp [numerator, significand, payload, zero]⟩, rfl⟩
  -- The leading bit moves to the place that the exponent stands for.
  have hlow := Nat.log2_self_le hpos.ne'
  have hhigh := Nat.lt_log2_self (n := m)
  have hlog : m.log2 ≤ 52 := Nat.le_of_lt_succ ((Nat.log2_lt hpos.ne').mpr hm)
  generalize m.log2 = l at hlow hhigh hlog
  have hbound : fractionBound = 2 ^ l * 2 ^ (52 - l) := by
    rw [← Nat.pow_add, Nat.add_sub_cancel' hlog]
    rfl
  obtain ⟨hfinite, hpositive, hnumerator⟩ :=
    numerator_ofPayload false (m * 2 ^ (52 - l)) (1022 + j + l)
      (by
        rw [hbound]
        exact Nat.mul_le_mul_right _ hlow)
      (by
        rw [hbound, ← Nat.mul_assoc, ← Nat.pow_succ']
        exact Nat.mul_lt_mul_of_pos_right hhigh (Nat.two_pow_pos _))
      (by omega)
  refine ⟨_, ⟨hfinite, ?_⟩, hpositive⟩
  obtain ⟨k, hk, hdenominator⟩ := exists_denominator
  have hexponent : 52 - l + (1022 + j + l) = j + k := by omega
  rw [hnumerator, Nat.shiftLeft_eq, hdenominator, Nat.mul_one, Nat.mul_assoc, Nat.mul_assoc,
    ← Nat.pow_add, ← Nat.pow_add, hexponent]

end Double

namespace Decimal

variable {x : Double}

/-- The power of ten of a decimal number can be moved into its coefficient. -/
theorem nearest_mul_pow (c k : Nat) (e : Int) :
    nearest ⟨c * 10 ^ k, e⟩ = nearest ⟨c, e + k⟩ := by
  refine Double.payloadOfRatio_congr (Nat.pow_pos (by decide)) (Nat.pow_pos (by decide)) ?_
  have hexponents : k + e.toNat + (-(e + k)).toNat = (e + k).toNat + (-e).toNat := by omega
  show c * 10 ^ k * 10 ^ e.toNat * 10 ^ (-(e + k)).toNat =
    c * 10 ^ (e + k).toNat * 10 ^ (-e).toNat
  rw [Nat.mul_assoc c, ← Nat.pow_add, Nat.mul_assoc c, ← Nat.pow_add, Nat.mul_assoc c,
    ← Nat.pow_add, hexponents]

theorem nearest_of_coefficient_zero (e : Int) : nearest ⟨0, e⟩ = 0 := by
  rw [nearest, ratio, Nat.zero_mul]
  exact Double.payloadOfRatio_zero _

/-- Trailing zeros do not matter. -/
theorem nearest_trim (fuel : Nat) (a : Decimal) : (trim fuel a).nearest = a.nearest := by
  induction fuel generalizing a with
  | zero => rfl
  | succ fuel ih =>
    unfold trim
    split
    · rename_i hzero
      rw [ih, ← Int.natCast_one, ← nearest_mul_pow, Nat.pow_one,
        Nat.div_mul_cancel (Nat.dvd_of_mod_eq_zero hzero)]
    · rfl

/-- The exact decimal value of a word reads back as the word. -/
theorem nearest_exact (hfinite : x.isFinite = true) : (exact x).nearest = x.payload := by
  obtain ⟨k, hk, hdenominator⟩ := Double.exists_denominator
  have hstands : x.Stands (x.numerator * 5 ^ k) (10 ^ k) := by
    refine ⟨hfinite, ?_⟩
    -- A power of two divides a power of ten.
    have hten : (10 : Nat) ^ k = 5 ^ k * 2 ^ k := by rw [← Nat.mul_pow]
    rw [hdenominator, hten, Nat.mul_assoc]
  have hexact : exact x = ⟨x.numerator * 5 ^ k, -(k : Int)⟩ := by
    have hexponent : (-1074 : Int) = -(k : Int) := by omega
    rw [exact, hexponent, ← hk]
    rfl
  have hsigns : (-(k : Int)).toNat = 0 ∧ (- -(k : Int)).toNat = k := by omega
  rw [← Double.payloadOfRatio_of_stands hstands (Nat.pow_pos (by decide)), hexact, nearest, ratio]
  simp only [hsigns.1, hsigns.2, Nat.pow_eq, Nat.pow_zero, Nat.mul_one]

/-- The shortest digits of a word read back as the word. -/
theorem nearest_shortest (hfinite : x.isFinite = true) : (shortest x).nearest = x.payload := by
  rw [shortest, nearest_trim]
  generalize (List.range 17).flatMap (fun (k : Nat) => neighbours x (leading x - k)) = candidates
  -- Shorter digits are taken only when they read back; the exact value always does.
  cases hfound : candidates.find? fun c => c.nearest = x.payload with
  | none => exact nearest_exact hfinite
  | some c =>
    have hc := List.find?_some hfound
    exact of_decide_eq_true hc

theorem coefficient_shortest_ne_zero (hfinite : x.isFinite = true) (hzero : x.isZero = false) :
    (shortest x).coefficient ≠ 0 := by
  intro h
  have hpayload := nearest_shortest hfinite
  generalize shortest x = d at h hpayload
  obtain ⟨c, e⟩ := d
  rw [show c = 0 from h, nearest_of_coefficient_zero] at hpayload
  exact of_decide_eq_false hzero hpayload.symm

end Decimal

end TripRecorder
