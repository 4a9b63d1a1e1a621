import TripRecorder.Proofs.Json.Rereading
import TripRecorder.Proofs.Rounding

/-!
# Printed words do not overflow when they are read

The digits of a printed word are read with three roundings, and each of them may go up. Yet no
finite word is lost: digits that are dropped only make the number smaller, and with every power of
ten a number that is rounded to less than the largest word stays finite through all its roundings.
The largest word is read on its own.

## Main definitions

* `Json.Numeral.topPayload` — the payload of the largest word
* `Double.reread` — the word that the text of a word is read as

## Main results

* `Json.Numeral.isFinite_of_double?` — a word that is read is finite
* `Json.Numeral.exists_scaled?` — a number that rounds to less than the largest word is read
* `Double.reread?_of_finite` — the text of every finite word is read as a finite word
-/

namespace TripRecorder

open Double (infinityPayload)

namespace Json.Numeral

/-! ### What is read is finite -/

theorem isFinite_zero : Double.zero.isFinite = true := rfl

theorem isFinite_ofNat {m : Nat} (hm : m < significandBound) :
    (Double.ofNat m).isFinite = true := by
  have hlargest : Double.payloadOfRatio (significandBound - 1) 1 < infinityPayload := by
    decide +kernel
  exact Double.isFinite_ofRatio_iff.mpr
    ((Double.payloadOfRatio_mono_left Nat.one_pos (Nat.le_sub_one_of_lt hm)).trans_lt hlargest)

theorem denominator_le_powerOfTen (k : Nat) : Double.denominator ≤ (powerOfTen k).numerator :=
  Double.denominator_le_numerator (Nat.pow_pos (by decide))

/-- Scaling leads to no infinite word. -/
theorem isFinite_of_scaled? {fuel : Nat} {f y : Double} {e : Int} (hf : f.isFinite = true)
    (h : scaled? fuel f e = some y) : y.isFinite = true := by
  induction fuel generalizing f e with
  | zero => cases h
  | succ fuel ih =>
    simp only [scaled?] at h
    split_ifs at h with hnear hsign hproduct hzero
    · obtain rfl := Option.some.inj h
      exact hproduct
    · obtain rfl := Option.some.inj h
      exact Double.isFinite_div hf (denominator_le_powerOfTen _)
    · obtain rfl := Option.some.inj h
      exact hf
    · exact ih (Double.isFinite_div hf (denominator_le_powerOfTen _)) h

theorem accumulate_lt {significand : Nat} (h : significand < significandBound) (ds : List Nat) :
    (accumulate significand ds).1 < significandBound := by
  induction ds generalizing significand with
  | nil => exact h
  | cons d ds ih =>
    rw [accumulate]
    split_ifs with hfits
    · exact ih hfits
    · exact h

theorem parts_lt (n : Numeral) : n.parts.1 < significandBound :=
  accumulate_lt (accumulate_lt (by decide) _) _

theorem isFinite_of_magnitude? {n : Numeral} {y : Double} (h : n.magnitude? = some y) :
    y.isFinite = true := by
  have hf := isFinite_ofNat n.parts_lt
  simp only [magnitude?] at h
  split at h
  · exact isFinite_of_scaled? hf h
  · split_ifs at h
    all_goals first
      | exact isFinite_of_scaled? hf h
      | exact Option.some.inj h ▸ isFinite_zero

theorem isFinite_neg {x : Double} (h : x.isFinite = true) : x.neg.isFinite = true := by
  rw [Double.isFinite, Double.payload_neg]
  exact h

/-- A word that is read of a number that is no integer is finite. -/
theorem isFinite_of_double? {n : Numeral} {y : Double} (hinteger : n.integer? = none)
    (h : n.double? = some y) : y.isFinite = true := by
  rw [double?, hinteger] at h
  obtain ⟨x, hx, rfl⟩ := Option.map_eq_some_iff.mp h
  have hfinite := isFinite_of_magnitude? hx
  split
  · exact isFinite_neg hfinite
  · exact hfinite

/-! ### Numbers below the largest word are read -/

/-- The payload of the largest word. -/
def topPayload : Nat := infinityPayload - 1

/-- The greatest number that is rounded to less than the largest word. -/
def topBound : Nat := (2 ^ 54 - 3) <<< 970

/-- The greatest significand that a power of ten does not bring to the largest word. -/
def largest (k : Nat) : Nat := min (significandBound - 1) (topBound / 10 ^ k)

/-- Three roundings of the greatest significand lead to no infinite word. From this power of ten on
its digits are fewer than fit a significand. -/
theorem isFinite_mul_largest :
    ∀ j < 21, ((Double.ofNat (largest (288 + j))).mul (powerOfTen (288 + j))).isFinite = true := by
  decide +kernel

theorem nearest_natCast (m k : Nat) :
    Decimal.nearest ⟨m, (k : Int)⟩ = Double.payloadOfRatio (m * 10 ^ k) 1 := by
  have hsigns : ((k : Int)).toNat = k ∧ (-(k : Int)).toNat = 0 := by omega
  rw [Decimal.nearest, Decimal.ratio]
  simp only [hsigns.1, hsigns.2, Nat.pow_eq, Nat.pow_zero]

theorem le_largest {m k : Nat} (hm : m < significandBound)
    (hnearest : Decimal.nearest ⟨m, (k : Int)⟩ < topPayload) : m ≤ largest k := by
  have htop : Double.payloadOfRatio (topBound + 1) 1 = topPayload := by decide +kernel
  rw [nearest_natCast] at hnearest
  have hle : m * 10 ^ k ≤ topBound := by
    by_contra hlt
    have hmono : Double.payloadOfRatio (topBound + 1) 1 ≤ Double.payloadOfRatio (m * 10 ^ k) 1 :=
      Double.payloadOfRatio_mono_left Nat.one_pos (Nat.lt_of_not_le hlt)
    omega
  exact le_min (Nat.le_sub_one_of_lt hm)
    ((Nat.le_div_iff_mul_le (Nat.pow_pos (by decide))).mpr hle)

theorem nearest_one_309 : Decimal.nearest ⟨1, 309⟩ = infinityPayload := by decide +kernel

/-- A product stays finite with fewer digits and a smaller power of ten. -/
theorem isFinite_mul_of_le {m m' k k' : Nat} (hm : m ≤ m') (hk : k ≤ k')
    (h : ((Double.ofNat m').mul (powerOfTen k')).isFinite = true) :
    ((Double.ofNat m).mul (powerOfTen k)).isFinite = true := by
  rw [Double.mul, Double.isFinite_ofRatio_iff] at h ⊢
  refine (Double.payloadOfRatio_mono_left ?_ ?_).trans_lt h
  · exact Nat.mul_pos Double.denominator_pos Double.denominator_pos
  · exact Nat.mul_le_mul (Double.numerator_ofNat_mono hm)
      (Double.numerator_ofNat_mono (Nat.pow_le_pow_right (by decide) hk))

theorem isFinite_mul_powerOfTen {m k : Nat} (hk : k < 309) (hm : m ≤ largest k) :
    ((Double.ofNat m).mul (powerOfTen k)).isFinite = true := by
  rcases Nat.lt_or_ge k 288 with hlow | hhigh
  · -- No significand is too great for such a power.
    have hbound : significandBound - 1 = largest 288 := by decide +kernel
    refine isFinite_mul_of_le ?_ hlow.le (isFinite_mul_largest 0 (by decide))
    exact (hm.trans (Nat.min_le_left ..)).trans_eq hbound
  · have hlargest := isFinite_mul_largest (k - 288) (by omega)
    rw [Nat.add_sub_cancel' hhigh] at hlargest
    exact isFinite_mul_of_le hm (Nat.le_refl k) hlargest

/-- A word is divided by powers of ten as long as it takes. -/
theorem exists_scaled?_of_neg {fuel : Nat} {f : Double} {e : Int} (he : e < 0)
    (hfuel : -(308 * fuel : Int) ≤ e) : ∃ y, scaled? fuel f e = some y := by
  induction fuel generalizing f e with
  | zero => omega
  | succ fuel ih =>
    have hsign : ¬ 0 ≤ e := Int.not_le.mpr he
    simp only [scaled?, if_neg hsign]
    split_ifs
    · exact ⟨_, rfl⟩
    · exact ⟨_, rfl⟩
    · exact ih (by omega) (by omega)

/-- A number that rounds to less than the largest word is read, however its digits and its power of
ten are rounded on the way. -/
theorem exists_scaled? {m : Nat} {e : Int} (hm : m < significandBound) (hlow : -4928 ≤ e)
    (hnearest : Decimal.nearest ⟨m, e⟩ < topPayload) :
    ∃ y, scaled? scalingFuel (Double.ofNat m) e = some y := by
  rcases Int.lt_or_le e 0 with hneg | hpos
  · exact exists_scaled?_of_neg hneg hlow
  obtain ⟨k, rfl⟩ := Int.eq_ofNat_of_zero_le hpos
  rcases Nat.lt_or_ge k 309 with hk | hk
  · have hproduct := isFinite_mul_powerOfTen hk (le_largest hm hnearest)
    have hnear : k ≤ 308 := by omega
    simp only [scalingFuel, scaled?, Int.natAbs_natCast, if_pos hnear, if_pos hpos,
      if_pos hproduct]
    exact ⟨_, rfl⟩
  · -- With such a power of ten, only zero is no infinite word.
    have hzero : m = 0 := by
      by_contra hne
      have hbeyond : (309 : Int) ≤ k := by omega
      have hpower := Decimal.nearest_one_mono hbeyond
      have hdigits := Decimal.nearest_mono (e := k) (Nat.one_le_iff_ne_zero.mpr hne)
      rw [nearest_one_309] at hpower
      unfold topPayload at hnearest
      omega
    have hfar : ¬ (k : Int).natAbs ≤ 308 := by omega
    subst hzero
    simp only [scalingFuel, scaled?, if_neg hfar]
    exact ⟨_, if_pos (by decide +kernel)⟩

/-! ### Digits that are dropped -/

/-- What is kept of some digits is no more than their number. -/
theorem accumulate_le (significand : Nat) (ds : List Nat) :
    (accumulate significand ds).1 * 10 ^ (accumulate significand ds).2.length ≤
      significand * 10 ^ ds.length + valueOf ds := by
  induction ds generalizing significand with
  | nil => simp [accumulate]
  | cons d ds ih =>
    rw [accumulate]
    split_ifs with hfits
    · refine (ih _).trans_eq ?_
      rw [valueOf_cons, List.length_cons, Nat.pow_succ]
      ring
    · exact Nat.le_add_right ..

variable {n : Numeral}

/-- A few digits before the point are all kept, and of the others no more than their number is. -/
theorem parts_le (hlt : ∀ d ∈ n.all, d < 10) (hwhole : n.whole.length ≤ 16) :
    ∃ k : Nat, n.parts.2 = k - ((n.fraction.getD []).length : Int) ∧
      n.parts.1 * 10 ^ k ≤ valueOf n.all := by
  have hbound : valueOf n.whole < significandBound := by
    have hvalue := valueOf_lt (List.forall_mem_append.mp hlt).1
    have hpower : (10 : Nat) ^ n.whole.length ≤ 10 ^ 16 := Nat.pow_le_pow_right (by decide) hwhole
    exact hvalue.trans_le (hpower.trans (by decide))
  have hkept : accumulate 0 n.whole = (valueOf n.whole, []) := by
    rw [accumulate_eq (by omega), Nat.zero_mul, Nat.zero_add]
  refine ⟨(accumulate (valueOf n.whole) (n.fraction.getD [])).2.length, ?_, ?_⟩
  · rw [parts, hkept]
    simp
  · rw [all, valueOf_append, parts, hkept]
    exact accumulate_le _ _

/-- The exponent of a number is not too large to be spelled. -/
def ModestExponent (n : Numeral) : Prop :=
  ∀ sign ds, n.exponent = some (sign, ds) → valueOf ds < exponentBound

/-- A number that rounds to less than the largest word is read, if not too many digits stand before
the point. -/
theorem exists_magnitude? (hlt : ∀ d ∈ n.all, d < 10) (hwhole : n.whole.length ≤ 16)
    (hexponent : n.ModestExponent) (hlow : -4928 ≤ n.power)
    (hnearest : Decimal.nearest ⟨valueOf n.all, n.power⟩ < topPayload) :
    ∃ y, n.magnitude? = some y := by
  obtain ⟨k, hk, hle⟩ := parts_le hlt hwhole
  -- Digits that are dropped make the number smaller.
  have hscaled : ∀ e : Int, e = n.shift + n.parts.2 →
      ∃ y, scaled? scalingFuel (Double.ofNat n.parts.1) e = some y := by
    rintro e rfl
    have hpower : n.shift + n.parts.2 = n.power + k := by
      rw [hk, power]
      omega
    rw [hpower]
    refine exists_scaled? n.parts_lt (by omega) (lt_of_le_of_lt ?_ hnearest)
    rw [← Decimal.nearest_mul_pow]
    exact Decimal.nearest_mono hle
  unfold magnitude?
  unfold shift at hscaled
  cases hexp : n.exponent with
  | none =>
    simp only [hexp] at hscaled ⊢
    exact hscaled _ (Int.zero_add _).symm
  | some signed =>
    obtain ⟨negative, ds⟩ := signed
    simp only [hexp, if_pos (hexponent negative ds hexp)] at hscaled ⊢
    cases negative with
    | true => exact hscaled _ (by simp only [if_true]; omega)
    | false => exact hscaled _ (by simp only [Bool.false_eq_true, if_false]; omega)

/-! ### Printed words -/

theorem le_exponent_trim (fuel : Nat) (a : Decimal) :
    a.exponent ≤ (Decimal.trim fuel a).exponent := by
  induction fuel generalizing a with
  | zero => exact Int.le_refl _
  | succ fuel ih =>
    rw [Decimal.trim]
    split_ifs
    · have hrest := ih ⟨a.coefficient / 10, a.exponent + 1⟩
      simp only at hrest
      omega
    · exact Int.le_refl _

theorem exponent_of_mem_neighbours {x : Double} {unit : Int} {c : Decimal}
    (h : c ∈ Decimal.neighbours x unit) : c.exponent = unit := by
  unfold Decimal.neighbours at h
  simp only at h
  split_ifs at h <;> rcases List.mem_pair.mp h with rfl | rfl <;> rfl

/-- The last digit of a word stands for no smaller power of ten than that of its exact value. -/
theorem le_exponent_shortest (x : Double) : -1074 ≤ (Decimal.shortest x).exponent := by
  refine le_trans ?_ (le_exponent_trim _ _)
  cases hfound : ((List.range 17).flatMap fun (k : Nat) =>
      Decimal.neighbours x (Decimal.leading x - k)).find? fun c => c.nearest = x.payload with
  | none => exact Int.le_refl _
  | some c =>
    obtain ⟨k, hk, hc⟩ := List.mem_flatMap.mp (List.mem_of_find?_eq_some hfound)
    have hexponent := exponent_of_mem_neighbours hc
    have hleading : -401 ≤ Decimal.leading x := by
      unfold Decimal.leading
      omega
    rw [Option.getD_some, hexponent]
    have := List.mem_range.mp hk
    omega

/-- At most sixteen digits stand before the point, and the place of the last one is that of the
last digit, or the first behind the point. -/
theorem ofDigits_modest (negative : Bool) {ds : List Nat} (hds : ds ≠ []) {power : Int}
    (hlow : -1074 ≤ power + 1 - ds.length) (hhigh : power < 309) :
    (ofDigits negative ds power).whole.length ≤ 16 ∧
      -1074 ≤ (ofDigits negative ds power).power ∧
      (ofDigits negative ds power).ModestExponent := by
  have hlength := List.length_pos_of_ne_nil hds
  unfold ofDigits leastPositional firstExponential
  split_ifs with hpositional hsign
  · refine ⟨?_, ?_, ?_⟩
    · simp only [List.length_append, List.length_take, List.length_replicate]
      omega
    · simp only [Numeral.power, shift, Option.getD_some]
      split
      · simp
      · simp only [List.length_drop]
        omega
    · rintro sign es ⟨⟩
  · refine ⟨by simp, ?_, ?_⟩
    · simp only [Numeral.power, shift, Option.getD_some, List.length_append,
        List.length_replicate]
      omega
    · rintro sign es ⟨⟩
  · refine ⟨(List.length_take_le _ _).trans (by decide), ?_, ?_⟩
    · rw [Numeral.power, shift_decimals]
      simp only
      split
      · simp only [Option.getD_none, List.length_nil]
        omega
      · simp only [Option.getD_some, List.length_drop]
        omega
    · rintro sign es heq
      obtain ⟨-, rfl⟩ := Prod.mk.inj (Option.some.inj heq)
      rw [valueOf_decimals]
      unfold exponentBound
      omega

/-- The leading digit of a finite word stands for a power of ten below the 309th. -/
theorem leading_lt {ds : List Nat} {power : Int} (hlead : ∃ d rest, ds = d :: rest ∧ d ≠ 0)
    (hfinite : Decimal.nearest ⟨valueOf ds, power + 1 - ds.length⟩ < infinityPayload) :
    power < 309 := by
  obtain ⟨d, rest, rfl, hd⟩ := hlead
  have hvalue : 10 ^ rest.length ≤ valueOf (d :: rest) := by
    rw [valueOf_cons]
    exact Nat.le_add_right_of_le (Nat.le_mul_of_pos_left _ (Nat.pos_of_ne_zero hd))
  have hmono := Decimal.nearest_mono (e := power + 1 - (d :: rest).length) hvalue
  have hpower : power + 1 - (d :: rest).length + rest.length = power := by
    rw [List.length_cons]
    omega
  rw [← Nat.one_mul (10 ^ rest.length), Decimal.nearest_mul_pow, hpower] at hmono
  by_contra hle
  have hbeyond : 309 ≤ power := by omega
  have hgreat := Decimal.nearest_one_mono hbeyond
  rw [nearest_one_309] at hgreat
  omega

/-- The digits of a finite word are few before the point, and its exponent is small. -/
theorem ofDouble_modest {x : Double} (hfinite : x.isFinite = true) :
    (ofDouble x).whole.length ≤ 16 ∧ -1074 ≤ (ofDouble x).power ∧ (ofDouble x).ModestExponent := by
  cases hzero : x.isZero with
  | true =>
    rw [ofDouble_of_zero hzero]
    exact ⟨by simp, by simp [Numeral.power, shift], nofun⟩
  | false =>
    have hpos := Nat.pos_of_ne_zero (Decimal.coefficient_shortest_ne_zero hfinite hzero)
    have hnearest := Decimal.nearest_shortest hfinite
    have hexponent := le_exponent_shortest x
    rw [ofDouble_of_ne_zero hzero]
    generalize Decimal.shortest x = d at hpos hnearest hexponent
    obtain ⟨c, e⟩ := d
    have hlast : ((decimals c).length : Int) - 1 + e + 1 - (decimals c).length = e := by omega
    refine ofDigits_modest _ (figures_decimals c).ne_nil (hlast.symm ▸ hexponent)
      (leading_lt (decimals_of_pos hpos) ?_)
    rw [hlast, valueOf_decimals]
    exact hnearest.trans_lt (of_decide_eq_true hfinite)

/-- The largest word is read. -/
theorem isSome_double?_top : ∀ negative,
    ((ofDouble (.ofPayload negative topPayload)).double?).isSome = true := by
  decide +kernel

theorem exists_double?_ofDouble {x : Double} (hfinite : x.isFinite = true) :
    ∃ y, (ofDouble x).double? = some y := by
  have hpayload : x.payload < infinityPayload := of_decide_eq_true hfinite
  rcases Nat.eq_or_lt_of_le (show x.payload ≤ topPayload from Nat.le_sub_one_of_lt hpayload) with
    htop | hbelow
  · have hread := isSome_double?_top x.negative
    rw [← htop, x.ofPayload_payload] at hread
    exact Option.isSome_iff_exists.mp hread
  · -- What is printed rounds to the word itself, below the largest one.
    obtain ⟨hwhole, hlow, hexponent⟩ := ofDouble_modest hfinite
    obtain ⟨y, hy⟩ := exists_magnitude? (all_ofDouble_lt hfinite) hwhole hexponent (by omega)
      ((nearest_ofDouble hfinite).trans_lt hbelow)
    rw [double?, integer?_eq_none (point_ofDouble x), hy]
    exact ⟨_, rfl⟩

end Json.Numeral

namespace Double

variable {x : Double}

/-- The word that the text of a word is read as, and the word itself if that text is not read. -/
def reread (x : Double) : Double := x.reread?.getD x

/-- The text of a finite word is read as a finite word. -/
theorem reread?_of_finite (h : x.isFinite = true) :
    x.reread? = some x.reread ∧ x.reread.isFinite = true := by
  obtain ⟨y, hy⟩ := Json.Numeral.exists_double?_ofDouble h
  have hreread : x.reread? = some y := by rw [reread?_eq, if_pos h, hy]
  rw [reread, hreread]
  exact ⟨rfl, Json.Numeral.isFinite_of_double?
      (Json.Numeral.integer?_eq_none (Json.Numeral.point_ofDouble x)) hy⟩

end Double

end TripRecorder
