import TripRecorder.Json.Record
import TripRecorder.Proofs.Json.Spelling

/-!
# Printed words that are read back

A printed word has the fewest digits that round to it. They are not read with one rounding,
though: the digits make a word, the power of ten another one, and their product or quotient is
rounded again. With few digits the first two are exact, and the word comes back. Of what is not a
number or infinite nothing comes back.

## Main definitions

* `Double.reread?` — what the text of a word is read as
* `Json.Numeral.power`, `Json.Numeral.Short` — the power of ten of the last digit, and few digits

## Main results

* `Double.reread?_of_not_finite` — an infinite word is not read back
* `Double.reread?_of_short` — a word with few digits is read back as it was
-/

namespace TripRecorder

open Json

/-- What the text of a word is read as. -/
def Double.reread? (x : Double) : Option Double := Json.read? Double (Json.doubleText x)

namespace Json.Numeral

/-! ### Values of digits -/

theorem valueOf_append (ds es : List Nat) :
    valueOf (ds ++ es) = valueOf ds * 10 ^ es.length + valueOf es := by
  -- Each later digit moves the earlier ones by one place.
  have hfold (es : List Nat) : ∀ n, es.foldl (fun n d => n * 10 + d) n =
      n * 10 ^ es.length + valueOf es := by
    induction es with
    | nil =>
      intro n
      simp [valueOf]
    | cons e es ih =>
      intro n
      have hvalue : valueOf (e :: es) = (0 * 10 + e) * 10 ^ es.length + valueOf es := ih _
      rw [List.foldl_cons, ih, hvalue, List.length_cons, Nat.pow_succ]
      ring
  rw [valueOf, List.foldl_append, hfold]
  rfl

theorem valueOf_cons (d : Nat) (ds : List Nat) :
    valueOf (d :: ds) = d * 10 ^ ds.length + valueOf ds := by
  have h := valueOf_append [d] ds
  rwa [List.singleton_append, show valueOf [d] = d by simp [valueOf]] at h

theorem valueOf_replicate_zero (k : Nat) : valueOf (List.replicate k 0) = 0 := by
  induction k with
  | zero => rfl
  | succ k ih => rw [List.replicate_succ, valueOf_cons, ih, Nat.zero_mul]

theorem valueOf_decimals (n : Nat) : valueOf (decimals n) = n := by
  induction n using Nat.strongRecOn with
  | ind n ih =>
    rcases Nat.lt_or_ge n 10 with hlt | hge
    · rw [decimals_of_lt hlt]
      exact Nat.zero_add n
    · rw [decimals_of_ge hge, valueOf_append, ih (n / 10) (by omega)]
      show n / 10 * 10 ^ 1 + (0 * 10 + n % 10) = n
      omega

theorem valueOf_lt {ds : List Nat} (h : ∀ d ∈ ds, d < 10) : valueOf ds < 10 ^ ds.length := by
  induction ds with
  | nil => exact Nat.one_pos
  | cons d ds ih =>
    obtain ⟨hd, hds⟩ := List.forall_mem_cons.mp h
    have hrest := ih hds
    have hfirst : d * 10 ^ ds.length ≤ 9 * 10 ^ ds.length :=
      Nat.mul_le_mul_right _ (Nat.le_of_lt_succ hd)
    rw [valueOf_cons, List.length_cons, Nat.pow_succ]
    omega

/-- Digits are kept as long as they fit. -/
theorem accumulate_eq {significand : Nat} {ds : List Nat}
    (h : significand * 10 ^ ds.length + valueOf ds < significandBound) :
    accumulate significand ds = (significand * 10 ^ ds.length + valueOf ds, []) := by
  induction ds generalizing significand with
  | nil => simp [accumulate, valueOf]
  | cons d ds ih =>
    have hvalue : significand * 10 ^ (d :: ds).length + valueOf (d :: ds) =
        (significand * 10 + d) * 10 ^ ds.length + valueOf ds := by
      rw [valueOf_cons, List.length_cons, Nat.pow_succ]
      ring
    rw [hvalue] at h ⊢
    have hfits : significand * 10 + d < significandBound := by
      have hle : significand * 10 + d ≤ (significand * 10 + d) * 10 ^ ds.length :=
        Nat.le_mul_of_pos_right _ (Nat.pow_pos (by decide))
      omega
    rw [accumulate, if_pos hfits, ih h]

/-- All digits of a number. -/
def all (n : Numeral) : List Nat := n.whole ++ n.fraction.getD []

/-- The power of ten of the exponent. -/
def shift (n : Numeral) : Int :=
  match n.exponent with
  | some (true, ds) => -(valueOf ds : Int)
  | some (false, ds) => valueOf ds
  | none => 0

/-- The power of ten of the last digit. -/
def power (n : Numeral) : Int := n.shift - (n.fraction.getD []).length

/-- At most fifteen digits, of which the last stands for a power of ten up to the 22nd. -/
structure Short (n : Numeral) : Prop where
  digits : n.all.length ≤ 15
  places : n.power.natAbs ≤ 22

variable {n : Numeral}

/-- Few digits are all kept. -/
theorem parts_eq (hlt : ∀ d ∈ n.all, d < 10) (h : n.Short) :
    n.parts = (valueOf n.all, -((n.fraction.getD []).length : Int)) := by
  have hvalue := valueOf_lt hlt
  have hbound : (10 : Nat) ^ n.all.length ≤ 10 ^ 15 := Nat.pow_le_pow_right (by decide) h.digits
  have hall : valueOf n.all < significandBound :=
    Nat.lt_trans (Nat.lt_of_lt_of_le hvalue hbound) (by decide)
  rw [all, valueOf_append] at hall
  have hwhole : accumulate 0 n.whole = (valueOf n.whole, []) := by
    have hle : valueOf n.whole ≤ valueOf n.whole * 10 ^ (n.fraction.getD []).length :=
      Nat.le_mul_of_pos_right _ (Nat.pow_pos (by decide))
    rw [accumulate_eq (by omega), Nat.zero_mul, Nat.zero_add]
  rw [parts, hwhole]
  simp only [accumulate_eq hall, all, valueOf_append, List.length_nil]
  simp

/-- Small powers of ten are words. -/
theorem stands_powerOfTen {k : Nat} (hk : k ≤ 22) :
    (powerOfTen k).Stands (10 ^ k) 1 ∧ (powerOfTen k).negative = false := by
  have hfive : 5 ^ k < 2 * Double.fractionBound :=
    Nat.lt_of_le_of_lt (Nat.pow_le_pow_right (by decide) hk) (by decide)
  have hten : (10 : Nat) ^ k = 5 ^ k <<< k := by rw [Nat.shiftLeft_eq, ← Nat.mul_pow]
  have hstands := Double.stands_ofNat (j := k) hfive (by omega)
  rw [← hten] at hstands
  exact hstands

/-- With a word for the digits and one for the power of ten, only the last step rounds. -/
theorem scaled?_eq {m : Nat} {e : Int} (hm : m < 2 * Double.fractionBound)
    (he : e.natAbs ≤ 22) (hfinite : Decimal.nearest ⟨m, e⟩ < Double.infinityPayload) :
    scaled? scalingFuel (Double.ofNat m) e =
      some (Double.ofPayload false (Decimal.nearest ⟨m, e⟩)) := by
  -- Digits and power are words without rounding, so their product or quotient is rounded once.
  obtain ⟨hf, hfsign⟩ := Double.stands_ofNat (j := 0) hm (by decide)
  obtain ⟨hg, hgsign⟩ := stands_powerOfTen he
  rw [Nat.shiftLeft_zero] at hf hfsign
  have hfvalue := hf.value
  have hgvalue := hg.value
  rw [Nat.mul_one] at hfvalue hgvalue
  rw [scalingFuel, scaled?, if_pos (by omega)]
  by_cases hsign : 0 ≤ e
  · have hexponent : e.toNat = e.natAbs ∧ (-e).toNat = 0 := by omega
    have hproduct : (Double.ofNat m).mul (powerOfTen e.natAbs) =
        Double.ofPayload false (Decimal.nearest ⟨m, e⟩) := by
      have hratio : Double.payloadOfRatio
          (m * Double.denominator * (10 ^ e.natAbs * Double.denominator))
          (Double.denominator * Double.denominator) =
            Double.payloadOfRatio (m * 10 ^ e.natAbs) 1 :=
        Double.payloadOfRatio_congr (Nat.mul_pos Double.denominator_pos Double.denominator_pos)
          Nat.one_pos (by ring)
      rw [Double.mul, hfsign, hgsign, Double.ofRatio, hfvalue, hgvalue, hratio, Decimal.nearest,
        Decimal.ratio]
      simp only [hexponent.1, hexponent.2, Nat.pow_eq, Nat.pow_zero]
      rfl
    rw [if_pos hsign, hproduct]
    exact if_pos (by
      rw [Double.isFinite, Double.payload_ofPayload false (Nat.lt_trans hfinite (by decide))]
      exact decide_eq_true hfinite)
  · have hexponent : e.toNat = 0 ∧ (-e).toNat = e.natAbs := by omega
    rw [if_neg hsign, Double.div, hfsign, hgsign, Double.ofRatio, hfvalue, hgvalue,
      Decimal.nearest, Decimal.ratio]
    simp only [hexponent.1, hexponent.2, Nat.pow_eq, Nat.pow_zero, Nat.mul_one]
    rw [Double.payloadOfRatio_mul_right _ _ Double.denominator_pos]
    rfl

/-- A number with few digits is rounded once, like its exact value. -/
theorem magnitude?_eq (hlt : ∀ d ∈ n.all, d < 10) (h : n.Short)
    (hfinite : Decimal.nearest ⟨valueOf n.all, n.power⟩ < Double.infinityPayload) :
    n.magnitude? = some (Double.ofPayload false (Decimal.nearest ⟨valueOf n.all, n.power⟩)) := by
  have hdigits : valueOf n.all < 2 * Double.fractionBound :=
    Nat.lt_of_lt_of_le (valueOf_lt hlt)
      (Nat.le_trans (Nat.pow_le_pow_right (by decide) h.digits) (by decide))
  have hscaled := scaled?_eq hdigits h.places hfinite
  have hlength : (n.fraction.getD []).length ≤ 15 := by
    have hall := h.digits
    rw [all, List.length_append] at hall
    omega
  have hplaces := h.places
  unfold magnitude?
  rw [parts_eq hlt h]
  simp only
  unfold power shift at *
  -- The exponent less the places behind the point is the power of the last digit.
  cases hexponent : n.exponent with
  | none =>
    simp only [hexponent, Int.zero_sub] at hscaled ⊢
    exact hscaled
  | some e =>
    obtain ⟨negative, ds⟩ := e
    cases negative with
    | true =>
      simp only [hexponent] at hscaled hplaces ⊢
      have hpower : -((n.fraction.getD []).length : Int) - (valueOf ds : Int) =
          -(valueOf ds : Int) - ((n.fraction.getD []).length : Int) := by omega
      rw [if_pos (by unfold exponentBound; omega), if_pos trivial, hpower]
      exact hscaled
    | false =>
      simp only [hexponent] at hscaled hplaces ⊢
      have hpower : -((n.fraction.getD []).length : Int) + (valueOf ds : Int) =
          (valueOf ds : Int) - ((n.fraction.getD []).length : Int) := by omega
      rw [if_pos (by unfold exponentBound; omega), if_neg (by decide), hpower]
      exact hscaled

/-- A number with a point or an exponent is no integer. -/
theorem integer?_eq_none (hpoint : n.fraction ≠ none ∨ n.exponent ≠ none) : n.integer? = none := by
  unfold integer?
  split
  · rename_i hfraction hexponent
    simp [hfraction, hexponent] at hpoint
  · rfl

/-- A number with few digits, and with a point or an exponent, is the word it rounds to. -/
theorem double?_eq {x : Double} (hpoint : n.fraction ≠ none ∨ n.exponent ≠ none)
    (hlt : ∀ d ∈ n.all, d < 10) (h : n.Short) (hsign : n.negative = x.negative)
    (hfinite : x.isFinite = true)
    (hvalue : Decimal.nearest ⟨valueOf n.all, n.power⟩ = x.payload) : n.double? = some x := by
  have hmagnitude := magnitude?_eq hlt h (hvalue ▸ of_decide_eq_true hfinite)
  rw [double?, integer?_eq_none hpoint]
  simp only [hmagnitude, hvalue, hsign, Option.map_some, Option.some.injEq]
  cases hnegative : x.negative with
  | false =>
    have hx := x.ofPayload_payload
    rw [hnegative] at hx
    simpa using hx
  | true =>
    have hx := x.ofPayload_payload
    rw [hnegative] at hx
    have hbound := x.payload_lt_signBound
    simpa [Double.neg, Double.payload_ofPayload false hbound,
      Double.negative_ofPayload false hbound] using hx

/-! ### Printed words -/

theorem shift_decimals (power : Int) (negative : Bool) (whole : List Nat)
    (fraction : Option (List Nat)) :
    (⟨negative, whole, fraction, some (decide (power < 0), decimals power.natAbs)⟩ :
      Numeral).shift = power := by
  unfold shift
  by_cases hsign : power < 0
  · simp only [hsign, decide_true, valueOf_decimals]
    omega
  · simp only [hsign, decide_false, valueOf_decimals]
    omega

/-- Zeros before and behind digits do not matter, if the last place is the right one. -/
theorem nearest_of_padded {ds : List Nat} {e : Int} (front back : Nat)
    (hall : n.all = List.replicate front 0 ++ ds ++ List.replicate back 0)
    (hpower : n.power + back = e) :
    Decimal.nearest ⟨valueOf n.all, n.power⟩ = Decimal.nearest ⟨valueOf ds, e⟩ := by
  have hvalue : valueOf n.all = valueOf ds * 10 ^ back := by
    rw [hall, valueOf_append, valueOf_append, valueOf_replicate_zero, valueOf_replicate_zero,
      List.length_replicate]
    simp
  rw [hvalue, Decimal.nearest_mul_pow, hpower]

/-- Digits are written with their value, whichever way they are. -/
theorem nearest_ofDigits (negative : Bool) {ds : List Nat} (hds : ds ≠ []) (power : Int) :
    Decimal.nearest ⟨valueOf (ofDigits negative ds power).all,
        (ofDigits negative ds power).power⟩ =
      Decimal.nearest ⟨valueOf ds, power + 1 - ds.length⟩ := by
  have hlength := List.length_pos_of_ne_nil hds
  have hlast (k : Nat) (hk : ds.length ≤ k) : (ds.drop k).isEmpty = true := by simpa using hk
  have hmore (k : Nat) (hk : k < ds.length) : (ds.drop k).isEmpty = false := by simpa using hk
  unfold ofDigits
  split
  · split
    · -- The point stands among the digits, or behind all of them.
      rcases Nat.lt_or_ge (power.toNat + 1) ds.length with hlong | hshort
      · apply nearest_of_padded 0 0
        · simp [all, hmore _ hlong, Nat.sub_eq_zero_of_le hlong.le]
        · simp [Numeral.power, shift, hmore _ hlong]
          omega
      · -- Zeros fill the places up to the point, and one stands behind it.
        have hback : List.replicate (power.toNat + 1 - ds.length + 1) 0 =
            List.replicate (power.toNat + 1 - ds.length) 0 ++ [0] := List.replicate_succ'
        apply nearest_of_padded 0 (power.toNat + 1 - ds.length + 1)
        · simp [all, hlast _ hshort, List.take_of_length_le hshort, hback]
        · simp [Numeral.power, shift, hlast _ hshort]
          omega
    · -- Zeros stand before the digits, one of them before the point.
      apply nearest_of_padded ((-power).toNat - 1 + 1) 0
      · simp [all, List.replicate_succ]
      · simp [Numeral.power, shift]
        omega
  · -- With an exponent, the point stands behind the first digit, or there is none.
    rcases Nat.lt_or_ge 1 ds.length with hlong | hshort
    · apply nearest_of_padded 0 0
      · simp [all, hmore _ hlong, -List.drop_one]
      · rw [Numeral.power, shift_decimals]
        simp [hmore _ hlong, -List.drop_one]
        omega
    · apply nearest_of_padded 0 0
      · simp [all, hlast _ hshort, List.take_of_length_le hshort, -List.drop_one]
      · rw [Numeral.power, shift_decimals]
        simp [hlast _ hshort, -List.drop_one]
        omega

theorem all_ofDouble_lt {x : Double} (hfinite : x.isFinite = true) :
    ∀ d ∈ (ofDouble x).all, d < 10 := by
  have hwell := wellFormed_ofDouble hfinite
  rw [all, List.forall_mem_append]
  refine ⟨hwell.whole.lt_ten, ?_⟩
  cases hfraction : (ofDouble x).fraction with
  | none => exact nofun
  | some ds => exact (hwell.fraction ds hfraction).lt_ten

theorem ofDouble_of_zero {x : Double} (hzero : x.isZero = true) :
    ofDouble x = ⟨x.negative, [0], some [0], none⟩ := if_pos hzero

theorem ofDouble_of_ne_zero {x : Double} (hzero : x.isZero = false) :
    ofDouble x = ofDigits x.negative (decimals (Decimal.shortest x).coefficient)
      ((decimals (Decimal.shortest x).coefficient).length - 1 + (Decimal.shortest x).exponent) :=
  if_neg (by simp [hzero])

/-- A word is printed with its value. -/
theorem nearest_ofDouble {x : Double} (hfinite : x.isFinite = true) :
    Decimal.nearest ⟨valueOf (ofDouble x).all, (ofDouble x).power⟩ = x.payload := by
  cases hzero : x.isZero with
  | true =>
    have hvalue : valueOf (ofDouble x).all = 0 := by
      rw [ofDouble_of_zero hzero]
      rfl
    rw [hvalue, Decimal.nearest_of_coefficient_zero, of_decide_eq_true hzero]
  | false =>
    have hexponent (n : Nat) (e : Int) : (n : Int) - 1 + e + 1 - n = e := by omega
    have hshortest := Decimal.nearest_shortest hfinite
    rw [ofDouble_of_ne_zero hzero]
    generalize Decimal.shortest x = d at hshortest ⊢
    obtain ⟨c, e⟩ := d
    rw [nearest_ofDigits _ (figures_decimals _).ne_nil, valueOf_decimals, hexponent]
    exact hshortest

theorem negative_ofDouble (x : Double) : (ofDouble x).negative = x.negative := by
  have hdigits (ds : List Nat) (power : Int) :
      (ofDigits x.negative ds power).negative = x.negative := by
    unfold ofDigits
    split
    · split <;> rfl
    · rfl
  cases hzero : x.isZero with
  | true => rw [ofDouble_of_zero hzero]
  | false => rw [ofDouble_of_ne_zero hzero, hdigits]

/-- A word is printed with a point or an exponent, so that it is no integer. -/
theorem point_ofDouble (x : Double) :
    (ofDouble x).fraction ≠ none ∨ (ofDouble x).exponent ≠ none := by
  have hdigits (ds : List Nat) (power : Int) :
      (ofDigits x.negative ds power).fraction ≠ none ∨
        (ofDigits x.negative ds power).exponent ≠ none := by
    unfold ofDigits
    split
    · split
      · exact .inl nofun
      · exact .inl nofun
    · exact .inr nofun
  cases hzero : x.isZero with
  | true =>
    rw [ofDouble_of_zero hzero]
    exact .inl nofun
  | false =>
    rw [ofDouble_of_ne_zero hzero]
    exact hdigits _ _

end Json.Numeral

namespace Double

variable {x : Double}

theorem reread?_eq (x : Double) : x.reread? =
    if x.isFinite then (Json.Numeral.ofDouble x).double? else none := by
  have hparse : Json.Tree.parse? (Json.doubleText x) = some (Json.tree (.number x)) :=
    Json.parse?_compact (.number x)
  rw [reread?, Json.read?, hparse, Option.bind_some, Json.tree]
  split <;> rfl

/-- What is not a number or infinite is not read back. -/
theorem reread?_of_not_finite (h : x.isFinite = false) : x.reread? = none := by
  rw [reread?_eq, h]
  rfl

/-- A word with few digits is read back as it was. -/
theorem reread?_of_short (hfinite : x.isFinite = true) (h : (Json.Numeral.ofDouble x).Short) :
    x.reread? = some x := by
  rw [reread?_eq, if_pos hfinite]
  exact Json.Numeral.double?_eq (Json.Numeral.point_ofDouble x)
    (Json.Numeral.all_ofDouble_lt hfinite) h (Json.Numeral.negative_ofDouble x) hfinite
    (Json.Numeral.nearest_ofDouble hfinite)

end Double

end TripRecorder
