import Mathlib.Data.List.Basic
import Mathlib.Data.List.TakeWhile
import TripRecorder.Json.Number
import TripRecorder.Json.Printer
import TripRecorder.Proofs.Decimal

/-!
# Spelled numbers

A number on paper ends where no digit, point or exponent follows. Up to there, reading it gives
back its digits, and these are all that a printed integer or floating-point word consists of.

## Main definitions

* `Json.Numeral.WellFormed`, `Json.Numeral.chars` — digits where they are needed, and how they are
  written
* `Json.Ends` — a text that does not go on with a number
* `Json.Numeral.ofInt`, `Json.Numeral.ofDouble` — the digits of printed numbers

## Main results

* `Json.Numeral.scalar?_chars` — a number that was written is read
* `Json.Numeral.chars_ofInt`, `Json.Numeral.chars_ofDouble` — printed numbers are written so
-/

namespace TripRecorder.Json

/-! ### Digits -/

/-- The digits of a natural number, most significant first. -/
def decimals (n : Nat) : List Nat := (natChars n).map fun c => c.toNat - '0'.toNat

/-- The characters of digits. -/
def figureChars (ds : List Nat) : List Char := ds.map Nat.digitChar

/-- Some digits, and at least one. -/
structure Figures (ds : List Nat) : Prop where
  ne_nil : ds ≠ []
  lt_ten : ∀ d ∈ ds, d < 10

/-- No digit follows. -/
def NoDigit (rest : List Char) : Prop := ∀ c t, rest = c :: t → c.isDigit = false

section Digits

variable {ds : List Nat} {rest : List Char} {n : Nat}

theorem toNat_of_isDigit {c : Char} (h : c.isDigit = true) : 48 ≤ c.toNat ∧ c.toNat < 58 := by
  rw [Char.isDigit, Bool.and_eq_true, decide_eq_true_eq, decide_eq_true_eq] at h
  exact ⟨UInt32.le_iff_toNat_le.mp h.1, Nat.lt_succ_of_le (UInt32.le_iff_toNat_le.mp h.2)⟩

theorem digitChar_toNat {c : Char} (h : c.isDigit = true) :
    Nat.digitChar (c.toNat - '0'.toNat) = c := by
  obtain ⟨hlow, hhigh⟩ := toNat_of_isDigit h
  have hall : ∀ n < 58, 48 ≤ n → Nat.digitChar (n - '0'.toNat) = Char.ofNat n := by decide
  rw [hall _ hhigh hlow, Char.ofNat_toNat]

theorem toNat_digitChar {d : Nat} (h : d < 10) : (Nat.digitChar d).toNat - '0'.toNat = d := by
  have hall : ∀ d < 10, (Nat.digitChar d).toNat - '0'.toNat = d := by decide
  exact hall d h

theorem isDigit_of_mem_natChars {c : Char} (h : c ∈ natChars n) : c.isDigit = true :=
  Nat.isDigit_of_mem_toDigits (by decide) (by decide) h

theorem isDigit_of_mem_figureChars (h : ∀ d ∈ ds, d < 10) :
    ∀ c ∈ figureChars ds, c.isDigit = true := by
  intro c hc
  obtain ⟨d, hd, rfl⟩ := List.mem_map.mp hc
  rw [Nat.isDigit_digitChar, decide_eq_true_eq]
  exact h d hd

/-- The digits of a number are its characters. -/
theorem figureChars_decimals (n : Nat) : figureChars (decimals n) = natChars n := by
  rw [figureChars, decimals, List.map_map]
  refine (List.map_congr_left fun c hc => ?_).trans (List.map_id _)
  exact digitChar_toNat (isDigit_of_mem_natChars hc)

theorem figures_decimals (n : Nat) : Figures (decimals n) := by
  refine ⟨?_, fun d hd => ?_⟩
  · rw [decimals, ne_eq, List.map_eq_nil_iff]
    exact Nat.toDigits_ne_nil
  · obtain ⟨c, hc, rfl⟩ := List.mem_map.mp hd
    obtain ⟨hlow, hhigh⟩ := toNat_of_isDigit (isDigit_of_mem_natChars hc)
    show c.toNat - 48 < 10
    omega

theorem decimals_of_lt (h : n < 10) : decimals n = [n] := by
  rw [decimals, natChars, Nat.toDigits_of_lt_base h, List.map_singleton, toNat_digitChar h]

theorem decimals_of_ge (h : 10 ≤ n) : decimals n = decimals (n / 10) ++ [n % 10] := by
  rw [decimals, natChars, Nat.toDigits_of_base_le (by decide) h, List.map_append,
    List.map_singleton, toNat_digitChar (Nat.mod_lt _ (by decide))]
  rfl

/-- No zero leads the digits of a positive number. -/
theorem decimals_of_pos (h : 0 < n) : ∃ d ds, decimals n = d :: ds ∧ d ≠ 0 := by
  induction n using Nat.strongRecOn with
  | ind n ih =>
    rcases Nat.lt_or_ge n 10 with hlt | hge
    · exact ⟨n, [], decimals_of_lt hlt, h.ne'⟩
    · -- The leading digit is that of a tenth of the number.
      obtain ⟨d, ds, heq, hd⟩ := ih (n / 10) (by omega) (by omega)
      exact ⟨d, ds ++ [n % 10], by rw [decimals_of_ge hge, heq]; rfl, hd⟩

/-- All digits are read until something else follows. -/
theorem digits_figureChars (h : ∀ d ∈ ds, d < 10) (hrest : NoDigit rest) :
    Tree.digits (figureChars ds ++ rest) = (ds, rest) := by
  have hall := isDigit_of_mem_figureChars h
  have hstop : rest.takeWhile Char.isDigit = [] ∧ rest.dropWhile Char.isDigit = rest := by
    cases rest with
    | nil => exact ⟨rfl, rfl⟩
    | cons c t =>
      have hc := hrest c t rfl
      simp [hc]
  have hvalues : (figureChars ds).map (fun c => c.toNat - '0'.toNat) = ds := by
    rw [figureChars, List.map_map]
    exact (List.map_congr_left fun d hd => toNat_digitChar (h d hd)).trans (List.map_id _)
  rw [Tree.digits, List.takeWhile_append_of_pos hall, List.dropWhile_append_of_pos hall, hstop.1,
    hstop.2, List.append_nil, hvalues]

end Digits

/-! ### Reading a number that was written -/

/-- The text does not go on with a number. -/
def Ends (rest : List Char) : Prop :=
  ∀ c t, rest = c :: t → c.isDigit = false ∧ c ≠ '.' ∧ c ≠ 'e' ∧ c ≠ 'E'

namespace Numeral

/-- Digits stand where they are needed, and no zero leads others. -/
structure WellFormed (n : Numeral) : Prop where
  whole : Figures n.whole
  lead : ∀ d ds, n.whole ≠ 0 :: d :: ds
  fraction : ∀ ds, n.fraction = some ds → Figures ds
  exponent : ∀ sign ds, n.exponent = some (sign, ds) → Figures ds

/-- The digits after the point. -/
def fractionChars : Option (List Nat) → List Char
  | some ds => '.' :: figureChars ds
  | none => []

/-- The exponent with its sign. -/
def exponentChars : Option (Bool × List Nat) → List Char
  | some (negative, ds) => 'e' :: (if negative then '-' else '+') :: figureChars ds
  | none => []

/-- A number without its sign. -/
def unsignedChars (n : Numeral) : List Char :=
  figureChars n.whole ++ fractionChars n.fraction ++ exponentChars n.exponent

/-- How a number is written. -/
def chars (n : Numeral) : List Char :=
  (if n.negative then ['-'] else []) ++ n.unsignedChars

variable {n : Numeral} {rest : List Char}

theorem fraction?_fractionChars {fraction : Option (List Nat)}
    (h : ∀ ds, fraction = some ds → Figures ds) (hdigit : NoDigit rest)
    (hpoint : ∀ t, rest ≠ '.' :: t) :
    Tree.fraction? (fractionChars fraction ++ rest) = some (fraction, rest) := by
  cases fraction with
  | none =>
    show Tree.fraction? rest = _
    unfold Tree.fraction?
    split
    · exact absurd rfl (hpoint _)
    · rfl
  | some ds =>
    obtain ⟨hnil, hlt⟩ := h ds rfl
    show Tree.fraction? ('.' :: (figureChars ds ++ rest)) = _
    rw [Tree.fraction?, digits_figureChars hlt hdigit]
    cases ds with
    | nil => exact absurd rfl hnil
    | cons d ds => rfl

theorem exponentDigits?_figureChars {ds : List Nat} (h : Figures ds) (hdigit : NoDigit rest)
    (negative : Bool) :
    Tree.exponentDigits? negative (figureChars ds ++ rest) =
      some (some (negative, ds), rest) := by
  obtain ⟨hnil, hlt⟩ := h
  rw [Tree.exponentDigits?, digits_figureChars hlt hdigit]
  cases ds with
  | nil => exact absurd rfl hnil
  | cons d ds => rfl

theorem exponent?_exponentChars {exponent : Option (Bool × List Nat)}
    (h : ∀ sign ds, exponent = some (sign, ds) → Figures ds) (hrest : Ends rest) :
    Tree.exponent? (exponentChars exponent ++ rest) = some (exponent, rest) := by
  have hdigit : NoDigit rest := fun c t heq => (hrest c t heq).1
  cases exponent with
  | none =>
    cases rest with
    | nil => rfl
    | cons c t =>
      obtain ⟨-, -, hlower, hupper⟩ := hrest c t rfl
      exact if_neg (not_or.mpr ⟨hlower, hupper⟩)
  | some e =>
    obtain ⟨negative, ds⟩ := e
    have hfigures := h negative ds rfl
    cases negative with
    | true => exact exponentDigits?_figureChars hfigures hdigit true
    | false => exact exponentDigits?_figureChars hfigures hdigit false

/-- A number that was written is read, and what follows is left. -/
theorem numeral?_unsignedChars (h : n.WellFormed) (hrest : Ends rest) :
    Tree.numeral? n.negative (n.unsignedChars ++ rest) = some (n, rest) := by
  have hexponent := exponent?_exponentChars h.exponent hrest
  -- Each part ends where the next one begins: no exponent begins with a digit or a point, nor does
  -- what follows the number.
  have hdigit : NoDigit (exponentChars n.exponent ++ rest) := by
    intro c t heq
    cases hn : n.exponent with
    | none => exact (hrest c t (by rwa [hn] at heq)).1
    | some e =>
      rw [hn] at heq
      obtain ⟨rfl, -⟩ := List.cons.inj heq
      rfl
  have hpoint : ∀ t, exponentChars n.exponent ++ rest ≠ '.' :: t := by
    intro t heq
    cases hn : n.exponent with
    | none => exact (hrest '.' t (by rwa [hn] at heq)).2.1 rfl
    | some e =>
      rw [hn] at heq
      have hc := (List.cons.inj heq).1
      cases hc
  have hfraction := fraction?_fractionChars h.fraction hdigit hpoint
  have hdigit' : NoDigit (fractionChars n.fraction ++ (exponentChars n.exponent ++ rest)) := by
    intro c t heq
    cases hn : n.fraction with
    | none => exact hdigit c t (by rwa [hn] at heq)
    | some ds =>
      rw [hn] at heq
      obtain ⟨rfl, -⟩ := List.cons.inj heq
      rfl
  have hwhole := digits_figureChars h.whole.lt_ten hdigit'
  rw [unsignedChars, List.append_assoc, List.append_assoc, Tree.numeral?, hwhole]
  -- The reader refuses a number without digits, and one with a leading zero.
  split
  · rename_i heq
    exact absurd (congrArg Prod.fst heq) h.whole.ne_nil
  · rename_i heq
    exact absurd (congrArg Prod.fst heq) (h.lead _ _)
  · rename_i heq
    obtain ⟨rfl, rfl⟩ := Prod.mk.inj heq
    simp [hfraction, hexponent]

/-- A number begins with a digit. -/
theorem exists_unsignedChars (h : n.WellFormed) :
    ∃ c t, n.unsignedChars = c :: t ∧ c.isDigit = true := by
  obtain ⟨hnil, hlt⟩ := h.whole
  have hall := isDigit_of_mem_figureChars hlt
  unfold unsignedChars
  cases hwhole : n.whole with
  | nil => exact absurd hwhole hnil
  | cons d ds =>
    rw [hwhole] at hall
    exact ⟨_, _, rfl, hall _ List.mem_cons_self⟩

/-- A number begins with a minus sign or a digit. -/
theorem exists_chars (h : n.WellFormed) :
    ∃ c t, n.chars = c :: t ∧ (c = '-' ∨ c.isDigit = true) := by
  obtain ⟨c, t, heq, hdigit⟩ := exists_unsignedChars h
  unfold chars
  cases n.negative with
  | true => exact ⟨'-', n.unsignedChars, rfl, .inl rfl⟩
  | false => exact ⟨c, t, heq, .inr hdigit⟩

theorem scalar?_of_isDigit {c : Char} (h : c.isDigit = true) (t : List Char) :
    Tree.scalar? (c :: t) = (Tree.numeral? false (c :: t)).map fun r => (.number r.1, r.2) := by
  unfold Tree.scalar?
  split
  all_goals first
    | rfl
    | rename_i heq
      obtain ⟨rfl, -⟩ := List.cons.inj heq
      cases h

/-- A number that was written is read, and what follows is left. -/
theorem scalar?_chars (h : n.WellFormed) (hrest : Ends rest) :
    Tree.scalar? (n.chars ++ rest) = some (.number n, rest) := by
  have hread := numeral?_unsignedChars h hrest
  unfold chars
  cases hsign : n.negative with
  | true =>
    rw [hsign] at hread
    show (Tree.numeral? true (n.unsignedChars ++ rest)).map _ = _
    rw [hread]
    rfl
  | false =>
    obtain ⟨c, t, heq, hdigit⟩ := exists_unsignedChars h
    rw [hsign, heq, List.cons_append] at hread
    show Tree.scalar? (n.unsignedChars ++ rest) = _
    rw [heq, List.cons_append, scalar?_of_isDigit hdigit, hread]
    rfl

/-! ### Printed numbers -/

/-- The digits of an integer. -/
def ofInt (i : Int) : Numeral := ⟨decide (i < 0), decimals i.natAbs, none, none⟩

/-- Digits of which the first stands for a power of ten. -/
def ofDigits (negative : Bool) (ds : List Nat) (power : Int) : Numeral :=
  if leastPositional ≤ power ∧ power < firstExponential then
    if 0 ≤ power then
      let whole := power.toNat + 1
      let rest := ds.drop whole
      ⟨negative, ds.take whole ++ List.replicate (whole - ds.length) 0,
        some (if rest.isEmpty then [0] else rest), none⟩
    else ⟨negative, [0], some (List.replicate ((-power).toNat - 1) 0 ++ ds), none⟩
  else
    let rest := ds.drop 1
    ⟨negative, ds.take 1, if rest.isEmpty then none else some rest,
      some (decide (power < 0), decimals power.natAbs)⟩

/-- The digits of a word. -/
def ofDouble (x : Double) : Numeral :=
  if x.isZero then ⟨x.negative, [0], some [0], none⟩
  else
    let d := Decimal.shortest x
    let ds := decimals d.coefficient
    ofDigits x.negative ds (ds.length - 1 + d.exponent)

theorem wellFormed_ofInt (i : Int) : (ofInt i).WellFormed where
  whole := figures_decimals i.natAbs
  lead d ds heq := by
    rcases Nat.eq_zero_or_pos i.natAbs with hzero | hpos
    · rw [ofInt, hzero, decimals_of_lt (by decide)] at heq
      cases heq
    · obtain ⟨first, others, hdecimals, hfirst⟩ := decimals_of_pos hpos
      rw [ofInt, hdecimals] at heq
      exact hfirst (List.cons.inj heq).1
  fraction _ heq := by cases heq
  exponent _ _ heq := by cases heq

theorem chars_ofInt (i : Int) : (ofInt i).chars = intChars i := by
  simp only [chars, unsignedChars, ofInt, fractionChars, exponentChars, List.append_nil,
    figureChars_decimals, intChars, decide_eq_true_eq]
  split <;> rfl

theorem figures_orZero {ds : List Nat} (h : ∀ d ∈ ds, d < 10) :
    Figures (if ds.isEmpty then [0] else ds) := by
  cases ds with
  | nil => exact ⟨by decide, by decide⟩
  | cons d ds => exact ⟨by simp, h⟩

/-- Digits that no zero leads make a number. -/
theorem wellFormed_ofDigits (negative : Bool) {d : Nat} {ds : List Nat}
    (h : ∀ d' ∈ d :: ds, d' < 10) (hd : d ≠ 0) (power : Int) :
    (ofDigits negative (d :: ds) power).WellFormed := by
  have hds : ∀ d' ∈ ds, d' < 10 := fun d' hd' => h d' (List.mem_cons_of_mem _ hd')
  unfold ofDigits
  split
  · split
    · -- The point stands among the digits, or behind zeros that follow them.
      refine ⟨⟨by simp, ?_⟩, ?_, ?_, nofun⟩
      · intro d' hd'
        rcases List.mem_append.mp hd' with hmem | hmem
        · exact h d' (List.mem_of_mem_take hmem)
        · rw [List.eq_of_mem_replicate hmem]
          decide
      · intro d' ds' heq
        exact hd (List.cons.inj heq).1
      · intro ds' heq
        obtain rfl := Option.some.inj heq
        exact figures_orZero fun d' hd' => h d' (List.mem_of_mem_drop hd')
    · -- Zeros stand between the point and the digits.
      refine ⟨⟨by simp, by simp⟩, nofun, ?_, nofun⟩
      intro ds' heq
      obtain rfl := Option.some.inj heq
      refine ⟨by simp, fun d' hd' => ?_⟩
      rcases List.mem_append.mp hd' with hmem | hmem
      · rw [List.eq_of_mem_replicate hmem]
        decide
      · exact h d' hmem
  · -- One digit stands before the point, and a power of ten follows.
    refine ⟨⟨by simp, ?_⟩, nofun, ?_, ?_⟩
    · intro d' hd'
      exact h d' (List.mem_of_mem_take hd')
    · intro ds' heq
      cases ds with
      | nil => cases heq
      | cons next others =>
        obtain rfl := Option.some.inj heq
        exact ⟨by simp, hds⟩
    · intro sign ds' heq
      obtain ⟨rfl, rfl⟩ := Prod.mk.inj (Option.some.inj heq)
      exact figures_decimals _

theorem chars_ofDigits (negative : Bool) (ds : List Nat) (power : Int) :
    (ofDigits negative ds power).chars =
      (if negative then ['-'] else []) ++ digitsChars (figureChars ds) power := by
  unfold ofDigits digitsChars
  split
  · split
    · simp only [chars, unsignedChars, fractionChars, exponentChars, figureChars]
      cases hrest : ds.drop (power.toNat + 1) <;>
        simp [← List.map_drop, ← List.map_take, hrest, Nat.digitChar]
    · simp [chars, unsignedChars, fractionChars, exponentChars, figureChars, Nat.digitChar]
  · simp only [chars, unsignedChars, fractionChars, exponentChars, figureChars_decimals]
    cases hrest : ds.drop 1 <;>
      simp [figureChars, ← List.map_drop, ← List.map_take, hrest]

theorem wellFormed_ofDouble {x : Double} (hfinite : x.isFinite = true) :
    (ofDouble x).WellFormed := by
  unfold ofDouble
  cases hzero : x.isZero with
  | true =>
    have hfigures : Figures [0] := ⟨by decide, by decide⟩
    refine ⟨hfigures, nofun, fun ds heq => ?_, nofun⟩
    obtain rfl := Option.some.inj heq
    exact hfigures
  | false =>
    have hpos := Nat.pos_of_ne_zero (Decimal.coefficient_shortest_ne_zero hfinite hzero)
    obtain ⟨d, ds, heq, hd⟩ := decimals_of_pos hpos
    have hlt := (figures_decimals (Decimal.shortest x).coefficient).lt_ten
    simp only [Bool.false_eq_true, if_false]
    rw [heq] at hlt ⊢
    exact wellFormed_ofDigits _ hlt hd _

/-- A finite word is printed as its digits. -/
theorem chars_ofDouble {x : Double} (hfinite : x.isFinite = true) :
    (ofDouble x).chars = doubleChars x := by
  unfold ofDouble doubleChars
  rw [if_pos hfinite]
  cases hzero : x.isZero with
  | true => rfl
  | false =>
    have hlength : (decimals (Decimal.shortest x).coefficient).length =
        (Decimal.digits (Decimal.shortest x).coefficient).length := List.length_map _
    simp only [Bool.false_eq_true, if_false, chars_ofDigits, figureChars_decimals, hlength]
    rfl

end Numeral

end TripRecorder.Json
