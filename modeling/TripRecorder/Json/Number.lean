import TripRecorder.Json.Basic
import TripRecorder.Json.Tree

/-!
# Numbers of JSON text

An integer in the range of 64 bits, signed or not, stays an integer; every other number is a
floating-point word. The word comes from as many leading digits as fit 64 bits and one power of
ten, so it may lie beside the nearest one.

## Main definitions

* `Json.Numeral.toJson?` — the value of a spelled number, `none` beyond the largest word
-/

namespace TripRecorder.Json.Numeral

/-- The significand is a natural number below this bound. -/
def significandBound : Nat := UInt64.size

/-- Appends digits to a significand as long as it stays below the bound; the digits left over
begin with the first that does not fit. -/
def accumulate (significand : Nat) : List Nat → Nat × List Nat
  | [] => (significand, [])
  | d :: ds =>
    if significand * 10 + d < significandBound then accumulate (significand * 10 + d) ds
    else (significand, d :: ds)

/-- The largest exponent a text may spell. -/
def exponentBound : Nat := 0x80000000

/-- The word of a power of ten up to the 308th. -/
def powerOfTen (n : Nat) : Double := Double.ofNat (Nat.pow 10 n)

/-- A positive power of ten scales a word by one product, a negative one by quotients of at most
308 places each. -/
def scaled? : Nat → Double → Int → Option Double
  | 0, _, _ => none
  | fuel + 1, f, e =>
    if e.natAbs ≤ 308 then
      if 0 ≤ e then
        let product := f.mul (powerOfTen e.natAbs)
        if product.isFinite then some product else none
      else some (f.div (powerOfTen e.natAbs))
    else if f.isZero then some f
    else if 0 ≤ e then none
    else scaled? fuel (f.div (powerOfTen 308)) (e + 308)

/-- A word that is not zero vanishes within a few quotients. -/
def scalingFuel : Nat := 16

/-- The value of decimal digits. -/
def valueOf (ds : List Nat) : Nat := ds.foldl (fun n d => n * 10 + d) 0

/-- The significand of a number and its power of ten before an exponent is applied: digits dropped
before the point raise it, digits kept after the point lower it. -/
def parts (n : Numeral) : Nat × Int :=
  let (whole, dropped) := accumulate 0 n.whole
  let after := n.fraction.getD []
  let (significand, left) := accumulate whole after
  (significand, (dropped.length : Int) + left.length - after.length)

/-- The floating-point word of a number without its sign. -/
def magnitude? (n : Numeral) : Option Double :=
  let (significand, power) := n.parts
  let f := Double.ofNat significand
  match n.exponent with
  | none => scaled? scalingFuel f power
  | some (negative, ds) =>
    let e := valueOf ds
    if e < exponentBound then scaled? scalingFuel f (if negative then power - e else power + e)
    else if significand = 0 ∨ negative then some Double.zero
    else none

/-- The integer a number without point and exponent spells, if it fits 64 bits. Minus zero is not
an integer. -/
def integer? (n : Numeral) : Option Int :=
  match n.fraction, n.exponent with
  | none, none =>
    let v := valueOf n.whole
    if n.negative then if 0 < v ∧ v ≤ 0x8000000000000000 then some (-(v : Int)) else none
    else if v < significandBound then some v else none
  | _, _ => none

/-- The floating-point word of a number, an integer being rounded to the nearest word. -/
def double? (n : Numeral) : Option Double :=
  match n.integer? with
  | some i => some (Double.ofInt i)
  | none => n.magnitude?.map fun x => if n.negative then x.neg else x

/-- The value of a spelled number, `none` beyond the largest word. -/
def toJson? (n : Numeral) : Option Json :=
  match n.integer? with
  | some i => some (.integer i)
  | none => n.double?.map .number

end TripRecorder.Json.Numeral
