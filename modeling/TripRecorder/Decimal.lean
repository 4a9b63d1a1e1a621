import TripRecorder.Double

/-!
# Decimal text of floating-point words

The shortest decimal number that reads back as a word, and its positional text with a fixed
number of places.

## Main definitions

* `Decimal` — an integer coefficient times a power of ten
* `Decimal.nearest` — the word nearest to a decimal number
* `Decimal.shortest` — the fewest digits that read back as the word, and of those the nearest
* `Decimal.fixed` — the text with a fixed number of places
-/

namespace TripRecorder

/-- The decimal number `coefficient * 10 ^ exponent`. -/
structure Decimal where
  coefficient : Nat
  exponent : Int
deriving DecidableEq, Repr

namespace Decimal

/-- The number as a numerator and a denominator. -/
def ratio (x : Decimal) : Nat × Nat :=
  (x.coefficient * Nat.pow 10 x.exponent.toNat, Nat.pow 10 (-x.exponent).toNat)

/-- The payload of the word nearest to the number. -/
def nearest (x : Decimal) : Nat := Double.payloadOfRatio x.ratio.1 x.ratio.2

/-- The decimal digits of a natural number, most significant first. -/
def digits (n : Nat) : List Char := Nat.toDigits 10 n

/-- The power of ten of the leading digit of a positive word: the digits of its four hundredth
decimal multiple are counted, which is at least one also for the smallest word. -/
def leading (x : Double) : Int :=
  (digits (x.numerator * Nat.pow 10 400 / Double.denominator)).length - 401

/-- The two multiples of `10 ^ unit` around a positive word, the nearer first and of equally near
ones the even first. -/
def neighbours (x : Double) (unit : Int) : List Decimal :=
  let n := x.numerator * Nat.pow 10 (-unit).toNat
  let d := Double.denominator * Nat.pow 10 unit.toNat
  let q := n / d
  let below : Decimal := ⟨q, unit⟩
  let above : Decimal := ⟨q + 1, unit⟩
  if 2 * (n % d) < d then [below, above]
  else if d < 2 * (n % d) then [above, below]
  else if q % 2 = 0 then [below, above] else [above, below]

/-- Trailing zeros of the coefficient, at most `fuel` of them, move into the exponent. -/
def trim : Nat → Decimal → Decimal
  | 0, x => x
  | fuel + 1, x =>
    if x.coefficient % 10 = 0 then trim fuel ⟨x.coefficient / 10, x.exponent + 1⟩ else x

/-- The exact decimal value of a word. -/
def exact (x : Double) : Decimal := ⟨x.numerator * Nat.pow 5 1074, -1074⟩

/-- The fewest digits that read back as a positive finite word, and of those the nearest. No word
needs more than seventeen. -/
def shortest (x : Double) : Decimal :=
  let top := leading x
  let candidates := (List.range 17).flatMap fun (k : Nat) => neighbours x (top - k)
  let found := (candidates.find? fun c => c.nearest = x.payload).getD (exact x)
  trim 20 found

/-- The text of a finite word with a fixed number of places, a tie going to the even neighbour.
A value that rounds to zero has no sign. -/
def fixed (places : Nat) (x : Double) : String :=
  let scaled := Double.divToEven (x.numerator * Nat.pow 10 places) Double.denominator
  let ds := digits scaled
  let padded := List.replicate (places + 1 - ds.length) '0' ++ ds
  let whole := padded.take (padded.length - places)
  let rest := padded.drop (padded.length - places)
  let sign := if x.negative && scaled != 0 then ['-'] else []
  String.ofList (sign ++ whole ++ (if places = 0 then [] else '.' :: rest))

end Decimal

end TripRecorder
