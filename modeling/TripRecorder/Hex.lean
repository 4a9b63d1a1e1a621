/-!
# Hexadecimal text

## Main definitions

* `Hex.encode`, `Hex.decode?` — bytes as pairs of digits in lower case, and back
-/

namespace TripRecorder.Hex

/-- The value of a hexadecimal digit in either case. -/
def digit? (c : Char) : Option Nat :=
  if '0' ≤ c ∧ c ≤ '9' then some (c.toNat - 48)
  else if 'a' ≤ c ∧ c ≤ 'f' then some (c.toNat - 87)
  else if 'A' ≤ c ∧ c ≤ 'F' then some (c.toNat - 55)
  else none

/-- The digits of some bytes. -/
def encode (bytes : List UInt8) : String :=
  String.ofList (bytes.flatMap fun b =>
    [Nat.digitChar (b.toNat / 16), Nat.digitChar (b.toNat % 16)])

/-- The bytes of some digits. -/
def decodeChars? : List Char → Option (List UInt8)
  | [] => some []
  | high :: low :: rest => do
    let h ← digit? high
    let l ← digit? low
    return UInt8.ofNat (16 * h + l) :: (← decodeChars? rest)
  | [_] => none

/-- The bytes of a text of digits. -/
def decode? (text : String) : Option (List UInt8) := decodeChars? text.toList

end TripRecorder.Hex
