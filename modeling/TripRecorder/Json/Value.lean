import TripRecorder.Json.Number

/-!
# Values of JSON text

## Main definitions

* `Json.Tree.text?` — the characters a spelled string stands for
* `Json.Tree.value?` — the value a tree stands for, its containers nested to a bounded depth
* `Json.parse?` — the value of a text
-/

namespace TripRecorder.Json

namespace Piece

/-- A high and a low surrogate stand for one character; neither stands alone. -/
def chars? : List Piece → Option (List Char)
  | [] => some []
  | .char c :: rest => (chars? rest).map (c :: ·)
  | .unit n :: rest =>
    if n < 0xD800 ∨ 0xDFFF < n then (chars? rest).map (Char.ofNat n :: ·)
    else if 0xDBFF < n then none
    else
      match rest with
      | .unit m :: rest =>
        if 0xDC00 ≤ m ∧ m ≤ 0xDFFF then
          (chars? rest).map (Char.ofNat (0x10000 + (n - 0xD800) * 0x400 + (m - 0xDC00)) :: ·)
        else none
      | _ => none

end Piece

namespace Tree

/-- Containers are read to this depth, exclusive. -/
def depthLimit : Nat := 128

/-- The text a spelled string stands for. -/
def textOf? (pieces : List Piece) : Option String := (Piece.chars? pieces).map String.ofList

/-- The text of a string. -/
def text? : Tree → Option String
  | string pieces => textOf? pieces
  | _ => none

mutual

/-- The value a tree stands for when containers may nest less deep than `depth`. Members are
sorted, the last of one name kept. -/
def value? (depth : Nat) : Tree → Option Json
  | .null => some .null
  | .bool b => some (.bool b)
  | .number n => n.toJson?
  | .string pieces => (textOf? pieces).map .string
  | .array items => if depth ≤ 1 then none else (values? (depth - 1) items).map .array
  | .object ms =>
    if depth ≤ 1 then none else (memberValues? (depth - 1) ms).map fun ms => .object (sorted ms)
termination_by structural t => t

/-- The values of the elements of an array. -/
def values? (depth : Nat) : List Tree → Option (List Json)
  | [] => some []
  | t :: rest =>
    match value? depth t, values? depth rest with
    | some v, some vs => some (v :: vs)
    | _, _ => none
termination_by structural ts => ts

/-- The values of the members of an object, in the order of the text. -/
def memberValues? (depth : Nat) : List (List Piece × Tree) → Option (List (String × Json))
  | [] => some []
  | m :: rest =>
    match memberValue? depth m, memberValues? depth rest with
    | some v, some vs => some (v :: vs)
    | _, _ => none
termination_by structural ms => ms

/-- The name and the value of a member. -/
def memberValue? (depth : Nat) : List Piece × Tree → Option (String × Json)
  | (name, t) =>
    match textOf? name, value? depth t with
    | some name, some v => some (name, v)
    | _, _ => none
termination_by structural m => m

end

end Tree

/-- The value of a text, `none` if it is not JSON or nests too deep. -/
def parse? (text : String) : Option Json := (Tree.parse? text).bind (Tree.value? Tree.depthLimit)

end TripRecorder.Json
