import TripRecorder.Json.Value

/-!
# Reading records

A record is an object whose members are told apart by name, or an array of its fields in order.
Members that are no field are ignored, whatever they hold; a field given twice is an error.

## Main definitions

* `Json.Record.fields?` — the trees of the fields of a record that has to be complete
* `Json.Record.partialFields?` — the trees of the fields of a record whose fields have defaults
* `Json.Record.required`, `Json.Record.optional`, `Json.Record.defaulted` — readers of one field
* `Json.Coded` — types with a reader and a JSON value
-/

namespace TripRecorder.Json

/-- A type whose values are read from syntax trees and have a JSON value. -/
class Coded (α : Type) where
  /-- The value a tree spells. -/
  ofTree? : Tree → Option α
  /-- The JSON value written for a value. -/
  toJson : α → Json

export Coded (ofTree? toJson)

/-- The value a text spells. -/
def read? (α : Type) [Coded α] (text : String) : Option α := (Tree.parse? text).bind ofTree?

namespace Record

/-- The tree of the field with a name among named members: `none` if it is given twice. -/
def field? (members : List (String × Tree)) (name : String) : Option (Option Tree) :=
  match members.filter fun m => m.1 == name with
  | [] => some none
  | [m] => some (some m.2)
  | _ => none

/-- The members of an object with their names read. -/
def named? (members : List (List Piece × Tree)) : Option (List (String × Tree)) :=
  members.mapM fun m => (Tree.textOf? m.1).map fun name => (name, m.2)

/-- The trees of named fields in an object. -/
def ofObject? (names : List String) (members : List (List Piece × Tree)) :
    Option (List (Option Tree)) := do
  let members ← named? members
  names.mapM (field? members)

/-- The trees of the fields of a record. The array form has all of them. -/
def fields? (names : List String) : Tree → Option (List (Option Tree))
  | .object members => ofObject? names members
  | .array items => if items.length = names.length then some (items.map some) else none
  | _ => none

/-- The trees of the fields of a record with defaults. The array form may end early. -/
def partialFields? (names : List String) : Tree → Option (List (Option Tree))
  | .object members => ofObject? names members
  | .array items =>
    if items.length ≤ names.length then
      some (items.map some ++ List.replicate (names.length - items.length) none)
    else none
  | _ => none

/-- A field that has to be there. -/
def required (α : Type) [Coded α] : Option Tree → Option α
  | some t => ofTree? t
  | none => none

/-- A field with a value for its absence. -/
def defaulted {α : Type} [Coded α] (absent : α) : Option Tree → Option α
  | some t => ofTree? t
  | none => some absent

end Record

/-! ### Plain values -/

namespace Tree

/-- The integer a tree spells. -/
def integer? : Tree → Option Int
  | .number n => n.integer?
  | _ => none

/-- The natural number below a bound that a tree spells. -/
def natBelow? (bound : Nat) (t : Tree) : Option Nat :=
  match t.integer? with
  | some (.ofNat n) => if n < bound then some n else none
  | _ => none

/-- The name of a case without data: a string, or an object with the name and `null`. -/
def caseName? : Tree → Option String
  | .string pieces => textOf? pieces
  | .object [(name, .null)] => textOf? name
  | _ => none

end Tree

/-- An integer between the ends of 64 bits with sign. -/
def signed? (t : Tree) : Option Int64 :=
  match t.integer? with
  | some i => if i ≤ Int64.maxValue.toInt then some (Int64.ofInt i) else none
  | none => none

instance : Coded Int64 := ⟨signed?, fun i => .integer i.toInt⟩

instance : Coded Double :=
  ⟨fun t => match t with
    | .number n => n.double?
    | _ => none, .number⟩

instance : Coded Bool :=
  ⟨fun t => match t with
    | .bool b => some b
    | _ => none, .bool⟩

instance : Coded String := ⟨Tree.text?, .string⟩

/-- Natural numbers are those of 64 bits. -/
instance : Coded Nat := ⟨Tree.natBelow? UInt64.size, .nat⟩

instance : Coded UInt32 :=
  ⟨fun t => (t.natBelow? UInt32.size).map UInt32.ofNat, fun n => .nat n.toNat⟩

instance {α : Type} [Coded α] : Coded (List α) :=
  ⟨fun t => match t with
    | .array items => items.mapM ofTree?
    | _ => none, fun xs => .array (xs.map toJson)⟩

/-- A value that may be absent is written as `null`. -/
instance {α : Type} [Coded α] : Coded (Option α) :=
  ⟨fun t => match t with
    | .null => some none
    | t => (ofTree? t).map some, fun x => Json.option toJson x⟩

/-- A field that may be missing or `null`. -/
def Record.optional (α : Type) [Coded α] : Option Tree → Option (Option α) :=
  Record.defaulted none

/-- A case without data among all cases of a type, told apart by name. -/
def caseOf? {α : Type} (cases : List α) (name : α → String) (t : Tree) : Option α :=
  t.caseName?.bind fun n => cases.find? fun a => name a == n

end TripRecorder.Json
