import TripRecorder.Decimal

/-!
# JSON values

## Main definitions

* `Json` — a JSON value whose numbers are integers of 64 bits or floating-point words
* `Json.sorted` — an object whose members are sorted by name, the last of one name kept
* `Json.get?` — the member of an object under a name
-/

namespace TripRecorder

/-- A JSON value. -/
inductive Json where
  | null
  | bool (value : Bool)
  | integer (value : Int)
  | number (value : Double)
  | string (value : String)
  | array (items : List Json)
  | object (members : List (String × Json))
deriving Inhabited

namespace Json

/-- A natural number. -/
def nat (n : Nat) : Json := integer n

/-- A value that may be absent. -/
def option {α : Type} (encode : α → Json) : Option α → Json
  | none => null
  | some a => encode a

/-- Puts a member into members sorted by name, in place of one with the same name. -/
def insertMember (name : String) (value : Json) : List (String × Json) → List (String × Json)
  | [] => [(name, value)]
  | (other, kept) :: rest =>
    if name < other then (name, value) :: (other, kept) :: rest
    else if name = other then (name, value) :: rest
    else (other, kept) :: insertMember name value rest

/-- The members sorted by the code points of their names, the last of one name kept. -/
def sorted (members : List (String × Json)) : List (String × Json) :=
  members.foldl (fun done m => insertMember m.1 m.2 done) []

/-- The member of an object under a name. -/
def get? : Json → String → Option Json
  | object members, name => members.lookup name
  | _, _ => none

/-- The text of a string value. -/
def text? : Json → Option String
  | string s => some s
  | _ => none

end Json

end TripRecorder
