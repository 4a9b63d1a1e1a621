import TripRecorder.Json.Basic

/-!
# Printing JSON

## Main definitions

* `Json.compact` — the text of a value without blanks
* `Json.pretty` — the text of a value with one member or element a line, indented by two spaces
* `Json.doubleText` — the text of a floating-point word
-/

namespace TripRecorder.Json

/-- A hexadecimal digit in lower case. -/
def hexChar (n : Nat) : Char := Nat.digitChar n

/-- A character inside a string: quotes, backslashes and control characters are escaped, all
others stand for themselves. -/
def escaped (c : Char) : List Char :=
  match c with
  | '"' => ['\\', '"']
  | '\\' => ['\\', '\\']
  | '\x08' => ['\\', 'b']
  | '\x0c' => ['\\', 'f']
  | '\n' => ['\\', 'n']
  | '\r' => ['\\', 'r']
  | '\t' => ['\\', 't']
  | c =>
    if c.toNat < 0x20 then
      ['\\', 'u', '0', '0', hexChar (c.toNat / 16), hexChar (c.toNat % 16)]
    else [c]

/-- A string in quotes. -/
def quoted (s : List Char) : List Char := '"' :: s.flatMap escaped ++ ['"']

/-- The characters of a natural number. -/
def natChars (n : Nat) : List Char := Nat.toDigits 10 n

/-- The characters of an integer. -/
def intChars (i : Int) : List Char :=
  if i < 0 then '-' :: natChars i.natAbs else natChars i.natAbs

/-- The least power of ten of a leading digit that is written without an exponent. -/
def leastPositional : Int := -5

/-- The least power of ten of a leading digit beyond those written without an exponent. -/
def firstExponential : Int := 16

/-- Digits, of which the first stands for a power of ten: positional with at least one digit on
either side of the point, or one digit, the others after a point, and an exponent with a sign. -/
def digitsChars (digits : List Char) (power : Int) : List Char :=
  if leastPositional ≤ power ∧ power < firstExponential then
    if 0 ≤ power then
      let whole := power.toNat + 1
      let rest := digits.drop whole
      digits.take whole ++ List.replicate (whole - digits.length) '0' ++ '.' ::
        (if rest.isEmpty then ['0'] else rest)
    else '0' :: '.' :: List.replicate ((-power).toNat - 1) '0' ++ digits
  else
    let rest := digits.drop 1
    digits.take 1 ++ (if rest.isEmpty then [] else '.' :: rest) ++ 'e' ::
      (if power < 0 then '-' else '+') :: natChars power.natAbs

/-- The characters of a word: the fewest digits that read back, and nothing that is not a number
or infinite has any but `null`. -/
def doubleChars (x : Double) : List Char :=
  if x.isFinite then
    let sign := if x.negative then ['-'] else []
    if x.isZero then sign ++ ['0', '.', '0']
    else
      let d := Decimal.shortest x
      let digits := Decimal.digits d.coefficient
      sign ++ digitsChars digits (digits.length - 1 + d.exponent)
  else ['n', 'u', 'l', 'l']

/-- The text of a floating-point word. -/
def doubleText (x : Double) : String := String.ofList (doubleChars x)

/-- The characters of a truth value. -/
def boolChars (b : Bool) : List Char :=
  if b then ['t', 'r', 'u', 'e'] else ['f', 'a', 'l', 's', 'e']

/-! ### Without blanks -/

mutual

/-- The characters of a value without blanks. -/
def chars : Json → List Char
  | .null => ['n', 'u', 'l', 'l']
  | .bool b => boolChars b
  | .integer i => intChars i
  | .number x => doubleChars x
  | .string s => quoted s.toList
  | .array items => '[' :: itemsChars items ++ [']']
  | .object members => '\x7b' :: membersChars members ++ ['\x7d']
termination_by structural v => v

/-- Elements, divided by commas. -/
def itemsChars : List Json → List Char
  | [] => []
  | v :: rest => chars v ++ (if rest.isEmpty then [] else [',']) ++ itemsChars rest
termination_by structural vs => vs

/-- Members, divided by commas. -/
def membersChars : List (String × Json) → List Char
  | [] => []
  | m :: rest => memberChars m ++ (if rest.isEmpty then [] else [',']) ++ membersChars rest
termination_by structural ms => ms

/-- A name, a colon and a value. -/
def memberChars : String × Json → List Char
  | (name, v) => quoted name.toList ++ ':' :: chars v
termination_by structural m => m

end

/-- The text of a value without blanks. -/
def compact (v : Json) : String := String.ofList (chars v)

/-! ### With lines -/

/-- A line break and the indentation of a level. -/
def newline (level : Nat) : List Char := '\n' :: List.replicate (2 * level) ' '

mutual

/-- The characters of a value whose lines are indented from a level on. -/
def lines (level : Nat) : Json → List Char
  | .array [] => ['[', ']']
  | .array items => '[' :: itemLines (level + 1) items ++ newline level ++ [']']
  | .object [] => ['\x7b', '\x7d']
  | .object members => '\x7b' :: memberLines (level + 1) members ++ newline level ++ ['\x7d']
  | .null => ['n', 'u', 'l', 'l']
  | .bool b => boolChars b
  | .integer i => intChars i
  | .number x => doubleChars x
  | .string s => quoted s.toList
termination_by structural v => v

/-- Elements, one a line. -/
def itemLines (level : Nat) : List Json → List Char
  | [] => []
  | v :: rest =>
    newline level ++ lines level v ++ (if rest.isEmpty then [] else [',']) ++ itemLines level rest
termination_by structural vs => vs

/-- Members, one a line. -/
def memberLines (level : Nat) : List (String × Json) → List Char
  | [] => []
  | m :: rest =>
    newline level ++ memberLine level m ++ (if rest.isEmpty then [] else [',']) ++
      memberLines level rest
termination_by structural ms => ms

/-- A name, a colon with a space, and a value. -/
def memberLine (level : Nat) : String × Json → List Char
  | (name, v) => quoted name.toList ++ ':' :: ' ' :: lines level v
termination_by structural m => m

end

/-- The text of a value with one member or element a line. -/
def pretty (v : Json) : String := String.ofList (lines 0 v)

end TripRecorder.Json
