import TripRecorder.Hex

/-!
# Syntax trees of JSON text

A syntax tree keeps what a text spells before anything is asked of it: numbers as digits and
strings as characters and escaped code units. So a member that nobody reads may hold a number
beyond every range or an unpaired surrogate.

## Main definitions

* `Json.Piece`, `Json.Numeral`, `Json.Tree` — spelled strings, numbers and values
* `Json.Tree.parse?` — the tree of a text, `none` if it is not JSON
-/

namespace TripRecorder.Json

/-- A part of a spelled string. -/
inductive Piece where
  /-- A character, written as itself or with a short escape. -/
  | char (c : Char)
  /-- An escaped code unit of 16 bits. -/
  | unit (n : Nat)
deriving DecidableEq, Repr

/-- A spelled number. -/
structure Numeral where
  negative : Bool
  /-- The digits before the point. -/
  whole : List Nat
  /-- The digits after the point, if there is one. -/
  fraction : Option (List Nat)
  /-- The sign and the digits of the exponent, if there is one. -/
  exponent : Option (Bool × List Nat)
deriving DecidableEq, Repr

/-- A spelled value. -/
inductive Tree where
  | null
  | bool (value : Bool)
  | number (value : Numeral)
  | string (value : List Piece)
  | array (items : List Tree)
  | object (members : List (List Piece × Tree))
deriving Inhabited

namespace Tree

/-- Blanks between tokens: space, tab, line feed and carriage return. -/
def isBlank (c : Char) : Bool := c == ' ' || c == '\t' || c == '\n' || c == '\r'

/-- The text without its leading blanks. -/
def skipBlanks (s : List Char) : List Char := s.dropWhile isBlank

/-- The code unit of four hexadecimal digits. -/
def unit? (a b c d : Char) : Option Nat := do
  let high := (← Hex.digit? a) * 16 + (← Hex.digit? b)
  let low := (← Hex.digit? c) * 16 + (← Hex.digit? d)
  return 256 * high + low

/-- The character of a short escape. -/
def shortEscape? : Char → Option Char
  | '"' => some '"'
  | '\\' => some '\\'
  | '/' => some '/'
  | 'b' => some '\x08'
  | 'f' => some '\x0c'
  | 'n' => some '\n'
  | 'r' => some '\r'
  | 't' => some '\t'
  | _ => none

/-- The rest of a string after its opening quote, appended to the pieces read so far, which are
held in reverse. -/
def pieces (done : List Piece) : List Char → Option (List Piece × List Char)
  | [] => none
  | '"' :: rest => some (done.reverse, rest)
  | '\\' :: 'u' :: a :: b :: c :: d :: rest =>
    match unit? a b c d with
    | none => none
    | some n => pieces (.unit n :: done) rest
  | '\\' :: c :: rest =>
    match shortEscape? c with
    | none => none
    | some e => pieces (.char e :: done) rest
  | c :: rest => if c.toNat < 0x20 then none else pieces (.char c :: done) rest

/-- The decimal digits at the start of a text, and the rest. -/
def digits (s : List Char) : List Nat × List Char :=
  ((s.takeWhile Char.isDigit).map fun c => c.toNat - '0'.toNat, s.dropWhile Char.isDigit)

/-- The digits after a point. -/
def fraction? : List Char → Option (Option (List Nat) × List Char)
  | '.' :: s =>
    match digits s with
    | ([], _) => none
    | (ds, rest) => some (some ds, rest)
  | s => some (none, s)

/-- The digits of an exponent, with its sign taken off. -/
def exponentDigits? (negative : Bool) (s : List Char) :
    Option (Option (Bool × List Nat) × List Char) :=
  match digits s with
  | ([], _) => none
  | (ds, rest) => some (some (negative, ds), rest)

/-- An exponent. -/
def exponent? : List Char → Option (Option (Bool × List Nat) × List Char)
  | c :: s =>
    if c = 'e' ∨ c = 'E' then
      match s with
      | '-' :: t => exponentDigits? true t
      | '+' :: t => exponentDigits? false t
      | t => exponentDigits? false t
    else some (none, c :: s)
  | [] => some (none, [])

/-- A number with its sign taken off: no leading zero stands before another digit. -/
def numeral? (negative : Bool) (s : List Char) : Option (Numeral × List Char) :=
  match digits s with
  | ([], _) => none
  | (0 :: _ :: _, _) => none
  | (whole, rest) => do
    let (fraction, rest) ← fraction? rest
    let (exponent, rest) ← exponent? rest
    return (⟨negative, whole, fraction, exponent⟩, rest)

/-- A value that is neither a string nor a container. -/
def scalar? : List Char → Option (Tree × List Char)
  | 'n' :: 'u' :: 'l' :: 'l' :: rest => some (.null, rest)
  | 't' :: 'r' :: 'u' :: 'e' :: rest => some (.bool true, rest)
  | 'f' :: 'a' :: 'l' :: 's' :: 'e' :: rest => some (.bool false, rest)
  | '-' :: rest => (numeral? true rest).map fun r => (.number r.1, r.2)
  | s => (numeral? false s).map fun r => (.number r.1, r.2)

mutual

/-- A value at the start of a text without leading blanks. -/
def value : Nat → List Char → Option (Tree × List Char)
  | 0, _ => none
  | fuel + 1, '[' :: rest =>
    match skipBlanks rest with
    | ']' :: rest => some (.array [], rest)
    | rest => elements fuel [] rest
  | fuel + 1, '\x7b' :: rest =>
    match skipBlanks rest with
    | '\x7d' :: rest => some (.object [], rest)
    | rest => members fuel [] rest
  | _ + 1, '"' :: rest => (pieces [] rest).map fun r => (.string r.1, r.2)
  | _ + 1, s => scalar? s

/-- The elements of an array that follow those read so far, which are held in reverse. -/
def elements : Nat → List Tree → List Char → Option (Tree × List Char)
  | 0, _, _ => none
  | fuel + 1, done, s =>
    match value fuel s with
    | none => none
    | some (x, rest) =>
      match skipBlanks rest with
      | ',' :: rest => elements fuel (x :: done) (skipBlanks rest)
      | ']' :: rest => some (.array (x :: done).reverse, rest)
      | _ => none

/-- The members of an object that follow those read so far, which are held in reverse. -/
def members : Nat → List (List Piece × Tree) → List Char → Option (Tree × List Char)
  | fuel + 1, done, '"' :: s =>
    match pieces [] s with
    | none => none
    | some (name, rest) =>
      match skipBlanks rest with
      | ':' :: rest =>
        match value fuel (skipBlanks rest) with
        | none => none
        | some (x, rest) =>
          match skipBlanks rest with
          | ',' :: rest => members fuel ((name, x) :: done) (skipBlanks rest)
          | '\x7d' :: rest => some (.object ((name, x) :: done).reverse, rest)
          | _ => none
      | _ => none
  | _, _, _ => none

end

/-- The tree of a whole text: one value with blanks around it. Every step down consumes a
character or follows one that did, so twice the length is fuel enough. -/
def ofChars? (s : List Char) : Option Tree :=
  match value (2 * s.length + 2) (skipBlanks s) with
  | some (x, rest) => if (skipBlanks rest).isEmpty then some x else none
  | none => none

/-- The tree of a text, `none` if it is not JSON. -/
def parse? (text : String) : Option Tree := ofChars? text.toList

end Tree

end TripRecorder.Json
