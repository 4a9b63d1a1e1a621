import TripRecorder.Proofs.Json.Numerals

/-!
# Layouts of printed values

A value is printed without blanks or with one member or element a line. Both are layouts of the
same tokens, which hold no control characters.

## Main definitions

* `Json.Layout`, `Json.Layout.chars` — where the blanks are, and a value printed so
* `Json.Printable` — no control character

## Main results

* `Json.Layout.chars_dense`, `Json.Layout.chars_indented` — both printers have a layout
* `Json.Layout.spaced_chars` — a printed value has no control characters but blanks of the layout
* `Json.printable_compact` — a text without blanks is one line
-/

namespace TripRecorder.Json

/-- Blanks before every member or element and before the end of its container, and those after a
colon. -/
structure Layout where
  newline : Nat → List Char
  space : List Char
  blank_newline : ∀ level, ∀ c ∈ newline level, Tree.isBlank c = true
  blank_space : ∀ c ∈ space, Tree.isBlank c = true

namespace Layout

/-- No blanks. -/
def dense : Layout := ⟨fun _ => [], [], nofun, nofun⟩

/-- One member or element a line, indented by two spaces. -/
def indented : Layout where
  newline := Json.newline
  space := [' ']
  blank_newline level c hc := by
    rcases List.mem_cons.mp hc with rfl | hspace
    · rfl
    · rw [List.eq_of_mem_replicate hspace]
      rfl
  blank_space c hc := by
    rw [List.mem_singleton.mp hc]
    rfl

variable (l : Layout)

mutual

/-- The characters of a value in a layout, from a level on. -/
def chars (level : Nat) : Json → List Char
  | .array [] => ['[', ']']
  | .array items => '[' :: itemsChars (level + 1) items ++ l.newline level ++ [']']
  | .object [] => ['\x7b', '\x7d']
  | .object members => '\x7b' :: membersChars (level + 1) members ++ l.newline level ++ ['\x7d']
  | .null => ['n', 'u', 'l', 'l']
  | .bool b => boolChars b
  | .integer i => intChars i
  | .number x => doubleChars x
  | .string s => quoted s.toList
termination_by structural v => v

/-- Elements, divided by commas. -/
def itemsChars (level : Nat) : List Json → List Char
  | [] => []
  | v :: rest =>
    l.newline level ++ chars level v ++ (if rest.isEmpty then [] else [',']) ++
      itemsChars level rest
termination_by structural vs => vs

/-- Members, divided by commas. -/
def membersChars (level : Nat) : List (String × Json) → List Char
  | [] => []
  | m :: rest =>
    l.newline level ++ memberChars level m ++ (if rest.isEmpty then [] else [',']) ++
      membersChars level rest
termination_by structural ms => ms

/-- A name, a colon and a value. -/
def memberChars (level : Nat) : String × Json → List Char
  | (name, v) => quoted name.toList ++ ':' :: (l.space ++ chars level v)
termination_by structural m => m

end

mutual

/-- The text without blanks is a layout. -/
theorem chars_dense (level : Nat) : (v : Json) → dense.chars level v = Json.chars v
  | .array [] => rfl
  | .array (v :: rest) => by
    show '[' :: dense.itemsChars (level + 1) (v :: rest) ++ [] ++ [']'] = _
    rw [itemsChars_dense (level + 1) (v :: rest), List.append_nil]
    rfl
  | .object [] => rfl
  | .object (m :: rest) => by
    show '\x7b' :: dense.membersChars (level + 1) (m :: rest) ++ [] ++ ['\x7d'] = _
    rw [membersChars_dense (level + 1) (m :: rest), List.append_nil]
    rfl
  | .null | .bool _ | .integer _ | .number _ | .string _ => rfl
termination_by structural v => v

theorem itemsChars_dense (level : Nat) :
    (items : List Json) → dense.itemsChars level items = Json.itemsChars items
  | [] => rfl
  | v :: rest => by
    rw [itemsChars, Json.itemsChars, chars_dense level v, itemsChars_dense level rest]
    rfl
termination_by structural items => items

theorem membersChars_dense (level : Nat) :
    (members : List (String × Json)) → dense.membersChars level members = Json.membersChars members
  | [] => rfl
  | m :: rest => by
    rw [membersChars, Json.membersChars, memberChars_dense level m, membersChars_dense level rest]
    rfl
termination_by structural members => members

theorem memberChars_dense (level : Nat) :
    (m : String × Json) → dense.memberChars level m = Json.memberChars m
  | (name, v) => by
    rw [memberChars, Json.memberChars, chars_dense level v]
    rfl
termination_by structural m => m

end

mutual

/-- The text with lines is a layout. -/
theorem chars_indented (level : Nat) : (v : Json) → indented.chars level v = Json.lines level v
  | .array [] => rfl
  | .array (v :: rest) => by
    show '[' :: indented.itemsChars (level + 1) (v :: rest) ++ _ ++ _ = _
    rw [itemsChars_indented (level + 1) (v :: rest)]
    rfl
  | .object [] => rfl
  | .object (m :: rest) => by
    show '\x7b' :: indented.membersChars (level + 1) (m :: rest) ++ _ ++ _ = _
    rw [membersChars_indented (level + 1) (m :: rest)]
    rfl
  | .null | .bool _ | .integer _ | .number _ | .string _ => rfl
termination_by structural v => v

theorem itemsChars_indented (level : Nat) :
    (items : List Json) → indented.itemsChars level items = Json.itemLines level items
  | [] => rfl
  | v :: rest => by
    rw [itemsChars, Json.itemLines, chars_indented level v, itemsChars_indented level rest]
    rfl
termination_by structural items => items

theorem membersChars_indented (level : Nat) : (members : List (String × Json)) →
    indented.membersChars level members = Json.memberLines level members
  | [] => rfl
  | m :: rest => by
    rw [membersChars, Json.memberLines, memberChars_indented level m,
      membersChars_indented level rest]
    rfl
termination_by structural members => members

theorem memberChars_indented (level : Nat) :
    (m : String × Json) → indented.memberChars level m = Json.memberLine level m
  | (name, v) => by
    rw [memberChars, Json.memberLine, chars_indented level v]
    rfl
termination_by structural m => m

end

end Layout

/-! ### Printable characters -/

/-- No control character. -/
def Printable (s : List Char) : Prop := ∀ c ∈ s, 0x20 ≤ c.toNat

instance (s : List Char) : Decidable (Printable s) :=
  decidable_of_iff (s.all fun c => decide (0x20 ≤ c.toNat)) (by simp [Printable])

theorem printable_escaped (c : Char) : Printable (escaped c) := by
  -- A control character is written with its two hexadecimal digits.
  have hhex : ∀ n < 0x20, Printable
      ['\\', 'u', '0', '0', hexChar (n / 16), hexChar (n % 16)] := by decide
  unfold escaped
  split
  all_goals try decide
  split
  · rename_i hcontrol
    exact hhex _ hcontrol
  · rename_i hcontrol
    rintro c' hc'
    rw [List.mem_singleton.mp hc']
    exact Nat.le_of_not_lt hcontrol

theorem printable_quoted (s : List Char) : Printable (quoted s) := by
  unfold quoted
  intro c hc
  rcases List.mem_cons.mp hc with rfl | hc
  · decide
  rcases List.mem_append.mp hc with hc | hc
  · obtain ⟨c', -, hmem⟩ := List.mem_flatMap.mp hc
    exact printable_escaped c' c hmem
  · rw [List.mem_singleton.mp hc]
    decide

theorem printable_figureChars {ds : List Nat} (h : ∀ d ∈ ds, d < 10) :
    Printable (figureChars ds) := by
  intro c hc
  have hlow := (toNat_of_isDigit (isDigit_of_mem_figureChars h c hc)).1
  omega

theorem Printable.append {s t : List Char} (hs : Printable s) (ht : Printable t) :
    Printable (s ++ t) := List.forall_mem_append.mpr ⟨hs, ht⟩

theorem Printable.cons {c : Char} {s : List Char} (hs : Printable s) (hc : 0x20 ≤ c.toNat) :
    Printable (c :: s) := List.forall_mem_cons.mpr ⟨hc, hs⟩

theorem Numeral.printable_chars {n : Numeral} (h : n.WellFormed) : Printable n.chars := by
  have hsign : Printable (if n.negative then ['-'] else []) := by cases n.negative <;> decide
  have hfraction : Printable (fractionChars n.fraction) := by
    cases hfraction : n.fraction with
    | none => exact nofun
    | some ds =>
      exact (printable_figureChars (h.fraction ds hfraction).lt_ten).cons (by decide)
  have hexponent : Printable (exponentChars n.exponent) := by
    cases hexponent : n.exponent with
    | none => exact nofun
    | some e =>
      obtain ⟨negative, ds⟩ := e
      have hdigits := printable_figureChars (h.exponent negative ds hexponent).lt_ten
      cases negative with
      | true => exact (hdigits.cons (by decide)).cons (by decide)
      | false => exact (hdigits.cons (by decide)).cons (by decide)
  exact hsign.append (((printable_figureChars h.whole.lt_ten).append hfraction).append hexponent)

theorem printable_doubleChars (x : Double) : Printable (doubleChars x) := by
  cases hfinite : x.isFinite with
  | true =>
    rw [← Numeral.chars_ofDouble hfinite]
    exact Numeral.printable_chars (Numeral.wellFormed_ofDouble hfinite)
  | false =>
    rw [doubleChars, if_neg (by simp [hfinite])]
    decide

namespace Layout

/-- Blanks of the layout and characters that are no control characters. -/
def Spaced (l : Layout) (s : List Char) : Prop :=
  ∀ c ∈ s, (∃ level, c ∈ l.newline level) ∨ c ∈ l.space ∨ 0x20 ≤ c.toNat

variable {l : Layout}

theorem spaced_of_printable {s : List Char} (h : Printable s) : l.Spaced s :=
  fun c hc => .inr (.inr (h c hc))

theorem spaced_newline (level : Nat) : l.Spaced (l.newline level) := fun _ hc => .inl ⟨level, hc⟩

theorem spaced_space : l.Spaced l.space := fun _ hc => .inr (.inl hc)

theorem Spaced.append {s t : List Char} (hs : l.Spaced s) (ht : l.Spaced t) :
    l.Spaced (s ++ t) := List.forall_mem_append.mpr ⟨hs, ht⟩

theorem Spaced.cons {c : Char} {s : List Char} (hs : l.Spaced s) (hc : 0x20 ≤ c.toNat) :
    l.Spaced (c :: s) := List.forall_mem_cons.mpr ⟨.inr (.inr hc), hs⟩

theorem spaced_comma (last : Bool) : l.Spaced (if last then [] else [',']) := by
  apply spaced_of_printable
  cases last <;> decide

variable (l)

mutual

/-- A printed value has no control characters but blanks of the layout. -/
theorem spaced_chars (level : Nat) : (v : Json) → l.Spaced (l.chars level v)
  | .array [] => spaced_of_printable (show Printable ['[', ']'] by decide)
  | .array (v :: rest) => by
    have hitems := spaced_itemsChars (level + 1) (v :: rest)
    exact ((hitems.cons (by decide)).append (spaced_newline level)).append
      (spaced_of_printable (by decide))
  | .object [] => spaced_of_printable (show Printable ['\x7b', '\x7d'] by decide)
  | .object (m :: rest) => by
    have hmembers := spaced_membersChars (level + 1) (m :: rest)
    exact ((hmembers.cons (by decide)).append (spaced_newline level)).append
      (spaced_of_printable (by decide))
  | .null => spaced_of_printable (show Printable ['n', 'u', 'l', 'l'] by decide)
  | .bool true => spaced_of_printable (show Printable ['t', 'r', 'u', 'e'] by decide)
  | .bool false => spaced_of_printable (show Printable ['f', 'a', 'l', 's', 'e'] by decide)
  | .integer i => by
    apply spaced_of_printable
    show Printable (intChars i)
    rw [← Numeral.chars_ofInt]
    exact Numeral.printable_chars (Numeral.wellFormed_ofInt i)
  | .number x => spaced_of_printable (printable_doubleChars x)
  | .string s => spaced_of_printable (printable_quoted s.toList)
termination_by structural v => v

theorem spaced_itemsChars (level : Nat) : (items : List Json) →
    l.Spaced (l.itemsChars level items)
  | [] => nofun
  | v :: rest => (((spaced_newline level).append (spaced_chars level v)).append
      (spaced_comma rest.isEmpty)).append (spaced_itemsChars level rest)
termination_by structural items => items

theorem spaced_membersChars (level : Nat) : (members : List (String × Json)) →
    l.Spaced (l.membersChars level members)
  | [] => nofun
  | m :: rest => (((spaced_newline level).append (spaced_memberChars level m)).append
      (spaced_comma rest.isEmpty)).append (spaced_membersChars level rest)
termination_by structural members => members

theorem spaced_memberChars (level : Nat) : (m : String × Json) →
    l.Spaced (l.memberChars level m)
  | (name, v) => (spaced_of_printable (printable_quoted name.toList)).append
      ((spaced_space.append (spaced_chars level v)).cons (by decide))
termination_by structural m => m

end

end Layout

end TripRecorder.Json
