import TripRecorder.Json.Value
import TripRecorder.Proofs.Json.Layout

/-!
# Printed values are read back

Whatever its layout, a printed value is read back as the syntax tree of its tokens, up to where it
ends.

## Main definitions

* `Json.piecesOf`, `Json.tree` — the pieces of a string, and the syntax tree of a value

## Main results

* `Json.textOf?_piecesOf` — a string is read back as it was
* `Json.Layout.value_chars` — a printed value is read back as its tree, and what follows is left
* `Json.parse?_compact`, `Json.parse?_pretty` — the texts of both printers are read back
-/

namespace TripRecorder.Json

/-! ### Strings -/

/-- The piece that a printed character is read as: control characters without a short escape are
printed as code units. -/
def pieceOf (c : Char) : Piece :=
  if c.toNat < 0x20 ∧ c ≠ '\x08' ∧ c ≠ '\x0c' ∧ c ≠ '\n' ∧ c ≠ '\r' ∧ c ≠ '\t' then .unit c.toNat
  else .char c

/-- The pieces that a printed string is read as. -/
def piecesOf (s : String) : List Piece := s.toList.map pieceOf

theorem unit?_hexChar {n : Nat} (h : n < 0x20) :
    Tree.unit? '0' '0' (hexChar (n / 16)) (hexChar (n % 16)) = some n := by
  have hall : ∀ n < 0x20, Tree.unit? '0' '0' (hexChar (n / 16)) (hexChar (n % 16)) = some n := by
    decide
  exact hall n h

/-- A character that needs no escape stands for itself. -/
theorem pieces_char {c : Char} (hquote : c ≠ '"') (hbackslash : c ≠ '\\')
    (hcontrol : ¬ c.toNat < 0x20) (done : List Piece) (rest : List Char) :
    Tree.pieces done (c :: rest) = Tree.pieces (.char c :: done) rest := by
  rw [Tree.pieces.eq_def done]
  split
  · rename_i heq
    cases heq
  · rename_i heq
    exact absurd (List.cons.inj heq).1 hquote
  · rename_i heq
    exact absurd (List.cons.inj heq).1 hbackslash
  · rename_i heq
    exact absurd (List.cons.inj heq).1 hbackslash
  · rename_i heq
    obtain ⟨rfl, rfl⟩ := List.cons.inj heq
    exact if_neg hcontrol

/-- A printed character is read as its piece. -/
theorem pieces_escaped (c : Char) (done : List Piece) (rest : List Char) :
    Tree.pieces done (escaped c ++ rest) = Tree.pieces (pieceOf c :: done) rest := by
  unfold escaped
  split
  -- The short escapes are read back by computation.
  all_goals try rfl
  rename_i hquote hbackslash hb hf hn hr ht
  split
  · rename_i hcontrol
    have hpiece : pieceOf c = .unit c.toNat := if_pos ⟨hcontrol, hb, hf, hn, hr, ht⟩
    simp only [List.cons_append, List.nil_append, Tree.pieces, unit?_hexChar hcontrol, hpiece]
  · rename_i hcontrol
    have hpiece : pieceOf c = .char c := if_neg fun h => hcontrol h.1
    rw [hpiece, List.singleton_append]
    exact pieces_char hquote hbackslash hcontrol done rest

/-- A printed string is read up to its closing quote. -/
theorem pieces_flatMap_escaped (cs : List Char) (done : List Piece) (rest : List Char) :
    Tree.pieces done (cs.flatMap escaped ++ '"' :: rest) =
      some (done.reverse ++ cs.map pieceOf, rest) := by
  induction cs generalizing done with
  | nil => simp [Tree.pieces]
  | cons c cs ih =>
    rw [List.flatMap_cons, List.append_assoc, pieces_escaped, ih, List.reverse_cons,
      List.map_cons, List.append_assoc, List.singleton_append]

theorem chars?_map_pieceOf (cs : List Char) : Piece.chars? (cs.map pieceOf) = some cs := by
  induction cs with
  | nil => rfl
  | cons c cs ih =>
    rw [List.map_cons, pieceOf]
    split
    · rename_i hcontrol
      -- A control character is no half of a pair.
      have hlow : c.toNat < 0xD800 ∨ 0xDFFF < c.toNat := .inl (by omega)
      rw [Piece.chars?.eq_def]
      simp only [if_pos hlow, ih, Option.map_some, Char.ofNat_toNat]
    · rw [Piece.chars?, ih, Option.map_some]

/-- A string is read back as it was. -/
theorem textOf?_piecesOf (s : String) : Tree.textOf? (piecesOf s) = some s := by
  rw [Tree.textOf?, piecesOf, chars?_map_pieceOf, Option.map_some, String.ofList_toList]

/-! ### Trees of values -/

mutual

/-- The syntax tree of a printed value: nothing that is not a number or infinite has any. -/
def tree : Json → Tree
  | .null => .null
  | .bool b => .bool b
  | .integer i => .number (Numeral.ofInt i)
  | .number x => if x.isFinite then .number (Numeral.ofDouble x) else .null
  | .string s => .string (piecesOf s)
  | .array items => .array (itemTrees items)
  | .object members => .object (memberTrees members)
termination_by structural v => v

/-- The trees of elements. -/
def itemTrees : List Json → List Tree
  | [] => []
  | v :: rest => tree v :: itemTrees rest
termination_by structural vs => vs

/-- The names and the trees of members. -/
def memberTrees : List (String × Json) → List (List Piece × Tree)
  | [] => []
  | m :: rest => memberTree m :: memberTrees rest
termination_by structural ms => ms

/-- The name and the tree of a member. -/
def memberTree : String × Json → List Piece × Tree
  | (name, v) => (piecesOf name, tree v)
termination_by structural m => m

end

@[simp] theorem itemTrees_eq_map (items : List Json) : itemTrees items = items.map tree := by
  induction items with
  | nil => rfl
  | cons v rest ih => rw [itemTrees, ih, List.map_cons]

@[simp] theorem memberTrees_eq_map (members : List (String × Json)) :
    memberTrees members = members.map fun m => (piecesOf m.1, tree m.2) := by
  induction members with
  | nil => rfl
  | cons m rest ih =>
    obtain ⟨name, v⟩ := m
    rw [memberTrees, ih, List.map_cons, memberTree]

/-! ### Reading a printed value -/

section Reading

variable {gap rest t : List Char} {c : Char}

theorem ends_cons (hdigit : c.isDigit = false) (hpoint : c ≠ '.') (hlower : c ≠ 'e')
    (hupper : c ≠ 'E') : Ends (c :: rest) := by
  intro c' t' heq
  obtain ⟨rfl, -⟩ := List.cons.inj heq
  exact ⟨hdigit, hpoint, hlower, hupper⟩

theorem ends_nil : Ends [] := nofun

theorem isBlank_iff : Tree.isBlank c = true ↔ c = ' ' ∨ c = '\t' ∨ c = '\n' ∨ c = '\r' := by
  simp [Tree.isBlank, or_assoc]

/-- A number ends at a blank. -/
theorem ends_append (hgap : ∀ c ∈ gap, Tree.isBlank c = true) (hrest : Ends rest) :
    Ends (gap ++ rest) := by
  cases gap with
  | nil => exact hrest
  | cons c t =>
    rcases isBlank_iff.mp (hgap c List.mem_cons_self) with rfl | rfl | rfl | rfl
    all_goals exact ends_cons (by decide) (by decide) (by decide) (by decide)

theorem skipBlanks_cons (hc : Tree.isBlank c = false) : Tree.skipBlanks (c :: t) = c :: t := by
  rw [Tree.skipBlanks, List.dropWhile_cons_of_neg (by simp [hc])]

theorem skipBlanks_append (hgap : ∀ c ∈ gap, Tree.isBlank c = true)
    (hc : Tree.isBlank c = false) : Tree.skipBlanks (gap ++ c :: t) = c :: t := by
  rw [Tree.skipBlanks, List.dropWhile_append_of_pos hgap]
  exact skipBlanks_cons hc

/-- A value that begins neither with a bracket nor with a quote is a scalar. -/
theorem value_of_scalar (harray : c ≠ '[') (hobject : c ≠ '\x7b') (hstring : c ≠ '"')
    (fuel : Nat) : Tree.value (fuel + 1) (c :: t) = Tree.scalar? (c :: t) := by
  unfold Tree.value
  split
  · rename_i heq
    cases heq
  · rename_i heq
    exact absurd (List.cons.inj heq).1 harray
  · rename_i heq
    exact absurd (List.cons.inj heq).1 hobject
  · rename_i heq
    exact absurd (List.cons.inj heq).1 hstring
  · rfl

theorem value_number {n : Numeral} (h : n.WellFormed) (hrest : Ends rest) (fuel : Nat) :
    Tree.value (fuel + 1) (n.chars ++ rest) = some (.number n, rest) := by
  obtain ⟨c, t, heq, hc⟩ := Numeral.exists_chars h
  have hread := Numeral.scalar?_chars h hrest
  have hother {c' : Char} (hsign : '-' ≠ c') (hdigit : c'.isDigit = false) : c ≠ c' := by
    rintro rfl
    rcases hc with rfl | hc
    · exact hsign rfl
    · rw [hc] at hdigit
      cases hdigit
  rw [heq, List.cons_append] at hread ⊢
  rw [value_of_scalar (hother (by decide) (by decide)) (hother (by decide) (by decide))
    (hother (by decide) (by decide)), hread]

theorem value_string (s : String) (fuel : Nat) (rest : List Char) :
    Tree.value (fuel + 1) (quoted s.toList ++ rest) = some (.string (piecesOf s), rest) := by
  have hpieces := pieces_flatMap_escaped s.toList [] rest
  simp only [quoted, List.cons_append, List.append_assoc, Tree.value, List.nil_append, hpieces,
    Option.map_some, List.reverse_nil]
  rfl

/-- An array that does not end at once has elements. -/
theorem value_array {s : List Char} (hs : Tree.skipBlanks s = c :: t) (hc : c ≠ ']')
    (fuel : Nat) : Tree.value (fuel + 1) ('[' :: s) = Tree.elements fuel [] (c :: t) := by
  rw [Tree.value, hs]
  split
  · rename_i heq
    exact absurd (List.cons.inj heq).1 hc
  · rfl

/-- An object that does not end at once has members. -/
theorem value_object {s : List Char} (hs : Tree.skipBlanks s = '"' :: t) (fuel : Nat) :
    Tree.value (fuel + 1) ('\x7b' :: s) = Tree.members fuel [] ('"' :: t) := by
  rw [Tree.value, hs]
  split
  · rename_i heq
    cases (List.cons.inj heq).1
  · rfl

variable {fuel : Nat} {x : Tree} {s : List Char}

theorem elements_last (hvalue : Tree.value fuel s = some (x, t))
    (ht : Tree.skipBlanks t = ']' :: rest) (done : List Tree) :
    Tree.elements (fuel + 1) done s = some (.array (x :: done).reverse, rest) := by
  rw [Tree.elements, hvalue]
  simp only [ht]

theorem elements_more (hvalue : Tree.value fuel s = some (x, t))
    (ht : Tree.skipBlanks t = ',' :: rest) (done : List Tree) :
    Tree.elements (fuel + 1) done s = Tree.elements fuel (x :: done) (Tree.skipBlanks rest) := by
  rw [Tree.elements, hvalue]
  simp only [ht]

/-- A name with its colon is read before its value. -/
theorem members_quoted (name : String) (hgap : ∀ c ∈ gap, Tree.isBlank c = true)
    (hc : Tree.isBlank c = false) (done : List (List Piece × Tree)) :
    Tree.members (fuel + 1) done (quoted name.toList ++ ':' :: (gap ++ c :: t)) =
      match Tree.value fuel (c :: t) with
      | none => none
      | some (x, rest) =>
        match Tree.skipBlanks rest with
        | ',' :: rest => Tree.members fuel ((piecesOf name, x) :: done) (Tree.skipBlanks rest)
        | '\x7d' :: rest => some (.object ((piecesOf name, x) :: done).reverse, rest)
        | _ => none := by
  have hpieces := pieces_flatMap_escaped name.toList [] (':' :: (gap ++ c :: t))
  have hcolon : Tree.skipBlanks (':' :: (gap ++ c :: t)) = ':' :: (gap ++ c :: t) :=
    skipBlanks_cons (by decide)
  simp only [quoted, List.cons_append, List.append_assoc, List.nil_append, Tree.members, hpieces,
    hcolon, skipBlanks_append hgap hc, List.reverse_nil]
  rfl

end Reading

namespace Layout

variable (l : Layout)

/-- A printed value begins with no blank, and not with the end of an array. -/
theorem exists_chars (level : Nat) (v : Json) :
    ∃ c t, l.chars level v = c :: t ∧ Tree.isBlank c = false ∧ c ≠ ']' := by
  have hnumber {n : Numeral} (h : n.WellFormed) :
      ∃ c t, n.chars = c :: t ∧ Tree.isBlank c = false ∧ c ≠ ']' := by
    obtain ⟨c, t, heq, hc⟩ := Numeral.exists_chars h
    refine ⟨c, t, heq, ?_⟩
    rcases hc with rfl | hc
    · decide
    · constructor
      · rw [Bool.eq_false_iff, ne_eq, isBlank_iff]
        rintro (rfl | rfl | rfl | rfl) <;> cases hc
      · rintro rfl
        cases hc
  cases v with
  | null => exact ⟨_, _, rfl, by decide⟩
  | bool b => cases b <;> exact ⟨_, _, rfl, by decide⟩
  | integer i =>
    obtain ⟨c, t, heq, hc⟩ := hnumber (Numeral.wellFormed_ofInt i)
    exact ⟨c, t, (Numeral.chars_ofInt i).symm.trans heq, hc⟩
  | number x =>
    cases hfinite : x.isFinite with
    | true =>
      obtain ⟨c, t, heq, hc⟩ := hnumber (Numeral.wellFormed_ofDouble hfinite)
      exact ⟨c, t, (Numeral.chars_ofDouble hfinite).symm.trans heq, hc⟩
    | false => exact ⟨_, _, if_neg (by simp [hfinite]), by decide⟩
  | string s => exact ⟨_, _, rfl, by decide⟩
  | array items => cases items <;> exact ⟨_, _, rfl, by decide⟩
  | object members => cases members <;> exact ⟨_, _, rfl, by decide⟩

/-- Before an element, only blanks are skipped. -/
theorem skipBlanks_chars (level level' : Nat) (v : Json) (rest : List Char) :
    Tree.skipBlanks (l.newline level' ++ (l.chars level v ++ rest)) = l.chars level v ++ rest := by
  obtain ⟨c, t, heq, hc, -⟩ := l.exists_chars level v
  rw [heq, List.cons_append]
  exact skipBlanks_append (l.blank_newline level') hc

theorem skipBlanks_itemsChars (level : Nat) (v : Json) (others : List Json) (rest : List Char) :
    ∃ c t, Tree.skipBlanks (l.itemsChars level (v :: others) ++ rest) = c :: t ∧ c ≠ ']' := by
  obtain ⟨c, t, heq, -, hc⟩ := l.exists_chars level v
  rw [itemsChars, List.append_assoc, List.append_assoc, List.append_assoc, skipBlanks_chars, heq]
  exact ⟨c, _, rfl, hc⟩

theorem skipBlanks_membersChars (level : Nat) (m : String × Json) (others : List (String × Json))
    (rest : List Char) :
    ∃ t, Tree.skipBlanks (l.membersChars level (m :: others) ++ rest) = '"' :: t := by
  obtain ⟨name, v⟩ := m
  rw [membersChars, List.append_assoc, List.append_assoc, List.append_assoc]
  exact ⟨_, skipBlanks_append (l.blank_newline level) (by decide)⟩

mutual

/-- A printed value is read back as its tree, and what follows is left. There is fuel for two steps
a character. -/
theorem value_chars (level : Nat) : (v : Json) → ∀ (fuel : Nat) (rest : List Char),
    2 * (l.chars level v).length ≤ fuel → Ends rest →
      Tree.value fuel (l.chars level v ++ rest) = some (tree v, rest)
  | .null, fuel + 1, rest, hfuel, hrest => rfl
  | .bool true, fuel + 1, rest, hfuel, hrest => rfl
  | .bool false, fuel + 1, rest, hfuel, hrest => rfl
  | .integer i, fuel + 1, rest, hfuel, hrest => by
    show Tree.value (fuel + 1) (intChars i ++ rest) = _
    rw [← Numeral.chars_ofInt]
    exact value_number (Numeral.wellFormed_ofInt i) hrest fuel
  | .number x, fuel + 1, rest, hfuel, hrest => by
    show Tree.value (fuel + 1) (doubleChars x ++ rest) = _
    cases hfinite : x.isFinite with
    | true =>
      rw [← Numeral.chars_ofDouble hfinite, tree, if_pos hfinite]
      exact value_number (Numeral.wellFormed_ofDouble hfinite) hrest fuel
    | false =>
      rw [doubleChars, tree, if_neg (by simp [hfinite]), if_neg (by simp [hfinite])]
      rfl
  | .string s, fuel + 1, rest, hfuel, hrest => value_string s fuel rest
  | .array [], fuel + 1, rest, hfuel, hrest => by
    show Tree.value (fuel + 1) ('[' :: ']' :: rest) = _
    rfl
  | .array (v :: others), fuel + 1, rest, hfuel, hrest => by
    have hchars : l.chars level (.array (v :: others)) =
        '[' :: (l.itemsChars (level + 1) (v :: others) ++ (l.newline level ++ [']'])) := by
      show '[' :: l.itemsChars (level + 1) (v :: others) ++ l.newline level ++ [']'] = _
      rw [List.append_assoc]
      rfl
    rw [hchars, List.length_cons, List.length_append, List.length_append] at hfuel
    -- The two brackets leave fuel for this step and for the last one of the elements.
    have hitems := elements_itemsChars (level + 1) (v :: others) (by simp) fuel []
      (l.newline level) rest (l.blank_newline level) (by simp at hfuel; omega)
    obtain ⟨c, t, hskip, hc⟩ := l.skipBlanks_itemsChars (level + 1) v others
      (l.newline level ++ ']' :: rest)
    rw [hskip] at hitems
    rw [hchars, List.cons_append, List.append_assoc, List.append_assoc, List.singleton_append,
      value_array hskip hc, hitems]
    rfl
  | .object [], fuel + 1, rest, hfuel, hrest => by
    show Tree.value (fuel + 1) ('\x7b' :: '\x7d' :: rest) = _
    rfl
  | .object (m :: others), fuel + 1, rest, hfuel, hrest => by
    have hchars : l.chars level (.object (m :: others)) =
        '\x7b' :: (l.membersChars (level + 1) (m :: others) ++ (l.newline level ++ ['\x7d'])) := by
      show '\x7b' :: l.membersChars (level + 1) (m :: others) ++ l.newline level ++ ['\x7d'] = _
      rw [List.append_assoc]
      rfl
    rw [hchars, List.length_cons, List.length_append, List.length_append] at hfuel
    have hmembers := members_membersChars (level + 1) (m :: others) (by simp) fuel []
      (l.newline level) rest (l.blank_newline level) (by simp at hfuel; omega)
    obtain ⟨t, hskip⟩ := l.skipBlanks_membersChars (level + 1) m others
      (l.newline level ++ '\x7d' :: rest)
    rw [hskip] at hmembers
    rw [hchars, List.cons_append, List.append_assoc, List.append_assoc, List.singleton_append,
      value_object hskip, hmembers]
    rfl
  | v, 0, rest, hfuel, hrest => by
    -- Every value is printed, so there is fuel.
    obtain ⟨c, t, heq, -⟩ := l.exists_chars level v
    rw [heq] at hfuel
    cases hfuel
termination_by structural v => v

/-- Printed elements are read until the end of their array. -/
theorem elements_itemsChars (level : Nat) : (items : List Json) → items ≠ [] →
    ∀ (fuel : Nat) (done : List Tree) (gap rest : List Char),
      (∀ c ∈ gap, Tree.isBlank c = true) → 2 * (l.itemsChars level items).length + 1 ≤ fuel →
        Tree.elements fuel done
          (Tree.skipBlanks (l.itemsChars level items ++ (gap ++ ']' :: rest))) =
            some (.array (done.reverse ++ itemTrees items), rest)
  | [], hne, _, _, _, _, _, _ => absurd rfl hne
  | v :: others, _, fuel + 1, done, gap, rest, hgap, hfuel => by
    rw [itemsChars] at hfuel ⊢
    rw [List.append_assoc, List.append_assoc, List.append_assoc, skipBlanks_chars]
    simp only [List.length_append] at hfuel
    cases others with
    | nil =>
      -- A value ends where a blank, a comma or a bracket follows.
      have hvalue := value_chars level v fuel (gap ++ ']' :: rest) (by omega)
        (ends_append hgap (ends_cons (by decide) (by decide) (by decide) (by decide)))
      refine (elements_last hvalue (skipBlanks_append hgap (by decide)) done).trans ?_
      simp [itemTrees]
    | cons w more =>
      have hvalue := value_chars level v fuel
        (',' :: (l.itemsChars level (w :: more) ++ (gap ++ ']' :: rest))) (by omega)
        (ends_cons (by decide) (by decide) (by decide) (by decide))
      have hmore := elements_itemsChars level (w :: more) (by simp) fuel (tree v :: done) gap rest
        hgap (by simp at hfuel; omega)
      refine (elements_more hvalue (skipBlanks_cons (by decide)) done).trans ?_
      rw [hmore]
      simp [itemTrees]
termination_by structural items => items

/-- Printed members are read until the end of their object. -/
theorem members_membersChars (level : Nat) : (members : List (String × Json)) → members ≠ [] →
    ∀ (fuel : Nat) (done : List (List Piece × Tree)) (gap rest : List Char),
      (∀ c ∈ gap, Tree.isBlank c = true) → 2 * (l.membersChars level members).length + 1 ≤ fuel →
        Tree.members fuel done
          (Tree.skipBlanks (l.membersChars level members ++ (gap ++ '\x7d' :: rest))) =
            some (.object (done.reverse ++ memberTrees members), rest)
  | [], hne, _, _, _, _, _, _ => absurd rfl hne
  | (name, v) :: others, _, fuel + 1, done, gap, rest, hgap, hfuel => by
    obtain ⟨c, t, hchars, hc, -⟩ := l.exists_chars level v
    have hvalue := value_chars level v fuel
    -- After the name and its colon, the value is read from its first character on.
    have hname (rest : List Char) : Tree.skipBlanks (l.newline level ++
        (l.memberChars level (name, v) ++ rest)) =
          quoted name.toList ++ ':' :: (l.space ++ c :: (t ++ rest)) := by
      rw [memberChars, hchars, List.append_assoc, List.cons_append, List.append_assoc,
        List.cons_append]
      exact skipBlanks_append (l.blank_newline level) (by decide)
    rw [membersChars] at hfuel ⊢
    rw [List.append_assoc, List.append_assoc, List.append_assoc, hname,
      members_quoted name l.blank_space hc, ← List.cons_append, ← hchars]
    simp only [memberChars, List.length_append, List.length_cons] at hfuel
    cases others with
    | nil =>
      have hrest : Ends (gap ++ '\x7d' :: rest) :=
        ends_append hgap (ends_cons (by decide) (by decide) (by decide) (by decide))
      simp only [membersChars, List.isEmpty_nil, if_true, List.nil_append,
        hvalue (gap ++ '\x7d' :: rest) (by omega) hrest,
        skipBlanks_append hgap (show Tree.isBlank '\x7d' = false by decide)]
      simp [memberTrees, memberTree]
    | cons m more =>
      have hrest (rest : List Char) : Ends (',' :: rest) :=
        ends_cons (by decide) (by decide) (by decide) (by decide)
      have hmore := members_membersChars level (m :: more) (by simp) fuel
        ((piecesOf name, tree v) :: done) gap rest hgap (by simp at hfuel; omega)
      simp only [List.isEmpty_cons, Bool.false_eq_true, if_false, List.cons_append,
        List.nil_append, hvalue _ (by omega) (hrest _),
        skipBlanks_cons (show Tree.isBlank ',' = false by decide), hmore]
      simp [memberTrees, memberTree]
termination_by structural members => members

end

/-- A value in a layout is read back as its tree. -/
theorem ofChars?_chars (level : Nat) (v : Json) :
    Tree.ofChars? (l.chars level v) = some (tree v) := by
  obtain ⟨c, t, heq, hc, -⟩ := l.exists_chars level v
  have hvalue := l.value_chars level v (2 * (l.chars level v).length + 2) []
    (Nat.le_add_right ..) ends_nil
  rw [List.append_nil] at hvalue
  have hskip : Tree.skipBlanks (l.chars level v) = l.chars level v := by
    rw [heq]
    exact skipBlanks_cons hc
  rw [Tree.ofChars?, hskip, hvalue]
  rfl

end Layout

/-- The text without blanks is read back. -/
theorem parse?_compact (v : Json) : Tree.parse? (compact v) = some (tree v) := by
  rw [Tree.parse?, compact, String.toList_ofList, ← Layout.chars_dense 0]
  exact Layout.dense.ofChars?_chars 0 v

/-- The text with one member or element a line is read back. -/
theorem parse?_pretty (v : Json) : Tree.parse? (pretty v) = some (tree v) := by
  rw [Tree.parse?, pretty, String.toList_ofList, ← Layout.chars_indented 0]
  exact Layout.indented.ofChars?_chars 0 v

end TripRecorder.Json
