import TripRecorder.Proofs.Json.Members
import TripRecorder.Proofs.Json.Overflow
import TripRecorder.Proofs.Json.Records

/-!
# Values that are printed and read again

A value that was read from a text can be printed and read any number of times: it nests no deeper
than before, its members stand in their order already, and none of its numbers is out of range. What
comes back has the same shape and the same names, texts, truth values and integers. Only its
floating-point words may differ, since each of them is what its own text is read as.

## Main definitions

* `Json.Readable` — a value as it is read from a text
* `Json.reread` — the value with every word as its text is read
* `Json.words` — the words of a value

## Main results

* `Json.readable_of_parse?` — what is read from a text is readable
* `Json.parse?_pretty_of_readable` — the text of a readable value is read as the reread value
* `Json.reread_eq_self` — a value whose words come back comes back
-/

namespace TripRecorder.Json

/-- A value as it is read from a text in which containers nest less deep than `depth`. -/
inductive Readable : Nat → Json → Prop where
  | null {depth : Nat} : Readable depth .null
  | bool {depth : Nat} (b : Bool) : Readable depth (.bool b)
  | integer {depth : Nat} {i : Int} (hlow : -0x8000000000000000 ≤ i) (hhigh : i < UInt64.size) :
    Readable depth (.integer i)
  | number {depth : Nat} {x : Double} (hfinite : x.isFinite = true) : Readable depth (.number x)
  | string {depth : Nat} (s : String) : Readable depth (.string s)
  | array {depth : Nat} {items : List Json} (hdepth : 1 < depth)
    (hitems : ∀ v ∈ items, Readable (depth - 1) v) : Readable depth (.array items)
  | object {depth : Nat} {members : List (String × Json)} (hdepth : 1 < depth)
    (hascending : Ascending members) (hmembers : ∀ m ∈ members, Readable (depth - 1) m.2) :
    Readable depth (.object members)

mutual

/-- The value with every word as its text is read. -/
def reread : Json → Json
  | .null => .null
  | .bool b => .bool b
  | .integer i => .integer i
  | .number x => .number x.reread
  | .string s => .string s
  | .array items => .array (rereadItems items)
  | .object members => .object (rereadMembers members)
termination_by structural v => v

/-- The elements with every word as its text is read. -/
def rereadItems : List Json → List Json
  | [] => []
  | v :: rest => reread v :: rereadItems rest
termination_by structural vs => vs

/-- The members with every word as its text is read. -/
def rereadMembers : List (String × Json) → List (String × Json)
  | [] => []
  | m :: rest => rereadMember m :: rereadMembers rest
termination_by structural ms => ms

/-- A member with every word as its text is read. -/
def rereadMember : String × Json → String × Json
  | (name, v) => (name, reread v)
termination_by structural m => m

end

mutual

/-- The words of a value. -/
def words : Json → List Double
  | .number x => [x]
  | .array items => itemWords items
  | .object members => memberWords members
  | _ => []
termination_by structural v => v

/-- The words of elements. -/
def itemWords : List Json → List Double
  | [] => []
  | v :: rest => words v ++ itemWords rest
termination_by structural vs => vs

/-- The words of members. -/
def memberWords : List (String × Json) → List Double
  | [] => []
  | m :: rest => memberWord m ++ memberWords rest
termination_by structural ms => ms

/-- The words of a member. -/
def memberWord : String × Json → List Double
  | (_, v) => words v
termination_by structural m => m

end

@[simp] theorem rereadItems_eq_map (items : List Json) :
    rereadItems items = items.map reread := by
  induction items with
  | nil => rfl
  | cons v rest ih => rw [rereadItems, ih, List.map_cons]

@[simp] theorem rereadMembers_eq_map (members : List (String × Json)) :
    rereadMembers members = members.map fun m => (m.1, m.2.reread) := by
  induction members with
  | nil => rfl
  | cons m rest ih =>
    obtain ⟨name, v⟩ := m
    rw [rereadMembers, ih, rereadMember, List.map_cons]

/-- A text is kept. -/
@[simp] theorem text?_reread (v : Json) : v.reread.text? = v.text? := by
  cases v <;> rfl

theorem lookup_rereadMembers (members : List (String × Json)) (key : String) :
    (rereadMembers members).lookup key = (members.lookup key).map reread := by
  induction members with
  | nil => rfl
  | cons m rest ih =>
    obtain ⟨name, v⟩ := m
    rw [rereadMembers, rereadMember, lookup_cons, lookup_cons, ih]
    split_ifs <;> rfl

mutual

/-- A value comes back as it was if its words do. -/
theorem reread_eq_self : (v : Json) → (∀ x ∈ v.words, x.reread = x) → v.reread = v
  | .null, _ | .bool _, _ | .integer _, _ | .string _, _ => rfl
  | .number x, h => congrArg Json.number (h x List.mem_cons_self)
  | .array items, h => congrArg Json.array (rereadItems_eq_self items h)
  | .object members, h => congrArg Json.object (rereadMembers_eq_self members h)
termination_by structural v => v

theorem rereadItems_eq_self : (items : List Json) → (∀ x ∈ itemWords items, x.reread = x) →
    rereadItems items = items
  | [], _ => rfl
  | v :: rest, h => by
    rw [itemWords, List.forall_mem_append] at h
    rw [rereadItems, reread_eq_self v h.1, rereadItems_eq_self rest h.2]
termination_by structural items => items

theorem rereadMembers_eq_self : (members : List (String × Json)) →
    (∀ x ∈ memberWords members, x.reread = x) → rereadMembers members = members
  | [], _ => rfl
  | m :: rest, h => by
    rw [memberWords, List.forall_mem_append] at h
    rw [rereadMembers, rereadMember_eq_self m h.1, rereadMembers_eq_self rest h.2]
termination_by structural members => members

theorem rereadMember_eq_self : (m : String × Json) → (∀ x ∈ memberWord m, x.reread = x) →
    rereadMember m = m
  | (name, v), h => congrArg (Prod.mk name) (reread_eq_self v h)
termination_by structural m => m

end

/-! ### What is read is readable -/

/-- An integer that is read fits 64 bits, with a sign or without. -/
theorem Numeral.integer?_bounds {n : Numeral} {i : Int} (h : n.integer? = some i) :
    -0x8000000000000000 ≤ i ∧ i < UInt64.size := by
  unfold integer? at h
  split at h
  · simp only at h
    split_ifs at h with hsign hrange hrange
    · obtain rfl := Option.some.inj h
      unfold UInt64.size
      omega
    · obtain rfl := Option.some.inj h
      unfold significandBound at hrange
      omega
  · cases h

theorem Numeral.readable_of_toJson? {n : Numeral} {v : Json} (h : n.toJson? = some v)
    (depth : Nat) : Readable depth v := by
  unfold toJson? at h
  split at h
  · rename_i i hinteger
    obtain ⟨hlow, hhigh⟩ := integer?_bounds hinteger
    exact Option.some.inj h ▸ .integer hlow hhigh
  · rename_i hinteger
    obtain ⟨x, hx, rfl⟩ := Option.map_eq_some_iff.mp h
    exact .number (isFinite_of_double? hinteger hx)

mutual

theorem readable_of_value? : (t : Tree) → ∀ {depth : Nat} {v : Json},
    Tree.value? depth t = some v → Readable depth v
  | .null, _, _, h => Option.some.inj h ▸ .null
  | .bool b, _, _, h => Option.some.inj h ▸ .bool b
  | .number n, depth, _, h => Numeral.readable_of_toJson? h depth
  | .string pieces, _, _, h => by
    obtain ⟨s, -, rfl⟩ := Option.map_eq_some_iff.mp h
    exact .string s
  | .array items, depth, _, h => by
    rw [Tree.value?] at h
    split_ifs at h with hdepth
    obtain ⟨vs, hvs, rfl⟩ := Option.map_eq_some_iff.mp h
    exact .array (Nat.lt_of_not_le hdepth) (readable_of_values? items hvs)
  | .object members, depth, _, h => by
    rw [Tree.value?] at h
    split_ifs at h with hdepth
    obtain ⟨ms, hms, rfl⟩ := Option.map_eq_some_iff.mp h
    exact .object (Nat.lt_of_not_le hdepth) (ascending_sorted ms) fun m hm =>
      readable_of_memberValues? members hms m (mem_of_mem_sorted hm)
termination_by structural t => t

theorem readable_of_values? : (ts : List Tree) → ∀ {depth : Nat} {vs : List Json},
    Tree.values? depth ts = some vs → ∀ v ∈ vs, Readable depth v
  | [], _, _, h => by
    obtain rfl := Option.some.inj h
    exact nofun
  | t :: rest, depth, _, h => by
    rw [Tree.values?] at h
    split at h
    · rename_i v vs hv hvs
      obtain rfl := Option.some.inj h
      exact List.forall_mem_cons.mpr ⟨readable_of_value? t hv, readable_of_values? rest hvs⟩
    · cases h
termination_by structural ts => ts

theorem readable_of_memberValues? : (ts : List (List Piece × Tree)) →
    ∀ {depth : Nat} {ms : List (String × Json)},
      Tree.memberValues? depth ts = some ms → ∀ m ∈ ms, Readable depth m.2
  | [], _, _, h => by
    obtain rfl := Option.some.inj h
    exact nofun
  | t :: rest, depth, _, h => by
    rw [Tree.memberValues?] at h
    split at h
    · rename_i m ms hm hms
      obtain rfl := Option.some.inj h
      exact List.forall_mem_cons.mpr
        ⟨readable_of_memberValue? t hm, readable_of_memberValues? rest hms⟩
    · cases h
termination_by structural ts => ts

theorem readable_of_memberValue? : (t : List Piece × Tree) →
    ∀ {depth : Nat} {m : String × Json}, Tree.memberValue? depth t = some m → Readable depth m.2
  | (name, t), depth, _, h => by
    rw [Tree.memberValue?] at h
    split at h
    · rename_i name v hname hv
      obtain rfl := Option.some.inj h
      exact readable_of_value? t hv
    · cases h
termination_by structural t => t

end

/-- What is read from a text is readable. -/
theorem readable_of_parse? {text : String} {v : Json} (h : parse? text = some v) :
    Readable Tree.depthLimit v := by
  obtain ⟨t, -, hv⟩ := Option.bind_eq_some_iff.mp h
  exact readable_of_value? t hv

/-! ### What is readable is read again -/

theorem values?_eq_mapM (depth : Nat) (ts : List Tree) :
    Tree.values? depth ts = ts.mapM (Tree.value? depth) := by
  induction ts with
  | nil => rfl
  | cons t rest ih =>
    rw [Tree.values?, ih, List.mapM_cons]
    cases Tree.value? depth t <;> cases rest.mapM (Tree.value? depth) <;> rfl

theorem memberValues?_eq_mapM (depth : Nat) (ts : List (List Piece × Tree)) :
    Tree.memberValues? depth ts = ts.mapM (Tree.memberValue? depth) := by
  induction ts with
  | nil => rfl
  | cons t rest ih =>
    rw [Tree.memberValues?, ih, List.mapM_cons]
    cases Tree.memberValue? depth t <;> cases rest.mapM (Tree.memberValue? depth) <;> rfl

/-- A printed value is read as the value with its words reread, which is readable as well. -/
theorem Readable.value?_tree {depth : Nat} {v : Json} (h : Readable depth v) :
    Tree.value? depth (tree v) = some v.reread ∧ Readable depth v.reread := by
  induction h with
  | null => exact ⟨rfl, .null⟩
  | bool b => exact ⟨rfl, .bool b⟩
  | integer hlow hhigh =>
    refine ⟨?_, .integer hlow hhigh⟩
    rw [tree, Tree.value?, Numeral.toJson?, integer?_ofInt hlow hhigh]
    rfl
  | @number depth x hfinite =>
    obtain ⟨hreread, hfinite'⟩ := Double.reread?_of_finite hfinite
    refine ⟨?_, .number hfinite'⟩
    rw [Double.reread?_eq, if_pos hfinite] at hreread
    rw [tree, if_pos hfinite, Tree.value?, Numeral.toJson?,
      Numeral.integer?_eq_none (Numeral.point_ofDouble x), hreread]
    rfl
  | string s =>
    refine ⟨?_, .string s⟩
    rw [tree, Tree.value?, textOf?_piecesOf]
    rfl
  | @array depth items hdepth hitems ih =>
    have hvalues : Tree.values? (depth - 1) (itemTrees items) = some (items.map reread) := by
      rw [values?_eq_mapM, itemTrees_eq_map, List.mapM_map, mapM_eq_some_map_iff]
      exact fun v hv => (ih v hv).1
    rw [reread, rereadItems_eq_map]
    refine ⟨?_, .array hdepth (List.forall_mem_map.mpr fun v hv => (ih v hv).2)⟩
    rw [tree, Tree.value?, if_neg (Nat.not_le_of_lt hdepth), hvalues]
    rfl
  | @object depth members hdepth hascending hmembers ih =>
    have hvalues : Tree.memberValues? (depth - 1) (memberTrees members) =
        some (members.map fun m => (m.1, m.2.reread)) := by
      rw [memberValues?_eq_mapM, memberTrees_eq_map, List.mapM_map, mapM_eq_some_map_iff]
      intro m hm
      rw [Function.comp_apply, Tree.memberValue?, textOf?_piecesOf, (ih m hm).1]
    -- Reading puts the members in their order, in which they stand already.
    have hkept := hascending.map reread
    rw [reread, rereadMembers_eq_map]
    refine ⟨?_, .object hdepth hkept (List.forall_mem_map.mpr fun m hm => (ih m hm).2)⟩
    rw [tree, Tree.value?, if_neg (Nat.not_le_of_lt hdepth), hvalues, Option.map_some,
      sorted_of_ascending hkept]

/-- The text of a readable value is read as the value with its words reread. -/
theorem parse?_pretty_of_readable {v : Json} (h : Readable Tree.depthLimit v) :
    parse? (pretty v) = some v.reread := by
  rw [parse?, parse?_pretty, Option.bind_some]
  exact h.value?_tree.1

end TripRecorder.Json
