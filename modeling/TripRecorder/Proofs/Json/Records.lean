import TripRecorder.Proofs.Json.Rereading

/-!
# Printed records are read back

Plain values are read back as they were, and the fields of a record are found by their names, in
whichever order they were written.

## Main results

* `Json.reads_int64`, `Json.reads_nat`, `Json.reads_string`, … — plain values are read back
* `Json.mapM_eq_some_map_iff` — elements are read when each of them is
* `Json.Record.field?_of_mem`, `Json.Record.ofObject?_zip` — the fields of a printed record
-/

namespace TripRecorder.Json

/-! ### Plain values -/

theorem integer?_ofInt {i : Int} (hlow : -0x8000000000000000 ≤ i) (hhigh : i < UInt64.size) :
    (Numeral.ofInt i).integer? = some i := by
  unfold Numeral.integer? Numeral.ofInt
  simp only [Numeral.valueOf_decimals]
  by_cases hsign : i < 0
  · rw [if_pos (decide_eq_true hsign), if_pos (by omega)]
    simp only [Option.some.injEq]
    omega
  · rw [if_neg (by simpa using hsign), if_pos (by unfold Numeral.significandBound; omega)]
    simp only [Option.some.injEq]
    omega

theorem reads_int64 (i : Int64) : ofTree? (tree (toJson i)) = some i := by
  have hlow := i.le_toInt
  have hhigh := i.toInt_lt
  show signed? (.number (Numeral.ofInt i.toInt)) = some i
  have hsize : i.toInt < UInt64.size := Int.lt_trans hhigh (by decide)
  rw [signed?, Tree.integer?, integer?_ofInt hlow hsize]
  simp only
  rw [if_pos (Int.le_of_lt_add_one hhigh), Int64.ofInt_toInt]

theorem reads_nat {n : Nat} (h : n < UInt64.size) : ofTree? (tree (toJson n)) = some n := by
  show Tree.natBelow? UInt64.size (.number (Numeral.ofInt n)) = some n
  rw [Tree.natBelow?, Tree.integer?, integer?_ofInt (by omega) (by omega)]
  exact if_pos h

theorem reads_string (s : String) : ofTree? (tree (toJson s)) = some s := textOf?_piecesOf s

theorem reads_bool (b : Bool) : ofTree? (tree (toJson b)) = some b := rfl

theorem reads_double (x : Double) : ofTree? (tree (toJson x)) = x.reread? := by
  have hparse : Tree.parse? (doubleText x) = some (tree (.number x)) := parse?_compact (.number x)
  rw [Double.reread?, read?, hparse]
  rfl

/-- Every element has its result exactly when all have. -/
theorem mapM_eq_some_map_iff {α β : Type} {f : α → Option β} {g : α → β} {xs : List α} :
    xs.mapM f = some (xs.map g) ↔ ∀ x ∈ xs, f x = some (g x) := by
  induction xs with
  | nil => simp
  | cons x xs ih =>
    rw [List.mapM_cons, List.map_cons, List.forall_mem_cons, ← ih]
    cases f x with
    | none => simp
    | some y => cases xs.mapM f <;> simp

/-- One element without a result leaves all without. -/
theorem mapM_eq_none {α β : Type} {f : α → Option β} {xs : List α} {x : α} (hx : x ∈ xs)
    (h : f x = none) : xs.mapM f = none := by
  induction xs with
  | nil => cases hx
  | cons y xs ih =>
    rw [List.mapM_cons]
    rcases List.mem_cons.mp hx with rfl | hmem
    · rw [h]
      rfl
    · rw [ih hmem]
      cases f y <;> rfl

/-- Elements are read one by one. -/
theorem reads_list {α : Type} [Coded α] (xs : List α) :
    (ofTree? (tree (toJson xs)) : Option (List α)) =
      xs.mapM fun a => ofTree? (tree (toJson a)) := by
  show (itemTrees (xs.map toJson)).mapM ofTree? = _
  rw [itemTrees_eq_map, List.map_map, List.mapM_map]
  rfl

/-! ### Records -/

namespace Record

variable {members : List (String × Tree)} {name : String} {t : Tree}

theorem filter_of_not_mem (h : name ∉ members.map Prod.fst) :
    members.filter (fun m => m.1 == name) = [] := by
  rw [List.filter_eq_nil_iff]
  intro m hm heq
  exact h (List.mem_map.mpr ⟨m, hm, eq_of_beq heq⟩)

/-- A field that is given once is found. -/
theorem field?_of_mem (hnodup : (members.map Prod.fst).Nodup) (h : (name, t) ∈ members) :
    field? members name = some (some t) := by
  -- No other member has its name, so it is the only one left.
  have hfilter : members.filter (fun m => m.1 == name) = [(name, t)] := by
    induction members with
    | nil => cases h
    | cons m rest ih =>
      obtain ⟨hfresh, hnodup⟩ := List.nodup_cons.mp hnodup
      rcases List.mem_cons.mp h with rfl | hmem
      · rw [List.filter_cons, if_pos (beq_self_eq_true name), filter_of_not_mem hfresh]
      · have hother : ¬ (m.1 == name) = true := fun heq =>
          hfresh (List.mem_map.mpr ⟨(name, t), hmem, (eq_of_beq heq).symm⟩)
        rw [List.filter_cons, if_neg hother, ih hnodup hmem]
  rw [field?, hfilter]

@[simp] theorem required_some {α : Type} [Coded α] (t : Tree) :
    required α (some t) = ofTree? t := rfl

/-- The names of a printed record are read. -/
theorem named?_memberTrees (members : List (String × Json)) :
    named? (memberTrees members) = some (members.map fun m => (m.1, tree m.2)) := by
  rw [named?, memberTrees_eq_map, List.mapM_map, mapM_eq_some_map_iff]
  intro m _
  simp [textOf?_piecesOf]

/-- The fields of a printed record are found in their order. -/
theorem ofObject?_zip (names : List String) (values : List Json) (hnodup : names.Nodup)
    (hlength : names.length = values.length) :
    ofObject? names (memberTrees (names.zip values)) =
      some (values.map fun v => some (tree v)) := by
  have hfst : (names.zip values).map Prod.fst = names := List.map_fst_zip hlength.le
  have hsnd : (names.zip values).map Prod.snd = values := List.map_snd_zip hlength.ge
  -- From here on the names and the values are those of the members.
  generalize names.zip values = members at hfst hsnd
  subst hfst hsnd
  have hnames : (members.map fun m => (m.1, tree m.2)).map Prod.fst = members.map Prod.fst := by
    rw [List.map_map]
    rfl
  rw [ofObject?, named?_memberTrees, List.map_map]
  show (members.map Prod.fst).mapM _ = _
  rw [List.mapM_map, mapM_eq_some_map_iff]
  intro m hm
  exact field?_of_mem (hnames ▸ hnodup) (List.mem_map_of_mem hm)

end Record

end TripRecorder.Json
