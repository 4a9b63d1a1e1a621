import Mathlib.Data.List.Induction
import Mathlib.Data.String.Basic
import TripRecorder.Json.Basic

/-!
# Members sorted by name

The members of an object stand in the order of their names, and every name stands once. A member
that is put in takes the place of one with its name, and leaves the others as they are.

## Main definitions

* `Json.Ascending` — members in the order of their names, every name once

## Main results

* `Json.lookup_insertMember` — what is found under a name after a member was put in
* `Json.Ascending.insertMember`, `Json.ascending_sorted` — the order is kept, and made
* `Json.sorted_of_ascending` — members in their order are not moved
-/

namespace TripRecorder.Json

/-- The members stand in the order of their names, and every name stands once. -/
def Ascending (members : List (String × Json)) : Prop := members.Pairwise fun m m' => m.1 < m'.1

variable {members : List (String × Json)} {name : String} {value : Json}

theorem lookup_cons {α : Type} (key name : String) (value : α) (rest : List (String × α)) :
    ((name, value) :: rest).lookup key = if key = name then some value else rest.lookup key := by
  rw [List.lookup_cons]
  split_ifs with hkey
  · simp only [beq_iff_eq.mpr hkey]
  · simp only [beq_eq_false_iff_ne.mpr hkey]

/-- Under its name a member that was put in is found, and under other names what was found
before. -/
theorem lookup_insertMember (name : String) (value : Json) (members : List (String × Json))
    (key : String) :
    (insertMember name value members).lookup key =
      if key = name then some value else members.lookup key := by
  induction members with
  | nil => exact lookup_cons key name value []
  | cons m rest ih =>
    obtain ⟨other, kept⟩ := m
    rw [insertMember]
    by_cases hbefore : name < other
    · rw [if_pos hbefore, lookup_cons]
    · rw [if_neg hbefore]
      by_cases hsame : name = other
      · -- The member takes the place of the first one.
        subst hsame
        rw [if_pos rfl, lookup_cons, lookup_cons]
        split_ifs <;> rfl
      · rw [if_neg hsame, lookup_cons, lookup_cons, ih]
        split_ifs with hother hname
        · exact absurd (hname.symm.trans hother) hsame
        · rfl
        · rfl
        · rfl

/-- Nothing but the new member is put in. -/
theorem mem_of_mem_insertMember {m : String × Json} (h : m ∈ insertMember name value members) :
    m = (name, value) ∨ m ∈ members := by
  induction members with
  | nil => exact .inl (List.mem_singleton.mp h)
  | cons first rest ih =>
    obtain ⟨other, kept⟩ := first
    rw [insertMember] at h
    split_ifs at h
    · exact List.mem_cons.mp h
    · exact (List.mem_cons.mp h).imp_right (List.mem_cons_of_mem _)
    · rcases List.mem_cons.mp h with rfl | hrest
      · exact .inr List.mem_cons_self
      · exact (ih hrest).imp_right (List.mem_cons_of_mem _)

theorem Ascending.insertMember (h : Ascending members) (name : String) (value : Json) :
    Ascending (insertMember name value members) := by
  induction members with
  | nil => exact List.pairwise_singleton _ _
  | cons first rest ih =>
    obtain ⟨other, kept⟩ := first
    obtain ⟨hfirst, hrest⟩ := List.pairwise_cons.mp h
    rw [Json.insertMember]
    split_ifs with hbefore hsame
    · refine List.pairwise_cons.mpr ⟨fun m hm => ?_, h⟩
      rcases List.mem_cons.mp hm with rfl | hm
      · exact hbefore
      · exact hbefore.trans (hfirst m hm)
    · subst hsame
      exact List.pairwise_cons.mpr ⟨hfirst, hrest⟩
    · refine List.pairwise_cons.mpr ⟨fun m hm => ?_, ih hrest⟩
      rcases mem_of_mem_insertMember hm with rfl | hm
      · exact lt_of_le_of_ne (not_lt.mp hbefore) (Ne.symm hsame)
      · exact hfirst m hm

/-- Putting members in one after another keeps the order, and adds nothing else. -/
theorem Ascending.foldl (h : Ascending members) (others : List (String × Json)) :
    Ascending (others.foldl (fun done m => Json.insertMember m.1 m.2 done) members) ∧
      ∀ m ∈ others.foldl (fun done m => Json.insertMember m.1 m.2 done) members,
        m ∈ others ∨ m ∈ members := by
  induction others generalizing members with
  | nil => exact ⟨h, fun m hm => .inr hm⟩
  | cons first rest ih =>
    obtain ⟨hascending, hmem⟩ := ih (h.insertMember first.1 first.2)
    refine ⟨hascending, fun m hm => ?_⟩
    rcases hmem m hm with hrest | hdone
    · exact .inl (List.mem_cons_of_mem _ hrest)
    · rcases mem_of_mem_insertMember hdone with rfl | hbefore
      · exact .inl List.mem_cons_self
      · exact .inr hbefore

theorem ascending_nil : Ascending [] := .nil

theorem ascending_sorted (members : List (String × Json)) : Ascending (sorted members) :=
  (ascending_nil.foldl members).1

theorem mem_of_mem_sorted {m : String × Json} (h : m ∈ sorted members) : m ∈ members :=
  ((ascending_nil.foldl members).2 m h).resolve_right List.not_mem_nil

/-- A member whose name comes after all others is put in at the end. -/
theorem insertMember_of_forall_lt (h : ∀ m ∈ members, m.1 < name) (value : Json) :
    insertMember name value members = members ++ [(name, value)] := by
  induction members with
  | nil => rfl
  | cons first rest ih =>
    obtain ⟨other, kept⟩ := first
    obtain ⟨hfirst, hrest⟩ := List.forall_mem_cons.mp h
    rw [insertMember, if_neg (lt_asymm hfirst), if_neg (ne_of_gt hfirst), ih hrest]
    rfl

/-- Members in their order are not moved. -/
theorem sorted_of_ascending (h : Ascending members) : sorted members = members := by
  induction members using List.reverseRecOn with
  | nil => rfl
  | append_singleton front m ih =>
    obtain ⟨hfront, -, hlast⟩ := List.pairwise_append.mp h
    have hdone : front.foldl (fun done m => insertMember m.1 m.2 done) [] = front := ih hfront
    rw [sorted, List.foldl_append, hdone]
    exact insertMember_of_forall_lt (fun m' hm' => hlast m' hm' m List.mem_cons_self) m.2

/-- Other values under the same names stand in the same order. -/
theorem Ascending.map (h : Ascending members) (f : Json → Json) :
    Ascending (members.map fun m => (m.1, f m.2)) :=
  List.pairwise_map.mpr h

end TripRecorder.Json
