import Mathlib.Data.List.Nodup
import TripRecorder.Proofs.Store.Calls

/-!
# Well-formed stores

Measurements are kept in the order of their identifiers, and a page holds at least one row. Every
store that was opened empty is so, whatever it was asked since.

## Main definitions

* `Store.WellFormed`

## Main results

* `Store.wellFormed_empty`, `Store.WellFormed.serve` — every reachable store is well-formed
* `Store.mem_syncable_iff`, `Store.WellFormed.syncable_ascending` — the measurements to be synced
-/

namespace TripRecorder.Store

variable {s s' : Store} {id : MeasurementId}

/-- The identifiers of the measurements in the order in which they are kept. -/
def ids (s : Store) : List Nat := s.entries.map fun e => e.id.value

/-- Measurements are in the order of their identifiers, and no page is empty by its size. -/
structure WellFormed (s : Store) : Prop where
  ascending : s.ids.Pairwise (· < ·)
  queryLimit_pos : 0 < s.queryLimit

theorem wellFormed_empty (device : Option String) (batchLimit queryLimit : Nat) :
    (empty device batchLimit queryLimit).WellFormed :=
  ⟨List.Pairwise.nil, Nat.lt_of_lt_of_le Nat.one_pos (Nat.le_max_right _ _)⟩

theorem WellFormed.of_eq (h : s.WellFormed) (hids : s'.ids = s.ids)
    (hlimit : s'.queryLimit = s.queryLimit) : s'.WellFormed :=
  ⟨by rw [hids]; exact h.ascending, by rw [hlimit]; exact h.queryLimit_pos⟩

theorem ids_changeEntry {f : Entry → Entry} (hf : ∀ e, (f e).id = e.id) :
    (s.changeEntry id f).ids = s.ids := by
  simp only [ids, changeEntry, List.map_map]
  refine List.map_congr_left fun e _ => ?_
  rw [Function.comp_apply]
  split
  · rw [hf]
  · rfl

theorem WellFormed.create (h : s.WellFormed) (vehicle : Vehicle) :
    (s.create vehicle).2.WellFormed := by
  unfold Store.create
  split
  · exact h
  · refine ⟨?_, h.queryLimit_pos⟩
    rw [ids, List.map_append, List.map_singleton, List.pairwise_append]
    -- A new identifier is larger than all others.
    refine ⟨h.ascending, List.pairwise_singleton _ _, ?_⟩
    intro n hn m hm
    obtain ⟨e, he, rfl⟩ := List.mem_map.mp hn
    rw [List.mem_singleton.mp hm]
    exact lt_nextId he

theorem WellFormed.setStatus (h : s.WellFormed) (id : MeasurementId) (target : MeasurementStatus) :
    (s.setStatus id target).2.WellFormed := by
  rcases s.setStatus_cases id target with ⟨e, -, heq⟩ | ⟨current, -, -, heq⟩ | ⟨-, heq⟩ |
    ⟨current, -, -, -, ⟨refusal, -, heq⟩ | ⟨-, heq⟩⟩
  all_goals rw [heq]
  case inr.inr.inr.inr => exact h.of_eq (ids_changeEntry fun _ => rfl) rfl
  all_goals exact h

theorem WellFormed.insert (h : s.WellFormed) (id : MeasurementId) (ps : List Point) :
    (s.insert id ps).2.WellFormed := by
  obtain ⟨ledger, counters, hinsert⟩ := exists_insert s id ps
  rw [hinsert]
  exact h.of_eq rfl rfl

theorem WellFormed.clean (h : s.WellFormed) (id : MeasurementId) : (s.clean id).2.WellFormed := by
  refine h.of_eq (by rw [ids, entries_clean, ids]) ?_
  unfold Store.clean
  simp only
  split <;> rfl

/-- No call spoils a store. -/
theorem WellFormed.serve (h : s.WellFormed) (c : StoreCall) : (Store.serve c s).2.WellFormed := by
  cases c with
  | create vehicle => exact h.create vehicle
  | setStatus id target => exact h.setStatus id target
  | insert id ps => exact h.insert id ps
  | clean id => exact h.clean id
  | _ => exact h

theorem WellFormed.answers (h : s.WellFormed) {c : StoreCall} {answer : StoreAnswer c}
    (hc : s.Answers c answer s') : s'.WellFormed := by
  rcases hc with ⟨-, rfl⟩ | ⟨-, -, rfl⟩
  · exact h.serve c
  · exact h

/-! ### Measurements to be synced -/

/-- An identifier is found where it is kept. -/
theorem WellFormed.entry?_eq_some_iff (h : s.WellFormed) {e : Entry} :
    s.entry? id = some e ↔ e ∈ s.entries ∧ e.id = id := by
  constructor
  · intro hfind
    have hid : e.id = id := by simpa using List.find?_some hfind
    exact ⟨List.mem_of_find?_eq_some hfind, hid⟩
  · rintro ⟨hmem, rfl⟩
    obtain ⟨found, hfound⟩ : ∃ found, Store.entry? s e.id = some found :=
      Option.isSome_iff_exists.mp (List.find?_isSome.mpr ⟨e, hmem, by simp⟩)
    have hid : found.id = e.id := by simpa using List.find?_some hfound
    -- The first entry with an identifier is found, and there is only one.
    have hnodup : s.ids.Nodup := h.ascending.imp Nat.ne_of_lt
    rw [hfound, List.inj_on_of_nodup_map hnodup (List.mem_of_find?_eq_some hfound) hmem
      (congrArg MeasurementId.value hid)]

theorem WellFormed.mem_syncable_iff (h : s.WellFormed) :
    id ∈ s.syncable ↔ s.status id = .ok .finished := by
  rw [status_eq_ok_iff, syncable, List.mem_map]
  constructor
  · rintro ⟨e, he, rfl⟩
    obtain ⟨hmem, hstatus⟩ := List.mem_filter.mp he
    exact ⟨e, h.entry?_eq_some_iff.mpr ⟨hmem, rfl⟩, by simpa using hstatus⟩
  · rintro ⟨e, hentry, hstatus⟩
    obtain ⟨hmem, rfl⟩ := h.entry?_eq_some_iff.mp hentry
    exact ⟨e, List.mem_filter.mpr ⟨hmem, by simpa using hstatus⟩, rfl⟩

theorem WellFormed.syncable_ascending (h : s.WellFormed) :
    (s.syncable.map fun i => i.value).Pairwise (· < ·) := by
  rw [syncable, List.map_map]
  exact h.ascending.sublist (List.filter_sublist.map _)

end TripRecorder.Store
