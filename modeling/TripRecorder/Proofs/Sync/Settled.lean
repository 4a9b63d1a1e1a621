import TripRecorder.Proofs.Store.WellFormed

/-!
# Measurements that were handed over

A measurement the collector has is emptied and marked. This file says what is left of a store in
which that was done to some measurements, and that one more is settled by a purge and a mark.

## Main definitions

* `Store.settled` — the store without the points of some measurements, which are marked synced
* `Store.Faultless` — nothing is refused that a cycle asks for

## Main results

* `Store.status_settled`, `Store.load_settled`, `Store.rowsOf_settled` — what is left
* `Store.Faultless.settle` — one more measurement is settled
-/

namespace TripRecorder.Store

variable {s : Store} {id : MeasurementId} {ids : List MeasurementId}

/-- The store in which some measurements are marked synced and hold no points. -/
def settled (s : Store) (ids : List MeasurementId) : Store :=
  { s with
    entries := s.entries.map fun e => if e.id ∈ ids then { e with status := .known .synced } else e
    ledger := s.ledger.filter fun r => decide (r.owner ∉ ids) }

/-- Nothing is refused that a cycle asks for: points are read, measurements are emptied and
marked. -/
structure Faultless (s : Store) : Prop where
  delete : ∀ t, s.rules.delete t = none
  setStatus : s.rules.setStatus = none
  readable : ∀ r ∈ s.ledger, r.readable = true

@[simp] theorem settled_nil (s : Store) : s.settled [] = s := by
  have hledger : (s.ledger.filter fun r => decide (r.owner ∉ ([] : List MeasurementId))) =
      s.ledger := Array.filter_eq_self.mpr fun r _ => by simp
  rw [settled, hledger]
  simp

theorem settled_settled (s : Store) (ids ids' : List MeasurementId) :
    (s.settled ids).settled ids' = s.settled (ids ++ ids') := by
  have hentry (e : Entry) :
      (if (if e.id ∈ ids then { e with status := StatusColumn.known .synced } else e).id ∈ ids'
        then { (if e.id ∈ ids then { e with status := .known .synced } else e) with
          status := .known .synced }
        else if e.id ∈ ids then { e with status := .known .synced } else e) =
      if e.id ∈ ids ++ ids' then { e with status := .known .synced } else e := by
    by_cases h : e.id ∈ ids <;> by_cases h' : e.id ∈ ids' <;> simp [h, h']
  simp only [settled, List.map_map, Function.comp_def, hentry, Array.filter_filter]
  simp [Bool.and_comm]

theorem ids_settled (s : Store) (ids : List MeasurementId) : (s.settled ids).ids = s.ids := by
  simp only [Store.ids, settled, List.map_map]
  refine List.map_congr_left fun e _ => ?_
  rw [Function.comp_apply]
  split <;> rfl

theorem WellFormed.settled (h : s.WellFormed) (ids : List MeasurementId) :
    (s.settled ids).WellFormed := h.of_eq (ids_settled s ids) rfl

theorem Faultless.settled (h : s.Faultless) (ids : List MeasurementId) :
    (s.settled ids).Faultless :=
  ⟨h.delete, h.setStatus, fun r hr => h.readable r (Array.mem_filter.mp hr).1⟩

/-- No points of a settled measurement are left, and all points of the others. -/
theorem rowsOf_settled (s : Store) (ids : List MeasurementId) (i : MeasurementId) (t : Table) :
    (s.settled ids).rowsOf i t = if i ∈ ids then [] else s.rowsOf i t := by
  have hrows : (s.settled ids).rowsOf i t =
      (s.rowsOf i t).filter fun r => decide (r.owner ∉ ids) := rowsOf_filter _ s i t
  rw [hrows]
  split
  · rw [List.filter_eq_nil_iff]
    intro r hr
    rw [(mem_rowsOf_iff.mp hr).2.1]
    simpa
  · rw [List.filter_eq_self]
    intro r hr
    rw [(mem_rowsOf_iff.mp hr).2.1]
    simpa

theorem pointsByTime_settled (h : id ∉ ids) (t : Table) :
    (s.settled ids).pointsByTime id t = s.pointsByTime id t := by
  rw [pointsByTime, rowsByTime, rowsOf_settled, if_neg h, pointsByTime, rowsByTime]

theorem entry?_settled (s : Store) (ids : List MeasurementId) (i : MeasurementId) :
    Store.entry? (s.settled ids) i = (s.entry? i).map fun e =>
      if i ∈ ids then { e with status := .known .synced } else e := by
  have hid (e : Entry) :
      (if e.id ∈ ids then { e with status := StatusColumn.known .synced } else e).id = e.id := by
    split <;> rfl
  simp only [settled, entry?, List.find?_map, Function.comp_def, hid]
  cases hfind : s.entries.find? fun e => decide (e.id = i) with
  | none => rfl
  | some e =>
    have he : e.id = i := by simpa using List.find?_some hfind
    rw [Option.map_some, Option.map_some, he]

/-- A measurement that was not settled is as it was. -/
theorem load_settled (h : id ∉ ids) : (s.settled ids).load id = s.load id := by
  simp only [load, entry?_settled, if_neg h, Option.map_id']

/-- A settled measurement is synced. -/
theorem status_settled {status : MeasurementStatus} (hs : s.status id = .ok status)
    (h : id ∈ ids) : (s.settled ids).status id = .ok .synced := by
  obtain ⟨e, hentry, -⟩ := status_eq_ok_iff.mp hs
  rw [status_eq_ok_iff, entry?_settled, hentry]
  exact ⟨{ e with status := .known .synced }, by simp [h], rfl⟩

/-- A finished measurement is settled by a purge and a mark. -/
theorem Faultless.settle (h : s.Faultless) (hs : s.status id = .ok .finished) :
    ∃ n, (s.clean id).1 = .ok n ∧
      (s.clean id).2.setStatus id .synced = (.ok (), s.settled [id]) := by
  have hstatus : (s.clean id).2.status id = .ok .finished := by
    rw [status_congr (entries_clean s id), hs]
  have hrule : (s.clean id).2.rules.setStatus = none := by
    rw [clean_eq h.delete]
    exact h.setStatus
  have hcan : MeasurementStatus.finished.canBecome .synced = true := rfl
  refine ⟨_, by rw [clean_eq h.delete], ?_⟩
  rw [setStatus_eq hstatus hcan (by decide) hrule, clean_eq h.delete]
  simp [changeEntry, Store.settled]

end TripRecorder.Store
