import Mathlib.Data.List.Forall2
import TripRecorder.Proofs.Chunks
import TripRecorder.Proofs.Procedure
import TripRecorder.Proofs.Store.Calls

/-!
# What an append comes to

Points are added batch by batch, and the database may fail at any of the batches. What was written
by then stays, and the answer says how much it is.

## Main definitions

* `StoreCall.Acts` — a call as a step of a store whose database may fail
* `Store.Gains` — one measurement gained points, and nothing else changed
* `committed` — the points that an append has written, by its answer

## Main results

* `ends_writeBatches` — the batches that are written are the first ones
* `ends_appendPoints` — a measurement gains what was committed, and only while it is open
-/

namespace TripRecorder

/-- A call as a step of a store whose database may fail. -/
def StoreCall.Acts (c : StoreCall) (s : Store) (answer : StoreAnswer c) (s' : Store) : Prop :=
  s.Answers c answer s'

/-- The points that an append has written, by its answer. -/
def committed (points : List Point) : Except StoreError AppendReport → List Point
  | .ok _ => points
  | .error (.partialWrite _ _ n _) => points.take n
  | .error _ => []

/-- A table keeps the points that belong to it one by one, but for the signs of zeros. -/
theorem storedAs_keptIn (t : Table) (points : List Point) :
    List.Forall₂ Point.StoredAs (points.filter fun p => p.table = t) (keptIn t points) :=
  List.forall₂_map_right_iff.mpr (List.forall₂_same.mpr fun p _ => p.storedAs_kept)

namespace Store

variable {s s' s'' : Store} {id i : MeasurementId}

/-- One measurement gained points, each in its table, and nothing else changed. -/
structure Gains (s : Store) (id : MeasurementId) (points : List Point) (s' : Store) : Prop where
  entries_eq : s'.entries = s.entries
  points_eq : ∀ t, s'.points id t = s.points id t ++ keptIn t points
  rowsOf_eq : ∀ i, i ≠ id → ∀ t, s'.rowsOf i t = s.rowsOf i t

/-- The points that a table gained are those that belong to it, but for the signs of zeros. -/
theorem Gains.storedAs {points : List Point} (h : s.Gains id points s') (t : Table) :
    ∃ gained, s'.points id t = s.points id t ++ gained ∧
      List.Forall₂ Point.StoredAs (points.filter fun p => p.table = t) gained :=
  ⟨keptIn t points, h.points_eq t, storedAs_keptIn t points⟩

theorem gains_refl (s : Store) (id : MeasurementId) : s.Gains id [] s :=
  ⟨rfl, fun t => by rw [keptIn_nil, List.append_nil], fun _ _ _ => rfl⟩

theorem Gains.trans {points points' : List Point} (h : s.Gains id points s')
    (h' : s'.Gains id points' s'') : s.Gains id (points ++ points') s'' where
  entries_eq := h'.entries_eq.trans h.entries_eq
  points_eq t := by
    rw [h'.points_eq, h.points_eq, keptIn_append, List.append_assoc]
  rowsOf_eq i hi t := (h'.rowsOf_eq i hi t).trans (h.rowsOf_eq i hi t)

theorem rowsOf_foldl_push_of_ne (points : List Point) (s : Store) (hi : i ≠ id) (t : Table) :
    (points.foldl (fun s p => s.push id p) s).rowsOf i t = s.rowsOf i t := by
  induction points generalizing s with
  | nil => rfl
  | cons p rest ih =>
    have hne : ¬(id = i ∧ p.table = t) := fun h => hi h.1.symm
    rw [List.foldl_cons, ih, rowsOf_push, if_neg hne, List.append_nil]

/-- A transaction that goes through leaves all other measurements alone. -/
theorem gains_insert {points : List Point} (h : (s.insert id points).1 = .ok ()) :
    s.Gains id points (s.insert id points).2 := by
  refine ⟨entries_insert s id points, fun t => ?_, fun i hi t => ?_⟩
  · rw [points_insert h, if_pos rfl]
  · unfold insert at h ⊢
    split at h
    · cases h
    · exact rowsOf_foldl_push_of_ne points s hi t

/-- A status is missing because the measurement is, or because its column holds no status. -/
theorem status_eq_error {e : StoreError} (h : s.status id = .error e) :
    e = .noSuchMeasurement id ∨ ∃ text, e = .corrupt text := by
  unfold Store.status load at h
  cases hentry : s.entry? id with
  | none =>
    rw [hentry] at h
    cases h
    exact .inl rfl
  | some entry =>
    rw [hentry] at h
    cases hstatus : entry.status with
    | known status => simp [ofEntry, hstatus, Except.map] at h
    | unknown text =>
      simp only [ofEntry, hstatus, Except.map] at h
      cases h
      exact .inr ⟨text, rfl⟩

namespace Answers

/-- A batch is gained as a whole, or nothing happens. -/
theorem gains {points : List Point} {answer : Except String Unit}
    (h : s.Answers (.insert id points) answer s') :
    (∃ e, answer = .error e ∧ s' = s) ∨ (answer = .ok () ∧ s.Gains id points s') := by
  rcases h with ⟨rfl, rfl⟩ | ⟨detail, rfl, rfl⟩
  · cases hanswer : (s.insert id points).1 with
    | error e => exact .inl ⟨e, hanswer, insert_error hanswer⟩
    | ok u => exact .inr ⟨hanswer, gains_insert hanswer⟩
  · exact .inl ⟨detail, rfl, rfl⟩

/-- A status that is not answered is no error of a write. -/
theorem committed_of_status {e : StoreError} (h : s.Answers (.status id) (.error e) s')
    (points : List Point) : committed points (.error e) = [] := by
  rcases h with ⟨hserved, -⟩ | ⟨detail, hfailed, -⟩
  · rcases status_eq_error hserved.symm with rfl | ⟨text, rfl⟩ <;> rfl
  · cases hfailed
    rfl

end Answers

end Store

/-- Batches are inserted, and nothing else is asked. -/
theorem asks_writeBatches (id : MeasurementId) (done : AppendReport) (batches : List (List Point)) :
    (writeBatches id done batches).Asks fun c => ∃ batch, c = .insert id batch := by
  induction batches generalizing done with
  | nil => trivial
  | cons batch rest ih =>
    refine ⟨⟨batch, rfl⟩, fun answer => ?_⟩
    cases answer with
    | error e => trivial
    | ok u => exact ih _

variable {s s' : Store} {id : MeasurementId}

/-- The batches that are written are the first ones, and the answer counts them. -/
theorem ends_writeBatches {batches : List (List Point)} {done : AppendReport}
    {result : Except StoreError AppendReport}
    (h : (writeBatches id done batches).Ends StoreCall.Acts s result s') :
    ∃ written rest, batches = written ++ rest ∧ s.Gains id written.flatten s' ∧
      (written = [] → s' = s) ∧
      ((rest = [] ∧ ∃ report, result = .ok report) ∨
        ∃ refusal, result = .error (.partialWrite id (done.batches + written.length)
          (done.points + written.flatten.length) refusal)) := by
  induction batches generalizing done s with
  | nil =>
    obtain ⟨rfl, rfl⟩ := Procedure.ends_done_iff.mp h
    exact ⟨[], [], rfl, Store.gains_refl _ id, fun _ => rfl, .inl ⟨rfl, done, rfl⟩⟩
  | cons batch rest ih =>
    obtain ⟨answer, middle, hcall, hnext⟩ := Procedure.ends_call_iff.mp h
    rcases Store.Answers.gains hcall with ⟨e, rfl, rfl⟩ | ⟨rfl, hgains⟩
    · obtain ⟨rfl, rfl⟩ := Procedure.ends_done_iff.mp hnext
      exact ⟨[], batch :: rest, rfl, Store.gains_refl _ id, fun _ => rfl, .inr ⟨e, rfl⟩⟩
    · -- This batch is written, and of those after it the first ones.
      obtain ⟨written, rest', rfl, hgains', -, hresult⟩ := ih hnext
      refine ⟨batch :: written, rest', rfl, hgains.trans hgains', nofun, ?_⟩
      rcases hresult with hall | ⟨refusal, hrefused⟩
      · exact .inl hall
      · refine .inr ⟨refusal, ?_⟩
        rw [hrefused, List.flatten_cons, List.length_cons, List.length_append, Nat.add_assoc,
          Nat.add_assoc, Nat.add_comm 1]

/-- A measurement gains what was committed. A measurement that is not open gains nothing, and where
nothing was committed, nothing changed. -/
theorem ends_appendPoints {batchLimit : Nat} {points : List Point}
    {result : Except StoreError AppendReport}
    (h : (appendPoints batchLimit id points).Ends StoreCall.Acts s result s') :
    s.Gains id (committed points result) s' ∧ (committed points result = [] → s' = s) ∧
      (s.status id ≠ .ok .opened → committed points result = []) := by
  unfold appendPoints at h
  split at h
  · rename_i hempty
    obtain ⟨rfl, rfl⟩ := Procedure.ends_done_iff.mp h
    rw [List.isEmpty_iff.mp hempty]
    exact ⟨Store.gains_refl _ id, fun _ => rfl, fun _ => rfl⟩
  · obtain ⟨answer, middle, hcall, hnext⟩ := Procedure.ends_call_iff.mp h
    have hanswer : s.Answers (.status id) answer middle := hcall
    obtain rfl : middle = s := hanswer.of_reads (by trivial)
    cases answer with
    | error e =>
      obtain ⟨rfl, rfl⟩ := Procedure.ends_done_iff.mp hnext
      have hnone := hanswer.committed_of_status points
      rw [hnone]
      exact ⟨Store.gains_refl _ id, fun _ => rfl, fun _ => rfl⟩
    | ok status =>
      simp only at hnext
      split at hnext
      · rename_i hopen
        subst hopen
        have hstatus := hanswer.status_of_ok
        obtain ⟨written, rest, hbatches, hgains, hsame, hresult⟩ := ends_writeBatches hnext
        have hpoints : points = written.flatten ++ rest.flatten := by
          rw [← List.flatten_append, ← hbatches, flatten_inChunks]
        have hcommitted : committed points result = written.flatten := by
          rcases hresult with ⟨rfl, report, rfl⟩ | ⟨refusal, rfl⟩
          · rw [committed, hpoints, List.flatten_nil, List.append_nil]
          · rw [committed, hpoints, Nat.zero_add, List.take_left]
        rw [hcommitted]
        refine ⟨hgains, fun hnone => hsame ?_, fun hne => absurd hstatus hne⟩
        -- No batch is empty, so none was written.
        rw [List.eq_nil_iff_forall_not_mem]
        intro batch hbatch
        have hmem : batch ∈ inChunks batchLimit points := by
          rw [hbatches]
          exact List.mem_append_left _ hbatch
        have hpos := (length_of_mem_inChunks hmem).1
        rw [List.flatten_eq_nil_iff.mp hnone batch hbatch] at hpos
        exact Nat.lt_irrefl _ hpos
      · obtain ⟨rfl, rfl⟩ := Procedure.ends_done_iff.mp hnext
        exact ⟨Store.gains_refl _ id, fun _ => rfl, fun _ => rfl⟩

end TripRecorder
