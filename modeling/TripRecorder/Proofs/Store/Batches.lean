import TripRecorder.Proofs.Store.Append

/-!
# Whole batches

While nobody else uses the store, an append writes whole batches. Which of them it writes is told by
the first point that the database refuses: all batches before the one with that point are written,
and none after them.

## Main definitions

* `Store.pushAll` — the store with some points more
* `Store.FirstRefusal` — the first point that the database refuses

## Main results

* `run_writeBatches_append`, `run_writeBatches_refused` — batches that are written, and one that is
  not
* `Store.append_of_accepted`, `Store.append_of_refused` — an append without a refused point, and one
  with it
* `Store.append_commits_whole_batches` — what an append answers and leaves, by its points and the
  size of a batch
-/

namespace TripRecorder

namespace Store

variable {s : Store} {id : MeasurementId} {points : List Point}

/-- The store with some points more, in their order. -/
def pushAll (s : Store) (id : MeasurementId) (points : List Point) : Store :=
  points.foldl (fun s p => s.push id p) s

theorem pushAll_append (s : Store) (id : MeasurementId) (points later : List Point) :
    s.pushAll id (points ++ later) = (s.pushAll id points).pushAll id later :=
  List.foldl_append

/-- The first point that the database refuses, by its place, and what the database answers. -/
def FirstRefusal (s : Store) (points : List Point) (place : Nat) (refusal : String) : Prop :=
  (∀ p ∈ points.take place, s.refusal? p = none) ∧
    ∃ p, points[place]? = some p ∧ s.refusal? p = some refusal

/-- All points are accepted, or one of them is the first that is not. -/
theorem accepted_or_firstRefusal (s : Store) (points : List Point) :
    (∀ p ∈ points, s.refusal? p = none) ∨
      ∃ place refusal, s.FirstRefusal points place refusal := by
  induction points with
  | nil => exact .inl fun p hp => absurd hp List.not_mem_nil
  | cons p rest ih =>
    cases hp : s.refusal? p with
    | some refusal => exact .inr ⟨0, refusal, fun q hq => absurd hq List.not_mem_nil, p, rfl, hp⟩
    | none =>
      rcases ih with hall | ⟨place, refusal, hbefore, hfirst⟩
      · exact .inl (List.forall_mem_cons.mpr ⟨hp, hall⟩)
      · exact .inr ⟨place + 1, refusal, List.forall_mem_cons.mpr ⟨hp, hbefore⟩, hfirst⟩

/-- What the database refuses does not depend on what is stored. -/
theorem refusal?_pushAll (s : Store) (id : MeasurementId) (points : List Point) :
    (s.pushAll id points).refusal? = s.refusal? := by
  obtain ⟨ledger, counters, hpush⟩ := exists_foldl_push points s id
  rw [pushAll, hpush]
  rfl

theorem gains_pushAll (s : Store) (id : MeasurementId) (points : List Point) :
    s.Gains id points (s.pushAll id points) where
  entries_eq := by
    obtain ⟨ledger, counters, hpush⟩ := exists_foldl_push points s id
    rw [pushAll, hpush]
  points_eq t := by rw [pushAll, points_foldl_push, if_pos rfl]
  rowsOf_eq i hi t := rowsOf_foldl_push_of_ne points s hi t

/-- Limits do not change what is added. -/
theorem pushAll_reopen (s : Store) (device : Option String) (batchLimit queryLimit : Nat)
    (id : MeasurementId) (points : List Point) :
    (s.reopen device batchLimit queryLimit).pushAll id points =
      (s.pushAll id points).reopen device batchLimit queryLimit := by
  induction points generalizing s with
  | nil => rfl
  | cons p rest ih => exact ih (s.push id p)

theorem insert_of_accepted (h : ∀ p ∈ points, s.refusal? p = none) :
    s.insert id points = (.ok (), s.pushAll id points) := by
  rw [insert, List.findSome?_eq_none_iff.mpr h]
  rfl

theorem insert_of_refused {accepted rest : List Point} {p : Point} {refusal : String}
    (h : ∀ q ∈ accepted, s.refusal? q = none) (hp : s.refusal? p = some refusal) :
    s.insert id (accepted ++ p :: rest) = (.error refusal, s) := by
  have hfirst : (accepted ++ p :: rest).findSome? s.refusal? = some refusal := by
    rw [List.findSome?_append, List.findSome?_eq_none_iff.mpr h, Option.none_or,
      List.findSome?_cons_of_isSome (by rw [hp]; rfl), hp]
  rw [insert, hfirst]

end Store

variable {s : Store} {id : MeasurementId}

/-- Batches of accepted points are written one after another, and counted. -/
theorem run_writeBatches_append {batches : List (List Point)}
    (h : ∀ p ∈ batches.flatten, s.refusal? p = none) (done : AppendReport)
    (more : List (List Point)) :
    (writeBatches id done (batches ++ more)).run Store.serve s =
      (writeBatches id ⟨done.batches + batches.length, done.points + batches.flatten.length⟩
        more).run Store.serve (s.pushAll id batches.flatten) := by
  induction batches generalizing s done with
  | nil => rfl
  | cons batch rest ih =>
    rw [List.flatten_cons, List.forall_mem_append] at h
    have hinsert : Store.serve (.insert id batch) s = (.ok (), s.pushAll id batch) :=
      Store.insert_of_accepted h.1
    have hrest : ∀ p ∈ rest.flatten, (s.pushAll id batch).refusal? p = none := by
      rw [Store.refusal?_pushAll]
      exact h.2
    rw [List.cons_append, writeBatches, Procedure.run_call, hinsert]
    simp only
    rw [ih hrest, List.flatten_cons, Store.pushAll_append, List.length_cons, List.length_append,
      Nat.add_assoc, Nat.add_assoc, Nat.add_comm 1]

/-- A refused batch ends an append. -/
theorem run_writeBatches_refused {batch : List Point} {refusal : String}
    (h : s.insert id batch = (.error refusal, s)) (done : AppendReport)
    (rest : List (List Point)) : (writeBatches id done (batch :: rest)).run Store.serve s =
      (.error (.partialWrite id done.batches done.points refusal), s) := by
  have hinsert : Store.serve (.insert id batch) s = (.error refusal, s) := h
  rw [writeBatches, Procedure.run_call, hinsert]
  rfl

namespace Store

variable {points : List Point}

/-- An append of points to an open measurement writes their batches. -/
theorem append_of_opened (hopen : s.status id = .ok .opened) (hne : points ≠ []) :
    s.append id points = (writeBatches id ⟨0, 0⟩ (inChunks s.batchLimit points)).run serve s := by
  have hstatus : serve (.status id) s = (.ok .opened, s) := congrArg (·, s) hopen
  have hempty : points.isEmpty = false := by simpa using hne
  rw [append, appendPoints, hempty, if_neg Bool.false_ne_true, Procedure.run_call, hstatus]
  rfl

/-- If no point is refused, all of them are written. -/
theorem append_of_accepted (hopen : s.status id = .ok .opened)
    (h : ∀ p ∈ points, s.refusal? p = none) : s.append id points =
      (.ok ⟨(points.length + (max s.batchLimit 1 - 1)) / max s.batchLimit 1, points.length⟩,
        s.pushAll id points) := by
  by_cases hne : points = []
  · subst hne
    rw [List.length_nil, Nat.zero_add, Nat.div_eq_of_lt (by omega)]
    rfl
  · have hall : ∀ p ∈ (inChunks s.batchLimit points).flatten, s.refusal? p = none := by
      rwa [flatten_inChunks]
    have hrun := @run_writeBatches_append s id _ hall ⟨0, 0⟩ []
    rw [List.append_nil, flatten_inChunks, length_inChunks, Nat.zero_add, Nat.zero_add] at hrun
    rw [append_of_opened hopen hne, hrun]
    rfl

/-- If a point is refused, the batches before its batch are written, all of them full. -/
theorem append_of_refused (hopen : s.status id = .ok .opened) {place : Nat} {refusal : String}
    (h : s.FirstRefusal points place refusal) {size : Nat} (hsize : size = max s.batchLimit 1) :
    s.append id points =
      (.error (.partialWrite id (place / size) (size * (place / size)) refusal),
        s.pushAll id (points.take (size * (place / size)))) := by
  obtain ⟨haccepted, p, hp, hrefusal⟩ := h
  obtain ⟨hplace, rfl⟩ := List.getElem?_eq_some_iff.mp hp
  -- The point is in a batch that begins with accepted points, after full batches of them.
  obtain ⟨full, begun, later, more, hsplit, hlength, hnumber, hpieces⟩ :=
    inChunks_append_cons hsize (points.take place) points[place] (points.drop (place + 1))
  rw [List.length_take_of_le (Nat.le_of_lt hplace)] at hlength hnumber
  rw [List.getElem_cons_drop, List.take_append_drop] at hpieces
  rw [hsplit, List.forall_mem_append] at haccepted
  have hwritten : points.take (size * (place / size)) = full := by
    have htake := congrArg (List.take full.length) hsplit
    rwa [List.take_left, List.take_take, hlength, Nat.min_eq_left (Nat.mul_div_le ..)] at htake
  have hfull : ∀ q ∈ (inChunks s.batchLimit full).flatten, s.refusal? q = none := by
    rw [flatten_inChunks]
    exact haccepted.1
  have hrefused : (s.pushAll id full).insert id (begun ++ points[place] :: later) =
      (.error refusal, s.pushAll id full) :=
    insert_of_refused (by rw [refusal?_pushAll]; exact haccepted.2)
      (by rw [refusal?_pushAll]; exact hrefusal)
  have hne : points ≠ [] := List.ne_nil_of_length_pos (Nat.zero_lt_of_lt hplace)
  rw [append_of_opened hopen hne, hpieces, run_writeBatches_append hfull, flatten_inChunks,
    run_writeBatches_refused hrefused, hnumber, hlength, Nat.zero_add, Nat.zero_add, hwritten]

/-- An append to an open measurement writes whole batches, a size of zero counting as one. If no
point is refused, it writes all of them. Otherwise it writes the batches before the one with the
first refused point, and answers how many they are and how many points they hold. What is written
is gained by the measurement, each point in its table and unchanged but for the signs of zeros, and
does not depend on the size of a batch. -/
theorem append_commits_whole_batches (hopen : s.status id = .ok .opened) (points : List Point)
    (device : Option String) (batchLimit queryLimit : Nat) :
    let limited := s.reopen device batchLimit queryLimit
    let size := max batchLimit 1
    ((∀ p ∈ points, s.refusal? p = none) → limited.append id points =
      (.ok ⟨(points.length + (size - 1)) / size, points.length⟩, limited.pushAll id points)) ∧
    (∀ place refusal, s.FirstRefusal points place refusal → limited.append id points =
      (.error (.partialWrite id (place / size) (size * (place / size)) refusal),
        limited.pushAll id (points.take (size * (place / size))))) ∧
    ((∀ p ∈ points, s.refusal? p = none) ∨
      ∃ place refusal, s.FirstRefusal points place refusal) ∧
    limited.append id [] = (.ok ⟨0, 0⟩, limited) ∧
    (∀ added, limited.Gains id added (limited.pushAll id added) ∧
      ∀ t, ∃ gained, (limited.pushAll id added).points id t = limited.points id t ++ gained ∧
        List.Forall₂ Point.StoredAs (added.filter fun p => p.table = t) gained) ∧
    ∀ added, limited.pushAll id added =
      (s.pushAll id added).reopen device batchLimit queryLimit := by
  intro limited size
  have hlimited : limited.status id = .ok .opened := hopen
  have hsize : size = max limited.batchLimit 1 := by
    simp only [size, limited, reopen]
    omega
  refine ⟨fun hall => ?_, fun place refusal hfirst => append_of_refused hlimited hfirst hsize,
    s.accepted_or_firstRefusal points, rfl, fun added => ?_,
    pushAll_reopen s device batchLimit queryLimit id⟩
  · rw [append_of_accepted hlimited hall, ← hsize]
  · have hgains := gains_pushAll limited id added
    exact ⟨hgains, hgains.storedAs⟩

/-- Of five samples in batches of two the fourth one is refused. One batch is written. -/
theorem append_refused_fourth :
    let reading (kind : SampleKind) : Point := .sample ⟨kind, .zero, .zero, .zero, 0⟩
    let broken : Point := .sample ⟨.direction, .zero, ⟨0x7ff8000000000000⟩, .zero, 0⟩
    let points := [reading .acceleration, reading .rotation, reading .acceleration, broken,
      reading .acceleration]
    let s := ((empty none 1 1).create .car).2
    let written := (s.reopen none 2 1).append ⟨1⟩ points
    s.status ⟨1⟩ = .ok .opened ∧
      s.FirstRefusal points 3 "NOT NULL constraint failed: direction.y" ∧
      written.1 = .error (.partialWrite ⟨1⟩ 1 2 "NOT NULL constraint failed: direction.y") ∧
      written.2.points ⟨1⟩ (.samples .acceleration) = [reading .acceleration] ∧
      written.2.points ⟨1⟩ (.samples .rotation) = [reading .rotation] := by
  intro reading broken points s written
  have hopen : s.status ⟨1⟩ = .ok .opened := rfl
  have hfirst : s.FirstRefusal points 3 "NOT NULL constraint failed: direction.y" :=
    ⟨by decide, broken, rfl, by decide⟩
  obtain ⟨-, hrefused, -, -, hgains, -⟩ := append_commits_whole_batches hopen points none 2 1
  have hwritten : written = _ := hrefused 3 _ hfirst
  rw [hwritten]
  refine ⟨hopen, hfirst, rfl, ?_, ?_⟩
  · rw [(hgains _).1.points_eq]
    decide
  · rw [(hgains _).1.points_eq]
    decide

end Store

end TripRecorder
