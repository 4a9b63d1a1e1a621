import Mathlib.Data.List.Sort
import TripRecorder.Proofs.Store.Calls

/-!
# The order in which points are read

Points are read by time, and those of one time in the order in which they were written. This file
says that no other arrangement of the points is like that, and what becomes of it when points are
added.

## Main definitions

* `Arranged` — a list in the order of time that keeps the order of the points of each time
* `Store.serveByInsertion` — a store that can be evaluated

## Main results

* `mergeSort_stable` — sorting by time leaves what has one time in its order
* `arranged_iff` — the order in which points are read is the only such arrangement
* `byTime_append` — points that are not earlier than all others come last
* `Store.serve_eq_serveByInsertion` — a store answers what it can be evaluated to
-/

namespace TripRecorder

/-- The points of a list in the order of time, those of one time in the order of the list. -/
structure Arranged (points arranged : List Point) : Prop where
  ascending : arranged.Pairwise fun p q => p.timestamp ≤ q.timestamp
  stable : ∀ time, (arranged.filter fun p => p.timestamp = time) =
    points.filter fun p => p.timestamp = time

variable {points arranged : List Point} {p : Point}

theorem Arranged.mem_iff (h : Arranged points arranged) : p ∈ arranged ↔ p ∈ points := by
  have hfilter := congrArg (p ∈ ·) (h.stable p.timestamp)
  simpa using hfilter

theorem Arranged.eq_nil_iff (h : Arranged points arranged) : arranged = [] ↔ points = [] := by
  simp only [List.eq_nil_iff_forall_not_mem, h.mem_iff]

/-- Sorting leaves elements of one rank in their order if it keeps those together in order that are
in order already. -/
theorem filter_of_sorted {α : Type} {le : α → α → Prop} {xs sorted : List α}
    (hperm : sorted.Perm xs)
    (hkeeps : ∀ some : List α, some.Pairwise le → some.Sublist xs → some.Sublist sorted)
    {p : α → Bool} (hp : ∀ x ∈ xs, ∀ y ∈ xs, p x = true → p y = true → le x y) :
    sorted.filter p = xs.filter p := by
  have hordered : (xs.filter p).Pairwise le := by
    refine List.pairwise_of_forall_mem_list fun x hx y hy => ?_
    obtain ⟨hx, hpx⟩ := List.mem_filter.mp hx
    obtain ⟨hy, hpy⟩ := List.mem_filter.mp hy
    exact hp x hx y hy hpx hpy
  have hsub := (hkeeps _ hordered List.filter_sublist).filter p
  rw [List.filter_filter] at hsub
  have hlength := (hperm.filter p).length_eq
  simp only [Bool.and_self] at hsub
  exact (hsub.eq_of_length hlength.symm).symm

/-- Sorting arranges points if it keeps those together in order that are in order already. -/
theorem arranged_of_sorted (hperm : arranged.Perm points)
    (hascending : arranged.Pairwise fun p q => p.timestamp ≤ q.timestamp)
    (hkeeps : ∀ some : List Point, some.Pairwise (fun p q => p.timestamp ≤ q.timestamp) →
      some.Sublist points → some.Sublist arranged) : Arranged points arranged where
  ascending := hascending
  stable time := by
    refine filter_of_sorted hperm hkeeps fun p _ q _ hp hq => ?_
    have htime : p.timestamp = q.timestamp :=
      (of_decide_eq_true hp).trans (of_decide_eq_true hq).symm
    rw [htime]
    exact Int64.le_refl _

/-- Sorting by time leaves what has one time in its order. -/
theorem mergeSort_stable {α : Type} (time : α → Int64) (xs : List α) :
    ((xs.mergeSort fun x y => decide (time x ≤ time y)).Pairwise fun x y => time x ≤ time y) ∧
      ∀ stamp, ((xs.mergeSort fun x y => decide (time x ≤ time y)).filter fun x => time x = stamp) =
        xs.filter fun x => time x = stamp := by
  have htrans (x y z : α) (hxy : decide (time x ≤ time y) = true)
      (hyz : decide (time y ≤ time z) = true) : decide (time x ≤ time z) = true :=
    decide_eq_true (Int64.le_trans (of_decide_eq_true hxy) (of_decide_eq_true hyz))
  have htotal (x y : α) : (decide (time x ≤ time y) || decide (time y ≤ time x)) = true := by
    simpa using Int64.le_total (time x) (time y)
  refine ⟨(List.pairwise_mergeSort htrans htotal xs).imp fun hle => of_decide_eq_true hle,
    fun stamp => ?_⟩
  refine filter_of_sorted (List.mergeSort_perm xs _)
    (fun some hsome hsub => List.sublist_mergeSort htrans htotal hsome hsub) fun x _ y _ hx hy => ?_
  have htime : time x = time y := (of_decide_eq_true hx).trans (of_decide_eq_true hy).symm
  rw [htime]
  exact decide_eq_true (Int64.le_refl _)

theorem arranged_byTime (points : List Point) : Arranged points (byTime points) :=
  ⟨(mergeSort_stable Point.timestamp points).1, (mergeSort_stable Point.timestamp points).2⟩

/-- Two arrangements of the same points are equal. -/
theorem Arranged.unique {other : List Point} (h : Arranged points arranged)
    (h' : Arranged points other) : arranged = other := by
  induction arranged generalizing points other with
  | nil =>
    have hnone := h.eq_nil_iff.mp rfl
    exact (h'.eq_nil_iff.mpr hnone).symm
  | cons p rest ih =>
    cases other with
    | nil =>
      have hnone := h'.eq_nil_iff.mp rfl
      exact h.eq_nil_iff.mpr hnone
    | cons q rest' =>
      -- Each of the two first points is in the other list as well, so their times are equal.
      have hp : p ∈ q :: rest' := h'.mem_iff.mpr (h.mem_iff.mp List.mem_cons_self)
      have hq : q ∈ p :: rest := h.mem_iff.mpr (h'.mem_iff.mp List.mem_cons_self)
      have hpq : p.timestamp ≤ q.timestamp := by
        rcases List.mem_cons.mp hq with rfl | hmem
        · exact Int64.le_refl _
        · exact (List.pairwise_cons.mp h.ascending).1 q hmem
      have hqp : q.timestamp ≤ p.timestamp := by
        rcases List.mem_cons.mp hp with rfl | hmem
        · exact Int64.le_refl _
        · exact (List.pairwise_cons.mp h'.ascending).1 p hmem
      have htime : p.timestamp = q.timestamp := Int64.le_antisymm hpq hqp
      have hstable (time : Int64) := (h.stable time).trans (h'.stable time).symm
      have hfirst := hstable p.timestamp
      rw [List.filter_cons_of_pos (by simp), List.filter_cons_of_pos (by simp [htime])] at hfirst
      obtain ⟨rfl, -⟩ := List.cons.inj hfirst
      have hrest' : Arranged rest' rest' :=
        ⟨(List.pairwise_cons.mp h'.ascending).2, fun _ => rfl⟩
      refine congrArg (p :: ·) (ih ⟨(List.pairwise_cons.mp h.ascending).2, ?_⟩ hrest')
      intro time
      have hboth := hstable time
      simp only [List.filter_cons] at hboth
      split at hboth
      · exact (List.cons.inj hboth).2
      · exact hboth

/-- Points are read in the only order that is by time and keeps the order of each time. -/
theorem arranged_iff : Arranged points arranged ↔ arranged = byTime points := by
  constructor
  · intro h
    exact h.unique (arranged_byTime points)
  · rintro rfl
    exact arranged_byTime points

theorem mem_byTime_iff : p ∈ byTime points ↔ p ∈ points := (arranged_byTime points).mem_iff

/-- Points that are not earlier than those before them come last. -/
theorem byTime_append {later : List Point}
    (h : ∀ p ∈ points, ∀ q ∈ later, p.timestamp ≤ q.timestamp) :
    byTime (points ++ later) = byTime points ++ byTime later := by
  refine (arranged_iff.mp ⟨?_, fun time => ?_⟩).symm
  · rw [List.pairwise_append]
    refine ⟨(arranged_byTime points).ascending, (arranged_byTime later).ascending, ?_⟩
    intro p hp q hq
    exact h p (mem_byTime_iff.mp hp) q (mem_byTime_iff.mp hq)
  · rw [List.filter_append, List.filter_append, (arranged_byTime points).stable,
      (arranged_byTime later).stable]

/-! ### Order by insertion -/

/-- One point comes no later than another. -/
def Point.NotLater (p q : Point) : Prop := p.timestamp ≤ q.timestamp

instance : DecidableRel Point.NotLater := fun p q =>
  inferInstanceAs (Decidable (p.timestamp ≤ q.timestamp))

instance : Std.Total Point.NotLater := ⟨fun p q => Int64.le_total p.timestamp q.timestamp⟩

instance : IsTrans Point Point.NotLater := ⟨fun _ _ _ hpq hqr => Int64.le_trans hpq hqr⟩

/-- Points are put in the order of time by inserting them one by one. -/
theorem byTime_eq_insertionSort (points : List Point) :
    byTime points = points.insertionSort Point.NotLater :=
  (arranged_iff.mp (arranged_of_sorted (List.perm_insertionSort _ points)
    (List.pairwise_insertionSort Point.NotLater points) fun _ hsome hsub =>
      List.sublist_insertionSort hsome hsub)).symm

namespace Store

theorem map_window {α β : Type} (f : α → β) (offset limit : Nat) (xs : List α) :
    (window offset limit xs).map f = window offset limit (xs.map f) := by
  unfold window
  by_cases hoffset : offset < signBound <;> by_cases hlimit : limit < signBound <;>
    simp [hoffset, hlimit]

theorem mem_of_mem_window {α : Type} {offset limit : Nat} {xs : List α} {x : α}
    (h : x ∈ window offset limit xs) : x ∈ xs := by
  unfold window at h
  by_cases hoffset : offset < signBound <;> by_cases hlimit : limit < signBound <;>
    simp only [hoffset, hlimit, if_true, if_false] at h
  · exact List.mem_of_mem_drop (List.mem_of_mem_take h)
  · exact List.mem_of_mem_drop h
  · exact List.mem_of_mem_take h
  · exact h

/-- A page of points that can be read is a window of the points by time. -/
theorem page_of_readable {s : Store} {id : MeasurementId} {t : Table}
    (h : ∀ r ∈ s.rowsOf id t, r.readable = true) (offset limit : Nat) :
    s.page id t offset limit =
      .ok (window offset (min limit s.queryLimit) (byTime (s.points id t))) := by
  have hall : ((window offset (min limit s.queryLimit) (s.rowsByTime id t)).all
      fun r => r.readable) = true := by
    rw [List.all_eq_true]
    intro r hr
    exact h r (List.mem_mergeSort.mp (mem_of_mem_window hr))
  rw [← pointsByTime_eq, pointsByTime, ← map_window]
  exact if_pos hall

/-- A store that puts the points of a page in order by insertion. In contrast to one that sorts them
otherwise, it can be evaluated. -/
def serveByInsertion : (c : StoreCall) → Store → StoreAnswer c × Store
  | .page id t offset limit, s =>
    if (s.rowsOf id t).all fun r => r.readable then
      (.ok (window offset (min limit s.queryLimit)
        ((s.points id t).insertionSort Point.NotLater)), s)
    else serve (.page id t offset limit) s
  | c, s => serve c s

theorem serve_eq_serveByInsertion : serve = serveByInsertion := by
  funext c s
  cases c with
  | page id t offset limit =>
    simp only [serveByInsertion]
    split
    · rename_i hread
      rw [← byTime_eq_insertionSort, serve, page_of_readable (List.all_eq_true.mp hread)]
    · rfl
  | _ => rfl

end Store

end TripRecorder
