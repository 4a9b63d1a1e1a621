import TripRecorder.Proofs.Store.Order

/-!
# The numbers of rows

Every table numbers its rows as they come, whatever measurements they belong to, and the database
reads them by time and then by number. Within a measurement this is the order in which its rows were
inserted, however those of other measurements came in between.

## Main definitions

* `Row.Before` — the order in which the database reads rows
* `Store.tableRows` — the rows of a table, of all measurements
* `Store.Numbered` — rows are numbered as they come
* `Store.NumbersFit` — the numbers that the database can give out

## Main results

* `Store.Numbered.push`, `Store.Numbered.answers` — every call keeps rows numbered
* `Store.Numbered.rowsByTime_iff` — rows are read by time and number
* `Store.Numbered.count_le` — there are not more rows than numbers
-/

namespace TripRecorder

/-- One row is read before another: it has an earlier time, or the same time and a smaller
number. -/
def Row.Before (r r' : Row) : Prop :=
  r.point.timestamp < r'.point.timestamp ∨
    r.point.timestamp = r'.point.timestamp ∧ r.number < r'.number

theorem Row.Before.asymm {r r' : Row} (h : r.Before r') : ¬r'.Before r := by
  rintro (hlt' | ⟨heq', hlt'⟩) <;> rcases h with hlt | ⟨heq, hlt⟩
  · exact Int64.lt_asymm hlt hlt'
  · exact Int64.lt_irrefl (heq ▸ hlt')
  · exact Int64.lt_irrefl (heq' ▸ hlt)
  · exact Nat.lt_asymm hlt hlt'

@[simp] theorem Counters.get_increment (c : Counters) (t t' : Table) :
    (c.increment t).get t' = if t' = t then c.get t + 1 else c.get t' := by
  rcases t with _ | _ | _ | _ <;> rcases t' with _ | _ | _ | _ <;> rfl

namespace Store

variable {s s' : Store} {id : MeasurementId} {t : Table}

/-- The rows of a table in the order of their insertion, of all measurements. -/
def tableRows (s : Store) (t : Table) : List Row :=
  s.ledger.toList.filter fun r => r.point.table = t

theorem rowsOf_eq_filter (s : Store) (id : MeasurementId) (t : Table) :
    s.rowsOf id t = (s.tableRows t).filter fun r => r.owner = id := by
  rw [rowsOf, tableRows, List.filter_filter]

theorem tableRows_push (s : Store) (id : MeasurementId) (p : Point) (t : Table) :
    (s.push id p).tableRows t = s.tableRows t ++
      if p.table = t then [⟨id, s.counters.get p.table + 1, p.kept, true⟩] else [] := by
  simp only [tableRows, push, Array.toList_push, List.filter_append, List.append_cancel_left_eq]
  by_cases h : p.table = t <;> simp [h]

/-- The rows of each table are numbered as they come, from one on. -/
structure Numbered (s : Store) : Prop where
  ascending : ∀ t, (s.tableRows t).Pairwise fun r r' => r.number < r'.number
  within : ∀ t, ∀ r ∈ s.tableRows t, 1 ≤ r.number ∧ r.number ≤ s.counters.get t

/-- The numbers given out fit 64 bits with a sign. The database has no others, and it refuses a row
rather than use one twice. -/
def NumbersFit (s : Store) : Prop := ∀ t, s.counters.get t < signBound

namespace Numbered

theorem of_eq (h : s.Numbered) (hledger : s'.ledger = s.ledger)
    (hcounters : s'.counters = s.counters) : s'.Numbered where
  ascending t := by
    rw [tableRows, hledger]
    exact h.ascending t
  within t := by
    rw [tableRows, hledger, hcounters]
    exact h.within t

/-- A new row gets the next number of its table, in whichever measurement it is. -/
theorem push (h : s.Numbered) (id : MeasurementId) (p : Point) : (s.push id p).Numbered where
  ascending t := by
    rw [tableRows_push]
    split
    · rename_i ht
      refine List.pairwise_append.mpr ⟨h.ascending t, List.pairwise_singleton .., ?_⟩
      intro r hr new hnew
      rw [List.mem_singleton.mp hnew, ht]
      exact Nat.lt_succ_of_le (h.within t r hr).2
    · rw [List.append_nil]
      exact h.ascending t
  within t r hr := by
    rw [tableRows_push, List.mem_append] at hr
    have hcounters : (s.push id p).counters = s.counters.increment p.table := rfl
    rw [hcounters, Counters.get_increment]
    rcases hr with hr | hr
    · have hold := h.within t r hr
      split
      · rename_i ht
        subst ht
        exact ⟨hold.1, Nat.le_succ_of_le hold.2⟩
      · exact hold
    · split at hr
      · rename_i ht
        rw [List.mem_singleton.mp hr, if_pos ht.symm]
        exact ⟨Nat.succ_pos _, Nat.le_refl _⟩
      · cases hr

theorem foldl_push (h : s.Numbered) (id : MeasurementId) (points : List Point) :
    (points.foldl (fun s p => s.push id p) s).Numbered := by
  induction points generalizing s with
  | nil => exact h
  | cons p rest ih => exact ih (h.push id p)

theorem insert (h : s.Numbered) (id : MeasurementId) (points : List Point) :
    (s.insert id points).2.Numbered := by
  unfold Store.insert
  split
  · exact h
  · exact h.foldl_push id points

/-- What is left after a purge keeps its numbers. -/
theorem clean (h : s.Numbered) (id : MeasurementId) : (s.clean id).2.Numbered := by
  unfold Store.clean
  simp only
  split
  · exact h
  · have hsub (t : Table) : (tableRows { s with
        ledger := s.ledger.filter fun r => !decide (r.owner = id) } t).Sublist (s.tableRows t) := by
      simp only [tableRows, Array.toList_filter]
      exact List.filter_sublist.filter _
    exact ⟨fun t => (h.ascending t).sublist (hsub t), fun t r hr => h.within t r ((hsub t).mem hr)⟩

/-- Every call keeps rows numbered. -/
theorem answers (h : s.Numbered) {c : StoreCall} {answer : StoreAnswer c}
    (hc : s.Answers c answer s') : s'.Numbered := by
  rcases hc with ⟨-, rfl⟩ | ⟨-, -, rfl⟩
  · cases c with
    | create vehicle =>
      simp only [serve, create]
      split
      · exact h
      · exact h.of_eq rfl rfl
    | setStatus id target =>
      rcases s.setStatus_cases id target with ⟨e, -, heq⟩ | ⟨current, -, -, heq⟩ | ⟨-, heq⟩ |
        ⟨current, -, -, -, ⟨refusal, -, heq⟩ | ⟨-, heq⟩⟩
      all_goals rw [serve, heq]
      case inr.inr.inr.inr => exact h.of_eq rfl rfl
      all_goals exact h
    | insert id points => exact h.insert id points
    | clean id => exact h.clean id
    | _ => exact h
  · exact h

theorem ascending_rowsOf (h : s.Numbered) (id : MeasurementId) (t : Table) :
    (s.rowsOf id t).Pairwise fun r r' => r.number < r'.number := by
  rw [rowsOf_eq_filter]
  exact (h.ascending t).filter _

/-- There are not more rows than numbers given out. -/
theorem count_le (h : s.Numbered) (id : MeasurementId) (t : Table) :
    s.count id t ≤ s.counters.get t := by
  have hnodup : ((s.rowsOf id t).map fun r => r.number).Nodup :=
    List.pairwise_map.mpr ((h.ascending_rowsOf id t).imp Nat.ne_of_lt)
  have hsubset : ((s.rowsOf id t).map fun r => r.number) ⊆ List.range' 1 (s.counters.get t) := by
    intro n hn
    obtain ⟨r, hr, rfl⟩ := List.mem_map.mp hn
    rw [rowsOf_eq_filter] at hr
    have hwithin := h.within t r (List.mem_filter.mp hr).1
    rw [List.mem_range'_1]
    omega
  have hle := (List.subperm_of_subset hnodup hsubset).length_le
  rwa [List.length_map, List.length_range'] at hle

theorem before_rowsByTime (h : s.Numbered) (id : MeasurementId) (t : Table) :
    (s.rowsByTime id t).Pairwise Row.Before := by
  obtain ⟨hascending, hstable⟩ :=
    mergeSort_stable (fun r : Row => r.point.timestamp) (s.rowsOf id t)
  rw [rowsByTime]
  rw [List.pairwise_iff_forall_sublist] at hascending ⊢
  intro a b hsub
  by_cases htime : a.point.timestamp = b.point.timestamp
  · -- Rows of one time are in the order of insertion, and so of their numbers.
    have hboth := hsub.filter fun r => decide (r.point.timestamp = b.point.timestamp)
    rw [hstable] at hboth
    simp only [List.filter_cons, htime, decide_true, if_true, List.filter_nil] at hboth
    have hnumber := List.pairwise_iff_forall_sublist.mp (h.ascending_rowsOf id t)
      (hboth.trans List.filter_sublist)
    exact .inr ⟨htime, hnumber⟩
  · exact .inl (Int64.lt_of_le_of_ne (hascending hsub) htime)

/-- Rows are read in the only order that is by time and number, from whatever order the database
finds them in. -/
theorem rowsByTime_iff (h : s.Numbered) {rows : List Row} :
    rows = s.rowsByTime id t ↔ rows.Perm (s.rowsOf id t) ∧ rows.Pairwise Row.Before := by
  have hperm : (s.rowsByTime id t).Perm (s.rowsOf id t) := List.mergeSort_perm _ _
  constructor
  · rintro rfl
    exact ⟨hperm, h.before_rowsByTime id t⟩
  · rintro ⟨hrows, hbefore⟩
    exact (hrows.trans hperm.symm).eq_of_pairwise
      (fun a b _ _ hab hba => absurd hba hab.asymm) hbefore (h.before_rowsByTime id t)

end Numbered

end Store

end TripRecorder
