import TripRecorder.Proofs.Transfer.Image

/-!
# Reading over some moments

The store is shared, and every call of a serializer takes its own look at it. Rows may come and go
between a count and a page, between two pages, and between two tables. What was read is then
described by the stores that were passed: every record is a row that was at its place at one of these
moments, and the moments never go back.

## Main definitions

* `ReadThrough`, `Taken`, `TakenEach` — records, tables and measurements read over some moments
* `SerializeError.Explained` — what the store held where a measurement was not written

## Main results

* `Taken.eq_of_grows` — a table that only grows at its end, or is emptied, is read as it was counted
* `Taken.eq_of_same` — a table that does not change is read as it is
-/

namespace TripRecorder

section Reading

variable {id : MeasurementId} {t : Table} {place : Nat} {moments : List Store}
  {points points' : List Point}

/-- The points are the rows of a table by time from a place on, each of them as it was there at a
moment that is no earlier than that of the point before it. -/
inductive ReadThrough (id : MeasurementId) (t : Table) :
    Nat → List Store → List Point → Prop where
  | nil (place : Nat) (moments : List Store) : ReadThrough id t place moments []
  | skip {place : Nat} {moments : List Store} {points : List Point} (s : Store) :
      ReadThrough id t place moments points → ReadThrough id t place (s :: moments) points
  | row {place : Nat} {s : Store} {moments : List Store} {p : Point} {points : List Point} :
      (s.pointsByTime id t)[place]? = some p →
      ReadThrough id t (place + 1) (s :: moments) points →
      ReadThrough id t place (s :: moments) (p :: points)

theorem ReadThrough.prepend (h : ReadThrough id t place moments points) (before : List Store) :
    ReadThrough id t place (before ++ moments) points := by
  induction before with
  | nil => exact h
  | cons s rest ih => exact .skip s ih

theorem ReadThrough.append (h : ReadThrough id t place moments points) (after : List Store) :
    ReadThrough id t place (moments ++ after) points := by
  induction h with
  | nil place moments => exact .nil place _
  | skip s _ ih => exact .skip s ih
  | row hrow _ ih => exact .row hrow ih

/-- A page is read at one moment, and what follows it at that moment or later. -/
theorem ReadThrough.page {s : Store}
    (hpage : ∀ i p, points[i]? = some p → (s.pointsByTime id t)[place + i]? = some p)
    (h : ReadThrough id t (place + points.length) (s :: moments) points') :
    ReadThrough id t place (s :: moments) (points ++ points') := by
  induction points generalizing place with
  | nil => exact h
  | cons p rest ih =>
    refine .row (hpage 0 p rfl) (ih (fun i q hq => ?_) ?_)
    · have hrow := hpage (i + 1) q hq
      rwa [Nat.add_right_comm, Nat.add_assoc]
    · rw [List.length_cons] at h
      rwa [Nat.add_assoc, Nat.add_comm 1]

/-- Every record is a row at its place, at one of the moments. -/
theorem ReadThrough.exists_moment (h : ReadThrough id t place moments points) {i : Nat} {p : Point}
    (hp : points[i]? = some p) :
    ∃ s ∈ moments, (s.pointsByTime id t)[place + i]? = some p := by
  induction h generalizing i with
  | nil place moments => simp at hp
  | skip s _ ih =>
    obtain ⟨m, hm, hrow⟩ := ih hp
    exact ⟨m, List.mem_cons_of_mem _ hm, hrow⟩
  | @row place s moments p' points hrow _ ih =>
    cases i with
    | zero =>
      obtain rfl : p' = p := by simpa using hp
      exact ⟨s, List.mem_cons_self, hrow⟩
    | succ i =>
      obtain ⟨m, hm, hrow⟩ := ih (by simpa using hp)
      exact ⟨m, hm, by rwa [Nat.add_assoc, Nat.add_comm 1] at hrow⟩

/-- The points of a table that was counted at one moment and read over the moments after it. -/
def Taken (id : MeasurementId) (t : Table) (moments : List Store) (points : List Point) : Prop :=
  ∃ before s after, moments = before ++ s :: after ∧ s.count id t = points.length ∧
    points.length < Transfer.countBound ∧ ReadThrough id t 0 after points

/-- The points of some tables, each of which was taken after those before it. -/
def TakenEach (id : MeasurementId) : List Table → List Store → (Table → List Point) → Prop
  | [], _, _ => True
  | t :: rest, moments, points => ∃ first later, moments = first ++ later ∧
      Taken id t first (points t) ∧ TakenEach id rest later points

theorem Taken.prepend (h : Taken id t moments points) (first : List Store) :
    Taken id t (first ++ moments) points := by
  obtain ⟨before, s, after, rfl, hcount, hfits, hread⟩ := h
  exact ⟨first ++ before, s, after, (List.append_assoc _ _ _).symm, hcount, hfits, hread⟩

theorem Taken.append (h : Taken id t moments points) (last : List Store) :
    Taken id t (moments ++ last) points := by
  obtain ⟨before, s, after, rfl, hcount, hfits, hread⟩ := h
  exact ⟨before, s, after ++ last, List.append_assoc _ _ _, hcount, hfits, hread.append last⟩

/-- A point that was taken is a row of the table at one of the moments. -/
theorem Taken.table_eq (h : Taken id t moments points) {p : Point} (hp : p ∈ points) :
    p.table = t := by
  obtain ⟨before, s, after, -, -, -, hread⟩ := h
  obtain ⟨i, hi⟩ := List.mem_iff_getElem?.mp hp
  obtain ⟨m, -, hrow⟩ := hread.exists_moment hi
  have hmem : p ∈ m.pointsByTime id t := List.mem_of_getElem? hrow
  rw [Store.pointsByTime_eq] at hmem
  exact Store.table_of_mem_points (mem_byTime_iff.mp hmem)

/-- A table is read as it was counted if its rows only grow at their end, or are all removed. -/
theorem Taken.eq_of_grows (h : Taken id t moments points)
    (hgrows : moments.Pairwise fun s s' =>
      s.pointsByTime id t <+: s'.pointsByTime id t ∨ s'.pointsByTime id t = []) :
    ∃ s ∈ moments, points = s.pointsByTime id t := by
  obtain ⟨before, s, after, rfl, hcount, -, hread⟩ := h
  have hlength : (s.pointsByTime id t).length = points.length := by
    rw [Store.length_pointsByTime]
    exact hcount
  have hlater := (List.pairwise_cons.mp (List.pairwise_append.mp hgrows).2.1).1
  refine ⟨s, List.mem_append_right _ List.mem_cons_self, List.ext_getElem? fun i => ?_⟩
  cases hp : points[i]? with
  | none =>
    rw [List.getElem?_eq_none_iff] at hp
    exact (List.getElem?_eq_none_iff.mpr (by omega)).symm
  | some p =>
    -- The row was at its place later on, so it was there already.
    obtain ⟨m, hm, hrow⟩ := hread.exists_moment hp
    rw [Nat.zero_add] at hrow
    have hi : i < points.length := (List.getElem?_eq_some_iff.mp hp).1
    rcases hlater m hm with ⟨more, hmore⟩ | hnone
    · rw [← hmore, List.getElem?_append_left (by omega)] at hrow
      exact hrow.symm
    · rw [hnone] at hrow
      cases hrow

/-- A table that does not change is read as it is. -/
theorem Taken.eq_of_same (h : Taken id t moments points) {s : Store}
    (hsame : ∀ m ∈ moments, m.pointsByTime id t = s.pointsByTime id t) :
    points = s.pointsByTime id t := by
  have hgrows : moments.Pairwise fun m m' =>
      m.pointsByTime id t <+: m'.pointsByTime id t ∨ m'.pointsByTime id t = [] := by
    refine List.pairwise_of_forall_mem_list fun m hm m' hm' => .inl ?_
    have heq : m.pointsByTime id t = m'.pointsByTime id t :=
      (hsame m hm).trans (hsame m' hm').symm
    exact heq ▸ List.prefix_rfl
  obtain ⟨m, hm, heq⟩ := h.eq_of_grows hgrows
  rw [heq, hsame m hm]

theorem TakenEach.prepend {tables : List Table} {points : Table → List Point}
    (h : TakenEach id tables moments points) (first : List Store) :
    TakenEach id tables (first ++ moments) points := by
  cases tables with
  | nil => trivial
  | cons t rest =>
    obtain ⟨first', later, rfl, htaken, hrest⟩ := h
    exact ⟨first ++ first', later, (List.append_assoc _ _ _).symm, htaken.prepend first, hrest⟩

theorem TakenEach.append {tables : List Table} {points : Table → List Point}
    (h : TakenEach id tables moments points) (last : List Store) :
    TakenEach id tables (moments ++ last) points := by
  induction tables generalizing moments with
  | nil => trivial
  | cons t rest ih =>
    obtain ⟨first, later, rfl, htaken, hrest⟩ := h
    exact ⟨first, later ++ last, List.append_assoc _ _ _, htaken, ih hrest⟩

theorem TakenEach.congr {tables : List Table} {points points' : Table → List Point}
    (h : TakenEach id tables moments points) (heq : ∀ t ∈ tables, points' t = points t) :
    TakenEach id tables moments points' := by
  induction tables generalizing moments with
  | nil => trivial
  | cons t rest ih =>
    obtain ⟨first, later, hmoments, htaken, hrest⟩ := h
    exact ⟨first, later, hmoments, heq t List.mem_cons_self ▸ htaken,
      ih hrest fun u hu => heq u (List.mem_cons_of_mem _ hu)⟩

theorem TakenEach.taken {tables : List Table} {points : Table → List Point}
    (h : TakenEach id tables moments points) (ht : t ∈ tables) : Taken id t moments (points t) := by
  induction tables generalizing moments with
  | nil => cases ht
  | cons u rest ih =>
    obtain ⟨first, later, rfl, htaken, hrest⟩ := h
    rcases List.mem_cons.mp ht with rfl | ht
    · exact htaken.append later
    · exact (ih hrest ht).prepend first

end Reading

/-- What the store held where a measurement was not written: a database that failed, a table with
too many rows for its count, or a table with fewer rows than were counted before. -/
def SerializeError.Explained (id : MeasurementId) (moments : List Store) : SerializeError → Prop
  | storage error => ∃ detail, error = .database detail
  | io detail => ∃ s ∈ moments, ∃ t, Transfer.countBound ≤ s.count id t ∧
      detail = s!"{s.count id t} points do not fit the u32 count field"
  | inconsistent i t expected read => i = id ∧ read < expected ∧
      ∃ before s after, moments = before ++ s :: after ∧ s.count id t = expected ∧
        ∃ s' ∈ after, s'.count id t ≤ read

theorem SerializeError.Explained.prepend {e : SerializeError} {id : MeasurementId}
    {moments : List Store} (h : e.Explained id moments) (first : List Store) :
    e.Explained id (first ++ moments) := by
  cases e with
  | storage error => exact h
  | io detail =>
    obtain ⟨s, hs, hcount⟩ := h
    exact ⟨s, List.mem_append_right _ hs, hcount⟩
  | inconsistent i t expected read =>
    obtain ⟨hid, hlt, before, s, after, rfl, hlater⟩ := h
    exact ⟨hid, hlt, first ++ before, s, after, (List.append_assoc _ _ _).symm, hlater⟩

theorem SerializeError.Explained.append {e : SerializeError} {id : MeasurementId}
    {moments : List Store} (h : e.Explained id moments) (last : List Store) :
    e.Explained id (moments ++ last) := by
  cases e with
  | storage error => exact h
  | io detail =>
    obtain ⟨s, hs, hcount⟩ := h
    exact ⟨s, List.mem_append_left _ hs, hcount⟩
  | inconsistent i t expected read =>
    obtain ⟨hid, hlt, before, s, after, rfl, hcount, s', hs', hle⟩ := h
    exact ⟨hid, hlt, before, s, after ++ last, List.append_assoc _ _ _, hcount, s',
      List.mem_append_left _ hs', hle⟩

end TripRecorder
