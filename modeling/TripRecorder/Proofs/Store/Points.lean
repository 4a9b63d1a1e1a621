import TripRecorder.Store.Append

/-!
# The points of a store

What the store keeps of a measurement is seen through two views: its status, and for each table
the list of its points. This file says what each operation does to both.

## Main definitions

* `Table.total` — the sum over all tables
* `keptIn` — the points that a table keeps of some points
* `Store.points` — the points of a measurement in a table, in the order of their insertion
* `Store.pointsByTime`, `byTime` — the same points by time, as they are read
* `Store.Readable` — the points of a measurement can be read back

## Main results

* `Store.points_insert`, `Store.rowsOf_clean` — what is stored after a change
* `Store.setStatus_cases` — all that a request to move a measurement can come to
* `Store.status_setStatus`, `Store.status_create` — the statuses after a change
-/

namespace TripRecorder

namespace Point

@[simp] theorem table_kept (p : Point) : p.kept.table = p.table := by
  cases p <;> rfl

@[simp] theorem timestamp_kept (p : Point) : p.kept.timestamp = p.timestamp := by
  cases p <;> rfl

end Point

namespace MeasurementStatus

theorem canBecome_refl (status : MeasurementStatus) : status.canBecome status = true :=
  decide_eq_true (Nat.le_refl _)

theorem canBecome_trans {a b c : MeasurementStatus} (h : a.canBecome b = true)
    (h' : b.canBecome c = true) : a.canBecome c = true :=
  decide_eq_true (Nat.le_trans (of_decide_eq_true h) (of_decide_eq_true h'))

end MeasurementStatus

theorem Table.mem_all (t : Table) : t ∈ Table.all := by
  rcases t with _ | _ | _ | _ <;> decide

/-- The sum of a number of each table. -/
def Table.total (number : Table → Nat) : Nat :=
  number .locations + number (.samples .acceleration) + number (.samples .rotation) +
    number (.samples .direction)

/-- The points that a table keeps of some points. -/
def keptIn (t : Table) (ps : List Point) : List Point :=
  (ps.filter fun p => p.table = t).map Point.kept

@[simp] theorem keptIn_nil (t : Table) : keptIn t [] = [] := rfl

theorem keptIn_append (t : Table) (ps ps' : List Point) :
    keptIn t (ps ++ ps') = keptIn t ps ++ keptIn t ps' := by
  rw [keptIn, List.filter_append, List.map_append, keptIn, keptIn]

/-- The order in which points are read: by time, those of one time as they come. -/
def byTime (points : List Point) : List Point :=
  points.mergeSort fun a b => decide (a.timestamp ≤ b.timestamp)

@[simp] theorem length_byTime (points : List Point) : (byTime points).length = points.length :=
  List.length_mergeSort _

@[simp] theorem byTime_nil : byTime [] = [] := List.mergeSort_nil

namespace Store

variable {s s' : Store} {id i : MeasurementId} {t : Table}

/-- The points of a measurement in a table, in the order of their insertion. -/
def points (s : Store) (id : MeasurementId) (t : Table) : List Point :=
  (s.rowsOf id t).map fun r => r.point

/-- The points of a measurement in a table by time. -/
def pointsByTime (s : Store) (id : MeasurementId) (t : Table) : List Point :=
  (s.rowsByTime id t).map fun r => r.point

theorem pointsByTime_eq (s : Store) (id : MeasurementId) (t : Table) :
    s.pointsByTime id t = byTime (s.points id t) := by
  unfold pointsByTime rowsByTime points byTime
  exact List.map_mergeSort fun _ _ _ _ => rfl

theorem pointsByTime_congr (h : ∀ t, s'.rowsOf id t = s.rowsOf id t) :
    s'.pointsByTime id = s.pointsByTime id := by
  funext t
  rw [pointsByTime, rowsByTime, h, pointsByTime, rowsByTime]

@[simp] theorem length_pointsByTime (s : Store) (id : MeasurementId) (t : Table) :
    (s.pointsByTime id t).length = (s.rowsOf id t).length := by
  simp [pointsByTime, rowsByTime]

@[simp] theorem points_eq_nil_iff : s.points id t = [] ↔ s.rowsOf id t = [] := by
  simp [points]

theorem mem_rowsOf_iff {r : Row} :
    r ∈ s.rowsOf id t ↔ r ∈ s.ledger ∧ r.owner = id ∧ r.point.table = t := by
  simp [rowsOf]

/-- All points of a measurement can be read back. -/
def Readable (s : Store) (id : MeasurementId) : Prop :=
  ∀ t, ∀ r ∈ s.rowsOf id t, r.readable = true

theorem Readable.of_eq (h : s.Readable i) (hrows : ∀ t, s'.rowsOf i t = s.rowsOf i t) :
    s'.Readable i := by
  intro t r hr
  rw [hrows t] at hr
  exact h t r hr

/-! ### Adding points -/

theorem rowsOf_push (s : Store) (id : MeasurementId) (p : Point) (i : MeasurementId) (t : Table) :
    (s.push id p).rowsOf i t = s.rowsOf i t ++
      if id = i ∧ p.table = t then [⟨id, s.counters.get p.table + 1, p.kept, true⟩] else [] := by
  simp only [rowsOf, push, Array.toList_push, List.filter_append, List.append_cancel_left_eq]
  by_cases h : id = i ∧ p.table = t
  · simp [h]
  · simp [h]

theorem points_push (s : Store) (id : MeasurementId) (p : Point) (i : MeasurementId) (t : Table) :
    (s.push id p).points i t = s.points i t ++
      if id = i then keptIn t [p] else [] := by
  unfold points
  rw [rowsOf_push]
  by_cases hid : id = i <;> by_cases ht : p.table = t <;> simp [keptIn, hid, ht]

theorem points_foldl_push (ps : List Point) (s : Store) (id i : MeasurementId) (t : Table) :
    (ps.foldl (fun s p => s.push id p) s).points i t = s.points i t ++
      if id = i then keptIn t ps else [] := by
  induction ps generalizing s with
  | nil => simp
  | cons p rest ih =>
    rw [List.foldl_cons, ih, points_push, List.append_assoc]
    by_cases hid : id = i
    · rw [if_pos hid, if_pos hid, if_pos hid, ← keptIn_append, List.singleton_append]
    · simp [hid]

theorem Readable.foldl_push (h : s.Readable i) (ps : List Point) (id : MeasurementId) :
    (ps.foldl (fun s p => s.push id p) s).Readable i := by
  induction ps generalizing s with
  | nil => exact h
  | cons p rest ih =>
    refine ih fun t r hr => ?_
    rw [rowsOf_push, List.mem_append] at hr
    rcases hr with hr | hr
    · exact h t r hr
    · split at hr
      · rw [List.mem_singleton.mp hr]
      · exact absurd hr List.not_mem_nil

/-- Points that are added can be read back. -/
theorem Readable.insert (h : s.Readable i) (id : MeasurementId) (ps : List Point) :
    (s.insert id ps).2.Readable i := by
  unfold Store.insert
  split
  · exact h
  · exact h.foldl_push ps id

/-- Adding points changes nothing but the ledger and its numbers. -/
theorem exists_foldl_push (ps : List Point) (s : Store) (id : MeasurementId) :
    ∃ ledger counters, ps.foldl (fun s p => s.push id p) s =
      { s with ledger := ledger, counters := counters } := by
  induction ps generalizing s with
  | nil => exact ⟨s.ledger, s.counters, rfl⟩
  | cons p rest ih =>
    obtain ⟨ledger, counters, hrest⟩ := ih (s.push id p)
    exact ⟨ledger, counters, hrest⟩

theorem exists_insert (s : Store) (id : MeasurementId) (ps : List Point) :
    ∃ ledger counters, (s.insert id ps).2 =
      { s with ledger := ledger, counters := counters } := by
  unfold insert
  split
  · exact ⟨s.ledger, s.counters, rfl⟩
  · exact exists_foldl_push ps s id

/-- A transaction that goes through adds all its points, each to its table. -/
theorem points_insert {ps : List Point} (h : (s.insert id ps).1 = .ok ()) (i : MeasurementId)
    (t : Table) : (s.insert id ps).2.points i t = s.points i t ++
      if id = i then keptIn t ps else [] := by
  unfold insert at h ⊢
  split at h
  · cases h
  · exact points_foldl_push ps s id i t

/-- A refused transaction changes nothing. -/
theorem insert_error {ps : List Point} {e : String} (h : (s.insert id ps).1 = .error e) :
    (s.insert id ps).2 = s := by
  unfold insert at h ⊢
  split at h
  · rfl
  · cases h

theorem entries_insert (s : Store) (id : MeasurementId) (ps : List Point) :
    (s.insert id ps).2.entries = s.entries := by
  obtain ⟨ledger, counters, hinsert⟩ := exists_insert s id ps
  rw [hinsert]

/-! ### Removing points -/

theorem rowsOf_filter (p : Row → Bool) (s : Store) (i : MeasurementId) (t : Table) :
    ({ s with ledger := s.ledger.filter p } : Store).rowsOf i t = (s.rowsOf i t).filter p := by
  simp only [rowsOf, Array.toList_filter, List.filter_filter]
  exact List.filter_congr fun r _ => Bool.and_comm _ _

/-- A purge removes the rows of one measurement from all tables. -/
theorem rowsOf_clean {n : Nat} (h : (s.clean id).1 = .ok n) (i : MeasurementId) (t : Table) :
    (s.clean id).2.rowsOf i t = if i = id then [] else s.rowsOf i t := by
  unfold clean at h ⊢
  simp only at h ⊢
  split at h
  · cases h
  · rw [rowsOf_filter]
    by_cases hi : i = id
    · rw [if_pos hi, List.filter_eq_nil_iff]
      intro r hr
      have howner := (mem_rowsOf_iff.mp hr).2.1
      simp [howner, hi]
    · rw [if_neg hi, List.filter_eq_self]
      intro r hr
      have howner := (mem_rowsOf_iff.mp hr).2.1
      simp [howner, hi]

/-- A measurement is emptied where the database has no rule against it. -/
theorem clean_eq (h : ∀ t, s.rules.delete t = none) (id : MeasurementId) :
    s.clean id = (.ok (s.ledger.size - (s.ledger.filter fun r => !decide (r.owner = id)).size),
      { s with ledger := s.ledger.filter fun r => !decide (r.owner = id) }) := by
  have hnone : (Table.all.findSome? fun t =>
      if (s.rowsOf id t).isEmpty then none else s.rules.delete t) = none := by
    rw [List.findSome?_eq_none_iff]
    intro t _
    split
    · rfl
    · exact h t
  simp only [clean, hnone]

/-- A refused purge changes nothing. -/
theorem clean_error {e : StoreError} (h : (s.clean id).1 = .error e) : (s.clean id).2 = s := by
  unfold clean at h ⊢
  simp only at h ⊢
  split at h
  · rfl
  · cases h

theorem entries_clean (s : Store) (id : MeasurementId) : (s.clean id).2.entries = s.entries := by
  unfold clean
  simp only
  split <;> rfl

/-! ### Statuses -/

theorem load_congr (h : s'.entries = s.entries) (id : MeasurementId) :
    s'.load id = s.load id := by
  simp only [load, entry?, h]

theorem status_congr (h : s'.entries = s.entries) (id : MeasurementId) :
    s'.status id = s.status id := by
  rw [status, status, load_congr h]

/-- What a request to move a measurement comes to depends on the measurements, and on the rule
against it. -/
theorem setStatus_congr (h : s'.entries = s.entries)
    (hrule : s'.rules.setStatus = s.rules.setStatus) (id : MeasurementId)
    (target : MeasurementStatus) :
    (s'.setStatus id target).1 = (s.setStatus id target).1 ∧
      (s'.setStatus id target).2.entries = (s.setStatus id target).2.entries := by
  unfold setStatus
  rw [status_congr h, hrule]
  cases s.status id with
  | error e => exact ⟨rfl, h⟩
  | ok current =>
    simp only
    split
    · split
      · exact ⟨rfl, h⟩
      · split
        · exact ⟨rfl, h⟩
        · exact ⟨rfl, by rw [changeEntry, changeEntry, h]⟩
    · exact ⟨rfl, h⟩

theorem entry?_changeEntry {f : Entry → Entry} (hf : ∀ e, (f e).id = e.id) (i : MeasurementId) :
    Store.entry? (s.changeEntry id f) i =
      (s.entry? i).map fun e => if i = id then f e else e := by
  have hid (e : Entry) : (if e.id = id then f e else e).id = e.id := by
    split
    · exact hf e
    · rfl
  simp only [changeEntry, entry?, List.find?_map, Function.comp_def, hid]
  cases hfind : s.entries.find? fun e => decide (e.id = i) with
  | none => rfl
  | some e =>
    have he : e.id = i := by simpa using List.find?_some hfind
    rw [Option.map_some, Option.map_some, he]

theorem status_eq_ok_iff {status : MeasurementStatus} :
    s.status id = .ok status ↔ ∃ e, s.entry? id = some e ∧ e.status = .known status := by
  unfold Store.status load
  cases s.entry? id with
  | none => simp [Except.map]
  | some e =>
    cases h : e.status <;> simp [ofEntry, Except.map, h]

theorem status_changeEntry {current target : MeasurementStatus} (h : s.status id = .ok current)
    (i : MeasurementId) :
    (s.changeEntry id fun e => { e with status := .known target }).status i =
      if i = id then .ok target else s.status i := by
  obtain ⟨e, hentry, -⟩ := status_eq_ok_iff.mp h
  have hchange := @entry?_changeEntry s id (fun e => { e with status := .known target })
    (fun _ => rfl) i
  by_cases hi : i = id
  · -- The changed entry is the one that is found, since its identifier stays.
    subst hi
    rw [if_pos rfl, status_eq_ok_iff, hchange, hentry]
    exact ⟨{ e with status := .known target }, by simp, rfl⟩
  · rw [if_neg hi]
    simp only [status, load, hchange, if_neg hi, Option.map_id']

/-- All that a request to move a measurement can come to. -/
theorem setStatus_cases (s : Store) (id : MeasurementId) (target : MeasurementStatus) :
    (∃ e, s.status id = .error e ∧ s.setStatus id target = (.error e, s)) ∨
    (∃ current, s.status id = .ok current ∧ current.canBecome target = false ∧
      s.setStatus id target = (.error (.statusRegression id current target), s)) ∨
    (s.status id = .ok target ∧ s.setStatus id target = (.ok (), s)) ∨
    ∃ current, s.status id = .ok current ∧ current.canBecome target = true ∧ current ≠ target ∧
      ((∃ refusal, s.rules.setStatus = some refusal ∧
          s.setStatus id target = (.error (.database refusal), s)) ∨
        (s.rules.setStatus = none ∧ s.setStatus id target =
          (.ok (), s.changeEntry id fun e => { e with status := .known target }))) := by
  unfold setStatus
  cases hs : s.status id with
  | error e => exact .inl ⟨e, rfl, rfl⟩
  | ok current =>
    cases hcan : current.canBecome target with
    | false => exact .inr (.inl ⟨current, rfl, hcan, by simp [hcan]⟩)
    | true =>
      by_cases heq : current = target
      · subst heq
        exact .inr (.inr (.inl ⟨rfl, by simp [hcan]⟩))
      · refine .inr (.inr (.inr ⟨current, rfl, hcan, heq, ?_⟩))
        cases hrule : s.rules.setStatus with
        | none => exact .inr ⟨rfl, by simp [hcan, heq]⟩
        | some refusal => exact .inl ⟨refusal, rfl, by simp [hcan, heq]⟩

/-- A measurement that was moved has the new status, and all others have the one they had. -/
theorem status_setStatus {target : MeasurementStatus} (h : (s.setStatus id target).1 = .ok ())
    (i : MeasurementId) :
    (s.setStatus id target).2.status i = if i = id then .ok target else s.status i := by
  rcases s.setStatus_cases id target with ⟨e, -, heq⟩ | ⟨current, -, -, heq⟩ | ⟨hs, heq⟩ |
    ⟨current, hs, -, -, ⟨refusal, -, heq⟩ | ⟨-, heq⟩⟩
  · rw [heq] at h
    cases h
  · rw [heq] at h
    cases h
  · rw [heq]
    split
    · rw [← hs, ‹i = id›]
    · rfl
  · rw [heq] at h
    cases h
  · rw [heq]
    exact status_changeEntry hs i

/-- Only a measurement with a status is moved, and never back. -/
theorem status_of_setStatus {target : MeasurementStatus} (h : (s.setStatus id target).1 = .ok ()) :
    ∃ current, s.status id = .ok current ∧ current.canBecome target = true := by
  rcases s.setStatus_cases id target with ⟨e, -, heq⟩ | ⟨current, -, -, heq⟩ | ⟨hs, -⟩ |
    ⟨current, hs, hcan, -⟩
  · rw [heq] at h
    cases h
  · rw [heq] at h
    cases h
  · exact ⟨target, hs, target.canBecome_refl⟩
  · exact ⟨current, hs, hcan⟩

/-- A refused move changes nothing. -/
theorem setStatus_error {target : MeasurementStatus} {e : StoreError}
    (h : (s.setStatus id target).1 = .error e) : (s.setStatus id target).2 = s := by
  rcases s.setStatus_cases id target with ⟨e, -, heq⟩ | ⟨current, -, -, heq⟩ | ⟨-, heq⟩ |
    ⟨current, -, -, -, ⟨refusal, -, heq⟩ | ⟨-, heq⟩⟩
  · rw [heq]
  · rw [heq]
  · rw [heq]
  · rw [heq]
  · rw [heq] at h
    cases h

/-- A measurement is moved forward where the database has no rule against it. -/
theorem setStatus_eq {current target : MeasurementStatus} (hs : s.status id = .ok current)
    (hcan : current.canBecome target = true) (hne : current ≠ target)
    (hrule : s.rules.setStatus = none) : s.setStatus id target =
      (.ok (), s.changeEntry id fun e => { e with status := .known target }) := by
  simp [setStatus, hs, hcan, hne, hrule]

theorem rowsOf_setStatus (s : Store) (id : MeasurementId) (target : MeasurementStatus)
    (i : MeasurementId) (t : Table) : (s.setStatus id target).2.rowsOf i t = s.rowsOf i t := by
  rcases s.setStatus_cases id target with ⟨e, -, heq⟩ | ⟨current, -, -, heq⟩ | ⟨-, heq⟩ |
    ⟨current, -, -, -, ⟨refusal, -, heq⟩ | ⟨-, heq⟩⟩
  all_goals rw [heq]
  rfl

theorem points_setStatus (s : Store) (id : MeasurementId) (target : MeasurementStatus)
    (i : MeasurementId) (t : Table) : (s.setStatus id target).2.points i t = s.points i t := by
  rw [points, rowsOf_setStatus, points]

/-! ### New measurements -/

theorem le_foldl_max (ns : List Nat) (start : Nat) :
    start ≤ ns.foldl max start ∧ ∀ n ∈ ns, n ≤ ns.foldl max start := by
  induction ns generalizing start with
  | nil => simp
  | cons n rest ih =>
    obtain ⟨hstart, hall⟩ := ih (max start n)
    refine ⟨by rw [List.foldl_cons]; omega, fun m hm => ?_⟩
    rw [List.foldl_cons]
    rcases List.mem_cons.mp hm with rfl | hm
    · omega
    · exact hall m hm

theorem lt_nextId {e : Entry} (h : e ∈ s.entries) : e.id.value < s.nextId.value := by
  have hall := (le_foldl_max (s.entries.map fun e => e.id.value) 0).2
  exact Nat.lt_succ_of_le (hall _ (List.mem_map_of_mem h))

theorem entry?_nextId (s : Store) : s.entry? s.nextId = none := by
  refine List.find?_eq_none.mpr fun e he => ?_
  have hlt := lt_nextId he
  simp only [decide_eq_true_eq]
  intro heq
  rw [heq] at hlt
  exact Nat.lt_irrefl _ hlt

theorem status_nextId (s : Store) : s.status s.nextId = .error (.noSuchMeasurement s.nextId) := by
  simp [status, load, entry?_nextId, Except.map]

/-- A new measurement gets an identifier of its own, is open, and leaves all others alone. -/
theorem status_create {vehicle : Vehicle} {id : MeasurementId} (h : (s.create vehicle).1 = .ok id)
    (i : MeasurementId) : id = s.nextId ∧ (s.create vehicle).2.status i =
      if i = id then .ok .opened else s.status i := by
  unfold create at h ⊢
  split at h
  · cases h
  · obtain rfl : s.nextId = id := Except.ok.inj h
    refine ⟨rfl, ?_⟩
    by_cases hi : i = s.nextId
    · -- The new entry comes last, so it is found only because no older one has its identifier.
      subst hi
      have hnone : (s.entries.find? fun e => e.id = s.nextId) = none := s.entry?_nextId
      rw [if_pos rfl, status_eq_ok_iff]
      exact ⟨⟨s.nextId, vehicle, .known .opened, s.device⟩,
        by simp [List.find?_append, entry?, hnone], rfl⟩
    · rw [if_neg hi]
      simp [status, load, entry?, List.find?_append, Ne.symm hi]

theorem points_create (s : Store) (vehicle : Vehicle) (i : MeasurementId) (t : Table) :
    (s.create vehicle).2.points i t = s.points i t := by
  unfold create
  split <;> rfl

theorem create_error {vehicle : Vehicle} {e : StoreError} (h : (s.create vehicle).1 = .error e) :
    (s.create vehicle).2 = s := by
  unfold create at h ⊢
  split at h
  · rfl
  · cases h

end Store

end TripRecorder
