import TripRecorder.Proofs.Hundredths
import TripRecorder.Proofs.Store.Ledger
import TripRecorder.Proofs.Store.Order
import TripRecorder.Proofs.Transfer.Serializer
import TripRecorder.Proofs.Transfer.Wire

/-!
# A measurement is written as the layout says

Whatever the size of a page, the rows of a measurement are written once each, in the order of time.
What is written is a function of the points of the measurement: it does not tell in which pages
they were read, in which batches they came, or what else is stored.

## Main definitions

* `Store.written` — what a serializer answers and writes while nothing else happens

## Main results

* `Store.written_eq` — the answer and the bytes, by the points of the measurement
* `Store.written_layout` — the layout of the bytes, whatever the limits are
-/

namespace TripRecorder

namespace Store

variable {s s' : Store} {id : MeasurementId}

/-- What a serializer answers and writes while nothing else happens to the store. -/
def written (s : Store) (pageSize : Nat) (id : MeasurementId) :
    Except SerializeError Nat × List UInt8 :=
  ((collectBytes [] (serialize pageSize id)).run serve s).1

theorem table_of_mem_points {t : Table} {p : Point} (h : p ∈ s.points id t) : p.table = t := by
  obtain ⟨r, hr, rfl⟩ := List.mem_map.mp h
  exact (mem_rowsOf_iff.mp hr).2.2

theorem length_points (s : Store) (id : MeasurementId) (t : Table) :
    (s.points id t).length = s.count id t := List.length_map _

/-- A store that is opened again holds the same points. -/
theorem readable_reopen {device : Option String} {batchLimit queryLimit : Nat}
    (h : s.Readable id) : (s.reopen device batchLimit queryLimit).Readable id :=
  h.of_eq fun _ => rfl

theorem queryLimit_reopen_pos (s : Store) (device : Option String) (batchLimit queryLimit : Nat) :
    0 < (s.reopen device batchLimit queryLimit).queryLimit :=
  Nat.lt_of_lt_of_le Nat.one_pos (Nat.le_max_right _ _)

/-- What is written are the points by time, under limits of any size. -/
theorem written_eq (hread : s.Readable id) (hcount : ∀ t, s.count id t < Transfer.countBound)
    (device : Option String) (batchLimit queryLimit pageSize : Nat) :
    (s.reopen device batchLimit queryLimit).written pageSize id =
      (.ok (Transfer.size (s.count id)), Transfer.image fun t => byTime (s.points id t)) := by
  have hrun := run_serialize (queryLimit_reopen_pos s device batchLimit queryLimit)
    (readable_reopen hread) hcount pageSize
  rw [written, hrun, funext (pointsByTime_eq _ id)]
  rfl

section Run

variable {device : Option String} {batchLimit queryLimit : Nat} {rules : Rules} {deeds : List Deed}

/-- All that is stored by requests can be read back. -/
theorem Run.readable (h : Run { empty device batchLimit queryLimit with rules := rules } deeds s)
    (id : MeasurementId) : s.Readable id :=
  h.keeps (fun _ _ _ _ hcall hread => hcall.readable hread) fun _ _ hr =>
    absurd hr List.not_mem_nil

theorem Run.points_eq (h : Run { empty device batchLimit queryLimit with rules := rules } deeds s)
    (id : MeasurementId) (t : Table) : s.points id t = keptIn t (standing deeds id) :=
  (h.accounts (accounts_empty _ _ _ _)).points_eq id t

/-- What is written after a run is told by the answers to its requests. -/
theorem Run.written_eq
    (h : Run { empty device batchLimit queryLimit with rules := rules } deeds s)
    (hcount : ∀ t, s.count id t < Transfer.countBound) (pageSize : Nat) :
    s.written pageSize id =
      (.ok (Transfer.size fun t => (keptIn t (standing deeds id)).length),
        Transfer.image fun t => byTime (keptIn t (standing deeds id))) := by
  have hwell : s.WellFormed :=
    h.keeps (fun _ _ _ _ hcall hwell => hwell.answers hcall)
      ((wellFormed_empty device batchLimit queryLimit).of_eq rfl rfl)
  have hpoints : s.points id = fun t => keptIn t (standing deeds id) := funext (h.points_eq id)
  have hcounts : s.count id = fun t => (keptIn t (standing deeds id)).length := by
    funext t
    rw [← length_points, hpoints]
  rw [written, run_serialize hwell.queryLimit_pos (h.readable id) hcount,
    funext (pointsByTime_eq s id), hpoints, hcounts]

end Run

/-- The layout of a measurement. It is written as its version, and for each table the number of its
rows and a record for each of them by time, under limits of any size. Each record holds what the
format says of its row, and the accuracy of a location in centimetres. All that can be stored is
written so, and two stores to which the same was committed for a measurement write the same bytes,
whatever the batches and the pages were and whatever else is stored. -/
theorem written_layout (hcount : ∀ t, s.count id t < UInt32.size) :
    (s.Readable id → ∃ (order : Table → List Point) (bytes : List UInt8),
      (∀ t, Arranged (s.points id t) (order t) ∧ (order t).length = s.count id t ∧
        ∀ p ∈ order t, Wire.Row t p ∧ p.timestamp = Wire.time p ∧
          (Wire.record p).length = if t = .locations then 36 else 32) ∧
      (∀ l, .location l ∈ order .locations → l.accuracy.InHundredths l.accuracy.centi) ∧
      bytes = Wire.word 2 1 ++ Wire.tables.flatMap (fun t =>
        Wire.word 4 (s.count id t) ++ (order t).flatMap Wire.record) ∧
      bytes.length = 18 + 36 * s.count id .locations +
        32 * (s.count id (.samples .acceleration) + s.count id (.samples .rotation) +
          s.count id (.samples .direction)) ∧
      ∀ device batchLimit queryLimit pageSize,
        (s.reopen device batchLimit queryLimit).written pageSize id =
          (.ok bytes.length, bytes)) ∧
    ∀ device batchLimit queryLimit rules deeds,
      Run { empty device batchLimit queryLimit with rules := rules } deeds s →
      s.Readable id ∧ ∀ device' batchLimit' queryLimit' rules' deeds' s',
        Run { empty device' batchLimit' queryLimit' with rules := rules' } deeds' s' →
        (∀ t, keptIn t (standing deeds' id) = keptIn t (standing deeds id)) →
        ∀ pageSize pageSize', s'.written pageSize' id = s.written pageSize id := by
  constructor
  · intro hread
    have htable (t : Table) (p : Point) (hp : p ∈ byTime (s.points id t)) : p.table = t :=
      table_of_mem_points (mem_byTime_iff.mp hp)
    have hrow (t : Table) (p : Point) (hp : p ∈ byTime (s.points id t)) : Wire.Row t p :=
      htable t p hp ▸ p.row_table
    have hlength (t : Table) : (byTime (s.points id t)).length = s.count id t := by
      rw [length_byTime, length_points]
    have hsize : (Transfer.image fun t => byTime (s.points id t)).length =
        Transfer.size (s.count id) := by
      rw [Transfer.length_image htable]
      exact congrArg Transfer.size (funext hlength)
    refine ⟨fun t => byTime (s.points id t), Transfer.image fun t => byTime (s.points id t),
      fun t => ⟨arranged_byTime _, hlength t, fun p hp => ?_⟩,
      fun l _ => l.accuracy.inHundredths_centi, ?_, ?_, ?_⟩
    · exact ⟨hrow t p hp, p.timestamp_eq, Wire.length_record (hrow t p hp)⟩
    · simp only [Transfer.image_eq, hlength]
    · rw [hsize, Transfer.size_eq]
    · intro device batchLimit queryLimit pageSize
      rw [hsize]
      exact written_eq hread hcount device batchLimit queryLimit pageSize
  · intro device batchLimit queryLimit rules deeds h
    refine ⟨h.readable id, ?_⟩
    intro device' batchLimit' queryLimit' rules' deeds' s' h' hsame pageSize pageSize'
    -- The counts are those of what was committed, so they fit in the other store as well.
    have hcount' (t : Table) : s'.count id t < Transfer.countBound := by
      have hlt := hcount t
      rw [← length_points, h.points_eq, ← hsame t] at hlt
      rwa [← length_points, h'.points_eq]
    rw [h'.written_eq hcount', h.written_eq hcount]
    simp only [hsame]

/-- A measurement with a location and two rotations, the later of which came first, beside a
rotation of another measurement. -/
def turning : Store :=
  let location : Point := .location ⟨7, ⟨0x3FF8000000000000⟩, ⟨0xC000000000000000⟩,
    ⟨0x3FE0000000000000⟩, ⟨0x4004000000000000⟩⟩
  let later : Point := .sample ⟨.rotation, ⟨0x3FF0000000000000⟩, ⟨0xBFF0000000000000⟩, .zero, 5⟩
  let earlier : Point := .sample ⟨.rotation, .zero, ⟨0x4000000000000000⟩, ⟨0x3FF0000000000000⟩, 3⟩
  let first := ((empty none 1 1).insert ⟨1⟩ [location, later, earlier]).2
  (first.insert ⟨2⟩ [later]).2

/-- The bytes of this measurement, one field in a line. -/
def turningBytes : List UInt8 :=
  [0, 1,
   0, 0, 0, 1,
   0, 0, 0, 0, 0, 0, 0, 7,
   63, 248, 0, 0, 0, 0, 0, 0,
   192, 0, 0, 0, 0, 0, 0, 0,
   63, 224, 0, 0, 0, 0, 0, 0,
   0, 0, 0, 250,
   0, 0, 0, 0,
   0, 0, 0, 2,
   0, 0, 0, 0, 0, 0, 0, 3,
   0, 0, 0, 0, 0, 0, 0, 0,
   64, 0, 0, 0, 0, 0, 0, 0,
   63, 240, 0, 0, 0, 0, 0, 0,
   0, 0, 0, 0, 0, 0, 0, 5,
   63, 240, 0, 0, 0, 0, 0, 0,
   191, 240, 0, 0, 0, 0, 0, 0,
   0, 0, 0, 0, 0, 0, 0, 0,
   0, 0, 0, 0]

/-- The bytes do not depend on the limits. -/
theorem written_layout_turning :
    (∀ t, turning.count ⟨1⟩ t < UInt32.size) ∧ turning.Readable ⟨1⟩ ∧
      ∀ device batchLimit queryLimit pageSize,
        (turning.reopen device batchLimit queryLimit).written pageSize ⟨1⟩ =
          (.ok 118, turningBytes) := by
  have hcount (t : Table) : turning.count ⟨1⟩ t < UInt32.size := by
    rcases t with _ | _ | _ | _ <;> decide +kernel
  have hread : turning.Readable ⟨1⟩ := by
    rintro (_ | _ | _ | _) <;> decide +kernel
  obtain ⟨order, bytes, hrows, -, hbytes, -, hwritten⟩ := (written_layout hcount).1 hread
  have horder (t : Table) :
      order t = (turning.points ⟨1⟩ t).insertionSort Point.NotLater := by
    rw [arranged_iff.mp (hrows t).1, byTime_eq_insertionSort]
  have hturning : bytes = turningBytes := by
    rw [hbytes]
    simp only [horder]
    decide +kernel
  refine ⟨hcount, hread, fun device batchLimit queryLimit pageSize => ?_⟩
  rw [hwritten, hturning]
  rfl

end Store

end TripRecorder
