import TripRecorder.Proofs.Transfer.Amid

/-!
# Measurements are read back

The layout has no separators: a count says how many records follow, and a record has the size of its
table. This is enough to take the bytes of a measurement apart again, whatever they look like. The
accuracy of a location comes back in centimetres, and everything else as it was stored.

## Main definitions

* `Transfer.Reader` — takes a value from the front of some bytes
* `Transfer.decode?` — the records of a measurement by table
* `Transfer.Reads` — a reader takes off exactly the bytes of a value

## Main results

* `Transfer.reads_word`, `Point.reads_record`, `Transfer.reads_sections` — what readers take off
* `Transfer.decode?_image` — an image is read back
* `Store.written_decodes` — what is written of a measurement is read back to its rows
-/

namespace TripRecorder

/-- What a record tells of a point: the accuracy of a location is known in centimetres. -/
inductive Record where
  | location (timestamp : Int64) (lat lon speed : Double) (centi : Int)
  | sample (value : Sample)
deriving DecidableEq, Repr

/-- What the record of a point tells. -/
def Point.transferred : Point → Record
  | location l => .location l.timestamp l.lat l.lon l.speed l.accuracy.centi
  | sample s => .sample s

namespace Transfer

/-- Takes a value from the front of some bytes, if there is one. -/
abbrev Reader (α : Type) := StateT (List UInt8) Option α

/-- The number of some bytes, the most significant of them first. -/
def value (bytes : List UInt8) : Nat := bytes.foldl (fun n b => 256 * n + b.toNat) 0

/-- Takes a word of some bytes. -/
def word (width : Nat) : Reader Nat := fun bytes =>
  if width ≤ bytes.length then some (value (bytes.take width), bytes.drop width) else none

/-- Takes a time. -/
def timestamp : Reader Int64 := do
  let n ← word 8
  return (UInt64.ofNat n).toInt64

/-- Takes a floating-point word. -/
def double : Reader Double := do
  let n ← word 8
  return ⟨UInt64.ofNat n⟩

/-- Takes an integer of 32 bits. -/
def int32 : Reader Int := do
  let n ← word 4
  return if n < 0x80000000 then n else (n : Int) - UInt32.size

/-- Takes a record of a table. -/
def record : Table → Reader Record
  | .locations => do
    let time ← timestamp
    let lat ← double
    let lon ← double
    let speed ← double
    let centi ← int32
    return .location time lat lon speed centi
  | .samples kind => do
    let time ← timestamp
    let x ← double
    let y ← double
    let z ← double
    return .sample ⟨kind, x, y, z, time⟩

/-- Takes so many records of a table. -/
def records (t : Table) : Nat → Reader (List Record)
  | 0 => pure []
  | n + 1 => do
    let first ← record t
    let rest ← records t n
    return first :: rest

/-- Takes some tables: of each its count, and as many records. -/
def sections : List Table → Reader (List (List Record))
  | [] => pure []
  | t :: rest => do
    let count ← word 4
    let first ← records t count
    let others ← sections rest
    return first :: others

/-- The records of a measurement, those of each table in the order of its bytes. The bytes begin with
the version, and nothing is left when all tables are read. -/
def decode? (bytes : List UInt8) : Option (List (List Record)) := do
  let (number, bytes) ← word 2 bytes
  let (tables, left) ← sections Table.all bytes
  if number = version ∧ left = [] then some tables else none

/-! ### Words -/

theorem value_concat (bytes : List UInt8) (b : UInt8) :
    value (bytes ++ [b]) = 256 * value bytes + b.toNat := by
  rw [value, List.foldl_append, List.foldl_cons, List.foldl_nil, value]

/-- Numbers below this bound have room in so many bytes. -/
def wordBound : Nat → Nat
  | 0 => 1
  | width + 1 => 256 * wordBound width

/-- A word keeps a number as far as it has room. -/
theorem value_bigEndian (width n : Nat) : value (bigEndian width n) = n % wordBound width := by
  induction width generalizing n with
  | zero => simp [bigEndian, value, wordBound, Nat.mod_one]
  | succ width ih =>
    have hsplit : n % wordBound (width + 1) = n % 256 + 256 * (n / 256 % wordBound width) := by
      rw [wordBound, Nat.mod_mul]
    rw [bigEndian, value_concat, ih, UInt8.toNat_ofNat', hsplit]
    exact Nat.add_comm _ _

/-- A reader takes off exactly these bytes, whatever follows them, and answers a value. -/
def Reads {α : Type} (p : Reader α) (bytes : List UInt8) (a : α) : Prop :=
  ∀ rest, p (bytes ++ rest) = some (a, rest)

variable {α β : Type} {p : Reader α} {a : α} {b : β}

theorem reads_pure (a : α) : Reads (pure a) [] a := fun _ => rfl

theorem Reads.bind {f : α → Reader β} {first second : List UInt8} (hp : Reads p first a)
    (hf : Reads (f a) second b) : Reads (p >>= f) (first ++ second) b := by
  intro rest
  -- For the first reader, the bytes of the second one are among those that follow.
  have hfirst := hp (second ++ rest)
  rw [← List.append_assoc] at hfirst
  show (p (first ++ second ++ rest)).bind (fun r => f r.1 r.2) = some (b, rest)
  rw [hfirst]
  exact hf rest

/-- A value that is only changed at the end. -/
theorem Reads.map {f : α → β} {bytes : List UInt8} (hp : Reads p bytes a) (hb : f a = b) :
    Reads (do let a ← p; return f a) bytes b := by
  have h := hp.bind (f := fun a => pure (f a)) (reads_pure (f a))
  rwa [List.append_nil, hb] at h

/-- A number that has room in a word is taken from it. -/
theorem reads_word {width n : Nat} (h : n < wordBound width) :
    Reads (word width) (bigEndian width n) n := by
  intro rest
  have hlength : width ≤ (bigEndian width n ++ rest).length := by
    rw [List.length_append, length_bigEndian]
    exact Nat.le_add_right _ _
  rw [word, if_pos hlength, List.take_left' (length_bigEndian width n),
    List.drop_left' (length_bigEndian width n), value_bigEndian, Nat.mod_eq_of_lt h]

theorem reads_timestamp (time : Int64) : Reads timestamp (timestampBytes time) time := by
  refine (reads_word time.toUInt64.toNat_lt).map ?_
  rw [UInt64.ofNat_toNat]
  rfl

theorem reads_double (x : Double) : Reads double x.bytes x := by
  refine (reads_word x.bits.toNat_lt).map ?_
  rw [UInt64.ofNat_toNat]

/-- An integer of 32 bits is taken from its word, with its sign. -/
theorem reads_int32 {i : Int} (hlow : -0x80000000 ≤ i) (hhigh : i < 0x80000000) :
    Reads int32 (int32Bytes i) i := by
  have hsize : UInt32.size = 4294967296 := rfl
  have hbound : wordBound 4 = 4294967296 := rfl
  refine (reads_word ?_).map ?_
  · rw [hsize, hbound]
    omega
  · rw [hsize]
    split <;> omega

end Transfer

/-! ### Records -/

/-- Hundredths fit into 32 bits. -/
theorem Double.centi_bounds (x : Double) : -0x80000000 ≤ x.centi ∧ x.centi < 0x80000000 := by
  unfold Double.centi Double.clampInt32
  simp only
  split
  · decide
  · split
    · split
      · omega
      · split <;> decide
    · split <;> decide

namespace Transfer

/-- A record is taken as what it tells of its point. -/
theorem reads_record (p : Point) : Reads (record p.table) p.record p.transferred := by
  cases p with
  | location l =>
    have hcenti := l.accuracy.centi_bounds
    exact (reads_timestamp l.timestamp).bind ((reads_double l.lat).bind ((reads_double l.lon).bind
      ((reads_double l.speed).bind ((reads_int32 hcenti.1 hcenti.2).bind (reads_pure _)))))
  | sample s =>
    exact (reads_timestamp s.timestamp).bind ((reads_double s.x).bind ((reads_double s.y).bind
      ((reads_double s.z).bind (reads_pure _))))

/-- As many records are taken as there are points. -/
theorem reads_records {t : Table} {points : List Point} (h : ∀ p ∈ points, p.table = t) :
    Reads (records t points.length) (points.flatMap Point.record)
      (points.map Point.transferred) := by
  induction points with
  | nil => exact reads_pure []
  | cons p rest ih =>
    obtain ⟨rfl, hrest⟩ := List.forall_mem_cons.mp h
    exact (reads_record p).bind ((ih hrest).map rfl)

/-- The tables are taken one after another, each of them as long as its count says. -/
theorem reads_sections {points : Table → List Point} (htable : ∀ t, ∀ p ∈ points t, p.table = t)
    (hcount : ∀ t, (points t).length < countBound) (tables : List Table) :
    Reads (sections tables) (tables.flatMap fun t => sectionBytes (points t))
      (tables.map fun t => (points t).map Point.transferred) := by
  induction tables with
  | nil => exact reads_pure []
  | cons t rest ih =>
    rw [List.flatMap_cons, sectionBytes, List.append_assoc]
    exact (reads_word (hcount t)).bind ((reads_records (htable t)).bind (ih.map rfl))

/-- An image is read back. -/
theorem decode?_image {points : Table → List Point} (htable : ∀ t, ∀ p ∈ points t, p.table = t)
    (hcount : ∀ t, (points t).length < countBound) :
    decode? (image points) = some (Table.all.map fun t => (points t).map Point.transferred) := by
  have hversion : Reads (word 2) versionField version := reads_word (by decide)
  -- Nothing follows the last table.
  have htables := reads_sections htable hcount Table.all []
  rw [List.append_nil] at htables
  rw [image, decode?, hversion]
  simp [htables]

end Transfer

namespace Store

variable {s s' : Store} {id id' : MeasurementId} {pageSize pageSize' total total' : Nat}
  {bytes : List UInt8}

/-- Bytes that were written are read back to the points by time. -/
theorem decode?_of_written (hlimit : 0 < s.queryLimit)
    (h : s.written pageSize id = (.ok total, bytes)) :
    Transfer.decode? bytes =
      some (Table.all.map fun t => (byTime (s.points id t)).map Point.transferred) := by
  obtain ⟨rfl, hcount⟩ := image_of_written hlimit h
  rw [funext (pointsByTime_eq s id)]
  refine Transfer.decode?_image (fun t p hp => table_of_mem_points (mem_byTime_iff.mp hp)) ?_
  intro t
  rw [length_byTime, length_points]
  exact hcount t

/-- Measurements of which the same bytes were written have the same points, up to the rounding of
accuracies. -/
theorem transferred_eq_of_written (hlimit : 0 < s.queryLimit) (hlimit' : 0 < s'.queryLimit)
    (h : s.written pageSize id = (.ok total, bytes))
    (h' : s'.written pageSize' id' = (.ok total', bytes)) (t : Table) :
    (byTime (s'.points id' t)).map Point.transferred =
      (byTime (s.points id t)).map Point.transferred := by
  have hboth := (decode?_of_written hlimit' h').symm.trans (decode?_of_written hlimit h)
  exact List.map_inj_left.mp (Option.some.inj hboth) t t.mem_all

/-- The layout of a measurement can be taken apart. Whatever is stored of a measurement that can be
read and counted is written under limits of any size, and what is written is read back to its rows
by time: all their values are unchanged, but the accuracy of a location is known in centimetres.
Measurements of which the same bytes are written do not differ in anything else. -/
theorem written_decodes (s : Store) (id : MeasurementId) (device : Option String)
    (batchLimit queryLimit pageSize : Nat) :
    (s.Readable id → (∀ t, s.count id t < Transfer.countBound) → ∃ total bytes,
      (s.reopen device batchLimit queryLimit).written pageSize id = (.ok total, bytes)) ∧
    ∀ total bytes,
      (s.reopen device batchLimit queryLimit).written pageSize id = (.ok total, bytes) →
      (∃ order : Table → List Point, (∀ t, Arranged (s.points id t) (order t)) ∧
        Transfer.decode? bytes =
          some (Table.all.map fun t => (order t).map Point.transferred)) ∧
      ∀ (s' : Store) id' device' batchLimit' queryLimit' pageSize' total',
        (s'.reopen device' batchLimit' queryLimit').written pageSize' id' = (.ok total', bytes) →
        ∀ t, (byTime (s'.points id' t)).map Point.transferred =
          (byTime (s.points id t)).map Point.transferred := by
  refine ⟨fun hread hcount => ⟨_, _, written_eq hread hcount device batchLimit queryLimit _⟩, ?_⟩
  intro total bytes h
  have hlimit := queryLimit_reopen_pos s device batchLimit queryLimit
  have hdecode := decode?_of_written hlimit h
  refine ⟨⟨fun t => byTime (s.points id t), fun t => arranged_byTime _, hdecode⟩, ?_⟩
  intro s' id' device' batchLimit' queryLimit' pageSize' total' h'
  have hlimit' := queryLimit_reopen_pos s' device' batchLimit' queryLimit'
  have hsame := transferred_eq_of_written hlimit hlimit' h h'
  exact hsame

/-- A measurement with a location and two rotations, the later of which came first, beside a
location of another measurement. -/
def unordered : Store :=
  let location : Point := .location ⟨7, .zero, .zero, .zero, .zero⟩
  let rotation (time : Int64) : Point := .sample ⟨.rotation, .zero, .zero, .zero, time⟩
  let first := ((empty none 1 1).insert ⟨1⟩ [location, rotation 5, rotation 3]).2
  (first.insert ⟨2⟩ [location]).2

theorem readable_unordered : unordered.Readable ⟨1⟩ := by
  rintro (_ | _ | _ | _) <;> decide +kernel

theorem count_unordered_lt (t : Table) : unordered.count ⟨1⟩ t < Transfer.countBound := by
  rcases t with _ | _ | _ | _ <;> decide +kernel

/-- The rotations of a measurement come back by time, though the later one was stored first. -/
theorem written_decodes_unordered : unordered.Readable ⟨1⟩ ∧
    (∀ t, unordered.count ⟨1⟩ t < Transfer.countBound) ∧
    ∃ total bytes, (unordered.reopen none 1 1).written 1 ⟨1⟩ = (.ok total, bytes) ∧
      Transfer.decode? bytes = some [[.location 7 .zero .zero .zero 0], [],
        [.sample ⟨.rotation, .zero, .zero, .zero, 3⟩, .sample ⟨.rotation, .zero, .zero, .zero, 5⟩],
        []] := by
  obtain ⟨hwritten, hdecode⟩ := written_decodes unordered ⟨1⟩ none 1 1 1
  obtain ⟨total, bytes, h⟩ := hwritten readable_unordered count_unordered_lt
  obtain ⟨order, harranged, hbytes⟩ := (hdecode total bytes h).1
  refine ⟨readable_unordered, count_unordered_lt, total, bytes, h, ?_⟩
  have horder (t : Table) :
      order t = (unordered.points ⟨1⟩ t).insertionSort Point.NotLater := by
    rw [arranged_iff.mp (harranged t), byTime_eq_insertionSort]
  rw [hbytes]
  simp only [horder]
  decide +kernel

end Store

end TripRecorder
