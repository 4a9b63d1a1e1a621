import TripRecorder.Delivery.Message
import TripRecorder.Proofs.Json.Records

/-!
# Messages that come back from their lines

A message crosses a process boundary as a line of JSON. Everything but its words comes back as it
was: times, identifiers, truth values, kinds, and reasons with any characters. So the whole message
comes back exactly when each of its words does.

## Main definitions

* `Message.words`, `Message.id?` — the words and the identifier that a message holds
* `Message.reread?` — the message with its words as they are read

## Main results

* `GeoLocation.reads`, `Sample.reads`, `SampleBatch.reads` — what is read from printed points
* `Message.read?_line` — what is read from the line of a message
* `Message.line_survives_iff` — when a message comes back
-/

namespace TripRecorder

open Json Record

/-! ### Points -/

/-- A position with its words as they are read. -/
def GeoLocation.reread? (l : GeoLocation) : Option GeoLocation := do
  return ⟨l.timestamp, ← l.lat.reread?, ← l.lon.reread?, ← l.speed.reread?, ← l.accuracy.reread?⟩

/-- A sample with its words as they are read. -/
def Sample.reread? (s : Sample) : Option Sample := do
  return ⟨s.kind, ← s.x.reread?, ← s.y.reread?, ← s.z.reread?, s.timestamp⟩

/-- A batch with its words as they are read. -/
def SampleBatch.reread? (b : SampleBatch) : Option SampleBatch := do
  return ⟨← b.accelerations.mapM Sample.reread?, ← b.rotations.mapM Sample.reread?,
    ← b.directions.mapM Sample.reread?⟩

/-! ### Points that come back -/

namespace GeoLocation

variable {l : GeoLocation}

/-- The words of a position. -/
def words (l : GeoLocation) : List Double := [l.lat, l.lon, l.speed, l.accuracy]

theorem reread?_eq_some_iff : l.reread? = some l ↔ ∀ x ∈ l.words, x.reread? = some x := by
  obtain ⟨timestamp, lat, lon, speed, accuracy⟩ := l
  simp [reread?, words, Option.bind_eq_some_iff]

/-- One word that does not come back leaves the position unread. -/
theorem reread?_eq_none {x : Double} (hx : x ∈ l.words) (h : x.reread? = none) :
    l.reread? = none := by
  simp only [words, List.mem_cons, List.not_mem_nil, or_false] at hx
  rcases hx with rfl | rfl | rfl | rfl <;> simp [reread?, h]

end GeoLocation

namespace Sample

variable {s : Sample}

/-- The words of a sample. -/
def words (s : Sample) : List Double := [s.x, s.y, s.z]

theorem reread?_eq_some_iff : s.reread? = some s ↔ ∀ x ∈ s.words, x.reread? = some x := by
  obtain ⟨kind, x, y, z, timestamp⟩ := s
  simp [reread?, words, Option.bind_eq_some_iff]

theorem reread?_eq_none {x : Double} (hx : x ∈ s.words) (h : x.reread? = none) :
    s.reread? = none := by
  simp only [words, List.mem_cons, List.not_mem_nil, or_false] at hx
  rcases hx with rfl | rfl | rfl <;> simp [reread?, h]

/-- Samples come back when all their words do. -/
theorem mapM_reread?_eq_some_iff {samples : List Sample} :
    samples.mapM Sample.reread? = some samples ↔
      ∀ x ∈ samples.flatMap words, x.reread? = some x := by
  have hmap : samples.mapM reread? = some (samples.map id) ↔
      ∀ s ∈ samples, s.reread? = some s := mapM_eq_some_map_iff
  rw [List.map_id] at hmap
  rw [hmap]
  simp only [reread?_eq_some_iff, List.forall_mem_flatMap]

theorem mapM_reread?_eq_none {samples : List Sample} {x : Double}
    (hx : x ∈ samples.flatMap words) (h : x.reread? = none) :
    samples.mapM Sample.reread? = none := by
  obtain ⟨s, hs, hmem⟩ := List.mem_flatMap.mp hx
  exact mapM_eq_none hs (reread?_eq_none hmem h)

end Sample

namespace SampleBatch

variable {b : SampleBatch}

/-- The words of a batch. -/
def words (b : SampleBatch) : List Double := b.toList.flatMap Sample.words

theorem reread?_eq_some_iff : b.reread? = some b ↔ ∀ x ∈ b.words, x.reread? = some x := by
  obtain ⟨accelerations, rotations, directions⟩ := b
  have hsplit : (∀ x ∈ (SampleBatch.mk accelerations rotations directions).words,
      x.reread? = some x) ↔
        (∀ x ∈ accelerations.flatMap Sample.words, x.reread? = some x) ∧
          (∀ x ∈ rotations.flatMap Sample.words, x.reread? = some x) ∧
            ∀ x ∈ directions.flatMap Sample.words, x.reread? = some x := by
    rw [words, toList, List.flatMap_append, List.flatMap_append, List.forall_mem_append,
      List.forall_mem_append, and_assoc]
  rw [hsplit, ← Sample.mapM_reread?_eq_some_iff, ← Sample.mapM_reread?_eq_some_iff,
    ← Sample.mapM_reread?_eq_some_iff]
  simp [reread?, Option.bind_eq_some_iff]

theorem reread?_eq_none {x : Double} (hx : x ∈ b.words) (h : x.reread? = none) :
    b.reread? = none := by
  simp only [words, toList, List.flatMap_append, List.mem_append] at hx
  rcases hx with (hx | hx) | hx <;> simp [reread?, Sample.mapM_reread?_eq_none hx h]

end SampleBatch

theorem SampleKind.reads (k : SampleKind) : ofTree? (tree (toJson k)) = some k := by
  have hname : Tree.caseName? (tree (.string k.name)) = some k.name := textOf?_piecesOf k.name
  show caseOf? SampleKind.all SampleKind.name (tree (.string k.name)) = some k
  rw [caseOf?, hname]
  cases k <;> rfl

theorem GeoLocation.reads (l : GeoLocation) : ofTree? (tree (toJson l)) = l.reread? := by
  have hfields : fields? ["timestamp_ms", "lat", "lon", "speed", "accuracy"] (tree (toJson l)) =
      some [some (tree (toJson l.timestamp)), some (tree (toJson l.lat)),
        some (tree (toJson l.lon)), some (tree (toJson l.speed)),
        some (tree (toJson l.accuracy))] :=
    ofObject?_zip ["timestamp_ms", "lat", "lon", "speed", "accuracy"] [toJson l.timestamp,
      toJson l.lat, toJson l.lon, toJson l.speed, toJson l.accuracy] (by decide) rfl
  show (fields? _ (tree (toJson l))).bind _ = _
  rw [hfields]
  simp only [Option.bind_some, required_some, reads_int64, reads_double]
  rfl

theorem Sample.reads (s : Sample) : ofTree? (tree (toJson s)) = s.reread? := by
  have hfields : fields? ["kind", "x", "y", "z", "timestamp_ms"] (tree (toJson s)) =
      some [some (tree (toJson s.kind)), some (tree (toJson s.x)), some (tree (toJson s.y)),
        some (tree (toJson s.z)), some (tree (toJson s.timestamp))] :=
    ofObject?_zip ["kind", "x", "y", "z", "timestamp_ms"] [toJson s.kind, toJson s.x, toJson s.y,
      toJson s.z, toJson s.timestamp] (by decide) rfl
  show (fields? _ (tree (toJson s))).bind _ = _
  rw [hfields]
  simp only [Option.bind_some, required_some, SampleKind.reads, reads_int64, reads_double]
  rfl

theorem SampleBatch.reads (b : SampleBatch) : ofTree? (tree (toJson b)) = b.reread? := by
  have hfields : fields? ["accelerations", "rotations", "directions"] (tree (toJson b)) =
      some [some (tree (toJson b.accelerations)), some (tree (toJson b.rotations)),
        some (tree (toJson b.directions))] :=
    ofObject?_zip ["accelerations", "rotations", "directions"] [toJson b.accelerations,
      toJson b.rotations, toJson b.directions] (by decide) rfl
  show (fields? _ (tree (toJson b))).bind _ = _
  rw [hfields]
  simp only [Option.bind_some, required_some, reads_list, Sample.reads]
  rfl

/-! ### Messages -/

theorem MeasurementId.reads {id : MeasurementId} (h : id.value < UInt64.size) :
    ofTree? (tree (toJson id)) = some id := by
  show (ofTree? (tree (toJson id.value)) : Option Nat).map MeasurementId.mk = some id
  rw [reads_nat h]
  rfl

theorem EventKind.reads (k : EventKind) : ofTree? (tree (toJson k)) = some k := by
  have hname : Tree.caseName? (tree (.string k.name)) = some k.name := textOf?_piecesOf k.name
  show caseOf? EventKind.all EventKind.name (tree (.string k.name)) = some k
  rw [caseOf?, hname]
  cases k <;> rfl

namespace Message

/-- The identifier in a message. -/
def id? : Message → Option MeasurementId
  | started id => some id
  | stopped id _ => some id
  | _ => none

/-- A message with its words as they are read. -/
def reread? : Message → Option Message
  | data batch => batch.reread?.map data
  | location l => l.reread?.map location
  | m => some m

/-- The payload of a message is read for its kind. -/
theorem ofPayload_payload? {m : Message} (hid : ∀ id, m.id? = some id → id.value < UInt64.size) :
    ofPayload m.kind (m.payload?.map tree) = m.reread? := by
  cases m with
  | data batch => exact congrArg (Option.map data) batch.reads
  | location l => exact congrArg (Option.map location) l.reads
  | fixAcquired => rfl
  | fixLost => rfl
  | started id =>
    have hfields : objectFields? ["measurement_id"]
        (tree (.object [("measurement_id", toJson id)])) = some [some (tree (toJson id))] :=
      ofObject?_zip ["measurement_id"] [toJson id] (by decide) rfl
    simp only [kind, payload?, Option.map_some, ofPayload, ofPayload?, hfields,
      Option.bind_eq_bind, Option.bind_some, required_some, MeasurementId.reads (hid id rfl)]
    rfl
  | stopped id success =>
    have hfields : objectFields? ["measurement_id", "success"]
        (tree (.object [("measurement_id", toJson id), ("success", toJson success)])) =
          some [some (tree (toJson id)), some (tree (toJson success))] :=
      ofObject?_zip ["measurement_id", "success"] [toJson id, toJson success] (by decide) rfl
    simp only [kind, payload?, Option.map_some, ofPayload, ofPayload?, hfields,
      Option.bind_eq_bind, Option.bind_some, required_some, MeasurementId.reads (hid id rfl),
      reads_bool]
    rfl
  | error reason =>
    have hfields : objectFields? ["reason"] (tree (.object [("reason", toJson reason)])) =
        some [some (tree (toJson reason))] :=
      ofObject?_zip ["reason"] [toJson reason] (by decide) rfl
    simp only [kind, payload?, Option.map_some, ofPayload, ofPayload?, hfields,
      Option.bind_eq_bind, Option.bind_some, required_some, reads_string]
    rfl

/-- What is read from the line of a message: the code is skipped, and the kind and the payload are
found. -/
theorem read?_line {m : Message} (hid : ∀ id, m.id? = some id → id.value < UInt64.size) :
    Json.read? Message m.line = m.reread? := by
  have hevent := EventKind.reads m.kind
  rw [← ofPayload_payload? hid, Json.read?, line, parse?_compact, Option.bind_some]
  show Message.ofTree? (.object (memberTrees (("code", .nat m.kind.code) :: m.members))) = _
  simp only [Message.ofTree?, named?_memberTrees, Option.bind_eq_bind, Option.bind_some, members,
    List.map_cons]
  -- Nobody reads the code, so it may be any value.
  generalize tree (.nat m.kind.code) = c
  cases m.payload? with
  | none =>
    have hkind (k : Tree) : field? [("code", c), ("event", k)] "event" = some (some k) := rfl
    have hnone (k : Tree) : field? [("code", c), ("event", k)] "payload" = some none := rfl
    have hfirst (k : Tree) : readableFirst [("code", c), ("event", k)] = true := rfl
    simp only [Option.map_none, Option.toList_none, List.map_nil, hkind, hnone, hfirst,
      Option.bind_some, required_some, hevent, if_true]
  | some p =>
    have hkind (k p : Tree) : field? [("code", c), ("event", k), ("payload", p)] "event" =
        some (some k) := rfl
    have hsome (k p : Tree) : field? [("code", c), ("event", k), ("payload", p)] "payload" =
        some (some p) := rfl
    have hfirst (k p : Tree) :
        readableFirst [("code", c), ("event", k), ("payload", p)] = true := rfl
    simp only [Option.map_some, Option.toList_some, List.map_cons, List.map_nil, hkind, hsome,
      hfirst, Option.bind_some, required_some, hevent, if_true]

/-- The words of a message. -/
def words : Message → List Double
  | data batch => batch.words
  | location l => l.words
  | _ => []

variable {m : Message}

theorem reread?_eq_some_iff : m.reread? = some m ↔ ∀ x ∈ m.words, x.reread? = some x := by
  cases m with
  | data batch =>
    show batch.reread?.map data = some (data batch) ↔ ∀ x ∈ batch.words, _
    rw [← SampleBatch.reread?_eq_some_iff]
    simp [Option.map_eq_some_iff]
  | location l =>
    show l.reread?.map location = some (location l) ↔ ∀ x ∈ l.words, _
    rw [← GeoLocation.reread?_eq_some_iff]
    simp [Option.map_eq_some_iff]
  | _ => simp [reread?, words]

/-- One word that does not come back leaves the message unread. -/
theorem reread?_eq_none {x : Double} (hx : x ∈ m.words) (h : x.reread? = none) :
    m.reread? = none := by
  cases m with
  | data batch =>
    rw [reread?, SampleBatch.reread?_eq_none hx h]
    rfl
  | location l =>
    rw [reread?, GeoLocation.reread?_eq_none hx h]
    rfl
  | _ => cases hx

/-- A message comes back from its line exactly when each of its words comes back from its text, and
it comes back as it was. With a word that is infinite or not a number the line cannot be read, and
with words of few digits all of it comes back. -/
theorem line_survives_iff (hid : ∀ id, m.id? = some id → id.value < UInt64.size) :
    Json.read? Message m.line = m.reread? ∧
      (Json.read? Message m.line = some m ↔ ∀ x ∈ m.words, x.reread? = some x) ∧
      (∀ x ∈ m.words, x.isFinite = false → Json.read? Message m.line = none) ∧
      ((∀ x ∈ m.words, x.isFinite = true ∧ (Numeral.ofDouble x).Short) →
        Json.read? Message m.line = some m) := by
  have hread := read?_line hid
  refine ⟨hread, hread ▸ reread?_eq_some_iff, fun x hx hinfinite => ?_, fun hshort => ?_⟩
  · rw [hread]
    exact reread?_eq_none hx (Double.reread?_of_not_finite hinfinite)
  · rw [hread, reread?_eq_some_iff]
    intro x hx
    exact Double.reread?_of_short (hshort x hx).1 (hshort x hx).2

/-- A position with few digits. -/
def sighting : Message :=
  .location ⟨1001, ⟨0x4049C00000000000⟩, ⟨0xBFC0000000000000⟩, .zero, ⟨0x4014000000000000⟩⟩

/-- The position comes back. -/
theorem line_survives_sighting :
    (∀ id, sighting.id? = some id → id.value < UInt64.size) ∧
      Json.read? Message sighting.line = some sighting := by
  have hid : ∀ id, sighting.id? = some id → id.value < UInt64.size := nofun
  refine ⟨hid, (line_survives_iff hid).2.2.2 fun x hx => ?_⟩
  have hx : x ∈ [⟨0x4049C00000000000⟩, ⟨0xBFC0000000000000⟩, .zero, ⟨0x4014000000000000⟩] := hx
  simp only [List.mem_cons, List.not_mem_nil, or_false] at hx
  rcases hx with rfl | rfl | rfl | rfl
  all_goals exact ⟨by decide, by decide +kernel, by decide +kernel⟩

/-- A position whose latitude is infinite. -/
def unlocated : Message :=
  .location ⟨1001, ⟨0x7FF0000000000000⟩, ⟨0x4000000000000000⟩, .zero, ⟨0x4014000000000000⟩⟩

/-- Its line has `null` for the latitude, and is not read. -/
theorem line_unlocated :
    unlocated.line = "\x7b\"code\":2,\"event\":\"LocationCaptured\",\"payload\":\x7b" ++
      "\"timestamp_ms\":1001,\"lat\":null,\"lon\":2.0,\"speed\":0.0,\"accuracy\":5.0\x7d\x7d" ∧
      Json.read? Message unlocated.line = none := by
  have hid : ∀ id, unlocated.id? = some id → id.value < UInt64.size := nofun
  refine ⟨by decide +kernel, ?_⟩
  rw [read?_line hid]
  exact reread?_eq_none List.mem_cons_self (Double.reread?_of_not_finite (by decide))

/-- A word of sixteen digits, 9.009461120907673, may come back as its neighbour. -/
example : Double.reread? ⟨0x402204D81689C390⟩ = some ⟨0x402204D81689C38F⟩ := by decide +kernel

end Message

end TripRecorder
