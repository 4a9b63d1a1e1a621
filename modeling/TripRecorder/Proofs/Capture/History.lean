import TripRecorder.Capture.Pump
import TripRecorder.Proofs.Chunks

/-!
# What a capture has done so far

Readings wait in a queue, samples then wait in a buffer, and what leaves the buffer is an event. At
any moment the samples of all events, those in the buffer and those in the queue are the samples
that were accepted, kind by kind and in order. A location never waits: it is emitted at once, or
dropped for good because its position was emitted lately.

## Main definitions

* `unrepeated` — locations without those at a position that was kept lately
* `RecentPositions.Holds` — the positions kept lately are remembered
* `Intake.History`, `Pump.History` — the readings and the events of an intake and of a pump so far
* `Captured` — events that tell everything about the readings of some captures

## Main results

* `Intake.History.handle`, `Intake.History.flush`, `Intake.History.tick` — moves of an intake
* `Pump.History.offer`, `Pump.History.step`, `Pump.History.tick` — moves of a pump
* `Pump.History.close` — when a pump is closed, its events tell everything
-/

namespace TripRecorder

/-! ### Samples and locations -/

/-- The samples of a kind in a reading. -/
def Reading.samples (kind : SampleKind) : Reading → List Sample
  | .sample s => if s.kind = kind then [s] else []
  | _ => []

/-- The locations in a reading. -/
def Reading.locations : Reading → List GeoLocation
  | .location l => [l]
  | _ => []

/-- The samples of a kind in an event. -/
def CaptureEvent.samples (kind : SampleKind) : CaptureEvent → List Sample
  | .data b => b.ofKind kind
  | _ => []

/-- The locations in an event. -/
def CaptureEvent.locations : CaptureEvent → List GeoLocation
  | .location l => [l]
  | _ => []

@[simp] theorem Reading.samples_sample (kind : SampleKind) (s : Sample) :
    (Reading.sample s).samples kind = if s.kind = kind then [s] else [] := rfl

@[simp] theorem Reading.samples_location (kind : SampleKind) (l : GeoLocation) :
    (Reading.location l).samples kind = [] := rfl

@[simp] theorem Reading.locations_sample (s : Sample) : (Reading.sample s).locations = [] := rfl

@[simp] theorem Reading.locations_location (l : GeoLocation) :
    (Reading.location l).locations = [l] := rfl

@[simp] theorem CaptureEvent.samples_data (kind : SampleKind) (b : SampleBatch) :
    (CaptureEvent.data b).samples kind = b.ofKind kind := rfl

@[simp] theorem CaptureEvent.samples_location (kind : SampleKind) (l : GeoLocation) :
    (CaptureEvent.location l).samples kind = [] := rfl

@[simp] theorem CaptureEvent.locations_data (b : SampleBatch) :
    (CaptureEvent.data b).locations = [] := rfl

@[simp] theorem CaptureEvent.locations_location (l : GeoLocation) :
    (CaptureEvent.location l).locations = [l] := rfl

/-! ### Locations that repeat a position -/

/-- The last locations, as many as are remembered. -/
def lately (kept : List GeoLocation) : List GeoLocation :=
  kept.drop (kept.length - RecentPositions.capacity)

/-- One more location is kept, unless its position was kept lately. -/
def keepUnrepeated (kept : List GeoLocation) (l : GeoLocation) : List GeoLocation :=
  if l.key ∈ (lately kept).map GeoLocation.key then kept else kept ++ [l]

/-- The locations without those at a position that was kept lately. -/
def unrepeated (locations : List GeoLocation) : List GeoLocation :=
  locations.foldl keepUnrepeated []

@[simp] theorem unrepeated_nil : unrepeated [] = [] := rfl

theorem unrepeated_concat (locations : List GeoLocation) (l : GeoLocation) :
    unrepeated (locations ++ [l]) = keepUnrepeated (unrepeated locations) l := by
  rw [unrepeated, List.foldl_append, List.foldl_cons, List.foldl_nil, unrepeated]

theorem length_lately (kept : List GeoLocation) :
    (lately kept).length = min kept.length RecentPositions.capacity := by
  rw [lately, List.length_drop]
  omega

/-- With one more location, the oldest is forgotten if there were as many as are remembered. -/
theorem lately_concat (kept : List GeoLocation) (l : GeoLocation) :
    lately (kept ++ [l]) =
      (lately kept ++ [l]).drop ((lately kept).length + 1 - RecentPositions.capacity) := by
  rw [length_lately]
  -- Either as many locations were kept as are remembered, or all that were kept still are.
  by_cases h : RecentPositions.capacity ≤ kept.length
  · have hnew : kept.length + 1 - RecentPositions.capacity =
        kept.length - RecentPositions.capacity + 1 := by omega
    have hone : min kept.length RecentPositions.capacity + 1 - RecentPositions.capacity = 1 := by
      omega
    have hpos : 0 < RecentPositions.capacity := by decide
    rw [lately, List.length_append, List.length_singleton, hnew, hone, lately,
      List.drop_append_of_le_length (by omega),
      List.drop_append_of_le_length (by rw [List.length_drop]; omega), List.drop_drop]
  · have hall : kept.length - RecentPositions.capacity = 0 := by omega
    have hnone : kept.length + 1 - RecentPositions.capacity = 0 := by omega
    have hzero : min kept.length RecentPositions.capacity + 1 - RecentPositions.capacity = 0 := by
      omega
    rw [lately, List.length_append, List.length_singleton, hnone, hzero, lately, hall,
      List.drop_zero, List.drop_zero, List.drop_zero]

namespace RecentPositions

variable {w w' : RecentPositions} {kept : List GeoLocation}

/-- The positions of the last kept locations are remembered, in their order. -/
structure Holds (w : RecentPositions) (kept : List GeoLocation) : Prop where
  order : w.order = (lately kept).map GeoLocation.key
  index : w.index.Perm w.order

theorem holds_none : none.Holds [] := ⟨rfl, .nil⟩

theorem Holds.contains_iff (h : w.Holds kept) (l : GeoLocation) :
    w.index.contains l.key ↔ l.key ∈ (lately kept).map GeoLocation.key := by
  rw [List.contains_iff_mem, h.index.mem_iff, h.order]

/-- Trimming leaves the newest positions. -/
theorem order_trim (h : w.order.length ≤ capacity + 1) :
    w.trim.order = w.order.drop (w.order.length - capacity) := by
  obtain ⟨index, order⟩ := w
  cases order with
  | nil => exact List.drop_nil.symm
  | cons oldest rest =>
    simp only [trim]
    split
    · rename_i hlong
      -- One more than is remembered: only the oldest has to go.
      have hone : (oldest :: rest).length - capacity = 1 := by simp only at h; omega
      rw [hone, List.drop_one, List.tail_cons]
    · rename_i hshort
      rw [Nat.sub_eq_zero_of_le (Nat.le_of_not_lt hshort), List.drop_zero]

theorem index_trim (h : w.index.Perm w.order) : w.trim.index.Perm w.trim.order := by
  obtain ⟨index, order⟩ := w
  cases order with
  | nil => exact h
  | cons oldest rest =>
    simp only [trim]
    split
    · simpa using h.erase oldest
    · exact h

/-- A position is refused exactly if it was kept lately, and is remembered otherwise. -/
theorem Holds.remember_cases (h : w.Holds kept) (l : GeoLocation) :
    (w.remember? l.key = .none ∧ keepUnrepeated kept l = kept) ∨
    ∃ w', w.remember? l.key = some w' ∧ keepUnrepeated kept l = kept ++ [l] ∧
      w'.Holds (kept ++ [l]) := by
  by_cases hseen : l.key ∈ (lately kept).map GeoLocation.key
  · refine .inl ⟨?_, if_pos hseen⟩
    rw [remember?, if_pos ((h.contains_iff l).mpr hseen)]
  · refine .inr ⟨trim ⟨l.key :: w.index, w.order ++ [l.key]⟩, ?_, if_neg hseen, ?_⟩
    · rw [remember?, if_neg fun hcontains => hseen ((h.contains_iff l).mp hcontains)]
    · -- The new position comes last in the order, and where it is in the index does not matter.
      have horder : w.order ++ [l.key] = (lately kept ++ [l]).map GeoLocation.key := by
        rw [h.order, List.map_append, List.map_singleton]
      refine ⟨?_, index_trim ?_⟩
      · rw [order_trim, lately_concat, List.map_drop, ← horder]
        · simp only [List.length_append, List.length_singleton, h.order, List.length_map]
        · rw [horder, List.length_map, List.length_append, length_lately, List.length_singleton]
          omega
      · exact (h.index.cons l.key).trans (List.perm_append_singleton _ _).symm

end RecentPositions

/-! ### An intake -/

namespace SampleBatch

theorem ofKind_push (b : SampleBatch) (s : Sample) (kind : SampleKind) :
    (b.push s).ofKind kind = b.ofKind kind ++ Reading.samples kind (.sample s) := by
  unfold push
  cases hs : s.kind <;> cases kind <;> simp [ofKind, hs]

theorem Sorted.push {b : SampleBatch} (h : b.Sorted) (s : Sample) : (b.push s).Sorted := by
  intro kind s' hs'
  rw [ofKind_push, List.mem_append] at hs'
  rcases hs' with hs' | hs'
  · exact h kind s' hs'
  · rw [Reading.samples_sample] at hs'
    split at hs'
    · rename_i hkind
      rw [List.mem_singleton.mp hs', hkind]
    · cases hs'

theorem sorted_empty : empty.Sorted := by
  intro kind s hs
  cases kind <;> cases hs

theorem ofKind_of_size_zero {b : SampleBatch} (h : b.size = 0) (kind : SampleKind) :
    b.ofKind kind = [] := by
  refine List.eq_nil_of_length_eq_zero ?_
  unfold size at h
  cases kind <;> simp only [ofKind] <;> omega

end SampleBatch

/-- Everything the sensors of some captures reported is in the events, one capture after
another. -/
structure Captured (captures : List (List Reading)) (events : List CaptureEvent) : Prop where
  samples : ∀ kind, events.flatMap (CaptureEvent.samples kind) =
    captures.flatten.flatMap (Reading.samples kind)
  locations : events.flatMap CaptureEvent.locations =
    captures.flatMap fun readings => unrepeated (readings.flatMap Reading.locations)
  sorted : ∀ b, .data b ∈ events → b.Sorted

theorem captured_nil : Captured [] [] := ⟨fun _ => rfl, rfl, nofun⟩

theorem Captured.append {captures captures' : List (List Reading)}
    {events events' : List CaptureEvent} (h : Captured captures events)
    (h' : Captured captures' events') : Captured (captures ++ captures') (events ++ events') where
  samples kind := by
    rw [List.flatMap_append, h.samples, h'.samples, List.flatten_append, List.flatMap_append]
  locations := by rw [List.flatMap_append, h.locations, h'.locations, List.flatMap_append]
  sorted b hb := (List.mem_append.mp hb).elim (h.sorted b) (h'.sorted b)

namespace Intake

variable {i : Intake} {readings : List Reading} {events : List CaptureEvent}

/-- What an intake has taken in and emitted: samples were emitted or wait in the buffer, locations
were emitted at once unless their position was emitted lately. -/
structure History (i : Intake) (readings : List Reading) (events : List CaptureEvent) : Prop where
  samples : ∀ kind, events.flatMap (CaptureEvent.samples kind) ++ i.buffer.ofKind kind =
    readings.flatMap (Reading.samples kind)
  locations : events.flatMap CaptureEvent.locations =
    unrepeated (readings.flatMap Reading.locations)
  recent : i.recent.Holds (unrepeated (readings.flatMap Reading.locations))
  waiting : i.buffer.Sorted
  sorted : ∀ b, .data b ∈ events → b.Sorted

theorem history_fresh (threshold intervalMs now : Nat) :
    (fresh threshold intervalMs now).History [] [] where
  samples kind := by cases kind <;> rfl
  locations := rfl
  recent := RecentPositions.holds_none
  waiting := SampleBatch.sorted_empty
  sorted := nofun

/-- A release moves all samples from the buffer into an event. -/
theorem History.flush (h : i.History readings events) (now : Nat) :
    (i.flush now).1.History readings (events ++ (i.flush now).2) := by
  have hempty (kind : SampleKind) : SampleBatch.empty.ofKind kind = [] := by cases kind <;> rfl
  unfold Intake.flush
  split
  · rename_i hsize
    -- An empty buffer is released without an event.
    rw [List.append_nil]
    refine { h with samples := fun kind => ?_, waiting := SampleBatch.sorted_empty }
    rw [hempty, ← h.samples kind, SampleBatch.ofKind_of_size_zero hsize]
  · refine ⟨fun kind => ?_, ?_, h.recent, SampleBatch.sorted_empty, fun b hb => ?_⟩
    · rw [hempty, List.append_nil, List.flatMap_append, ← h.samples kind]
      rw [List.flatMap_singleton, CaptureEvent.samples_data]
    · rw [List.flatMap_append, h.locations, List.flatMap_singleton,
        CaptureEvent.locations_data, List.append_nil]
    · rcases List.mem_append.mp hb with hb | hb
      · exact h.sorted b hb
      · rw [CaptureEvent.data.inj (List.mem_singleton.mp hb)]
        exact h.waiting

theorem History.tick (h : i.History readings events) (now : Nat) :
    (i.tick now).1.History readings (events ++ (i.tick now).2) := by
  unfold Intake.tick
  split
  · exact h.flush now
  · rwa [List.append_nil]

/-- A sample joins the buffer. -/
theorem History.push (h : i.History readings events) (s : Sample) :
    ({ i with buffer := i.buffer.push s } : Intake).History (readings ++ [.sample s]) events where
  samples kind := by
    rw [SampleBatch.ofKind_push, ← List.append_assoc, h.samples kind, List.flatMap_append,
      List.flatMap_singleton]
  locations := by
    simpa only [List.flatMap_append, List.flatMap_singleton, Reading.locations_sample,
      List.append_nil]
      using h.locations
  recent := by
    simpa only [List.flatMap_append, List.flatMap_singleton, Reading.locations_sample,
      List.append_nil]
      using h.recent
  waiting := h.waiting.push s
  sorted := h.sorted

/-- A reading without samples and locations leads to events without them. -/
theorem History.silent (h : i.History readings events) {r : Reading} {others : List CaptureEvent}
    (fix : FixState) (hreading : ∀ kind, r.samples kind = []) (hlocation : r.locations = [])
    (hevents : ∀ event ∈ others, (∀ kind, event.samples kind = []) ∧ event.locations = [] ∧
      ∀ b, event ≠ .data b) :
    ({ i with fix := fix } : Intake).History (readings ++ [r]) (events ++ others) := by
  have hlocations : (readings ++ [r]).flatMap Reading.locations =
      readings.flatMap Reading.locations := by
    rw [List.flatMap_append, List.flatMap_singleton, hlocation, List.append_nil]
  refine ⟨fun kind => ?_, ?_, hlocations ▸ h.recent, h.waiting, fun b hb => ?_⟩
  · have hnone : others.flatMap (CaptureEvent.samples kind) = [] :=
      List.flatMap_eq_nil_iff.mpr fun event hevent => (hevents event hevent).1 kind
    rw [List.flatMap_append, hnone, List.append_nil, h.samples kind, List.flatMap_append,
      List.flatMap_singleton, hreading, List.append_nil]
  · have hnone : others.flatMap CaptureEvent.locations = [] :=
      List.flatMap_eq_nil_iff.mpr fun event hevent => (hevents event hevent).2.1
    rw [List.flatMap_append, hnone, List.append_nil, h.locations, hlocations]
  · rcases List.mem_append.mp hb with hb | hb
    · exact h.sorted b hb
    · exact absurd rfl ((hevents _ hb).2.2 b)

/-- A location is emitted unless it repeats a position. -/
theorem History.locate (h : i.History readings events) (now : Nat) (l : GeoLocation) :
    (i.handle now (.location l)).1.History (readings ++ [.location l])
      (events ++ (i.handle now (.location l)).2) := by
  have hlocations : (readings ++ [Reading.location l]).flatMap Reading.locations =
      readings.flatMap Reading.locations ++ [l] := by
    rw [List.flatMap_append, List.flatMap_singleton, Reading.locations_location]
  have hsamples (kind : SampleKind) : (readings ++ [Reading.location l]).flatMap
      (Reading.samples kind) = readings.flatMap (Reading.samples kind) := by
    rw [List.flatMap_append, List.flatMap_singleton, Reading.samples_location,
      List.append_nil]
  simp only [Intake.handle]
  rcases h.recent.remember_cases l with ⟨hseen, hkeep⟩ | ⟨recent, hnew, hkeep, hholds⟩
  · -- The position was emitted lately: the location is dropped, and nothing else changes.
    rw [hseen]
    refine ⟨fun kind => ?_, ?_, ?_, h.waiting, ?_⟩
    · rw [List.append_nil, h.samples kind, hsamples]
    · rw [List.append_nil, h.locations, hlocations, unrepeated_concat, hkeep]
    · rw [hlocations, unrepeated_concat, hkeep]
      exact h.recent
    · rw [List.append_nil]
      exact h.sorted
  · -- The position is new: the location is emitted at once and remembered.
    rw [hnew]
    refine ⟨fun kind => ?_, ?_, ?_, h.waiting, fun b hb => ?_⟩
    · rw [hsamples, ← h.samples kind, List.flatMap_append, List.flatMap_singleton,
        CaptureEvent.samples_location, List.append_nil]
    · rw [List.flatMap_append, List.flatMap_singleton,
        CaptureEvent.locations_location, h.locations, hlocations, unrepeated_concat, hkeep]
    · rw [hlocations, unrepeated_concat, hkeep]
      exact hholds
    · rcases List.mem_append.mp hb with hb | hb
      · exact h.sorted b hb
      · cases List.mem_singleton.mp hb

/-- A reading is taken in. -/
theorem History.handle (h : i.History readings events) (now : Nat) (r : Reading) :
    (i.handle now r).1.History (readings ++ [r]) (events ++ (i.handle now r).2) := by
  cases r with
  | fix signal =>
    refine h.silent _ (fun _ => rfl) rfl fun event hevent => ?_
    obtain ⟨change, -, rfl⟩ := Option.map_eq_some_iff.mp (Option.mem_toList.mp hevent)
    cases change <;> exact ⟨fun _ => rfl, rfl, nofun⟩
  | location l => exact h.locate now l
  | sample s =>
    simp only [Intake.handle]
    split
    · exact (h.push s).flush now
    · rw [List.append_nil]
      exact h.push s
  | unavailable source reason =>
    refine h.silent i.fix (fun _ => rfl) rfl fun event hevent => ?_
    rw [List.mem_singleton.mp hevent]
    exact ⟨fun _ => rfl, rfl, nofun⟩

theorem History.handleAll (h : i.History readings events) (now : Nat) (others : List Reading) :
    (i.handleAll now others).1.History (readings ++ others)
      (events ++ (i.handleAll now others).2) := by
  induction others generalizing i readings events with
  | nil => simpa only [Intake.handleAll, List.append_nil] using h
  | cons r rest ih =>
    have hrest := ih (h.handle now r)
    rwa [List.append_assoc, List.append_assoc, List.singleton_append] at hrest

/-- After a release nothing waits, and all that was taken in was emitted. -/
theorem History.captured_flush (h : i.History readings events) (now : Nat) :
    Captured [readings] (events ++ (i.flush now).2) := by
  have hflush := h.flush now
  refine ⟨fun kind => ?_, ?_, hflush.sorted⟩
  · have hempty : (i.flush now).1.buffer.ofKind kind = [] := by cases kind <;> rfl
    have hsamples := hflush.samples kind
    rw [hempty, List.append_nil] at hsamples
    rw [hsamples, List.flatten_singleton]
  · rw [hflush.locations, List.flatMap_singleton]

end Intake

/-! ### A pump -/

namespace Pump

variable {p : Pump} {accepted : List Reading} {events : List CaptureEvent}

/-- The readings that a pump has accepted and the events it has emitted: while it runs, readings
wait in its queue and samples in the buffer, and afterwards nothing waits. -/
def History (p : Pump) (accepted : List Reading) (events : List CaptureEvent) : Prop :=
  if p.isRunning then ∃ taken, accepted = taken ++ p.queue ∧ p.intake.History taken events
  else Captured [accepted] events

theorem history_iff_of_running (hrunning : p.isRunning = true) : p.History accepted events ↔
    ∃ taken, accepted = taken ++ p.queue ∧ p.intake.History taken events := by
  rw [History, if_pos hrunning]

theorem history_iff_of_ended (hended : p.isRunning = false) :
    p.History accepted events ↔ Captured [accepted] events := by
  rw [History, if_neg (ne_true_of_eq_false hended)]

theorem history_start (threshold intervalMs now : Nat) :
    (start threshold intervalMs now).History [] [] := by
  unfold History
  split
  · exact ⟨[], rfl, Intake.history_fresh threshold intervalMs now⟩
  · exact ⟨fun _ => rfl, rfl, nofun⟩

/-- Readings that are accepted join the queue. -/
theorem History.offer (h : p.History accepted events) (readings : List Reading) :
    (p.offer readings).1.History
      (accepted ++ if (p.offer readings).2 then readings else []) events := by
  unfold Pump.offer
  cases hrunning : p.isRunning with
  | false => simpa using h
  | true =>
    obtain ⟨taken, rfl, hintake⟩ := (history_iff_of_running hrunning).mp h
    have hlonger : ({ p with queue := p.queue ++ readings } : Pump).isRunning = true := hrunning
    simp only [if_true]
    exact (history_iff_of_running hlonger).mpr ⟨taken, List.append_assoc _ _ _, hintake⟩

theorem History.step (h : p.History accepted events) (now : Nat) :
    (p.step now).1.History accepted (events ++ (p.step now).2) := by
  unfold Pump.step
  split
  · rename_i r rest hrunning hqueue
    obtain ⟨taken, rfl, hintake⟩ := (history_iff_of_running hrunning).mp h
    have hshorter : ({ p with intake := (p.intake.handle now r).1, queue := rest } :
        Pump).isRunning = true := hrunning
    refine (history_iff_of_running hshorter).mpr ⟨taken ++ [r], ?_, hintake.handle now r⟩
    rw [hqueue, List.append_assoc, List.singleton_append]
  · rwa [List.append_nil]

theorem History.tick (h : p.History accepted events) (now : Nat) :
    (p.tick now).1.History accepted (events ++ (p.tick now).2) := by
  unfold Pump.tick
  split
  · rename_i t hticker
    have hrunning : p.isRunning = true := by rw [isRunning, hticker, Option.isSome_some]
    split
    · obtain ⟨taken, rfl, hintake⟩ := (history_iff_of_running hrunning).mp h
      exact (history_iff_of_running rfl).mpr ⟨taken, rfl, hintake.tick now⟩
    · rwa [List.append_nil]
  · rwa [List.append_nil]

/-- A pump that was closed has emitted everything. -/
theorem History.captured_close (h : p.History accepted events) (now : Nat) :
    Captured [accepted] (events ++ (p.close now).2) := by
  unfold Pump.close
  cases hrunning : p.isRunning with
  | false =>
    rw [if_neg Bool.false_ne_true, List.append_nil]
    exact (history_iff_of_ended hrunning).mp h
  | true =>
    obtain ⟨taken, rfl, hintake⟩ := (history_iff_of_running hrunning).mp h
    -- What is queued is taken in first, and then the buffer is released for the last time.
    rw [if_pos rfl, ← List.append_assoc]
    exact (hintake.handleAll now p.queue).captured_flush now

theorem History.close (h : p.History accepted events) (now : Nat) :
    (p.close now).1.History accepted (events ++ (p.close now).2) := by
  have hended : (p.close now).1.isRunning = false := by
    unfold Pump.close
    split
    · rfl
    · rename_i hended
      exact eq_false_of_ne_true hended
  exact (history_iff_of_ended hended).mpr (h.captured_close now)

end Pump

end TripRecorder
