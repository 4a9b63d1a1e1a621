import Mathlib.Data.List.Nodup
import TripRecorder.Proofs.Capture.History

/-!
# Calls of an intake

An intake is called with readings, at ticks, and to release what it has buffered, in any order and
at any times. Three things may release the samples that wait: there are enough of them, a tick finds
that the last release is long enough ago, or they are asked for. Nothing else touches them, and only
locations touch the positions that are remembered.

## Main definitions

* `IntakeCall`, `Intake.call` — the calls of an intake
* `Intake.after`, `Intake.log` — an intake after some calls, and the events each of them led to
* `releasedAt` — when samples were released last, as it is seen from outside
* `Intake.Bounded` — fewer samples wait than are released at once
* `Intake.Renewed` — an intake that is new, or was reset

## Main results

* `Intake.History.call`, `Intake.Bounded.call`, `Intake.lastFlush_call`, `Intake.holds_call` — what
  a call does
* `Intake.buffered_after` — the samples that were released and those that wait, after any calls
* `GeoLocation.key_eq_iff` — a position by its time and the words of its coordinates
* `Intake.Renewed.emits_iff` — the locations that are emitted, after any calls
-/

namespace TripRecorder

/-- What an intake is called for, and at what time. -/
inductive IntakeCall where
  | handle (now : Nat) (reading : Reading)
  | tick (now : Nat)
  | flush (now : Nat)
deriving DecidableEq, Repr

/-- The readings that are taken in with a call. -/
def IntakeCall.readings : IntakeCall → List Reading
  | handle _ reading => [reading]
  | _ => []

namespace Intake

/-- An intake is called. -/
def call (i : Intake) : IntakeCall → Intake × List CaptureEvent
  | .handle now reading => i.handle now reading
  | .tick now => i.tick now
  | .flush now => i.flush now

/-- The intake after some calls. -/
def after (i : Intake) (calls : List IntakeCall) : Intake :=
  calls.foldl (fun i c => (i.call c).1) i

/-- Some calls, each with the events it led to. -/
def log (i : Intake) : List IntakeCall → List (IntakeCall × List CaptureEvent)
  | [] => []
  | c :: rest => (c, (i.call c).2) :: (i.call c).1.log rest

/-- The events that some calls led to. -/
def emitted (i : Intake) (calls : List IntakeCall) : List CaptureEvent :=
  (i.log calls).flatMap Prod.snd

section

variable {i : Intake} {c : IntakeCall} {calls : List IntakeCall}

@[simp] theorem after_nil : i.after [] = i := rfl

@[simp] theorem after_cons : i.after (c :: calls) = (i.call c).1.after calls := rfl

@[simp] theorem emitted_nil : i.emitted [] = [] := rfl

@[simp] theorem emitted_cons :
    i.emitted (c :: calls) = (i.call c).2 ++ (i.call c).1.emitted calls := rfl

theorem after_append (others : List IntakeCall) :
    i.after (calls ++ others) = (i.after calls).after others := List.foldl_append

theorem emitted_append (others : List IntakeCall) :
    i.emitted (calls ++ others) = i.emitted calls ++ (i.after calls).emitted others := by
  induction calls generalizing i with
  | nil => rfl
  | cons c rest ih => simp [ih]

/-- Readings that are taken in one after another are calls. -/
theorem handleAll_eq (i : Intake) (now : Nat) (readings : List Reading) :
    i.handleAll now readings =
      (i.after (readings.map (.handle now)), i.emitted (readings.map (.handle now))) := by
  induction readings generalizing i with
  | nil => rfl
  | cons r rest ih => simp [handleAll, ih, call]

end

/-! ### Samples -/

section

variable {i : Intake} {readings : List Reading} {events : List CaptureEvent}

theorem History.call (h : i.History readings events) (c : IntakeCall) :
    (i.call c).1.History (readings ++ c.readings) (events ++ (i.call c).2) := by
  cases c with
  | handle now reading => exact h.handle now reading
  | tick now => exact (List.append_nil readings).symm ▸ h.tick now
  | flush now => exact (List.append_nil readings).symm ▸ h.flush now

theorem History.calls (h : i.History readings events) (calls : List IntakeCall) :
    (i.after calls).History (readings ++ calls.flatMap IntakeCall.readings)
      (events ++ i.emitted calls) := by
  induction calls generalizing i readings events with
  | nil => simpa using h
  | cons c rest ih =>
    have hrest := ih (h.call c)
    rwa [List.append_assoc, List.append_assoc] at hrest

end

end Intake

theorem SampleBatch.size_push (b : SampleBatch) (s : Sample) : (b.push s).size = b.size + 1 := by
  unfold push size
  cases s.kind <;> simp only [List.length_append, List.length_singleton] <;> omega

/-- The event has samples. -/
def CaptureEvent.isData : CaptureEvent → Bool
  | data _ => true
  | _ => false

/-- When samples were released last: when they were asked for, at a tick that came long enough after
the last release, or with a reading that led to samples. -/
def releasedAt (intervalMs last : Nat) : IntakeCall × List CaptureEvent → Nat
  | (.flush now, _) => now
  | (.tick now, _) => if intervalMs ≤ now - last then now else last
  | (.handle now _, events) => if events.any CaptureEvent.isData then now else last

namespace Intake

section

variable {i : Intake} {now : Nat} {b : SampleBatch}

/-- Fewer samples wait than are released at once. -/
def Bounded (i : Intake) : Prop := i.buffer.size < i.threshold

theorem bounded_fresh (threshold intervalMs now : Nat) :
    (fresh threshold intervalMs now).Bounded :=
  Nat.lt_of_lt_of_le Nat.zero_lt_one (Nat.le_max_right threshold 1)

/-- A release leads to the buffered samples, if there are any. -/
theorem data_mem_flush_iff : .data b ∈ (i.flush now).2 ↔ i.buffer.size ≠ 0 ∧ b = i.buffer := by
  unfold flush
  split <;> simp_all

/-- A reading that is no sample neither touches the samples that wait nor leads to samples. -/
theorem handle_of_ne_sample {reading : Reading} (h : ∀ s, reading ≠ .sample s) (now : Nat) :
    (i.handle now reading).1.buffer = i.buffer ∧
      (i.handle now reading).1.lastFlush = i.lastFlush ∧
      (i.handle now reading).2.any CaptureEvent.isData = false := by
  cases reading with
  | sample s => exact absurd rfl (h s)
  | fix signal =>
    refine ⟨rfl, rfl, ?_⟩
    simp only [handle]
    cases (i.fix.after signal).2 with
    | none => rfl
    | some change => cases change <;> rfl
  | location l =>
    simp only [handle]
    split <;> exact ⟨rfl, rfl, rfl⟩
  | unavailable source reason => exact ⟨rfl, rfl, rfl⟩

/-- A sample joins those that wait, and all are released if they are enough. -/
theorem handle_sample (i : Intake) (now : Nat) (s : Sample) :
    i.handle now (.sample s) =
      if i.threshold ≤ i.buffer.size + 1 then
        ({ i with buffer := i.buffer.push s } : Intake).flush now
      else ({ i with buffer := i.buffer.push s }, []) := by
  simp only [handle, SampleBatch.size_push]

/-- No call changes what an intake was made for. -/
theorem settings_call (i : Intake) (c : IntakeCall) :
    (i.call c).1.threshold = i.threshold ∧ (i.call c).1.intervalMs = i.intervalMs := by
  cases c with
  | handle now reading =>
    cases reading with
    | sample s => simp only [call, handle_sample]; split <;> exact ⟨rfl, rfl⟩
    | location l => simp only [call, handle]; split <;> exact ⟨rfl, rfl⟩
    | _ => exact ⟨rfl, rfl⟩
  | tick now => simp only [call, tick]; split <;> exact ⟨rfl, rfl⟩
  | flush now => exact ⟨rfl, rfl⟩

/-- What is released was buffered, and is not too much; what waits is not enough. -/
theorem Bounded.call (h : i.Bounded) (c : IntakeCall) :
    (i.call c).1.Bounded ∧ ∀ b, .data b ∈ (i.call c).2 → 0 < b.size ∧ b.size ≤ i.threshold := by
  have hnothing (i : Intake) (now : Nat) (hpos : 0 < i.threshold) : (i.flush now).1.Bounded := hpos
  have hpos : 0 < i.threshold := Nat.zero_lt_of_lt h
  have hwaiting : i.buffer.size < i.threshold := h
  -- A release of what waits is a batch with fewer samples than are released at once.
  have hflush (now : Nat) :
      ∀ b, .data b ∈ (i.flush now).2 → 0 < b.size ∧ b.size ≤ i.threshold := by
    intro b hb
    obtain ⟨hne, rfl⟩ := data_mem_flush_iff.mp hb
    exact ⟨Nat.pos_of_ne_zero hne, Nat.le_of_lt hwaiting⟩
  cases c with
  | handle now reading =>
    by_cases hsample : ∃ s, reading = .sample s
    · obtain ⟨s, rfl⟩ := hsample
      simp only [Intake.call, handle_sample]
      split
      · -- With one more sample there are exactly as many as are released at once.
        refine ⟨hnothing _ _ hpos, fun b hb => ?_⟩
        obtain ⟨-, rfl⟩ := data_mem_flush_iff.mp hb
        rw [SampleBatch.size_push]
        exact ⟨Nat.succ_pos _, hwaiting⟩
      · rename_i hroom
        refine ⟨?_, nofun⟩
        rw [Bounded, SampleBatch.size_push]
        exact Nat.lt_of_not_le hroom
    · obtain ⟨hbuffer, -, hnone⟩ := handle_of_ne_sample (i := i) (fun s hs => hsample ⟨s, hs⟩) now
      obtain ⟨hthreshold, -⟩ := settings_call i (.handle now reading)
      refine ⟨?_, fun b hb => ?_⟩
      · rw [Bounded, hthreshold, show ((i.call (.handle now reading)).1.buffer) = _ from hbuffer]
        exact h
      · exact absurd rfl (List.any_eq_false.mp hnone _ hb)
  | tick now =>
    simp only [Intake.call, tick]
    split
    · exact ⟨hnothing _ _ hpos, hflush now⟩
    · exact ⟨h, nofun⟩
  | flush now => exact ⟨hnothing _ _ hpos, hflush now⟩

/-- An intake knows when it released samples last. -/
theorem lastFlush_call (i : Intake) (c : IntakeCall) :
    (i.call c).1.lastFlush = releasedAt i.intervalMs i.lastFlush (c, (i.call c).2) := by
  cases c with
  | handle now reading =>
    by_cases hsample : ∃ s, reading = .sample s
    · obtain ⟨s, rfl⟩ := hsample
      simp only [call, handle_sample, releasedAt]
      split
      · have hsize : ({ i with buffer := i.buffer.push s } : Intake).buffer.size ≠ 0 := by
          rw [SampleBatch.size_push]
          exact Nat.succ_ne_zero _
        have hdata : (({ i with buffer := i.buffer.push s } : Intake).flush now).2.any
            CaptureEvent.isData = true :=
          List.any_eq_true.mpr ⟨_, data_mem_flush_iff.mpr ⟨hsize, rfl⟩, rfl⟩
        rw [if_pos hdata]
        rfl
      · rfl
    · obtain ⟨-, hlast, hnone⟩ := handle_of_ne_sample (i := i) (fun s hs => hsample ⟨s, hs⟩) now
      have hkept : releasedAt i.intervalMs i.lastFlush
          (.handle now reading, (i.handle now reading).2) = i.lastFlush :=
        if_neg (by rw [hnone]; exact Bool.false_ne_true)
      exact hlast.trans hkept.symm
  | tick now =>
    simp only [call, tick, releasedAt]
    split <;> rfl
  | flush now => rfl

end

theorem settings_after (i : Intake) (calls : List IntakeCall) :
    (i.after calls).threshold = i.threshold ∧ (i.after calls).intervalMs = i.intervalMs := by
  induction calls generalizing i with
  | nil => exact ⟨rfl, rfl⟩
  | cons c rest ih =>
    obtain ⟨hthreshold, hinterval⟩ := settings_call i c
    rw [after_cons, ← hthreshold, ← hinterval]
    exact ih (i.call c).1

theorem Bounded.calls {i : Intake} (h : i.Bounded) (calls : List IntakeCall) :
    (i.after calls).Bounded ∧
      ∀ b, .data b ∈ i.emitted calls → 0 < b.size ∧ b.size ≤ i.threshold := by
  induction calls generalizing i with
  | nil => exact ⟨h, nofun⟩
  | cons c rest ih =>
    obtain ⟨hcall, hfirst⟩ := h.call c
    obtain ⟨hrest, hothers⟩ := ih hcall
    rw [(settings_call i c).1] at hothers
    refine ⟨hrest, fun b hb => ?_⟩
    exact (List.mem_append.mp (emitted_cons ▸ hb)).elim (hfirst b) (hothers b)

theorem lastFlush_after (i : Intake) (calls : List IntakeCall) :
    (i.after calls).lastFlush = (i.log calls).foldl (releasedAt i.intervalMs) i.lastFlush := by
  induction calls generalizing i with
  | nil => rfl
  | cons c rest ih =>
    rw [after_cons, ih, log, List.foldl_cons, (settings_call i c).2, lastFlush_call]

/-- Whatever an intake is called for and at whatever times: the samples of each kind that were
released, and those that wait, are the samples that were taken in. Each release has some samples and
at most as many as are released at once, and fewer than those wait. None wait after they were asked
for, nor after a tick that comes long enough after the last release, and no other reading touches
them. -/
theorem buffered_after (threshold intervalMs start : Nat) (calls : List IntakeCall) :
    let i := (fresh threshold intervalMs start).after calls
    let log := (fresh threshold intervalMs start).log calls
    let events := (fresh threshold intervalMs start).emitted calls
    (∀ kind, events.flatMap (CaptureEvent.samples kind) ++ i.buffer.ofKind kind =
      (calls.flatMap IntakeCall.readings).flatMap (Reading.samples kind)) ∧
    (∀ b, .data b ∈ events → 0 < b.size ∧ b.size ≤ max threshold 1) ∧
    i.buffer.size < max threshold 1 ∧
    (∀ now, (i.flush now).1.buffer.size = 0) ∧
    (∀ now, intervalMs ≤ now - log.foldl (releasedAt intervalMs) start →
      (i.tick now).1.buffer.size = 0) ∧
    ∀ now reading, (∀ s, reading ≠ .sample s) →
      (i.handle now reading).1.buffer = i.buffer ∧ ∀ b, .data b ∉ (i.handle now reading).2 := by
  intro i log events
  obtain ⟨hbounded, hreleased⟩ := (bounded_fresh threshold intervalMs start).calls calls
  obtain ⟨hthreshold, hinterval⟩ := settings_after (fresh threshold intervalMs start) calls
  have hlast : i.lastFlush = log.foldl (releasedAt intervalMs) start := lastFlush_after _ calls
  refine ⟨?_, hreleased, ?_, fun now => rfl, fun now hlate => ?_, fun now reading hreading => ?_⟩
  · exact ((history_fresh threshold intervalMs start).calls calls).samples
  · rw [Bounded, hthreshold] at hbounded
    exact hbounded
  · have hinterval : i.intervalMs = intervalMs := hinterval
    rw [tick, hinterval, hlast, if_pos hlate]
    rfl
  · obtain ⟨hbuffer, -, hnone⟩ := handle_of_ne_sample (i := i) hreading now
    exact ⟨hbuffer, fun b hb => absurd rfl (List.any_eq_false.mp hnone _ hb)⟩

/-- One sample of the two that would be enough, and a tick that comes too early. -/
def halfFull : List IntakeCall :=
  [.handle 10 (.sample ⟨.rotation, .zero, .zero, .zero, 0⟩), .tick 50]

/-- The sample waits, a source that fails leaves it alone, and the next tick releases it. -/
theorem buffered_halfFull :
    ((fresh 2 100 0).after halfFull).buffer.size = 1 ∧
    (((fresh 2 100 0).after halfFull).handle 60 (.unavailable "gyroscope" "gone")).1.buffer =
      ((fresh 2 100 0).after halfFull).buffer ∧
    (((fresh 2 100 0).after halfFull).tick 100).1.buffer.size = 0 := by
  obtain ⟨-, -, -, -, hlate, hother⟩ := buffered_after 2 100 0 halfFull
  exact ⟨rfl, (hother 60 (.unavailable "gyroscope" "gone") nofun).1, hlate 100 (by decide)⟩

end Intake

/-! ### Positions -/

/-- A position is a time and the words of two coordinates. -/
theorem GeoLocation.key_eq_iff {l l' : GeoLocation} : l.key = l'.key ↔
    l.timestamp = l'.timestamp ∧ l.lat.bits = l'.lat.bits ∧ l.lon.bits = l'.lon.bits := by
  obtain ⟨time, ⟨lat⟩, ⟨lon⟩, speed, accuracy⟩ := l
  obtain ⟨time', ⟨lat'⟩, ⟨lon'⟩, speed', accuracy'⟩ := l'
  rw [key, key, PositionKey.mk.injEq, Double.mk.injEq, Double.mk.injEq]

theorem GeoLocation.key_mem_map_iff {l : GeoLocation} {locations : List GeoLocation} :
    l.key ∈ locations.map GeoLocation.key ↔ ∃ l' ∈ locations, l'.timestamp = l.timestamp ∧
      l'.lat.bits = l.lat.bits ∧ l'.lon.bits = l.lon.bits := by
  simp only [List.mem_map, key_eq_iff]

/-- No position is kept twice among the last ones. -/
theorem nodup_lately_keepUnrepeated {kept : List GeoLocation}
    (h : ((lately kept).map GeoLocation.key).Nodup) (l : GeoLocation) :
    ((lately (keepUnrepeated kept l)).map GeoLocation.key).Nodup := by
  unfold keepUnrepeated
  split
  · exact h
  · rename_i hnew
    rw [lately_concat, List.map_drop, List.map_append, List.map_singleton]
    refine List.Nodup.sublist (List.drop_sublist _ _) (List.nodup_append.mpr ⟨h, ?_, ?_⟩)
    · exact List.nodup_singleton _
    · rintro key hkey other hother rfl
      exact hnew (List.mem_singleton.mp hother ▸ hkey)

theorem nodup_lately_unrepeated (locations : List GeoLocation) :
    ((lately (unrepeated locations)).map GeoLocation.key).Nodup := by
  suffices hfold : ∀ kept : List GeoLocation, ((lately kept).map GeoLocation.key).Nodup →
      ((lately (locations.foldl keepUnrepeated kept)).map GeoLocation.key).Nodup from
    hfold [] (by rw [lately, List.drop_nil]; exact List.nodup_nil)
  induction locations with
  | nil =>
    intro kept h
    rwa [List.foldl_nil]
  | cons l rest ih =>
    intro kept h
    rw [List.foldl_cons]
    exact ih _ (nodup_lately_keepUnrepeated h l)

namespace Intake

/-- An intake that has not taken in anything yet, or nothing since it was reset. -/
inductive Renewed : Intake → Prop where
  | fresh (threshold intervalMs now : Nat) : Renewed (fresh threshold intervalMs now)
  | reset (i : Intake) : Renewed i.reset

variable {i : Intake} {kept : List GeoLocation}

theorem Renewed.holds (h : i.Renewed) : i.recent.Holds [] := by
  cases h <;> exact RecentPositions.holds_none

/-- Only locations touch the positions that are remembered, or lead to locations. -/
theorem call_of_ne_location {c : IntakeCall} (h : ∀ now l, c ≠ .handle now (.location l))
    (i : Intake) :
    (i.call c).1.recent = i.recent ∧ (i.call c).2.flatMap CaptureEvent.locations = [] := by
  have hflush (i : Intake) (now : Nat) : (i.flush now).2.flatMap CaptureEvent.locations = [] := by
    unfold flush
    split <;> rfl
  cases c with
  | handle now reading =>
    cases reading with
    | location l => exact absurd rfl (h now l)
    | sample s =>
      simp only [call, handle_sample]
      split
      · exact ⟨rfl, hflush _ now⟩
      · exact ⟨rfl, rfl⟩
    | fix signal =>
      refine ⟨rfl, ?_⟩
      simp only [call, handle]
      cases (i.fix.after signal).2 with
      | none => rfl
      | some change => cases change <;> rfl
    | unavailable source reason => exact ⟨rfl, rfl⟩
  | tick now =>
    simp only [call, tick]
    split
    · exact ⟨rfl, hflush i now⟩
    · exact ⟨rfl, rfl⟩
  | flush now => exact ⟨rfl, hflush i now⟩

/-- A location is emitted exactly if its position is not among those that are remembered. -/
theorem handle_location (h : i.recent.Holds kept) (now : Nat) (l : GeoLocation) :
    (i.handle now (.location l)).2 =
      if l.key ∈ (lately kept).map GeoLocation.key then [] else [.location l] := by
  have hcontains := h.contains_iff l
  simp only [handle, RecentPositions.remember?]
  by_cases hseen : l.key ∈ (lately kept).map GeoLocation.key
  · rw [if_pos hseen, if_pos (hcontains.mpr hseen)]
  · rw [if_neg hseen, if_neg fun hindex => hseen (hcontains.mp hindex)]

/-- A call emits the locations whose positions are not among the last ones, which are remembered. -/
theorem holds_call (h : i.recent.Holds kept) (c : IntakeCall) :
    (i.call c).1.recent.Holds (kept ++ (i.call c).2.flatMap CaptureEvent.locations) ∧
      kept ++ (i.call c).2.flatMap CaptureEvent.locations =
        (c.readings.flatMap Reading.locations).foldl keepUnrepeated kept := by
  by_cases hlocation : ∃ now l, c = .handle now (.location l)
  · obtain ⟨now, l, rfl⟩ := hlocation
    have hfold : ((IntakeCall.handle now (.location l)).readings.flatMap
        Reading.locations).foldl keepUnrepeated kept = keepUnrepeated kept l := by
      rw [IntakeCall.readings, List.flatMap_singleton, Reading.locations_location,
        List.foldl_cons, List.foldl_nil]
    rw [hfold]
    simp only [call, handle]
    rcases h.remember_cases l with ⟨hseen, hkeep⟩ | ⟨recent, hnew, hkeep, hholds⟩
    · rw [hseen, hkeep]
      simpa only [List.flatMap_nil, List.append_nil, and_true] using h
    · rw [hnew, hkeep]
      exact ⟨hholds, rfl⟩
  · obtain ⟨hrecent, hevents⟩ :=
      call_of_ne_location (fun now l hc => hlocation ⟨now, l, hc⟩) i
    have hreadings : c.readings.flatMap Reading.locations = [] := by
      cases c with
      | handle now reading =>
        cases reading with
        | location l => exact absurd ⟨now, l, rfl⟩ hlocation
        | _ => rfl
      | _ => rfl
    rw [hrecent, hevents, hreadings, List.append_nil]
    exact ⟨h, rfl⟩

theorem holds_after (h : i.recent.Holds kept) (calls : List IntakeCall) :
    (i.after calls).recent.Holds (kept ++ (i.emitted calls).flatMap CaptureEvent.locations) ∧
      kept ++ (i.emitted calls).flatMap CaptureEvent.locations =
        ((calls.flatMap IntakeCall.readings).flatMap Reading.locations).foldl
          keepUnrepeated kept := by
  induction calls generalizing i kept with
  | nil => exact ⟨(List.append_nil kept).symm ▸ h, List.append_nil kept⟩
  | cons c rest ih =>
    obtain ⟨hcall, hkept⟩ := holds_call h c
    obtain ⟨hrest, hothers⟩ := ih hcall
    rw [emitted_cons, List.flatMap_append, ← List.append_assoc]
    refine ⟨hrest, hothers.trans ?_⟩
    rw [hkept, List.flatMap_cons, List.flatMap_append, List.foldl_append]

/-- Whatever an intake is called for since it was new or reset: a location is emitted exactly if it
differs in time, latitude or longitude from each of the last 256 emitted ones. So which locations
are emitted depends on the locations alone, and no other call leads to any or touches what is
remembered, which are the positions of those 256, each once in the order and once in the index. -/
theorem Renewed.emits_iff (h : i.Renewed) (calls : List IntakeCall) :
    let j := i.after calls
    let kept := (i.emitted calls).flatMap CaptureEvent.locations
    let last := kept.drop (kept.length - 256)
    (∀ now l, (j.handle now (.location l)).2 =
      if ∃ l' ∈ last, l'.timestamp = l.timestamp ∧ l'.lat.bits = l.lat.bits ∧
        l'.lon.bits = l.lon.bits then [] else [.location l]) ∧
    kept = unrepeated ((calls.flatMap IntakeCall.readings).flatMap Reading.locations) ∧
    (∀ c, (∀ now l, c ≠ .handle now (.location l)) →
      (j.call c).1.recent = j.recent ∧ (j.call c).2.flatMap CaptureEvent.locations = []) ∧
    j.recent.order = last.map GeoLocation.key ∧
    (∀ l l' : GeoLocation, l.key = l'.key ↔
      l.timestamp = l'.timestamp ∧ l.lat.bits = l'.lat.bits ∧ l.lon.bits = l'.lon.bits) ∧
    j.recent.index.Perm j.recent.order ∧ j.recent.order.Nodup ∧ j.recent.order.length ≤ 256 := by
  intro j kept last
  obtain ⟨hholds, hkept⟩ := holds_after h.holds calls
  rw [List.nil_append, ← unrepeated] at hkept
  rw [List.nil_append] at hholds
  have horder : j.recent.order = (lately kept).map GeoLocation.key := hholds.order
  refine ⟨fun now l => ?_, hkept, fun c hc => call_of_ne_location hc j, horder,
    fun l l' => GeoLocation.key_eq_iff, hholds.index, ?_, ?_⟩
  · rw [handle_location hholds]
    exact if_congr GeoLocation.key_mem_map_iff rfl rfl
  · have hnodup := nodup_lately_unrepeated
      ((calls.flatMap IntakeCall.readings).flatMap Reading.locations)
    rw [← hkept] at hnodup
    rwa [horder]
  · rw [horder, List.length_map, length_lately]
    exact Nat.min_le_right _ _

/-- A location. -/
def north : GeoLocation := ⟨1, ⟨0x4000000000000000⟩, .zero, .zero, .zero⟩

/-- A location at the same time, but elsewhere. -/
def south : GeoLocation := ⟨1, ⟨0xC000000000000000⟩, .zero, .zero, .zero⟩

/-- An intake that has seen both, and was reset. -/
def forgetful : Intake :=
  ((fresh 1 1000 0).after [.handle 0 (.location north), .handle 0 (.location south)]).reset

/-- Both are emitted again after the reset, but once only, also where the speed differs. -/
theorem emits_once_forgetful :
    forgetful.Renewed ∧
    (forgetful.emitted [.handle 1 (.location north), .handle 2 (.location south)]).flatMap
        CaptureEvent.locations = [north, south] ∧
    ((forgetful.after [.handle 1 (.location north), .handle 2 (.location south)]).handle 3
        (.location { north with speed := ⟨0x3FF0000000000000⟩ })).2 = [] ∧
    ((forgetful.after [.handle 1 (.location north), .handle 2 (.location south)]).handle 3
        (.location { north with timestamp := 2 })).2 =
      [.location { north with timestamp := 2 }] := by
  obtain ⟨hemits, hkept, -⟩ := (Renewed.reset _ : forgetful.Renewed).emits_iff
    [.handle 1 (.location north), .handle 2 (.location south)]
  have hboth := hkept.trans (by decide : _ = [north, south])
  rw [hboth] at hemits
  exact ⟨.reset _, hboth, (hemits 3 _).trans (by decide), (hemits 3 _).trans (by decide)⟩

end Intake

end TripRecorder
