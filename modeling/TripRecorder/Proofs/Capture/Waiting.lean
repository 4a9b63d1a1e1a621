import Mathlib.Data.List.Forall2
import TripRecorder.Proofs.Capture.Calls
import TripRecorder.Proofs.Capture.Moves

/-!
# How long samples wait

Ticks come once an interval, counted from the start of the capture. The last release is any time a
batch was full, so a tick may find that an interval has not passed yet, and samples that came in
before it wait for the tick after it. They wait no longer: the tick that is due next comes less than
two intervals after the last release, and no sample that waits is older than that.

## Main definitions

* `samplesIn`, `samplesOut` — the samples that arrived and those that were emitted, and when
* `InTime` — a sample is emitted as it arrived, within some time
* `Intake.Timely`, `Pump.Timely` — all samples are emitted in time, or still can be

## Main results

* `Intake.Timely.handle`, `Intake.Timely.flush`, `Pump.Timely.move`, `Pump.Timely.wait` — samples
  are in time, whatever happens and however much time passes
* `Pump.samples_inTime` — no sample waits two intervals
-/

namespace TripRecorder

/-- The samples of one kind that arrived, and when. -/
def samplesIn (kind : SampleKind) (arrived : List (Nat × Reading)) : List (Nat × Sample) :=
  arrived.flatMap fun a => (a.2.samples kind).map (a.1, ·)

/-- The samples of one kind that were emitted, and when. -/
def samplesOut (kind : SampleKind) (emitted : List (Nat × CaptureEvent)) : List (Nat × Sample) :=
  emitted.flatMap fun e => (e.2.samples kind).map (e.1, ·)

/-- A sample is emitted as it arrived, not before that and less than some time after it. -/
def InTime (span : Nat) (out arrived : Nat × Sample) : Prop :=
  out.2 = arrived.2 ∧ arrived.1 ≤ out.1 ∧ out.1 < arrived.1 + span

section

variable {kind : SampleKind}

theorem samplesIn_append (arrived others : List (Nat × Reading)) :
    samplesIn kind (arrived ++ others) = samplesIn kind arrived ++ samplesIn kind others :=
  List.flatMap_append

theorem samplesOut_append (emitted others : List (Nat × CaptureEvent)) :
    samplesOut kind (emitted ++ others) = samplesOut kind emitted ++ samplesOut kind others :=
  List.flatMap_append

theorem samplesIn_now (now : Nat) (readings : List Reading) :
    samplesIn kind (readings.map (now, ·)) =
      (readings.flatMap (Reading.samples kind)).map (now, ·) := by
  rw [samplesIn, List.flatMap_map, List.map_flatMap]

theorem samplesOut_now (now : Nat) (events : List CaptureEvent) :
    samplesOut kind (events.map (now, ·)) =
      (events.flatMap (CaptureEvent.samples kind)).map (now, ·) := by
  rw [samplesOut, List.flatMap_map, List.map_flatMap]

end

namespace Intake

variable {i : Intake} {span now later : Nat} {taken : List (Nat × Reading)}
  {emitted : List (Nat × CaptureEvent)} {kind : SampleKind}

/-- All samples that were taken in were emitted in time, or arrived after the last release and still
can be emitted in time. -/
structure Timely (i : Intake) (span now : Nat) (taken : List (Nat × Reading))
    (emitted : List (Nat × CaptureEvent)) : Prop where
  last : i.lastFlush ≤ now
  soon : now < i.lastFlush + span
  samples : ∀ kind, ∃ gone waiting, samplesIn kind taken = gone ++ waiting ∧
    List.Forall₂ (InTime span) (samplesOut kind emitted) gone ∧
    waiting.map Prod.snd = i.buffer.ofKind kind ∧ ∀ s ∈ waiting, i.lastFlush ≤ s.1 ∧ s.1 ≤ now

/-- The samples that wait would be in time if they were emitted now. -/
theorem Timely.inTime (h : i.Timely span now taken emitted) (kind : SampleKind) :
    List.Forall₂ (InTime span) (samplesOut kind emitted ++ (i.buffer.ofKind kind).map (now, ·))
      (samplesIn kind taken) := by
  obtain ⟨gone, waiting, htaken, hgone, hbuffer, htimes⟩ := h.samples kind
  rw [htaken, ← hbuffer, List.map_map]
  refine List.rel_append hgone ?_
  rw [List.forall₂_map_left_iff, List.forall₂_same]
  intro s hs
  obtain ⟨hlast, hnow⟩ := htimes s hs
  exact ⟨rfl, hnow, Nat.lt_of_lt_of_le h.soon (Nat.add_le_add_right hlast span)⟩

/-- A release is of the samples that wait. -/
theorem samples_flush (i : Intake) (now : Nat) (kind : SampleKind) :
    (i.flush now).2.flatMap (CaptureEvent.samples kind) = i.buffer.ofKind kind := by
  unfold flush
  split
  · rename_i hsize
    exact (SampleBatch.ofKind_of_size_zero hsize kind).symm
  · rw [List.flatMap_singleton, CaptureEvent.samples_data]

theorem Timely.flush (h : i.Timely span now taken emitted) :
    (i.flush now).1.Timely span now taken (emitted ++ (i.flush now).2.map (now, ·)) where
  last := Nat.le_refl now
  soon := Nat.lt_add_of_pos_right (by have := h.last; have := h.soon; omega)
  samples kind := by
    refine ⟨samplesIn kind taken, [], (List.append_nil _).symm, ?_, ?_, List.forall_mem_nil _⟩
    · rw [samplesOut_append, samplesOut_now, samples_flush]
      exact h.inTime kind
    · cases kind <;> rfl

theorem lastFlush_le_handle (h : i.lastFlush ≤ now) (r : Reading) :
    i.lastFlush ≤ (i.handle now r).1.lastFlush := by
  have hlast := lastFlush_call i (.handle now r)
  rw [call, releasedAt] at hlast
  rw [hlast]
  split
  · exact h
  · exact Nat.le_refl _

theorem Timely.tick (h : i.Timely span now taken emitted) :
    (i.tick now).1.Timely span now taken (emitted ++ (i.tick now).2.map (now, ·)) := by
  unfold Intake.tick
  split
  · exact h.flush
  · rwa [List.map_nil, List.append_nil]

/-- A sample waits from the time it arrives. -/
theorem Timely.push (h : i.Timely span now taken emitted) (s : Sample) :
    ({ i with buffer := i.buffer.push s } : Intake).Timely span now (taken ++ [(now, .sample s)])
      emitted where
  last := h.last
  soon := h.soon
  samples kind := by
    obtain ⟨gone, waiting, htaken, hgone, hbuffer, htimes⟩ := h.samples kind
    have hnew : samplesIn kind [(now, .sample s)] =
        (Reading.samples kind (.sample s)).map (now, ·) := List.flatMap_singleton ..
    refine ⟨gone, waiting ++ (Reading.samples kind (.sample s)).map (now, ·), ?_, hgone, ?_, ?_⟩
    · rw [samplesIn_append, htaken, hnew, List.append_assoc]
    · rw [List.map_append, hbuffer, List.map_map, SampleBatch.ofKind_push]
      exact congrArg (i.buffer.ofKind kind ++ ·) (List.map_id _)
    · intro s' hs'
      rcases List.mem_append.mp hs' with hs' | hs'
      · exact htimes s' hs'
      · obtain ⟨_, -, rfl⟩ := List.mem_map.mp hs'
        exact ⟨h.last, Nat.le_refl now⟩

/-- A reading that is no sample changes nothing about samples. -/
theorem Timely.handle_of_ne_sample (h : i.Timely span now taken emitted) {r : Reading}
    (hr : ∀ s, r ≠ .sample s) :
    (i.handle now r).1.Timely span now (taken ++ [(now, r)])
      (emitted ++ (i.handle now r).2.map (now, ·)) := by
  obtain ⟨hbuffer, hlast, hnone⟩ := Intake.handle_of_ne_sample (i := i) hr now
  have hin (kind : SampleKind) : samplesIn kind (taken ++ [(now, r)]) = samplesIn kind taken := by
    rw [samplesIn_append]
    cases r with
    | sample s => exact absurd rfl (hr s)
    | _ => exact List.append_nil _
  have hout (kind : SampleKind) : samplesOut kind (emitted ++ (i.handle now r).2.map (now, ·)) =
      samplesOut kind emitted := by
    -- Samples are emitted with data only.
    have hsilent : (i.handle now r).2.flatMap (CaptureEvent.samples kind) = [] := by
      refine List.flatMap_eq_nil_iff.mpr fun event hevent => ?_
      have hdata := List.any_eq_false.mp hnone event hevent
      cases event with
      | data b => exact absurd rfl hdata
      | _ => rfl
    rw [samplesOut_append, samplesOut_now, hsilent, List.map_nil, List.append_nil]
  refine ⟨hlast ▸ h.last, hlast ▸ h.soon, fun kind => ?_⟩
  rw [hin, hout, hbuffer, hlast]
  exact h.samples kind

theorem Timely.handle (h : i.Timely span now taken emitted) (r : Reading) :
    (i.handle now r).1.Timely span now (taken ++ [(now, r)])
      (emitted ++ (i.handle now r).2.map (now, ·)) := by
  by_cases hsample : ∃ s, r = .sample s
  · obtain ⟨s, rfl⟩ := hsample
    rw [handle_sample]
    split
    · exact (h.push s).flush
    · rw [List.map_nil, List.append_nil]
      exact h.push s
  · exact h.handle_of_ne_sample fun s hs => hsample ⟨s, hs⟩

theorem Timely.handleAll (h : i.Timely span now taken emitted) (readings : List Reading) :
    (i.handleAll now readings).1.Timely span now (taken ++ readings.map (now, ·))
      (emitted ++ (i.handleAll now readings).2.map (now, ·)) := by
  induction readings generalizing i taken emitted with
  | nil => simpa [Intake.handleAll] using h
  | cons r rest ih =>
    have hrest := ih (h.handle r)
    rw [List.append_assoc, List.append_assoc, ← List.map_append] at hrest
    exact hrest

/-- Time may pass as long as what waits can still be emitted in time. -/
theorem Timely.wait (h : i.Timely span now taken emitted) (hlater : now ≤ later)
    (hsoon : later < i.lastFlush + span) : i.Timely span later taken emitted where
  last := Nat.le_trans h.last hlater
  soon := hsoon
  samples kind := by
    obtain ⟨gone, waiting, htaken, hgone, hbuffer, htimes⟩ := h.samples kind
    exact ⟨gone, waiting, htaken, hgone, hbuffer,
      fun s hs => ⟨(htimes s hs).1, Nat.le_trans (htimes s hs).2 hlater⟩⟩

end Intake

namespace Pump

variable {p : Pump} {start period now later : Nat} {arrived : List (Nat × Reading)}
  {emitted : List (Nat × CaptureEvent)} {kind : SampleKind}

/-- The samples of one kind that have arrived and were not emitted, those in the queue included. -/
def waiting (p : Pump) (kind : SampleKind) : List Sample :=
  p.intake.buffer.ofKind kind ++ p.queue.flatMap (Reading.samples kind)

/-- All samples were emitted in time or still can be: while the pump runs, the next tick comes less
than two periods after the last release, and afterwards nothing waits. -/
structure Timely (p : Pump) (period now : Nat) (arrived : List (Nat × Reading))
    (emitted : List (Nat × CaptureEvent)) : Prop where
  running : ∀ t, p.ticker = some t → p.intake.intervalMs = period ∧
    t.due < p.intake.lastFlush + 2 * period ∧
    ∃ taken, arrived = taken ++ p.queue.map (now, ·) ∧
      p.intake.Timely (2 * period) now taken emitted
  ended : p.ticker = none → ∀ kind, p.waiting kind = [] ∧
    List.Forall₂ (InTime (2 * period)) (samplesOut kind emitted) (samplesIn kind arrived)

theorem Timely.of_running {t : Ticker} {taken : List (Nat × Reading)} (ht : p.ticker = some t)
    (hinterval : p.intake.intervalMs = period) (hdue : t.due < p.intake.lastFlush + 2 * period)
    (harrived : arrived = taken ++ p.queue.map (now, ·))
    (hintake : p.intake.Timely (2 * period) now taken emitted) :
    p.Timely period now arrived emitted where
  running t' ht' := by
    obtain rfl := Option.some.inj (ht.symm.trans ht')
    exact ⟨hinterval, hdue, taken, harrived, hintake⟩
  ended hnone := by
    rw [hnone] at ht
    cases ht

theorem Timely.of_ended (hnone : p.ticker = none)
    (h : ∀ kind, p.waiting kind = [] ∧
      List.Forall₂ (InTime (2 * period)) (samplesOut kind emitted) (samplesIn kind arrived)) :
    p.Timely period now arrived emitted where
  running t ht := by
    rw [hnone] at ht
    cases ht
  ended _ := h

theorem Timely.inTime (h : p.Timely period now arrived emitted) (kind : SampleKind) :
    List.Forall₂ (InTime (2 * period)) (samplesOut kind emitted ++ (p.waiting kind).map (now, ·))
      (samplesIn kind arrived) := by
  cases ht : p.ticker with
  | none =>
    obtain ⟨hnone, hall⟩ := h.ended ht kind
    rw [hnone, List.map_nil, List.append_nil]
    exact hall
  | some t =>
    obtain ⟨-, -, taken, rfl, hintake⟩ := h.running t ht
    have hspan : 0 < 2 * period := by
      have hlast := hintake.last
      have hsoon := hintake.soon
      omega
    rw [waiting, List.map_append, ← List.append_assoc, samplesIn_append, samplesIn_now]
    refine List.rel_append (hintake.inTime kind) (List.forall₂_same.mpr ?_)
    -- What is in the queue has arrived now.
    intro s hs
    obtain ⟨_, -, rfl⟩ := List.mem_map.mp hs
    exact ⟨rfl, Nat.le_refl now, Nat.lt_add_of_pos_right hspan⟩

theorem timely_start (threshold intervalMs now : Nat) :
    (Pump.start threshold intervalMs now).Timely intervalMs now [] [] := by
  have hempty (kind : SampleKind) : SampleBatch.empty.ofKind kind = [] := by cases kind <;> rfl
  cases hinterval : intervalMs with
  | zero => exact .of_ended rfl fun kind => ⟨by cases kind <;> rfl, .nil⟩
  | succ n =>
    -- The first tick is due at once, less than two intervals from now.
    have hsoon : now < now + 2 * (n + 1) := by omega
    have hnone : ([] : List (Nat × Reading)) = [] ++ ([] : List Reading).map (now, ·) := rfl
    refine .of_running (t := ⟨n + 1, now⟩) rfl rfl hsoon hnone
      ⟨Nat.le_refl now, hsoon, fun kind => ?_⟩
    exact ⟨[], [], rfl, .nil, (hempty kind).symm, List.forall_mem_nil _⟩

theorem Timely.offer (h : p.Timely period now arrived emitted) (readings : List Reading) :
    (p.offer readings).1.Timely period now
      (arrived ++ (p.accepted (.offer readings)).map (now, ·)) emitted := by
  cases ht : p.ticker with
  | none =>
    have hended : p.isRunning = false := by rw [isRunning, ht, Option.isSome_none]
    simpa [accepted, offer_of_ended hended] using h
  | some t =>
    have hrunning : p.isRunning = true := by rw [isRunning, ht, Option.isSome_some]
    obtain ⟨hinterval, hdue, taken, rfl, hintake⟩ := h.running t ht
    rw [accepted, offer_of_running hrunning]
    exact .of_running ht hinterval hdue (by simp [List.append_assoc]) hintake

theorem Timely.step (h : p.Timely period now arrived emitted) :
    (p.step now).1.Timely period now arrived (emitted ++ (p.step now).2.map (now, ·)) := by
  unfold Pump.step
  split
  · rename_i r rest hrunning hqueue
    obtain ⟨t, ht⟩ := Option.isSome_iff_exists.mp hrunning
    obtain ⟨hinterval, hdue, taken, rfl, hintake⟩ := h.running t ht
    have hsettings := Intake.settings_call p.intake (.handle now r)
    refine .of_running ht (hsettings.2.trans hinterval) ?_ ?_ (hintake.handle r)
    · -- A batch that is full is released now, which is no earlier than the release before.
      have hrelease := Intake.lastFlush_le_handle hintake.last r
      exact Nat.lt_of_lt_of_le hdue (Nat.add_le_add_right hrelease _)
    · rw [hqueue, List.map_cons, List.append_assoc, List.singleton_append]
  · simpa using h

theorem Timely.tick (h : p.Timely period now arrived emitted) (hgrid : p.OnGrid start period now) :
    (p.tick now).1.Timely period now arrived (emitted ++ (p.tick now).2.map (now, ·)) := by
  rcases tick_cases p now with hnone | ⟨t, ht, hdue, htick⟩
  · rw [hnone]
    simpa using h
  · obtain ⟨hinterval, hsoon, taken, rfl, hintake⟩ := h.running t ht
    obtain ⟨hnow, hfire⟩ := hgrid.fire ht hdue
    rw [htick, hfire]
    have hsettings := Intake.settings_call p.intake (.tick now)
    refine .of_running rfl (hsettings.2.trans hinterval) ?_ rfl hintake.tick
    -- The next tick is due one period from now. If this one releases nothing, the last release is
    -- less than a period ago.
    obtain ⟨-, hpos, -⟩ := hgrid t ht
    simp only [Intake.tick, hinterval]
    split
    · simp only [Intake.flush]
      omega
    · simp only
      omega

theorem Timely.close (h : p.Timely period now arrived emitted) :
    (p.close now).1.Timely period now arrived (emitted ++ (p.close now).2.map (now, ·)) := by
  cases ht : p.ticker with
  | none =>
    have hended : p.isRunning = false := by rw [isRunning, ht, Option.isSome_none]
    simpa [Pump.close, hended] using h
  | some t =>
    have hrunning : p.isRunning = true := by rw [isRunning, ht, Option.isSome_some]
    obtain ⟨-, -, taken, rfl, hintake⟩ := h.running t ht
    have hlast := (hintake.handleAll p.queue).flush
    rw [List.append_assoc, ← List.map_append] at hlast
    rw [Pump.close, if_pos hrunning]
    refine .of_ended rfl fun kind => ⟨by cases kind <;> rfl, ?_⟩
    -- The buffer is empty after the release, so all that arrived was emitted.
    have hempty (i : Intake) : (i.flush now).1.buffer.ofKind kind = [] := by cases kind <;> rfl
    have hall := hlast.inTime kind
    rwa [hempty, List.map_nil, List.append_nil] at hall

theorem Timely.move (h : p.Timely period now arrived emitted) (hgrid : p.OnGrid start period now)
    (m : CaptureMove) :
    (p.move now m).1.Timely period now (arrived ++ (p.accepted m).map (now, ·))
      (emitted ++ (p.move now m).2.map (now, ·)) := by
  cases m with
  | offer readings => simpa only [Pump.move, List.map_nil, List.append_nil] using h.offer readings
  | take => simpa only [Pump.move, accepted, List.map_nil, List.append_nil] using h.step
  | tick => simpa only [Pump.move, accepted, List.map_nil, List.append_nil] using h.tick hgrid
  | starve => simpa only [Pump.move, accepted, List.map_nil, List.append_nil] using h.close

/-- Time may pass while nothing is left undone. -/
theorem Timely.wait (h : p.Timely period now arrived emitted) (hwaits : p.WaitsUntil now later) :
    p.Timely period later arrived emitted := by
  rcases hwaits with rfl | ⟨hlater, hqueue, hdue⟩
  · exact h
  · refine ⟨fun t ht => ?_, h.ended⟩
    obtain ⟨hinterval, hsoon, taken, rfl, hintake⟩ := h.running t ht
    have hnone : p.queue = [] := hqueue (by rw [isRunning, ht, Option.isSome_some])
    refine ⟨hinterval, hsoon, taken, by rw [hnone]; rfl, ?_⟩
    exact hintake.wait (Nat.le_of_lt hlater) (Nat.lt_of_le_of_lt (hdue t ht) hsoon)

/-- Samples are in time after any punctual moves. -/
theorem Timely.after {moves : List (Nat × CaptureMove)} (h : p.Timely period now arrived emitted)
    (hgrid : p.OnGrid start period now) (hpunctual : p.Punctual now moves later) :
    (p.after moves).Timely period later (arrived ++ p.arrivals moves)
      (emitted ++ p.emissions moves) := by
  induction moves generalizing p now arrived emitted with
  | nil => simpa [arrivals, emissions] using h.wait hpunctual
  | cons m rest ih =>
    have hthen := ih ((h.wait hpunctual.1).move (hgrid.wait hpunctual.1) m.2)
      ((hgrid.wait hpunctual.1).move m.2) hpunctual.2
    rwa [List.append_assoc, List.append_assoc] at hthen

/-- However large a batch must be, whatever arrives, and at whatever times: ticks are due an
interval apart, counted from the start, and as long as readings are taken in when they arrive and
ticks are noticed when they are due, no sample waits two intervals. The samples of each kind that
were emitted, and those that would be if they were emitted now, are the ones that arrived, each less
than two intervals after it arrived. -/
theorem samples_inTime (threshold intervalMs start : Nat) {moves : List (Nat × CaptureMove)}
    {now : Nat} (h : (Pump.start threshold intervalMs start).Punctual start moves now) :
    let p := (Pump.start threshold intervalMs start).after moves
    let arrived := (Pump.start threshold intervalMs start).arrivals moves
    let emitted := (Pump.start threshold intervalMs start).emissions moves
    (∀ t, p.ticker = some t → now ≤ t.due ∧ ∃ k, t.due = start + k * intervalMs) ∧
    ∀ kind, List.Forall₂
      (fun out into => out.2 = into.2 ∧ into.1 ≤ out.1 ∧ out.1 < into.1 + 2 * intervalMs)
      (samplesOut kind emitted ++ (p.waiting kind).map (now, ·)) (samplesIn kind arrived) := by
  intro p arrived emitted
  have hgrid := onGrid_start threshold intervalMs start
  refine ⟨fun t ht => ?_, fun kind => ?_⟩
  · obtain ⟨-, -, hnow, hdue⟩ := hgrid.after h t ht
    exact ⟨hnow, hdue⟩
  · exact ((timely_start threshold intervalMs start).after hgrid h).inTime kind

/-- Two samples fill a batch between two ticks, and a third one comes after them. -/
def offBeat : List (Nat × CaptureMove) :=
  let sample : CaptureMove := .offer [.sample ⟨.rotation, .zero, .zero, .zero, 0⟩]
  [(0, .tick), (3, sample), (3, .take), (5, sample), (5, .take), (6, sample), (6, .take),
    (10, .tick), (20, .tick)]

/-- The tick that is due next comes too early for the third sample, which waits for more than an
interval of ten, and for less than two. -/
theorem inTime_offBeat :
    (Pump.start 2 10 0).Punctual 0 offBeat 20 ∧
    List.Forall₂ (fun out into => out.2 = into.2 ∧ into.1 ≤ out.1 ∧ out.1 < into.1 + 2 * 10)
      ([5, 5, 20].map fun now => (now, ⟨.rotation, .zero, .zero, .zero, 0⟩))
      ([3, 5, 6].map fun now => (now, (⟨.rotation, .zero, .zero, .zero, 0⟩ : Sample))) := by
  have hpunctual : (Pump.start 2 10 0).Punctual 0 offBeat 20 := by decide
  obtain ⟨-, hsamples⟩ := samples_inTime 2 10 0 hpunctual
  exact ⟨hpunctual, hsamples .rotation⟩

end Pump

end TripRecorder
