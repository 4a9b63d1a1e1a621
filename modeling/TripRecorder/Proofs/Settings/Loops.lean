import TripRecorder.Bench.Simulation
import TripRecorder.Proofs.Capture.Running
import TripRecorder.Proofs.Sync.FirstCycle

/-!
# Configurations and the loops they keep running

A loop lives from a ticker, and a ticker from a period. The periods of simulated sensors are at
least one millisecond whatever is configured. The time between flushes and the time between cycles
are taken as they are, and zero is accepted where a configuration is read. So is every number of
satellites, of which three more are reported as visible in a word of 32 bits.

## Main definitions

* `SimulationConfig.ReportsSoundly` — no report has fewer visible satellites than used ones

## Main results

* `SimulationBench.reports_run` — only reports of the configuration are kept
* `SimulationConfig.reportsSoundly_iff` — the reports are sound exactly where no sum overflows
* `AppConfig.loops_alive_iff` — the configurations that keep every loop running
-/

namespace TripRecorder

namespace SimulationBench

variable {s : SimulationSetup} {b : SimulationBench}

/-- Only reports of the configuration are kept. -/
def Reports (s : SimulationSetup) (b : SimulationBench) : Prop :=
  ∀ r ∈ b.feed, s.config.satelliteReport = some r

theorem Reports.step (h : b.Reports s) (source : SimulatedSource) (round : Nat) :
    (step s b source round).Reports s := by
  unfold SimulationBench.step
  split
  · exact h
  · intro r hr
    -- A feed that is full, and a round of the other source, leave the feed as it is.
    have hr : r ∈ report s source b.feed := hr
    unfold report at hr
    split at hr
    · rcases List.mem_append.mp hr with hr | hr
      · exact h r hr
      · exact Option.mem_toList.mp hr
    · exact h r hr

theorem Reports.rounds (h : b.Reports s) (rounds : List (SimulatedSource × Nat)) :
    (rounds.foldl (fun b r => SimulationBench.step s b r.1 r.2) b).Reports s := by
  induction rounds generalizing b with
  | nil => exact h
  | cons r rest ih => exact ih (h.step r.1 r.2)

/-- Only reports of the configuration are kept, however long the sensors are simulated. -/
theorem reports_run (s : SimulationSetup) (ms : Nat) : (run s ms).Reports s := by
  have hstart : Reports s ⟨0, Pump.start s.flushThreshold s.flushIntervalMs 0, [], [], []⟩ := nofun
  exact hstart.rounds (rounds s ms)

/-- Both sources report at once, in the order in which they are attached. -/
theorem rounds_zero (s : SimulationSetup) : rounds s 0 = [(.motion, 0), (.position, 0)] := by
  have hall : (SimulatedSource.all.flatMap fun source =>
      (List.range (0 / s.config.period source + 1)).map fun (k : Nat) => (source, k)) =
      [(.motion, 0), (.position, 0)] := by
    simp [SimulatedSource.all]
  unfold rounds
  simp only [hall]
  exact List.mergeSort_of_pairwise (by simp)

/-- A feed with some room keeps the first report. -/
theorem feed_run_zero (hroom : 0 < s.feedCapacity) :
    (run s 0).feed = s.config.satelliteReport.toList := by
  unfold run
  rw [rounds_zero]
  simp [step, report, hroom]

end SimulationBench

namespace SimulationConfig

/-- Three more satellites are reported as visible than as used, and not fewer than are used. -/
def ReportsSoundly (c : SimulationConfig) : Prop :=
  ∀ s : SimulationSetup, s.config = c → ∀ ms, ∀ r ∈ (SimulationBench.run s ms).feed,
    r.visible.toNat = r.used.toNat + 3 ∧ r.used ≤ r.visible

/-- Three more are a sum that fits a word, or are fewer. -/
theorem add_three_iff (n : UInt32) :
    ((n + 3).toNat = n.toNat + 3 ∧ n ≤ n + 3) ↔ n.toNat + 3 < UInt32.size := by
  have hadd : (n + 3).toNat = (n.toNat + 3) % UInt32.size := UInt32.toNat_add n 3
  have hlt : n.toNat < UInt32.size := n.toNat_lt
  rw [UInt32.le_iff_toNat_le, hadd]
  unfold UInt32.size at hlt ⊢
  omega

/-- The reports are sound exactly where no sum overflows. -/
theorem reportsSoundly_iff {c : SimulationConfig} :
    c.ReportsSoundly ↔ ∀ n ∈ c.satellites, n.toNat + 3 < UInt32.size := by
  constructor
  · -- The first round reports at once, into a feed that has room for one report.
    intro h n hn
    have hreport : c.satelliteReport = some ⟨n + 3, n⟩ := by
      rw [satelliteReport, Option.mem_def.mp hn]
      rfl
    have hfeed : (SimulationBench.run ⟨c, 1, 1, 1, none⟩ 0).feed = [⟨n + 3, n⟩] := by
      rw [SimulationBench.feed_run_zero Nat.one_pos, hreport]
      rfl
    exact (add_three_iff n).mp (h _ rfl 0 _ (hfeed ▸ List.mem_singleton_self _))
  · rintro h s rfl ms r hr
    obtain ⟨n, hn, rfl⟩ := Option.map_eq_some_iff.mp (SimulationBench.reports_run s ms r hr)
    exact (add_three_iff n).mpr (h n hn)

/-- Sensors with so many satellites that three more do not fit a word. -/
def crowded : SimulationConfig :=
  { SimulationConfig.standard with satellites := some 4294967295 }

end SimulationConfig

/-! ### Loops -/

/-- The loops that a configuration keeps running.

A capture that was started runs, and takes everything that comes in through an attached sink, until
it is closed or its sinks vanish, exactly if there is a time between flushes. A scheduler starts its
first cycle at once exactly if there is a time between cycles. Simulated sensors always tick, and
what they report of satellites is sound exactly if three more of them can be counted. -/
theorem AppConfig.loops_alive_iff (app : AppConfig) (simulation : SimulationConfig) :
    (app.capture.RunsOn ↔ app.capture.flushIntervalMs ≠ 0) ∧
      (app.sync.CyclesAtOnce ↔ app.sync.cycleIntervalSecs ≠ 0) ∧
      (∀ source now, (Ticker.start? (simulation.period source) now).isSome = true) ∧
      (simulation.ReportsSoundly ↔ ∀ n ∈ simulation.satellites, n.toNat + 3 < UInt32.size) := by
  refine ⟨CaptureConfig.runsOn_iff, SyncConfig.cyclesAtOnce_iff, fun source now => ?_,
    SimulationConfig.reportsSoundly_iff⟩
  -- Both periods are the greater of what is configured and one.
  rw [Ticker.isSome_start?_iff]
  cases source <;> simp only [SimulationConfig.period] <;> omega

namespace AppConfig

/-- A configuration that leaves no time between flushes, and none between cycles. -/
def hasty : AppConfig where
  capture := { CaptureConfig.standard with flushIntervalMs := 0 }
  storage := .standard
  sync := { SyncConfig.standard with cycleIntervalSecs := 0 }

/-- The text of such a configuration. -/
def hastyText : String :=
  "\x7b\"capture\": \x7b\"flush_interval_ms\": 0\x7d, " ++
    "\"sync\": \x7b\"cycle_interval_secs\": 0\x7d\x7d"

/-- Both configurations are read without complaint, and the sensors are attached. The capture does
not run and refuses a location, the scheduler starts no cycle, not at a trigger either, and the
report has two visible satellites of more than four thousand million used ones. -/
theorem hasty_loops_dead :
    (load (.text hastyText)).toOption = some hasty ∧
      (∃ b, CaptureBench.start hasty.capture (.fresh 1 false .works) = .ok b ∧
        b.sensors.sinks.lookup 0 = some b.sensors.attachment ∧ b.pump.isRunning = false ∧
        (b.step false (.inject 0 [.readings [.location ⟨1001, ⟨0⟩, ⟨0⟩, ⟨0⟩, ⟨0⟩⟩]])).2.count =
          some ⟨0, 1⟩) ∧
      (hasty.sync.scheduled .bare none "alice").settle.cyclesStarted = 0 ∧
      ((hasty.sync.scheduled .bare none "alice").after
        [.trigger 1, .pass 1000]).cyclesStarted = 0 ∧
      Json.read? SimulationConfig "\x7b\"satellites\": 4294967295\x7d" =
        some SimulationConfig.crowded ∧
      (SimulationBench.run ⟨.crowded, 1, 1, 1, none⟩ 0).feed = [⟨2, 4294967295⟩] := by
  obtain ⟨hsettled, hafter⟩ := SyncConfig.cyclesStarted_of_no_interval
    (show hasty.sync.cycleIntervalSecs = 0 from rfl) .bare none "alice"
  refine ⟨by decide +kernel, ⟨_, rfl, rfl, rfl, rfl⟩, hsettled, hafter _, by decide +kernel, ?_⟩
  rw [SimulationBench.feed_run_zero Nat.one_pos]
  rfl

end AppConfig

end TripRecorder
