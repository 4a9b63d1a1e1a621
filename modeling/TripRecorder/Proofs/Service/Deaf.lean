import TripRecorder.Proofs.Capture.Running
import TripRecorder.Proofs.Service.Sessions

/-!
# Services that take nothing

Where there is no time between flushes, a service attaches its sensors, keeps the device awake and
answers every request as any other does. But no capture that it starts runs, so not one reading is
taken in any of its sessions.

## Main definitions

* `Recorder.Deaf` — there is no time between flushes, and no capture runs

## Main results

* `Recorder.capture_respond` — what a request does to the capture
* `Service.Run.readings_eq_nil` — no reading is taken in any run of such a service
-/

namespace TripRecorder

namespace Recorder

variable {σ : Type} {act : (c : RecorderCall) → σ → RecorderAnswer c → σ → Prop} {w w' : σ}
  {r r' : Recorder} {now : Nat}

/-- A capture is kept, given up, or started anew. -/
def CaptureTurns (r r' : Recorder) (now : Nat) : Prop :=
  r'.config = r.config ∧ (r'.capture = r.capture ∨ r'.capture = none ∨
    ∃ sources, r'.capture = some (newCapture r.config sources now))

theorem captureTurns_refl (r : Recorder) (now : Nat) : r.CaptureTurns r now := ⟨rfl, .inl rfl⟩

theorem captureTurns_stop {result : Except CaptureError StopReport}
    (h : (r.stop now).Ends act w (result, r') w') : r.CaptureTurns r' now := by
  rcases ends_stop h with ⟨-, -, rfl, -⟩ | ⟨_, _, _, _, _, _, _, -, -, -, -, -, -, -, rfl⟩
  · exact captureTurns_refl r' now
  · exact ⟨rfl, .inr (.inl rfl)⟩

/-- What a request does to the capture. -/
theorem capture_respond {request : Request} {reply : RecorderReply}
    (h : (r.respond now request).Ends act w (reply, r') w') : r.CaptureTurns r' now := by
  have hends := ends_respond h
  cases request with
  | start id =>
    obtain ⟨result, -, hstart⟩ := hends
    rcases ends_start hstart with ⟨-, -, rfl, -⟩ |
      ⟨-, attached, w₁, -, ⟨e, -, -, rfl, -⟩ | ⟨sources, w₂, told, -, -, -, -, rfl⟩⟩
    · exact captureTurns_refl r' now
    · exact ⟨rfl, .inl rfl⟩
    · exact ⟨rfl, .inr (.inr ⟨sources, rfl⟩)⟩
  | pause =>
    obtain ⟨result, -, hpause⟩ := hends
    rcases ends_pause hpause with ⟨-, -, rfl, -⟩ | ⟨id, w₁, -, hdetach, -, -⟩
    · exact captureTurns_refl r' now
    · obtain ⟨stats, rfl⟩ := ends_detach_stats hdetach
      exact ⟨rfl, .inr (.inl rfl)⟩
  | resume =>
    obtain ⟨result, -, hresume⟩ := hends
    rcases ends_resume hresume with ⟨-, -, rfl, -⟩ |
      ⟨id, attached, w₁, -, -, ⟨e, -, -, rfl, -⟩ | ⟨sources, -, -, -, rfl⟩⟩
    · exact captureTurns_refl r' now
    · exact captureTurns_refl r' now
    · exact ⟨rfl, .inr (.inr ⟨sources, rfl⟩)⟩
  | stop =>
    obtain ⟨result, -, hstop⟩ := hends
    exact captureTurns_stop hstop
  | ping =>
    obtain ⟨-, rfl, -⟩ := hends
    exact captureTurns_refl r' now
  | shutDown =>
    obtain ⟨-, hshut⟩ := hends
    rcases ends_shutDown hshut with ⟨-, rfl, -⟩ | ⟨-, result, hstop⟩
    · exact captureTurns_refl r' now
    · exact captureTurns_stop hstop

/-- There is no time between flushes, and no capture runs. -/
structure Deaf (r : Recorder) : Prop where
  interval : r.config.flushIntervalMs = 0
  ended : ∀ c, r.capture = some c → c.pump.isRunning = false

theorem deaf_fresh {config : RecorderConfig} (h : config.flushIntervalMs = 0) :
    (fresh config).Deaf := ⟨h, nofun⟩

theorem Deaf.turns (h : r.Deaf) (hr : r.CaptureTurns r' now) : r'.Deaf := by
  obtain ⟨hconfig, hcapture⟩ := hr
  refine ⟨hconfig ▸ h.interval, fun c hc => ?_⟩
  rcases hcapture with hsame | hnone | ⟨sources, hnew⟩
  · exact h.ended c (hsame ▸ hc)
  · rw [hnone] at hc
    cases hc
  · rw [hnew] at hc
    obtain rfl := Option.some.inj hc
    rw [← Bool.not_eq_true, newCapture, Pump.isRunning_start_iff]
    exact not_not_intro h.interval

/-- To handle an event leaves the pump alone. -/
theorem Deaf.handleNext (h : r.Deaf) (hends : r.handleNext.Ends act w r' w') : r'.Deaf := by
  unfold Recorder.handleNext at hends
  -- The event is taken from those that wait, and the pump is not asked.
  have hpending (events : List CaptureEvent) : (r.withPending events).Deaf := by
    refine ⟨h.interval, fun c hc => ?_⟩
    obtain ⟨before, hbefore, rfl⟩ := Option.map_eq_some_iff.mp hc
    exact h.ended before hbefore
  split at hends
  · obtain ⟨rfl, -⟩ := Procedure.ends_done_iff.mp hends
    exact h
  · rcases ends_handle hends with ⟨-, rfl, -⟩ | ⟨id, stats, -, -, rfl⟩
    · exact hpending _
    · exact ⟨h.interval, (hpending _).ended⟩

theorem Deaf.onPump (h : r.Deaf) {f : Pump → Pump × List CaptureEvent}
    (hf : ∀ p, p.isRunning = false → (f p).1.isRunning = false) : (r.onPump f).Deaf := by
  unfold Recorder.onPump
  cases hc : r.capture with
  | none => exact h
  | some c =>
    refine ⟨h.interval, fun c' hc' => ?_⟩
    obtain rfl := Option.some.inj hc'
    exact hf c.pump (h.ended c hc)

/-- Whatever the capture is made to do, it takes nothing and does not run. -/
theorem Deaf.move (h : r.Deaf) (now : Nat) (move : CaptureMove) :
    (r.move now move).Deaf ∧ r.taken move = [] := by
  cases move with
  | offer readings =>
    -- With or without a capture, there is nobody to take the readings.
    have hoffer : r.offer readings = (r, false) := by
      unfold Recorder.offer
      cases hc : r.capture with
      | none => rfl
      | some c =>
        simp only [Pump.offer_of_ended (h.ended c hc), ← hc]
    rw [Recorder.move, taken, hoffer]
    exact ⟨h, rfl⟩
  | take =>
    exact ⟨h.onPump (f := fun p => p.step now) fun p hp => by rw [Pump.isRunning_step, hp], rfl⟩
  | tick =>
    exact ⟨h.onPump (f := fun p => p.tick now) fun p hp => by rw [Pump.isRunning_tick, hp], rfl⟩
  | starve => exact ⟨h.onPump (f := fun p => p.close now) fun p _ => Pump.isRunning_close, rfl⟩

end Recorder

namespace Service

variable {s s' : Service} {happening : Happening}

theorem Step.deaf (h : Step s happening s') (hs : s.recorder.Deaf) :
    s'.recorder.Deaf ∧ happening.readings = [] := by
  cases h with
  | request request now hends => exact ⟨hs.turns (Recorder.capture_respond hends), rfl⟩
  | event hends => exact ⟨hs.handleNext hends, rfl⟩
  | capture move now => exact hs.move now move

/-- No reading is taken in any run of a service without a time between flushes. -/
theorem Run.readings_eq_nil {config : RecorderConfig} (hinterval : config.flushIntervalMs = 0)
    {store : Store} {happenings : List Happening} (h : Run (fresh config store) happenings s) :
    ∀ x ∈ happenings, x.readings = [] := by
  have hdeaf : s.recorder.Deaf ∧ ∀ x ∈ happenings, x.readings = [] := by
    induction h with
    | nil => exact ⟨Recorder.deaf_fresh hinterval, nofun⟩
    | snoc _ hstep ih =>
      obtain ⟨hs, hreadings⟩ := ih
      obtain ⟨hs', hlast⟩ := hstep.deaf hs
      refine ⟨hs', List.forall_mem_append.mpr ⟨hreadings, ?_⟩⟩
      exact List.forall_mem_singleton.mpr hlast
  exact hdeaf.2

end Service

end TripRecorder
