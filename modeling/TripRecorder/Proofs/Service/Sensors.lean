import TripRecorder.Proofs.Service.Run

/-!
# Attached sensors

Sensors are provided anew for every start and every resume, and are then attached one after another.
If one of them refuses, those before it are detached again. Which sensors are attached is read off
the answers of the hardware.

## Main definitions

* `Sensor`, `Sensors` — a sensor by its provision, and the sensors that are attached
* `sensors` — the sensors after some calls
* `failures` — the errors of the calls with which sensors are attached

## Main results

* `Recorder.moves_attachTo` — all that attaching can come to: all sensors, or none
* `Recorder.moves_detach` — no sensor is left when a capture is detached
-/

namespace TripRecorder

/-- A sensor: the fix source, or one of the sources that were provided with it. -/
inductive Sensor where
  | fix (provision : Nat)
  | source (provision index : Nat)
deriving DecidableEq, Repr

namespace Sensor

/-- The sensors of a provision with some sources, in the order in which they are attached. -/
def all (provision sources : Nat) : List Sensor :=
  fix provision :: (List.range sources).map (source provision)

theorem all_succ (provision sources : Nat) :
    all provision (sources + 1) = all provision sources ++ [source provision sources] := by
  rw [all, all, List.range_succ, List.map_append, List.map_singleton, List.cons_append]

end Sensor

/-- Sensors that were provided and attached. -/
structure Sensors where
  /-- So often sensors were provided. -/
  provisions : Nat
  /-- So many sources were provided the last time. -/
  sources : Nat
  /-- In the order in which they were attached. -/
  attached : List Sensor
deriving DecidableEq, Repr

namespace Sensors

/-- Nothing was provided yet. -/
def none : Sensors := ⟨0, 0, []⟩

/-- The sensors after an answer of the hardware. A refusal changes nothing. -/
def afterHardware (s : Sensors) : (c : HardwareCall) → HardwareAnswer c → Sensors
  | .provideFix, .ok () => { s with provisions := s.provisions + 1 }
  | .provideSources, .ok sources => { s with sources := sources }
  | .attachFix, .ok () => { s with attached := s.attached ++ [.fix s.provisions] }
  | .attachSource index, .ok () => { s with attached := s.attached ++ [.source s.provisions index] }
  | .detachFix, () => { s with attached := s.attached.filter (· ≠ .fix s.provisions) }
  | .detachSource index, () =>
    { s with attached := s.attached.filter (· ≠ .source s.provisions index) }
  | _, _ => s

/-- The sensors after a call. -/
def after (s : Sensors) : LoggedCall → Sensors
  | ⟨.hardware c, answer⟩ => s.afterHardware c answer
  | _ => s

end Sensors

/-- The sensors after some calls. -/
def sensors (calls : List LoggedCall) : Sensors := calls.foldl Sensors.after Sensors.none

/-- The error with which the hardware refuses. -/
def HardwareCall.refusal? : (c : HardwareCall) → HardwareAnswer c → Option CaptureError
  | .provideFix, .error e => some e
  | .provideSources, .error e => some e
  | .attachFix, .error e => some e
  | .attachSource _, .error e => some e
  | _, _ => none

/-- The error for which sensors are not attached: that of the hardware, or the failure of a database
that was to say whether a measurement is open. -/
def LoggedCall.failure? : LoggedCall → Option CaptureError
  | ⟨.hardware c, answer⟩ => c.refusal? answer
  | ⟨.store (.load _), .error (.database detail)⟩ =>
    some (.setup (StoreError.database detail).message)
  | _ => none

/-- The errors for which sensors were not attached. -/
def failures (calls : List LoggedCall) : List CaptureError :=
  calls.filterMap LoggedCall.failure?

namespace Logged

variable {w w' w'' : Logged} {s s' s'' : Sensors} {errors errors' : List CaptureError}

/-- Some calls moved the sensors from one state to another, with some failures. -/
def Moves (s s' : Sensors) (errors : List CaptureError) (w w' : Logged) : Prop :=
  ∃ calls, w'.calls = w.calls ++ calls ∧ calls.foldl Sensors.after s = s' ∧
    failures calls = errors

theorem moves_refl (s : Sensors) (w : Logged) : Moves s s [] w w :=
  ⟨[], (List.append_nil _).symm, rfl, rfl⟩

theorem Moves.trans (h : Moves s s' errors w w') (h' : Moves s' s'' errors' w' w'') :
    Moves s s'' (errors ++ errors') w w'' := by
  obtain ⟨calls, hcalls, hsensors, hfailures⟩ := h
  obtain ⟨calls', hcalls', hsensors', hfailures'⟩ := h'
  refine ⟨calls ++ calls', ?_, ?_, ?_⟩
  · rw [hcalls', hcalls, List.append_assoc]
  · rw [List.foldl_append, hsensors, hsensors']
  · rw [failures, List.filterMap_append, ← failures, ← failures, hfailures, hfailures']

theorem moves_call {c : RecorderCall} {answer : RecorderAnswer c} (h : Acts c w answer w')
    (s : Sensors) :
    Moves s (s.after ⟨c, answer⟩) (failures [⟨c, answer⟩]) w w' :=
  ⟨[⟨c, answer⟩], h.2, rfl, rfl⟩

theorem Moves.sensors_eq (h : Moves s s' errors w w') (hs : sensors w.calls = s) :
    sensors w'.calls = s' := by
  obtain ⟨calls, hcalls, hsensors, -⟩ := h
  rw [sensors, hcalls, List.foldl_append, ← sensors, hs, hsensors]

/-- Calls that leave the sensors alone and do not fail. -/
theorem moves_of_asks {kind : RecorderCall → Prop} {α : Type} {p : Recording α} {a : α}
    (h : p.Ends Acts w a w') (hp : p.Asks kind)
    (hkind : ∀ c answer, kind c → (LoggedCall.mk c answer).failure? = none ∧
      ∀ s, Sensors.after s ⟨c, answer⟩ = s) (s : Sensors) : Moves s s [] w w' := by
  refine h.of_asks hp (moves_refl s) Moves.trans fun c w answer w' hc hcall => ?_
  obtain ⟨hnone, hsame⟩ := hkind c answer hc
  have hmoves := moves_call hcall s
  rwa [hsame, failures, List.filterMap_cons_none hnone, List.filterMap_nil] at hmoves

end Logged

namespace Recorder

open Logged

variable {r r' : Recorder} {id : MeasurementId} {w w' : Logged} {now : Nat} {k n m : Nat}

/-- A call of the hardware is made through a recorder. -/
def HardwareActs (c : HardwareCall) (w : Logged) (answer : HardwareAnswer c) (w' : Logged) : Prop :=
  Acts (.hardware c) w answer w'

theorem ends_onHardware {α : Type} {p : Procedure HardwareAnswer α} {a : α}
    (h : (onHardware p).Ends Acts w a w') : p.Ends HardwareActs w a w' := by
  refine (Procedure.ends_mapCalls_iff.mp h).mono ?_
  rintro c w answer w' ⟨_, hact, rfl⟩
  exact hact

/-! ### Detaching -/

theorem moves_detachSources {indices : List Nat} (attached : List Sensor)
    (h : (detachSources indices).Ends HardwareActs w () w') :
    Moves ⟨k, n, attached⟩
      ⟨k, n, attached.filter fun sensor => ∀ i ∈ indices, sensor ≠ .source k i⟩ [] w w' := by
  induction indices generalizing w attached with
  | nil =>
    obtain ⟨-, rfl⟩ := Procedure.ends_done_iff.mp h
    have hall : (attached.filter fun sensor => ∀ i ∈ ([] : List Nat), sensor ≠ .source k i) =
        attached := List.filter_eq_self.mpr fun _ _ => by simp
    rw [hall]
    exact moves_refl _ w'
  | cons index rest ih =>
    obtain ⟨⟨⟩, middle, hcall, hrest⟩ := Procedure.ends_call_iff.mp h
    have hmoves := (moves_call hcall ⟨k, n, attached⟩).trans (ih _ hrest)
    have hfilter : ((attached.filter (· ≠ .source k index)).filter fun sensor =>
        ∀ i ∈ rest, sensor ≠ .source k i) =
        attached.filter fun sensor => ∀ i ∈ index :: rest, sensor ≠ .source k i := by
      rw [List.filter_filter]
      refine List.filter_congr fun sensor _ => ?_
      simp [Bool.and_comm]
    rw [← hfilter]
    exact hmoves

/-- When the sensors that were attached so far are detached, none is left. -/
theorem moves_detachSensors (h : (detachSensors m).Ends HardwareActs w () w') :
    Moves ⟨k, n, Sensor.all k m⟩ ⟨k, n, []⟩ [] w w' := by
  obtain ⟨⟨⟩, middle, hsources, hfix⟩ := Procedure.ends_bind_iff.mp h
  obtain ⟨⟨⟩, last, hcall, hdone⟩ := Procedure.ends_call_iff.mp hfix
  obtain ⟨-, rfl⟩ := Procedure.ends_done_iff.mp hdone
  have hmoves := (moves_detachSources (k := k) (n := n) (Sensor.all k m) hsources).trans
    (moves_call hcall _)
  have hnone : ((Sensor.all k m).filter fun sensor =>
      ∀ i ∈ List.range m, sensor ≠ .source k i).filter (· ≠ .fix k) = [] := by
    simp [Sensor.all]
  rw [← hnone]
  exact hmoves

/-! ### Attaching -/

/-- Sources are attached one after another. If one refuses, none of the sensors is left. -/
theorem moves_attachSources {left : Nat} {result : Except CaptureError Unit}
    (h : (attachSources m left).Ends HardwareActs w result w') :
    (result = .ok () ∧ Moves ⟨k, n, Sensor.all k m⟩ ⟨k, n, Sensor.all k (m + left)⟩ [] w w') ∨
    ∃ e, result = .error e ∧ Moves ⟨k, n, Sensor.all k m⟩ ⟨k, n, []⟩ [e] w w' := by
  induction left generalizing m w with
  | zero =>
    obtain ⟨rfl, rfl⟩ := Procedure.ends_done_iff.mp h
    exact .inl ⟨rfl, moves_refl _ w'⟩
  | succ left ih =>
    obtain ⟨answer, middle, hcall, hrest⟩ := Procedure.ends_call_iff.mp h
    have hmoves := moves_call hcall ⟨k, n, Sensor.all k m⟩
    cases answer with
    | error e =>
      -- All that were attached before are detached again.
      obtain ⟨⟨⟩, last, hdetach, hdone⟩ := Procedure.ends_bind_iff.mp hrest
      obtain ⟨rfl, rfl⟩ := Procedure.ends_done_iff.mp hdone
      exact .inr ⟨e, rfl, hmoves.trans (moves_detachSensors hdetach)⟩
    | ok u =>
      -- The sources so far are the first `m`, and the next one is attached after them.
      have hattached : Moves ⟨k, n, Sensor.all k m⟩ ⟨k, n, Sensor.all k (m + 1)⟩ [] w middle := by
        rw [Sensor.all_succ]
        exact hmoves
      rw [Nat.add_comm left, ← Nat.add_assoc]
      rcases ih hrest with ⟨rfl, hothers⟩ | ⟨e, rfl, hothers⟩
      · exact .inl ⟨rfl, hattached.trans hothers⟩
      · exact .inr ⟨e, rfl, hattached.trans hothers⟩

theorem moves_attachSensors {result : Except CaptureError Unit}
    (h : (attachSensors m).Ends HardwareActs w result w') :
    (result = .ok () ∧ Moves ⟨k, n, []⟩ ⟨k, n, Sensor.all k m⟩ [] w w') ∨
    ∃ e, result = .error e ∧ Moves ⟨k, n, []⟩ ⟨k, n, []⟩ [e] w w' := by
  obtain ⟨answer, middle, hcall, hrest⟩ := Procedure.ends_call_iff.mp h
  have hmoves := moves_call hcall ⟨k, n, []⟩
  cases answer with
  | error e =>
    obtain ⟨rfl, rfl⟩ := Procedure.ends_done_iff.mp hrest
    exact .inr ⟨e, rfl, hmoves⟩
  | ok u =>
    have hfix : Moves ⟨k, n, []⟩ ⟨k, n, Sensor.all k 0⟩ [] w middle := hmoves
    rcases moves_attachSources hrest with ⟨rfl, hothers⟩ | ⟨e, rfl, hothers⟩
    · rw [Nat.zero_add] at hothers
      exact .inl ⟨rfl, hfix.trans hothers⟩
    · exact .inr ⟨e, rfl, hfix.trans hothers⟩

/-- Sensors are provided and attached, all of them or none. -/
theorem moves_attach {result : Except CaptureError Nat}
    (h : attach.run.Ends Acts w result w') :
    (∃ m, result = .ok m ∧ Moves ⟨k, n, []⟩ ⟨k + 1, m, Sensor.all (k + 1) m⟩ [] w w') ∨
    ∃ e s, result = .error e ∧ s.attached = [] ∧ Moves ⟨k, n, []⟩ s [e] w w' := by
  obtain ⟨fix, w₁, hfix, hrest⟩ := Procedure.ends_call_iff.mp h
  have hfixed := moves_call hfix ⟨k, n, []⟩
  cases fix with
  | error e =>
    obtain ⟨rfl, rfl⟩ := Procedure.ends_done_iff.mp hrest
    exact .inr ⟨e, ⟨k, n, []⟩, rfl, rfl, hfixed⟩
  | ok u =>
    obtain ⟨sources, w₂, hsources, hrest⟩ := Procedure.ends_call_iff.mp hrest
    have hprovided := hfixed.trans (moves_call hsources ⟨k + 1, n, []⟩)
    cases sources with
    | error e =>
      obtain ⟨rfl, rfl⟩ := Procedure.ends_done_iff.mp hrest
      exact .inr ⟨e, ⟨k + 1, n, []⟩, rfl, rfl, hprovided⟩
    | ok m =>
      obtain ⟨attached, w₃, hattach, hdone⟩ := Procedure.ends_bind_iff.mp hrest
      rcases moves_attachSensors (ends_onHardware hattach) with ⟨rfl, hall⟩ | ⟨e, rfl, hnone⟩
      · obtain ⟨rfl, rfl⟩ := Procedure.ends_done_iff.mp hdone
        exact .inl ⟨m, rfl, hprovided.trans hall⟩
      · obtain ⟨rfl, rfl⟩ := Procedure.ends_done_iff.mp hdone
        exact .inr ⟨e, ⟨k + 1, m, []⟩, rfl, rfl, hprovided.trans hnone⟩

/-- All that looking for an open measurement can come to. -/
theorem moves_ensureOpen {result : Except CaptureError Unit} (s : Sensors)
    (h : (ensureOpen id).run.Ends Acts w result w') :
    (w.store.status id = .ok .opened ∧ result = .ok () ∧ Moves s s [] w w') ∨
    ∃ detail, result = .error (.setup detail) ∧
      ((w.store.status id ≠ .ok .opened ∧ ∃ errors, Moves s s errors w w') ∨
        Moves s s [.setup detail] w w') := by
  obtain ⟨answer, middle, hcall, hrest⟩ := Procedure.ends_call_iff.mp h
  have hmoves := moves_call hcall s
  rcases hcall.1 with ⟨hserved, -⟩ | ⟨detail, rfl, -⟩
  · have hstatus : w.store.status id = answer.map fun m => m.status := congrArg _ hserved.symm
    cases answer with
    | error e =>
      obtain ⟨rfl, rfl⟩ := Procedure.ends_done_iff.mp hrest
      exact .inr ⟨e.message, rfl, .inl ⟨by rw [hstatus]; exact nofun, _, hmoves⟩⟩
    | ok m =>
      simp only at hrest
      split at hrest
      · rename_i hopen
        obtain ⟨rfl, rfl⟩ := Procedure.ends_done_iff.mp hrest
        exact .inl ⟨hstatus.trans (congrArg Except.ok hopen), rfl, hmoves⟩
      · rename_i hopen
        obtain ⟨rfl, rfl⟩ := Procedure.ends_done_iff.mp hrest
        refine .inr ⟨_, rfl, .inl ⟨fun heq => hopen ?_, _, hmoves⟩⟩
        exact Except.ok.inj (hstatus.symm.trans heq)
  · -- The database does not say whether the measurement is open.
    obtain ⟨rfl, rfl⟩ := Procedure.ends_done_iff.mp hrest
    exact .inr ⟨_, rfl, .inr hmoves⟩

/-- All that attaching can come to. If the measurement is open, there is one failure and no sensor
is attached, or there is none and all sensors are. -/
theorem moves_attachTo {attached : Except CaptureError Nat}
    (h : (attachTo id).run.Ends Acts w attached w') :
    (∃ m, w.store.status id = .ok .opened ∧ attached = .ok m ∧
      Moves ⟨k, n, []⟩ ⟨k + 1, m, Sensor.all (k + 1) m⟩ [] w w') ∨
    ∃ e s errors, attached = .error e ∧ s.attached = [] ∧ Moves ⟨k, n, []⟩ s errors w w' ∧
      (w.store.status id ≠ .ok .opened → ∃ detail, e = .setup detail) ∧
      (w.store.status id = .ok .opened → errors = [e]) := by
  rw [attachTo, Procedure.run_bind_except] at h
  obtain ⟨result, middle, hopen, hrest⟩ := Procedure.ends_bind_iff.mp h
  rcases moves_ensureOpen ⟨k, n, []⟩ hopen with ⟨hstatus, rfl, hfirst⟩ |
    ⟨detail, rfl, ⟨hstatus, errors, hfirst⟩ | hfirst⟩
  · rcases moves_attach hrest with ⟨m, rfl, hsecond⟩ | ⟨e, s, rfl, hs, hsecond⟩
    · exact .inl ⟨m, hstatus, rfl, hfirst.trans hsecond⟩
    · exact .inr ⟨e, s, [e], rfl, hs, hfirst.trans hsecond, fun hnot => absurd hstatus hnot,
        fun _ => rfl⟩
  · obtain ⟨rfl, rfl⟩ := Procedure.ends_done_iff.mp hrest
    exact .inr ⟨_, _, errors, rfl, rfl, hfirst, fun _ => ⟨detail, rfl⟩,
      fun hopen => absurd hopen hstatus⟩
  · obtain ⟨rfl, rfl⟩ := Procedure.ends_done_iff.mp hrest
    exact .inr ⟨_, _, _, rfl, rfl, hfirst, fun _ => ⟨detail, rfl⟩, fun _ => rfl⟩

/-- Attaching does not change the store. -/
theorem store_attachTo {attached : Except CaptureError Nat}
    (h : (attachTo id).run.Ends Acts w attached w') : w'.store = w.store := by
  have hkeeps : ∀ c w answer w', RecorderCall.Attaching c → Acts c w answer w' →
      w'.store = w.store := by
    intro c w answer w' hc hcall
    cases c with
    | store c =>
      cases c with
      | load i => exact Store.Answers.of_reads (c := .load i) trivial hcall.1
      | _ => exact hc.elim
    | hardware c => exact hcall.1
    | _ => exact hc.elim
  refine h.of_asks (asks_attachTo id) ?_ ?_ hkeeps
  · exact fun _ => rfl
  · exact fun hfirst hsecond => hsecond.trans hfirst

/-! ### Detaching a capture -/

/-- Handling events leaves the sensors alone. -/
theorem moves_noting {α : Type} {p : Recording α} {a : α} (h : p.Ends Acts w a w')
    (hp : p.Asks RecorderCall.Noting) (s : Sensors) : Moves s s [] w w' := by
  refine moves_of_asks h hp (fun c answer hc => ?_) s
  cases c with
  | store c =>
    cases c with
    | status i => exact ⟨rfl, fun _ => rfl⟩
    | insert i points => exact ⟨rfl, fun _ => rfl⟩
    | _ => exact hc.elim
  | deliver message => exact ⟨rfl, fun _ => rfl⟩
  | _ => exact hc.elim

/-- No sensor is left when a capture is detached. -/
theorem moves_detach {c : HeldCapture} (hc : r.capture = some c)
    (h : (r.detach now).Ends Acts w r' w') :
    Moves ⟨k, n, Sensor.all k c.sources⟩ ⟨k, n, []⟩ [] w w' := by
  rcases ends_detach h with ⟨hnone, -, -⟩ | ⟨c', w₁, hc', hhardware, hevents⟩
  · rw [hc] at hnone
    cases hnone
  · obtain rfl := Option.some.inj (hc.symm.trans hc')
    exact (moves_detachSensors (ends_onHardware hhardware)).trans
      (moves_noting hevents (asks_handleAll _ _) _)

end Recorder

end TripRecorder
