import Mathlib.Data.List.Count
import Mathlib.Data.List.Nodup
import TripRecorder.Capture.Attachment
import TripRecorder.Proofs.Transcript

/-!
# Attaching and detaching, answer by answer

Hardware may refuse to attach any sensor. What is attached and detached is read off the transcript
of the calls: sensors are attached in their order until one refuses, and then those before it are
detached, each once, and neither the one that refused nor any after it.

## Main definitions

* `SensorSlot` — the fix source, or a source of readings by its number
* `attempts`, `detached` — what was attached, with the answers, and what was detached

## Main results

* `follows_detachSensors` — every sensor is detached once
* `follows_attachSensors` — every sensor is attached, or those before the one that refused are
  detached once
-/

namespace TripRecorder

/-- A sensor of a capture: the fix source, or a source of readings by its number. -/
inductive SensorSlot where
  | fix
  | source (index : Nat)
deriving DecidableEq, Repr

namespace SensorSlot

/-- The sensors of a capture with some sources, in the order in which they are attached. -/
def all (sources : Nat) : List SensorSlot := fix :: (List.range sources).map source

theorem all_succ (sources : Nat) : all (sources + 1) = all sources ++ [source sources] := by
  simp [all, List.range_succ]

theorem nodup_all (sources : Nat) : (all sources).Nodup := by
  refine List.nodup_cons.mpr ⟨by simp, List.nodup_range.map fun m n h => ?_⟩
  cases h
  rfl

end SensorSlot

/-! ### What a transcript says -/

/-- What a call was to attach, and how that went. -/
def HardwareCall.attempt? : (c : HardwareCall) → HardwareAnswer c →
    Option (SensorSlot × Except CaptureError Unit)
  | .attachFix, answer => some (.fix, answer)
  | .attachSource index, answer => some (.source index, answer)
  | _, _ => none

/-- What a call detaches. -/
def HardwareCall.detached? : HardwareCall → Option SensorSlot
  | .detachFix => some .fix
  | .detachSource index => some (.source index)
  | _ => none

/-- The sensors that were to be attached, and how that went. -/
def attempts (log : List (AnsweredCall HardwareAnswer)) :
    List (SensorSlot × Except CaptureError Unit) :=
  log.filterMap fun e => e.call.attempt? e.answer

/-- The sensors that were detached, as often as that was done. -/
def detached (log : List (AnsweredCall HardwareAnswer)) : List SensorSlot :=
  log.filterMap fun e => e.call.detached?

section

variable {log log' : List (AnsweredCall HardwareAnswer)} {m n : Nat}

theorem attempts_append : attempts (log ++ log') = attempts log ++ attempts log' :=
  List.filterMap_append

theorem detached_append : detached (log ++ log') = detached log ++ detached log' :=
  List.filterMap_append

/-! ### Detaching -/

theorem follows_detachSources {indices : List Nat}
    (h : (detachSources indices).Follows log (.done ())) :
    attempts log = [] ∧ detached log = indices.map .source := by
  induction indices generalizing log with
  | nil =>
    obtain ⟨rfl, -⟩ := Procedure.follows_done_iff.mp h
    exact ⟨rfl, rfl⟩
  | cons index rest ih =>
    obtain ⟨⟨⟩, later, rfl, hrest⟩ := Procedure.follows_call_done_iff.mp h
    obtain ⟨hattempts, hdetached⟩ := ih hrest
    exact ⟨hattempts, congrArg (SensorSlot.source index :: ·) hdetached⟩

/-- The sources are detached in their order, and the fix source after them. -/
theorem follows_detachSensors (h : (detachSensors n).Follows log (.done ())) :
    attempts log = [] ∧ (detached log).Perm (SensorSlot.all n) := by
  obtain ⟨first, rest, ⟨⟩, rfl, hsources, hfix⟩ := Procedure.follows_bind_done_iff.mp h
  obtain ⟨⟨⟩, later, rfl, hdone⟩ := Procedure.follows_call_done_iff.mp hfix
  obtain ⟨rfl, -⟩ := Procedure.follows_done_iff.mp hdone
  obtain ⟨hattempts, hdetached⟩ := follows_detachSources hsources
  rw [attempts_append, detached_append, hattempts, hdetached]
  exact ⟨rfl, List.perm_append_comm⟩

/-! ### Attaching -/

/-- Some sensors are attached in their order. -/
def AttachedAll (slots : List SensorSlot) (log : List (AnsweredCall HardwareAnswer)) : Prop :=
  attempts log = slots.map (·, .ok ()) ∧ detached log = []

/-- The sensors are attached in their order until one of them fails with an error. Then those before
it, and others that were attached earlier, are detached. -/
def RolledBack (earlier slots : List SensorSlot) (e : CaptureError)
    (log : List (AnsweredCall HardwareAnswer)) : Prop :=
  ∃ before failing after, slots = before ++ failing :: after ∧
    attempts log = before.map (·, .ok ()) ++ [(failing, .error e)] ∧
    (detached log).Perm (earlier ++ before)

/-- Sources are attached one after another, those with a smaller number being attached already. -/
theorem follows_attachSources {left : Nat} {result : Except CaptureError Unit}
    (h : (attachSources m left).Follows log (.done result)) :
    (result = .ok () ∧ AttachedAll ((List.range' m left).map .source) log) ∨
    ∃ e, result = .error e ∧
      RolledBack (SensorSlot.all m) ((List.range' m left).map .source) e log := by
  induction left generalizing m log with
  | zero =>
    obtain ⟨rfl, heq⟩ := Procedure.follows_done_iff.mp h
    cases heq
    exact .inl ⟨rfl, rfl, rfl⟩
  | succ left ih =>
    obtain ⟨answer, later, rfl, hrest⟩ := Procedure.follows_call_done_iff.mp h
    rw [List.range'_succ, List.map_cons]
    cases answer with
    | error e =>
      -- This one refuses, and all that were attached before are detached.
      obtain ⟨first, rest, ⟨⟩, rfl, hdetach, hdone⟩ := Procedure.follows_bind_done_iff.mp hrest
      obtain ⟨rfl, heq⟩ := Procedure.follows_done_iff.mp hdone
      cases heq
      obtain ⟨hattempts, hdetached⟩ := follows_detachSensors hdetach
      rw [List.append_nil]
      refine .inr ⟨e, rfl, [], .source m, _, rfl, ?_, ?_⟩
      · exact congrArg ((SensorSlot.source m, Except.error e) :: ·) hattempts
      · rw [List.append_nil]
        exact hdetached
    | ok u =>
      rcases ih hrest with ⟨rfl, hattempts, hdetached⟩ |
        ⟨e, rfl, before, failing, after, hslots, hattempts, hdetached⟩
      · exact .inl ⟨rfl, congrArg ((SensorSlot.source m, Except.ok ()) :: ·) hattempts, hdetached⟩
      · refine .inr ⟨e, rfl, .source m :: before, failing, after, ?_, ?_, ?_⟩
        · rw [hslots, List.cons_append]
        · exact congrArg ((SensorSlot.source m, Except.ok ()) :: ·) hattempts
        · rw [SensorSlot.all_succ, List.append_assoc] at hdetached
          exact hdetached

/-- All that attaching can come to: every sensor is attached, or one of them refuses, and those
before it are detached. -/
theorem follows_attachSensors {result : Except CaptureError Unit}
    (h : (attachSensors n).Follows log (.done result)) :
    (result = .ok () ∧ AttachedAll (SensorSlot.all n) log) ∨
    ∃ e, result = .error e ∧ RolledBack [] (SensorSlot.all n) e log := by
  obtain ⟨answer, later, rfl, hrest⟩ := Procedure.follows_call_done_iff.mp h
  cases answer with
  | error e =>
    obtain ⟨rfl, heq⟩ := Procedure.follows_done_iff.mp hrest
    cases heq
    exact .inr ⟨e, rfl, [], .fix, _, rfl, rfl, .nil⟩
  | ok u =>
    rw [SensorSlot.all, List.range_eq_range']
    rcases follows_attachSources hrest with ⟨rfl, hattempts, hdetached⟩ |
      ⟨e, rfl, before, failing, after, hslots, hattempts, hdetached⟩
    · exact .inl ⟨rfl, congrArg ((SensorSlot.fix, Except.ok ()) :: ·) hattempts, hdetached⟩
    · refine .inr ⟨e, rfl, .fix :: before, failing, after, ?_, ?_, hdetached⟩
      · rw [hslots, List.cons_append]
      · exact congrArg ((SensorSlot.fix, Except.ok ()) :: ·) hattempts

end

end TripRecorder
