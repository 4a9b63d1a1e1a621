import TripRecorder.Proofs.Device.Users

/-!
# No point is lost

A device is a store with one recorder, any number of sync cycles, and other clients that add
measurements and points. All of them make their calls in any order, the database may fail at any of
them, and the collector answers what it likes. Whatever was written is still stored, or was in a
body that the collector accepted.

## Main definitions

* `Device`, `Device.Step`, `Device.Reachable` — devices and all that can happen to them
* `Device.Inv` — the store is sound, and every user can go on
* `Device.serveRecorder`, `Device.serveCycle` — the answers when nothing fails

## Main results

* `Device.Step.inv`, `Device.Reachable.inv` — what one step keeps, and what every run keeps
* `Device.Reachable.points_kept_or_delivered` — no point is lost
* `Device.Reachable.of_recorder_ends`, `Device.Reachable.of_cycle_ends` — one user comes to its end
  while everyone else waits
-/

namespace TripRecorder

open Shared

/-- A shared store, what its recorder is doing, and what its cycles are doing. -/
structure Device where
  shared : Shared
  recorder : Recording Recorder
  cycles : List (Procedure SyncAnswer (Except SyncError SyncReport))

namespace Device

/-- One step of a device. -/
inductive Step : Device → Device → Prop where
  /-- An idle recorder gets a request. -/
  | request {s r cycles} (request : Request) (now : Nat) :
      Step ⟨s, .done r, cycles⟩
        ⟨s, (r.respond now request).bind fun reply => .done reply.2, cycles⟩
  /-- An idle recorder turns to the oldest event of its capture. -/
  | event {s r cycles} : Step ⟨s, .done r, cycles⟩ ⟨s, r.handleNext, cycles⟩
  /-- The capture of an idle recorder makes a move. -/
  | capture {s r cycles} (move : CaptureMove) (now : Nat) :
      Step ⟨s, .done r, cycles⟩ ⟨s, .done (r.move now move), cycles⟩
  /-- A call of the recorder is answered. -/
  | recorder {s s' c next cycles answer} : Recorded c s answer s' →
      Step ⟨s, .call c next, cycles⟩ ⟨s', next answer, cycles⟩
  /-- A cycle begins. -/
  | begin {s recorder cycles} (queryLimit timeoutMs : Nat) (account : String) :
      Step ⟨s, recorder, cycles⟩ ⟨s, recorder, cycles ++ [syncCycle queryLimit timeoutMs account]⟩
  /-- A call of one of the cycles is answered. -/
  | cycle {s s' recorder before after c next answer} : Cycled c s answer s' →
      Step ⟨s, recorder, before ++ .call c next :: after⟩
        ⟨s', recorder, before ++ next answer :: after⟩
  /-- Another client adds a measurement. -/
  | create {s s' recorder cycles vehicle answer} : Calls (.create vehicle) s answer s' →
      Step ⟨s, recorder, cycles⟩ ⟨s', recorder, cycles⟩
  /-- Another client adds points, which is one call for it. -/
  | append {s s' recorder cycles batchLimit id points result} :
      (appendPoints batchLimit id points).Ends Calls s result s' →
      Step ⟨s, recorder, cycles⟩ ⟨s', recorder, cycles⟩

/-- A device whose store was just opened, before the first request. What is stored counts as
written. -/
def opened (store : Store) (config : RecorderConfig) : Device :=
  ⟨⟨store, store.ledger.toList.map fun r => (r.owner, r.point), []⟩,
    .done (Recorder.fresh config), []⟩

/-- All that can become of a device whose store was opened with no points in synced
measurements. -/
inductive Reachable : Device → Prop where
  | opened {store : Store} {config : RecorderConfig} (wellFormed : store.WellFormed)
      (synced : ∀ id, store.status id = .ok .synced → ∀ t, store.points id t = []) :
      Reachable (opened store config)
  | step {d d' : Device} : Reachable d → Step d d' → Reachable d'

/-- The store is sound, and every user can go on. -/
structure Inv (d : Device) : Prop where
  sound : d.shared.Sound
  recorder : d.recorder.Safe Recorded KeepsOpen Advances (fun _ _ => True) d.shared
  cycles : ∀ p ∈ d.cycles, p.Safe Cycled Advances AdvancesOpen (fun _ _ => True) d.shared

variable {d d' : Device}

/-- What every user but the recorder does leaves the recorder able to go on. -/
theorem Inv.of_advancesOpen {s : Shared} (h : d.Inv) (hs : d.shared.AdvancesOpen s) :
    Inv ⟨s, d.recorder, d.cycles⟩ :=
  ⟨(hs.1 h.sound).1, h.recorder.of_rely KeepsOpen.trans hs.2,
    fun p hp => (h.cycles p hp).of_rely Advances.trans hs.1⟩

/-- Every step keeps the store sound, and every user able to go on. -/
theorem Step.inv (hstep : Step d d') (h : d.Inv) : d'.Inv := by
  cases hstep with
  | @request s r cycles request now =>
    have hrespond : Harmless ((r.respond now request).bind fun reply => .done reply.2) :=
      (Recorder.harmless_respond r now request).bind fun _ => harmless_done _
    exact ⟨h.sound, hrespond s, h.cycles⟩
  | event => exact ⟨h.sound, Recorder.harmless_handleNext _ _, h.cycles⟩
  | capture move now => exact ⟨h.sound, harmless_done _ _, h.cycles⟩
  | recorder hcall =>
    obtain ⟨hadvances, hnext⟩ := h.recorder _ (KeepsOpen.refl _) _ _ hcall
    exact ⟨(hadvances h.sound).1, hnext,
      fun p hp => (h.cycles p hp).of_rely Advances.trans hadvances⟩
  | begin queryLimit timeoutMs account =>
    refine ⟨h.sound, h.recorder, fun p hp => ?_⟩
    rcases List.mem_append.mp hp with hp | hp
    · exact h.cycles p hp
    · -- A new cycle knows nothing yet, so a sound store is enough for it.
      rw [List.mem_singleton.mp hp]
      exact safe_syncCycle queryLimit timeoutMs account h.sound
  | cycle hcall =>
    -- The other cycles and the recorder may rely on what this one does.
    obtain ⟨hadvances, hnext⟩ := h.cycles _ (List.mem_append_right _ List.mem_cons_self) _
      (Advances.refl _) _ _ hcall
    have h' := h.of_advancesOpen hadvances
    refine ⟨h'.sound, h'.recorder, fun p hp => ?_⟩
    rcases List.mem_append.mp hp with hp | hp
    · exact h'.cycles p (List.mem_append_left _ hp)
    · rcases List.mem_cons.mp hp with rfl | hp
      · exact hnext
      · exact h'.cycles p (List.mem_append_right _ (List.mem_cons_of_mem _ hp))
  | create hcall => exact h.of_advancesOpen (advances_create hcall)
  | append happend =>
    exact h.of_advancesOpen (Procedure.Safe.guarantee_of_ends
      (safe_appendPoints (fun _ _ _ _ h => h) _ _ _ _) happend KeepsOpen.refl AdvancesOpen.refl
      AdvancesOpen.trans)

theorem inv_opened {store : Store} (config : RecorderConfig) (wellFormed : store.WellFormed)
    (synced : ∀ id, store.status id = .ok .synced → ∀ t, store.points id t = []) :
    (opened store config).Inv := by
  refine ⟨⟨wellFormed, fun id => .inl fun t => ?_, synced⟩, harmless_done _ _, by simp [opened]⟩
  simp [opened, writtenTo, Store.points, Store.rowsOf, List.filter_map, Function.comp_def]

theorem Reachable.inv (h : Reachable d) : d.Inv := by
  induction h with
  | opened wellFormed synced => exact inv_opened _ wellFormed synced
  | step _ hstep ih => exact hstep.inv ih

/-- No point is lost between its recording and its upload. Whatever was ever written to a
measurement is still stored, all of it and in order, or none of it is stored and all of it was in a
body for the measurement that the collector accepted. An open measurement holds all that was written
to it, and a synced one holds nothing. -/
theorem Reachable.points_kept_or_delivered (h : Reachable d) (id : MeasurementId) :
    ((∀ t, d.shared.store.points id t = d.shared.writtenTo id t) ∨
      (∀ t, d.shared.store.points id t = []) ∧
        ∃ request ∈ d.shared.accepted, request.id = id ∧ Zlib.unwrap? request.body =
          some (Transfer.image fun t => byTime (d.shared.writtenTo id t))) ∧
    (d.shared.store.status id = .ok .opened →
      ∀ t, d.shared.store.points id t = d.shared.writtenTo id t) ∧
    (d.shared.store.status id = .ok .synced → ∀ t, d.shared.store.rowsOf id t = []) := by
  have hsound := h.inv.sound
  refine ⟨?_, fun hopen => ?_, fun hsynced t => ?_⟩
  · rcases hsound.cases id with hkept | ⟨-, hpurged, hdelivered⟩
    · exact .inl hkept
    · exact .inr ⟨hpurged, hdelivered⟩
  · rcases hsound.cases id with hkept | ⟨hclosed, -, -⟩
    · exact hkept
    · rcases hclosed with hclosed | hclosed <;> · rw [hopen] at hclosed; cases hclosed
  · exact Store.points_eq_nil_iff.mp (hsound.synced id hsynced t)

/-! ### Complete runs -/

/-- A recorder can come to the end of what it is doing while everyone else waits. -/
theorem Reachable.of_recorder_ends {s s' : Shared} {p : Recording Recorder} {r : Recorder}
    {cycles : List (Procedure SyncAnswer (Except SyncError SyncReport))}
    (h : Reachable ⟨s, p, cycles⟩) (hends : p.Ends Recorded s r s') :
    Reachable ⟨s', .done r, cycles⟩ := by
  induction hends with
  | done r s => exact h
  | call hcall _ ih => exact ih (h.step (.recorder hcall))

/-- A request can be handled while everyone else waits. -/
theorem Reachable.of_respond {s s' : Shared} {r : Recorder} {result : RecorderReply × Recorder}
    {cycles : List (Procedure SyncAnswer (Except SyncError SyncReport))}
    (h : Reachable ⟨s, .done r, cycles⟩) (request : Request) (now : Nat)
    (hends : (r.respond now request).Ends Recorded s result s') :
    Reachable ⟨s', .done result.2, cycles⟩ :=
  (h.step (.request request now)).of_recorder_ends
    (Procedure.ends_bind_done_iff.mpr ⟨_, hends, rfl⟩)

/-- A cycle can come to its end while everyone else waits. -/
theorem Reachable.of_cycle_ends {s s' : Shared} {recorder : Recording Recorder}
    {p : Procedure SyncAnswer (Except SyncError SyncReport)} {result : Except SyncError SyncReport}
    (before after : List (Procedure SyncAnswer (Except SyncError SyncReport)))
    (h : Reachable ⟨s, recorder, before ++ p :: after⟩) (hends : p.Ends Cycled s result s') :
    Reachable ⟨s', recorder, before ++ .done result :: after⟩ := by
  induction hends with
  | done result s => exact h
  | call hcall _ ih => exact ih (h.step (.cycle hcall))

/-- The answer of the store, entered in the account. -/
def serveStore (c : StoreCall) (s : Shared) : StoreAnswer c × Shared :=
  let (answer, store) := s.store.serve c
  (answer, ⟨store, s.written ++ c.written answer, s.accepted⟩)

/-- The answers to a recorder when nothing fails. -/
def serveRecorder (c : RecorderCall) (s : Shared) : RecorderAnswer c × Shared :=
  match c with
  | .store c => serveStore c s
  | c => ((Logged.answer c s.store).1, s)

/-- The answers to a cycle when nothing fails and every body is accepted. -/
def serveCycle (c : SyncCall) (s : Shared) : SyncAnswer c × Shared :=
  match c with
  | .token _ _ => (.granted "token", s)
  | .preference _ => (some "value", s)
  | .store c => serveStore c s
  | .upload request => (.ok .created, { s with accepted := s.accepted ++ [request] })

theorem calls_serveStore (c : StoreCall) (s : Shared) :
    Calls c s (serveStore c s).1 (serveStore c s).2 := ⟨_, Store.answers_serve c s.store, rfl⟩

theorem recorded_serveRecorder (c : RecorderCall) (s : Shared) :
    Recorded c s (serveRecorder c s).1 (serveRecorder c s).2 := by
  cases c with
  | store c => exact calls_serveStore c s
  | _ => rfl

theorem cycled_serveCycle (c : SyncCall) (s : Shared) :
    Cycled c s (serveCycle c s).1 (serveCycle c s).2 := by
  cases c with
  | store c => exact calls_serveStore c s
  | _ => rfl

/-- A location. -/
def somewhere : GeoLocation :=
  ⟨1700000000000, ⟨0x404A800000000000⟩, ⟨0x402A000000000000⟩, ⟨0x4022000000000000⟩,
    ⟨0x4004000000000000⟩⟩

/-- A recorder stores a location. After a stop and a cycle, the location is not stored any more and
was in a body that was accepted. -/
theorem points_kept_then_delivered :
    ∃ d d', Reachable d ∧ Reachable d' ∧
      (d.shared.store.status ⟨1⟩ = .ok .opened ∧
        d.shared.writtenTo ⟨1⟩ .locations = [.location somewhere] ∧
        ∀ t, d.shared.store.points ⟨1⟩ t = d.shared.writtenTo ⟨1⟩ t) ∧
      d'.shared.store.status ⟨1⟩ = .ok .synced ∧
      d'.shared.writtenTo ⟨1⟩ .locations = [.location somewhere] ∧
      (∀ t, d'.shared.store.points ⟨1⟩ t = []) ∧
      ∃ request ∈ d'.shared.accepted, request.id = ⟨1⟩ ∧ Zlib.unwrap? request.body =
        some (Transfer.image fun t => byTime (d'.shared.writtenTo ⟨1⟩ t)) := by
  let empty : Store := Store.empty none 1 1
  have hcreated : Reachable
      ⟨⟨(empty.create .car).2, [], []⟩, .done (Recorder.fresh ⟨1, 1, 1, 1⟩), []⟩ :=
    .step (.opened (Store.wellFormed_empty none 1 1) fun _ _ _ => rfl)
      (.create (calls_serveStore (.create .car) ⟨empty, [], []⟩))
  have hstarted := hcreated.of_respond (.start ⟨1⟩) 0
    (Procedure.Ends.of_run recorded_serveRecorder _ _)
  have hoffered := (hstarted.step (.capture (.offer [.location somewhere]) 1)).step
    (.capture .take 2)
  have hrecorded := (hoffered.step .event).of_recorder_ends
    (Procedure.Ends.of_run recorded_serveRecorder _ _)
  have hstopped := hrecorded.of_respond .stop 3
    (Procedure.Ends.of_run recorded_serveRecorder _ _)
  have hsynced := (hstopped.step (.begin 1 1000 "account")).of_cycle_ends [] []
    (Procedure.Ends.of_run cycled_serveCycle _ _)
  obtain ⟨d, hd, hopen, hwritten⟩ : ∃ d, Reachable d ∧ d.shared.store.status ⟨1⟩ = .ok .opened ∧
      d.shared.writtenTo ⟨1⟩ .locations = [.location somewhere] :=
    ⟨_, hrecorded, by decide +kernel, by decide +kernel⟩
  obtain ⟨d', hd', hdone, hwritten'⟩ : ∃ d', Reachable d' ∧
      d'.shared.store.status ⟨1⟩ = .ok .synced ∧
      d'.shared.writtenTo ⟨1⟩ .locations = [.location somewhere] :=
    ⟨_, hsynced, by decide +kernel, by decide +kernel⟩
  obtain ⟨-, hkept, -⟩ := hd.points_kept_or_delivered ⟨1⟩
  obtain ⟨hcases, -, hpurged⟩ := hd'.points_kept_or_delivered ⟨1⟩
  have hempty (t : Table) : d'.shared.store.points ⟨1⟩ t = [] :=
    Store.points_eq_nil_iff.mpr (hpurged hdone t)
  refine ⟨d, d', hd, hd', ⟨hopen, hwritten, hkept hopen⟩, hdone, hwritten', hempty, ?_⟩
  rcases hcases with hstored | ⟨-, hdelivered⟩
  · -- The location was written and is not stored any more.
    have hlocation := hstored .locations
    rw [hempty, hwritten'] at hlocation
    cases hlocation
  · exact hdelivered

end Device

end TripRecorder
