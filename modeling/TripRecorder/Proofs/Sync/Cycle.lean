import TripRecorder.Proofs.Sync.Settled
import TripRecorder.Proofs.Transfer.Serializer
import TripRecorder.Proofs.Transfer.Zlib
import TripRecorder.Sync.Cycle

/-!
# What a cycle does

While nobody else uses the store and the database does not fail, everything a cycle does is
determined by what the store holds and by the answers of the collector. Missing access ends it
before it does anything. Otherwise it hands over the finished measurements in order, until one is
not accepted.

## Main definitions

* `Surroundings` — credentials, preferences and collector of a cycle
* `Handover` — a request and the answer of the collector
* `CycleEffect` — all that a cycle with access has done

## Main results

* `run_syncMeasurement` — one measurement is handed over
* `run_syncAll` — measurements are handed over until one fails
* `run_syncCycle` — what a cycle does
-/

namespace TripRecorder

/-- A request and the answer of the collector. -/
structure Handover where
  request : UploadRequest
  answer : Except SyncError Outcome

/-- Where a cycle runs. The collector answers as it likes, also by what it was sent before. -/
structure Surroundings where
  token : String → Nat → TokenAnswer
  preference : String → Option String
  collector : List Handover → UploadRequest → Except SyncError Outcome

/-- The store and what was handed over so far. -/
structure SyncState where
  store : Store
  handovers : List Handover

namespace Surroundings

/-- The answers to the calls of a cycle. -/
def serve (env : Surroundings) : (c : SyncCall) → SyncState → SyncAnswer c × SyncState
  | .token account timeoutMs, s => (env.token account timeoutMs, s)
  | .preference key, s => (env.preference key, s)
  | .store c, s => ((s.store.serve c).1, { s with store := (s.store.serve c).2 })
  | .upload request, s =>
    (env.collector s.handovers request,
      { s with handovers := s.handovers ++ [⟨request, env.collector s.handovers request⟩] })

/-- All answers are those of the collector to what it was sent before. -/
def Answered (env : Surroundings) (handovers : List Handover) : Prop :=
  ∀ i (h : i < handovers.length),
    handovers[i].answer = env.collector (handovers.take i) handovers[i].request

theorem Answered.append {env : Surroundings} {handovers : List Handover}
    (h : env.Answered handovers) (request : UploadRequest) :
    env.Answered (handovers ++ [⟨request, env.collector handovers request⟩]) := by
  intro i hi
  by_cases hlt : i < handovers.length
  · rw [List.getElem_append_left hlt, List.take_append_of_le_length (Nat.le_of_lt hlt)]
    exact h i hlt
  · have heq : i = handovers.length := by
      rw [List.length_append, List.length_singleton] at hi
      omega
    subst heq
    simp

/-- Calls of the store see the store only. -/
theorem run_onStore {α : Type} (env : Surroundings) (p : Procedure StoreAnswer α) (s : SyncState) :
    (onStore p).run env.serve s =
      ((p.run Store.serve s.store).1, { s with store := (p.run Store.serve s.store).2 }) := by
  induction p generalizing s with
  | done a => rfl
  | call c next ih => exact ih _ _

end Surroundings

/-- The request for a measurement. -/
def SyncAccess.request (access : SyncAccess) (s : Store) (id : MeasurementId) : UploadRequest :=
  ⟨access.endpoint, access.token, access.device, id,
    Zlib.wrap (Transfer.image (s.pointsByTime id))⟩

/-- The counts of all tables fit. -/
def Store.Countable (s : Store) : Prop :=
  ∀ id t, (s.rowsOf id t).length < Transfer.countBound

namespace Store

variable {s : Store}

theorem Faultless.readableOf (h : s.Faultless) (id : MeasurementId) : s.Readable id :=
  fun _ r hr => h.readable r (mem_rowsOf_iff.mp hr).1

theorem Countable.settled (h : s.Countable) (ids : List MeasurementId) :
    (s.settled ids).Countable := by
  intro id t
  rw [rowsOf_settled]
  split
  · decide
  · exact h id t

theorem serialized_eq (hwell : s.WellFormed) (hfault : s.Faultless) (hcount : s.Countable)
    (pageSize : Nat) (id : MeasurementId) :
    s.serialized pageSize id = .ok (Transfer.image (s.pointsByTime id)) := by
  rw [serialized, run_serialize hwell.queryLimit_pos (hfault.readableOf id) (hcount id)]

end Store

section Cycle

variable (env : Surroundings) (access : SyncAccess)

theorem run_askToken (account : String) (timeoutMs : Nat) (st : SyncState) :
    (askToken account timeoutMs).run.run env.serve st =
      (match env.token account timeoutMs with
        | .granted token => .ok token
        | .absent => .error (.credentialUnavailable s!"no token for account {account}")
        | .late => .error (.credentialUnavailable s!"token request timed out after {timeoutMs} ms"),
        st) := by
  rw [askToken, Procedure.run_mk_except, Procedure.run_call]
  simp only [Surroundings.serve]
  cases env.token account timeoutMs <;> rfl

theorem run_askPreference (key : String) (missing : SyncError) (st : SyncState) :
    (askPreference key missing).run.run env.serve st =
      (match env.preference key with
        | some value => .ok value
        | none => .error missing, st) := by
  rw [askPreference, Procedure.run_mk_except, Procedure.run_call]
  simp only [Surroundings.serve]
  cases env.preference key <;> rfl

/-- A call of the store that is served is answered by the store. -/
theorem run_askStore {α : Type} (c : StoreCall) (read : StoreAnswer c → Except StoreError α)
    {a : α} {st : SyncState} (h : read (st.store.serve c).1 = .ok a) :
    (askStore c read).run.run env.serve st =
      (.ok a, { st with store := (st.store.serve c).2 }) := by
  rw [askStore, Procedure.run_mk_except, Procedure.run_call]
  simp only [Surroundings.serve, h]
  rfl

/-- A measurement the collector has is settled. -/
theorem run_settle {s : Store} {id : MeasurementId} (hfault : s.Faultless)
    (hs : s.status id = .ok .finished) (handovers : List Handover) (outcome : Outcome) :
    (do let _ ← askStore (.clean id) fun answer => answer
        askStore (.setStatus id .synced) fun answer => answer
        return outcome : Syncing Outcome).run.run env.serve ⟨s, handovers⟩ =
      (.ok outcome, ⟨s.settled [id], handovers⟩) := by
  obtain ⟨n, hclean, hmark⟩ := hfault.settle hs
  have hmarked : (Store.serve (.setStatus id .synced) (s.serve (.clean id)).2).1 = .ok () :=
    congrArg Prod.fst hmark
  refine (Procedure.run_bind_ok (run_askStore env _ _ hclean) _).trans ?_
  refine (Procedure.run_bind_ok (run_askStore env _ _ hmarked) _).trans ?_
  simp only [Store.serve, hmark]
  rfl

/-- One measurement is handed over, and settled if it is accepted. -/
theorem run_syncMeasurement {st : SyncState} {id : MeasurementId} (hwell : st.store.WellFormed)
    (hfault : st.store.Faultless) (hcount : st.store.Countable)
    (hs : st.store.status id = .ok .finished) (queryLimit : Nat) :
    (syncMeasurement queryLimit access id).run.run env.serve st =
      (env.collector st.handovers (access.request st.store id),
        { store :=
            match env.collector st.handovers (access.request st.store id) with
            | .ok _ => st.store.settled [id]
            | .error _ => st.store
          handovers := st.handovers ++ [⟨access.request st.store id,
            env.collector st.handovers (access.request st.store id)⟩] }) := by
  have hrun := Store.run_serialize hwell.queryLimit_pos (hfault.readableOf id) (hcount id)
    queryLimit
  have hpack : (packMeasurement queryLimit id).run.run env.serve st =
      (.ok (Zlib.wrap (Transfer.image (st.store.pointsByTime id))), st) := by
    rw [packMeasurement, Procedure.run_mk_except, Procedure.run_bind, env.run_onStore, hrun]
    rfl
  refine (Procedure.run_bind_ok hpack _).trans ?_
  cases hanswer : env.collector st.handovers (access.request st.store id) with
  | error e =>
    have hupload : (ExceptT.mk (.call (.upload (access.request st.store id)) .done) :
        Syncing Outcome).run.run env.serve st = (.error e, { st with
          handovers := st.handovers ++ [⟨access.request st.store id, .error e⟩] }) := by
      rw [← hanswer]
      rfl
    exact Procedure.run_bind_error hupload _
  | ok outcome =>
    have hupload : (ExceptT.mk (.call (.upload (access.request st.store id)) .done) :
        Syncing Outcome).run.run env.serve st = (.ok outcome, { st with
          handovers := st.handovers ++ [⟨access.request st.store id, .ok outcome⟩] }) := by
      rw [← hanswer]
      rfl
    exact (Procedure.run_bind_ok hupload _).trans (run_settle env hfault hs _ outcome)

/-- A report after one more measurement was accepted. -/
def SyncReport.accepted (report : SyncReport) (id : MeasurementId) (outcome : Outcome) :
    SyncReport :=
  { report with
    synced := report.synced ++ [id]
    alreadyPresent := report.alreadyPresent ++ if outcome = .alreadyPresent then [id] else [] }

/-- After an accepted measurement the cycle goes on with the others. -/
theorem run_syncAll_accepted {queryLimit : Nat} {id : MeasurementId} {outcome : Outcome}
    {st st' : SyncState} (h : (syncMeasurement queryLimit access id).run.run env.serve st =
      (.ok outcome, st')) (report : SyncReport) (rest : List MeasurementId) :
    (syncAll queryLimit access report (id :: rest)).run env.serve st =
      (syncAll queryLimit access (report.accepted id outcome) rest).run env.serve st' := by
  rw [syncAll, Procedure.run_bind, h]
  cases outcome with
  | created => simp [SyncReport.accepted]
  | alreadyPresent => rfl

/-- After a measurement that was not accepted the cycle ends. -/
theorem run_syncAll_refused {queryLimit : Nat} {id : MeasurementId} {e : SyncError}
    {st st' : SyncState} (h : (syncMeasurement queryLimit access id).run.run env.serve st =
      (.error e, st')) (report : SyncReport) (rest : List MeasurementId) :
    (syncAll queryLimit access report (id :: rest)).run env.serve st =
      ({ report with aborted := some (id, e) }, st') := by
  rw [syncAll, Procedure.run_bind, h]
  rfl

/-- What a cycle with access does to a store: some measurements are accepted, and the first that is
not ends it. Exactly these were handed over, each once and in order, as they were stored. -/
structure CycleEffect (s : Store) (done : List (MeasurementId × Outcome))
    (failed : Option (MeasurementId × SyncError)) (report : SyncReport) (after : SyncState) :
    Prop where
  handovers : after.handovers =
    done.map (fun d => ⟨access.request s d.1, .ok d.2⟩) ++
      failed.toList.map fun f => ⟨access.request s f.1, .error f.2⟩
  answered : env.Answered after.handovers
  synced : report.synced = done.map fun d => d.1
  alreadyPresent : report.alreadyPresent =
    (done.filter fun d => d.2 = .alreadyPresent).map fun d => d.1
  aborted : report.aborted = failed
  store : after.store = s.settled report.synced

section CycleEffect

variable {env access} {s : Store} {before : List (MeasurementId × Outcome)} {report : SyncReport}
  {st : SyncState} {id : MeasurementId}

/-- Every request is one for a measurement as it was stored before. -/
theorem CycleEffect.request_of_mem {done : List (MeasurementId × Outcome)}
    {failed : Option (MeasurementId × SyncError)}
    (h : CycleEffect env access s done failed report st) {handover : Handover}
    (hmem : handover ∈ st.handovers) : ∃ id, handover.request = access.request s id := by
  rw [h.handovers, List.mem_append, List.mem_map, List.mem_map] at hmem
  rcases hmem with ⟨d, -, rfl⟩ | ⟨f, -, rfl⟩
  · exact ⟨d.1, rfl⟩
  · exact ⟨f.1, rfl⟩

/-- One more measurement is accepted. -/
theorem CycleEffect.accept (h : CycleEffect env access s before none report st) {outcome : Outcome}
    (hanswer : env.collector st.handovers (access.request s id) = .ok outcome) :
    CycleEffect env access s (before ++ [(id, outcome)]) none (report.accepted id outcome)
      ⟨st.store.settled [id], st.handovers ++ [⟨access.request s id, .ok outcome⟩]⟩ where
  handovers := by simp [h.handovers]
  answered := by
    rw [← hanswer]
    exact h.answered.append _
  synced := by simp [SyncReport.accepted, h.synced]
  alreadyPresent := by
    rw [SyncReport.accepted, h.alreadyPresent, List.filter_append, List.map_append]
    cases outcome <;> rfl
  aborted := h.aborted
  store := by rw [h.store, Store.settled_settled, SyncReport.accepted]

/-- A measurement is not accepted. -/
theorem CycleEffect.refuse (h : CycleEffect env access s before none report st) {e : SyncError}
    (hanswer : env.collector st.handovers (access.request s id) = .error e) :
    CycleEffect env access s before (some (id, e)) { report with aborted := some (id, e) }
      ⟨st.store, st.handovers ++ [⟨access.request s id, .error e⟩]⟩ where
  handovers := by simp [h.handovers]
  answered := by
    rw [← hanswer]
    exact h.answered.append _
  synced := h.synced
  alreadyPresent := h.alreadyPresent
  aborted := rfl
  store := h.store

end CycleEffect

/-- Measurements are handed over one after another until one is not accepted. -/
theorem run_syncAll {s : Store} (hwell : s.WellFormed) (hfault : s.Faultless)
    (hcount : s.Countable) (queryLimit : Nat) (ids : List MeasurementId) (hids : ids.Nodup)
    (hs : ∀ id ∈ ids, s.status id = .ok .finished) (before : List (MeasurementId × Outcome))
    (hbefore : ∀ id ∈ ids, id ∉ before.map fun d => d.1) (st : SyncState) (report : SyncReport)
    (h : CycleEffect env access s before none report st) :
    ∃ done failed later,
      ids = done.map (fun d => d.1) ++ failed.toList.map (fun f => f.1) ++ later ∧
      (failed = none → later = []) ∧
      CycleEffect env access s (before ++ done) failed
        ((syncAll queryLimit access report ids).run env.serve st).1
        ((syncAll queryLimit access report ids).run env.serve st).2 := by
  induction ids generalizing before st report with
  | nil => exact ⟨[], none, [], rfl, fun _ => rfl, by simpa [syncAll] using h⟩
  | cons id rest ih =>
    -- What was settled before leaves this measurement as it was, so its request is the same.
    have hnew : id ∉ report.synced := by
      rw [h.synced]
      exact hbefore id List.mem_cons_self
    have hstatus : st.store.status id = .ok .finished := by
      rw [h.store, Store.status, Store.load_settled hnew]
      exact hs id List.mem_cons_self
    have hrequest : access.request st.store id = access.request s id := by
      simp only [SyncAccess.request, h.store]
      rw [funext (Store.pointsByTime_settled hnew)]
    have hrun := run_syncMeasurement env access (h.store ▸ hwell.settled _)
      (h.store ▸ hfault.settled _) (h.store ▸ hcount.settled _) hstatus queryLimit
    rw [hrequest] at hrun
    cases hanswer : env.collector st.handovers (access.request s id) with
    | error e =>
      rw [hanswer] at hrun
      refine ⟨[], some (id, e), rest, rfl, (by intro hnone; cases hnone), ?_⟩
      rw [run_syncAll_refused env access hrun, List.append_nil]
      exact h.refuse hanswer
    | ok outcome =>
      rw [hanswer] at hrun
      -- The others are still to be handed over, since every identifier occurs once.
      have hrest : ∀ i ∈ rest, i ∉ (before ++ [(id, outcome)]).map fun d => d.1 := by
        intro i hi
        rw [List.map_append, List.mem_append, not_or]
        refine ⟨hbefore i (List.mem_cons_of_mem _ hi), ?_⟩
        intro hmem
        obtain rfl : i = id := List.mem_singleton.mp hmem
        exact (List.nodup_cons.mp hids).1 hi
      obtain ⟨done, failed, later, hlist, hlater, heffect⟩ :=
        ih (List.nodup_cons.mp hids).2 (fun i hi => hs i (List.mem_cons_of_mem _ hi)) _ hrest _ _
          (h.accept hanswer)
      refine ⟨(id, outcome) :: done, failed, later, by simp [hlist], hlater, ?_⟩
      rw [run_syncAll_accepted env access hrun, List.append_cons]
      exact heffect

/-- A cycle that has done nothing yet. -/
theorem cycleEffect_nil (s : Store) :
    CycleEffect env access s [] none ⟨[], [], none⟩ ⟨s, []⟩ :=
  ⟨rfl, fun i hi => absurd hi (Nat.not_lt_zero i), rfl, rfl, rfl, (Store.settled_nil s).symm⟩

/-- A cycle with access hands over all that is to be synced. -/
theorem run_syncCycle_granted {s : Store} {token endpoint device account : String}
    {timeoutMs : Nat} (htoken : env.token account timeoutMs = .granted token)
    (hendpoint : env.preference endpointKey = some endpoint)
    (hdevice : env.preference deviceKey = some device) (queryLimit : Nat) :
    (syncCycle queryLimit timeoutMs account).run env.serve ⟨s, []⟩ =
      (.ok ((syncAll queryLimit ⟨token, endpoint, device⟩ ⟨[], [], none⟩ s.syncable).run
          env.serve ⟨s, []⟩).1,
        ((syncAll queryLimit ⟨token, endpoint, device⟩ ⟨[], [], none⟩ s.syncable).run
          env.serve ⟨s, []⟩).2) := by
  have hasked := run_askToken env account timeoutMs ⟨s, []⟩
  have hfirst := run_askPreference env endpointKey .endpointUnconfigured ⟨s, []⟩
  have hsecond := run_askPreference env deviceKey .deviceIdUnconfigured ⟨s, []⟩
  rw [htoken] at hasked
  rw [hendpoint] at hfirst
  rw [hdevice] at hsecond
  have hsyncable : (askStore .syncable fun answer => answer).run.run env.serve ⟨s, []⟩ =
      (.ok s.syncable, ⟨s, []⟩) := run_askStore env _ _ rfl
  exact (Procedure.run_bind_ok hasked _).trans ((Procedure.run_bind_ok hfirst _).trans
    ((Procedure.run_bind_ok hsecond _).trans ((Procedure.run_bind_ok hsyncable _).trans
      (Procedure.run_lift_except _ _ _))))

/-- What is left of a store in which some finished measurements were settled: these are synced and
hold nothing, and all others are as they were. -/
theorem settled_views {s : Store} {ids : List MeasurementId}
    (hs : ∀ id ∈ ids, s.status id = .ok .finished) :
    (∀ id ∈ ids, (s.settled ids).status id = .ok .synced ∧ ∀ t, (s.settled ids).count id t = 0) ∧
    ∀ id, id ∉ ids →
      (s.settled ids).load id = s.load id ∧ ∀ t, (s.settled ids).rowsOf id t = s.rowsOf id t := by
  refine ⟨fun id hid => ⟨Store.status_settled (hs id hid) hid, fun t => ?_⟩, fun id hid =>
    ⟨Store.load_settled hid, fun t => ?_⟩⟩
  · rw [Store.count, Store.rowsOf_settled, if_pos hid, List.length_nil]
  · rw [Store.rowsOf_settled, if_neg hid]

/-- The exact effect of a cycle. Without a token, an endpoint or a device identifier, in this order,
it fails and does nothing. Otherwise the finished measurements are handed over in the order of their
identifiers, each once and with a body that unwraps to what was stored, until one is not accepted.
Those before it are synced and emptied, and everything else stays as it was. -/
theorem run_syncCycle {s : Store} (hwell : s.WellFormed) (hfault : s.Faultless)
    (hcount : s.Countable) (queryLimit timeoutMs : Nat) (account : String) :
    (env.token account timeoutMs = .absent →
      (syncCycle queryLimit timeoutMs account).run env.serve ⟨s, []⟩ =
        (.error (.credentialUnavailable s!"no token for account {account}"), ⟨s, []⟩)) ∧
    (env.token account timeoutMs = .late →
      (syncCycle queryLimit timeoutMs account).run env.serve ⟨s, []⟩ =
        (.error (.credentialUnavailable s!"token request timed out after {timeoutMs} ms"),
          ⟨s, []⟩)) ∧
    ∀ token, env.token account timeoutMs = .granted token →
    (env.preference endpointKey = none →
      (syncCycle queryLimit timeoutMs account).run env.serve ⟨s, []⟩ =
        (.error .endpointUnconfigured, ⟨s, []⟩)) ∧
    ∀ endpoint, env.preference endpointKey = some endpoint →
    (env.preference deviceKey = none →
      (syncCycle queryLimit timeoutMs account).run env.serve ⟨s, []⟩ =
        (.error .deviceIdUnconfigured, ⟨s, []⟩)) ∧
    ∀ device, env.preference deviceKey = some device →
    ∃ report after done failed later,
      (syncCycle queryLimit timeoutMs account).run env.serve ⟨s, []⟩ = (.ok report, after) ∧
      CycleEffect env ⟨token, endpoint, device⟩ s done failed report after ∧
      s.syncable = done.map (fun d => d.1) ++ failed.toList.map (fun f => f.1) ++ later ∧
      (failed = none → later = []) ∧
      (∀ id, id ∈ s.syncable ↔ s.status id = .ok .finished) ∧
      (s.syncable.map fun id => id.value).Pairwise (· < ·) ∧
      (∀ h ∈ after.handovers, ∃ bytes, s.serialized queryLimit h.request.id = .ok bytes ∧
        Zlib.unwrap? h.request.body = some bytes) ∧
      (∀ id ∈ report.synced, after.store.status id = .ok .synced ∧
        ∀ t, after.store.count id t = 0) ∧
      ∀ id, id ∉ report.synced →
        after.store.load id = s.load id ∧ ∀ t, after.store.rowsOf id t = s.rowsOf id t := by
  have htoken := run_askToken env account timeoutMs ⟨s, []⟩
  have hendpoint := run_askPreference env endpointKey .endpointUnconfigured ⟨s, []⟩
  have hdevice := run_askPreference env deviceKey .deviceIdUnconfigured ⟨s, []⟩
  refine ⟨fun habsent => ?_, fun hlate => ?_, fun token hgranted => ⟨fun hnone => ?_,
    fun endpoint hsome => ⟨fun hnone => ?_, fun device hsome' => ?_⟩⟩⟩
  · rw [habsent] at htoken
    exact Procedure.run_bind_error htoken _
  · rw [hlate] at htoken
    exact Procedure.run_bind_error htoken _
  · rw [hgranted] at htoken
    rw [hnone] at hendpoint
    exact (Procedure.run_bind_ok htoken _).trans (Procedure.run_bind_error hendpoint _)
  · rw [hgranted] at htoken
    rw [hsome] at hendpoint
    rw [hnone] at hdevice
    exact (Procedure.run_bind_ok htoken _).trans
      ((Procedure.run_bind_ok hendpoint _).trans (Procedure.run_bind_error hdevice _))
  · have hfinished : ∀ id ∈ s.syncable, s.status id = .ok .finished :=
      fun id hid => hwell.mem_syncable_iff.mp hid
    have hnodup : s.syncable.Nodup :=
      List.Nodup.of_map _ (hwell.syncable_ascending.imp Nat.ne_of_lt)
    obtain ⟨done, failed, later, hids, hlater, heffect⟩ := run_syncAll env
      ⟨token, endpoint, device⟩ hwell hfault hcount queryLimit s.syncable hnodup hfinished []
      (by simp) ⟨s, []⟩ _ (cycleEffect_nil env _ s)
    -- Whatever was synced had been finished, so it was settled and not just left alone.
    have hsynced : ∀ id ∈ ((syncAll queryLimit ⟨token, endpoint, device⟩ ⟨[], [], none⟩
        s.syncable).run env.serve ⟨s, []⟩).1.synced, s.status id = .ok .finished := by
      intro id hid
      rw [heffect.synced, List.nil_append] at hid
      exact hfinished id (by rw [hids]; simp [hid])
    obtain ⟨hemptied, hothers⟩ := settled_views hsynced
    rw [← heffect.store] at hemptied hothers
    refine ⟨_, _, done, failed, later, run_syncCycle_granted env hgranted hsome hsome' queryLimit,
      heffect, hids, hlater, fun id => hwell.mem_syncable_iff, hwell.syncable_ascending, ?_,
      hemptied, hothers⟩
    intro h hh
    -- A body holds what was stored before the cycle, also after others were settled.
    obtain ⟨id, hrequest⟩ := heffect.request_of_mem hh
    rw [hrequest]
    exact ⟨_, Store.serialized_eq hwell hfault hcount queryLimit _, Zlib.unwrap?_wrap _⟩

end Cycle

/-- A store with two finished measurements, of which the first holds a location, and an open one. -/
def twoFinished : Store :=
  { Store.empty none 1 1 with
    entries := [⟨⟨1⟩, .car, .known .finished, none⟩, ⟨⟨2⟩, .bus, .known .opened, none⟩,
      ⟨⟨3⟩, .bicycle, .known .finished, none⟩]
    ledger := #[⟨⟨1⟩, 1, .location ⟨0, .zero, .zero, .zero, .zero⟩, true⟩] }

/-- Surroundings with a collector that refuses everything but the first measurement. -/
def firstOnly : Surroundings where
  token _ _ := .granted "token"
  preference _ := some "value"
  collector _ request :=
    if request.id = ⟨1⟩ then .ok .created else .error (.remoteUnreachable "refused")

theorem run_syncCycle_twoFinished :
    twoFinished.WellFormed ∧ twoFinished.Faultless ∧ twoFinished.Countable ∧
    ∃ report after done failed later,
      (syncCycle 1 1000 "account").run firstOnly.serve ⟨twoFinished, []⟩ = (.ok report, after) ∧
      CycleEffect firstOnly ⟨"token", "value", "value"⟩ twoFinished done failed report after ∧
      [⟨1⟩, ⟨3⟩] = done.map (fun d => d.1) ++ failed.toList.map (fun f => f.1) ++ later ∧
      (failed = none → later = []) := by
  have hwell : twoFinished.WellFormed := ⟨by decide, by decide⟩
  have hfault : twoFinished.Faultless := ⟨fun _ => rfl, rfl, by simp [twoFinished]⟩
  have hcount : twoFinished.Countable := fun _ _ =>
    Nat.lt_of_le_of_lt (List.length_filter_le _ _) (by decide)
  obtain ⟨-, hendpoint⟩ := (run_syncCycle firstOnly hwell hfault hcount 1 1000 "account").2.2
    "token" rfl
  obtain ⟨report, after, done, failed, later, hrun, heffect, hids, hlater, -⟩ :=
    (hendpoint "value" rfl).2 "value" rfl
  exact ⟨hwell, hfault, hcount, report, after, done, failed, later, hrun, heffect, hids, hlater⟩

end TripRecorder
