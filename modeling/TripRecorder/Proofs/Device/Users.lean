import TripRecorder.Proofs.Device.Shared
import TripRecorder.Proofs.Service.Run
import TripRecorder.Proofs.Transfer.Serializer

/-!
# The users of a store

A recorder and sync cycles make their calls while others make theirs. A recorder relies on open
measurements staying open, and on nothing else. A cycle relies on closed measurements staying closed
and not growing, and on a request that was accepted staying accepted.

## Main definitions

* `Shared.Recorded`, `Shared.Cycled` — the calls of a recorder and of a cycle
* `Harmless` — a procedure of a recorder that does to the store only what every user may do

## Main results

* `harmless_respond`, `harmless_handleNext` — all that a recorder does is harmless
* `safe_syncMeasurement`, `safe_syncCycle` — all that a cycle does is harmless, and what it removes
  was delivered
-/

namespace TripRecorder

namespace Shared

/-- A call of a recorder: only those of the store change anything that is shared. -/
def Recorded : (c : RecorderCall) → Shared → RecorderAnswer c → Shared → Prop
  | .store c, s, answer, s' => Calls c s answer s'
  | _, s, _, s' => s' = s

/-- A call of a cycle. What the collector accepts is entered in the account. -/
def Cycled : (c : SyncCall) → Shared → SyncAnswer c → Shared → Prop
  | .store c, s, answer, s' => Calls c s answer s'
  | .upload request, s, answer, s' =>
    s' = { s with accepted := s.accepted ++ if answer.isOk then [request] else [] }
  | _, s, _, s' => s' = s

theorem Calls.status_of_ok {s s' : Shared} {id : MeasurementId} {status : MeasurementStatus}
    (h : Calls (.status id) s (.ok status) s') : s.store.status id = .ok status := by
  obtain ⟨store', hcall, -⟩ := h
  exact hcall.status_of_ok

end Shared

open Shared

/-! ### The recorder -/

/-- Whatever others do, as long as open measurements stay open, the procedure does to the store only
what every user may do. -/
def Harmless {α : Type} (p : Recording α) : Prop :=
  ∀ s, p.Safe Recorded KeepsOpen Advances (fun _ _ => True) s

/-- The calls of a recorder that change nothing that is shared. -/
def RecorderCall.Quiet : RecorderCall → Prop
  | .store c => c.Reads
  | _ => True

section Recorder

variable {α β : Type}

theorem harmless_done (a : α) : Harmless (.done a) := fun _ _ _ => trivial

theorem Harmless.bind {p : Recording α} {f : α → Recording β} (hp : Harmless p)
    (hf : ∀ a, Harmless (f a)) : Harmless (p.bind f) :=
  fun s => Procedure.Safe.bind (hp s) KeepsOpen.refl fun a s _ => hf a s

theorem harmless_of_asks {p : Recording α} (hp : p.Asks RecorderCall.Quiet) : Harmless p := by
  refine fun s => Procedure.Asks.safe hp Advances.refl ?_
  intro c s answer s' hc h
  cases c with
  | store c => exact h.of_reads hc
  | _ => exact h

/-- Batches are written to an open measurement. -/
theorem safe_writeBatches {act : (c : StoreCall) → Shared → StoreAnswer c → Shared → Prop}
    (hact : ∀ c s answer s', act c s answer s' → Calls c s answer s') {id : MeasurementId}
    (batches : List (List Point)) (done : AppendReport) {s : Shared}
    (hopen : s.store.status id = .ok .opened) :
    (writeBatches id done batches).Safe act KeepsOpen AdvancesOpen (fun _ _ => True) s := by
  induction batches generalizing done s with
  | nil => exact fun _ _ => trivial
  | cons batch rest ih =>
    intro s' hrely answer s'' h
    -- Whatever others did since the last batch, the measurement is still open.
    have hopen' := hrely id hopen
    have hadvances := advances_insert hopen' (hact _ _ _ _ h)
    refine ⟨hadvances, ?_⟩
    cases answer with
    | error e => exact fun _ _ => trivial
    | ok u => exact ih _ (hadvances.2 id hopen')

/-- Points are added after a look at the status. -/
theorem safe_appendPoints {act : (c : StoreCall) → Shared → StoreAnswer c → Shared → Prop}
    (hact : ∀ c s answer s', act c s answer s' → Calls c s answer s') (batchLimit : Nat)
    (id : MeasurementId) (ps : List Point) (s : Shared) :
    (appendPoints batchLimit id ps).Safe act KeepsOpen AdvancesOpen (fun _ _ => True) s := by
  unfold appendPoints
  split
  · exact fun _ _ => trivial
  · intro s' _ answer s'' h
    have hcall := hact _ _ _ _ h
    obtain rfl := hcall.of_reads trivial
    refine ⟨AdvancesOpen.refl _, ?_⟩
    cases answer with
    | error e => exact fun _ _ => trivial
    | ok status =>
      simp only
      split
      · rename_i heq
        -- The measurement was open when it was looked at, and open measurements stay open.
        exact safe_writeBatches hact _ _ (heq ▸ hcall.status_of_ok)
      · exact fun _ _ => trivial

namespace Recorder

theorem harmless_save (batchLimit : Nat) (id : MeasurementId) (ps : List Point) :
    Harmless (save batchLimit id ps) := by
  have happend : Harmless ((appendPoints batchLimit id ps).mapCalls RecorderCall.store
      fun _ answer => answer) := by
    refine fun s => Procedure.Safe.mapCalls (Procedure.Safe.mono
      (safe_appendPoints ?_ batchLimit id ps s) (fun _ _ h => h.1) fun _ _ h => h)
    rintro c s answer s' ⟨other, h, rfl⟩
    exact h
  refine happend.bind fun result => ?_
  cases result <;> exact harmless_done _

theorem harmless_tell (message : Message) : Harmless (tell message) :=
  harmless_of_asks ⟨trivial, fun _ => trivial⟩

theorem harmless_onHardware (p : Procedure HardwareAnswer α) : Harmless (onHardware p) :=
  harmless_of_asks ((Procedure.asks_true p).mapCalls fun _ _ => trivial)

theorem harmless_handleLocation (config : RecorderConfig) (id : MeasurementId)
    (stats : SessionStats) (l : GeoLocation) : Harmless (handleLocation config id stats l) :=
  (harmless_save _ _ _).bind fun _ => (harmless_tell _).bind fun _ => harmless_done _

theorem harmless_handleChunks (config : RecorderConfig) (id : MeasurementId)
    (chunks : List SampleBatch) (stats : SessionStats) :
    Harmless (handleChunks config id stats chunks) := by
  induction chunks generalizing stats with
  | nil => exact harmless_done _
  | cons chunk rest ih =>
    exact (harmless_save _ _ _).bind fun _ => (harmless_tell _).bind fun _ => ih _

theorem harmless_handle (r : Recorder) (event : CaptureEvent) : Harmless (r.handle event) := by
  unfold handle
  split
  · exact harmless_done _
  · refine Harmless.bind ?_ fun _ => harmless_done _
    cases event with
    | location l => exact harmless_handleLocation _ _ _ _
    | data batch => exact harmless_handleChunks _ _ _ _
    | fixAcquired => exact (harmless_tell _).bind fun _ => harmless_done _
    | fixLost => exact (harmless_tell _).bind fun _ => harmless_done _
    | failed e => exact (harmless_tell _).bind fun _ => harmless_done _

theorem harmless_handleAll (events : List CaptureEvent) (r : Recorder) :
    Harmless (r.handleAll events) := by
  induction events generalizing r with
  | nil => exact harmless_done _
  | cons event rest ih => exact (harmless_handle r event).bind ih

theorem harmless_detach (r : Recorder) (now : Nat) : Harmless (r.detach now) := by
  unfold detach
  split
  · exact harmless_done _
  · exact (harmless_onHardware _).bind fun _ => harmless_handleAll _ _

/-- The oldest event of a capture is handled. -/
theorem harmless_handleNext (r : Recorder) : Harmless r.handleNext := by
  unfold handleNext
  split
  · exact harmless_done _
  · exact harmless_handle _ _

/-- Sensors are attached if the measurement is open. -/
theorem harmless_attachTo (id : MeasurementId) : Harmless (attachTo id).run := by
  refine harmless_of_asks ((asks_attachTo id).mono fun c hc => ?_)
  cases c with
  | store c => cases c <;> trivial
  | _ => trivial

theorem harmless_call {c : RecorderCall} {next : RecorderAnswer c → Recording α} (hc : c.Quiet)
    (hnext : ∀ answer, Harmless (next answer)) : Harmless (.call c next) :=
  Harmless.bind (p := .call c .done) (harmless_of_asks ⟨hc, fun _ => trivial⟩) hnext

theorem harmless_start (r : Recorder) (id : MeasurementId) (now : Nat) :
    Harmless (r.start id now) := by
  unfold start
  split
  · exact harmless_done _
  · refine (harmless_attachTo id).bind fun result => ?_
    cases result with
    | error e => exact harmless_done _
    | ok sources =>
      refine harmless_call trivial fun _ => ?_
      simp only
      split
      · exact harmless_done _
      · exact (harmless_tell _).bind fun _ => harmless_done _

theorem harmless_pause (r : Recorder) (now : Nat) : Harmless (r.pause now) := by
  unfold pause
  split
  · exact harmless_done _
  · exact (harmless_detach _ now).bind fun _ => harmless_call trivial fun _ => harmless_done _

theorem harmless_resume (r : Recorder) (now : Nat) : Harmless (r.resume now) := by
  unfold resume
  split
  · exact harmless_done _
  · refine (harmless_attachTo _).bind fun result => ?_
    cases result with
    | error e => exact harmless_done _
    | ok sources => exact harmless_call trivial fun _ => harmless_done _

/-- A stop finishes the measurement, which nothing is written to any more. -/
theorem harmless_stop (r : Recorder) (now : Nat) : Harmless (r.stop now) := by
  unfold stop
  split
  · exact harmless_done _
  · refine (harmless_detach _ now).bind fun _ => harmless_call trivial fun _ => ?_
    intro s s' _ answer s'' h
    exact ⟨advances_finish h, (harmless_tell _).bind (fun _ => harmless_done _) s''⟩

/-- Every request is harmless. -/
theorem harmless_respond (r : Recorder) (now : Nat) (request : Request) :
    Harmless (r.respond now request) := by
  cases request with
  | start id => exact (harmless_start r id now).bind fun _ => harmless_done _
  | pause => exact (harmless_pause r now).bind fun _ => harmless_done _
  | resume => exact (harmless_resume r now).bind fun _ => harmless_done _
  | stop => exact (harmless_stop r now).bind fun _ => harmless_done _
  | ping => exact harmless_done _
  | shutDown =>
    refine Harmless.bind ?_ fun _ => harmless_done _
    unfold shutDown
    split
    · exact (harmless_stop r now).bind fun _ => harmless_done _
    · exact harmless_done _

end Recorder

end Recorder

/-! ### Cycles -/

namespace Shared

variable {s s' : Shared} {id : MeasurementId} {R : Table → List Point}

/-- A measurement is closed, and some points were written to it. -/
structure Settling (id : MeasurementId) (R : Table → List Point) (s : Shared) : Prop where
  sound : s.Sound
  closed : s.Closed id
  written : ∀ t, s.writtenTo id t = R t

theorem Settling.advances (h : s.Settling id R) (hs : s.Advances s') : s'.Settling id R := by
  obtain ⟨hsound, -, hclosed⟩ := hs h.sound
  obtain ⟨hid, hwritten, -⟩ := hclosed id h.closed
  exact ⟨hsound, hid, fun t => (hwritten t).trans (h.written t)⟩

theorem Settling.delivered (h : s.Settling id R) (hd : s.Delivered id) (hs : s.Advances s') :
    s'.Delivered id := by
  obtain ⟨-, haccepted, hclosed⟩ := hs h.sound
  exact hd.of_eq (hclosed id h.closed).2.1 haccepted

theorem Settling.purged (h : s.Settling id R) (hp : s.Purged id) (hs : s.Advances s') :
    s'.Purged id := by
  rcases ((hs h.sound).2.2 id h.closed).2.2 with hpoints | hpurged
  · exact fun t => (hpoints t).trans (hp t)
  · exact hpurged

/-- A request is answered. -/
theorem Cycled.advances_upload {request : UploadRequest} {answer : Except SyncError Outcome}
    (h : Cycled (.upload request) s answer s') : s.AdvancesOpen s' := by
  obtain rfl := h
  exact ⟨advances_of_points (fun _ _ => rfl) rfl (fun _ hr => List.mem_append_left _ hr) id
    (fun _ hi => hi) fun i hsound hi => hsound.synced i hi, fun _ hi => hi⟩

/-- A body with all points of a measurement is accepted. -/
theorem Cycled.delivered {request : UploadRequest} {outcome : Outcome} (hs : s.Settling id R)
    (hid : request.id = id)
    (hbody : Zlib.unwrap? request.body = some (Transfer.image fun t => byTime (R t)))
    (h : Cycled (.upload request) s (.ok outcome) s') : s'.Delivered id := by
  obtain rfl := h
  refine ⟨request, List.mem_append_right _ (List.mem_singleton_self _), hid, ?_⟩
  rw [hbody, ← funext hs.written]
  rfl

end Shared

section Cycle

variable {s : Shared} {id : MeasurementId} {R : Table → List Point}

/-- What the serializer reads of a closed measurement are all its points, unless these were
delivered already. -/
theorem safe_serialize (pageSize : Nat) (hs : s.Settling id R) :
    (onStore (collectBytes [] (serialize pageSize id))).Safe Cycled Advances AdvancesOpen
      (fun r s => s.Settling id R ∧ (s.Delivered id ∨
        ∀ total, r.1 = .ok total → r.2 = Transfer.image fun t => byTime (R t))) s := by
  have hemits := emits_serialize ⟨id, fun t => byTime (R t), True⟩ pageSize
  have hmeets := Procedure.Meets.mono hemits fun r
      (hr : r = (.ok _, Transfer.image fun t => byTime (R t)) ∨ _) =>
    show ∀ total, r.1 = .ok total → r.2 = Transfer.image fun t => byTime (R t) by
      intro n hn
      rcases hr with rfl | ⟨-, e, he⟩
      · rfl
      · rw [he] at hn
        cases hn
  refine Procedure.Safe.mapCalls (Procedure.Meets.safe (asks_collectBytes_serialize pageSize id)
    AdvancesOpen.refl Settling.advances Settling.delivered ?_ ?_ hs (.inr hmeets))
  · rintro c s answer s' hc ⟨other, hcall, rfl⟩
    exact Calls.of_reads hcall hc
  · rintro c s answer s' hs hc ⟨other, ⟨store', hcall, -⟩, rfl⟩
    -- Another cycle may have emptied the measurement, but only after all of it was delivered.
    rcases hs.sound.cases id with hkept | ⟨-, -, hdelivered⟩
    · have hholding : s.store.holding id True = ⟨id, fun t => byTime (R t), True⟩ := by
        rw [Store.holding]
        congr 1
        funext t
        rw [Store.pointsByTime_eq, hkept t, hs.written t]
      rw [← hholding] at hc ⊢
      exact .inr (Store.holding_answers hs.sound.wellFormed.queryLimit_pos hc hcall)
    · exact .inl hdelivered

/-- A packed body holds all points of the measurement, unless these were delivered already. -/
theorem safe_packMeasurement (queryLimit : Nat) (hs : s.Settling id R) :
    (packMeasurement queryLimit id).run.Safe Cycled Advances AdvancesOpen
      (fun r s => ∀ body, r = .ok body → s.Settling id R ∧ (s.Delivered id ∨
        Zlib.unwrap? body = some (Transfer.image fun t => byTime (R t)))) s := by
  refine (safe_serialize queryLimit hs).bind Advances.refl ?_
  rintro ⟨result, bytes⟩ s' ⟨hs', hbytes⟩
  cases result with
  | error e => exact fun _ _ _ h => nomatch h
  | ok total =>
    intro later hrely body hbody
    obtain rfl : Zlib.wrap bytes = body := Except.ok.inj hbody
    refine ⟨hs'.advances hrely, ?_⟩
    rcases hbytes with hdelivered | hbytes
    · exact .inl (hs'.delivered hdelivered hrely)
    · rw [Zlib.unwrap?_wrap]
      exact .inr (congrArg some (hbytes total rfl))

/-- A measurement the collector has is emptied and marked. -/
theorem safe_settle (outcome : Outcome) (hs : s.Settling id R) (hdelivered : s.Delivered id) :
    (do let _ ← askStore (.clean id) fun answer => answer
        askStore (.setStatus id .synced) fun answer => answer
        return outcome : Syncing Outcome).run.Safe Cycled Advances AdvancesOpen
      (fun _ _ => True) s := by
  have hclean : (askStore (.clean id) fun answer => answer).run.Safe Cycled Advances AdvancesOpen
      (fun r s => ∀ n, r = .ok n → s.Settling id R ∧ s.Purged id) s := by
    intro s' hrely answer s'' hcall
    have hs' := hs.advances hrely
    obtain ⟨hstep, hpurged⟩ :=
      advances_clean hs'.closed (hs.delivered hdelivered hrely) hcall
    refine ⟨hstep, ?_⟩
    cases answer with
    | error e => exact fun _ _ _ h => nomatch h
    | ok n =>
      intro later hrely' _ _
      have hs'' := hs'.advances hstep.1
      exact ⟨hs''.advances hrely', hs''.purged (hpurged rfl) hrely'⟩
  refine Procedure.Safe.bind_except hclean Advances.refl (fun _ _ => trivial) ?_
  rintro n s ⟨hs, hpurged⟩
  have hmark : (askStore (.setStatus id .synced) fun answer => answer).run.Safe Cycled Advances
      AdvancesOpen (fun r s => ∀ u, r = .ok u → True) s := by
    intro s' hrely answer s'' hcall
    refine ⟨advances_mark (hs.advances hrely).closed (hs.purged hpurged hrely) hcall, ?_⟩
    cases answer <;> exact fun _ _ _ _ => trivial
  exact Procedure.Safe.bind_except hmark Advances.refl (fun _ _ => trivial)
    fun _ _ _ _ _ => trivial

/-- A measurement is handed over, and settled if it is accepted. -/
theorem safe_syncMeasurement (queryLimit : Nat) (access : SyncAccess) (hs : s.Settling id R) :
    (syncMeasurement queryLimit access id).run.Safe Cycled Advances AdvancesOpen
      (fun _ _ => True) s := by
  refine Procedure.Safe.bind_except (safe_packMeasurement queryLimit hs) Advances.refl
    (fun _ _ => trivial) ?_
  rintro body s ⟨hs, hbody⟩
  have hupload : (ExceptT.mk (.call
      (.upload ⟨access.endpoint, access.token, access.device, id, body⟩) .done) :
        Syncing Outcome).run.Safe Cycled Advances AdvancesOpen
      (fun r s => ∀ outcome, r = .ok outcome → s.Settling id R ∧ s.Delivered id) s := by
    intro s' hrely answer s'' hcall
    have hs' := hs.advances hrely
    have hstep := hcall.advances_upload
    have hs'' := hs'.advances hstep.1
    refine ⟨hstep, fun later hrely' outcome hok => ⟨hs''.advances hrely', ?_⟩⟩
    refine hs''.delivered ?_ hrely'
    obtain rfl : answer = .ok outcome := hok
    -- Either it was delivered before, or this is the body with all of its points.
    rcases hbody with hdelivered | hbody
    · exact hs'.delivered (hs.delivered hdelivered hrely) hstep.1
    · exact hcall.delivered hs' rfl hbody
  exact Procedure.Safe.bind_except hupload Advances.refl (fun _ _ => trivial)
    fun outcome s hs => safe_settle outcome hs.1 hs.2

/-- Measurements that are closed are handed over one after another. -/
theorem safe_syncAll (queryLimit : Nat) (access : SyncAccess) (ids : List MeasurementId)
    (report : SyncReport) (hs : s.Sound ∧ ∀ i ∈ ids, s.Closed i) :
    (syncAll queryLimit access report ids).Safe Cycled Advances AdvancesOpen
      (fun _ _ => True) s := by
  have hadvances {s s' : Shared} {ids : List MeasurementId}
      (hs : s.Sound ∧ ∀ i ∈ ids, s.Closed i) (h : s.Advances s') :
      s'.Sound ∧ ∀ i ∈ ids, s'.Closed i :=
    ⟨(h hs.1).1, fun i hi => ((h hs.1).2.2 i (hs.2 i hi)).1⟩
  induction ids generalizing report s with
  | nil => exact fun _ _ => trivial
  | cons i rest ih =>
    have hsettling : s.Settling i (s.writtenTo i) :=
      ⟨hs.1, hs.2 i List.mem_cons_self, fun _ => rfl⟩
    have hfirst := Procedure.Safe.frame (safe_syncMeasurement queryLimit access hsettling)
      hadvances (fun h h' => hadvances h h'.1)
      (⟨hs.1, fun i hi => hs.2 i (List.mem_cons_of_mem _ hi)⟩ : s.Sound ∧ ∀ i ∈ rest, s.Closed i)
    refine hfirst.bind Advances.refl ?_
    rintro result s' ⟨hs', -⟩
    rcases result with e | _ | _
    · exact fun _ _ => trivial
    · exact ih _ hs'
    · exact ih _ hs'

/-- A call that changes nothing that is shared. -/
theorem safe_unshared {α : Type} {c : SyncCall} {next : SyncAnswer c → Procedure SyncAnswer α}
    {post : α → Shared → Prop} (hc : ∀ s answer s', Cycled c s answer s' → s' = s)
    (hnext : ∀ s' answer, s.Advances s' →
      (next answer).Safe Cycled Advances AdvancesOpen post s') :
    (Procedure.call c next).Safe Cycled Advances AdvancesOpen post s := by
  intro s' hrely answer s'' hcall
  obtain rfl := hc s' answer s'' hcall
  exact ⟨AdvancesOpen.refl _, hnext _ answer hrely⟩

/-- A cycle does only what every user may do. -/
theorem safe_syncCycle (queryLimit timeoutMs : Nat) (account : String) (hs : s.Sound) :
    (syncCycle queryLimit timeoutMs account).Safe Cycled Advances AdvancesOpen
      (fun _ _ => True) s := by
  have hadvances {s s' : Shared} (hs : s.Sound) (h : s.Advances s') : s'.Sound := (h hs).1
  have htoken : (askToken account timeoutMs).run.Safe Cycled Advances AdvancesOpen
      (fun r s => ∀ token, r = .ok token → s.Sound) s :=
    safe_unshared (fun _ _ _ h => h) fun s' answer h => by
      cases answer <;> exact fun _ h' _ _ => hadvances (hadvances hs h) h'
  refine Procedure.Safe.bind_except htoken Advances.refl (fun _ _ => trivial) fun token s hs => ?_
  have hpreference (key : String) (missing : SyncError) {s : Shared} (hs : s.Sound) :
      (askPreference key missing).run.Safe Cycled Advances AdvancesOpen
        (fun r s => ∀ value, r = .ok value → s.Sound) s :=
    safe_unshared (fun _ _ _ h => h) fun s' answer h => by
      cases answer <;> exact fun _ h' _ _ => hadvances (hadvances hs h) h'
  refine Procedure.Safe.bind_except (hpreference _ _ hs) Advances.refl (fun _ _ => trivial)
    fun endpoint s hs => ?_
  refine Procedure.Safe.bind_except (hpreference _ _ hs) Advances.refl (fun _ _ => trivial)
    fun device s hs => ?_
  have hsyncable : (askStore .syncable fun answer => answer).run.Safe Cycled Advances AdvancesOpen
      (fun r s => ∀ ids, r = .ok ids → s.Sound ∧ ∀ i ∈ ids, s.Closed i) s := by
    intro s' hrely answer s'' hcall
    have hs' := hadvances hs hrely
    obtain rfl := Calls.of_reads hcall trivial
    refine ⟨AdvancesOpen.refl _, ?_⟩
    -- A measurement that was finished when the list was made stays closed until it is its turn.
    obtain ⟨store', ⟨hserved, -⟩ | ⟨detail, hfailed, -⟩, -⟩ := hcall
    · obtain rfl : answer = .ok s''.store.syncable := hserved
      intro later hrely' ids hids
      obtain rfl : s''.store.syncable = ids := Except.ok.inj hids
      obtain ⟨hlater, -, hclosed⟩ := hrely' hs'
      exact ⟨hlater, fun i hi =>
        (hclosed i (.inl (hs'.wellFormed.mem_syncable_iff.mp hi))).1⟩
    · obtain rfl : answer = .error (.database detail) := hfailed
      exact fun _ _ _ h => nomatch h
  exact Procedure.Safe.bind_except hsyncable Advances.refl (fun _ _ => trivial)
    fun ids s hs => (safe_syncAll queryLimit _ ids _ hs).bind Advances.refl
      fun _ _ _ _ _ => trivial

end Cycle

end TripRecorder
