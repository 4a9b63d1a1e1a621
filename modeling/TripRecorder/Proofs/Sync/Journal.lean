import TripRecorder.Proofs.Sync.Cycle

/-!
# A cycle seen from one measurement

Cycles and other clients use a store one after another, and every call is logged with its answer and
with the store it was made to. A cycle leaves a measurement alone, or hands it over once. Handing
over can fail before anything is sent, at the collector, and afterwards twice more: the points may
not be removed, or they are removed and the measurement cannot be marked.

## Main definitions

* `Journal` — a store with the log of all calls
* `Journal.Acts`, `Journal.Serves` — calls that may fail, and calls that are served
* `Journal.serve` — the answers of some surroundings
* `Journal.Adds`, `Journal.Still` — what some calls add to the log, and that they add nothing
* `Journal.uploads`, `Journal.unmarked`, `Journal.writtenTo` — what the log says
* `HandsOver` — all that handing over a measurement can come to
* `Journal.Untouched` — a measurement was left alone

## Main results

* `handsOver_of_ends` — a measurement is handed over
* `exists_seen_syncAll`, `exists_seen_syncCycle` — a cycle hands a measurement over once, or leaves
  it alone
-/

namespace TripRecorder

/-- A call with its answer, and the store when it was made. -/
structure JournalEntry where
  before : Store
  call : SyncCall
  answer : SyncAnswer call

/-- A store, and all calls that were made. -/
structure Journal where
  store : Store
  entries : List JournalEntry

/-- A request that was sent, with the store at that time and the answer of the collector. -/
structure SentRequest where
  before : Store
  request : UploadRequest
  answer : Except SyncError Outcome

namespace JournalEntry

/-- The request that was sent with a call, if it was one to send something. -/
def sent : JournalEntry → List SentRequest
  | ⟨before, .upload request, answer⟩ => [⟨before, request, answer⟩]
  | _ => []

/-- The measurement that could not be marked as synced with a call. -/
def unmarked : JournalEntry → List MeasurementId
  | ⟨_, .store (.setStatus id .synced), answer⟩ =>
    if (answer : Except StoreError Unit).isOk then [] else [id]
  | _ => []

/-- The points that were written with a call, each with its measurement. -/
def written : JournalEntry → List (MeasurementId × Point)
  | ⟨_, .store c, answer⟩ => c.written answer
  | _ => []

end JournalEntry

namespace Journal

/-- All requests that were sent, in their order. -/
def sent (j : Journal) : List SentRequest := j.entries.flatMap JournalEntry.sent

/-- The requests that were sent for a measurement. -/
def uploads (j : Journal) (id : MeasurementId) : List SentRequest :=
  j.sent.filter fun u => u.request.id = id

/-- The measurements that could not be marked as synced. -/
def unmarked (j : Journal) : List MeasurementId := j.entries.flatMap JournalEntry.unmarked

/-- All points that were ever written. -/
def written (j : Journal) : List (MeasurementId × Point) := j.entries.flatMap JournalEntry.written

/-- The points that were ever written to a table of a measurement, in the order of writing. -/
def writtenTo (j : Journal) (id : MeasurementId) (t : Table) : List Point :=
  (j.written.filter fun w => w.1 = id ∧ w.2.table = t).map fun w => w.2

/-- The store after a call of a cycle. -/
def StoreAfter (store : Store) : (c : SyncCall) → SyncAnswer c → Store → Prop
  | .store c, answer, store' => store.Answers c answer store'
  | _, _, store' => store' = store

/-- A call is answered in any way: the database may fail. -/
def Acts (c : SyncCall) (j : Journal) (answer : SyncAnswer c) (j' : Journal) : Prop :=
  StoreAfter j.store c answer j'.store ∧ j'.entries = j.entries ++ [⟨j.store, c, answer⟩]

/-- A call of the store is served. -/
def Served (store : Store) : (c : SyncCall) → SyncAnswer c → Store → Prop
  | .store c, answer, store' => answer = (store.serve c).1 ∧ store' = (store.serve c).2
  | _, _, store' => store' = store

/-- A call is answered, and the database does not fail. -/
def Serves (c : SyncCall) (j : Journal) (answer : SyncAnswer c) (j' : Journal) : Prop :=
  Served j.store c answer j'.store ∧ j'.entries = j.entries ++ [⟨j.store, c, answer⟩]

variable {j j' j'' : Journal}

theorem Serves.acts {c : SyncCall} {answer : SyncAnswer c} (h : Serves c j answer j') :
    Acts c j answer j' := by
  obtain ⟨hserved, hentries⟩ := h
  refine ⟨?_, hentries⟩
  cases c with
  | store c => exact .inl hserved
  | _ => exact hserved

theorem Acts.sent_eq {c : SyncCall} {answer : SyncAnswer c} (h : Acts c j answer j') :
    j'.sent = j.sent ++ JournalEntry.sent ⟨j.store, c, answer⟩ := by
  rw [sent, h.2, List.flatMap_append, List.flatMap_singleton, sent]

theorem Acts.unmarked_eq {c : SyncCall} {answer : SyncAnswer c} (h : Acts c j answer j') :
    j'.unmarked = j.unmarked ++ JournalEntry.unmarked ⟨j.store, c, answer⟩ := by
  rw [unmarked, h.2, List.flatMap_append, List.flatMap_singleton, unmarked]

theorem Acts.written_eq {c : SyncCall} {answer : SyncAnswer c} (h : Acts c j answer j') :
    j'.written = j.written ++ JournalEntry.written ⟨j.store, c, answer⟩ := by
  rw [written, h.2, List.flatMap_append, List.flatMap_singleton, written]

/-- No call changes what the database refuses by rule. -/
theorem Acts.rules_eq {c : SyncCall} {answer : SyncAnswer c} (h : Acts c j answer j') :
    j'.store.rules = j.store.rules := by
  cases c with
  | store c => exact Store.Answers.rules_eq h.1
  | _ => rw [show j'.store = j.store from h.1]

/-- No call spoils the store. -/
theorem Acts.wellFormed {c : SyncCall} {answer : SyncAnswer c} (h : Acts c j answer j')
    (hwell : j.store.WellFormed) : j'.store.WellFormed := by
  cases c with
  | store c => exact hwell.answers h.1
  | _ => exact (show j'.store = j.store from h.1) ▸ hwell

/-- The answers while the database does not fail. The collector knows what it was sent before. -/
def reply (env : Surroundings) (j : Journal) : (c : SyncCall) → SyncAnswer c × Store
  | .token account timeoutMs => (env.token account timeoutMs, j.store)
  | .preference key => (env.preference key, j.store)
  | .store c => j.store.serve c
  | .upload request =>
    (env.collector (j.sent.map fun u => ⟨u.request, u.answer⟩) request, j.store)

/-- Surroundings that grant access, with a collector that always has the same answer. -/
def granting (answer : Except SyncError Outcome) : Surroundings where
  token _ _ := .granted "token"
  preference _ := some "value"
  collector _ _ := answer

/-- A call is answered and logged. -/
def serve (env : Surroundings) (c : SyncCall) (j : Journal) : SyncAnswer c × Journal :=
  ((j.reply env c).1, ⟨(j.reply env c).2, j.entries ++ [⟨j.store, c, (j.reply env c).1⟩]⟩)

theorem serves_serve (env : Surroundings) (c : SyncCall) (j : Journal) :
    Serves c j (serve env c j).1 (serve env c j).2 := by
  refine ⟨?_, rfl⟩
  cases c with
  | store c => exact ⟨rfl, rfl⟩
  | _ => rfl

/-- What is done in some surroundings is a complete run. -/
theorem ends_run_serve {α : Type} (env : Surroundings) (p : Procedure SyncAnswer α) (j : Journal) :
    p.Ends Serves j (p.run (serve env) j).1 (p.run (serve env) j).2 :=
  Procedure.Ends.of_run (serves_serve env) p j

/-- What some calls of a cycle add to the journal: requests, and measurements that could not be
marked. They write no points, and keep the rules and the order of the store. -/
structure Adds (j : Journal) (sent : List SentRequest) (unmarked : List MeasurementId)
    (j' : Journal) : Prop where
  sent_eq : j'.sent = j.sent ++ sent
  unmarked_eq : j'.unmarked = j.unmarked ++ unmarked
  written_eq : j'.written = j.written
  rules_eq : j'.store.rules = j.store.rules
  wellFormed : j.store.WellFormed → j'.store.WellFormed

theorem adds_refl (j : Journal) : j.Adds [] [] j :=
  ⟨(List.append_nil _).symm, (List.append_nil _).symm, rfl, rfl, id⟩

theorem Adds.trans {sent sent' : List SentRequest} {unmarked unmarked' : List MeasurementId}
    (h : j.Adds sent unmarked j') (h' : j'.Adds sent' unmarked' j'') :
    j.Adds (sent ++ sent') (unmarked ++ unmarked') j'' where
  sent_eq := by rw [h'.sent_eq, h.sent_eq, List.append_assoc]
  unmarked_eq := by rw [h'.unmarked_eq, h.unmarked_eq, List.append_assoc]
  written_eq := h'.written_eq.trans h.written_eq
  rules_eq := h'.rules_eq.trans h.rules_eq
  wellFormed hwell := h'.wellFormed (h.wellFormed hwell)

theorem adds_call {c : SyncCall} {answer : SyncAnswer c} (h : Acts c j answer j')
    (hwritten : JournalEntry.written ⟨j.store, c, answer⟩ = []) :
    j.Adds (JournalEntry.sent ⟨j.store, c, answer⟩) (JournalEntry.unmarked ⟨j.store, c, answer⟩)
      j' :=
  ⟨h.sent_eq, h.unmarked_eq, by rw [h.written_eq, hwritten, List.append_nil], h.rules_eq,
    h.wellFormed⟩

/-- Nothing is done but asking: the store is the same, and nothing is added. -/
structure Still (j j' : Journal) : Prop where
  store_eq : j'.store = j.store
  adds : j.Adds [] [] j'

theorem still_refl (j : Journal) : j.Still j := ⟨rfl, adds_refl j⟩

theorem Still.trans (h : j.Still j') (h' : j'.Still j'') : j.Still j'' :=
  ⟨h'.store_eq.trans h.store_eq, h.adds.trans h'.adds⟩

/-- A call that changes nothing adds nothing. -/
theorem still_reads {c : StoreCall} {answer : StoreAnswer c} (h : Acts (.store c) j answer j')
    (hc : c.Reads) : j.Still j' := by
  refine ⟨Store.Answers.of_reads hc h.1, ?_⟩
  cases c with
  | create vehicle => exact hc.elim
  | setStatus id target => exact hc.elim
  | insert id points => exact hc.elim
  | clean id => exact hc.elim
  | _ => exact adds_call h rfl

end Journal

/-! ### Handing over a measurement -/

/-- All that handing over a measurement can come to, with the calls acting in some way. -/
inductive HandsOver (act : (c : SyncCall) → Journal → SyncAnswer c → Journal → Prop)
    (id : MeasurementId) (request : UploadRequest) (j : Journal) :
    Except SyncError Outcome → Journal → Prop where
  /-- It cannot be read, and nothing is sent. -/
  | unread {e j'} : j.Still j' → HandsOver act id request j (.error e) j'
  /-- The collector does not accept it. -/
  | refused {e j'} : j'.store = j.store → j.Adds [⟨j.store, request, .error e⟩] [] j' →
      HandsOver act id request j (.error e) j'
  /-- It is accepted, but its points cannot be removed. -/
  | kept {outcome e j₁ j'} : j₁.store = j.store → act (.store (.clean id)) j₁ (.error e) j' →
      j'.store = j.store → j.Adds [⟨j.store, request, .ok outcome⟩] [] j' →
      HandsOver act id request j (.error (.storage e)) j'
  /-- It is accepted and its points are removed, but it cannot be marked. -/
  | lost {outcome e j₁ j'} : j₁.store.status id = j.store.status id →
      j₁.store.rules = j.store.rules → act (.store (.setStatus id .synced)) j₁ (.error e) j' →
      (∀ i, j'.store.status i = j.store.status i) →
      (∀ i t, j'.store.rowsOf i t = if i = id then [] else j.store.rowsOf i t) →
      j.Adds [⟨j.store, request, .ok outcome⟩] [id] j' →
      HandsOver act id request j (.error (.storage e)) j'
  /-- It is accepted, emptied and marked. -/
  | settled {outcome j'} :
      (∀ i, j'.store.status i = if i = id then .ok .synced else j.store.status i) →
      (∀ i t, j'.store.rowsOf i t = if i = id then [] else j.store.rowsOf i t) →
      j.Adds [⟨j.store, request, .ok outcome⟩] [] j' →
      HandsOver act id request j (.ok outcome) j'

section Procedures

variable {act : (c : SyncCall) → Journal → SyncAnswer c → Journal → Prop} {j j' : Journal}
  {id : MeasurementId} {queryLimit : Nat}

theorem ends_onStore {α : Type} {p : Procedure StoreAnswer α} {a : α}
    (h : (onStore p).Ends act j a j') : p.Ends (fun c => act (.store c)) j a j' := by
  refine (Procedure.ends_mapCalls_iff.mp h).mono ?_
  rintro c w answer w' ⟨_, hcall, rfl⟩
  exact hcall

theorem ends_askStore {α : Type} {c : StoreCall} {read : StoreAnswer c → Except StoreError α}
    {result : Except SyncError α} (h : (askStore c read).run.Ends act j result j') :
    ∃ answer, act (.store c) j answer j' ∧
      ((∃ e, read answer = .error e ∧ result = .error (.storage e)) ∨
        ∃ a, read answer = .ok a ∧ result = .ok a) := by
  obtain ⟨answer, middle, hcall, hrest⟩ := Procedure.ends_call_iff.mp h
  cases hread : read answer with
  | error e =>
    rw [hread] at hrest
    obtain ⟨rfl, rfl⟩ := Procedure.ends_done_iff.mp hrest
    exact ⟨answer, hcall, .inl ⟨e, hread, rfl⟩⟩
  | ok a =>
    rw [hread] at hrest
    obtain ⟨rfl, rfl⟩ := Procedure.ends_done_iff.mp hrest
    exact ⟨answer, hcall, .inr ⟨a, hread, rfl⟩⟩

/-- A frame holds the image of what is stored, or there is none. -/
theorem ends_packMeasurement {result : Except SyncError (List UInt8)}
    (hwell : j.store.WellFormed)
    (h : (packMeasurement queryLimit id).run.Ends Journal.Acts j result j') :
    j.Still j' ∧
      ((∃ e, result = .error e) ∨
        result = .ok (Zlib.wrap (Transfer.image (j.store.pointsByTime id)))) := by
  obtain ⟨⟨written, bytes⟩, middle, hpack, hdone⟩ := Procedure.ends_bind_iff.mp h
  have hemits := emits_serialize (j.store.holding id True) queryLimit
  -- While the measurement is read, nothing changes, and all answers are about the same points.
  have hcalls : ∀ c middle answer last, j.Still middle →
      (j.store.holding id True).contract.allows c → Journal.Acts (.store c) middle answer last →
      (j.store.holding id True).contract.answers c answer ∧ j.Still last := by
    rintro c middle answer last hstill hallowed hcall
    have hreads : c.Reads := by cases c <;> trivial
    have hanswers := hcall.1
    rw [Journal.StoreAfter, hstill.store_eq] at hanswers
    exact ⟨Store.holding_answers hwell.queryLimit_pos hallowed hanswers,
      hstill.trans (Journal.still_reads hcall hreads)⟩
  obtain ⟨hresult, hstill⟩ := hemits.of_ends (ends_onStore hpack) hcalls (Journal.still_refl j)
  rcases hresult with heq | ⟨-, e, herror⟩
  · obtain ⟨rfl, rfl⟩ := Prod.mk.inj heq
    obtain ⟨rfl, rfl⟩ := Procedure.ends_done_iff.mp hdone
    exact ⟨hstill, .inr rfl⟩
  · obtain rfl : written = .error e := herror
    obtain ⟨rfl, rfl⟩ := Procedure.ends_done_iff.mp hdone
    exact ⟨hstill, .inl ⟨_, rfl⟩⟩

variable (hact : ∀ c j answer j', act c j answer j' → Journal.Acts c j answer j')
include hact

/-- All that settling an accepted measurement can come to: nothing is done, or it is emptied and not
marked, or both are done. -/
theorem ends_settle {outcome : Outcome} {result : Except SyncError Outcome}
    (h : (do let _ ← askStore (.clean id) fun answer => answer
             askStore (.setStatus id .synced) fun answer => answer
             return outcome : Syncing Outcome).run.Ends act j result j') :
    (∃ e, act (.store (.clean id)) j (.error e) j' ∧ result = .error (.storage e) ∧
      j'.store = j.store ∧ j.Adds [] [] j') ∨
    (∀ i t, j'.store.rowsOf i t = if i = id then [] else j.store.rowsOf i t) ∧
      ((∃ e j₁, j₁.store.status id = j.store.status id ∧ j₁.store.rules = j.store.rules ∧
          act (.store (.setStatus id .synced)) j₁ (.error e) j' ∧ result = .error (.storage e) ∧
          (∀ i, j'.store.status i = j.store.status i) ∧ j.Adds [] [id] j') ∨
        (result = .ok outcome ∧
          (∀ i, j'.store.status i = if i = id then .ok .synced else j.store.status i) ∧
          j.Adds [] [] j')) := by
  rcases Procedure.ends_bind_except_iff.mp h with ⟨e, hclean, rfl⟩ | ⟨n, j₁, hclean, hrest⟩
  · obtain ⟨answer, hcall, ⟨e', rfl, herror⟩ | ⟨n, -, hok⟩⟩ := ends_askStore hclean
    · obtain rfl := Except.error.inj herror
      have hpurge := hact _ _ _ _ hcall
      rcases Store.Answers.rows_of_clean hpurge.1 with ⟨-, -, hsame⟩ | ⟨n, hok, -⟩
      · exact .inl ⟨e', hcall, rfl, hsame, Journal.adds_call hpurge rfl⟩
      · cases hok
    · cases hok
  obtain ⟨answer, hcall, ⟨e, -, herror⟩ | ⟨n', rfl, -⟩⟩ := ends_askStore hclean
  · cases herror
  have hpurge := hact _ _ _ _ hcall
  have hadds := Journal.adds_call hpurge rfl
  rcases Store.Answers.rows_of_clean hpurge.1 with ⟨e, herror, -⟩ | ⟨-, -, hentries, hrows⟩
  · cases herror
  -- The points are removed. Whether the measurement can be marked or not, they stay removed.
  have hstatus (i : MeasurementId) : j₁.store.status i = j.store.status i :=
    Store.status_congr hentries i
  rcases Procedure.ends_bind_except_iff.mp hrest with ⟨e, hmark, rfl⟩ | ⟨u, j₂, hmark, hrest⟩
  · obtain ⟨answer, hcall, ⟨e', rfl, herror⟩ | ⟨u, -, hok⟩⟩ := ends_askStore hmark
    · obtain rfl := Except.error.inj herror
      have hmarked := hact _ _ _ _ hcall
      rcases Store.Answers.of_setStatus hmarked.1 with ⟨-, -, hsame⟩ | ⟨hok, -⟩
      · rw [hsame]
        exact .inr ⟨hrows, .inl ⟨e', j₁, hstatus id, hadds.rules_eq, hcall, rfl, hstatus,
          hadds.trans (Journal.adds_call hmarked rfl)⟩⟩
      · cases hok
    · cases hok
  · obtain ⟨answer, hcall, ⟨e, -, herror⟩ | ⟨u', rfl, -⟩⟩ := ends_askStore hmark
    · cases herror
    obtain ⟨rfl, rfl⟩ := Procedure.ends_done_iff.mp hrest
    have hmarked := hact _ _ _ _ hcall
    rcases Store.Answers.of_setStatus hmarked.1 with ⟨e, herror, -⟩ | ⟨-, -, hnew, -⟩
    · cases herror
    refine .inr ⟨fun i t => ?_, .inr ⟨rfl, fun i => ?_,
      hadds.trans (Journal.adds_call hmarked rfl)⟩⟩
    · rw [Store.Answers.rows_of_setStatus hmarked.1, hrows]
    · rw [hnew, hstatus]

/-- A measurement is handed over with a frame of what is stored. -/
theorem handsOver_of_ends {access : SyncAccess} {result : Except SyncError Outcome}
    (hwell : j.store.WellFormed)
    (h : (syncMeasurement queryLimit access id).run.Ends act j result j') :
    HandsOver act id (access.request j.store id) j result j' := by
  rcases Procedure.ends_bind_except_iff.mp h with ⟨e, hpack, rfl⟩ | ⟨body, j₁, hpack, hrest⟩
  · exact .unread (ends_packMeasurement hwell (hpack.mono hact)).1
  obtain ⟨⟨hsame₁, hadds₁⟩, ⟨e, herror⟩ | hbody⟩ := ends_packMeasurement hwell (hpack.mono hact)
  · cases herror
  obtain rfl := Except.ok.inj hbody
  -- The request is the one for the measurement as it is stored, whatever is answered.
  have hupload {answer : Except SyncError Outcome} {j₂ : Journal}
      (hcall : act (.upload (access.request j.store id)) j₁ answer j₂) :
      j₂.store = j.store ∧ j.Adds [⟨j.store, access.request j.store id, answer⟩] [] j₂ := by
    have hsend := hact _ _ _ _ hcall
    have hadds : j.Adds [⟨j₁.store, access.request j.store id, answer⟩] [] j₂ :=
      hadds₁.trans (Journal.adds_call hsend rfl)
    rw [hsame₁] at hadds
    exact ⟨(show j₂.store = j₁.store from hsend.1).trans hsame₁, hadds⟩
  rcases Procedure.ends_bind_except_iff.mp hrest with ⟨e, hsend, rfl⟩ |
    ⟨outcome, j₂, hsend, hrest⟩
  · obtain ⟨answer, j₂, hcall, hdone⟩ := Procedure.ends_call_iff.mp hsend
    obtain ⟨rfl, rfl⟩ := Procedure.ends_done_iff.mp hdone
    obtain ⟨hsame₂, hadds₂⟩ := hupload hcall
    exact .refused hsame₂ hadds₂
  · obtain ⟨answer, j₂', hcall, hdone⟩ := Procedure.ends_call_iff.mp hsend
    obtain ⟨rfl, rfl⟩ := Procedure.ends_done_iff.mp hdone
    obtain ⟨hsame₂, hadds₂⟩ := hupload hcall
    have hsettle := ends_settle hact hrest
    rw [hsame₂] at hsettle
    rcases hsettle with ⟨e, hclean, rfl, hsame, hadds⟩ | ⟨hrows,
      ⟨e, j₃, hstatus₃, hrules₃, hmark, rfl, hstatus, hadds⟩ | ⟨rfl, hstatus, hadds⟩⟩
    · exact .kept hsame₂ hclean hsame (hadds₂.trans hadds)
    · exact .lost hstatus₃ hrules₃ hmark hstatus hrows (hadds₂.trans hadds)
    · exact .settled hstatus hrows (hadds₂.trans hadds)

end Procedures

/-! ### One measurement among others -/

namespace Journal

variable {i : MeasurementId} {j j' j'' : Journal} {sent : List SentRequest}
  {unmarked : List MeasurementId}

theorem Adds.uploads_eq (h : j.Adds sent unmarked j') (i : MeasurementId) :
    j'.uploads i = j.uploads i ++ sent.filter fun u => u.request.id = i := by
  rw [uploads, h.sent_eq, List.filter_append, uploads]

theorem Adds.writtenTo_eq (h : j.Adds sent unmarked j') (i : MeasurementId) (t : Table) :
    j'.writtenTo i t = j.writtenTo i t := by
  rw [writtenTo, h.written_eq, writtenTo]

/-- A measurement was left alone: it is stored as it was, nothing was sent for it, and it was not
to be marked. -/
structure Untouched (j : Journal) (i : MeasurementId) (j' : Journal) : Prop where
  status_eq : j'.store.status i = j.store.status i
  rowsOf_eq : ∀ t, j'.store.rowsOf i t = j.store.rowsOf i t
  exists_adds : ∃ sent unmarked, j.Adds sent unmarked j' ∧ (∀ u ∈ sent, u.request.id ≠ i) ∧
    i ∉ unmarked

theorem Still.untouched (h : j.Still j') (i : MeasurementId) : j.Untouched i j' :=
  ⟨by rw [h.store_eq], fun t => by rw [h.store_eq], [], [], h.adds,
    List.forall_mem_nil _, List.not_mem_nil⟩

theorem untouched_refl (j : Journal) (i : MeasurementId) : j.Untouched i j :=
  (still_refl j).untouched i

theorem Untouched.trans (h : j.Untouched i j') (h' : j'.Untouched i j'') : j.Untouched i j'' := by
  obtain ⟨sent, unmarked, hadds, hsent, hunmarked⟩ := h.exists_adds
  obtain ⟨sent', unmarked', hadds', hsent', hunmarked'⟩ := h'.exists_adds
  refine ⟨h'.status_eq.trans h.status_eq, fun t => (h'.rowsOf_eq t).trans (h.rowsOf_eq t),
    _, _, hadds.trans hadds', fun u hu => ?_, fun hi => ?_⟩
  · exact (List.mem_append.mp hu).elim (hsent u) (hsent' u)
  · exact (List.mem_append.mp hi).elim hunmarked hunmarked'

theorem Untouched.pointsByTime_eq (h : j.Untouched i j') :
    j'.store.pointsByTime i = j.store.pointsByTime i :=
  Store.pointsByTime_congr h.rowsOf_eq

theorem Untouched.uploads_eq (h : j.Untouched i j') : j'.uploads i = j.uploads i := by
  obtain ⟨sent, unmarked, hadds, hsent, -⟩ := h.exists_adds
  have hnone : (sent.filter fun u => u.request.id = i) = [] :=
    List.filter_eq_nil_iff.mpr fun u hu => by simpa using hsent u hu
  rw [hadds.uploads_eq, hnone, List.append_nil]

theorem Untouched.wellFormed (h : j.Untouched i j') (hwell : j.store.WellFormed) :
    j'.store.WellFormed := by
  obtain ⟨sent, unmarked, hadds, -⟩ := h.exists_adds
  exact hadds.wellFormed hwell

theorem Untouched.mem_unmarked_iff (h : j.Untouched i j') : i ∈ j'.unmarked ↔ i ∈ j.unmarked := by
  obtain ⟨sent, unmarked, hadds, -, hunmarked⟩ := h.exists_adds
  rw [hadds.unmarked_eq, List.mem_append]
  exact or_iff_left hunmarked

end Journal

/-- Some calls of a cycle seen from one measurement: it is left alone, or it is handed over once
with some result. -/
inductive Seen (act : (c : SyncCall) → Journal → SyncAnswer c → Journal → Prop)
    (i : MeasurementId) (j : Journal) : Option (Except SyncError Outcome) → Journal → Prop where
  | untouched {j'} : j.Untouched i j' → Seen act i j none j'
  | handed {access : SyncAccess} {j₁ result j₂ j'} : j.Untouched i j₁ →
      HandsOver act i (access.request j₁.store i) j₁ result j₂ → j₂.Untouched i j' →
      Seen act i j (some result) j'

section Cycle

variable {act : (c : SyncCall) → Journal → SyncAnswer c → Journal → Prop} {j j₁ j' : Journal}
  {id i : MeasurementId} {request : UploadRequest} {result : Except SyncError Outcome}
  {queryLimit : Nat} {access : SyncAccess}

theorem HandsOver.exists_adds (h : HandsOver act id request j result j') :
    ∃ sent unmarked, j.Adds sent unmarked j' ∧ (∀ u ∈ sent, u.request = request) ∧
      ∀ i ∈ unmarked, i = id := by
  cases h with
  | unread hstill => exact ⟨_, _, hstill.adds, List.forall_mem_nil _, List.forall_mem_nil _⟩
  | lost _ _ _ _ _ hadds => exact ⟨_, _, hadds, by simp, by simp⟩
  | refused _ hadds => exact ⟨_, _, hadds, by simp, List.forall_mem_nil _⟩
  | kept _ _ _ hadds => exact ⟨_, _, hadds, by simp, List.forall_mem_nil _⟩
  | settled _ _ hadds => exact ⟨_, _, hadds, by simp, List.forall_mem_nil _⟩

theorem HandsOver.wellFormed (h : HandsOver act id request j result j')
    (hwell : j.store.WellFormed) : j'.store.WellFormed := by
  obtain ⟨sent, unmarked, hadds, -⟩ := h.exists_adds
  exact hadds.wellFormed hwell

/-- Handing over a measurement leaves all others alone. -/
theorem HandsOver.untouched (h : HandsOver act id request j result j') (hid : request.id = id)
    (hi : i ≠ id) : j.Untouched i j' := by
  obtain ⟨sent, unmarked, hadds, hsent, hunmarked⟩ := h.exists_adds
  have hstored : j'.store.status i = j.store.status i ∧
      ∀ t, j'.store.rowsOf i t = j.store.rowsOf i t := by
    cases h with
    | unread hstill => exact ⟨by rw [hstill.store_eq], fun t => by rw [hstill.store_eq]⟩
    | refused hsame => exact ⟨by rw [hsame], fun t => by rw [hsame]⟩
    | kept _ _ hsame => exact ⟨by rw [hsame], fun t => by rw [hsame]⟩
    | lost _ _ _ hstatus hrows => exact ⟨hstatus i, fun t => by rw [hrows, if_neg hi]⟩
    | settled hstatus hrows =>
      exact ⟨by rw [hstatus, if_neg hi], fun t => by rw [hrows, if_neg hi]⟩
  refine ⟨hstored.1, hstored.2, sent, unmarked, hadds, fun u hu => ?_, fun hmem => ?_⟩
  · rw [hsent u hu, hid]
    exact hi.symm
  · exact hi (hunmarked i hmem)

theorem Seen.wellFormed {handed : Option (Except SyncError Outcome)} (h : Seen act i j handed j')
    (hwell : j.store.WellFormed) : j'.store.WellFormed := by
  cases h with
  | untouched hall => exact hall.wellFormed hwell
  | handed hbefore hover hafter =>
    exact hafter.wellFormed (hover.wellFormed (hbefore.wellFormed hwell))

theorem Seen.prepend {handed : Option (Except SyncError Outcome)} (h : Seen act i j₁ handed j')
    (hfirst : j.Untouched i j₁) : Seen act i j handed j' := by
  cases h with
  | untouched hrest => exact .untouched (hfirst.trans hrest)
  | handed hbefore hover hafter => exact .handed (hfirst.trans hbefore) hover hafter

/-- The calls with which a cycle asks for access. -/
def SyncCall.Asking : SyncCall → Prop
  | .token _ _ => True
  | .preference _ => True
  | _ => False

theorem asks_askToken (account : String) (timeoutMs : Nat) :
    (askToken account timeoutMs).run.Asks SyncCall.Asking :=
  ⟨trivial, fun answer => by cases answer <;> trivial⟩

theorem asks_askPreference (key : String) (missing : SyncError) :
    (askPreference key missing).run.Asks SyncCall.Asking :=
  ⟨trivial, fun answer => by cases answer <;> trivial⟩

variable (hact : ∀ c j answer j', act c j answer j' → Journal.Acts c j answer j')
include hact

/-- Seen from one measurement, it is handed over at most once, and it ends the cycle exactly if this
fails. -/
theorem exists_seen_syncAll {ids : List MeasurementId} {done report : SyncReport}
    (hids : ids.Nodup) (hwell : j.store.WellFormed) (hdone : done.aborted = none)
    (h : (syncAll queryLimit access done ids).Ends act j report j') (i : MeasurementId) :
    ∃ handed, Seen act i j handed j' ∧ (handed ≠ none → i ∈ ids) ∧
      ∀ e, report.aborted = some (i, e) ↔ handed = some (.error e) := by
  induction ids generalizing j done with
  | nil =>
    obtain ⟨rfl, rfl⟩ := Procedure.ends_done_iff.mp h
    exact ⟨none, .untouched (Journal.untouched_refl _ i), fun hne => absurd rfl hne,
      fun e => by simp [hdone]⟩
  | cons id rest ih =>
    obtain ⟨result, j₁, hfirst, hrest⟩ := Procedure.ends_bind_iff.mp h
    have hover := handsOver_of_ends hact hwell hfirst
    obtain ⟨hid, hnodup⟩ := List.nodup_cons.mp hids
    cases result with
    | error e =>
      -- The cycle ends here, and the later measurements are left alone.
      obtain ⟨rfl, rfl⟩ := Procedure.ends_done_iff.mp hrest
      by_cases hi : i = id
      · subst hi
        exact ⟨some (.error e), .handed (Journal.untouched_refl j i) hover
          (Journal.untouched_refl _ i), fun _ => List.mem_cons_self, fun e' => by simp⟩
      · exact ⟨none, .untouched (hover.untouched rfl hi), fun hne => absurd rfl hne,
          fun e' => by simp [Ne.symm hi]⟩
    | ok outcome =>
      -- The report goes on without an abort, whether the collector had the measurement or not.
      obtain ⟨done', hdone', hrest⟩ : ∃ done' : SyncReport, done'.aborted = none ∧
          (syncAll queryLimit access done' rest).Ends act j₁ report j' := by
        cases outcome with
        | created => exact ⟨{ done with synced := done.synced ++ [id] }, hdone, hrest⟩
        | alreadyPresent =>
          exact ⟨{ done with synced := done.synced ++ [id]
                             alreadyPresent := done.alreadyPresent ++ [id] }, hdone, hrest⟩
      obtain ⟨handed, hseen, hmem, haborted⟩ :=
        ih hnodup (hover.wellFormed hwell) hdone' hrest
      by_cases hi : i = id
      · -- Every measurement is listed once, so its turn does not come again.
        subst hi
        obtain rfl : handed = none := by
          by_contra hne
          exact hid (hmem hne)
        cases hseen with
        | untouched hafter =>
          refine ⟨some (.ok outcome), .handed (Journal.untouched_refl j i) hover hafter,
            fun _ => List.mem_cons_self, fun e => ?_⟩
          rw [haborted]
          simp
      · exact ⟨handed, hseen.prepend (hover.untouched rfl hi),
          fun hne => List.mem_cons_of_mem _ (hmem hne), haborted⟩

theorem still_of_asking {α : Type} {p : Procedure SyncAnswer α} {a : α}
    (hp : p.Asks SyncCall.Asking) (h : p.Ends act j a j') : j.Still j' := by
  refine h.of_asks hp Journal.still_refl Journal.Still.trans fun c j answer j' hc hcall => ?_
  have hacts := hact _ _ _ _ hcall
  cases c with
  | token account timeoutMs => exact ⟨hacts.1, Journal.adds_call hacts rfl⟩
  | preference key => exact ⟨hacts.1, Journal.adds_call hacts rfl⟩
  | _ => exact hc.elim

/-- What comes after asking is done in the same store, or it is not done at all. -/
theorem ends_bind_asking {α β : Type} {x : Syncing α} {f : α → Syncing β}
    {result : Except SyncError β}
    (hx : x.run.Asks SyncCall.Asking) (h : (x >>= f).run.Ends act j result j') :
    ((∃ e, result = .error e) ∧ j.Still j') ∨
      ∃ a j₁, j.Still j₁ ∧ (f a).run.Ends act j₁ result j' := by
  rcases Procedure.ends_bind_except_iff.mp h with ⟨e, hfail, rfl⟩ | ⟨a, j₁, hask, hrest⟩
  · exact .inl ⟨⟨e, rfl⟩, still_of_asking hact hx hfail⟩
  · exact .inr ⟨a, j₁, still_of_asking hact hx hask, hrest⟩

/-- A cycle ends without access or without a list of measurements, or it goes through the list. -/
theorem ends_syncCycle {timeoutMs : Nat} {account : String} {result : Except SyncError SyncReport}
    (h : (syncCycle queryLimit timeoutMs account).Ends act j result j') :
    ((∃ e, result = .error e) ∧ j.Still j') ∨
    ∃ access j₁ report, j.Still j₁ ∧ result = .ok report ∧
      (syncAll queryLimit access ⟨[], [], none⟩ j.store.syncable).Ends act j₁ report j' := by
  rcases ends_bind_asking hact (asks_askToken _ _) h with hfail | ⟨token, j₁, hstill₁, h⟩
  · exact .inl hfail
  rcases ends_bind_asking hact (asks_askPreference _ _) h with
    ⟨he, hfail⟩ | ⟨endpoint, j₂, hstill₂, h⟩
  · exact .inl ⟨he, hstill₁.trans hfail⟩
  rcases ends_bind_asking hact (asks_askPreference _ _) h with
    ⟨he, hfail⟩ | ⟨device, j₃, hstill₃, h⟩
  · exact .inl ⟨he, (hstill₁.trans hstill₂).trans hfail⟩
  have hstill := (hstill₁.trans hstill₂).trans hstill₃
  rcases Procedure.ends_bind_except_iff.mp h with ⟨e, hfail, rfl⟩ | ⟨ids, j₄, hlist, h⟩
  · obtain ⟨answer, hcall, -⟩ := ends_askStore hfail
    exact .inl ⟨⟨e, rfl⟩, hstill.trans (Journal.still_reads (hact _ _ _ _ hcall) trivial)⟩
  · obtain ⟨answer, hcall, ⟨e, -, herror⟩ | ⟨ids', rfl, hok⟩⟩ := ends_askStore hlist
    · cases herror
    obtain rfl := Except.ok.inj hok
    have hacts := hact _ _ _ _ hcall
    -- A list that was answered is the one of the store.
    obtain rfl : ids = j.store.syncable := by
      rcases hacts.1 with ⟨hserved, -⟩ | ⟨detail, hfailed, -⟩
      · rw [← hstill.store_eq]
        exact Except.ok.inj hserved
      · cases hfailed
    obtain ⟨report, hall, rfl⟩ := Procedure.ends_bind_done_iff.mp h
    exact .inr ⟨⟨token, endpoint, device⟩, j₄, report,
      hstill.trans (Journal.still_reads hacts trivial), rfl, hall⟩

/-- Seen from one measurement, a cycle hands it over at most once, only if it is finished, and ends
with it exactly if this fails. -/
theorem exists_seen_syncCycle {timeoutMs : Nat} {account : String}
    {result : Except SyncError SyncReport}
    (hwell : j.store.WellFormed)
    (h : (syncCycle queryLimit timeoutMs account).Ends act j result j') (i : MeasurementId) :
    ∃ handed, Seen act i j handed j' ∧ (handed ≠ none → j.store.status i = .ok .finished) ∧
      ∀ report e, result = .ok report →
        (report.aborted = some (i, e) ↔ handed = some (.error e)) := by
  rcases ends_syncCycle hact h with ⟨⟨e, rfl⟩, hstill⟩ | ⟨access, j₁, report, hstill, rfl, hall⟩
  · exact ⟨none, .untouched (hstill.untouched i), fun hne => absurd rfl hne, nofun⟩
  · have hnodup : j.store.syncable.Nodup :=
      List.Nodup.of_map _ (hwell.syncable_ascending.imp Nat.ne_of_lt)
    obtain ⟨handed, hseen, hmem, haborted⟩ :=
      exists_seen_syncAll hact hnodup (hstill.adds.wellFormed hwell) rfl hall i
    refine ⟨handed, hseen.prepend (hstill.untouched i),
      fun hne => hwell.mem_syncable_iff.mp (hmem hne), fun report' e heq => ?_⟩
    obtain rfl := Except.ok.inj heq
    exact haborted e

end Cycle

end TripRecorder
