import TripRecorder.Proofs.Sync.Journal

/-!
# Measurements through many cycles

Clients create measurements, add points and move measurements forward, and cycles send what is
finished, again and again until it is accepted. As long as the database does not fail, a measurement
is always sent with all points that were ever written to it, and nothing is sent after it was
accepted.

## Main definitions

* `History` — what clients and cycles do to a store, one after another
* `Journal.Grows` — a measurement goes on, and is not sent
* `Journal.Orderly` — a measurement was sent only as a whole, and not again once it was accepted

## Main results

* `Journal.Grows.orderly`, `HandsOver.orderly` — what a step keeps
* `History.accepted_once` — what a history keeps
-/

namespace TripRecorder

/-- The calls that a client makes as they are: all but those that add or remove points. -/
def StoreCall.Direct : StoreCall → Prop
  | .insert _ _ | .clean _ => False
  | _ => True

/-- What clients and cycles do to a store, one after another, while the database does not fail. -/
inductive History (first : Journal) : Journal → Prop where
  | nil : History first first
  | call {j c answer j'} : History first j → StoreCall.Direct c →
      Journal.Serves (.store c) j answer j' → History first j'
  | append {j batchLimit id points result j'} : History first j →
      (onStore (appendPoints batchLimit id points)).Ends Journal.Serves j result j' →
      History first j'
  | cycle {j queryLimit timeoutMs account result j'} : History first j →
      (syncCycle queryLimit timeoutMs account).Ends Journal.Serves j result j' → History first j'

namespace Journal

/-- The measurement is finished or synced. -/
def Closed (j : Journal) (id : MeasurementId) : Prop :=
  j.store.status id = .ok .finished ∨ j.store.status id = .ok .synced

/-- The store is well-formed and refuses nothing by rule. -/
structure Regular (j : Journal) : Prop where
  wellFormed : j.store.WellFormed
  rules_eq : j.store.rules = Rules.none

/-- A measurement goes on, and is not sent: it never moves back, whatever is written to it is
stored, and nothing is written once it is closed. -/
structure Grows (j : Journal) (id : MeasurementId) (j' : Journal) : Prop where
  uploads_eq : j'.uploads id = j.uploads id
  forward : ∀ status, j.store.status id = .ok status →
    ∃ status', j'.store.status id = .ok status' ∧ status.canBecome status' = true
  writtenTo_eq : j.Closed id → ∀ t, j'.writtenTo id t = j.writtenTo id t
  exists_added : ∀ t, ∃ added, j'.store.points id t = j.store.points id t ++ added ∧
    j'.writtenTo id t = j.writtenTo id t ++ added

/-- A measurement was sent only while it was finished, and each time as a whole. Unless it is
synced, all that was ever written to it is stored. Nothing was sent after it was accepted. -/
structure Orderly (j : Journal) (id : MeasurementId) : Prop where
  sent : ∀ u ∈ j.uploads id, u.before.status id = .ok .finished ∧
    Zlib.unwrap? u.request.body = some (Transfer.image fun t => byTime (j.writtenTo id t))
  closed : j.uploads id ≠ [] → j.Closed id
  pending : j.store.status id ≠ .ok .synced →
    (∀ t, j.store.points id t = j.writtenTo id t) ∧ ∀ u ∈ j.uploads id, u.answer.isOk = false
  refused : ∀ u ∈ (j.uploads id).dropLast, u.answer.isOk = false

variable {j j' j'' : Journal} {id i : MeasurementId}

theorem Regular.of_ends {α : Type} {p : Procedure SyncAnswer α} {a : α} (h : j.Regular)
    (hends : p.Ends Serves j a j') : j'.Regular := by
  induction hends with
  | done a j => exact h
  | call hcall _ ih =>
    exact ih ⟨hcall.acts.wellFormed h.wellFormed, hcall.acts.rules_eq.trans h.rules_eq⟩

/-- Of all requests for the measurement, only the last one can be accepted. -/
theorem Orderly.countP_le_one (h : j.Orderly id) :
    (j.uploads id).countP (fun u => u.answer.isOk) ≤ 1 := by
  rcases List.eq_nil_or_concat' (j.uploads id) with hnone | ⟨earlier, last, huploads⟩
  · rw [hnone, List.countP_nil]
    exact Nat.zero_le 1
  · have hrefused := h.refused
    rw [huploads, List.dropLast_concat] at hrefused
    rw [huploads, List.countP_append, List.countP_eq_zero.mpr (by simpa using hrefused),
      Nat.zero_add]
    exact List.countP_le_length

theorem Orderly.eq_nil_of_accepted {earlier later : List SentRequest} {u : SentRequest}
    (h : j.Orderly id) (huploads : j.uploads id = earlier ++ u :: later)
    (haccepted : u.answer.isOk) : later = [] := by
  by_contra hne
  have hmem : u ∈ (j.uploads id).dropLast := by
    rw [huploads, List.dropLast_append_of_ne_nil (List.cons_ne_nil _ _),
      List.dropLast_cons_of_ne_nil hne]
    exact List.mem_append_right _ List.mem_cons_self
  rw [h.refused u hmem] at haccepted
  cases haccepted

/-! ### Steps that send nothing -/

theorem Grows.synced (h : j.Grows id j') (hs : j.store.status id = .ok .synced) :
    j'.store.status id = .ok .synced := by
  obtain ⟨status, hstatus, hcan⟩ := h.forward _ hs
  cases status <;> first | exact hstatus | cases hcan

theorem Grows.closed (h : j.Grows id j') (hclosed : j.Closed id) : j'.Closed id := by
  rcases hclosed with hs | hs
  · obtain ⟨status, hstatus, hcan⟩ := h.forward _ hs
    cases status <;> first | exact .inl hstatus | exact .inr hstatus | cases hcan
  · exact .inr (h.synced hs)

theorem Grows.trans (h : j.Grows id j') (h' : j'.Grows id j'') : j.Grows id j'' where
  uploads_eq := h'.uploads_eq.trans h.uploads_eq
  forward status hs := by
    obtain ⟨status', hs', hcan⟩ := h.forward status hs
    obtain ⟨status'', hs'', hcan'⟩ := h'.forward status' hs'
    exact ⟨status'', hs'', MeasurementStatus.canBecome_trans hcan hcan'⟩
  writtenTo_eq hclosed t :=
    (h'.writtenTo_eq (h.closed hclosed) t).trans (h.writtenTo_eq hclosed t)
  exists_added t := by
    obtain ⟨added, hpoints, hwritten⟩ := h.exists_added t
    obtain ⟨added', hpoints', hwritten'⟩ := h'.exists_added t
    refine ⟨added ++ added', ?_, ?_⟩
    · rw [hpoints', hpoints, List.append_assoc]
    · rw [hwritten', hwritten, List.append_assoc]

/-- Nothing is sent or written, and the measurement may move forward. -/
theorem grows_of_adds {unmarked : List MeasurementId} (h : j.Adds [] unmarked j')
    (hpoints : ∀ t, j'.store.points id t = j.store.points id t)
    (hforward : ∀ status, j.store.status id = .ok status →
      ∃ status', j'.store.status id = .ok status' ∧ status.canBecome status' = true) :
    j.Grows id j' where
  uploads_eq := by rw [h.uploads_eq, List.filter_nil, List.append_nil]
  forward := hforward
  writtenTo_eq _ := h.writtenTo_eq id
  exists_added t := ⟨[], by rw [hpoints, List.append_nil], by rw [h.writtenTo_eq, List.append_nil]⟩

theorem grows_of_same {unmarked : List MeasurementId} (hsame : j'.store = j.store)
    (h : j.Adds [] unmarked j') (id : MeasurementId) : j.Grows id j' :=
  grows_of_adds h (fun _ => by rw [hsame])
    fun status hs => ⟨status, by rw [hsame, hs], status.canBecome_refl⟩

theorem grows_refl (j : Journal) (id : MeasurementId) : j.Grows id j :=
  grows_of_same rfl (adds_refl j) id

theorem Untouched.grows (h : j.Untouched id j') : j.Grows id j' := by
  obtain ⟨sent, unmarked, hadds, -⟩ := h.exists_adds
  refine ⟨h.uploads_eq, fun status hs => ⟨status, h.status_eq.trans hs, status.canBecome_refl⟩,
    fun _ => hadds.writtenTo_eq id, fun t => ⟨[], ?_, ?_⟩⟩
  · rw [Store.points, h.rowsOf_eq, Store.points, List.append_nil]
  · rw [hadds.writtenTo_eq, List.append_nil]

/-- A client that adds or removes no points lets all measurements go on. -/
theorem grows_call {c : StoreCall} {answer : StoreAnswer c} (hc : c.Direct)
    (h : Serves (.store c) j answer j') (i : MeasurementId) : j.Grows i j' := by
  have hstore : j.store.Answers c answer j'.store := h.acts.1
  cases c with
  | insert id ps => exact hc.elim
  | clean id => exact hc.elim
  | create vehicle =>
    have hadds := adds_call h.acts rfl
    rcases hstore.of_create with ⟨e, -, hsame⟩ | ⟨-, hstatus, hpoints⟩
    · exact grows_of_same hsame hadds i
    · refine grows_of_adds hadds (hpoints i) fun status hs => ⟨status, ?_, status.canBecome_refl⟩
      -- The new identifier had no status.
      rw [hstatus, if_neg, hs]
      rintro rfl
      rw [Store.status_nextId] at hs
      cases hs
  | setStatus id target =>
    have hadds := adds_call h.acts rfl
    rcases hstore.of_setStatus with ⟨e, -, hsame⟩ |
      ⟨-, ⟨current, hcurrent, hcan⟩, hstatus, hpoints⟩
    · exact grows_of_same hsame hadds i
    · refine grows_of_adds hadds (hpoints i) fun status hs => ?_
      by_cases hi : i = id
      · subst hi
        obtain rfl := Except.ok.inj (hs.symm.trans hcurrent)
        exact ⟨target, by rw [hstatus, if_pos rfl], hcan⟩
      · exact ⟨status, by rw [hstatus, if_neg hi, hs], status.canBecome_refl⟩
  | _ => exact ((still_reads h.acts trivial).untouched i).grows

/-- Points are written to an open measurement. -/
theorem grows_insert {ps : List Point} {answer : Except String Unit}
    (hopen : j.store.status id = .ok .opened) (h : Serves (.store (.insert id ps)) j answer j') :
    j'.store.status id = .ok .opened ∧ ∀ i, j.Grows i j' := by
  rcases Store.Answers.of_insert h.acts.1 with ⟨e, rfl, hsame⟩ | ⟨rfl, hentries, hpoints⟩
  · exact ⟨by rwa [hsame], grows_of_same hsame (adds_call h.acts rfl)⟩
  · have hstatus (i : MeasurementId) : j'.store.status i = j.store.status i :=
      Store.status_congr hentries i
    have hsent : j'.sent = j.sent := h.acts.sent_eq.trans (List.append_nil _)
    have hwritten (i : MeasurementId) (t : Table) :
        j'.writtenTo i t = j.writtenTo i t ++ if id = i then keptIn t ps else [] := by
      rw [writtenTo, h.acts.written_eq, List.filter_append, List.map_append, writtenTo]
      exact congrArg (_ ++ ·) (StoreCall.written_insert id ps i t)
    refine ⟨(hstatus id).trans hopen, fun i => ⟨?_, ?_, ?_, ?_⟩⟩
    · rw [uploads, hsent, uploads]
    · exact fun status hs => ⟨status, (hstatus i).trans hs, status.canBecome_refl⟩
    · -- Points were added to an open measurement, so a closed one is another.
      intro hclosed t
      have hne : id ≠ i := by
        rintro rfl
        rw [Closed, hopen] at hclosed
        rcases hclosed with hclosed | hclosed <;> cases hclosed
      rw [hwritten, if_neg hne, List.append_nil]
    · exact fun t => ⟨_, hpoints i t, hwritten i t⟩

theorem grows_writeBatches {batches : List (List Point)} {done : AppendReport}
    {result : Except StoreError AppendReport} (hopen : j.store.status id = .ok .opened)
    (h : (writeBatches id done batches).Ends (fun c => Serves (.store c)) j result j')
    (i : MeasurementId) : j.Grows i j' := by
  induction batches generalizing done j with
  | nil =>
    obtain ⟨-, rfl⟩ := Procedure.ends_done_iff.mp h
    exact grows_refl _ i
  | cons batch rest ih =>
    obtain ⟨answer, middle, hcall, hnext⟩ := Procedure.ends_call_iff.mp h
    -- The measurement is still open after a batch, since only points were added.
    obtain ⟨hopen', hgrows⟩ := grows_insert hopen hcall
    cases answer with
    | error e =>
      obtain ⟨-, rfl⟩ := Procedure.ends_done_iff.mp hnext
      exact hgrows i
    | ok u => exact (hgrows i).trans (ih hopen' hnext)

/-- A client that adds points lets all measurements go on. -/
theorem grows_appendPoints {batchLimit : Nat} {points : List Point}
    {result : Except StoreError AppendReport}
    (h : (appendPoints batchLimit id points).Ends (fun c => Serves (.store c)) j result j')
    (i : MeasurementId) : j.Grows i j' := by
  unfold appendPoints at h
  split at h
  · obtain ⟨-, rfl⟩ := Procedure.ends_done_iff.mp h
    exact grows_refl _ i
  · obtain ⟨answer, middle, hcall, hnext⟩ := Procedure.ends_call_iff.mp h
    obtain ⟨hanswer, hsame⟩ := hcall.1
    have hlooked : j.Grows i middle := ((still_reads hcall.acts trivial).untouched i).grows
    cases answer with
    | error e =>
      obtain ⟨-, rfl⟩ := Procedure.ends_done_iff.mp hnext
      exact hlooked
    | ok status =>
      simp only at hnext
      split at hnext
      · rename_i hopen
        have hopen' : middle.store.status id = .ok .opened := by
          rw [hsame, ← hopen]
          exact hanswer.symm
        exact hlooked.trans (grows_writeBatches hopen' hnext i)
      · obtain ⟨-, rfl⟩ := Procedure.ends_done_iff.mp hnext
        exact hlooked

/-- A measurement that goes on was still sent only as a whole. -/
theorem Grows.orderly (h : j.Grows id j') (horderly : j.Orderly id) : j'.Orderly id where
  sent u hu := by
    rw [h.uploads_eq] at hu
    obtain ⟨hfinished, hbody⟩ := horderly.sent u hu
    -- It was sent, so it is closed, and nothing was written since.
    have hwritten := h.writtenTo_eq (horderly.closed (List.ne_nil_of_mem hu))
    exact ⟨hfinished, by rw [hbody, funext hwritten]⟩
  closed hne := h.closed (horderly.closed (h.uploads_eq ▸ hne))
  pending hne := by
    obtain ⟨hkept, hrefused⟩ := horderly.pending (mt h.synced hne)
    refine ⟨fun t => ?_, by rwa [h.uploads_eq]⟩
    obtain ⟨added, hpoints, hwritten⟩ := h.exists_added t
    rw [hpoints, hwritten, hkept]
  refused := by
    rw [h.uploads_eq]
    exact horderly.refused

end Journal

/-! ### Cycles -/

section Cycle

variable {j j' : Journal} {id : MeasurementId} {queryLimit timeoutMs : Nat} {account : String}

/-- While nothing is refused by rule, a finished measurement stays as it is and is not accepted, or
it is accepted and synced. -/
theorem HandsOver.stays_or_settled {request : UploadRequest} {result : Except SyncError Outcome}
    (h : HandsOver Journal.Serves id request j result j') (hrules : j.store.rules = Rules.none)
    (hfinished : j.store.status id = .ok .finished) :
    (j'.store = j.store ∧
      (j.Adds [] [] j' ∨ ∃ e, j.Adds [⟨j.store, request, .error e⟩] [] j')) ∨
    (j'.store.status id = .ok .synced ∧
      ∃ outcome, j.Adds [⟨j.store, request, .ok outcome⟩] [] j') := by
  cases h with
  | unread hstill => exact .inl ⟨hstill.store_eq, .inl hstill.adds⟩
  | refused hsame hadds => exact .inl ⟨hsame, .inr ⟨_, hadds⟩⟩
  | @kept outcome e j₁ _ hsame hclean =>
    -- The points are removed, so this cannot be.
    have hanswer : Except.error e = (j₁.store.clean id).1 := hclean.1.1
    rw [hsame, Store.clean_eq (fun t => by rw [hrules]; rfl)] at hanswer
    cases hanswer
  | @lost outcome e j₁ _ hstatus hsame hmark =>
    -- The measurement is marked, so this cannot be either.
    have hanswer : Except.error e = (j₁.store.setStatus id .synced).1 := hmark.1.1
    have hcan : MeasurementStatus.finished.canBecome .synced = true := rfl
    rw [Store.setStatus_eq (hstatus.trans hfinished) hcan (by decide)
      (by rw [hsame, hrules]; rfl)] at hanswer
    cases hanswer
  | settled hstatus _ hadds => exact .inr ⟨(hstatus id).trans (if_pos rfl), _, hadds⟩

/-- What is sent for a finished measurement is all that was ever written to it, since all of it is
still stored. -/
theorem Journal.Orderly.sent_of_adds {access : SyncAccess} {answer : Except SyncError Outcome}
    (horderly : j.Orderly id) (hfinished : j.store.status id = .ok .finished)
    (hkept : ∀ t, j.store.points id t = j.writtenTo id t)
    (hadds : j.Adds [⟨j.store, access.request j.store id, answer⟩] [] j') :
    j'.uploads id = j.uploads id ++ [⟨j.store, access.request j.store id, answer⟩] ∧
    ∀ u ∈ j'.uploads id, u.before.status id = .ok .finished ∧
      Zlib.unwrap? u.request.body =
        some (Transfer.image fun t => byTime (j'.writtenTo id t)) := by
  have huploads :
      j'.uploads id = j.uploads id ++ [⟨j.store, access.request j.store id, answer⟩] := by
    rw [hadds.uploads_eq]
    simp [SyncAccess.request]
  refine ⟨huploads, fun u hu => ?_⟩
  rw [funext (hadds.writtenTo_eq id)]
  rw [huploads, List.mem_append, List.mem_singleton] at hu
  rcases hu with hu | rfl
  · exact horderly.sent u hu
  · simp only [← hkept, ← Store.pointsByTime_eq]
    exact ⟨hfinished, Zlib.unwrap?_wrap _⟩

theorem HandsOver.orderly {access : SyncAccess} {result : Except SyncError Outcome}
    (h : HandsOver Journal.Serves id (access.request j.store id) j result j')
    (hrules : j.store.rules = Rules.none) (hfinished : j.store.status id = .ok .finished)
    (horderly : j.Orderly id) : j'.Orderly id := by
  obtain ⟨hkept, hrefused⟩ := horderly.pending (by
    rw [hfinished]
    exact nofun)
  rcases h.stays_or_settled hrules hfinished with
    ⟨hsame, hadds | ⟨e, hadds⟩⟩ | ⟨hsynced, outcome, hadds⟩
  · exact (Journal.grows_of_same hsame hadds id).orderly horderly
  · obtain ⟨huploads, hsent⟩ := horderly.sent_of_adds hfinished hkept hadds
    refine ⟨hsent, fun _ => .inl (by rw [hsame, hfinished]), fun _ => ⟨fun t => ?_, ?_⟩, ?_⟩
    · rw [hsame, hkept, hadds.writtenTo_eq]
    · rw [huploads]
      exact List.forall_mem_append.mpr ⟨hrefused, List.forall_mem_singleton.mpr rfl⟩
    · rw [huploads, List.dropLast_concat]
      exact hrefused
  · obtain ⟨huploads, hsent⟩ := horderly.sent_of_adds hfinished hkept hadds
    refine ⟨hsent, fun _ => .inr hsynced, fun hne => absurd hsynced hne, ?_⟩
    rw [huploads, List.dropLast_concat]
    exact hrefused

theorem orderly_syncCycle {result : Except SyncError SyncReport} (hregular : j.Regular)
    (h : (syncCycle queryLimit timeoutMs account).Ends Journal.Serves j result j')
    (horderly : j.Orderly id) : j'.Orderly id := by
  obtain ⟨handed, hseen, hfinished, -⟩ :=
    exists_seen_syncCycle (fun _ _ _ _ hserves => hserves.acts) hregular.wellFormed h id
  cases hseen with
  | untouched hall => exact hall.grows.orderly horderly
  | handed hbefore hover hafter =>
    -- It is still finished when its turn comes, since it was left alone until then.
    obtain ⟨sent, unmarked, hadds, -⟩ := hbefore.exists_adds
    have hstatus := hbefore.status_eq.trans (hfinished (Option.some_ne_none _))
    refine hafter.grows.orderly (hover.orderly ?_ hstatus (hbefore.grows.orderly horderly))
    exact hadds.rules_eq.trans hregular.rules_eq

end Cycle

/-! ### Histories -/

namespace History

variable {first j : Journal} {device : Option String} {batchLimit queryLimit : Nat}

theorem regular (h : History first j) (hfirst : first.Regular) : j.Regular := by
  induction h with
  | nil => exact hfirst
  | call _ _ hcall ih =>
    exact ⟨hcall.acts.wellFormed ih.wellFormed, hcall.acts.rules_eq.trans ih.rules_eq⟩
  | append _ happend ih => exact ih.of_ends happend
  | cycle _ hcycle ih => exact ih.of_ends hcycle

theorem orderly (h : History first j) (hfirst : first.Regular) {id : MeasurementId}
    (horderly : first.Orderly id) : j.Orderly id := by
  induction h with
  | nil => exact horderly
  | call _ hc hcall ih => exact (Journal.grows_call hc hcall id).orderly ih
  | append _ happend ih => exact (Journal.grows_appendPoints (ends_onStore happend) id).orderly ih
  | cycle hprior hcycle ih => exact orderly_syncCycle (hprior.regular hfirst) hcycle ih

/-- A measurement is sent only while it is finished, and each time with all that was ever written to
it. It is accepted at most once, and not sent any more then. -/
theorem accepted_once (h : History ⟨Store.empty device batchLimit queryLimit, []⟩ j)
    (id : MeasurementId) :
    (∀ u ∈ j.uploads id, u.before.status id = .ok .finished ∧
      Zlib.unwrap? u.request.body = some (Transfer.image fun t => byTime (j.writtenTo id t))) ∧
    (j.uploads id).countP (fun u => u.answer.isOk) ≤ 1 ∧
    ∀ earlier u later, j.uploads id = earlier ++ u :: later → u.answer.isOk → later = [] := by
  have horderly : j.Orderly id := h.orderly ⟨Store.wellFormed_empty _ _ _, rfl⟩
    ⟨List.forall_mem_nil _, fun hne => absurd rfl hne,
      fun _ => ⟨fun _ => rfl, List.forall_mem_nil _⟩, List.forall_mem_nil _⟩
  exact ⟨horderly.sent, horderly.countP_le_one, fun _ _ _ => horderly.eq_nil_of_accepted⟩

/-- A measurement that was created, written to, finished, sent in vain, and sent again. -/
def sentTwice : Journal :=
  let location : Point := .location ⟨0, .zero, .zero, .zero, .zero⟩
  let refusing := Journal.serve (Journal.granting (.error (.remoteUnreachable "refused")))
  let accepting := Journal.serve (Journal.granting (.ok .created))
  let created := (refusing (.store (.create .car)) ⟨Store.empty none 1 1, []⟩).2
  let written := ((onStore (appendPoints 1 ⟨1⟩ [location])).run refusing created).2
  let finished := (refusing (.store (.setStatus ⟨1⟩ .finished)) written).2
  let refused := ((syncCycle 1 1000 "account").run refusing finished).2
  ((syncCycle 1 1000 "account").run accepting refused).2

theorem accepted_once_sentTwice :
    History ⟨Store.empty none 1 1, []⟩ sentTwice ∧
      (sentTwice.uploads ⟨1⟩).map (fun u => u.answer.isOk) = [false, true] ∧
      (∀ u ∈ sentTwice.uploads ⟨1⟩, Zlib.unwrap? u.request.body =
        some (Transfer.image fun t => byTime (sentTwice.writtenTo ⟨1⟩ t))) ∧
      sentTwice.writtenTo ⟨1⟩ .locations ≠ [] := by
  have hcreate : StoreCall.Direct (.create .car) := trivial
  have hfinish : StoreCall.Direct (.setStatus ⟨1⟩ .finished) := trivial
  have hhistory : History ⟨Store.empty none 1 1, []⟩ sentTwice :=
    History.nil
      |>.call hcreate (Journal.serves_serve _ _ _)
      |>.append (Journal.ends_run_serve _ _ _)
      |>.call hfinish (Journal.serves_serve _ _ _)
      |>.cycle (Journal.ends_run_serve _ _ _)
      |>.cycle (Journal.ends_run_serve _ _ _)
  obtain ⟨hsent, -, -⟩ := hhistory.accepted_once ⟨1⟩
  exact ⟨hhistory, by decide +kernel, fun u hu => (hsent u hu).2, by decide +kernel⟩

end History

end TripRecorder
