import TripRecorder.Proofs.Store.WellFormed
import TripRecorder.Proofs.Transfer.Zlib
import TripRecorder.Sync.Cycle

/-!
# A store with many users

A recorder, sync cycles and other clients share a store. Besides the store, this file keeps account
of every point that was ever written and of every request the collector accepted, and says what
must hold of the three together.

## Main definitions

* `Shared` — the store and the account of it
* `Shared.Calls` — a call of the store
* `Shared.Delivered` — all points of a measurement were in a body that was accepted
* `Shared.Sound` — no point is lost
* `Shared.Advances`, `Shared.KeepsOpen` — what every user may do to the store, and what only a
  recorder may not do

## Main results

* `Shared.Calls.of_reads`, `Shared.advances_insert`, `Shared.advances_finish`,
  `Shared.advances_clean`, `Shared.advances_mark`, `Shared.advances_create` — the calls of the users
-/

namespace TripRecorder

/-- A store, all that was ever written to it, and all that a collector accepted. -/
structure Shared where
  store : Store
  written : List (MeasurementId × Point)
  accepted : List UploadRequest

namespace Shared

variable {s s' s'' : Shared} {id : MeasurementId}

/-- A call of the store. What it wrote is entered in the account. -/
def Calls (c : StoreCall) (s : Shared) (answer : StoreAnswer c) (s' : Shared) : Prop :=
  ∃ store', s.store.Answers c answer store' ∧
    s' = ⟨store', s.written ++ c.written answer, s.accepted⟩

/-- The points that were ever written to a table of a measurement, in the order of writing. -/
def writtenTo (s : Shared) (id : MeasurementId) (t : Table) : List Point :=
  (s.written.filter fun w => w.1 = id ∧ w.2.table = t).map fun w => w.2

/-- Nothing more is written to the measurement: it is finished or synced. -/
def Closed (s : Shared) (id : MeasurementId) : Prop :=
  s.store.status id = .ok .finished ∨ s.store.status id = .ok .synced

/-- All points that were ever written are stored. -/
def Kept (s : Shared) (id : MeasurementId) : Prop :=
  ∀ t, s.store.points id t = s.writtenTo id t

/-- No points are stored. -/
def Purged (s : Shared) (id : MeasurementId) : Prop := ∀ t, s.store.points id t = []

/-- All points that were ever written were in a body for the measurement that was accepted. -/
def Delivered (s : Shared) (id : MeasurementId) : Prop :=
  ∃ request ∈ s.accepted, request.id = id ∧ Zlib.unwrap? request.body =
    some (Transfer.image fun t => byTime (s.writtenTo id t))

/-- No point is lost: what was written to a measurement is still stored, or the measurement is
closed and all of it was delivered. A synced measurement holds nothing. -/
structure Sound (s : Shared) : Prop where
  wellFormed : s.store.WellFormed
  cases : ∀ id, s.Kept id ∨ (s.Closed id ∧ s.Purged id ∧ s.Delivered id)
  synced : ∀ id, s.store.status id = .ok .synced → s.Purged id

/-- What a user may do: the store stays sound, a closed measurement stays closed, nothing is written
to it, and its points are left alone or removed all together. -/
def Advances (s s' : Shared) : Prop :=
  s.Sound → s'.Sound ∧ (∀ request ∈ s.accepted, request ∈ s'.accepted) ∧
    ∀ id, s.Closed id → s'.Closed id ∧ (∀ t, s'.writtenTo id t = s.writtenTo id t) ∧
      ((∀ t, s'.store.points id t = s.store.points id t) ∨ s'.Purged id)

/-- An open measurement stays open. -/
def KeepsOpen (s s' : Shared) : Prop :=
  ∀ id, s.store.status id = .ok .opened → s'.store.status id = .ok .opened

theorem Advances.refl (s : Shared) : s.Advances s := fun h =>
  ⟨h, fun _ hr => hr, fun _ hc => ⟨hc, fun _ => rfl, .inl fun _ => rfl⟩⟩

theorem Advances.trans (h : s.Advances s') (h' : s'.Advances s'') : s.Advances s'' := by
  intro hsound
  obtain ⟨hsound', haccepted, hclosed⟩ := h hsound
  obtain ⟨hsound'', haccepted', hclosed'⟩ := h' hsound'
  refine ⟨hsound'', fun r hr => haccepted' r (haccepted r hr), fun id hid => ?_⟩
  obtain ⟨hid', hwritten, hpoints⟩ := hclosed id hid
  obtain ⟨hid'', hwritten', hpoints'⟩ := hclosed' id hid'
  refine ⟨hid'', fun t => (hwritten' t).trans (hwritten t), ?_⟩
  rcases hpoints' with hpoints' | hpurged
  · -- Points that were removed once stay removed, since nothing is written any more.
    rcases hpoints with hpoints | hpurged
    · exact .inl fun t => (hpoints' t).trans (hpoints t)
    · exact .inr fun t => (hpoints' t).trans (hpurged t)
  · exact .inr hpurged

theorem KeepsOpen.refl (s : Shared) : s.KeepsOpen s := fun _ h => h

/-- What everyone but a recorder does: open measurements are not closed. -/
def AdvancesOpen (s s' : Shared) : Prop := s.Advances s' ∧ s.KeepsOpen s'

theorem KeepsOpen.trans (h : s.KeepsOpen s') (h' : s'.KeepsOpen s'') : s.KeepsOpen s'' :=
  fun id hid => h' id (h id hid)

theorem AdvancesOpen.refl (s : Shared) : s.AdvancesOpen s := ⟨Advances.refl s, KeepsOpen.refl s⟩

theorem AdvancesOpen.trans (h : s.AdvancesOpen s') (h' : s'.AdvancesOpen s'') :
    s.AdvancesOpen s'' := ⟨h.1.trans h'.1, h.2.trans h'.2⟩

/-! ### Calls of users -/

/-- A call that writes nothing. -/
theorem Calls.of_written_eq_nil {c : StoreCall} {answer : StoreAnswer c} (h : Calls c s answer s')
    (hnone : c.written answer = []) :
    ∃ store', s.store.Answers c answer store' ∧ s' = ⟨store', s.written, s.accepted⟩ := by
  obtain ⟨store', hstore, rfl⟩ := h
  rw [hnone, List.append_nil]
  exact ⟨store', hstore, rfl⟩

theorem Calls.of_reads {c : StoreCall} {answer : StoreAnswer c} (h : Calls c s answer s')
    (hc : c.Reads) : s' = s := by
  have hnone : c.written answer = [] := by
    cases c <;> first | rfl | exact hc.elim
  obtain ⟨store', hstore, rfl⟩ := h.of_written_eq_nil hnone
  rw [hstore.of_reads hc]

theorem writtenTo_append (store : Store) (s : Shared) (id : MeasurementId) (ps : List Point)
    (i : MeasurementId) (t : Table) :
    writtenTo ⟨store, s.written ++ (StoreCall.insert id ps).written (.ok ()), s.accepted⟩ i t =
      s.writtenTo i t ++ if id = i then keptIn t ps else [] := by
  rw [writtenTo, List.filter_append, List.map_append, StoreCall.written_insert, writtenTo]

/-- What was added to the store is added to the account. -/
theorem Calls.of_insert {ps : List Point} {answer : Except String Unit}
    (h : Calls (.insert id ps) s answer s') :
    s' = s ∨ (s'.store.entries = s.store.entries ∧ s'.accepted = s.accepted ∧
      (s.store.WellFormed → s'.store.WellFormed) ∧ ∀ i t, ∃ added,
        s'.store.points i t = s.store.points i t ++ added ∧
        s'.writtenTo i t = s.writtenTo i t ++ added ∧ (id ≠ i → added = [])) := by
  obtain ⟨store', hstore, rfl⟩ := h
  rcases hstore.of_insert with ⟨e, rfl, rfl⟩ | ⟨rfl, hentries, hpoints⟩
  · exact .inl (congrArg (Shared.mk _ · _) (List.append_nil _))
  · exact .inr ⟨hentries, rfl, fun h => h.answers hstore, fun i t =>
      ⟨_, hpoints i t, writtenTo_append store' s id ps i t, fun hne => if_neg hne⟩⟩

theorem Delivered.of_eq (h : s.Delivered id) (hwritten : ∀ t, s'.writtenTo id t = s.writtenTo id t)
    (haccepted : ∀ request ∈ s.accepted, request ∈ s'.accepted) : s'.Delivered id := by
  obtain ⟨request, hmem, hid, hbody⟩ := h
  refine ⟨request, haccepted request hmem, hid, ?_⟩
  rw [hbody, funext hwritten]

/-- A change that leaves all points alone. -/
theorem advances_of_points (hpoints : ∀ i t, s'.store.points i t = s.store.points i t)
    (hwritten : s'.written = s.written)
    (haccepted : ∀ request ∈ s.accepted, request ∈ s'.accepted)
    (hwell : s.store.WellFormed → s'.store.WellFormed) (hclosed : ∀ i, s.Closed i → s'.Closed i)
    (hsynced : ∀ i, s.Sound → s'.store.status i = .ok .synced → s.Purged i) : s.Advances s' := by
  have hwritten' (i : MeasurementId) (t : Table) : s'.writtenTo i t = s.writtenTo i t := by
    rw [writtenTo, hwritten, writtenTo]
  have hpurged (i : MeasurementId) (h : s.Purged i) : s'.Purged i :=
    fun t => (hpoints i t).trans (h t)
  intro hsound
  refine ⟨⟨hwell hsound.wellFormed, fun i => ?_, fun i hi => hpurged i (hsynced i hsound hi)⟩,
    haccepted, fun i hi => ⟨hclosed i hi, hwritten' i, .inl (hpoints i)⟩⟩
  rcases hsound.cases i with hkept | ⟨hi, hempty, hdelivered⟩
  · exact .inl fun t => (hpoints i t).trans ((hkept t).trans (hwritten' i t).symm)
  · exact .inr ⟨hclosed i hi, hpurged i hempty, hdelivered.of_eq (hwritten' i) haccepted⟩

/-- Points are added to an open measurement. -/
theorem advances_insert {ps : List Point} {answer : Except String Unit}
    (hopen : s.store.status id = .ok .opened) (h : Calls (.insert id ps) s answer s') :
    s.AdvancesOpen s' := by
  rcases h.of_insert with rfl | ⟨hentries, haccepted, hwell, hadded⟩
  · exact AdvancesOpen.refl s'
  · have hstatus (i : MeasurementId) : s'.store.status i = s.store.status i :=
      Store.status_congr hentries i
    refine ⟨fun hsound => ?_, fun i hi => (hstatus i).trans hi⟩
    have hclosed (i : MeasurementId) (hi : s.Closed i) : s'.Closed i := by
      rwa [Closed, hstatus]
    -- A closed measurement is not the one that points are added to.
    have hsame (i : MeasurementId) (hi : s.Closed i) (t : Table) :
        s'.store.points i t = s.store.points i t ∧ s'.writtenTo i t = s.writtenTo i t := by
      have hne : id ≠ i := by
        rintro rfl
        rcases hi with hi | hi <;> · rw [hopen] at hi; cases hi
      obtain ⟨added, hpoints, hwritten, hnone⟩ := hadded i t
      rw [hpoints, hwritten, hnone hne, List.append_nil, List.append_nil]
      exact ⟨rfl, rfl⟩
    have haccepted' : ∀ request ∈ s.accepted, request ∈ s'.accepted :=
      fun _ hr => haccepted ▸ hr
    refine ⟨⟨hwell hsound.wellFormed, fun i => ?_, fun i hi t => ?_⟩, haccepted', fun i hi =>
      ⟨hclosed i hi, fun t => (hsame i hi t).2, .inl fun t => (hsame i hi t).1⟩⟩
    · rcases hsound.cases i with hkept | ⟨hi, hempty, hdelivered⟩
      · refine .inl fun t => ?_
        obtain ⟨added, hpoints, hwritten, -⟩ := hadded i t
        rw [hpoints, hwritten, hkept t]
      · exact .inr ⟨hclosed i hi, fun t => (hsame i hi t).1.trans (hempty t),
          hdelivered.of_eq (fun t => (hsame i hi t).2) haccepted'⟩
    · have hi : s.store.status i = .ok .synced := (hstatus i).symm.trans hi
      exact (hsame i (.inr hi) t).1.trans (hsound.synced i hi t)

/-- A measurement is finished. -/
theorem advances_finish {answer : Except StoreError Unit}
    (h : Calls (.setStatus id .finished) s answer s') : s.Advances s' := by
  obtain ⟨store', hstore, rfl⟩ := h.of_written_eq_nil rfl
  rcases hstore.of_setStatus with ⟨e, -, rfl⟩ | ⟨-, -, hstatus, hpoints⟩
  · exact Advances.refl s
  · refine advances_of_points hpoints rfl (fun _ hr => hr) (fun h => h.answers hstore)
      (fun i hi => ?_) fun i hsound hi => ?_
    · rw [Closed, hstatus]
      split
      · exact .inl rfl
      · exact hi
    · rw [hstatus] at hi
      split at hi
      · cases hi
      · exact hsound.synced i hi

/-- A measurement is added. -/
theorem advances_create {vehicle : Vehicle} {answer : Except StoreError MeasurementId}
    (h : Calls (.create vehicle) s answer s') : s.AdvancesOpen s' := by
  obtain ⟨store', hstore, rfl⟩ := h.of_written_eq_nil rfl
  rcases hstore.of_create with ⟨e, -, rfl⟩ | ⟨-, hstatus, hpoints⟩
  · exact AdvancesOpen.refl s
  · have hnew := s.store.status_nextId
    refine ⟨advances_of_points hpoints rfl (fun _ hr => hr) (fun h => h.answers hstore)
      (fun i hi => ?_) fun i hsound hi => ?_, fun i hi => ?_⟩
    · rw [Closed, hstatus]
      split
      · rename_i heq
        rw [Closed, heq, hnew] at hi
        rcases hi with hi | hi <;> cases hi
      · exact hi
    · rw [hstatus] at hi
      split at hi
      · cases hi
      · exact hsound.synced i hi
    · rw [hstatus]
      split
      · rfl
      · exact hi

/-- A delivered measurement is emptied. -/
theorem advances_clean {answer : Except StoreError Nat} (hclosed : s.Closed id)
    (hdelivered : s.Delivered id) (h : Calls (.clean id) s answer s') :
    s.AdvancesOpen s' ∧ (answer.isOk → s'.Purged id) := by
  obtain ⟨store', hstore, rfl⟩ := h.of_written_eq_nil rfl
  rcases hstore.of_clean with ⟨e, rfl, rfl⟩ | ⟨n, rfl, hentries, hpoints⟩
  · exact ⟨AdvancesOpen.refl s, fun h => nomatch h⟩
  · have hstatus (i : MeasurementId) : store'.status i = s.store.status i :=
      Store.status_congr hentries i
    have hclosed' (i : MeasurementId) (hi : s.Closed i) :
        Closed ⟨store', s.written, s.accepted⟩ i := by
      rwa [Closed, hstatus]
    have hpurged : Purged ⟨store', s.written, s.accepted⟩ id := fun t => by
      rw [hpoints, if_pos rfl]
    have hother (i : MeasurementId) (hi : i ≠ id) (t : Table) :
        store'.points i t = s.store.points i t := by
      rw [hpoints, if_neg hi]
    refine ⟨⟨fun hsound => ⟨⟨hsound.wellFormed.answers hstore, fun i => ?_, fun i hi => ?_⟩,
      fun _ hr => hr, fun i hi => ⟨hclosed' i hi, fun _ => rfl, ?_⟩⟩,
      fun i hi => (hstatus i).trans hi⟩, fun _ => hpurged⟩
    · -- The emptied measurement was delivered, and no other one is touched.
      by_cases heq : i = id
      · subst heq
        exact .inr ⟨hclosed' i hclosed, hpurged, hdelivered⟩
      · rcases hsound.cases i with hkept | ⟨hi, hempty, hdelivered⟩
        · exact .inl fun t => (hother i heq t).trans (hkept t)
        · exact .inr ⟨hclosed' i hi, fun t => (hother i heq t).trans (hempty t), hdelivered⟩
    · by_cases heq : i = id
      · exact heq ▸ hpurged
      · have hi : s.store.status i = .ok .synced := (hstatus i).symm.trans hi
        exact fun t => (hother i heq t).trans (hsound.synced i hi t)
    · by_cases heq : i = id
      · exact .inr (heq ▸ hpurged)
      · exact .inl (hother i heq)

/-- An empty measurement is marked. -/
theorem advances_mark {answer : Except StoreError Unit} (hclosed : s.Closed id)
    (hpurged : s.Purged id) (h : Calls (.setStatus id .synced) s answer s') :
    s.AdvancesOpen s' := by
  obtain ⟨store', hstore, rfl⟩ := h.of_written_eq_nil rfl
  rcases hstore.of_setStatus with ⟨e, -, rfl⟩ | ⟨-, -, hstatus, hpoints⟩
  · exact AdvancesOpen.refl s
  · refine ⟨advances_of_points hpoints rfl (fun _ hr => hr) (fun h => h.answers hstore)
      (fun i hi => ?_) fun i hsound hi => ?_, fun i hi => ?_⟩
    · rw [Closed, hstatus]
      split
      · exact .inr rfl
      · exact hi
    · rw [hstatus] at hi
      split at hi
      · rename_i heq
        exact heq ▸ hpurged
      · exact hsound.synced i hi
    · rw [hstatus]
      split
      · rename_i heq
        rw [heq] at hi
        rcases hclosed with h | h <;> · rw [h] at hi; cases hi
      · exact hi

end Shared

end TripRecorder
