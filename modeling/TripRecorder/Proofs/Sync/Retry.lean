import TripRecorder.Proofs.Sync.Journal

/-!
# What a failed cycle leaves

A cycle ends with the first measurement that cannot be handed over. Whatever failed, the measurement
stays finished, and it keeps all its points unless they were removed before it could not be marked.
The next cycle sends what is left.

## Main definitions

* `unmarkable` — a store in which a measurement can be emptied and not marked

## Main results

* `unwrap?_of_mem_uploads` — a cycle sends what is stored
* `aborted_intact_iff` — when a measurement that ended a cycle is as it was
* `lost_of_unmarkable` — a cycle after which the next one sends an empty measurement
-/

namespace TripRecorder

section

variable {s : Store} {j j' : Journal} {i id : MeasurementId} {queryLimit timeoutMs : Nat}
  {account : String}

/-- What handing over a measurement sends is what is stored. -/
theorem HandsOver.unwrap?_body {act : (c : SyncCall) → Journal → SyncAnswer c → Journal → Prop}
    {access : SyncAccess} {result : Except SyncError Outcome} (hnone : j.uploads i = [])
    (h : HandsOver act i (access.request j.store i) j result j') {u : SentRequest}
    (hu : u ∈ j'.uploads i) :
    Zlib.unwrap? u.request.body = some (Transfer.image (j.store.pointsByTime i)) := by
  obtain ⟨sent, unmarked, hadds, hsent, -⟩ := h.exists_adds
  rw [hadds.uploads_eq, hnone, List.nil_append, List.mem_filter] at hu
  rw [hsent u hu.1]
  exact Zlib.unwrap?_wrap _

/-- All that a cycle sends for a measurement is what was stored when the cycle began. -/
theorem unwrap?_of_mem_uploads {result : Except SyncError SyncReport} (hwell : s.WellFormed)
    (h : (syncCycle queryLimit timeoutMs account).Ends Journal.Acts ⟨s, []⟩ result j')
    {u : SentRequest} (hu : u ∈ j'.uploads i) :
    Zlib.unwrap? u.request.body = some (Transfer.image (s.pointsByTime i)) := by
  obtain ⟨handed, hseen, -, -⟩ :=
    exists_seen_syncCycle (fun _ _ _ _ hacts => hacts) hwell h i
  cases hseen with
  | untouched hall =>
    rw [hall.uploads_eq] at hu
    cases hu
  | handed hbefore hover hafter =>
    have hnone := hbefore.uploads_eq
    rw [hafter.uploads_eq] at hu
    rw [hover.unwrap?_body hnone hu, hbefore.pointsByTime_eq]

/-- A measurement that could not be handed over is stored as it was, or it has lost its points and
is not marked. -/
theorem HandsOver.stored_of_error
    {act : (c : SyncCall) → Journal → SyncAnswer c → Journal → Prop} {request : UploadRequest}
    {e : SyncError} (h : HandsOver act i request j (.error e) j') :
    j'.store.status i = j.store.status i ∧
      ((j'.unmarked = j.unmarked ∧ ∀ t, j'.store.rowsOf i t = j.store.rowsOf i t) ∨
        (j'.unmarked = j.unmarked ++ [i] ∧ ∀ t, j'.store.rowsOf i t = [])) := by
  have hsame {sent : List SentRequest} (hstore : j'.store = j.store) (hadds : j.Adds sent [] j') :
      j'.store.status i = j.store.status i ∧
        ((j'.unmarked = j.unmarked ∧ ∀ t, j'.store.rowsOf i t = j.store.rowsOf i t) ∨
          (j'.unmarked = j.unmarked ++ [i] ∧ ∀ t, j'.store.rowsOf i t = [])) := by
    rw [hstore]
    exact ⟨rfl, .inl ⟨hadds.unmarked_eq.trans (List.append_nil _), fun _ => rfl⟩⟩
  cases h with
  | unread hstill => exact hsame hstill.store_eq hstill.adds
  | refused hstore hadds => exact hsame hstore hadds
  | kept _ _ hstore hadds => exact hsame hstore hadds
  | lost _ _ _ hstatus hrows hadds =>
    exact ⟨hstatus i, .inr ⟨hadds.unmarked_eq, fun t => by rw [hrows, if_pos rfl]⟩⟩

/-- A cycle that ends with a measurement leaves it finished and as it was, or without points and
not marked. -/
theorem stored_of_aborted {report : SyncReport} {e : SyncError} (hwell : s.WellFormed)
    (h : (syncCycle queryLimit timeoutMs account).Ends Journal.Acts ⟨s, []⟩ (.ok report) j')
    (haborted : report.aborted = some (id, e)) :
    s.status id = .ok .finished ∧ j'.store.status id = .ok .finished ∧
      ((id ∉ j'.unmarked ∧ ∀ t, j'.store.rowsOf id t = s.rowsOf id t) ∨
        (id ∈ j'.unmarked ∧ ∀ t, j'.store.rowsOf id t = [])) := by
  obtain ⟨handed, hseen, hfinished, hiff⟩ :=
    exists_seen_syncCycle (fun _ _ _ _ hacts => hacts) hwell h id
  obtain rfl := (hiff report e rfl).mp haborted
  have hstatus := hfinished (Option.some_ne_none _)
  cases hseen with
  | @handed access j₁ _ j₂ _ hbefore hover hafter =>
    -- Before and after it was handed over, nothing was done to the measurement.
    obtain ⟨hsame, hcases⟩ := hover.stored_of_error
    have hnone : id ∉ j₁.unmarked := mt hbefore.mem_unmarked_iff.mp List.not_mem_nil
    refine ⟨hstatus, ?_, ?_⟩
    · rw [hafter.status_eq, hsame, hbefore.status_eq]
      exact hstatus
    · rcases hcases with ⟨hunmarked, hrows⟩ | ⟨hunmarked, hrows⟩
      · refine .inl ⟨?_, fun t => ?_⟩
        · rw [hafter.mem_unmarked_iff, hunmarked]
          exact hnone
        · rw [hafter.rowsOf_eq, hrows, hbefore.rowsOf_eq]
      · refine .inr ⟨?_, fun t => ?_⟩
        · rw [hafter.mem_unmarked_iff, hunmarked]
          exact List.mem_append_right _ List.mem_cons_self
        · rw [hafter.rowsOf_eq, hrows]

/-- A measurement that ended a cycle is still finished, whatever failed. It has all its rows exactly
if it could be marked wherever its points were removed, or if it had none. Then every request for
it, in this cycle and in the next one, holds the same bytes. If it could not be marked after its
points were removed, it has no rows, and the next cycle sends an empty measurement. -/
theorem aborted_intact_iff {report : SyncReport} {e : SyncError} (hwell : s.WellFormed)
    (h : (syncCycle queryLimit timeoutMs account).Ends Journal.Acts ⟨s, []⟩ (.ok report) j')
    (haborted : report.aborted = some (id, e)) :
    s.status id = .ok .finished ∧ j'.store.status id = .ok .finished ∧ id ∈ j'.store.syncable ∧
    ((∀ t, j'.store.rowsOf id t = s.rowsOf id t) ↔
      (id ∉ j'.unmarked ∨ ∀ t, s.rowsOf id t = [])) ∧
    (id ∈ j'.unmarked → ∀ t, j'.store.rowsOf id t = []) ∧
    (∀ u ∈ j'.uploads id,
      Zlib.unwrap? u.request.body = some (Transfer.image (s.pointsByTime id))) ∧
    ∀ queryLimit' timeoutMs' account' result j'',
      (syncCycle queryLimit' timeoutMs' account').Ends Journal.Acts ⟨j'.store, []⟩ result j'' →
      ∀ u ∈ j''.uploads id, Zlib.unwrap? u.request.body =
        some (Transfer.image (if id ∈ j'.unmarked then fun _ => [] else s.pointsByTime id)) := by
  obtain ⟨hbefore, hafter, hcases⟩ := stored_of_aborted hwell h haborted
  have hwell' : j'.store.WellFormed := by
    obtain ⟨handed, hseen, -⟩ := exists_seen_syncCycle (fun _ _ _ _ hacts => hacts) hwell h id
    exact hseen.wellFormed hwell
  refine ⟨hbefore, hafter, hwell'.mem_syncable_iff.mpr hafter, ?_, ?_,
    fun u hu => unwrap?_of_mem_uploads hwell h hu, ?_⟩
  · rcases hcases with ⟨hmarked, hrows⟩ | ⟨hunmarked, hrows⟩
    · exact iff_of_true hrows (.inl hmarked)
    · constructor
      · exact fun hsame => .inr fun t => (hsame t).symm.trans (hrows t)
      · rintro (hmarked | hnone) t
        · exact absurd hunmarked hmarked
        · rw [hrows, hnone]
  · intro hunmarked
    rcases hcases with ⟨hmarked, -⟩ | ⟨-, hrows⟩
    · exact absurd hunmarked hmarked
    · exact hrows
  · -- The next cycle sends what is stored now, which is all or nothing.
    intro queryLimit' timeoutMs' account' result j'' hnext u hu
    rw [unwrap?_of_mem_uploads hwell' hnext hu]
    rcases hcases with ⟨hmarked, hrows⟩ | ⟨hunmarked, hrows⟩
    · rw [if_neg hmarked, Store.pointsByTime_congr hrows]
    · rw [if_pos hunmarked]
      congr 2
      funext t
      rw [Store.pointsByTime_eq, Store.points_eq_nil_iff.mpr (hrows t), byTime_nil]

end

/-- A store with a finished measurement that holds a location and cannot be marked. -/
def unmarkable : Store :=
  { Store.empty none 1 1 with
    entries := [⟨⟨1⟩, .car, .known .finished, none⟩]
    ledger := #[⟨⟨1⟩, 1, .location ⟨0, .zero, .zero, .zero, .zero⟩, true⟩]
    rules := { Rules.none with setStatus := some "disk full" } }

/-- A cycle with that store, and with a collector that always has the same answer. -/
def cycleUnmarkable (answer : Except SyncError Outcome) : Except SyncError SyncReport × Journal :=
  (syncCycle 1 1000 "account").run (Journal.serve (Journal.granting answer)) ⟨unmarkable, []⟩

theorem intact_of_refused :
    ∃ j', unmarkable.WellFormed ∧
      (syncCycle 1 1000 "account").Ends Journal.Acts ⟨unmarkable, []⟩
        (.ok ⟨[], [], some (⟨1⟩, .remoteUnreachable "refused")⟩) j' ∧
      j'.unmarked = [] ∧ unmarkable.points ⟨1⟩ .locations ≠ [] ∧
      ∀ t, j'.store.rowsOf ⟨1⟩ t = unmarkable.rowsOf ⟨1⟩ t := by
  have hwell : unmarkable.WellFormed := ⟨by decide, by decide⟩
  have hrun := (Journal.ends_run_serve (Journal.granting (.error (.remoteUnreachable "refused")))
    (syncCycle 1 1000 "account") ⟨unmarkable, []⟩).mono fun _ _ _ _ h => h.acts
  have hresult : (cycleUnmarkable (.error (.remoteUnreachable "refused"))).1 =
      .ok ⟨[], [], some (⟨1⟩, .remoteUnreachable "refused")⟩ := by decide +kernel
  have hmarked : (cycleUnmarkable (.error (.remoteUnreachable "refused"))).2.unmarked = [] := by
    decide +kernel
  rw [cycleUnmarkable] at hresult hmarked
  rw [hresult] at hrun
  obtain ⟨-, -, -, hintact, -⟩ := aborted_intact_iff hwell hrun rfl
  refine ⟨_, hwell, hrun, hmarked, by decide, hintact.mpr (.inl ?_)⟩
  rw [hmarked]
  exact List.not_mem_nil

/-- A measurement is accepted by the collector, and its points are removed. When it cannot be marked
then, it stays finished without its points, and an empty measurement is sent by the next cycle. -/
theorem lost_of_unmarkable :
    ∃ j', (syncCycle 1 1000 "account").Ends Journal.Acts ⟨unmarkable, []⟩
        (.ok ⟨[], [], some (⟨1⟩, .storage (.database "disk full"))⟩) j' ∧
      unmarkable.points ⟨1⟩ .locations = [.location ⟨0, .zero, .zero, .zero, .zero⟩] ∧
      j'.store.status ⟨1⟩ = .ok .finished ∧ j'.store.points ⟨1⟩ .locations = [] ∧
      ∃ result j'', (syncCycle 1 1000 "account").Ends Journal.Acts ⟨j'.store, []⟩ result j'' ∧
        (j''.uploads ⟨1⟩).map (fun u => u.request.body) =
          [Zlib.wrap (Transfer.image fun _ => [])] := by
  have hrun (j : Journal) := (Journal.ends_run_serve (Journal.granting (.ok .created))
    (syncCycle 1 1000 "account") j).mono fun _ _ _ _ h => h.acts
  have hresult : (cycleUnmarkable (.ok .created)).1 =
      .ok ⟨[], [], some (⟨1⟩, .storage (.database "disk full"))⟩ := by decide +kernel
  have hfirst := hrun ⟨unmarkable, []⟩
  rw [cycleUnmarkable] at hresult
  rw [hresult] at hfirst
  exact ⟨_, hfirst, rfl, by decide +kernel, by decide +kernel, _, _, hrun _, by decide +kernel⟩

end TripRecorder
