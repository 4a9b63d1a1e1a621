import TripRecorder.Proofs.Sync.History

/-!
# What a status decides

A collector answers an upload with a status and a text. Only the status decides whether the
measurement is with the collector, and only then it is emptied and marked. The text gives a reason
at most, and where it is not JSON it stands in the error itself.

## Main definitions

* `Response.Verdict` — what a status and a text mean
* `Exchange.Accepted` — the collector has the measurement

## Main results

* `Response.verdict_judge` — every answer is judged by its status
* `Upload.isOk_run_iff` — an upload succeeds exactly if the collector has the measurement
* `exists_handsOver_of_sent` — a request was sent while its measurement was handed over
* `status_decides` — what becomes of a measurement that was uploaded
-/

namespace TripRecorder

namespace Response

variable {status : Nat} {text : String}

/-- A status that says neither that the collector has the measurement, nor that the request was bad,
nor that a login is needed. -/
def Undecided (status : Nat) : Prop :=
  status ≠ 201 ∧ status ≠ 409 ∧ status ≠ 400 ∧ status ≠ 401

/-- An answer that can be understood: its text is JSON, or its status is one of success. -/
def Understood (status : Nat) (text : String) : Prop :=
  (Json.parse? text).isSome ∨ 200 ≤ status ∧ status ≤ 299

/-- What a status and a text mean. -/
inductive Verdict (status : Nat) (text : String) : Except SyncError Outcome → Prop where
  | created : status = 201 → Verdict status text (.ok .created)
  | alreadyPresent : status = 409 → Verdict status text (.ok .alreadyPresent)
  | badRequest (reason : String) : status = 400 → Verdict status text (.error (.badRequest reason))
  | unauthorized (reason : String) : status = 401 →
      Verdict status text (.error (.unauthorized reason))
  | rejected (reason : String) : Undecided status → Understood status text →
      Verdict status text (.error (.requestRejected status reason))
  | malformed : Undecided status → ¬ Understood status text →
      Verdict status text (.error (.malformedResponse status text))

/-- A response whose status is undecided has to be understood for its outcome. -/
theorem verdict_outcome (body : Option Json) (h : Undecided status → Understood status text) :
    Verdict status text (outcome ⟨status, body⟩) := by
  unfold outcome
  split
  · exact .created ‹_›
  split
  · exact .alreadyPresent ‹_›
  split
  · exact .badRequest _ ‹_›
  split
  · exact .unauthorized _ ‹_›
  · have hstatus : Undecided status := ⟨‹_›, ‹_›, ‹_›, ‹_›⟩
    exact .rejected _ hstatus (h hstatus)

/-- A text that is no JSON is let pass with a status of success, and with the one of a measurement
that the collector has. -/
theorem toleratesText_iff : toleratesText status = true ↔
    (200 ≤ status ∧ status ≤ 299) ∨ status = 409 := by
  simp [toleratesText]

/-- Every answer is judged by its status. -/
theorem verdict_judge (status : Nat) (text : String) :
    Verdict status text (judge status text) := by
  unfold judge parse
  cases hparse : Json.parse? text with
  | some body => exact verdict_outcome _ fun _ => .inl (by rw [hparse]; rfl)
  | none =>
    by_cases htolerates : toleratesText status = true
    · rw [if_pos htolerates]
      refine verdict_outcome none fun hstatus => .inr ?_
      exact (toleratesText_iff.mp htolerates).resolve_right hstatus.2.1
    · rw [if_neg htolerates]
      rw [toleratesText_iff, not_or] at htolerates
      obtain ⟨hsuccess, hconflict⟩ := htolerates
      by_cases hbad : status = 400
      · rw [if_pos hbad]
        exact .badRequest _ hbad
      by_cases hlogin : status = 401
      · rw [if_neg hbad, if_pos hlogin]
        exact .unauthorized _ hlogin
      · rw [if_neg hbad, if_neg hlogin]
        refine .malformed ⟨by omega, hconflict, hbad, hlogin⟩ ?_
        rintro (hjson | hrange)
        · rw [hparse] at hjson
          cases hjson
        · exact hsuccess hrange

theorem judge_eq_created_iff : judge status text = .ok .created ↔ status = 201 := by
  have h := verdict_judge status text
  generalize judge status text = answer at h
  cases h <;> simp_all [Undecided]

theorem judge_eq_alreadyPresent_iff : judge status text = .ok .alreadyPresent ↔ status = 409 := by
  have h := verdict_judge status text
  generalize judge status text = answer at h
  cases h <;> simp_all [Undecided]

theorem isOk_judge_iff : (judge status text).isOk = true ↔ status = 201 ∨ status = 409 := by
  have hcreated : judge status text = .ok .created ↔ status = 201 := judge_eq_created_iff
  have hpresent : judge status text = .ok .alreadyPresent ↔ status = 409 :=
    judge_eq_alreadyPresent_iff
  rw [← hcreated, ← hpresent]
  rcases judge status text with e | (_ | _) <;> simp [Except.isOk, Except.toBool]

/-- A status that does not say that the collector has the measurement is one of four errors. -/
theorem judge_eq_error (hcreated : status ≠ 201) (hconflict : status ≠ 409) :
    ∃ e, judge status text = .error e ∧
      ((∃ reason, e = .badRequest reason) ↔ status = 400) ∧
      ((∃ reason, e = .unauthorized reason) ↔ status = 401) ∧
      (status ≠ 400 → status ≠ 401 →
        (Understood status text → ∃ reason, e = .requestRejected status reason) ∧
        (¬ Understood status text → e = .malformedResponse status text)) ∧
      (e.needsLogin = true ↔ status = 401) := by
  have h := verdict_judge status text
  generalize judge status text = answer at h
  cases h with
  | created h => exact absurd h hcreated
  | alreadyPresent h => exact absurd h hconflict
  | badRequest reason h => exact ⟨_, rfl, by simp [SyncError.needsLogin, h]⟩
  | unauthorized reason h => exact ⟨_, rfl, by simp [SyncError.needsLogin, h]⟩
  | rejected reason h hunderstood =>
    obtain ⟨-, -, hbad, hlogin⟩ := h
    exact ⟨_, rfl, by simp [SyncError.needsLogin, hbad, hlogin, hunderstood]⟩
  | malformed h hunderstood =>
    obtain ⟨-, -, hbad, hlogin⟩ := h
    exact ⟨_, rfl, by simp [SyncError.needsLogin, hbad, hlogin, hunderstood]⟩

end Response

/-- The collector has the measurement: it said that it is new, or that it was there before. -/
def Exchange.Accepted : Exchange → Prop
  | .failed _ _ => False
  | .answered status _ => status = 201 ∨ status = 409

namespace Upload

variable {chunkBytes : Nat} {body : List UInt8} {x : Exchange}

theorem snd_run : (run chunkBytes body x).2 = outcome x := by
  unfold run
  cases x <;> dsimp only <;> split <;> simp [*]

/-- An upload succeeds exactly if the collector has the measurement. -/
theorem isOk_run_iff : (run chunkBytes body x).2.isOk = true ↔ x.Accepted := by
  rw [snd_run]
  cases x with
  | failed taken detail => simp [outcome, Exchange.Accepted, Except.isOk, Except.toBool]
  | answered status text => exact Response.isOk_judge_iff

end Upload

/-! ### What becomes of a measurement -/

section

variable {act : (c : SyncCall) → Journal → SyncAnswer c → Journal → Prop} {s : Store}
  {j j' : Journal} {id : MeasurementId} {queryLimit timeoutMs : Nat} {account : String}
  {u : SentRequest}

/-- The measurement holds no rows any more and is synced. -/
def Store.Settled (s : Store) (id : MeasurementId) : Prop :=
  (∀ t, s.rowsOf id t = []) ∧ s.status id = .ok .synced

theorem Journal.Untouched.settled_iff (h : j.Untouched id j') :
    j'.store.Settled id ↔ j.store.Settled id := by
  rw [Store.Settled, Store.Settled, h.status_eq]
  simp only [h.rowsOf_eq]

/-- The first request for a measurement is one of those added. -/
theorem Journal.Adds.mem_sent {sent : List SentRequest} {unmarked : List MeasurementId}
    (h : j.Adds sent unmarked j') (hnone : j.uploads id = []) (hu : u ∈ j'.uploads id) :
    u ∈ sent := by
  rw [h.uploads_eq, hnone, List.nil_append] at hu
  exact (List.mem_filter.mp hu).1

/-- What handing over a measurement comes to is decided by the answer to its request, and then by
the store. -/
theorem HandsOver.by_answer {access : SyncAccess} {result : Except SyncError Outcome}
    (h : HandsOver act id (access.request j.store id) j result j') (hnone : j.uploads id = [])
    (hu : u ∈ j'.uploads id) :
    (∃ e, u.answer = .error e ∧ result = .error e ∧ j'.store = j.store) ∨
    ∃ outcome, u.answer = .ok outcome ∧
      ((result = .ok outcome ∧ j'.store.Settled id) ∨
        ∃ e, result = .error (.storage e) ∧ j'.store.status id = j.store.status id) := by
  cases h with
  | unread hstill => cases hstill.adds.mem_sent hnone hu
  | refused hsame hadds =>
    obtain rfl := List.mem_singleton.mp (hadds.mem_sent hnone hu)
    exact .inl ⟨_, rfl, rfl, hsame⟩
  | kept _ _ hsame hadds =>
    obtain rfl := List.mem_singleton.mp (hadds.mem_sent hnone hu)
    exact .inr ⟨_, rfl, .inr ⟨_, rfl, by rw [hsame]⟩⟩
  | lost _ _ _ hstatus _ hadds =>
    obtain rfl := List.mem_singleton.mp (hadds.mem_sent hnone hu)
    exact .inr ⟨_, rfl, .inr ⟨_, rfl, hstatus id⟩⟩
  | settled hstatus hrows hadds =>
    obtain rfl := List.mem_singleton.mp (hadds.mem_sent hnone hu)
    exact .inr ⟨_, rfl, .inl ⟨rfl, fun t => by rw [hrows, if_pos rfl],
      by rw [hstatus, if_pos rfl]⟩⟩

theorem Store.not_settled_of_finished {s : Store} (h : s.status id = .ok .finished) :
    ¬ s.Settled id := by
  rintro ⟨-, hsynced⟩
  rw [h] at hsynced
  cases hsynced

/-- The measurement is settled exactly if its request is accepted and the store does not fail
then. -/
theorem HandsOver.settled_iff {access : SyncAccess} {result : Except SyncError Outcome}
    (h : HandsOver act id (access.request j.store id) j result j') (hnone : j.uploads id = [])
    (hu : u ∈ j'.uploads id) (hfinished : j.store.status id = .ok .finished) :
    j'.store.Settled id ↔ u.answer.isOk = true ∧ ∀ e, result ≠ .error (.storage e) := by
  rcases h.by_answer hnone hu with ⟨e, hanswer, rfl, hsame⟩ |
    ⟨outcome, hanswer, ⟨rfl, hsettled⟩ | ⟨e, rfl, hstatus⟩⟩
  · refine iff_of_false (Store.not_settled_of_finished (hsame ▸ hfinished)) ?_
    rintro ⟨hok, -⟩
    rw [hanswer] at hok
    cases hok
  · exact iff_of_true hsettled ⟨by rw [hanswer]; rfl, nofun⟩
  · exact iff_of_false (Store.not_settled_of_finished (hstatus.trans hfinished))
      fun hfailed => hfailed.2 e rfl

/-- While the database serves every call, the measurement is settled exactly if its request is
accepted. -/
theorem HandsOver.settled_iff_of_serves {access : SyncAccess} {result : Except SyncError Outcome}
    (h : HandsOver Journal.Serves id (access.request j.store id) j result j')
    (hrules : j.store.rules = Rules.none) (hnone : j.uploads id = []) (hu : u ∈ j'.uploads id)
    (hfinished : j.store.status id = .ok .finished) :
    j'.store.Settled id ↔ u.answer.isOk = true := by
  rw [h.settled_iff hnone hu hfinished, and_iff_left_iff_imp]
  rintro hok e rfl
  -- The request was accepted, so the measurement was synced, and it was not if the store failed.
  rcases h.stays_or_settled hrules hfinished with
    ⟨-, hadds | ⟨e', hadds⟩⟩ | ⟨hsynced, -⟩
  · cases hadds.mem_sent hnone hu
  · obtain rfl := List.mem_singleton.mp (hadds.mem_sent hnone hu)
    cases hok
  · rcases h.by_answer hnone hu with
      ⟨e', hanswer, -⟩ | ⟨outcome, -, ⟨hresult, -⟩ | ⟨e', -, hstatus⟩⟩
    · rw [hanswer] at hok
      cases hok
    · cases hresult
    · rw [hstatus, hfinished] at hsynced
      cases hsynced

/-- A request was sent while its measurement was handed over. Before and after that the cycle left
the measurement alone. -/
theorem exists_handsOver_of_sent {result : Except SyncError SyncReport}
    (hact : ∀ c j answer j', act c j answer j' → Journal.Acts c j answer j')
    (hwell : s.WellFormed)
    (h : (syncCycle queryLimit timeoutMs account).Ends act ⟨s, []⟩ result j') (hu : u ∈ j'.sent) :
    ∃ (report : SyncReport) (access : SyncAccess) (j₁ : Journal)
        (handed : Except SyncError Outcome) (j₂ : Journal), result = .ok report ∧
      s.status u.request.id = .ok .finished ∧ Journal.Untouched ⟨s, []⟩ u.request.id j₁ ∧
      HandsOver act u.request.id (access.request j₁.store u.request.id) j₁ handed j₂ ∧
      j₂.Untouched u.request.id j' ∧ u ∈ j₂.uploads u.request.id ∧
      ∀ e, report.aborted = some (u.request.id, e) ↔ handed = .error e := by
  have hmem : u ∈ j'.uploads u.request.id := List.mem_filter.mpr ⟨hu, decide_eq_true rfl⟩
  -- A cycle that fails as a whole sends nothing.
  obtain ⟨report, rfl⟩ : ∃ report, result = .ok report := by
    rcases ends_syncCycle hact h with ⟨-, hstill⟩ | ⟨-, -, report, -, hresult, -⟩
    · rw [(hstill.untouched u.request.id).uploads_eq] at hmem
      cases hmem
    · exact ⟨report, hresult⟩
  obtain ⟨handed, hseen, hfinished, haborted⟩ :=
    exists_seen_syncCycle hact hwell h u.request.id
  cases hseen with
  | untouched hall =>
    rw [hall.uploads_eq] at hmem
    cases hmem
  | handed hbefore hover hafter =>
    refine ⟨report, _, _, _, _, rfl, hfinished (Option.some_ne_none _), hbefore, hover, hafter,
      hafter.uploads_eq ▸ hmem, fun e => ?_⟩
    rw [haborted report e rfl, Option.some_inj]

end

/-- Only the status of an answer decides what happens to the data.

Whatever the text is, a measurement is new to the collector exactly with the status 201, and known
to it exactly with 409. Every other status is an error: a bad request exactly with 400, a missing
login exactly with 401, and otherwise one that carries the status, with the text where the answer
cannot be understood. A new login is asked for exactly with 401.

So take any cycle, in which the database may fail at any call, and any measurement that was
uploaded in it. The measurement is emptied and synced exactly if the collector answered 201 or 409,
and the database did not fail when the measurement was to be settled. Without such an answer it is
as it was. While the database serves every call, the answer of the collector alone decides. -/
theorem status_decides :
    (∀ status text,
      (Response.judge status text = .ok .created ↔ status = 201) ∧
      (Response.judge status text = .ok .alreadyPresent ↔ status = 409) ∧
      (status ≠ 201 → status ≠ 409 → ∃ e, Response.judge status text = .error e ∧
        ((∃ reason, e = .badRequest reason) ↔ status = 400) ∧
        ((∃ reason, e = .unauthorized reason) ↔ status = 401) ∧
        (status ≠ 400 → status ≠ 401 →
          (Response.Understood status text → ∃ reason, e = .requestRejected status reason) ∧
          (¬ Response.Understood status text → e = .malformedResponse status text)) ∧
        (e.needsLogin = true ↔ status = 401))) ∧
    ∀ (s : Store) (queryLimit timeoutMs : Nat) (account : String)
      (result : Except SyncError SyncReport) (j' : Journal), s.WellFormed →
      (syncCycle queryLimit timeoutMs account).Ends Journal.Acts ⟨s, []⟩ result j' →
      ∀ u ∈ j'.sent, ∀ chunkBytes x,
      u.answer = (Upload.run chunkBytes u.request.body x).2 →
      ∃ report, result = .ok report ∧
        (j'.store.Settled u.request.id ↔
          x.Accepted ∧ ∀ e, report.aborted ≠ some (u.request.id, .storage e)) ∧
        (¬ x.Accepted → (∃ e, report.aborted = some (u.request.id, e)) ∧
          j'.store.status u.request.id = .ok .finished ∧
          ∀ t, j'.store.rowsOf u.request.id t = s.rowsOf u.request.id t) ∧
        (s.rules = Rules.none →
          (syncCycle queryLimit timeoutMs account).Ends Journal.Serves ⟨s, []⟩ result j' →
          (j'.store.Settled u.request.id ↔ x.Accepted)) := by
  refine ⟨fun status text => ⟨Response.judge_eq_created_iff, Response.judge_eq_alreadyPresent_iff,
    Response.judge_eq_error⟩, ?_⟩
  intro s queryLimit timeoutMs account result j' hwell h u hu chunkBytes x hx
  have haccepted : u.answer.isOk = true ↔ x.Accepted := by
    rw [hx]
    exact Upload.isOk_run_iff
  obtain ⟨report, access, j₁, handed, j₂, rfl, hfinished, hbefore, hover, hafter, hmem, haborted⟩ :=
    exists_handsOver_of_sent (fun _ _ _ _ hacts => hacts) hwell h hu
  refine ⟨report, rfl, ?_, fun hrefused => ?_, fun hrules hserves => ?_⟩
  · rw [hafter.settled_iff, hover.settled_iff hbefore.uploads_eq hmem
      (hbefore.status_eq.trans hfinished), haccepted]
    simp only [ne_eq, haborted]
  · rw [← haccepted] at hrefused
    rcases hover.by_answer hbefore.uploads_eq hmem with ⟨e, -, rfl, hsame⟩ | ⟨outcome, hanswer, -⟩
    · refine ⟨⟨e, (haborted e).mpr rfl⟩, ?_, fun t => ?_⟩
      · rw [hafter.status_eq, hsame, hbefore.status_eq]
        exact hfinished
      · rw [hafter.rowsOf_eq, hsame, hbefore.rowsOf_eq]
    · exact absurd (by rw [hanswer]; rfl) hrefused
  · obtain ⟨-, access, j₁, handed, j₂, -, -, hbefore, hover, hafter, hmem, -⟩ :=
      exists_handsOver_of_sent (fun _ _ _ _ hserved => hserved.acts) hwell hserves hu
    obtain ⟨sent, unmarked, hadds, -⟩ := hbefore.exists_adds
    rw [hafter.settled_iff, hover.settled_iff_of_serves (hadds.rules_eq.trans hrules)
      hbefore.uploads_eq hmem (hbefore.status_eq.trans hfinished), haccepted]

/-- Surroundings with a collector that has the first measurement and answers with a page, and that
fails for all others. -/
def firstKnown : Surroundings where
  token _ _ := .granted "token"
  preference _ := some "value"
  collector _ request :=
    if request.id = ⟨1⟩ then Response.judge 409 "<html>" else Response.judge 500 "null"

/-- A cycle with two finished measurements. The first one is known, and is settled though the page
is no JSON. The other one is not settled, though the text is JSON. -/
theorem status_decides_twoFinished :
    ∃ result j', twoFinished.WellFormed ∧
      (syncCycle 1 1000 "account").Ends Journal.Acts ⟨twoFinished, []⟩ result j' ∧
      j'.sent.map (fun u => u.request.id) = [⟨1⟩, ⟨3⟩] ∧
      j'.store.Settled ⟨1⟩ ∧ ¬ j'.store.Settled ⟨3⟩ := by
  have hwell : twoFinished.WellFormed := ⟨by decide, by decide⟩
  have hserves := Journal.ends_run_serve firstKnown (syncCycle 1 1000 "account") ⟨twoFinished, []⟩
  have hsent : (((syncCycle 1 1000 "account").run (Journal.serve firstKnown)
      ⟨twoFinished, []⟩).2.sent.map fun u => (u.request.id, u.answer)) =
        [(⟨1⟩, .ok .alreadyPresent), (⟨3⟩, .error (.requestRejected 500 "null"))] := by
    decide +kernel
  generalize (syncCycle 1 1000 "account").run (Journal.serve firstKnown) ⟨twoFinished, []⟩ = run
    at hserves hsent
  have hacts := hserves.mono fun _ _ _ _ h => h.acts
  have hknown : Response.judge 409 "<html>" = .ok .alreadyPresent := by decide +kernel
  have hfailed : Response.judge 500 "null" = .error (.requestRejected 500 "null") := by
    decide +kernel
  have hmem₁ : ((⟨1⟩ : MeasurementId), (.ok .alreadyPresent : Except SyncError Outcome)) ∈
      run.2.sent.map fun u => (u.request.id, u.answer) := hsent ▸ List.mem_cons_self
  have hmem₃ : ((⟨3⟩ : MeasurementId),
      (.error (.requestRejected 500 "null") : Except SyncError Outcome)) ∈
      run.2.sent.map fun u => (u.request.id, u.answer) :=
    hsent ▸ List.mem_cons_of_mem _ List.mem_cons_self
  obtain ⟨u₁, hu₁, heq₁⟩ := List.mem_map.mp hmem₁
  obtain ⟨u₃, hu₃, heq₃⟩ := List.mem_map.mp hmem₃
  obtain ⟨hid₁, hanswer₁⟩ := Prod.mk.inj heq₁
  obtain ⟨hid₃, hanswer₃⟩ := Prod.mk.inj heq₃
  obtain ⟨-, -, -, -, hsettled⟩ := status_decides.2 _ _ _ _ _ _ hwell hacts u₁ hu₁ 1
    (.answered 409 "<html>") (by rw [Upload.snd_run, hanswer₁]; exact hknown.symm)
  obtain ⟨-, -, -, -, hleft⟩ := status_decides.2 _ _ _ _ _ _ hwell hacts u₃ hu₃ 1
    (.answered 500 "null") (by rw [Upload.snd_run, hanswer₃]; exact hfailed.symm)
  rw [hid₁] at hsettled
  rw [hid₃] at hleft
  refine ⟨_, _, hwell, hacts, ?_, (hsettled rfl hserves).mpr (.inr rfl), fun h => ?_⟩
  · have hids := congrArg (List.map Prod.fst) hsent
    rwa [List.map_map] at hids
  · exact absurd ((hleft rfl hserves).mp h) (by simp [Exchange.Accepted])

end TripRecorder
