import TripRecorder.Proofs.Crowd
import TripRecorder.Proofs.Store.Append

/-!
# Adding points amid others

Any number of clients use one store at a time. The store is locked for one call, not for an errand:
an append looks at the status of its measurement in one call and writes its batches in later ones,
and others may come in between. So a row enters a measurement that *was* open when its append
looked. Whether it still is depends on the others, and the append does not look again.

## Main definitions

* `Errand` — what a client comes for
* `Store.Crowd` — clients whose calls come in any order
* `AnsweredCall.Closes` — a call that moves a measurement on
* `Store.overtaken` — an append that a client with another errand overtakes

## Main results

* `follows_appendPoints` — how far an append can have come
* `Store.Answers.status_cases` — only accepted moves change the status of a measurement
* `Store.Crowd.added_while_open_iff` — when a row enters an open measurement, and what an append
  that finds another status does
-/

namespace TripRecorder

/-! ### Errands -/

/-- The calls that add no points. -/
def StoreCall.AddsNone : StoreCall → Prop
  | .insert _ _ => False
  | _ => True

/-- What a client comes for: to add points, or any other call. Nobody inserts a batch by hand. -/
inductive Errand where
  | append (batchLimit : Nat) (id : MeasurementId) (points : List Point)
  | ask (c : StoreCall) (addsNone : c.AddsNone)

namespace Errand

/-- What the client is answered in the end. -/
def Result : Errand → Type
  | append _ _ _ => Except StoreError AppendReport
  | ask c _ => StoreAnswer c

/-- How an errand is done. -/
def procedure : (e : Errand) → Procedure StoreAnswer e.Result
  | append batchLimit id points => appendPoints batchLimit id points
  | ask c _ => .ask c

end Errand

/-- A call that moves a measurement on from being open. -/
def AnsweredCall.Closes (id : MeasurementId) (e : AnsweredCall StoreAnswer) : Prop :=
  ∃ target, target ≠ MeasurementStatus.opened ∧ e = ⟨.setStatus id target, .ok ()⟩

/-- A look at a measurement that found a status. -/
def AnsweredCall.Finds (id : MeasurementId) (status : MeasurementStatus)
    (e : AnsweredCall StoreAnswer) : Prop :=
  e = ⟨.status id, .ok status⟩

/-! ### How far an append has come -/

section Append

variable {id i : MeasurementId} {batchLimit : Nat} {points : List Point}
  {past : List (AnsweredCall StoreAnswer)}
  {rest : Procedure StoreAnswer (Except StoreError AppendReport)}

/-- There are more batches to write, or the append has its answer. It never answers that the
measurement is not open. -/
theorem follows_writeBatches {done : AppendReport} {batches : List (List Point)}
    (h : (writeBatches id done batches).Follows past rest) :
    (∃ done' batch batches', rest = writeBatches id done' (batch :: batches')) ∨
      (∃ report, rest = .done (.ok report)) ∨
      ∃ n m refusal, rest = .done (.error (.partialWrite id n m refusal)) := by
  induction batches generalizing done past with
  | nil =>
    obtain ⟨rfl, rfl⟩ := Procedure.follows_done_iff.mp h
    exact .inr (.inl ⟨done, rfl⟩)
  | cons batch batches ih =>
    rcases Procedure.follows_call_iff.mp h with ⟨rfl, rfl⟩ | ⟨answer, later, rfl, hlater⟩
    · exact .inl ⟨done, batch, batches, rfl⟩
    · cases answer with
      | error refusal =>
        obtain ⟨rfl, rfl⟩ := Procedure.follows_done_iff.mp hlater
        exact .inr (.inr ⟨_, _, refusal, rfl⟩)
      | ok _ => exact ih hlater

/-- An append without points makes no call. -/
theorem follows_appendPoints_nil (h : (appendPoints batchLimit id []).Follows past rest) :
    past = [] ∧ rest = .done (.ok ⟨0, 0⟩) :=
  Procedure.follows_done_iff.mp h

/-- An append has not begun, or its look at the status has ended it, or it found the measurement
open and writes its batches. -/
theorem follows_appendPoints (h : (appendPoints batchLimit id points).Follows past rest) :
    (past = [] ∧ rest = appendPoints batchLimit id points) ∨
    (∃ e, past = [⟨.status id, .error e⟩] ∧ rest = .done (.error e)) ∨
    (∃ status, status ≠ .opened ∧ past = [⟨.status id, .ok status⟩] ∧
      rest = .done (.error (.notOpen id status))) ∨
    ∃ later, past = ⟨.status id, .ok .opened⟩ :: later ∧
      (writeBatches id ⟨0, 0⟩ (inChunks batchLimit points)).Follows later rest := by
  unfold appendPoints at h ⊢
  by_cases hpoints : points.isEmpty = true
  · rw [if_pos hpoints] at h ⊢
    exact .inl (Procedure.follows_done_iff.mp h)
  · rw [if_neg hpoints] at h ⊢
    rcases Procedure.follows_call_iff.mp h with hnone | ⟨answer, later, rfl, hlater⟩
    · exact .inl hnone
    · cases answer with
      | error e =>
        obtain ⟨rfl, rfl⟩ := Procedure.follows_done_iff.mp hlater
        exact .inr (.inl ⟨e, rfl, rfl⟩)
      | ok status =>
        simp only at hlater
        by_cases hopen : status = .opened
        · subst hopen
          exact .inr (.inr (.inr ⟨later, rfl, hlater⟩))
        · rw [if_neg hopen] at hlater
          obtain ⟨rfl, rfl⟩ := Procedure.follows_done_iff.mp hlater
          exact .inr (.inr (.inl ⟨status, hopen, rfl, rfl⟩))

/-- An append that is about to write a batch has looked first, and found its measurement open. -/
theorem finds_of_follows_insert {batch : List Point}
    {next : Except String Unit → Procedure StoreAnswer (Except StoreError AppendReport)}
    (h : (appendPoints batchLimit id points).Follows past (.call (.insert i batch) next)) :
    i = id ∧ ∃ later, past = ⟨.status id, .ok .opened⟩ :: later := by
  rcases follows_appendPoints h with ⟨-, hrest⟩ | ⟨e, -, hrest⟩ | ⟨status, -, -, hrest⟩ |
    ⟨later, rfl, hlater⟩
  · unfold appendPoints at hrest
    split at hrest <;> cases hrest
  · cases hrest
  · cases hrest
  · refine ⟨?_, later, rfl⟩
    rcases follows_writeBatches hlater with ⟨_, _, _, hrest⟩ | ⟨_, hrest⟩ | ⟨_, _, _, hrest⟩
    · cases hrest
      rfl
    · cases hrest
    · cases hrest

end Append

namespace Store

variable {s s' : Store} {id i : MeasurementId}

/-! ### What a call does to a status and to rows -/

/-- Only an accepted move changes the status of a measurement. -/
theorem Answers.status_cases {c : StoreCall} {answer : StoreAnswer c}
    {status : MeasurementStatus} (h : s.Answers c answer s') (hs : s.status id = .ok status) :
    s'.status id = .ok status ∨ ∃ target, (⟨c, answer⟩ : AnsweredCall StoreAnswer) =
      ⟨.setStatus id target, .ok ()⟩ ∧ status.canBecome target = true ∧
      s'.status id = .ok target := by
  cases c with
  | create vehicle =>
    rcases h.of_create with ⟨e, -, rfl⟩ | ⟨-, hstatus, -⟩
    · exact .inl hs
    · -- The new identifier had no status.
      have hne : id ≠ s.nextId := by
        rintro rfl
        rw [status_nextId] at hs
        cases hs
      exact .inl (by rw [hstatus, if_neg hne, hs])
  | setStatus moved target =>
    rcases h.of_setStatus with ⟨e, -, rfl⟩ | ⟨rfl, ⟨current, hcurrent, hcan⟩, hstatus, -⟩
    · exact .inl hs
    · by_cases hid : id = moved
      · subst hid
        rw [hs] at hcurrent
        cases hcurrent
        exact .inr ⟨target, rfl, hcan, by rw [hstatus, if_pos rfl]⟩
      · exact .inl (by rw [hstatus, if_neg hid, hs])
  | insert owner batch =>
    rcases h.of_insert with ⟨e, -, rfl⟩ | ⟨-, hentries, -⟩
    · exact .inl hs
    · exact .inl ((status_congr hentries id).trans hs)
  | clean owner =>
    rcases h.of_clean with ⟨e, -, rfl⟩ | ⟨n, -, hentries, -⟩
    · exact .inl hs
    · exact .inl ((status_congr hentries id).trans hs)
  | _ =>
    obtain rfl := h.of_reads (by trivial)
    exact .inl hs

/-- An open measurement stays open at a call that does not move it on. -/
theorem Answers.opened_iff {c : StoreCall} {answer : StoreAnswer c} (h : s.Answers c answer s')
    (hs : s.status id = .ok .opened) :
    s'.status id = .ok .opened ↔ ¬(⟨c, answer⟩ : AnsweredCall StoreAnswer).Closes id := by
  rcases h.status_cases hs with hsame | ⟨target, hcall, -, hmoved⟩
  · refine iff_of_true hsame ?_
    rintro ⟨target, hne, hcall⟩
    cases hcall
    rcases h.of_setStatus with ⟨e, herror, -⟩ | ⟨-, -, hstatus, -⟩
    · cases herror
    · rw [hstatus, if_pos rfl] at hsame
      exact hne (Except.ok.inj hsame)
  · constructor
    · rintro hopen ⟨target', hne, hcall'⟩
      rw [hcall] at hcall'
      cases hcall'
      rw [hmoved] at hopen
      exact hne (Except.ok.inj hopen)
    · intro hstays
      by_cases htarget : target = .opened
      · rw [hmoved, htarget]
      · exact absurd ⟨target, htarget, hcall⟩ hstays

/-- A measurement that was moved on never opens again. -/
theorem Answers.ne_opened {c : StoreCall} {answer : StoreAnswer c} {status : MeasurementStatus}
    (h : s.Answers c answer s') (hs : s.status id = .ok status) (hne : status ≠ .opened) :
    ∃ status', s'.status id = .ok status' ∧ status' ≠ .opened := by
  rcases h.status_cases hs with hsame | ⟨target, -, hcan, hmoved⟩
  · exact ⟨status, hsame, hne⟩
  · refine ⟨target, hmoved, ?_⟩
    rintro rfl
    cases status <;> first | exact hne rfl | cases hcan

/-- A call after which a table of a measurement holds a row more has inserted a batch. -/
theorem Answers.insert_of_new {c : StoreCall} {answer : StoreAnswer c} {t : Table} {row : Row}
    (h : s.Answers c answer s') (hnew : row ∈ s'.rowsOf id t) (hold : row ∉ s.rowsOf id t) :
    ∃ batch, c = .insert id batch := by
  cases c with
  | create vehicle =>
    rw [h.rows_of_create] at hnew
    exact absurd hnew hold
  | setStatus moved target =>
    rw [h.rows_of_setStatus] at hnew
    exact absurd hnew hold
  | insert owner batch =>
    rcases h.gains with ⟨e, -, rfl⟩ | ⟨-, hgains⟩
    · exact absurd hnew hold
    · by_cases hid : id = owner
      · exact ⟨batch, by rw [hid]⟩
      · rw [hgains.rowsOf_eq id hid] at hnew
        exact absurd hnew hold
  | clean owner =>
    rcases h.rows_of_clean with ⟨e, -, rfl⟩ | ⟨n, -, -, hrows⟩
    · exact absurd hnew hold
    · rw [hrows] at hnew
      split at hnew
      · cases hnew
      · exact absurd hnew hold
  | _ =>
    obtain rfl := h.of_reads (by trivial)
    exact absurd hnew hold

/-! ### Many clients -/

/-- A call of a client and what it found and left. -/
abbrev ClientCall := Moment StoreAnswer Store

/-- A client with its errand. -/
abbrev Client := Party StoreAnswer Errand.Result

/-- Clients come to a store with their errands, and their calls are answered one at a time in any
order. The database may fail at each of them. -/
abbrev Crowd (first : Store) (clients : List Client) (past : List ClientCall) (s : Store) : Prop :=
  TripRecorder.Crowd Errand.procedure StoreCall.Acts first clients past s

/-- What was moved on stays so. -/
theorem passes_ne_opened {later : List ClientCall} {status : MeasurementStatus}
    (h : Moment.Passes StoreCall.Acts s later s') (hs : s.status id = .ok status)
    (hne : status ≠ .opened) : ∃ status', s'.status id = .ok status' ∧ status' ≠ .opened := by
  induction later generalizing s status with
  | nil =>
    obtain rfl := h
    exact ⟨status, hs, hne⟩
  | cons m later ih =>
    obtain ⟨rfl, hact, hlater⟩ := h
    obtain ⟨status', hs', hne'⟩ := Answers.ne_opened hact hs hne
    exact ih hlater hs' hne'

/-- An open measurement still exists after any calls, and it is open if none of them moved it on. -/
theorem passes_opened_iff {later : List ClientCall}
    (h : Moment.Passes StoreCall.Acts s later s') (hs : s.status id = .ok .opened) :
    (∃ status, s'.status id = .ok status) ∧
      (s'.status id = .ok .opened ↔ ∀ m ∈ later, ¬m.answered.Closes id) := by
  induction later generalizing s with
  | nil =>
    obtain rfl := h
    exact ⟨⟨_, hs⟩, iff_of_true hs fun m hm => absurd hm List.not_mem_nil⟩
  | cons m later ih =>
    obtain ⟨rfl, hact, hlater⟩ := h
    have hopen : m.after.status id = .ok .opened ↔ ¬m.answered.Closes id :=
      Answers.opened_iff hact hs
    rw [List.forall_mem_cons]
    by_cases hcloses : m.answered.Closes id
    · -- From here on the measurement is not open any more.
      rcases Answers.status_cases hact hs with hsame | ⟨target, -, -, hmoved⟩
      · exact absurd hcloses (hopen.mp hsame)
      · have hne : target ≠ .opened := by
          rintro rfl
          exact hopen.mp hmoved hcloses
        obtain ⟨status', hs', hne'⟩ := passes_ne_opened hlater hmoved hne
        refine ⟨⟨status', hs'⟩, ?_⟩
        refine iff_of_false (fun hopened => ?_) fun hnone => hnone.1 hcloses
        rw [hs'] at hopened
        exact hne' (Except.ok.inj hopened)
    · obtain ⟨hexists, hiff⟩ := ih hlater (hopen.mpr hcloses)
      exact ⟨hexists, hiff.trans ⟨fun hnone => ⟨hcloses, hnone⟩, fun hnone => hnone.2⟩⟩

namespace Crowd

variable {first : Store} {clients : List Client} {past early late : List ClientCall}

/-- Only an append inserts batches. Before it did, it found its measurement open. -/
theorem finds_of_insert {m : ClientCall} {batch : List Point}
    (h : Crowd first clients (early ++ m :: late) s) (hcall : m.call = .insert id batch) :
    ∃ earlier look between, early = earlier ++ look :: between ∧ look.party = m.party ∧
      look.answered.Finds id .opened := by
  obtain ⟨⟨errand, rest⟩, next, -, hearly, -⟩ := h.at_moment
  obtain ⟨party, before, call, answer, after⟩ := m
  obtain rfl : call = .insert id batch := hcall
  cases errand with
  | append batchLimit owner points =>
    obtain ⟨rfl, later, hown⟩ := finds_of_follows_insert hearly
    have hmem : (⟨.status id, .ok .opened⟩ : AnsweredCall StoreAnswer) ∈
        Moment.ownOf party early := by
      rw [hown]
      exact List.mem_cons_self ..
    obtain ⟨look, hlook, hparty, hfinds⟩ := Moment.exists_of_mem_ownOf hmem
    obtain ⟨earlier, between, rfl⟩ := List.mem_iff_append.mp hlook
    exact ⟨earlier, look, between, rfl, hparty, hfinds⟩
  | ask c addsNone =>
    -- A single call that adds no points is not followed by an insertion, and it is none.
    rcases Procedure.follows_call_iff.mp hearly with ⟨-, hrest⟩ | ⟨answer, later, -, hlater⟩
    · cases hrest
      exact addsNone.elim
    · obtain ⟨-, hrest⟩ := Procedure.follows_done_iff.mp hlater
      cases hrest

/-- What a look found was so. -/
theorem status_of_finds {m : ClientCall} {status : MeasurementStatus}
    (hact : StoreCall.Acts m.call m.before m.answer m.after) (h : m.answered.Finds id status) :
    m.before.status id = .ok status ∧ m.after = m.before := by
  obtain ⟨party, before, call, answer, after⟩ := m
  cases h
  have hanswers : Answers before (.status id) (.ok status) after := hact
  exact ⟨hanswers.status_of_ok, hanswers.of_reads (by trivial)⟩

/-- A look that fails does not answer that the measurement is not open. -/
theorem ne_notOpen_of_look {m : ClientCall} {status : MeasurementStatus}
    (hact : StoreCall.Acts m.call m.before m.answer m.after)
    (h : m.answered = ⟨.status id, .error (.notOpen id status)⟩) : False := by
  obtain ⟨party, before, call, answer, after⟩ := m
  cases h
  rcases hact with ⟨hserved, -⟩ | ⟨detail, hfailed, -⟩
  · rcases status_eq_error hserved.symm with he | ⟨text, he⟩ <;> cases he
  · cases hfailed

/-- A row that enters a measurement was brought by an append that had found it open. The measurement
is open at that moment exactly if nobody has moved it on since. -/
theorem added_iff {m : ClientCall} {t : Table} {row : Row}
    (h : Crowd first clients (early ++ m :: late) s) (hnew : row ∈ m.after.rowsOf id t)
    (hold : row ∉ m.before.rowsOf id t) :
    ∃ earlier look between, early = earlier ++ look :: between ∧ look.party = m.party ∧
      look.answered.Finds id .opened ∧ look.before.status id = .ok .opened ∧
      (∃ status, m.before.status id = .ok status) ∧
      (m.before.status id = .ok .opened ↔ ∀ other ∈ between, ¬other.answered.Closes id) := by
  have hact := h.passes.act_of_mem (List.mem_append_right _ (List.mem_cons_self ..))
  obtain ⟨batch, hcall⟩ := Answers.insert_of_new hact hnew hold
  obtain ⟨earlier, look, between, rfl, hparty, hfinds⟩ := h.finds_of_insert hcall
  have hpasses := h.passes
  rw [List.append_assoc, List.cons_append] at hpasses
  obtain ⟨hopen, hsame⟩ := status_of_finds
    (hpasses.act_of_mem (List.mem_append_right _ (List.mem_cons_self ..))) hfinds
  rw [← hsame] at hopen
  obtain ⟨hexists, hiff⟩ := passes_opened_iff hpasses.between hopen
  exact ⟨earlier, look, between, rfl, hparty, hfinds, hsame ▸ hopen, hexists, hiff⟩

/-- An append answers that its measurement is not open exactly if its look found that, and the look
was then all it did. -/
theorem notOpen_iff {n batchLimit : Nat} {points : List Point} {status : MeasurementStatus}
    {rest : Procedure StoreAnswer (Except StoreError AppendReport)}
    (h : Crowd first clients past s)
    (hclient : clients[n]? = some ⟨.append batchLimit id points, rest⟩) :
    rest = .done (.error (.notOpen id status)) ↔
      status ≠ .opened ∧ Moment.ownOf n past = [⟨.status id, .ok status⟩] := by
  have hfollows : (appendPoints batchLimit id points).Follows (Moment.ownOf n past) rest :=
    h.follows hclient
  rcases follows_appendPoints hfollows with ⟨hpast, rfl⟩ | ⟨e, hpast, rfl⟩ |
    ⟨found, hne, hpast, rfl⟩ | ⟨later, hpast, hlater⟩ <;> rw [hpast]
  case inl =>
    refine iff_of_false ?_ (fun hlook => nomatch hlook.2)
    unfold appendPoints
    split <;> nofun
  case inr.inl =>
    refine iff_of_false ?_ (fun hlook => nomatch hlook.2)
    -- The error of a look names no status.
    rintro herror
    cases herror
    have hmem : (⟨.status id, .error (.notOpen id status)⟩ : AnsweredCall StoreAnswer) ∈
        Moment.ownOf n past := by
      rw [hpast]
      exact List.mem_cons_self ..
    obtain ⟨look, hlook, -, hanswered⟩ := Moment.exists_of_mem_ownOf hmem
    exact ne_notOpen_of_look (h.passes.act_of_mem hlook) hanswered
  case inr.inr.inl =>
    constructor
    · rintro hanswer
      cases hanswer
      exact ⟨hne, rfl⟩
    · rintro ⟨-, hlook⟩
      cases hlook
      rfl
  case inr.inr.inr =>
    refine iff_of_false ?_ ?_
    · rcases follows_writeBatches hlater with ⟨done, batch, batches, rfl⟩ | ⟨report, rfl⟩ |
        ⟨_, _, _, rfl⟩ <;> nofun
    · rintro ⟨hne, hlook⟩
      cases hlook
      exact hne rfl

/-- A look that found another status than open was all that its append did, and is what it
answers. -/
theorem answers_of_finds {n batchLimit : Nat} {points : List Point} {status : MeasurementStatus}
    {rest : Procedure StoreAnswer (Except StoreError AppendReport)} {look : ClientCall}
    (h : Crowd first clients past s)
    (hclient : clients[n]? = some ⟨.append batchLimit id points, rest⟩) (hlook : look ∈ past)
    (hparty : look.party = n) (hfinds : look.answered.Finds id status) (hne : status ≠ .opened) :
    Moment.ownOf n past = [look.answered] ∧ rest = .done (.error (.notOpen id status)) := by
  have hfollows : (appendPoints batchLimit id points).Follows (Moment.ownOf n past) rest :=
    h.follows hclient
  have hmem : look.answered ∈ Moment.ownOf n past := hparty ▸ Moment.answered_mem_ownOf hlook
  rw [hfinds] at hmem ⊢
  rcases follows_appendPoints hfollows with ⟨hpast, -⟩ | ⟨e, hpast, -⟩ | ⟨found, -, hpast, rfl⟩ |
    ⟨later, hpast, hlater⟩ <;> rw [hpast] at hmem ⊢
  · cases hmem
  · cases List.mem_singleton.mp hmem
  · cases List.mem_singleton.mp hmem
    exact ⟨rfl, rfl⟩
  · -- After a look that found the measurement open, only batches are written.
    rcases List.mem_cons.mp hmem with heq | hmem
    · cases heq
      exact absurd rfl hne
    · obtain ⟨batch, hinsert⟩ := (hlater.of_asks (asks_writeBatches id _ _)).1 _ hmem
      cases hinsert

/-- However the calls of clients come in between each other: a row that enters a measurement was
brought by an append whose look had found it open, and it enters an open measurement exactly if
nobody has moved the measurement on since that look. An append whose look finds another status makes
no other call and answers that status, and nothing else makes an append answer so. Without points
it does not look. -/
theorem added_while_open_iff (h : Crowd first clients past s) :
    (∀ early m late id t row, past = early ++ m :: late → row ∈ m.after.rowsOf id t →
      row ∉ m.before.rowsOf id t →
      ∃ earlier look between, early = earlier ++ look :: between ∧ look.party = m.party ∧
        look.answered.Finds id .opened ∧ look.before.status id = .ok .opened ∧
        (∃ status, m.before.status id = .ok status) ∧
        (m.before.status id = .ok .opened ↔ ∀ other ∈ between, ¬other.answered.Closes id)) ∧
    ∀ n batchLimit id points rest, clients[n]? = some ⟨.append batchLimit id points, rest⟩ →
      (∀ look ∈ past, look.party = n → ∀ status, look.answered.Finds id status →
        status ≠ .opened → look.before.status id = .ok status ∧
          Moment.ownOf n past = [look.answered] ∧ rest = .done (.error (.notOpen id status))) ∧
      (∀ status, rest = .done (.error (.notOpen id status)) →
        status ≠ .opened ∧ Moment.ownOf n past = [⟨.status id, .ok status⟩]) ∧
      (points = [] → Moment.ownOf n past = [] ∧ rest = .done (.ok ⟨0, 0⟩)) := by
  refine ⟨?_, fun n batchLimit id points rest hclient => ⟨?_, ?_, ?_⟩⟩
  · rintro early m late id t row rfl hnew hold
    exact h.added_iff hnew hold
  · intro look hlook hparty status hfinds hne
    exact ⟨(status_of_finds (h.passes.act_of_mem hlook) hfinds).1,
      h.answers_of_finds hclient hlook hparty hfinds hne⟩
  · exact fun status => (h.notOpen_iff hclient).mp
  · rintro rfl
    exact follows_appendPoints_nil (h.follows hclient)

end Crowd

/-- Two points for two batches. -/
def twoPoints : List Point :=
  [.location ⟨1, .zero, .zero, .zero, .zero⟩, .location ⟨2, .zero, .zero, .zero, .zero⟩]

/-- An append of two batches looks, and writes the first one. Then somebody finishes the
measurement, and the append writes the second one. -/
def overtaken : Scene StoreAnswer Errand.Result Store :=
  TripRecorder.Crowd.play Errand.procedure serve ((empty none 1 1).create .car).2
    [.enter (.append 1 ⟨1⟩ twoPoints), .enter (.ask (.setStatus ⟨1⟩ .finished) trivial),
      .call 0, .call 0, .call 1, .call 0]

/-- The moment of the second batch. -/
def lateInsert : ClientCall := overtaken.past.get ⟨3, by decide +kernel⟩

/-- The row of the second batch. -/
def lateRow : Row := ⟨⟨1⟩, 2, .location ⟨2, .zero, .zero, .zero, .zero⟩, true⟩

theorem crowd_overtaken : Crowd ((empty none 1 1).create .car).2 overtaken.parties overtaken.past
    overtaken.state :=
  TripRecorder.Crowd.of_play answers_serve _ _

theorem past_overtaken : overtaken.past = overtaken.past.take 3 ++ [lateInsert] := by
  have hlast : overtaken.past.drop 4 = [] := List.drop_eq_nil_of_le (by decide +kernel)
  have hdrop : overtaken.past.drop 3 = lateInsert :: overtaken.past.drop 4 :=
    List.drop_eq_getElem_cons (by decide +kernel)
  rw [← hlast, ← hdrop, List.take_append_drop]

theorem status_lateInsert : lateInsert.before.status ⟨1⟩ = .ok .finished :=
  status_eq_ok_iff.mpr ⟨⟨⟨1⟩, .car, .known .finished, none⟩, by decide +kernel, rfl⟩

/-- The late row came because its append had looked before the measurement was finished. -/
theorem closed_before_lateInsert :
    Crowd ((empty none 1 1).create .car).2 overtaken.parties overtaken.past overtaken.state ∧
      ∃ earlier look between, overtaken.past.take 3 = earlier ++ look :: between ∧
        look.before.status ⟨1⟩ = .ok .opened ∧ ∃ other ∈ between, other.answered.Closes ⟨1⟩ := by
  have hlaw := Crowd.added_while_open_iff crowd_overtaken
  obtain ⟨earlier, look, between, hearly, -, -, hopen, -, hiff⟩ :=
    hlaw.1 (overtaken.past.take 3) lateInsert [] ⟨1⟩ .locations lateRow past_overtaken
      (by decide +kernel) (by decide +kernel)
  refine ⟨crowd_overtaken, earlier, look, between, hearly, hopen, ?_⟩
  refine Classical.byContradiction fun hnone => ?_
  have hstill := hiff.mpr fun other hother hcloses => hnone ⟨other, hother, hcloses⟩
  rw [status_lateInsert] at hstill
  cases hstill

/-- A row enters a finished measurement, and the append that brought it answers that all went well.
An append of no points to the finished measurement answers so as well. -/
theorem added_after_finish :
    Crowd ((empty none 1 1).create .car).2 overtaken.parties overtaken.past overtaken.state ∧
      lateInsert ∈ overtaken.past ∧ lateInsert.before.status ⟨1⟩ = .ok .finished ∧
      lateRow ∈ lateInsert.after.rowsOf ⟨1⟩ .locations ∧
      lateRow ∉ lateInsert.before.rowsOf ⟨1⟩ .locations ∧
      overtaken.parties[0]? = some ⟨.append 1 ⟨1⟩ twoPoints,
        .done (Except.ok ⟨2, 2⟩ : Except StoreError AppendReport)⟩ ∧
      (appendPoints 1 ⟨1⟩ []).run serve overtaken.state = (.ok ⟨0, 0⟩, overtaken.state) := by
  refine ⟨crowd_overtaken, List.get_mem _ _, status_lateInsert, by decide +kernel,
    by decide +kernel, ?_, rfl⟩
  have hchunks : inChunks 1 twoPoints = twoPoints.map fun p => [p] := by decide +kernel
  simp only [overtaken, TripRecorder.Crowd.play, List.foldl_cons, List.foldl_nil,
    TripRecorder.Crowd.cue, Errand.procedure, appendPoints, hchunks]
  rfl

end Store

end TripRecorder
