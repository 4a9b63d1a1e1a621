import TripRecorder.Proofs.Store.Points

/-!
# Calls of a store that may fail

Besides refusing by rule, a database may fail at any call for a reason of its own: a full disk, a
file that cannot be read. The call then has an error for an answer and changes nothing.

## Main definitions

* `StoreCall.failure` — the answer when the database fails
* `Store.Answers` — a call is served, or the database fails
* `StoreCall.Reads` — the calls that change nothing
* `StoreCall.written` — the points that a call has written, by its answer

## Main results

* `Store.Answers.of_reads`, `Store.Answers.of_insert`, `Store.Answers.of_clean`,
  `Store.Answers.of_setStatus`, `Store.Answers.of_create` — what an answer says about the store
-/

namespace TripRecorder

namespace StoreCall

/-- The answer to a call when the database fails. -/
def failure (detail : String) : (c : StoreCall) → StoreAnswer c
  | .create _ => .error (.database detail)
  | .load _ => .error (.database detail)
  | .all => .error (.database detail)
  | .lastOpen => .error (.database detail)
  | .status _ => .error (.database detail)
  | .setStatus _ _ => .error (.database detail)
  | .syncable => .error (.database detail)
  | .insert _ _ => .error detail
  | .page _ _ _ _ => .error (.database detail)
  | .count _ _ => .error (.database detail)
  | .clean _ => .error (.database detail)

/-- The calls that change nothing. -/
def Reads : StoreCall → Prop
  | .create _ | .setStatus _ _ | .insert _ _ | .clean _ => False
  | _ => True

/-- The points that a call has written, each with its measurement, by the answer to the call. -/
def written : (c : StoreCall) → StoreAnswer c → List (MeasurementId × Point)
  | .insert id points, .ok () => points.map fun p => (id, p.kept)
  | _, _ => []

/-- What a call has written to a table of a measurement is what the table keeps of it. -/
theorem written_insert (id : MeasurementId) (ps : List Point) (i : MeasurementId) (t : Table) :
    (((StoreCall.insert id ps).written (.ok ())).filter fun w => w.1 = i ∧ w.2.table = t).map
      (fun w => w.2) = if id = i then keptIn t ps else [] := by
  rw [written, List.filter_map, List.map_map]
  by_cases hi : id = i
  · simp [keptIn, hi, Function.comp_def]
  · simp [hi, Function.comp_def]

end StoreCall

namespace Store

/-- A call is served, or the database fails and nothing changes. -/
def Answers (s : Store) (c : StoreCall) (answer : StoreAnswer c) (s' : Store) : Prop :=
  (answer = (serve c s).1 ∧ s' = (serve c s).2) ∨
    ∃ detail, answer = c.failure detail ∧ s' = s

variable {s s' : Store} {id : MeasurementId}

/-- A call changes measurements and points, and nothing else of a store. -/
theorem exists_serve (c : StoreCall) (s : Store) : ∃ entries ledger counters,
    (serve c s).2 = { s with entries := entries, ledger := ledger, counters := counters } := by
  have hsame : ∃ entries ledger counters,
      s = { s with entries := entries, ledger := ledger, counters := counters } :=
    ⟨s.entries, s.ledger, s.counters, rfl⟩
  cases c with
  | create vehicle =>
    simp only [serve, create]
    split
    · exact hsame
    · exact ⟨_, s.ledger, s.counters, rfl⟩
  | setStatus id target =>
    rcases s.setStatus_cases id target with ⟨e, -, heq⟩ | ⟨current, -, -, heq⟩ | ⟨-, heq⟩ |
      ⟨current, -, -, -, ⟨refusal, -, heq⟩ | ⟨-, heq⟩⟩
    all_goals rw [serve, heq]
    case inr.inr.inr.inr => exact ⟨_, s.ledger, s.counters, rfl⟩
    all_goals exact hsame
  | insert id ps =>
    obtain ⟨ledger, counters, hinsert⟩ := exists_insert s id ps
    exact ⟨s.entries, ledger, counters, hinsert⟩
  | clean id =>
    simp only [serve, clean]
    split
    · exact hsame
    · exact ⟨s.entries, _, s.counters, rfl⟩
  | _ => exact hsame

theorem answers_serve (c : StoreCall) (s : Store) : s.Answers c (serve c s).1 (serve c s).2 :=
  .inl ⟨rfl, rfl⟩

namespace Answers

/-- No call changes what the database refuses by rule. -/
theorem rules_eq {c : StoreCall} {answer : StoreAnswer c} (h : s.Answers c answer s') :
    s'.rules = s.rules := by
  rcases h with ⟨-, rfl⟩ | ⟨-, -, rfl⟩
  · obtain ⟨entries, ledger, counters, hserve⟩ := exists_serve c s
    rw [hserve]
  · rfl

/-- No call changes how many rows a page holds. -/
theorem queryLimit_eq {c : StoreCall} {answer : StoreAnswer c} (h : s.Answers c answer s') :
    s'.queryLimit = s.queryLimit := by
  rcases h with ⟨-, rfl⟩ | ⟨-, -, rfl⟩
  · obtain ⟨entries, ledger, counters, hserve⟩ := exists_serve c s
    rw [hserve]
  · rfl

theorem of_reads {c : StoreCall} {answer : StoreAnswer c} (hc : c.Reads)
    (h : s.Answers c answer s') : s' = s := by
  rcases h with ⟨-, rfl⟩ | ⟨-, -, rfl⟩
  · cases c <;> first | rfl | exact hc.elim
  · rfl

/-- A status that was answered is the one the store has. -/
theorem status_of_ok {status : MeasurementStatus} (h : s.Answers (.status id) (.ok status) s') :
    s.status id = .ok status := by
  rcases h with ⟨hserved, -⟩ | ⟨detail, hfailed, -⟩
  · exact hserved.symm
  · cases hfailed

/-- Points are written to their tables all together, or not at all. -/
theorem of_insert {ps : List Point} {answer : Except String Unit}
    (h : s.Answers (.insert id ps) answer s') :
    (∃ e, answer = .error e ∧ s' = s) ∨
    (answer = .ok () ∧ s'.entries = s.entries ∧ ∀ i t, s'.points i t = s.points i t ++
      if id = i then keptIn t ps else []) := by
  rcases h with ⟨rfl, rfl⟩ | ⟨detail, rfl, rfl⟩
  · cases hanswer : (s.insert id ps).1 with
    | error e => exact .inl ⟨e, hanswer, insert_error hanswer⟩
    | ok u => exact .inr ⟨hanswer, entries_insert s id ps, points_insert hanswer⟩
  · exact .inl ⟨detail, rfl, rfl⟩

/-- The rows of one measurement are removed, or nothing is. -/
theorem rows_of_clean {answer : Except StoreError Nat} (h : s.Answers (.clean id) answer s') :
    (∃ e, answer = .error e ∧ s' = s) ∨
    (∃ n, answer = .ok n ∧ s'.entries = s.entries ∧
      ∀ i t, s'.rowsOf i t = if i = id then [] else s.rowsOf i t) := by
  rcases h with ⟨rfl, rfl⟩ | ⟨detail, rfl, rfl⟩
  · cases hanswer : (s.clean id).1 with
    | error e => exact .inl ⟨e, hanswer, clean_error hanswer⟩
    | ok n => exact .inr ⟨n, hanswer, entries_clean s id, rowsOf_clean hanswer⟩
  · exact .inl ⟨_, rfl, rfl⟩

/-- The points of one measurement are removed, or nothing is. -/
theorem of_clean {answer : Except StoreError Nat} (h : s.Answers (.clean id) answer s') :
    (∃ e, answer = .error e ∧ s' = s) ∨
    (∃ n, answer = .ok n ∧ s'.entries = s.entries ∧
      ∀ i t, s'.points i t = if i = id then [] else s.points i t) := by
  rcases h.rows_of_clean with hsame | ⟨n, hanswer, hentries, hrows⟩
  · exact .inl hsame
  · refine .inr ⟨n, hanswer, hentries, fun i t => ?_⟩
    rw [points, hrows, points]
    split <;> rfl

/-- A measurement is moved forward, or nothing happens. -/
theorem of_setStatus {target : MeasurementStatus} {answer : Except StoreError Unit}
    (h : s.Answers (.setStatus id target) answer s') :
    (∃ e, answer = .error e ∧ s' = s) ∨
    (answer = .ok () ∧ (∃ current, s.status id = .ok current ∧ current.canBecome target = true) ∧
      (∀ i, s'.status i = if i = id then .ok target else s.status i) ∧
      ∀ i t, s'.points i t = s.points i t) := by
  rcases h with ⟨rfl, rfl⟩ | ⟨detail, rfl, rfl⟩
  · cases hanswer : (s.setStatus id target).1 with
    | error e => exact .inl ⟨e, hanswer, setStatus_error hanswer⟩
    | ok u =>
      exact .inr ⟨hanswer, status_of_setStatus hanswer, status_setStatus hanswer,
        points_setStatus s id target⟩
  · exact .inl ⟨_, rfl, rfl⟩

theorem rows_of_setStatus {target : MeasurementStatus} {answer : Except StoreError Unit}
    (h : s.Answers (.setStatus id target) answer s') (i : MeasurementId) (t : Table) :
    s'.rowsOf i t = s.rowsOf i t := by
  rcases h with ⟨-, rfl⟩ | ⟨-, -, rfl⟩
  · exact rowsOf_setStatus s id target i t
  · rfl

/-- A new measurement leaves all rows as they are. -/
theorem rows_of_create {vehicle : Vehicle} {answer : Except StoreError MeasurementId}
    (h : s.Answers (.create vehicle) answer s') (i : MeasurementId) (t : Table) :
    s'.rowsOf i t = s.rowsOf i t := by
  rcases h with ⟨-, rfl⟩ | ⟨-, -, rfl⟩
  · simp only [serve, create]
    split <;> rfl
  · rfl

/-- A measurement is added under a new identifier, or nothing happens. -/
theorem of_create {vehicle : Vehicle} {answer : Except StoreError MeasurementId}
    (h : s.Answers (.create vehicle) answer s') :
    (∃ e, answer = .error e ∧ s' = s) ∨
    (answer = .ok s.nextId ∧
      (∀ i, s'.status i = if i = s.nextId then .ok .opened else s.status i) ∧
      ∀ i t, s'.points i t = s.points i t) := by
  rcases h with ⟨rfl, rfl⟩ | ⟨detail, rfl, rfl⟩
  · cases hanswer : (s.create vehicle).1 with
    | error e => exact .inl ⟨e, hanswer, create_error hanswer⟩
    | ok new =>
      obtain ⟨rfl, -⟩ := status_create hanswer new
      exact .inr ⟨hanswer, fun i => (status_create hanswer i).2, points_create s vehicle⟩
  · exact .inl ⟨_, rfl, rfl⟩

end Answers

end Store

end TripRecorder
