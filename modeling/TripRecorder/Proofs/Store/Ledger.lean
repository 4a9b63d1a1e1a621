import TripRecorder.Proofs.Store.Append
import TripRecorder.Proofs.Store.WellFormed

/-!
# The ledger of a store

Clients create measurements, add points to them, move them forward and empty them, one request
after another, and the database may fail at any call. The answers to these requests tell what is
stored: every measurement that was created and no other, with the points that were committed to it
since it was emptied last.

## Main definitions

* `Deed` — a request and its answer
* `Store.Does`, `Store.Run` — one request, and a sequence of them
* `standing` — the points of a measurement, by the answers
* `Deed.Law`, `Deed.Lawful` — what a request may change
* `Accounts` — the answers tell what is stored

## Main results

* `Store.Does.lawful`, `Store.Does.accounts` — what one request keeps
* `Store.Run.accounts`, `Store.Run.forward` — what every run keeps
* `Store.Run.ledger` — the ledger of a run on a new store
-/

namespace TripRecorder

/-- What a client asked of a store, and what it was answered. -/
inductive Deed where
  | create (vehicle : Vehicle) (answer : Except StoreError MeasurementId)
  | append (id : MeasurementId) (points : List Point) (answer : Except StoreError AppendReport)
  | setStatus (id : MeasurementId) (target : MeasurementStatus) (answer : Except StoreError Unit)
  | clean (id : MeasurementId) (answer : Except StoreError Nat)

namespace Deed

/-- The measurement that was created. -/
def created? : Deed → Option MeasurementId
  | create _ (.ok id) => some id
  | _ => none

/-- The measurement that a request is about. -/
def subject? : Deed → Option MeasurementId
  | append id _ _ | setStatus id _ _ | clean id _ => some id
  | d => d.created?

/-- The points of a measurement after a request, by its answer. What was committed comes after what
was there, and a purge leaves nothing. -/
def stands (id : MeasurementId) (points : List Point) : Deed → List Point
  | append i added answer => if i = id then points ++ committed added answer else points
  | clean i (.ok _) => if i = id then [] else points
  | _ => points

/-- What a request does, by its answer. -/
def Law (s s' : Store) : Deed → Prop
  | create _ (.ok id) =>
    s.status id = .error (.noSuchMeasurement id) ∧ s'.status id = .ok .opened
  | create _ (.error _) => s' = s
  | append id points answer =>
    s.Gains id (committed points answer) s' ∧ (committed points answer = [] → s' = s) ∧
      (s.status id ≠ .ok .opened → s' = s)
  | setStatus id target answer =>
    ((∀ detail, answer ≠ .error (.database detail)) →
      (answer = .ok () ↔ ∃ current, s.status id = .ok current ∧ current.canBecome target = true)) ∧
    (answer = .ok () → s'.status id = .ok target) ∧ (answer ≠ .ok () → s' = s) ∧
      ∀ i t, s'.rowsOf i t = s.rowsOf i t
  | clean id (.ok n) =>
    n = Table.total (s.count id) ∧ (∀ t, s'.rowsOf id t = []) ∧
      s'.entries = s.entries
  | clean _ (.error _) => s' = s

/-- What a request may change. -/
structure Lawful (s : Store) (d : Deed) (s' : Store) : Prop where
  /-- Its answer tells what it did. -/
  law : d.Law s s'
  /-- All measurements that it is not about stay as they are. -/
  others : ∀ i, d.subject? ≠ some i →
    s'.status i = s.status i ∧ ∀ t, s'.rowsOf i t = s.rowsOf i t
  /-- No measurement moves back. -/
  forward : ∀ i status, s.status i = .ok status →
    ∃ status', s'.status i = .ok status' ∧ status.canBecome status' = true
  /-- No measurement appears unless it is created. -/
  appears : ∀ i status', s'.status i = .ok status' →
    (∃ status, s.status i = .ok status) ∨ d.created? = some i
  /-- A measurement that is not open gets no rows. -/
  closed : ∀ i, s.status i ≠ .ok .opened →
    ∀ t, s'.rowsOf i t = s.rowsOf i t ∨ s'.rowsOf i t = []

end Deed

/-- The measurements that were created, in the order of their creation. -/
def createdIds (deeds : List Deed) : List MeasurementId := deeds.filterMap Deed.created?

/-- The points that were committed to a measurement since it was emptied last. -/
def standing (deeds : List Deed) (id : MeasurementId) : List Point :=
  deeds.foldl (Deed.stands id) []

@[simp] theorem createdIds_concat (deeds : List Deed) (d : Deed) :
    createdIds (deeds ++ [d]) = createdIds deeds ++ d.created?.toList := by
  cases h : d.created? <;> simp [createdIds, List.filterMap_append, h]

@[simp] theorem standing_concat (deeds : List Deed) (d : Deed) (id : MeasurementId) :
    standing (deeds ++ [d]) id = d.stands id (standing deeds id) := by
  rw [standing, List.foldl_append, List.foldl_cons, List.foldl_nil, standing]

/-- The answers tell what is stored. -/
structure Accounts (deeds : List Deed) (s : Store) : Prop where
  ascending : ((createdIds deeds).map fun id => id.value).Pairwise (· < ·)
  exists_status_iff : ∀ id, (∃ status, s.status id = .ok status) ↔ id ∈ createdIds deeds
  points_eq : ∀ id t, s.points id t = keptIn t (standing deeds id)

namespace Store

variable {first s s' : Store} {id : MeasurementId} {deeds : List Deed} {d : Deed}

/-- A request is answered, while the database may fail at each of its calls. -/
def Does (s : Store) (d : Deed) (s' : Store) : Prop :=
  match d with
  | .create vehicle answer => s.Answers (.create vehicle) answer s'
  | .append id points answer =>
    ∃ batchLimit, (appendPoints batchLimit id points).Ends StoreCall.Acts s answer s'
  | .setStatus id target answer => s.Answers (.setStatus id target) answer s'
  | .clean id answer => s.Answers (.clean id) answer s'

/-- Requests are answered one after another. -/
inductive Run (first : Store) : List Deed → Store → Prop where
  | nil : Run first [] first
  | concat {deeds : List Deed} {s s' : Store} {d : Deed} :
      Run first deeds s → s.Does d s' → Run first (deeds ++ [d]) s'

/-! ### One request -/

/-- The rows of a measurement are those of its four tables. -/
theorem length_filter_owner (rows : List Row) (id : MeasurementId) :
    (rows.filter fun r => decide (r.owner = id)).length =
      Table.total fun t => (rows.filter fun r => r.owner = id && r.point.table = t).length := by
  induction rows with
  | nil => rfl
  | cons r rest ih =>
    by_cases hr : r.owner = id
    · -- The row is counted once, in the table of its point.
      have htable := r.point.table.mem_all
      simp only [List.filter_cons, hr, decide_true, Bool.true_and, if_true, List.length_cons, ih]
      simp only [Table.all, List.mem_cons, List.not_mem_nil, or_false] at htable
      rcases htable with ht | ht | ht | ht <;> simp [Table.total, ht] <;> omega
    · simp only [List.filter_cons, hr, decide_false, Bool.false_and, Bool.false_eq_true, if_false]
      exact ih

/-- A purge answers the number of rows it removed. -/
theorem clean_eq_total {n : Nat} (h : (s.clean id).1 = .ok n) :
    n = Table.total (s.count id) := by
  unfold clean at h
  simp only at h
  split at h
  · cases h
  · cases h
    have htotal := length_filter_owner s.ledger.toList id
    have hsplit := s.ledger.toList.length_eq_length_filter_add fun r => decide (r.owner = id)
    have hleft : (s.ledger.filter fun r => !decide (r.owner = id)).size =
        (s.ledger.toList.filter fun r => !decide (r.owner = id)).length := by
      rw [← Array.length_toList, Array.toList_filter]
    rw [Array.length_toList] at hsplit
    have hcount : Table.total (s.count id) =
        (s.ledger.toList.filter fun r => decide (r.owner = id)).length := htotal.symm
    rw [hcount, hleft]
    omega

/-- A request that changes nothing. -/
theorem lawful_of_same (hlaw : d.Law s s) : d.Lawful s s where
  law := hlaw
  others _ _ := ⟨rfl, fun _ => rfl⟩
  forward _ status hs := ⟨status, hs, status.canBecome_refl⟩
  appears _ status' hs' := .inl ⟨status', hs'⟩
  closed _ _ _ := .inl rfl

theorem lawful_create {vehicle : Vehicle} {answer : Except StoreError MeasurementId}
    (h : s.Answers (.create vehicle) answer s') : (Deed.create vehicle answer).Lawful s s' := by
  have hrows (i : MeasurementId) (t : Table) : s'.rowsOf i t = s.rowsOf i t := h.rows_of_create i t
  rcases h.of_create with ⟨e, rfl, rfl⟩ | ⟨rfl, hstatus, -⟩
  · exact lawful_of_same rfl
  · refine ⟨⟨status_nextId s, by rw [hstatus, if_pos rfl]⟩, ?_, ?_, ?_,
      fun i _ t => .inl (hrows i t)⟩
    · intro i hi
      have hne : i ≠ s.nextId := fun heq => hi (congrArg some heq.symm)
      exact ⟨by rw [hstatus, if_neg hne], hrows i⟩
    · intro i status hs
      -- The new identifier had no status.
      have hne : i ≠ s.nextId := by
        rintro rfl
        rw [status_nextId] at hs
        cases hs
      exact ⟨status, by rw [hstatus, if_neg hne, hs], status.canBecome_refl⟩
    · intro i status' hs'
      by_cases hi : i = s.nextId
      · exact .inr (congrArg some hi.symm)
      · rw [hstatus, if_neg hi] at hs'
        exact .inl ⟨status', hs'⟩

theorem lawful_append {batchLimit : Nat} {points : List Point}
    {answer : Except StoreError AppendReport}
    (h : (appendPoints batchLimit id points).Ends StoreCall.Acts s answer s') :
    (Deed.append id points answer).Lawful s s' := by
  obtain ⟨hgains, hsame, hclosed⟩ := ends_appendPoints h
  have hstatus (i : MeasurementId) : s'.status i = s.status i :=
    status_congr hgains.entries_eq i
  refine ⟨⟨hgains, hsame, fun hne => hsame (hclosed hne)⟩, ?_, ?_,
    fun i status' hs' => .inl ⟨status', (hstatus i).symm.trans hs'⟩, ?_⟩
  · intro i hi
    have hne : i ≠ id := fun heq => hi (congrArg some heq.symm)
    exact ⟨hstatus i, hgains.rowsOf_eq i hne⟩
  · intro i status hs
    exact ⟨status, (hstatus i).trans hs, status.canBecome_refl⟩
  · intro i hne t
    by_cases hi : i = id
    · subst hi
      rw [hsame (hclosed hne)]
      exact .inl rfl
    · exact .inl (hgains.rowsOf_eq i hi t)

/-- A request to move a measurement succeeds where it can, unless the database fails. -/
theorem setStatus_ok_iff {target : MeasurementStatus} {answer : Except StoreError Unit}
    (h : s.Answers (.setStatus id target) answer s')
    (hserved : ∀ detail, answer ≠ .error (.database detail)) :
    answer = .ok () ↔ ∃ current, s.status id = .ok current ∧ current.canBecome target = true := by
  constructor
  · rintro rfl
    rcases h.of_setStatus with ⟨e, hfailed, -⟩ | ⟨-, hcurrent, -⟩
    · cases hfailed
    · exact hcurrent
  · rintro ⟨current, hcurrent, hcan⟩
    rcases h with ⟨rfl, -⟩ | ⟨detail, rfl, -⟩
    · rcases s.setStatus_cases id target with ⟨e, hmissing, -⟩ | ⟨current', hs, hback, -⟩ |
        ⟨-, heq⟩ | ⟨current', -, -, -, ⟨refusal, -, heq⟩ | ⟨-, heq⟩⟩
      · rw [hcurrent] at hmissing
        cases hmissing
      · rw [hcurrent] at hs
        cases hs
        rw [hcan] at hback
        cases hback
      · exact congrArg Prod.fst heq
      · exact absurd (congrArg Prod.fst heq) (hserved refusal)
      · exact congrArg Prod.fst heq
    · exact absurd rfl (hserved detail)

theorem lawful_setStatus {target : MeasurementStatus} {answer : Except StoreError Unit}
    (h : s.Answers (.setStatus id target) answer s') :
    (Deed.setStatus id target answer).Lawful s s' := by
  have hiff := setStatus_ok_iff h
  have hrows := h.rows_of_setStatus
  rcases h.of_setStatus with ⟨e, rfl, rfl⟩ | ⟨rfl, ⟨current, hcurrent, hcan⟩, hstatus, -⟩
  · exact lawful_of_same ⟨hiff, nofun, fun _ => rfl, hrows⟩
  · refine ⟨⟨hiff, fun _ => by rw [hstatus, if_pos rfl], fun hne => absurd rfl hne, hrows⟩,
      ?_, ?_, ?_, fun i _ t => .inl (hrows i t)⟩
    · intro i hi
      have hne : i ≠ id := fun heq => hi (congrArg some heq.symm)
      exact ⟨by rw [hstatus, if_neg hne], hrows i⟩
    · intro i status hs
      by_cases hi : i = id
      · subst hi
        rw [hcurrent] at hs
        cases hs
        exact ⟨target, by rw [hstatus, if_pos rfl], hcan⟩
      · exact ⟨status, by rw [hstatus, if_neg hi, hs], status.canBecome_refl⟩
    · intro i status' hs'
      by_cases hi : i = id
      · subst hi
        exact .inl ⟨current, hcurrent⟩
      · rw [hstatus, if_neg hi] at hs'
        exact .inl ⟨status', hs'⟩

/-- A purge that went through answered the number of rows it removed. -/
theorem Answers.clean_eq_total {n : Nat} (h : s.Answers (.clean id) (.ok n) s') :
    n = Table.total (s.count id) := by
  rcases h with ⟨hserved, -⟩ | ⟨detail, hfailed, -⟩
  · exact Store.clean_eq_total hserved.symm
  · cases hfailed

theorem lawful_clean {answer : Except StoreError Nat} (h : s.Answers (.clean id) answer s') :
    (Deed.clean id answer).Lawful s s' := by
  rcases h.rows_of_clean with ⟨e, rfl, rfl⟩ | ⟨n, rfl, hentries, hrows⟩
  · exact lawful_of_same rfl
  · have hstatus (i : MeasurementId) : s'.status i = s.status i := status_congr hentries i
    refine ⟨⟨h.clean_eq_total, fun t => by rw [hrows, if_pos rfl], hentries⟩, ?_, ?_,
      fun i status' hs' => .inl ⟨status', (hstatus i).symm.trans hs'⟩, ?_⟩
    · intro i hi
      have hne : i ≠ id := fun heq => hi (congrArg some heq.symm)
      exact ⟨hstatus i, fun t => by rw [hrows, if_neg hne]⟩
    · intro i status hs
      exact ⟨status, (hstatus i).trans hs, status.canBecome_refl⟩
    · intro i _ t
      rw [hrows]
      by_cases hi : i = id
      · exact .inr (if_pos hi)
      · exact .inl (if_neg hi)

/-- Every request does what its answer tells, and no more. -/
theorem Does.lawful (h : s.Does d s') : d.Lawful s s' := by
  cases d with
  | create vehicle answer => exact lawful_create h
  | append id points answer =>
    obtain ⟨batchLimit, hends⟩ := h
    exact lawful_append hends
  | setStatus id target answer => exact lawful_setStatus h
  | clean id answer => exact lawful_clean h

/-! ### What the answers tell -/

/-- The points of a measurement change as the answer tells. -/
theorem Does.points_eq (h : s.Does d s') {i : MeasurementId} {t : Table} {held : List Point}
    (hheld : s.points i t = keptIn t held) : s'.points i t = keptIn t (d.stands i held) := by
  have hlawful := h.lawful
  have hsame (hrows : s'.rowsOf i t = s.rowsOf i t) : s'.points i t = keptIn t held := by
    rw [points, hrows, ← hheld, points]
  have hother (hi : d.subject? ≠ some i) : s'.points i t = keptIn t held :=
    hsame ((hlawful.others i hi).2 t)
  -- Only an append to this measurement and a purge of it change its points.
  cases d with
  | create vehicle answer => exact hsame (Answers.rows_of_create h i t)
  | append id added answer =>
    by_cases hi : id = i
    · subst hi
      rw [hlawful.law.1.points_eq, hheld, Deed.stands, if_pos rfl, keptIn_append]
    · rw [Deed.stands, if_neg hi]
      exact hother fun heq => hi (Option.some.inj heq)
  | setStatus id target answer => exact hsame (Answers.rows_of_setStatus h i t)
  | clean id answer =>
    cases answer with
    | error e =>
      obtain rfl := hlawful.law
      exact hheld
    | ok n =>
      by_cases hi : id = i
      · subst hi
        rw [Deed.stands, if_pos rfl, points, hlawful.law.2.1]
        rfl
      · rw [Deed.stands, if_neg hi]
        exact hother fun heq => hi (Option.some.inj heq)

/-- No call leaves a point behind that cannot be read. -/
theorem Answers.readable {c : StoreCall} {answer : StoreAnswer c} {i : MeasurementId}
    (h : s.Answers c answer s') (hread : s.Readable i) : s'.Readable i := by
  cases c with
  | create vehicle => exact hread.of_eq (h.rows_of_create i)
  | setStatus id target => exact hread.of_eq (h.rows_of_setStatus i)
  | insert id points =>
    rcases h with ⟨-, rfl⟩ | ⟨-, -, rfl⟩
    · exact hread.insert id points
    · exact hread
  | clean id =>
    rcases h.rows_of_clean with ⟨-, -, rfl⟩ | ⟨n, -, -, hrows⟩
    · exact hread
    · intro t r hr
      rw [hrows] at hr
      split at hr
      · exact absurd hr List.not_mem_nil
      · exact hread t r hr
  | _ =>
    obtain rfl := h.of_reads (by trivial)
    exact hread

theorem keeps_of_ends {α : Type} {keeps : Store → Prop} {p : Procedure StoreAnswer α} {a : α}
    (h : p.Ends StoreCall.Acts s a s')
    (hcalls : ∀ c s answer s', s.Answers c answer s' → keeps s → keeps s') (hs : keeps s) :
    keeps s' := by
  induction h with
  | done a s => exact hs
  | call hcall _ ih => exact ih (hcalls _ _ _ _ hcall hs)

/-- What every call keeps is kept by every request, which is made of calls. -/
theorem Does.keeps {keeps : Store → Prop} (h : s.Does d s')
    (hcalls : ∀ c s answer s', s.Answers c answer s' → keeps s → keeps s') (hs : keeps s) :
    keeps s' := by
  cases d with
  | create vehicle answer => exact hcalls (.create vehicle) s answer s' h hs
  | append id points answer =>
    obtain ⟨batchLimit, hends⟩ := h
    exact keeps_of_ends hends hcalls hs
  | setStatus id target answer => exact hcalls (.setStatus id target) s answer s' h hs
  | clean id answer => exact hcalls (.clean id) s answer s' h hs

/-- A new measurement is open, and comes after all others. -/
theorem Does.created (h : s.Does d s') (hcreated : d.created? = some id) :
    s'.status id = .ok .opened ∧
      ∀ i status, s.status i = .ok status → i.value < id.value := by
  cases d with
  | create vehicle answer =>
    rcases Answers.of_create h with ⟨e, rfl, -⟩ | ⟨rfl, hstatus, -⟩
    · cases hcreated
    · cases hcreated
      refine ⟨by rw [hstatus, if_pos rfl], ?_⟩
      intro i status hs
      obtain ⟨e, hentry, -⟩ := status_eq_ok_iff.mp hs
      have hid : e.id = i := by simpa using List.find?_some hentry
      exact hid ▸ lt_nextId (List.mem_of_find?_eq_some hentry)
  | _ => cases hcreated

theorem Does.accounts (h : s.Does d s') (haccounts : Accounts deeds s) :
    Accounts (deeds ++ [d]) s' where
  ascending := by
    rw [createdIds_concat, List.map_append, List.pairwise_append]
    refine ⟨haccounts.ascending, ?_, ?_⟩
    · cases d.created? <;> simp
    · intro n hn m hm
      obtain ⟨i, hi, rfl⟩ := List.mem_map.mp hn
      obtain ⟨id, hid, rfl⟩ := List.mem_map.mp hm
      obtain ⟨status, hs⟩ := (haccounts.exists_status_iff i).mpr hi
      exact (h.created (Option.mem_toList.mp hid)).2 i status hs
  exists_status_iff i := by
    rw [createdIds_concat, List.mem_append, Option.mem_toList,
      ← haccounts.exists_status_iff]
    constructor
    · rintro ⟨status', hs'⟩
      exact h.lawful.appears i status' hs'
    · rintro (⟨status, hs⟩ | hcreated)
      · obtain ⟨status', hs', -⟩ := h.lawful.forward i status hs
        exact ⟨status', hs'⟩
      · exact ⟨.opened, (h.created hcreated).1⟩
  points_eq i t := by
    rw [standing_concat]
    exact h.points_eq (haccounts.points_eq i t)

/-! ### Runs -/

/-- No measurement moves back in a run. -/
theorem Run.forward (h : first.Run deeds s) {status : MeasurementStatus}
    (hs : first.status id = .ok status) :
    ∃ status', s.status id = .ok status' ∧ status.canBecome status' = true := by
  induction h with
  | nil => exact ⟨status, hs, status.canBecome_refl⟩
  | concat _ hdoes ih =>
    obtain ⟨middle, hmiddle, hcan⟩ := ih
    obtain ⟨status', hs', hcan'⟩ := hdoes.lawful.forward id middle hmiddle
    exact ⟨status', hs', MeasurementStatus.canBecome_trans hcan hcan'⟩

theorem Run.accounts (h : first.Run deeds s) (hfirst : Accounts [] first) : Accounts deeds s := by
  induction h with
  | nil => exact hfirst
  | concat _ hdoes ih => exact hdoes.accounts ih

theorem Run.keeps {keeps : Store → Prop} (h : first.Run deeds s)
    (hcalls : ∀ c s answer s', s.Answers c answer s' → keeps s → keeps s')
    (hfirst : keeps first) : keeps s := by
  induction h with
  | nil => exact hfirst
  | concat _ hdoes ih => exact hdoes.keeps hcalls ih

/-- A new store has nothing to account for. -/
theorem accounts_empty (device : Option String) (batchLimit queryLimit : Nat) (rules : Rules) :
    Accounts [] { empty device batchLimit queryLimit with rules := rules } where
  ascending := List.Pairwise.nil
  exists_status_iff id := by
    constructor
    · rintro ⟨status, hs⟩
      cases hs
    · intro hid
      cases hid
  points_eq _ _ := rfl

/-- A purge that comes right after another removes nothing. -/
theorem clean_again {s'' : Store} {n m : Nat} (h : s.Does (.clean id (.ok n)) s')
    (h' : s'.Does (.clean id (.ok m)) s'') : m = 0 := by
  have hnone (t : Table) : s'.count id t = 0 := by
    rw [count, h.lawful.law.2.1, List.length_nil]
  rw [h'.lawful.law.1]
  simp only [Table.total, hnone]

/-- The ledger of a store. Identifiers are given out in ascending order, the measurements that exist
are those that were created, and their tables hold what was committed since the last purge. Every
further request does what its answer tells and leaves all other measurements alone, a purge that
comes right after another removes nothing, and no measurement ever moves back. A point is kept as it
was committed, but a zero may lose its sign. -/
theorem Run.ledger {device : Option String} {batchLimit queryLimit : Nat} {rules : Rules}
    (h : Run { empty device batchLimit queryLimit with rules := rules } deeds s) :
    Accounts deeds s ∧ (∀ d s', s.Does d s' → d.Lawful s s') ∧
      (∀ id n s' m s'', s.Does (.clean id (.ok n)) s' → s'.Does (.clean id (.ok m)) s'' → m = 0) ∧
      (∀ later s', s.Run later s' → ∀ id status, s.status id = .ok status →
        ∃ status', s'.status id = .ok status' ∧ status.canBecome status' = true) ∧
      ∀ id t, List.Forall₂ Point.StoredAs ((standing deeds id).filter fun p => p.table = t)
        (s.points id t) := by
  have haccounts := h.accounts (accounts_empty device batchLimit queryLimit rules)
  refine ⟨haccounts, fun _ _ hdoes => hdoes.lawful, fun _ _ _ _ _ => clean_again,
    fun _ _ hlater _ _ hs => hlater.forward hs, fun id t => ?_⟩
  rw [haccounts.points_eq]
  exact storedAs_keptIn t (standing deeds id)

/-- The requests of a client and the store after them: of two locations the second one is refused,
and the measurement is finished before a third one comes. -/
def partlyWritten : List Deed × Store :=
  let location : Point := .location ⟨0, .zero, .zero, .zero, .zero⟩
  let nowhere : Point := .location ⟨1, ⟨0x7ff8000000000000⟩, .zero, .zero, .zero⟩
  let created := serve (.create .car) (empty none 1 1)
  let written := (appendPoints 1 ⟨1⟩ [location, nowhere]).run serve created.2
  let finished := serve (.setStatus ⟨1⟩ .finished) written.2
  let refused := (appendPoints 1 ⟨1⟩ [location]).run serve finished.2
  ([.create .car created.1, .append ⟨1⟩ [location, nowhere] written.1,
    .setStatus ⟨1⟩ .finished finished.1, .append ⟨1⟩ [location] refused.1], refused.2)

theorem ledger_partlyWritten :
    Run { empty none 1 1 with rules := Rules.none } partlyWritten.1 partlyWritten.2 ∧
      createdIds partlyWritten.1 = [⟨1⟩] ∧
      partlyWritten.2.points ⟨1⟩ .locations = [.location ⟨0, .zero, .zero, .zero, .zero⟩] ∧
      ∀ n s', partlyWritten.2.Does (.clean ⟨1⟩ (.ok n)) s' → n = 1 := by
  have happend (points : List Point) (s : Store) :
      s.Does (.append ⟨1⟩ points ((appendPoints 1 ⟨1⟩ points).run serve s).1)
        ((appendPoints 1 ⟨1⟩ points).run serve s).2 :=
    ⟨1, Procedure.Ends.of_run answers_serve _ s⟩
  have hcreate (s : Store) : s.Does (.create .car (serve (.create .car) s).1)
      (serve (.create .car) s).2 := answers_serve _ s
  have hfinish (s : Store) :
      s.Does (.setStatus ⟨1⟩ .finished (serve (.setStatus ⟨1⟩ .finished) s).1)
        (serve (.setStatus ⟨1⟩ .finished) s).2 := answers_serve _ s
  have hrun : Run { empty none 1 1 with rules := Rules.none } partlyWritten.1 partlyWritten.2 :=
    Run.nil
      |>.concat (hcreate _)
      |>.concat (happend _ _)
      |>.concat (hfinish _)
      |>.concat (happend _ _)
  obtain ⟨haccounts, hlawful, -, -⟩ := hrun.ledger
  refine ⟨hrun, by decide +kernel, ?_, fun n s' hclean => ?_⟩
  · rw [haccounts.points_eq]
    decide +kernel
  · rw [(hlawful _ _ hclean).law.1]
    decide +kernel

end Store

end TripRecorder
