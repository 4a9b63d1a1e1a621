import Mathlib.Algebra.GroupWithZero.Nat
import Mathlib.Data.List.Basic
import TripRecorder.Proofs.Transcript
import TripRecorder.Proofs.Transfer.Serializer
import TripRecorder.Proofs.Transfer.Wire

/-!
# A serializer, whatever it is answered

Other clients may change the store between any two calls of a serializer, so its answers need not
fit together: a count may be followed by any pages, and a page may be empty at any time. What the
serializer does is read off the transcript of its calls. Of the answers it is assumed only that a
page is no longer than was asked for, and that a page of locations holds locations and one of
samples holds samples. The writer takes whatever it is given.

## Main definitions

* `TransferLog.counts`, `TransferLog.pages`, `TransferLog.rows` — what was answered for a table
* `TransferLog.bytes`, `TransferLog.asked` — what was written, and how often the store was asked
* `PagesTold`, `TablesTold` — what a serializer makes of the answers about a table, and about some

## Main results

* `pagesTold` — the pages of a table are written until they are as many as counted, or one is empty
* `TablesTold.cons`, `TablesTold.stop` — one table after another
* `serialize_told` — a serializer ends, and what it has written is well formed
-/

namespace TripRecorder

/-! ### Transcripts of a serializer -/

/-- A point can be in a page of a table: the pages of locations hold locations, and all others hold
samples. -/
def Table.Holds : Table → Point → Prop
  | .locations, .location _ => True
  | .samples _, .sample _ => True
  | _, _ => False

theorem Table.Holds.length_record {t : Table} {p : Point} (h : t.Holds p) :
    p.record.length = Transfer.recordBytes t := by
  rw [p.length_record]
  cases t with
  | locations =>
    cases p with
    | location l => rfl
    | sample s => exact h.elim
  | samples kind =>
    cases p with
    | location l => exact h.elim
    | sample s => rfl

namespace TransferCall

/-- The answers that are assumed: a write succeeds, and a page is no longer than was asked for. -/
def Fits : (c : TransferCall) → TransferAnswer c → Prop
  | .write _, answer => answer = .ok ()
  | .store (.page _ t _ limit), .ok points => points.length ≤ limit ∧ ∀ p ∈ points, t.Holds p
  | _, _ => True

/-- The count of a table, where one is answered. -/
def counted (t : Table) : (c : TransferCall) → TransferAnswer c → List Nat
  | .store (.count _ t'), .ok n => if t' = t then [n] else []
  | _, _ => []

/-- The page of a table, where one is answered. -/
def paged (t : Table) : (c : TransferCall) → TransferAnswer c → List (List Point)
  | .store (.page _ t' _ _), .ok points => if t' = t then [points] else []
  | _, _ => []

/-- The error of the store, where one is answered. -/
def failed : (c : TransferCall) → TransferAnswer c → List StoreError
  | .store (.count _ _), .error e => [e]
  | .store (.page _ _ _ _), .error e => [e]
  | _, _ => []

/-- The bytes that are to be written. -/
def bytes : TransferCall → List UInt8
  | .write field => field
  | .store _ => []

/-- The store is asked. -/
def isStore : TransferCall → Bool
  | .write _ => false
  | .store _ => true

end TransferCall

namespace TransferLog

variable (t : Table) (log log' : List (AnsweredCall TransferAnswer))

/-- The counts that were answered for a table. -/
def counts : List Nat := log.flatMap fun e => e.call.counted t e.answer

/-- The pages that were answered for a table. -/
def pages : List (List Point) := log.flatMap fun e => e.call.paged t e.answer

/-- The rows of these pages. -/
def rows : List Point := (pages t log).flatten

/-- The errors that the store answered. -/
def storeErrors : List StoreError := log.flatMap fun e => e.call.failed e.answer

/-- The bytes that were written. -/
def bytes : List UInt8 := log.flatMap fun e => e.call.bytes

/-- How often the store was asked. -/
def asked : Nat := log.countP fun e => e.call.isStore

/-- The answers are among those that are assumed. -/
def Fits : Prop := ∀ e ∈ log, e.call.Fits e.answer

/-- The transcript of some writes. -/
def writes (fields : List (List UInt8)) : List (AnsweredCall TransferAnswer) :=
  fields.map fun field => ⟨.write field, .ok ()⟩

@[simp] theorem counts_nil : counts t [] = [] := rfl

@[simp] theorem pages_nil : pages t [] = [] := rfl

@[simp] theorem rows_nil : rows t [] = [] := rfl

@[simp] theorem bytes_nil : bytes [] = [] := rfl

section

variable (e : AnsweredCall TransferAnswer)

@[simp] theorem counts_cons : counts t (e :: log) = e.call.counted t e.answer ++ counts t log :=
  List.flatMap_cons

@[simp] theorem pages_cons : pages t (e :: log) = e.call.paged t e.answer ++ pages t log :=
  List.flatMap_cons

@[simp] theorem rows_cons :
    rows t (e :: log) = (e.call.paged t e.answer).flatten ++ rows t log := by
  rw [rows, pages_cons, List.flatten_append, rows]

@[simp] theorem storeErrors_cons :
    storeErrors (e :: log) = e.call.failed e.answer ++ storeErrors log :=
  List.flatMap_cons

@[simp] theorem bytes_cons : bytes (e :: log) = e.call.bytes ++ bytes log := List.flatMap_cons

@[simp] theorem asked_cons : asked (e :: log) = asked log + if e.call.isStore then 1 else 0 :=
  List.countP_cons

end

@[simp] theorem counts_append : counts t (log ++ log') = counts t log ++ counts t log' :=
  List.flatMap_append

@[simp] theorem pages_append : pages t (log ++ log') = pages t log ++ pages t log' :=
  List.flatMap_append

@[simp] theorem storeErrors_append :
    storeErrors (log ++ log') = storeErrors log ++ storeErrors log' :=
  List.flatMap_append

@[simp] theorem bytes_append : bytes (log ++ log') = bytes log ++ bytes log' := List.flatMap_append

@[simp] theorem asked_append : asked (log ++ log') = asked log + asked log' := List.countP_append

theorem fits_append_iff {log log' : List (AnsweredCall TransferAnswer)} :
    Fits (log ++ log') ↔ Fits log ∧ Fits log' := List.forall_mem_append

variable (fields : List (List UInt8))

@[simp] theorem counts_writes : counts t (writes fields) = [] := by
  simp [counts, writes, TransferCall.counted]

@[simp] theorem pages_writes : pages t (writes fields) = [] := by
  simp [pages, writes, TransferCall.paged]

@[simp] theorem storeErrors_writes : storeErrors (writes fields) = [] := by
  simp [storeErrors, writes, TransferCall.failed]

@[simp] theorem bytes_writes : bytes (writes fields) = fields.flatten := by
  simp [bytes, writes, TransferCall.bytes, List.flatMap_map, List.flatMap_id']

theorem fits_writes : Fits (writes fields) := by
  intro e he
  obtain ⟨field, -, rfl⟩ := List.mem_map.mp he
  rfl

@[simp] theorem asked_writes : asked (writes fields) = 0 := by
  simp [asked, writes, TransferCall.isStore, List.countP_map]

end TransferLog

/-! ### Pages -/

section

open TransferLog

variable {log : List (AnsweredCall TransferAnswer)} {id : MeasurementId} {t : Table}
  {pageSize expected read : Nat}

theorem follows_writeField {field : List UInt8} {r : Except SerializeError Unit}
    (h : (writeField field).run.Follows log (.done r)) (hfits : Fits log) :
    r = .ok () ∧ log = writes [field] := by
  obtain ⟨answer, later, rfl, hnext⟩ := Procedure.follows_call_done_iff.mp h
  obtain rfl : answer = .ok () := hfits _ List.mem_cons_self
  obtain ⟨rfl, heq⟩ := Procedure.follows_done_iff.mp hnext
  cases heq
  exact ⟨rfl, rfl⟩

theorem follows_writeFields {fields : List (List UInt8)} {r : Except SerializeError Unit}
    (h : (writeFields fields).run.Follows log (.done r)) (hfits : Fits log) :
    r = .ok () ∧ log = writes fields := by
  induction fields generalizing log with
  | nil =>
    obtain ⟨rfl, heq⟩ := Procedure.follows_done_iff.mp h
    cases heq
    exact ⟨rfl, rfl⟩
  | cons field rest ih =>
    rcases Procedure.follows_bind_except_done_iff.mp h with ⟨e, hfield, -⟩ |
      ⟨first, later, ⟨⟩, rfl, hfield, hrest⟩
    · cases (follows_writeField hfield hfits).1
    · obtain ⟨hfirst, hlater⟩ := fits_append_iff.mp hfits
      obtain ⟨-, rfl⟩ := follows_writeField hfield hfirst
      obtain ⟨rfl, rfl⟩ := ih hrest hlater
      exact ⟨rfl, rfl⟩

/-- One page, read while rows are missing. It fails, or it is empty and the pages end, or its rows
are written and the next page follows. -/
theorem follows_page {r : Except SerializeError Nat} (hmissing : read < expected)
    (h : (writePages id t pageSize expected read).run.Follows log (.done r)) (hfits : Fits log) :
    let call : TransferCall := .store (.page id t read (min pageSize (expected - read)))
    (∃ e, log = [⟨call, .error e⟩] ∧ r = .error (.storage e)) ∨
      (log = [⟨call, .ok []⟩] ∧ r = .ok read) ∨
        ∃ points later,
          log = ⟨call, .ok points⟩ :: (writes (points.flatMap Point.fields) ++ later) ∧
          0 < points.length ∧ read + points.length ≤ expected ∧
          (writePages id t pageSize expected (read + points.length)).run.Follows later
            (.done r) := by
  rw [writePages, dif_pos hmissing] at h
  obtain ⟨answer, later, rfl, hnext⟩ := Procedure.follows_call_done_iff.mp h
  cases answer with
  | error e =>
    obtain ⟨rfl, heq⟩ := Procedure.follows_done_iff.mp hnext
    cases heq
    exact .inl ⟨e, rfl, rfl⟩
  | ok points =>
    obtain ⟨hpage, hlater⟩ := List.forall_mem_cons.mp hfits
    cases points with
    | nil =>
      obtain ⟨rfl, heq⟩ := Procedure.follows_done_iff.mp hnext
      cases heq
      exact .inr (.inl ⟨rfl, rfl⟩)
    | cons p others =>
      -- No page is longer than the rows that are missing, so the next one starts within the count.
      have hle : (p :: others).length ≤ min pageSize (expected - read) := hpage.1
      rcases Procedure.follows_bind_except_done_iff.mp hnext with ⟨e, hwrite, -⟩ |
        ⟨first, rest, ⟨⟩, rfl, hwrite, hrest⟩
      · cases (follows_writeFields hwrite hlater).1
      · obtain ⟨-, rfl⟩ := follows_writeFields hwrite (fits_append_iff.mp hlater).1
        exact .inr (.inr ⟨p :: others, rest, rfl, Nat.succ_pos _, by omega, hrest⟩)

/-- A call is a write, or asks for rows of a table below its count. -/
def TransferCall.ReadsBelow (id : MeasurementId) (t : Table) (expected : Nat) :
    TransferCall → Prop
  | .write _ => True
  | .store (.page i t' offset limit) => i = id ∧ t' = t ∧ 0 < limit ∧ offset + limit ≤ expected
  | _ => False

/-- What is made of the pages of a table from a row on. Either as many rows as expected were
answered and written, or there are fewer, and the last page is empty or the store failed. -/
structure PagesTold (id : MeasurementId) (t : Table) (expected read : Nat)
    (log : List (AnsweredCall TransferAnswer)) (r : Except SerializeError Nat) : Prop where
  calls : ∀ e ∈ log, e.call.ReadsBelow id t expected
  bytes_eq : bytes log = (rows t log).flatMap Wire.record
  asked_le : asked log ≤ expected - read
  ends : (r = .ok expected ∧ read + (rows t log).length = expected ∧ [] ∉ pages t log) ∨
    read + (rows t log).length < expected ∧
      (r = .ok (read + (rows t log).length) ∧ [] ∈ pages t log ∨
        ∃ e ∈ storeErrors log, r = .error (.storage e) ∧ [] ∉ pages t log)

/-- A page that is not empty comes before the others. -/
theorem PagesTold.page {points : List Point} {r : Except SerializeError Nat} {call : StoreCall}
    {answer : TransferAnswer (.store call)}
    (h : PagesTold id t expected (read + points.length) log r)
    (hcall : (TransferCall.store call).ReadsBelow id t expected) (hpos : 0 < points.length)
    (hle : read + points.length ≤ expected) (herrors : (TransferCall.store call).failed answer = [])
    (hpages : (TransferCall.store call).paged t answer = [points]) :
    PagesTold id t expected read
      (⟨.store call, answer⟩ :: (writes (points.flatMap Point.fields) ++ log)) r := by
  have hpages' : pages t (⟨.store call, answer⟩ :: (writes (points.flatMap Point.fields) ++ log)) =
      points :: pages t log := by
    simp [hpages]
  have hrows : rows t (⟨.store call, answer⟩ :: (writes (points.flatMap Point.fields) ++ log)) =
      points ++ rows t log := by
    rw [rows, hpages', List.flatten_cons, rows]
  -- If the pages end early, then with a later page.
  have hnone : ([] : List Point) ∈ points :: pages t log ↔ [] ∈ pages t log :=
    List.mem_cons.trans (or_iff_right fun hnil => by simp [← hnil] at hpos)
  refine ⟨fun e he => ?_, ?_, ?_, ?_⟩
  · rcases List.mem_cons.mp he with rfl | he
    · exact hcall
    · rcases List.mem_append.mp he with he | he
      · obtain ⟨field, -, rfl⟩ := List.mem_map.mp he
        trivial
      · exact h.calls e he
  · rw [hrows, List.flatMap_append, ← h.bytes_eq]
    simp [TransferCall.bytes, flatten_flatMap_fields, Point.record_eq]
  · have hothers := h.asked_le
    simp [TransferCall.isStore]
    omega
  · rw [hrows, hpages', List.length_append, ← Nat.add_assoc]
    have hfail : storeErrors (⟨.store call, answer⟩ ::
        (writes (points.flatMap Point.fields) ++ log)) = storeErrors log := by
      simp [herrors]
    rw [hfail, hnone]
    exact h.ends

/-- The pages of a table are written until they are as many as counted, or one of them is empty. -/
theorem pagesTold {r : Except SerializeError Nat} (hpage : 0 < pageSize) (hread : read ≤ expected)
    (h : (writePages id t pageSize expected read).run.Follows log (.done r)) (hfits : Fits log) :
    PagesTold id t expected read log r := by
  -- The rows that are missing get fewer with each page.
  induction hleft : expected - read using Nat.strongRecOn generalizing read log with
  | ind left ih =>
    by_cases hmissing : read < expected
    · have hbelow : (TransferCall.store
          (.page id t read (min pageSize (expected - read)))).ReadsBelow id t expected :=
        ⟨rfl, rfl, by omega, by omega⟩
      rcases follows_page hmissing h hfits with ⟨e, rfl, rfl⟩ | ⟨rfl, rfl⟩ |
        ⟨points, later, rfl, hpos, hle, hrest⟩
      · refine ⟨List.forall_mem_singleton.mpr hbelow, rfl, ?_, .inr ⟨hmissing, .inr ?_⟩⟩
        · exact Nat.sub_pos_of_lt hmissing
        · exact ⟨e, List.mem_singleton_self e, rfl, List.not_mem_nil⟩
      · -- An empty page is the last one.
        have hpages : pages t [⟨.store (.page id t read (min pageSize (expected - read))),
            .ok []⟩] = [[]] := by simp [pages, TransferCall.paged]
        refine ⟨List.forall_mem_singleton.mpr hbelow, ?_, ?_, .inr ⟨?_, .inl ⟨?_, ?_⟩⟩⟩
        · simp [rows, hpages, bytes, TransferCall.bytes]
        · exact Nat.sub_pos_of_lt hmissing
        · simpa [rows, hpages] using hmissing
        · simp [rows, hpages]
        · simp [hpages]
      · have hfitsLater := (fits_append_iff.mp (List.forall_mem_cons.mp hfits).2).2
        have hthen := ih _ (by omega) hle hrest hfitsLater rfl
        exact hthen.page hbelow hpos hle rfl (by simp [TransferCall.paged])
    · obtain rfl : read = expected := by omega
      rw [writePages, dif_neg hmissing] at h
      obtain ⟨rfl, heq⟩ := Procedure.follows_done_iff.mp h
      cases heq
      exact ⟨List.forall_mem_nil _, rfl, Nat.zero_le _, .inl ⟨rfl, rfl, List.not_mem_nil⟩⟩

/-! ### Tables -/

/-- A call is a write, or asks for the count of a table, or for rows of one below its count. -/
def TransferCall.InBounds (id : MeasurementId) (tables : List Table) (counts : Table → List Nat) :
    TransferCall → Prop
  | .write _ => True
  | .store (.count i t) => i = id ∧ t ∈ tables
  | .store (.page i t offset limit) =>
    i = id ∧ t ∈ tables ∧ 0 < limit ∧ ∃ n, counts t = [n] ∧ offset + limit ≤ n
  | _ => False

theorem TransferCall.ReadsBelow.inBounds {c : TransferCall} {counts : Table → List Nat}
    (h : c.ReadsBelow id t expected) (hcounts : counts t = [expected]) :
    c.InBounds id [t] counts := by
  cases c with
  | write field => trivial
  | store c =>
    cases c with
    | page i t' offset limit =>
      obtain ⟨rfl, rfl, hpos, hle⟩ := h
      exact ⟨rfl, List.mem_singleton_self t', hpos, expected, hcounts, hle⟩
    | _ => exact h.elim

/-- The bytes of a table by the answers: a word with its count, if it fits, and the records of the
rows. -/
def TransferLog.written (t : Table) (log : List (AnsweredCall TransferAnswer)) : List UInt8 :=
  ((counts t log).filter (· < UInt32.size)).flatMap (Wire.word 4) ++
    (rows t log).flatMap Wire.record

/-- What was answered explains an error: the pages of a table ended early, the store failed, or a
count does not fit its field. -/
def SerializeError.ToldIn (id : MeasurementId) (tables : List Table)
    (log : List (AnsweredCall TransferAnswer)) : SerializeError → Prop
  | .inconsistent i t expected read => i = id ∧ t ∈ tables ∧ counts t log = [expected] ∧
    [] ∈ pages t log ∧ read = (rows t log).length
  | .storage e => e ∈ storeErrors log
  | .io detail => ∃ t ∈ tables, ∃ n, counts t log = [n] ∧ UInt32.size ≤ n ∧
    detail = s!"{n} points do not fit the u32 count field"

/-- What is made of the answers about some tables. -/
structure TablesTold (id : MeasurementId) (tables : List Table)
    (log : List (AnsweredCall TransferAnswer)) (r : Except SerializeError Nat) : Prop where
  calls : ∀ e ∈ log, e.call.InBounds id tables fun t => counts t log
  counted : ∀ t ∈ tables, (counts t log).length ≤ 1
  rows_le : ∀ t ∈ tables, (rows t log).length ≤ (counts t log).sum
  bytes_eq : bytes log = tables.flatMap fun t => written t log
  asked_le : asked log ≤ tables.length + (tables.map fun t => (counts t log).sum).sum
  whole : ∀ total, r = .ok total → total = (bytes log).length ∧ ∀ t ∈ tables,
    counts t log = [(rows t log).length] ∧ (rows t log).length < UInt32.size
  ended : ∀ t ∈ tables, [] ∈ pages t log → ∃ n, counts t log = [n] ∧ (rows t log).length < n ∧
    r = .error (.inconsistent id t n (rows t log).length)
  failed : ∀ e, r = .error e → e.ToldIn id tables log

/-- Nothing is answered about a table that is not asked for. -/
theorem views_of_not_mem {tables : List Table} {counted : Table → List Nat}
    (h : ∀ e ∈ log, e.call.InBounds id tables counted) (ht : t ∉ tables) :
    counts t log = [] ∧ pages t log = [] := by
  have hother (e : AnsweredCall TransferAnswer) (he : e ∈ log) :
      e.call.counted t e.answer = [] ∧ e.call.paged t e.answer = [] := by
    have hcall := h e he
    obtain ⟨call, answer⟩ := e
    cases call with
    | write field => exact ⟨rfl, rfl⟩
    | store c =>
      cases c with
      | count i t' =>
        have hne : t' ≠ t := fun heq => ht (heq ▸ hcall.2)
        cases answer <;> simp [TransferCall.counted, TransferCall.paged, hne]
      | page i t' offset limit =>
        have hne : t' ≠ t := fun heq => ht (heq ▸ hcall.2.1)
        cases answer <;> simp [TransferCall.counted, TransferCall.paged, hne]
      | _ => exact hcall.elim
  exact ⟨List.flatMap_eq_nil_iff.mpr fun e he => (hother e he).1,
    List.flatMap_eq_nil_iff.mpr fun e he => (hother e he).2⟩

/-- The rows of a table are of its kind. -/
theorem holds_of_mem_rows (hfits : Fits log) : ∀ p ∈ rows t log, t.Holds p := by
  intro p hp
  obtain ⟨page, hpage, hp⟩ := List.mem_flatten.mp hp
  obtain ⟨⟨call, answer⟩, he, hpage⟩ := List.mem_flatMap.mp hpage
  have hfit := hfits _ he
  cases call with
  | write field => cases hpage
  | store c =>
    cases c with
    | page i t' offset limit =>
      cases answer with
      | error e => cases hpage
      | ok points =>
        simp only [TransferCall.paged] at hpage
        split at hpage
        · rename_i heq
          rw [List.mem_singleton.mp hpage] at hp
          exact heq ▸ hfit.2 p hp
        · cases hpage
    | _ => cases hpage

theorem length_records {points : List Point} (h : ∀ p ∈ points, t.Holds p) :
    (points.flatMap Wire.record).length = points.length * Transfer.recordBytes t := by
  rw [← Point.record_eq]
  induction points with
  | nil => simp
  | cons p rest ih =>
    obtain ⟨hp, hrest⟩ := List.forall_mem_cons.mp h
    rw [List.flatMap_cons, List.length_append, hp.length_record, ih hrest, List.length_cons,
      Nat.succ_mul, Nat.add_comm]

/-- While rows are read, nothing is counted. -/
theorem PagesTold.counts_eq {r : Except SerializeError Nat}
    (h : PagesTold id t expected read log r) (t' : Table) : counts t' log = [] := by
  refine List.flatMap_eq_nil_iff.mpr fun e he => ?_
  have hcall := h.calls e he
  obtain ⟨call, answer⟩ := e
  cases call with
  | write field => rfl
  | store c =>
    cases c with
    | page i t' offset limit => rfl
    | _ => exact hcall.elim

/-- How a table ends that was counted: all its rows were written, or a page was empty too early, or
the store failed, or there are too many rows for the field of the count. -/
inductive TableEnds (id : MeasurementId) (t : Table) (n : Nat)
    (log : List (AnsweredCall TransferAnswer)) : Except SerializeError Nat → Prop where
  | whole : (rows t log).length = n → n < UInt32.size →
      (bytes log).length = 4 + n * Transfer.recordBytes t → [] ∉ pages t log →
      TableEnds id t n log (.ok (4 + n * Transfer.recordBytes t))
  | early : (rows t log).length < n → [] ∈ pages t log →
      TableEnds id t n log (.error (.inconsistent id t n (rows t log).length))
  | failed {e : StoreError} : e ∈ storeErrors log → [] ∉ pages t log →
      TableEnds id t n log (.error (.storage e))
  | large : UInt32.size ≤ n → [] ∉ pages t log →
      TableEnds id t n log (.error (.io s!"{n} points do not fit the u32 count field"))

theorem TableEnds.tablesTold {n : Nat} {r : Except SerializeError Nat}
    (h : TableEnds id t n log r) (hcalls : ∀ e ∈ log, e.call.InBounds id [t] fun t => counts t log)
    (hcounts : counts t log = [n]) (hrows : (rows t log).length ≤ n)
    (hbytes : bytes log = written t log) (hasked : asked log ≤ 1 + n) :
    TablesTold id [t] log r where
  calls := hcalls
  counted := by simp [hcounts]
  rows_le := by simpa [hcounts] using hrows
  bytes_eq := by simpa using hbytes
  asked_le := by simpa [hcounts] using hasked
  whole total htotal := by
    cases h with
    | whole hall hfits hlength _ =>
      cases htotal
      exact ⟨hlength.symm, List.forall_mem_singleton.mpr ⟨by rw [hcounts, hall], hall ▸ hfits⟩⟩
    | _ => cases htotal
  ended := by
    rw [List.forall_mem_singleton]
    intro hempty
    cases h with
    | early hfewer _ => exact ⟨n, hcounts, hfewer, rfl⟩
    | whole _ _ _ hnone => exact absurd hempty hnone
    | failed _ hnone => exact absurd hempty hnone
    | large _ hnone => exact absurd hempty hnone
  failed e he := by
    cases h with
    | whole _ _ _ _ => cases he
    | early _ hempty =>
      cases he
      exact ⟨rfl, List.mem_singleton_self t, hcounts, hempty, rfl⟩
    | failed hfailure _ =>
      cases he
      exact hfailure
    | large hlarge _ =>
      cases he
      exact ⟨t, List.mem_singleton_self t, n, hcounts, hlarge, rfl⟩

/-- What a table comes to after its pages: its size if they are as many rows as counted. -/
def pagesResult (id : MeasurementId) (t : Table) (expected : Nat) :
    Except SerializeError Nat → Except SerializeError Nat
  | .error e => .error e
  | .ok read =>
    if read = expected then .ok (4 + expected * Transfer.recordBytes t)
    else .error (.inconsistent id t expected read)

/-- A table is written as its count and its pages. -/
theorem PagesTold.tablesTold {r : Except SerializeError Nat} (h : PagesTold id t expected 0 log r)
    (hcount : expected < UInt32.size) (hfits : Fits log) :
    TablesTold id [t] (⟨.store (.count id t), .ok expected⟩ ::
      (writes [Transfer.countField expected] ++ log)) (pagesResult id t expected r) := by
  have hcounts : counts t (⟨.store (.count id t), .ok expected⟩ ::
      (writes [Transfer.countField expected] ++ log)) = [expected] := by
    simp [TransferCall.counted, h.counts_eq]
  have hpages : pages t (⟨.store (.count id t), .ok expected⟩ ::
      (writes [Transfer.countField expected] ++ log)) = pages t log := by
    simp [TransferCall.paged]
  have hrows : rows t (⟨.store (.count id t), .ok expected⟩ ::
      (writes [Transfer.countField expected] ++ log)) = rows t log := by
    rw [rows, hpages, rows]
  have hbytes : bytes (⟨.store (.count id t), .ok expected⟩ ::
      (writes [Transfer.countField expected] ++ log)) =
      Wire.word 4 expected ++ (rows t log).flatMap Wire.record := by
    simp [TransferCall.bytes, h.bytes_eq, Transfer.countField_eq]
  have hasked := h.asked_le
  have hends := h.ends
  rw [Nat.zero_add] at hends
  refine TableEnds.tablesTold ?_ (fun e he => ?_) hcounts ?_ ?_ ?_
  · -- The size is worked out from the count; it is that of the bytes as all rows were read.
    rcases hends with ⟨rfl, hall, hnone⟩ | ⟨hfewer, ⟨rfl, hempty⟩ | ⟨e, he, rfl, hnone⟩⟩
    · rw [pagesResult, if_pos rfl]
      refine .whole (by rw [hrows, hall]) hcount ?_ (by rwa [hpages])
      rw [hbytes, List.length_append, Wire.length_word,
        length_records (holds_of_mem_rows hfits), hall]
    · rw [pagesResult, if_neg (Nat.ne_of_lt hfewer), ← hrows]
      exact .early (by rwa [hrows]) (by rwa [hpages])
    · exact .failed (by simpa [TransferCall.failed] using he) (by rwa [hpages])
  · rcases List.mem_cons.mp he with rfl | he
    · exact ⟨rfl, List.mem_singleton_self t⟩
    · rcases List.mem_append.mp he with he | he
      · obtain ⟨field, -, rfl⟩ := List.mem_map.mp he
        trivial
      · exact (h.calls e he).inBounds hcounts
  · rw [hrows]
    rcases hends with ⟨-, hall, -⟩ | ⟨hfewer, -⟩
    · exact Nat.le_of_eq hall
    · exact Nat.le_of_lt hfewer
  · rw [hbytes, written, hcounts, hrows]
    simp [hcount]
  · simp [TransferCall.isStore]
    omega

theorem follows_askCount {r : Except SerializeError Nat}
    (h : (askCount id t).run.Follows log (.done r)) :
    (∃ e, log = [⟨.store (.count id t), .error e⟩] ∧ r = .error (.storage e)) ∨
      ∃ n, log = [⟨.store (.count id t), .ok n⟩] ∧ r = .ok n := by
  obtain ⟨answer, later, rfl, hnext⟩ := Procedure.follows_call_done_iff.mp h
  cases answer with
  | error e =>
    obtain ⟨rfl, heq⟩ := Procedure.follows_done_iff.mp hnext
    cases heq
    exact .inl ⟨e, rfl, rfl⟩
  | ok n =>
    obtain ⟨rfl, heq⟩ := Procedure.follows_done_iff.mp hnext
    cases heq
    exact .inr ⟨n, rfl, rfl⟩

/-- After its count a table is written as the field of the count, and as its pages. -/
theorem follows_writeRows {r : Except SerializeError Nat} (hpage : 0 < pageSize)
    (h : (writeRows id pageSize t expected).run.Follows log (.done r)) (hfits : Fits log) :
    ∃ later r', log = writes [Transfer.countField expected] ++ later ∧ Fits later ∧
      PagesTold id t expected 0 later r' ∧ r = pagesResult id t expected r' := by
  rcases Procedure.follows_bind_except_done_iff.mp h with ⟨e, hfield, -⟩ |
    ⟨first, rest, ⟨⟩, rfl, hfield, hrest⟩
  · cases (follows_writeField hfield hfits).1
  · obtain ⟨hfirst, hlater⟩ := fits_append_iff.mp hfits
    obtain ⟨-, rfl⟩ := follows_writeField hfield hfirst
    rcases Procedure.follows_bind_except_done_iff.mp hrest with ⟨e, hfailed, rfl⟩ |
      ⟨middle, last, read, rfl, hread, hcheck⟩
    · exact ⟨rest, .error e, rfl, hlater, pagesTold hpage (Nat.zero_le _) hfailed hlater, rfl⟩
    · obtain ⟨hmiddle, -⟩ := fits_append_iff.mp hlater
      have htold := pagesTold hpage (Nat.zero_le _) hread hmiddle
      -- Nothing is asked for any more when the two numbers are compared.
      have hdone : last = [] ∧ r = pagesResult id t expected (.ok read) := by
        rw [pagesResult]
        split at hcheck
        · rename_i hall
          obtain ⟨rfl, heq⟩ := Procedure.follows_done_iff.mp hcheck
          cases heq
          exact ⟨rfl, (if_pos hall).symm⟩
        · rename_i hfewer
          obtain ⟨rfl, heq⟩ := Procedure.follows_done_iff.mp hcheck
          cases heq
          exact ⟨rfl, (if_neg hfewer).symm⟩
      obtain ⟨rfl, rfl⟩ := hdone
      rw [List.append_nil] at hlater ⊢
      exact ⟨middle, .ok read, rfl, hlater, htold, rfl⟩

/-- A table whose count is not answered is not written. -/
theorem tablesTold_of_uncounted (id : MeasurementId) (t : Table) (e : StoreError) :
    TablesTold id [t] [⟨.store (.count id t), .error e⟩] (.error (.storage e)) := by
  refine ⟨?_, ?_, ?_, ?_, ?_, ?_, ?_, ?_⟩
  · exact List.forall_mem_singleton.mpr ⟨rfl, List.mem_singleton_self t⟩
  · simp [TransferCall.counted]
  · simp [TransferCall.paged]
  · simp [written, TransferCall.counted, TransferCall.paged, TransferCall.bytes]
  · exact Nat.le_add_right 1 _
  · intro total h
    cases h
  · simp [TransferCall.paged]
  · intro e' h
    cases h
    exact List.mem_singleton_self e

/-- What is made of the answers about one table. -/
theorem tableTold {r : Except SerializeError Nat} (hpage : 0 < pageSize)
    (h : (writeTable id pageSize t).run.Follows log (.done r)) (hfits : Fits log) :
    TablesTold id [t] log r := by
  rw [writeTable_eq] at h
  rcases Procedure.follows_bind_except_done_iff.mp h with ⟨e, hask, rfl⟩ |
    ⟨first, rest, n, rfl, hask, hrest⟩
  · rcases follows_askCount hask with ⟨e', rfl, heq⟩ | ⟨n, -, heq⟩
    · cases heq
      exact tablesTold_of_uncounted id t e'
    · cases heq
  · rcases follows_askCount hask with ⟨e', -, heq⟩ | ⟨n', rfl, heq⟩
    · cases heq
    · cases heq
      split at hrest
      · -- The count was answered, but nothing is written of it.
        rename_i hlarge
        have hlarge : UInt32.size ≤ n := hlarge
        obtain ⟨rfl, heq⟩ := Procedure.follows_done_iff.mp hrest
        cases heq
        refine (TableEnds.large hlarge (by simp [TransferCall.paged])).tablesTold ?_ ?_ ?_ ?_ ?_
        · exact List.forall_mem_singleton.mpr ⟨rfl, List.mem_singleton_self t⟩
        · simp [TransferCall.counted]
        · exact Nat.zero_le _
        · simp [written, TransferCall.counted, TransferCall.paged, TransferCall.bytes, hlarge]
        · exact Nat.le_add_right 1 n
      · rename_i hcount
        obtain ⟨-, hlater⟩ := fits_append_iff.mp hfits
        obtain ⟨later, r', rfl, hfitsLater, htold, rfl⟩ := follows_writeRows hpage hrest hlater
        exact htold.tablesTold (Nat.lt_of_not_le hcount) hfitsLater

/-! ### One table after another -/

/-- The same was answered about a table. -/
def SameViews (t : Table) (log log' : List (AnsweredCall TransferAnswer)) : Prop :=
  counts t log' = counts t log ∧ pages t log' = pages t log

theorem SameViews.rows_eq {log' : List (AnsweredCall TransferAnswer)} (h : SameViews t log log') :
    rows t log' = rows t log := by
  rw [rows, h.2, rows]

theorem SameViews.written_eq {log' : List (AnsweredCall TransferAnswer)}
    (h : SameViews t log log') : written t log' = written t log := by
  rw [written, h.1, h.rows_eq, written]

theorem flatMap_written_eq {tables : List Table} {log' : List (AnsweredCall TransferAnswer)}
    (h : ∀ t ∈ tables, SameViews t log log') :
    (tables.flatMap fun t => written t log') = tables.flatMap fun t => written t log :=
  List.flatMap_congr fun t ht => (h t ht).written_eq

theorem sum_counts_eq {tables : List Table} {log' : List (AnsweredCall TransferAnswer)}
    (h : ∀ t ∈ tables, SameViews t log log') :
    (tables.map fun t => (counts t log').sum) = tables.map fun t => (counts t log).sum :=
  List.map_congr_left fun t ht => by rw [(h t ht).1]

theorem TransferCall.InBounds.mono {c : TransferCall} {tables tables' : List Table}
    {counts counts' : Table → List Nat} (h : c.InBounds id tables counts)
    (hsub : ∀ t ∈ tables, t ∈ tables' ∧ counts' t = counts t) : c.InBounds id tables' counts' := by
  cases c with
  | write field => trivial
  | store c =>
    cases c with
    | count i t => exact ⟨h.1, (hsub t h.2).1⟩
    | page i t offset limit =>
      obtain ⟨hi, ht, hpos, hbelow⟩ := h
      exact ⟨hi, (hsub t ht).1, hpos, (hsub t ht).2 ▸ hbelow⟩
    | _ => exact h.elim

theorem SerializeError.ToldIn.mono {e : SerializeError} {tables tables' : List Table}
    {log' : List (AnsweredCall TransferAnswer)} (h : e.ToldIn id tables log)
    (hsub : ∀ t ∈ tables, t ∈ tables' ∧ SameViews t log log')
    (herrors : storeErrors log ⊆ storeErrors log') : e.ToldIn id tables' log' := by
  cases e with
  | storage e => exact herrors h
  | inconsistent i t expected read =>
    obtain ⟨hi, ht, hcounts, hempty, hread⟩ := h
    obtain ⟨hmem, hsame⟩ := hsub t ht
    exact ⟨hi, hmem, hsame.1.trans hcounts, hsame.2 ▸ hempty, hsame.rows_eq ▸ hread⟩
  | io detail =>
    obtain ⟨t, ht, n, hcounts, hlarge⟩ := h
    obtain ⟨hmem, hsame⟩ := hsub t ht
    exact ⟨t, hmem, n, hsame.1.trans hcounts, hlarge⟩

section

variable {tables : List Table} {r : Except SerializeError Nat}

/-- If a table is not written, those after it are not asked for. -/
theorem TablesTold.stop {e : SerializeError} (h : TablesTold id [t] log (.error e))
    (ht : t ∉ tables) : TablesTold id (t :: tables) log (.error e) := by
  have hnone (t' : Table) (ht' : t' ∈ tables) : counts t' log = [] ∧ pages t' log = [] :=
    views_of_not_mem h.calls fun hmem => ht (List.mem_singleton.mp hmem ▸ ht')
  have hrows (t' : Table) (ht' : t' ∈ tables) : rows t' log = [] := by
    rw [rows, (hnone t' ht').2, List.flatten_nil]
  have hsub (t' : Table) (ht' : t' ∈ [t]) : t' ∈ t :: tables ∧ SameViews t' log log :=
    ⟨List.mem_cons.mpr (.inl (List.mem_singleton.mp ht')), rfl, rfl⟩
  refine ⟨fun e he => ?_, ?_, ?_, ?_, ?_, ?_, ?_, fun e' he' => ?_⟩
  · exact (h.calls e he).mono fun t' ht' => ⟨(hsub t' ht').1, rfl⟩
  · refine List.forall_mem_cons.mpr ⟨h.counted t (List.mem_singleton_self t), fun t' ht' => ?_⟩
    simp [(hnone t' ht').1]
  · refine List.forall_mem_cons.mpr ⟨h.rows_le t (List.mem_singleton_self t), fun t' ht' => ?_⟩
    simp [hrows t' ht']
  · have hempty : (tables.flatMap fun t' => written t' log) = [] := by
      refine List.flatMap_eq_nil_iff.mpr fun t' ht' => ?_
      simp [written, (hnone t' ht').1, hrows t' ht']
    rw [h.bytes_eq, List.flatMap_singleton, List.flatMap_cons, hempty, List.append_nil]
  · have hasked := h.asked_le
    simp only [List.length_cons, List.map_cons, List.sum_cons, List.length_nil, List.map_nil,
      List.sum_nil] at hasked ⊢
    omega
  · intro total htotal
    cases htotal
  · refine List.forall_mem_cons.mpr ⟨h.ended t (List.mem_singleton_self t), fun t' ht' hempty => ?_⟩
    rw [(hnone t' ht').2] at hempty
    cases hempty
  · exact (h.failed e' he').mono hsub fun _ hmem => hmem

/-- What was answered about a table is not mixed with what was answered about others. -/
theorem TablesTold.sameViews {r' : Except SerializeError Nat}
    {later : List (AnsweredCall TransferAnswer)} (h : TablesTold id [t] log r)
    (h' : TablesTold id tables later r') (ht : t ∉ tables) :
    SameViews t log (log ++ later) ∧ ∀ t' ∈ tables, SameViews t' later (log ++ later) := by
  constructor
  · obtain ⟨hcounts, hpages⟩ := views_of_not_mem h'.calls ht
    exact ⟨by simp [hcounts], by simp [hpages]⟩
  · intro t' ht'
    obtain ⟨hcounts, hpages⟩ := views_of_not_mem h.calls
      fun hmem => ht (List.mem_singleton.mp hmem ▸ ht')
    exact ⟨by simp [hcounts], by simp [hpages]⟩

/-- A table that was written is followed by the others. -/
theorem TablesTold.cons {later : List (AnsweredCall TransferAnswer)} {k : Nat}
    (h : TablesTold id [t] log (.ok k)) (h' : TablesTold id tables later r) (ht : t ∉ tables) :
    TablesTold id (t :: tables) (log ++ later) (r.map (k + ·)) := by
  obtain ⟨hown, hothers⟩ := h.sameViews h' ht
  have htself := List.mem_singleton_self t
  refine ⟨fun e he => ?_, ?_, ?_, ?_, ?_, ?_, ?_, ?_⟩
  · rcases List.mem_append.mp he with he | he
    · refine (h.calls e he).mono fun t' ht' => ?_
      obtain rfl := List.mem_singleton.mp ht'
      exact ⟨List.mem_cons_self, hown.1⟩
    · exact (h'.calls e he).mono fun t' ht' => ⟨List.mem_cons_of_mem t ht', (hothers t' ht').1⟩
  · refine List.forall_mem_cons.mpr ⟨hown.1 ▸ h.counted t htself, fun t' ht' => ?_⟩
    exact (hothers t' ht').1 ▸ h'.counted t' ht'
  · refine List.forall_mem_cons.mpr ⟨?_, fun t' ht' => ?_⟩
    · rw [hown.1, hown.rows_eq]
      exact h.rows_le t htself
    · rw [(hothers t' ht').1, (hothers t' ht').rows_eq]
      exact h'.rows_le t' ht'
  · rw [bytes_append, h.bytes_eq, h'.bytes_eq, List.flatMap_singleton, List.flatMap_cons,
      hown.written_eq, flatMap_written_eq hothers]
  · have hfirst := h.asked_le
    have hlater := h'.asked_le
    simp only [List.length_cons, List.map_cons, List.sum_cons, List.length_nil, List.map_nil,
      List.sum_nil, asked_append, sum_counts_eq hothers, hown.1] at hfirst hlater ⊢
    omega
  · intro total htotal
    cases r with
    | error e => cases htotal
    | ok others =>
      cases htotal
      obtain ⟨hlength, hwhole⟩ := h.whole k rfl
      obtain ⟨hlength', hwhole'⟩ := h'.whole others rfl
      refine ⟨by rw [bytes_append, List.length_append, ← hlength, ← hlength'], ?_⟩
      refine List.forall_mem_cons.mpr ⟨?_, fun t' ht' => ?_⟩
      · rw [hown.1, hown.rows_eq]
        exact hwhole t htself
      · rw [(hothers t' ht').1, (hothers t' ht').rows_eq]
        exact hwhole' t' ht'
  · refine List.forall_mem_cons.mpr ⟨fun hempty => ?_, fun t' ht' hempty => ?_⟩
    · -- The pages of a table that was written did not end early.
      rw [hown.2] at hempty
      obtain ⟨n, -, -, hfailed⟩ := h.ended t htself hempty
      cases hfailed
    · rw [(hothers t' ht').2] at hempty
      obtain ⟨n, hcounts, hfewer, rfl⟩ := h'.ended t' ht' hempty
      rw [(hothers t' ht').1, (hothers t' ht').rows_eq]
      exact ⟨n, hcounts, hfewer, rfl⟩
  · intro e he
    cases r with
    | ok others => cases he
    | error e' =>
      cases he
      refine (h'.failed e rfl).mono (fun t' ht' => ⟨List.mem_cons_of_mem t ht', hothers t' ht'⟩) ?_
      rw [storeErrors_append]
      exact List.subset_append_right _ _

/-- What is made of the answers about some tables, none of which comes twice. -/
theorem tablesTold (hpage : 0 < pageSize) (htables : tables.Nodup)
    (h : (writeTables id pageSize tables).run.Follows log (.done r)) (hfits : Fits log) :
    TablesTold id tables log r := by
  induction tables generalizing log r with
  | nil =>
    obtain ⟨rfl, heq⟩ := Procedure.follows_done_iff.mp h
    cases heq
    refine ⟨List.forall_mem_nil _, List.forall_mem_nil _, List.forall_mem_nil _, rfl,
      Nat.le_refl _, fun total htotal => ?_, List.forall_mem_nil _, fun e he => ?_⟩
    · cases htotal
      exact ⟨rfl, List.forall_mem_nil _⟩
    · cases he
  | cons t rest ih =>
    obtain ⟨ht, hrest⟩ := List.nodup_cons.mp htables
    rcases Procedure.follows_bind_except_done_iff.mp h with ⟨e, hfailed, rfl⟩ |
      ⟨first, later, k, rfl, hfirst, hlater⟩
    · exact (tableTold hpage hfailed hfits).stop ht
    · obtain ⟨hfitsFirst, hfitsLater⟩ := fits_append_iff.mp hfits
      have hown := tableTold hpage hfirst hfitsFirst
      rcases Procedure.follows_bind_except_done_iff.mp hlater with ⟨e, hfailed, rfl⟩ |
        ⟨middle, last, others, rfl, hothers, hdone⟩
      · exact hown.cons (ih hrest hfailed hfitsLater) ht
      · obtain ⟨rfl, heq⟩ := Procedure.follows_done_iff.mp hdone
        cases heq
        rw [List.append_nil] at hfitsLater ⊢
        exact hown.cons (ih hrest hothers hfitsLater) ht

end

/-! ### A measurement -/

/-- The version comes first, and then the tables. -/
theorem follows_serialize {r : Except SerializeError Nat}
    (h : (serialize pageSize id).Follows log (.done r)) (hfits : Fits log) :
    ∃ later r', log = writes [Transfer.versionField] ++ later ∧
      TablesTold id Table.all later r' ∧ r = r'.map (2 + ·) := by
  have hpage : 0 < max pageSize 1 := by omega
  have htables : Table.all.Nodup := by decide
  rcases Procedure.follows_bind_except_done_iff.mp h with ⟨e, hfield, -⟩ |
    ⟨first, rest, ⟨⟩, rfl, hfield, hrest⟩
  · cases (follows_writeField hfield hfits).1
  · obtain ⟨hfirst, hlater⟩ := fits_append_iff.mp hfits
    obtain ⟨-, rfl⟩ := follows_writeField hfield hfirst
    rcases Procedure.follows_bind_except_done_iff.mp hrest with ⟨e, hfailed, rfl⟩ |
      ⟨middle, last, others, rfl, hothers, hdone⟩
    · exact ⟨rest, .error e, rfl, tablesTold hpage htables hfailed hlater, rfl⟩
    · obtain ⟨rfl, heq⟩ := Procedure.follows_done_iff.mp hdone
      cases heq
      rw [List.append_nil] at hlater ⊢
      exact ⟨middle, .ok others, rfl, tablesTold hpage htables hothers hlater, rfl⟩

/-- Whatever a serializer is answered, it ends. Where its writes succeed and no page is longer than
was asked for, it asks the store at most once for each table and each row that was counted, it asks
for no row beyond a count, and writes no more rows of a table than were counted: what it has written
is the version, and for each table the count that was answered and the rows of its pages. If it
succeeds, the word before the rows of a table is the number of these rows, as many as were counted,
and it answers the number of bytes. If a page of a table is empty it fails, and names the rows that
were counted and those that were read; and whenever it fails, what was answered explains why. -/
theorem serialize_told (pageSize : Nat) (id : MeasurementId) :
    (∀ give : List (AnsweredCall TransferAnswer) → (c : TransferCall) → TransferAnswer c,
      ∃ log r, (serialize pageSize id).Follows log (.done r) ∧
        ∀ before e after, log = before ++ e :: after → e.answer = give before e.call) ∧
    ∀ log r, (serialize pageSize id).Follows log (.done r) → Fits log →
      (∀ e ∈ log, e.call.InBounds id Wire.tables fun t => counts t log) ∧
      (∀ t, (counts t log).length ≤ 1 ∧ (rows t log).length ≤ (counts t log).sum) ∧
      asked log ≤ 4 + (Wire.tables.map fun t => (counts t log).sum).sum ∧
      bytes log = Wire.word 2 1 ++ Wire.tables.flatMap (fun t => written t log) ∧
      (∀ total, r = .ok total → total = (bytes log).length ∧
        bytes log = Wire.word 2 1 ++ Wire.tables.flatMap (fun t =>
          Wire.word 4 (rows t log).length ++ (rows t log).flatMap Wire.record) ∧
        ∀ t, counts t log = [(rows t log).length] ∧ (rows t log).length < UInt32.size) ∧
      (∀ t, [] ∈ pages t log → ∃ n, counts t log = [n] ∧ (rows t log).length < n ∧
        r = .error (.inconsistent id t n (rows t log).length)) ∧
      ∀ e, r = .error e → e.ToldIn id Wire.tables log := by
  refine ⟨fun give => Procedure.exists_follows_done give _, fun log r h hfits => ?_⟩
  obtain ⟨later, r', rfl, htold, rfl⟩ := follows_serialize h hfits
  -- Nothing is answered about a table before the version is written.
  have hsame (t : Table) : SameViews t later (writes [Transfer.versionField] ++ later) :=
    ⟨by simp, by simp⟩
  have hcounts (t : Table) :
      counts t (writes [Transfer.versionField] ++ later) = counts t later := (hsame t).1
  have hrows (t : Table) :
      rows t (writes [Transfer.versionField] ++ later) = rows t later := (hsame t).rows_eq
  have hwritten (t : Table) :
      written t (writes [Transfer.versionField] ++ later) = written t later := (hsame t).written_eq
  have htables : bytes later = Wire.tables.flatMap fun t => written t later := htold.bytes_eq
  have hbytes : bytes (writes [Transfer.versionField] ++ later) =
      Wire.word 2 1 ++ Wire.tables.flatMap fun t => written t later := by
    simp [htables, Transfer.versionField_eq]
  simp only [hcounts, hrows, hwritten, hbytes, true_and]
  refine ⟨fun e he => ?_, fun t => ?_, ?_, fun total htotal => ?_, fun t hempty => ?_,
    fun e he => ?_⟩
  · rcases List.mem_append.mp he with he | he
    · obtain ⟨field, -, rfl⟩ := List.mem_map.mp he
      trivial
    · exact htold.calls e he
  · exact ⟨htold.counted t t.mem_all, htold.rows_le t t.mem_all⟩
  · rw [asked_append, asked_writes, Nat.zero_add]
    exact htold.asked_le
  · cases r' with
    | error e => cases htotal
    | ok others =>
      cases htotal
      obtain ⟨hlength, hwhole⟩ := htold.whole others rfl
      refine ⟨?_, ?_, fun t => hwhole t t.mem_all⟩
      · rw [List.length_append, ← htables, ← hlength, Wire.length_word]
      · refine congrArg (Wire.word 2 1 ++ ·) (List.flatMap_congr fun t _ => ?_)
        obtain ⟨hcount, hbound⟩ := hwhole t t.mem_all
        simp [written, hcount, hbound]
  · rw [(hsame t).2] at hempty
    obtain ⟨n, hcount, hfewer, rfl⟩ := htold.ended t t.mem_all hempty
    exact ⟨n, hcount, hfewer, rfl⟩
  · cases r' with
    | ok others => cases he
    | error e' =>
      cases he
      refine (htold.failed e rfl).mono (fun t ht => ⟨ht, hsame t⟩) ?_
      rw [storeErrors_append]
      exact List.subset_append_right _ _

/-! ### Two transcripts -/

/-- A location of the first measurement. -/
def firstRow : Point :=
  .location ⟨5, ⟨0x3FF8000000000000⟩, ⟨0xC000000000000000⟩, .zero, ⟨0x4004000000000000⟩⟩

/-- What was answered about the locations: they were counted, and one of them was in the first
page. -/
def locationsTold (n : Nat) : List (AnsweredCall TransferAnswer) :=
  ⟨.store (.count ⟨1⟩ .locations), .ok n⟩ :: (writes [Transfer.countField n] ++
    ⟨.store (.page ⟨1⟩ .locations 0 1), .ok [firstRow]⟩ :: writes firstRow.fields)

/-- No samples of a kind were counted. -/
def noneTold (kind : SampleKind) : List (AnsweredCall TransferAnswer) :=
  ⟨.store (.count ⟨1⟩ (.samples kind)), .ok 0⟩ :: writes [Transfer.countField 0]

/-- One location was counted, and it is there. -/
def wholeTold : List (AnsweredCall TransferAnswer) :=
  writes [Transfer.versionField] ++ (locationsTold 1 ++
    (noneTold .acceleration ++ (noneTold .rotation ++ noneTold .direction)))

/-- Two locations were counted, and after the first page there are none. -/
def emptiedTold : List (AnsweredCall TransferAnswer) :=
  writes [Transfer.versionField] ++
    (locationsTold 2 ++ [⟨.store (.page ⟨1⟩ .locations 1 1), .ok []⟩])

theorem follows_writeTables_cons {tables : List Table}
    {later : List (AnsweredCall TransferAnswer)} {k others : Nat}
    (h : (writeTable id pageSize t).run.Follows log (.done (.ok k)))
    (h' : (writeTables id pageSize tables).run.Follows later (.done (.ok others))) :
    (writeTables id pageSize (t :: tables)).run.Follows (log ++ later)
      (.done (.ok (k + others))) :=
  Procedure.follows_bind_except_done_iff.mpr (.inr ⟨log, later, k, rfl, h,
    Procedure.follows_bind_except_done_iff.mpr (.inr ⟨later, [], others,
      (List.append_nil later).symm, h', .nil _⟩)⟩)

theorem follows_noneTold (kind : SampleKind) :
    (writeTable ⟨1⟩ 1 (.samples kind)).run.Follows (noneTold kind) (.done (.ok 4)) := by
  have hpages : (writePages ⟨1⟩ (.samples kind) 1 0 0).run.Follows [] (.done (.ok 0)) := by
    rw [writePages, dif_neg (Nat.lt_irrefl 0)]
    exact .nil _
  exact .cons (.cons (Procedure.follows_bind_except_done_iff.mpr
    (.inr ⟨[], [], 0, rfl, hpages, .nil _⟩)))

/-- The first page of the locations holds one of them. -/
theorem follows_firstPage {n read : Nat} {later : List (AnsweredCall TransferAnswer)} (hn : 0 < n)
    (h : (writePages ⟨1⟩ .locations 1 n 1).run.Follows later (.done (.ok read))) :
    (writePages ⟨1⟩ .locations 1 n 0).run.Follows
      (⟨.store (.page ⟨1⟩ .locations 0 (min 1 (n - 0))), .ok [firstRow]⟩ ::
        (writes firstRow.fields ++ later)) (.done (.ok read)) := by
  have hfields : (writeFields firstRow.fields).run.Follows (writes firstRow.fields)
      (.done (.ok ())) :=
    .cons (.cons (.cons (.cons (.cons (.nil _)))))
  rw [writePages, dif_pos hn]
  exact .cons (Procedure.follows_bind_except_done_iff.mpr (.inr ⟨_, _, (), rfl, hfields, h⟩))

theorem follows_wholeTold : (serialize 0 ⟨1⟩).Follows wholeTold (.done (.ok 54)) := by
  have hall : (writePages ⟨1⟩ .locations 1 1 1).run.Follows [] (.done (.ok 1)) := by
    rw [writePages, dif_neg (Nat.lt_irrefl 1)]
    exact .nil _
  have hpages := follows_firstPage Nat.one_pos hall
  rw [List.append_nil] at hpages
  have htable : (writeTable ⟨1⟩ 1 .locations).run.Follows (locationsTold 1) (.done (.ok 40)) :=
    .cons (.cons (Procedure.follows_bind_except_done_iff.mpr
      (.inr ⟨_, [], 1, (List.append_nil _).symm, hpages, .nil _⟩)))
  have hlast : (writeTables ⟨1⟩ 1 [.samples .direction]).run.Follows (noneTold .direction)
      (.done (.ok 4)) := by
    have hnothing : (writeTables ⟨1⟩ 1 []).run.Follows [] (.done (.ok 0)) := .nil _
    have h := follows_writeTables_cons (follows_noneTold .direction) hnothing
    rwa [List.append_nil] at h
  have htables : (writeTables ⟨1⟩ 1 Table.all).run.Follows (locationsTold 1 ++
      (noneTold .acceleration ++ (noneTold .rotation ++ noneTold .direction))) (.done (.ok 52)) :=
    follows_writeTables_cons htable (follows_writeTables_cons (follows_noneTold .acceleration)
      (follows_writeTables_cons (follows_noneTold .rotation) hlast))
  exact .cons (Procedure.follows_bind_except_done_iff.mpr
    (.inr ⟨_, [], 52, (List.append_nil _).symm, htables, .nil _⟩))

theorem follows_emptiedTold : (serialize 0 ⟨1⟩).Follows emptiedTold
    (.done (.error (.inconsistent ⟨1⟩ .locations 2 1))) := by
  have hempty : (writePages ⟨1⟩ .locations 1 2 1).run.Follows
      [⟨.store (.page ⟨1⟩ .locations 1 1), .ok []⟩] (.done (.ok 1)) := by
    rw [writePages, dif_pos (by decide)]
    exact .cons (.nil _)
  have hpages := follows_firstPage Nat.two_pos hempty
  have htable : (writeTable ⟨1⟩ 1 .locations).run.Follows
      (locationsTold 2 ++ [⟨.store (.page ⟨1⟩ .locations 1 1), .ok []⟩])
      (.done (.error (.inconsistent ⟨1⟩ .locations 2 1))) :=
    .cons (.cons (Procedure.follows_bind_except_done_iff.mpr
      (.inr ⟨_, [], 1, (List.append_nil _).symm, hpages, .nil _⟩)))
  exact .cons (Procedure.follows_bind_except_done_iff.mpr
    (.inl ⟨_, Procedure.follows_bind_except_done_iff.mpr (.inl ⟨_, htable, rfl⟩), rfl⟩))

theorem fits_locationsTold (n : Nat) : Fits (locationsTold n) := by
  refine List.forall_mem_cons.mpr ⟨trivial, fits_append_iff.mpr ⟨fits_writes _, ?_⟩⟩
  exact List.forall_mem_cons.mpr ⟨⟨Nat.le_refl 1, List.forall_mem_singleton.mpr trivial⟩,
    fits_writes _⟩

theorem fits_noneTold (kind : SampleKind) : Fits (noneTold kind) :=
  List.forall_mem_cons.mpr ⟨trivial, fits_writes _⟩

theorem fits_wholeTold : Fits wholeTold :=
  fits_append_iff.mpr ⟨fits_writes _, fits_append_iff.mpr ⟨fits_locationsTold 1,
    fits_append_iff.mpr ⟨fits_noneTold _, fits_append_iff.mpr ⟨fits_noneTold _, fits_noneTold _⟩⟩⟩⟩

theorem fits_emptiedTold : Fits emptiedTold := by
  refine fits_append_iff.mpr ⟨fits_writes _, fits_append_iff.mpr ⟨fits_locationsTold 2, ?_⟩⟩
  exact List.forall_mem_singleton.mpr ⟨Nat.zero_le 1, List.forall_mem_nil _⟩

/-- One location is counted and written. When two locations are counted and one of them is there,
this one is written, and the error tells both numbers. -/
theorem serialize_told_whole_or_emptied :
    ((serialize 0 ⟨1⟩).Follows wholeTold (.done (.ok 54)) ∧ Fits wholeTold ∧
      bytes wholeTold = [0, 1, 0, 0, 0, 1, 0, 0, 0, 0, 0, 0, 0, 5, 63, 248, 0, 0, 0, 0, 0, 0,
        192, 0, 0, 0, 0, 0, 0, 0, 0, 0, 0, 0, 0, 0, 0, 0, 0, 0, 0, 250,
        0, 0, 0, 0, 0, 0, 0, 0, 0, 0, 0, 0]) ∧
    (serialize 0 ⟨1⟩).Follows emptiedTold (.done (.error (.inconsistent ⟨1⟩ .locations 2 1))) ∧
      Fits emptiedTold ∧ asked emptiedTold ≤ 6 ∧
      (∃ n, counts .locations emptiedTold = [n] ∧ (rows .locations emptiedTold).length < n) ∧
      bytes emptiedTold = [0, 1, 0, 0, 0, 2, 0, 0, 0, 0, 0, 0, 0, 5, 63, 248, 0, 0, 0, 0, 0, 0,
        192, 0, 0, 0, 0, 0, 0, 0, 0, 0, 0, 0, 0, 0, 0, 0, 0, 0, 0, 250] := by
  have htold := (serialize_told 0 ⟨1⟩).2
  obtain ⟨-, -, -, -, hwhole, -, -⟩ := htold wholeTold _ follows_wholeTold fits_wholeTold
  obtain ⟨-, -, hasked, hbytes, -, hended, -⟩ :=
    htold emptiedTold _ follows_emptiedTold fits_emptiedTold
  obtain ⟨-, hwritten, -⟩ := hwhole 54 rfl
  have hempty : [] ∈ pages .locations emptiedTold := by
    simp [emptiedTold, locationsTold, TransferCall.paged]
  obtain ⟨n, hcounted, hfewer, -⟩ := hended .locations hempty
  refine ⟨⟨follows_wholeTold, fits_wholeTold, ?_⟩, follows_emptiedTold, fits_emptiedTold, hasked,
    ⟨n, hcounted, hfewer⟩, ?_⟩
  · rw [hwritten]
    decide +kernel
  · rw [hbytes]
    decide +kernel

end

end TripRecorder
