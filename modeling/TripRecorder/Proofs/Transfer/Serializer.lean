import TripRecorder.Proofs.Procedure
import TripRecorder.Proofs.Store.Calls
import TripRecorder.Proofs.Transfer.Layout
import TripRecorder.Transfer.Serializer

/-!
# What a serializer writes

The serializer reads a measurement in many calls. While nobody changes the measurement, each of
them is answered from the same points, and what was written in the end is their image. This is
said relative to the answers, so that it holds whoever gives them.

## Main definitions

* `Holding` — the points of a measurement that nobody changes, and how the store answers for them
* `Serializing.Emits` — a procedure that writes some bytes, or fails for a reason

## Main results

* `emits_serialize` — the serializer writes the image of the points
* `Store.run_serialize` — a store that does not fail answers the image of what it holds
* `asks_collectBytes_serialize` — it changes nothing
-/

namespace TripRecorder

/-- What a store holds of a measurement while nobody changes it. -/
structure Holding where
  id : MeasurementId
  /-- The points of each table by time. -/
  points : Table → List Point
  /-- A call may fail. -/
  faulty : Prop

namespace Holding

/-- Only this measurement is asked for, and all answers are about the same points. A page may hold
fewer points than were asked for, but not none. -/
def contract (h : Holding) : Contract StoreAnswer where
  allows
    | .count id _ => id = h.id
    | .page id _ offset limit =>
      id = h.id ∧ offset < Transfer.countBound ∧ limit < Transfer.countBound
    | _ => False
  answers
    | .count _ t, answer => answer = .ok (h.points t).length ∨ h.faulty ∧ ∃ e, answer = .error e
    | .page _ t offset limit, answer =>
      (∃ size, 0 < size ∧ answer = .ok (((h.points t).drop offset).take (min limit size))) ∨
        h.faulty ∧ ∃ e, answer = .error e
    | _, _ => True

/-- The reasons for which a measurement is not serialized: a call fails, or a table has too many
rows for its count. -/
def Fails (h : Holding) : Prop := h.faulty ∨ ∃ t, Transfer.countBound ≤ (h.points t).length

end Holding

/-- A table after its rows were counted: the count, and then the rows. -/
def writeRows (id : MeasurementId) (pageSize : Nat) (t : Table) (expected : Nat) :
    Serializing Nat := do
  writeField (Transfer.countField expected)
  let read ← writePages id t pageSize expected 0
  if read = expected then return 4 + expected * Transfer.recordBytes t
  else throw (.inconsistent id t expected read)

theorem writeTable_eq (id : MeasurementId) (pageSize : Nat) (t : Table) :
    writeTable id pageSize t = askCount id t >>= fun expected =>
      if Transfer.countBound ≤ expected then
        throw (.io s!"{expected} points do not fit the u32 count field")
      else writeRows id pageSize t expected := by
  unfold writeTable writeRows
  refine congrArg (askCount id t >>= ·) (funext fun expected => ?_)
  split <;> rfl

/-! ### Fields in memory -/

theorem collectBytes_eq {α : Type} (written : List (List UInt8)) (p : Procedure TransferAnswer α) :
    collectBytes written p = (collectBytes [] p).bind fun r =>
      .done (r.1, written.reverse.flatten ++ r.2) := by
  induction p generalizing written with
  | done a => simp [collectBytes]
  | call c next ih =>
    cases c with
    | store c =>
      simp only [collectBytes, Procedure.bind_call]
      exact congrArg _ (funext fun answer => ih answer written)
    | write field =>
      have hall := ih (.ok ()) (field :: written)
      -- Bytes that were collected before stay in front, so collecting can begin with any of them.
      have hfirst := congrArg
        (fun p => p.bind fun r => Procedure.done (r.1, written.reverse.flatten ++ r.2))
        (ih (.ok ()) [field])
      refine hall.trans (Eq.trans ?_ hfirst.symm)
      simp [Procedure.bind_assoc]

/-- The bytes of two procedures come one after another. -/
theorem collectBytes_bind {α β : Type} (p : Procedure TransferAnswer α)
    (f : α → Procedure TransferAnswer β) (written : List (List UInt8)) :
    collectBytes written (p.bind f) = (collectBytes written p).bind fun r =>
      (collectBytes [] (f r.1)).bind fun r' => .done (r'.1, r.2 ++ r'.2) := by
  induction p generalizing written with
  | done a => exact collectBytes_eq written (f a)
  | call c next ih =>
    cases c with
    | store c =>
      simp only [collectBytes, Procedure.bind_call]
      exact congrArg _ (funext fun answer => ih answer written)
    | write field => exact ih (.ok ()) (field :: written)

namespace Serializing

variable {α β : Type} {k : Contract StoreAnswer} {fail : Prop}

/-- Under a contract the procedure writes some bytes and answers a value, or fails for a reason. -/
def Emits (k : Contract StoreAnswer) (fail : Prop) (a : α) (bytes : List UInt8)
    (p : Serializing α) : Prop :=
  (collectBytes [] p.run).Meets k fun r => r = (.ok a, bytes) ∨ fail ∧ ∃ e, r.1 = .error e

theorem emits_pure (a : α) : Emits k fail a [] (pure a) := .inl rfl

theorem emits_throw (h : fail) (a : α) (bytes : List UInt8) (e : SerializeError) :
    Emits k fail a bytes (throw e) := .inr ⟨h, e, rfl⟩

/-- What two procedures write comes one after another. -/
theorem Emits.bind {p : Serializing α} {f : α → Serializing β} {a : α} {b : β}
    {first second : List UInt8} (hp : Emits k fail a first p) (hf : Emits k fail b second (f a)) :
    Emits k fail b (first ++ second) (p >>= f) := by
  unfold Emits at hp ⊢
  rw [Procedure.run_bind_except, collectBytes_bind]
  refine Procedure.Meets.bind hp ?_
  rintro ⟨r, written⟩ (heq | ⟨hfail, e, rfl⟩)
  · obtain ⟨rfl, rfl⟩ := Prod.mk.inj heq
    refine Procedure.Meets.bind hf ?_
    rintro ⟨r', written'⟩ (heq | ⟨hfail, e, rfl⟩)
    · obtain ⟨rfl, rfl⟩ := Prod.mk.inj heq
      exact .inl rfl
    · exact .inr ⟨hfail, e, rfl⟩
  · exact .inr ⟨hfail, e, rfl⟩

theorem Emits.of_eq {p : Serializing α} {a : α} {bytes bytes' : List UInt8}
    (hp : Emits k fail a bytes p) (hbytes : bytes = bytes') : Emits k fail a bytes' p :=
  hbytes ▸ hp

theorem emits_writeField (field : List UInt8) : Emits k fail () field (writeField field) :=
  .inl (by simp)

theorem emits_writeFields (fields : List (List UInt8)) :
    Emits k fail () fields.flatten (writeFields fields) := by
  induction fields with
  | nil => exact emits_pure ()
  | cons field rest ih => exact (emits_writeField field).bind ih

end Serializing

/-! ### A measurement that nobody changes -/

section Measurement

open Serializing

variable (h : Holding) (t : Table)

theorem emits_askCount :
    Emits h.contract h.Fails (h.points t).length [] (askCount h.id t) := by
  refine ⟨rfl, ?_⟩
  rintro answer (rfl | ⟨hfault, e, rfl⟩)
  · exact .inl rfl
  · exact .inr ⟨.inl hfault, _, rfl⟩

theorem flatten_flatMap_fields (points : List Point) :
    (points.flatMap Point.fields).flatten = points.flatMap Point.record := by
  induction points with
  | nil => rfl
  | cons p rest ih => simp [ih, Point.record]

/-- A page that is not beyond the end has a first row, and what follows it comes next. -/
theorem exists_page {xs : List Point} {read size : Nat} (hsize : 0 < size)
    (h : read + size ≤ xs.length) :
    ∃ p rest, (xs.drop read).take size = p :: rest ∧ rest.length + 1 = size ∧
      xs.drop read = (p :: rest) ++ xs.drop (read + size) := by
  have hlength : ((xs.drop read).take size).length = size := by
    rw [List.length_take, List.length_drop]
    omega
  have happend := List.take_append_drop size (xs.drop read)
  rw [List.drop_drop] at happend
  cases hp : (xs.drop read).take size with
  | nil =>
    rw [hp, List.length_nil] at hlength
    omega
  | cons p rest =>
    rw [hp] at hlength happend
    exact ⟨p, rest, rfl, hlength, happend.symm⟩

/-- The pages from a row on hold all points from there on. -/
theorem emits_writePages {pageSize : Nat} (hpage : 0 < pageSize)
    (hcount : (h.points t).length < Transfer.countBound) (read : Nat)
    (hread : read ≤ (h.points t).length) :
    Emits h.contract h.Fails (h.points t).length (((h.points t).drop read).flatMap Point.record)
      (writePages h.id t pageSize (h.points t).length read) := by
  -- The induction is on the points that are left, of which every page takes at least one.
  induction hleft : (h.points t).length - read using Nat.strongRecOn generalizing read with
  | ind left ih =>
    rw [writePages]
    split
    · rename_i hlt
      refine ⟨⟨rfl, by omega, by omega⟩, ?_⟩
      rintro answer (⟨size, hsize, rfl⟩ | ⟨hfault, e, rfl⟩)
      · have hend : read + min (min pageSize ((h.points t).length - read)) size ≤
            (h.points t).length := by omega
        obtain ⟨p, rest, hp, hlength, hrest⟩ := exists_page (by omega) hend
        rw [hp]
        refine Emits.of_eq ((emits_writeFields _).bind (ih _ (by omega) _ (by omega) rfl)) ?_
        rw [flatten_flatMap_fields, ← List.flatMap_append, hlength, ← hrest]
      · exact .inr ⟨.inl hfault, _, rfl⟩
    · have heq : read = (h.points t).length := by omega
      rw [heq, List.drop_length]
      exact emits_pure _

/-- A table is written as its count and its records. -/
theorem emits_writeTable {pageSize : Nat} (hpage : 0 < pageSize) :
    Emits h.contract h.Fails (4 + (h.points t).length * Transfer.recordBytes t)
      (Transfer.sectionBytes (h.points t)) (writeTable h.id pageSize t) := by
  rw [writeTable_eq]
  refine Emits.of_eq ((emits_askCount h t).bind ?_) (List.nil_append _)
  by_cases hcount : Transfer.countBound ≤ (h.points t).length
  · rw [if_pos hcount]
    exact emits_throw (.inr ⟨t, hcount⟩) _ _ _
  · rw [if_neg hcount, Transfer.sectionBytes, ← List.append_nil (List.flatMap _ _)]
    refine (emits_writeField _).bind
      ((emits_writePages h t hpage (by omega) 0 (Nat.zero_le _)).bind ?_)
    rw [if_pos rfl]
    exact emits_pure _

/-- Tables are written one after another. -/
theorem emits_writeTables {pageSize : Nat} (hpage : 0 < pageSize) (tables : List Table) :
    Emits h.contract h.Fails (Transfer.tablesSize (fun t => (h.points t).length) tables)
      (tables.flatMap fun t => Transfer.sectionBytes (h.points t))
      (writeTables h.id pageSize tables) := by
  induction tables with
  | nil => exact emits_pure 0
  | cons t rest ih =>
    exact Emits.of_eq ((emits_writeTable h t hpage).bind (ih.bind (emits_pure _))) (by simp)

/-- A measurement that nobody changes is written as the image of its points. -/
theorem emits_serialize (pageSize : Nat) :
    Emits h.contract h.Fails (Transfer.size fun t => (h.points t).length)
      (Transfer.image h.points) (serialize pageSize h.id) := by
  have htables := emits_writeTables h (by omega : 0 < max pageSize 1) Table.all
  refine Emits.of_eq ((emits_writeField _).bind (htables.bind (emits_pure _))) ?_
  rw [List.append_nil, Transfer.image]

end Measurement

/-! ### A store that answers -/

namespace Store

variable {s s' : Store} {id : MeasurementId}

/-- What a store holds of a measurement. -/
def holding (s : Store) (id : MeasurementId) (faulty : Prop) : Holding :=
  ⟨id, s.pointsByTime id, faulty⟩

theorem window_eq {α : Type} {offset limit : Nat} (hoffset : offset < Transfer.countBound)
    (hlimit : limit < Transfer.countBound) (xs : List α) :
    window offset limit xs = (xs.drop offset).take limit := by
  have hbound : Transfer.countBound < signBound := by decide
  rw [window, if_pos (by omega), if_pos (by omega)]

/-- A page is some of the points, unless one of them cannot be read. -/
theorem page_cases {offset limit : Nat} (hoffset : offset < Transfer.countBound)
    (hlimit : limit < Transfer.countBound) (t : Table) :
    s.page id t offset limit =
        .ok (((s.pointsByTime id t).drop offset).take (min limit s.queryLimit)) ∨
      (∃ r ∈ s.rowsOf id t, r.readable = false) ∧ ∃ e, s.page id t offset limit = .error e := by
  unfold page
  rw [window_eq hoffset (by omega)]
  simp only
  split
  · rw [pointsByTime, List.map_take, List.map_drop]
    exact .inl rfl
  · rename_i hread
    obtain ⟨r, hr, hread⟩ := List.all_eq_false.mp (Bool.eq_false_iff.mpr hread)
    have hrow : r ∈ s.rowsOf id t :=
      List.mem_mergeSort.mp (List.mem_of_mem_drop (List.mem_of_mem_take hr))
    exact .inr ⟨⟨r, hrow, Bool.eq_false_iff.mpr hread⟩, _, rfl⟩

/-- A served call is answered from what the store holds. -/
theorem holding_serve {faulty : Prop} (hlimit : 0 < s.queryLimit)
    (hread : (∃ t, ∃ r ∈ s.rowsOf id t, r.readable = false) → faulty) {c : StoreCall}
    (hc : (s.holding id faulty).contract.allows c) :
    (s.holding id faulty).contract.answers c (serve c s).1 := by
  cases c with
  | count i t =>
    obtain rfl : i = id := hc
    exact .inl (congrArg Except.ok (length_pointsByTime s i t).symm)
  | page i t offset limit =>
    obtain ⟨hi, hoffset, hle⟩ := hc
    obtain rfl : i = id := hi
    rcases s.page_cases hoffset hle t with hpage | ⟨hrow, hpage⟩
    · exact .inl ⟨s.queryLimit, hlimit, hpage⟩
    · exact .inr ⟨hread ⟨t, hrow⟩, hpage⟩
  | _ => exact hc.elim

/-- A call that may fail is answered from what the store holds, or fails. -/
theorem holding_answers (hlimit : 0 < s.queryLimit) {c : StoreCall} {answer : StoreAnswer c}
    (hc : (s.holding id True).contract.allows c) (h : s.Answers c answer s') :
    (s.holding id True).contract.answers c answer := by
  rcases h with ⟨rfl, -⟩ | ⟨detail, rfl, -⟩
  · exact holding_serve hlimit (fun _ => trivial) hc
  · cases c with
    | count i t => exact .inr ⟨trivial, _, rfl⟩
    | page i t offset limit => exact .inr ⟨trivial, _, rfl⟩
    | _ => exact hc.elim

/-- A measurement whose points can be read and counted is written as its image, and the store stays
as it is. -/
theorem run_serialize (hlimit : 0 < s.queryLimit) (hread : s.Readable id)
    (hcount : ∀ t, s.count id t < Transfer.countBound) (pageSize : Nat) :
    (collectBytes [] (serialize pageSize id)).run serve s =
      ((.ok (Transfer.size (s.count id)), Transfer.image (s.pointsByTime id)), s) := by
  have hlength : (fun t => (s.pointsByTime id t).length) = s.count id :=
    funext (length_pointsByTime s id)
  have hserve : ∀ c, (s.holding id False).contract.allows c →
      (s.holding id False).contract.answers c (serve c s).1 ∧ (serve c s).2 = s := by
    intro c hc
    refine ⟨holding_serve hlimit ?_ hc, ?_⟩
    · rintro ⟨t, r, hr, hunreadable⟩
      rw [hread t r hr] at hunreadable
      cases hunreadable
    · cases c <;> first | rfl | exact hc.elim
  obtain ⟨hresult, hstate⟩ := Procedure.Meets.run (emits_serialize (s.holding id False) pageSize)
    hserve
  rcases hresult with heq | ⟨hfail, -⟩
  · rw [← hlength]
    exact Prod.ext heq hstate
  · rcases hfail with hfaulty | ⟨t, ht⟩
    · exact hfaulty.elim
    · have hlt := hcount t
      rw [← hlength] at hlt
      exact absurd ht (Nat.not_le.mpr hlt)

end Store

/-! ### Calls of a serializer -/

/-- The calls that change no store. -/
def TransferCall.Reads : TransferCall → Prop
  | .store c => c.Reads
  | .write _ => True

theorem asks_collectBytes {α : Type} {p : Procedure TransferAnswer α}
    (hp : p.Asks TransferCall.Reads) (written : List (List UInt8)) :
    (collectBytes written p).Asks StoreCall.Reads := by
  induction p generalizing written with
  | done a => trivial
  | call c next ih =>
    cases c with
    | store c => exact ⟨hp.1, fun answer => ih answer (hp.2 answer) written⟩
    | write field => exact ih (.ok ()) (hp.2 (.ok ())) _

namespace Serializing

variable {α β : Type}

/-- The procedure changes no store. -/
def Reads (p : Serializing α) : Prop := p.run.Asks TransferCall.Reads

theorem reads_pure (a : α) : (pure a : Serializing α).Reads := trivial

theorem reads_throw (e : SerializeError) : (throw e : Serializing α).Reads := trivial

theorem Reads.bind {p : Serializing α} {f : α → Serializing β} (hp : p.Reads)
    (hf : ∀ a, (f a).Reads) : (p >>= f).Reads := by
  unfold Reads at hp ⊢
  rw [Procedure.run_bind_except]
  refine Procedure.Asks.bind hp fun r => ?_
  cases r with
  | ok a => exact hf a
  | error e => trivial

theorem reads_writeField (field : List UInt8) : (writeField field).Reads :=
  ⟨trivial, fun answer => by cases answer <;> trivial⟩

theorem reads_writeFields (fields : List (List UInt8)) : (writeFields fields).Reads := by
  induction fields with
  | nil => exact reads_pure ()
  | cons field rest ih => exact (reads_writeField field).bind fun _ => ih

theorem reads_writePages (id : MeasurementId) (t : Table) (pageSize expected read : Nat) :
    (writePages id t pageSize expected read).Reads := by
  induction hleft : expected - read using Nat.strongRecOn generalizing read with
  | ind left ih =>
    rw [writePages]
    split
    · refine ⟨trivial, ?_⟩
      rintro (e | _ | ⟨p, rest⟩)
      · trivial
      · trivial
      · exact (reads_writeFields _).bind fun _ => ih _ (by omega) _ rfl
    · exact reads_pure _

theorem reads_writeTable (id : MeasurementId) (pageSize : Nat) (t : Table) :
    (writeTable id pageSize t).Reads := by
  have hcount : (askCount id t).Reads := ⟨trivial, fun answer => by cases answer <;> trivial⟩
  rw [writeTable_eq]
  refine hcount.bind fun expected => ?_
  split
  · exact reads_throw _
  · refine (reads_writeField _).bind fun _ => (reads_writePages id t pageSize expected 0).bind ?_
    intro read
    split
    · exact reads_pure _
    · exact reads_throw _

theorem reads_writeTables (id : MeasurementId) (pageSize : Nat) (tables : List Table) :
    (writeTables id pageSize tables).Reads := by
  induction tables with
  | nil => exact reads_pure 0
  | cons t rest ih =>
    exact (reads_writeTable id pageSize t).bind fun _ => ih.bind fun _ => reads_pure _

end Serializing

/-- A serializer changes no store, whatever it is answered. -/
theorem asks_collectBytes_serialize (pageSize : Nat) (id : MeasurementId) :
    (collectBytes [] (serialize pageSize id)).Asks StoreCall.Reads := by
  have hserialize : Serializing.Reads (serialize pageSize id) :=
    (Serializing.reads_writeField _).bind fun _ =>
      (Serializing.reads_writeTables id _ _).bind fun _ => Serializing.reads_pure _
  exact asks_collectBytes hserialize []

end TripRecorder
