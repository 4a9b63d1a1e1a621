import TripRecorder.Proofs.Interleaving
import TripRecorder.Proofs.Store.Append
import TripRecorder.Proofs.Transfer.Moments

/-!
# A measurement that changes while it is written

The serializer makes its calls while others create, extend, move and empty measurements. What it
writes then was taken table by table, over the moments of its calls. This need not be the
measurement as it was at any moment: a purge may come between two tables, and an earlier row between
a count and a page.

## Main definitions

* `Store.Changes` — a step of another client
* `Serializing.Amid` — a run of a serializer amid such steps, with the bytes it has written
* `Serializing.Explains` — a serializer that fails for a reason only

## Main results

* `Serializing.amid_page` — what one page comes to
* `Serializing.amid_writePages`, `Serializing.amid_writeTable`, `Serializing.amid_writeTables` —
  what the parts of a serializer write
* `serialize_amid` — what is written while others change the store
* `serialize_torn` — bytes that are the image of a measurement at no moment
-/

namespace TripRecorder

/-- A step of another client: one of its calls is answered. -/
def Store.Changes (s s' : Store) : Prop := ∃ c answer, s.Answers c answer s'

/-- A table to which nothing earlier is added grows at its end. -/
theorem Store.Gains.pointsByTime_prefix {s s' : Store} {id : MeasurementId} {t : Table}
    {points : List Point} (h : s.Gains id points s')
    (hlater : ∀ p ∈ s.points id t, ∀ q ∈ keptIn t points, p.timestamp ≤ q.timestamp) :
    s.pointsByTime id t <+: s'.pointsByTime id t := by
  rw [pointsByTime_eq, pointsByTime_eq, h.points_eq, byTime_append hlater]
  exact List.prefix_append _ _

/-! ### A serializer amid the steps of others -/

namespace Serializing

variable {α β : Type} {other : Store → Store → Prop} {s s' : Store} {passed : List Store}
  {bytes : List UInt8} {id : MeasurementId} {t : Table}

/-- A run of a serializer with the steps of others between its calls, and the bytes it has
written. -/
def Amid (other : Store → Store → Prop) (p : Serializing α) (s : Store) (passed : List Store)
    (r : Except SerializeError α) (bytes : List UInt8) (s' : Store) : Prop :=
  (collectBytes [] p.run).Amid StoreCall.Acts other s passed (r, bytes) s'

theorem Amid.of_pure {a : α} {r : Except SerializeError α}
    (h : (pure a : Serializing α).Amid other s passed r bytes s') : r = .ok a ∧ bytes = [] :=
  Prod.mk.inj (Procedure.Amid.of_done h)

theorem Amid.of_throw {e : SerializeError} {r : Except SerializeError α}
    (h : (throw e : Serializing α).Amid other s passed r bytes s') : r = .error e ∧ bytes = [] :=
  Prod.mk.inj (Procedure.Amid.of_done h)

/-- What two procedures write comes one after another, unless the first one fails. -/
theorem Amid.of_bind {p : Serializing α} {f : α → Serializing β} {r : Except SerializeError β}
    (h : (p >>= f).Amid other s passed r bytes s') :
    ∃ first rest s₁, passed = first ++ rest ∧
      ((∃ e, r = .error e ∧ p.Amid other s first (.error e) bytes s₁) ∨
        ∃ a written written', bytes = written ++ written' ∧
          p.Amid other s first (.ok a) written s₁ ∧ (f a).Amid other s₁ rest r written' s') := by
  unfold Amid at h
  rw [Procedure.run_bind_except, collectBytes_bind] at h
  obtain ⟨⟨r₁, written⟩, s₁, first, rest, hpassed, hp, hrest⟩ := h.of_bind
  refine ⟨first, rest, s₁, hpassed, ?_⟩
  cases r₁ with
  | error e =>
    -- What failed is over, so nothing is written after it.
    obtain ⟨r₂, hdone, hr⟩ := hrest.of_bind_done
    obtain rfl := Procedure.Amid.of_done hdone
    obtain ⟨rfl, rfl⟩ := Prod.mk.inj hr
    have hp' : p.Amid other s first (.error e) (written ++ []) s₁ := by
      rwa [List.append_nil]
    exact .inl ⟨e, rfl, hp'⟩
  | ok a =>
    obtain ⟨⟨r₂, written'⟩, hf, hr⟩ := hrest.of_bind_done
    obtain ⟨rfl, rfl⟩ := Prod.mk.inj hr
    exact .inr ⟨a, written, written', rfl, hp, hf⟩

theorem Amid.of_bind_ok {p : Serializing α} {f : α → Serializing β} {b : β}
    (h : (p >>= f).Amid other s passed (.ok b) bytes s') :
    ∃ first rest s₁ a written written', passed = first ++ rest ∧ bytes = written ++ written' ∧
      p.Amid other s first (.ok a) written s₁ ∧ (f a).Amid other s₁ rest (.ok b) written' s' := by
  obtain ⟨first, rest, s₁, hpassed, ⟨e, hr, -⟩ | ⟨a, written, written', hbytes, hp, hf⟩⟩ :=
    h.of_bind
  · cases hr
  · exact ⟨first, rest, s₁, a, written, written', hpassed, hbytes, hp, hf⟩

/-- Whenever the procedure fails, what the store held explains why. -/
def Explains (other : Store → Store → Prop) (id : MeasurementId) (p : Serializing α) : Prop :=
  ∀ s passed e bytes s', (∀ m ∈ passed, 0 < m.queryLimit) →
    p.Amid other s passed (.error e) bytes s' → e.Explained id passed

theorem explains_pure (a : α) : Explains other id (pure a) := by
  intro s passed e bytes s' _ h
  cases h.of_pure.1

theorem Explains.bind {p : Serializing α} {f : α → Serializing β} (hp : Explains other id p)
    (hf : ∀ a, Explains other id (f a)) : Explains other id (p >>= f) := by
  intro s passed e bytes s' hlimit h
  obtain ⟨first, rest, s₁, rfl, ⟨e', he, hfailed⟩ | ⟨a, written, written', -, -, hrest⟩⟩ :=
    h.of_bind
  · cases he
    have hfirst : ∀ m ∈ first, 0 < m.queryLimit := fun m hm =>
      hlimit m (List.mem_append_left _ hm)
    exact (hp _ _ _ _ _ hfirst hfailed).append rest
  · have hlater : ∀ m ∈ rest, 0 < m.queryLimit := fun m hm =>
      hlimit m (List.mem_append_right _ hm)
    exact (hf a _ _ _ _ _ hlater hrest).prepend first

theorem amid_writeField {field : List UInt8} {r : Except SerializeError Unit}
    (h : (writeField field).Amid other s passed r bytes s') : r = .ok () ∧ bytes = field := by
  obtain ⟨hr, hbytes⟩ := Prod.mk.inj (Procedure.Amid.of_done h)
  exact ⟨hr, hbytes.trans (List.append_nil field)⟩

theorem amid_writeFields {fields : List (List UInt8)} {r : Except SerializeError Unit}
    (h : (writeFields fields).Amid other s passed r bytes s') :
    r = .ok () ∧ bytes = fields.flatten := by
  induction fields generalizing s passed r bytes with
  | nil => exact h.of_pure
  | cons field rest ih =>
    obtain ⟨first, later, s₁, -, ⟨e, -, hfield⟩ | ⟨_, written, written', rfl, hfield, hrest⟩⟩ :=
      h.of_bind
    · cases (amid_writeField hfield).1
    · obtain ⟨-, rfl⟩ := amid_writeField hfield
      obtain ⟨hr, rfl⟩ := ih hrest
      exact ⟨hr, rfl⟩

/-- A count is the one of some moment, unless the database fails. -/
theorem amid_askCount {r : Except SerializeError Nat}
    (h : (askCount id t).Amid other s passed r bytes s') :
    bytes = [] ∧ ((∃ detail, r = .error (.storage (.database detail))) ∨
      ∃ before m after, passed = before ++ m :: after ∧ r = .ok (m.count id t)) := by
  obtain ⟨before, m, rest, answer, s₁, hpassed, hcall, hnext⟩ := Procedure.Amid.of_call h
  rcases hcall with ⟨rfl, -⟩ | ⟨detail, rfl, -⟩
  · obtain ⟨hr, hbytes⟩ := Prod.mk.inj (Procedure.Amid.of_done hnext)
    exact ⟨hbytes, .inr ⟨before, m, rest, hpassed, hr⟩⟩
  · obtain ⟨hr, hbytes⟩ := Prod.mk.inj (Procedure.Amid.of_done hnext)
    exact ⟨hbytes, .inl ⟨detail, hr⟩⟩

theorem page_error {m : Store} {offset limit : Nat} {e : StoreError}
    (h : m.page id t offset limit = .error e) : ∃ detail, e = .database detail := by
  unfold Store.page at h
  simp only at h
  split at h
  · cases h
  · exact ⟨_, (Except.error.inj h).symm⟩

/-- A page of a store holds rows at their places, and none only if there are none. -/
theorem page_ok {m : Store} {offset limit : Nat} {points : List Point}
    (hlimit : 0 < m.queryLimit) (hpos : 0 < limit) (hoffset : offset < Transfer.countBound)
    (hbound : limit < Transfer.countBound) (h : m.page id t offset limit = .ok points) :
    (∀ i p, points[i]? = some p → (m.pointsByTime id t)[offset + i]? = some p) ∧
      points.length ≤ limit ∧ (points = [] → m.count id t ≤ offset) := by
  rcases m.page_cases hoffset hbound t with hpage | ⟨-, e, hpage⟩
  · rw [hpage] at h
    obtain rfl := Except.ok.inj h
    refine ⟨fun i p hp => ?_, ?_, fun hnil => ?_⟩
    · rw [List.getElem?_take, List.getElem?_drop] at hp
      split at hp
      · exact hp
      · cases hp
    · rw [List.length_take]
      omega
    · have hlength := congrArg List.length hnil
      rw [List.length_take, List.length_drop, Store.length_pointsByTime, List.length_nil] at hlength
      rw [Store.count]
      omega
  · rw [hpage] at h
    cases h

/-- One page, read while rows are missing. It fails, or it is empty and the pages end, or its rows were
at their places at one moment and the next page follows. -/
theorem amid_page {pageSize expected read : Nat} (hpage : 0 < pageSize)
    (hcount : expected < Transfer.countBound) (hmissing : read < expected)
    (hlimit : ∀ m ∈ passed, 0 < m.queryLimit) {r : Except SerializeError Nat}
    (h : (writePages id t pageSize expected read).Amid other s passed r bytes s') :
    (∃ detail, r = .error (.storage (.database detail))) ∨
      (r = .ok read ∧ bytes = [] ∧ ∃ m ∈ passed, m.count id t ≤ read) ∨
        ∃ (before : List Store) (m : Store) (middle later : List Store) (points : List Point)
            (written : List UInt8) (s₁ : Store), passed = before ++ m :: (middle ++ later) ∧
          (∀ i p, points[i]? = some p → (m.pointsByTime id t)[read + i]? = some p) ∧
          0 < points.length ∧ read + points.length ≤ expected ∧
          bytes = points.flatMap Point.record ++ written ∧
          (writePages id t pageSize expected (read + points.length)).Amid other s₁ later r written
            s' := by
  rw [writePages, dif_pos hmissing] at h
  obtain ⟨before, m, rest, answer, s₁, rfl, hcall, hnext⟩ := Procedure.Amid.of_call h
  have hmem : m ∈ before ++ m :: rest := List.mem_append_right _ List.mem_cons_self
  rcases hcall with ⟨hserved, -⟩ | ⟨detail, rfl, -⟩
  · have hanswer : m.page id t read (min pageSize (expected - read)) = answer := hserved.symm
    cases answer with
    | error e =>
      obtain ⟨detail, rfl⟩ := page_error hanswer
      exact .inl ⟨detail, (Prod.mk.inj (Procedure.Amid.of_done hnext)).1⟩
    | ok points =>
      obtain ⟨hrows, hle, hnone⟩ :=
        page_ok (hlimit m hmem) (by omega) (by omega) (by omega) hanswer
      cases points with
      | nil =>
        obtain ⟨hr, hbytes⟩ := Prod.mk.inj (Procedure.Amid.of_done hnext)
        exact .inr (.inl ⟨hr, hbytes, m, hmem, hnone rfl⟩)
      | cons p others =>
        have hfields : (writeFields ((p :: others).flatMap Point.fields) >>= fun _ =>
            writePages id t pageSize expected (read + (others.length + 1))).Amid other s₁ rest r
            bytes s' := hnext
        obtain ⟨middle, later, s₂, rfl, ⟨e, -, hwrite⟩ | ⟨_, own, written, rfl, hwrite, hrest⟩⟩ :=
          hfields.of_bind
        · cases (amid_writeFields hwrite).1
        · obtain ⟨-, rfl⟩ := amid_writeFields hwrite
          rw [flatten_flatMap_fields]
          exact .inr (.inr ⟨before, m, middle, later, p :: others, written, s₂, rfl, hrows,
            Nat.succ_pos _, by omega, rfl, hrest⟩)
  · exact .inl ⟨detail, (Prod.mk.inj (Procedure.Amid.of_done hnext)).1⟩

/-- The pages from a row on hold rows at their places, over the moments at which they were read. They
end before the count is reached only where a store had no row left. -/
theorem amid_writePages {pageSize expected : Nat} (hpage : 0 < pageSize)
    (hcount : expected < Transfer.countBound) {read : Nat} (hread : read ≤ expected)
    (hlimit : ∀ m ∈ passed, 0 < m.queryLimit) {r : Except SerializeError Nat}
    (h : (writePages id t pageSize expected read).Amid other s passed r bytes s') :
    (∃ detail, r = .error (.storage (.database detail))) ∨
      ∃ points, bytes = points.flatMap Point.record ∧ ReadThrough id t read passed points ∧
        r = .ok (read + points.length) ∧ read + points.length ≤ expected ∧
        (read + points.length < expected → ∃ m ∈ passed, m.count id t ≤ read + points.length) := by
  -- The rows that are missing get fewer with each page.
  induction hleft : expected - read using Nat.strongRecOn generalizing read s passed bytes with
  | ind left ih =>
    by_cases hmissing : read < expected
    · rcases amid_page hpage hcount hmissing hlimit h with hfailed | ⟨rfl, rfl, hfewer⟩ |
        ⟨before, m, middle, later, points, written, s₁, rfl, hrows, hpos, hle, rfl, hrest⟩
      · exact .inl hfailed
      · exact .inr ⟨[], rfl, .nil _ _, rfl, hread, fun _ => hfewer⟩
      · have hsub (m' : Store) (hm' : m' ∈ later) : m' ∈ before ++ m :: (middle ++ later) := by
          simp [hm']
        have hlater : ∀ m' ∈ later, 0 < m'.queryLimit := fun m' hm' => hlimit m' (hsub m' hm')
        rcases ih _ (by omega) hle hlater hrest rfl with
          hfailed | ⟨others, rfl, hthrough, rfl, hmore, hend⟩
        · exact .inl hfailed
        · -- This page was read at one moment, and those after it later on.
          have hlength : read + (points ++ others).length = read + points.length + others.length := by
            rw [List.length_append, Nat.add_assoc]
          refine .inr ⟨points ++ others, ?_, ?_, by rw [hlength], hlength ▸ hmore, ?_⟩
          · rw [List.flatMap_append]
          · exact .prepend (.page hrows (.skip m (hthrough.prepend middle))) before
          · intro hlt
            rw [hlength] at hlt ⊢
            obtain ⟨m', hm', hfewer⟩ := hend hlt
            exact ⟨m', hsub m' hm', hfewer⟩
    · rw [writePages, dif_neg hmissing] at h
      obtain ⟨rfl, rfl⟩ := h.of_pure
      exact .inr ⟨[], rfl, .nil _ _, rfl, hread, fun hlt => absurd hlt hmissing⟩

/-- The rows of a table are read at their places over the moments. There are as many as expected, or
a store had fewer of them at the end. -/
theorem amid_writeRows {pageSize expected : Nat} (hpage : 0 < pageSize)
    (hcount : expected < Transfer.countBound) (hlimit : ∀ m ∈ passed, 0 < m.queryLimit)
    {r : Except SerializeError Nat}
    (h : (writeRows id pageSize t expected).Amid other s passed r bytes s') :
    (∃ detail, r = .error (.storage (.database detail))) ∨
      ∃ points, ReadThrough id t 0 passed points ∧
        ((r = .ok (4 + expected * Transfer.recordBytes t) ∧ points.length = expected ∧
            bytes = Transfer.sectionBytes points) ∨
          r = .error (.inconsistent id t expected points.length) ∧ points.length < expected ∧
            ∃ m ∈ passed, m.count id t ≤ points.length) := by
  obtain ⟨first, later, s₁, rfl, ⟨e, -, hfield⟩ | ⟨_, field, _, rfl, hfield, hpages⟩⟩ := h.of_bind
  · cases (amid_writeField hfield).1
  · obtain ⟨-, rfl⟩ := amid_writeField hfield
    obtain ⟨middle, last, s₂, rfl, hcases⟩ := hpages.of_bind
    have hmiddle : ∀ m ∈ middle, 0 < m.queryLimit := fun m hm => hlimit m (by simp [hm])
    rcases hcases with ⟨e, rfl, hfailed⟩ | ⟨read, records, tail, rfl, hread, hcheck⟩
    · rcases amid_writePages hpage hcount (Nat.zero_le _) hmiddle hfailed with
        ⟨detail, he⟩ | ⟨_, -, -, he, -⟩
      · cases he
        exact .inl ⟨detail, rfl⟩
      · cases he
    · rcases amid_writePages hpage hcount (Nat.zero_le _) hmiddle hread with
        ⟨detail, he⟩ | ⟨points, rfl, hthrough, hr, hle, hend⟩
      · cases he
      · obtain rfl := Except.ok.inj hr
        rw [Nat.zero_add] at hcheck hle hend
        refine .inr ⟨points, (hthrough.append last).prepend first, ?_⟩
        -- The check at the end compares the two numbers of rows.
        split at hcheck
        · rename_i hall
          obtain ⟨rfl, rfl⟩ := hcheck.of_pure
          refine .inl ⟨rfl, hall, ?_⟩
          rw [Transfer.sectionBytes, hall, List.append_nil]
        · obtain ⟨rfl, -⟩ := hcheck.of_throw
          obtain ⟨m, hm, hfewer⟩ := hend (by omega)
          exact .inr ⟨rfl, by omega, m, by simp [hm], hfewer⟩

/-- A table is counted at one moment and read over those after it, or is not written for a reason. -/
theorem amid_writeTable {pageSize : Nat} (hpage : 0 < pageSize)
    (hlimit : ∀ m ∈ passed, 0 < m.queryLimit) {r : Except SerializeError Nat}
    (h : (writeTable id pageSize t).Amid other s passed r bytes s') :
    (∃ e, r = .error e ∧ e.Explained id passed) ∨
      ∃ points, Taken id t passed points ∧ bytes = Transfer.sectionBytes points ∧
        r = .ok (4 + points.length * Transfer.recordBytes t) := by
  rw [writeTable_eq] at h
  obtain ⟨first, later, s₁, rfl, ⟨e, rfl, hask⟩ | ⟨expected, written, _, rfl, hask, hrest⟩⟩ :=
    h.of_bind
  · obtain ⟨-, ⟨detail, he⟩ | ⟨before, m, after, -, he⟩⟩ := amid_askCount hask
    · cases he
      exact .inl ⟨_, rfl, detail, rfl⟩
    · cases he
  · obtain ⟨rfl, ⟨detail, he⟩ | ⟨before, m, after, rfl, he⟩⟩ := amid_askCount hask
    · cases he
    · -- The table was counted at this moment, and its rows are read later on.
      obtain rfl := Except.ok.inj he
      have hmoments : before ++ m :: after ++ later = before ++ m :: (after ++ later) := by
        simp
      rw [hmoments]
      split at hrest
      · rename_i hlarge
        obtain ⟨rfl, -⟩ := hrest.of_throw
        exact .inl ⟨_, rfl, m, by simp, t, hlarge, rfl⟩
      · rename_i hfits
        have hlater : ∀ m' ∈ later, 0 < m'.queryLimit := fun m' hm' => hlimit m' (by simp [hm'])
        rcases amid_writeRows hpage (by omega) hlater hrest with ⟨detail, rfl⟩ |
          ⟨points, hthrough, ⟨rfl, hlength, rfl⟩ | ⟨rfl, hlt, m', hm', hfewer⟩⟩
        · exact .inl ⟨_, rfl, detail, rfl⟩
        · refine .inr ⟨points, ⟨before, m, after ++ later, rfl, hlength.symm, by omega, ?_⟩, rfl,
            by rw [hlength]⟩
          exact hthrough.prepend after
        · exact .inl ⟨_, rfl, rfl, hlt, before, m, after ++ later, rfl, rfl, m', by simp [hm'],
            hfewer⟩

theorem explains_writeTable {pageSize : Nat} (hpage : 0 < pageSize) :
    Explains other id (writeTable id pageSize t) := by
  intro s passed e bytes s' hlimit h
  rcases amid_writeTable hpage hlimit h with ⟨e', he, hexplained⟩ | ⟨points, -, -, he⟩
  · cases he
    exact hexplained
  · cases he

theorem explains_writeTables {pageSize : Nat} (hpage : 0 < pageSize) (tables : List Table) :
    Explains other id (writeTables id pageSize tables) := by
  induction tables with
  | nil => exact explains_pure 0
  | cons t rest ih =>
    exact (explains_writeTable hpage).bind fun _ => ih.bind fun _ => explains_pure _

/-- Tables are taken one after another. -/
theorem amid_writeTables {pageSize total : Nat} (hpage : 0 < pageSize) {tables : List Table}
    (hnodup : tables.Nodup) (hlimit : ∀ m ∈ passed, 0 < m.queryLimit)
    (h : (writeTables id pageSize tables).Amid other s passed (.ok total) bytes s') :
    ∃ points, TakenEach id tables passed points ∧
      bytes = (tables.flatMap fun t => Transfer.sectionBytes (points t)) ∧
      total = Transfer.tablesSize (fun t => (points t).length) tables := by
  induction tables generalizing s s' passed total bytes with
  | nil =>
    obtain ⟨htotal, rfl⟩ := h.of_pure
    exact ⟨fun _ => [], trivial, rfl, Except.ok.inj htotal⟩
  | cons t rest ih =>
    obtain ⟨hnew, hnodup⟩ := List.nodup_cons.mp hnodup
    obtain ⟨first, later, s₁, own, written, _, rfl, rfl, htable, hothers⟩ := h.of_bind_ok
    obtain ⟨middle, last, s₂, others, written', tail, rfl, rfl, hrest, hsum⟩ := hothers.of_bind_ok
    obtain ⟨htotal, rfl⟩ := hsum.of_pure
    have hfirst : ∀ m ∈ first, 0 < m.queryLimit := fun m hm => hlimit m (by simp [hm])
    have hmiddle : ∀ m ∈ middle, 0 < m.queryLimit := fun m hm => hlimit m (by simp [hm])
    rcases amid_writeTable hpage hfirst htable with ⟨e, he, -⟩ | ⟨points, htaken, rfl, hown⟩
    · cases he
    · obtain ⟨points', htakens, rfl, rfl⟩ := ih hnodup hmiddle hrest
      -- The table is not among those after it, so its points can be put beside theirs.
      obtain ⟨both, rfl, hsame⟩ : ∃ both : Table → List Point,
          both t = points ∧ ∀ u ∈ rest, both u = points' u := by
        refine ⟨fun u => if u = t then points else points' u, if_pos rfl, fun u hu => ?_⟩
        have hne : u ≠ t := by
          rintro rfl
          exact hnew hu
        exact if_neg hne
      refine ⟨both, ?_, ?_, ?_⟩
      · exact ⟨first, middle ++ last, rfl, htaken, (htakens.append last).congr hsame⟩
      · have hrecords : (rest.flatMap fun u => Transfer.sectionBytes (both u)) =
            rest.flatMap fun u => Transfer.sectionBytes (points' u) :=
          List.flatMap_congr fun u hu => by rw [hsame u hu]
        rw [List.flatMap_cons, List.append_nil, hrecords]
      · rw [Except.ok.inj htotal, Except.ok.inj hown, Transfer.tablesSize]
        refine congrArg (_ + ·) (Transfer.tablesSize_congr fun u hu => ?_)
        rw [hsame u hu]

theorem explains_writeField (field : List UInt8) : Explains other id (writeField field) := by
  intro s passed e bytes s' _ h
  cases (amid_writeField h).1

end Serializing

/-! ### What is written -/

section Serialize

variable {other : Store → Store → Prop} {s s' : Store} {passed : List Store} {bytes : List UInt8}
  {id : MeasurementId} {pageSize : Nat}

/-- A measurement that is not written is not written for a reason. -/
theorem explained_of_amid {e : SerializeError} (hlimit : ∀ m ∈ passed, 0 < m.queryLimit)
    (h : (collectBytes [] (serialize pageSize id)).Amid StoreCall.Acts other s passed
      (.error e, bytes) s') : e.Explained id passed := by
  have hpage : 0 < max pageSize 1 := by omega
  have hversion : Serializing.Explains other id (writeField Transfer.versionField) :=
    Serializing.explains_writeField Transfer.versionField
  have hserialize := hversion.bind fun _ =>
    (Serializing.explains_writeTables hpage Table.all).bind fun others =>
      Serializing.explains_pure (2 + others)
  exact hserialize _ _ _ _ _ hlimit h

/-- What is written are the tables, taken one after another. -/
theorem takenEach_of_amid {total : Nat} (hlimit : ∀ m ∈ passed, 0 < m.queryLimit)
    (h : (collectBytes [] (serialize pageSize id)).Amid StoreCall.Acts other s passed
      (.ok total, bytes) s') :
    ∃ points, TakenEach id Table.all passed points ∧ bytes = Transfer.image points ∧
      total = bytes.length := by
  have hbody : Serializing.Amid other (do
      writeField Transfer.versionField
      let others ← writeTables id (max pageSize 1) Table.all
      return 2 + others) s passed (.ok total) bytes s' := h
  obtain ⟨first, later, s₁, _, version, _, rfl, rfl, hversion, hrest⟩ := hbody.of_bind_ok
  obtain ⟨middle, last, s₂, others, written, tail, rfl, rfl, htables, hsum⟩ := hrest.of_bind_ok
  obtain ⟨htotal, rfl⟩ := hsum.of_pure
  obtain ⟨-, rfl⟩ := Serializing.amid_writeField hversion
  have hmiddle : ∀ m ∈ middle, 0 < m.queryLimit := fun m hm => hlimit m (by simp [hm])
  obtain ⟨points, htaken, rfl, rfl⟩ :=
    Serializing.amid_writeTables (by omega) (by decide) hmiddle htables
  have himage : Transfer.versionField ++
      ((Table.all.flatMap fun t => Transfer.sectionBytes (points t)) ++ []) =
      Transfer.image points := by
    rw [List.append_nil, Transfer.image]
  have htable (t : Table) (p : Point) (hp : p ∈ points t) : p.table = t :=
    (htaken.taken t.mem_all).table_eq hp
  refine ⟨points, (htaken.append last).prepend first, himage, ?_⟩
  rw [himage, Transfer.length_image htable]
  exact Except.ok.inj htotal

/-- What is written while nobody changes the store is the image of the measurement, and its counts
fit. -/
theorem Store.image_of_written {total : Nat} (hlimit : 0 < s.queryLimit)
    (h : s.written pageSize id = (.ok total, bytes)) :
    bytes = Transfer.image (s.pointsByTime id) ∧ ∀ t, s.count id t < Transfer.countBound := by
  have hends : (collectBytes [] (serialize pageSize id)).Ends StoreCall.Acts s
      ((collectBytes [] (serialize pageSize id)).run Store.serve s).1
      ((collectBytes [] (serialize pageSize id)).run Store.serve s).2 :=
    Procedure.Ends.of_run Store.answers_serve _ s
  obtain ⟨passed, hamid⟩ : ∃ passed, (collectBytes [] (serialize pageSize id)).Amid StoreCall.Acts
      (fun _ _ => False) s passed (s.written pageSize id) _ := hends.exists_amid
  -- The serializer changes nothing, so it finds the same store at each of its calls.
  have hsame : ∀ m ∈ passed, s = m := by
    refine (hamid.keeps (asks_collectBytes_serialize pageSize id) ?_ ?_ rfl).1
    · intro c m answer m' hc hcall hm
      have hanswer : m.Answers c answer m' := hcall
      rw [hanswer.of_reads hc, hm]
    · exact fun _ _ hnever => hnever.elim
  rw [h] at hamid
  obtain ⟨points, htaken, rfl, -⟩ :=
    takenEach_of_amid (fun m hm => hsame m hm ▸ hlimit) hamid
  have hpoints (t : Table) : points t = s.pointsByTime id t :=
    (htaken.taken t.mem_all).eq_of_same fun m hm => by rw [hsame m hm]
  refine ⟨by rw [funext hpoints], fun t => ?_⟩
  obtain ⟨before, m, after, -, -, hfits, -⟩ := htaken.taken t.mem_all
  rwa [hpoints t, Store.length_pointsByTime] at hfits

/-- What is written while others change the store. It is the layout of four lists of points, which
were taken one after another: each of them is as long as its table was at some moment, and each
point in it was at its place in the table at that moment or later. A table that only grows at its
end, or is emptied, is written as it was counted, and a measurement that stays as it is is written as
it is. Where nothing is written, the store explains why. -/
theorem serialize_amid {r : Except SerializeError Nat} (hlimit : 0 < s.queryLimit)
    (h : (collectBytes [] (serialize pageSize id)).Amid StoreCall.Acts Store.Changes s passed
      (r, bytes) s') :
    (∀ total, r = .ok total → total = bytes.length ∧ ∃ points : Table → List Point,
      bytes = Transfer.image points ∧ TakenEach id Table.all passed points ∧
      (∀ t, (passed.Pairwise fun m m' =>
          m.pointsByTime id t <+: m'.pointsByTime id t ∨ m'.pointsByTime id t = []) →
        ∃ m ∈ passed, points t = m.pointsByTime id t) ∧
      ((∀ m ∈ passed, ∀ t, m.rowsOf id t = s.rowsOf id t) →
        bytes = Transfer.image (s.pointsByTime id))) ∧
    ∀ e, r = .error e → e.Explained id passed := by
  have hpassed : ∀ m ∈ passed, 0 < m.queryLimit := by
    refine (h.keeps (Procedure.asks_true _) ?_ ?_ hlimit).1
    · exact fun c m answer m' _ hcall hpos => hcall.queryLimit_eq ▸ hpos
    · rintro m m' ⟨c, answer, hstep⟩ hpos
      exact hstep.queryLimit_eq ▸ hpos
  refine ⟨?_, ?_⟩
  · rintro total rfl
    obtain ⟨points, htaken, rfl, htotal⟩ := takenEach_of_amid hpassed h
    refine ⟨htotal, points, rfl, htaken, fun t hgrows => (htaken.taken t.mem_all).eq_of_grows hgrows,
      fun hsame => ?_⟩
    refine congrArg Transfer.image (funext fun t => (htaken.taken t.mem_all).eq_of_same ?_)
    intro m hm
    rw [Store.pointsByTime_congr (hsame m hm)]
  · rintro e rfl
    exact explained_of_amid hpassed h

end Serialize

/-! ### Moments that never were -/

/-- An open measurement with one location and one acceleration. -/
def recorded : Store :=
  let created := (Store.serve (.create .car) (Store.empty none 1 1)).2
  (created.insert ⟨1⟩ [.location ⟨5, .zero, .zero, .zero, .zero⟩,
    .sample ⟨.acceleration, .zero, .zero, .zero, 5⟩]).2

/-- What is written of the measurement while others make the calls of a script, with the stores that
were passed and the last one. -/
def amidScript (script : List (List StoreCall)) :
    (Except SerializeError Nat × List UInt8) × List Store × Store :=
  (collectBytes [] (serialize 1 ⟨1⟩)).runAmid Store.serve script recorded

theorem amid_amidScript (script : List (List StoreCall)) :
    (collectBytes [] (serialize 1 ⟨1⟩)).Amid StoreCall.Acts Store.Changes recorded
      (amidScript script).2.1 (amidScript script).1 (amidScript script).2.2 :=
  Procedure.amid_runAmid Store.answers_serve
    (fun c s => ⟨c, _, Store.answers_serve c s⟩) _ script recorded

/-- The measurement is emptied after its locations were written. -/
def emptiedBetween : List (List StoreCall) := [[], [], [.clean ⟨1⟩]]

/-- An earlier location is added after the locations were counted. -/
def shiftedBetween : List (List StoreCall) :=
  [[], [.status ⟨1⟩, .insert ⟨1⟩ [.location ⟨3, .zero, .zero, .zero, .zero⟩]]]

/-- Amid the calls of a script, bytes are written that are the image of the measurement at no
moment. -/
def Torn (script : List (List StoreCall)) : Prop :=
  ∃ total bytes,
    (collectBytes [] (serialize 1 ⟨1⟩)).Amid StoreCall.Acts Store.Changes recorded
      (amidScript script).2.1 (.ok total, bytes) (amidScript script).2.2 ∧
    ∀ m ∈ (amidScript script).2.1 ++ [(amidScript script).2.2],
      bytes ≠ Transfer.image (m.pointsByTime ⟨1⟩)

theorem torn_of_amidScript {script : List (List StoreCall)}
    (hanswer : (amidScript script).1.1 = .ok (amidScript script).1.2.length)
    (hnever : ∀ m ∈ (amidScript script).2.1 ++ [(amidScript script).2.2],
      (amidScript script).1.2 ≠ Transfer.image (m.pointsByTime ⟨1⟩)) : Torn script := by
  have hamid := amid_amidScript script
  have hresult : (amidScript script).1 = (.ok (amidScript script).1.2.length,
      (amidScript script).1.2) := Prod.ext hanswer rfl
  rw [hresult] at hamid
  exact ⟨_, _, hamid, hnever⟩

/-- A purge between two tables, and an earlier row between a count and a page, lead to bytes that are
the image of the measurement at no moment. -/
theorem serialize_torn : Torn emptiedBetween ∧ Torn shiftedBetween := by
  have himage (m : Store) : Transfer.image (m.pointsByTime ⟨1⟩) =
      Transfer.image fun t => (m.points ⟨1⟩ t).insertionSort Point.NotLater := by
    simp only [← byTime_eq_insertionSort, ← Store.pointsByTime_eq]
  constructor
  all_goals
    apply torn_of_amidScript
    all_goals
      simp only [amidScript, Store.serve_eq_serveByInsertion, himage]
      decide +kernel

/-- The bytes that were written while the measurement was emptied are still made of tables that were
taken one after another. -/
theorem serialize_amid_emptied : 0 < recorded.queryLimit ∧
    ∃ points, (amidScript emptiedBetween).1.2 = Transfer.image points ∧
      TakenEach ⟨1⟩ Table.all (amidScript emptiedBetween).2.1 points := by
  have hlimit : 0 < recorded.queryLimit := by decide +kernel
  have hanswer : (amidScript emptiedBetween).1.1 = .ok 54 := by decide +kernel
  obtain ⟨-, points, hbytes, htaken, -⟩ :=
    (serialize_amid hlimit (amid_amidScript emptiedBetween)).1 54 hanswer
  exact ⟨hlimit, points, hbytes, htaken⟩

end TripRecorder
