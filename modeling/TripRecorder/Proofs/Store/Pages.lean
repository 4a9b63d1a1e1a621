import TripRecorder.Proofs.Store.Crowd
import TripRecorder.Proofs.Store.Ledger
import TripRecorder.Proofs.Store.Numbers

/-!
# Pages of one order

Whatever came in between the insertions of its points, a measurement is read in one order, and every
page is a window of it. Whoever reads page after page until one is short has read every row once.

## Main definitions

* `StoreCall.leaves`, `Store.insertedIn` — the points of a measurement, by the answers to calls
* `Store.Sweeps` — pages are read one after another until one is short

## Main results

* `Store.page_eq` — a page is a window of the points by time
* `Store.sweeps_iff`, `Store.exists_sweep` — one page of a sweep, and the whole sweep
* `Store.Crowd.pages_of_one_order` — what is read after the calls of any clients
-/

namespace TripRecorder

/-- The points of a measurement after a call, by its answer. What was inserted comes after what was
there, and a purge leaves nothing. -/
def StoreCall.leaves (id : MeasurementId) (held : List Point) :
    (c : StoreCall) → StoreAnswer c → List Point
  | .insert owner points, .ok () => if owner = id then held ++ points else held
  | .clean owner, .ok _ => if owner = id then [] else held
  | _, _ => held

namespace Store

variable {s s' : Store} {id : MeasurementId} {t : Table}

/-- The points inserted in a measurement since it was emptied last, in the order of the calls. -/
def insertedIn (id : MeasurementId) (past : List ClientCall) : List Point :=
  past.foldl (fun held m => m.call.leaves id held m.answer) []

@[simp] theorem insertedIn_concat (id : MeasurementId) (past : List ClientCall) (m : ClientCall) :
    insertedIn id (past ++ [m]) = m.call.leaves id (insertedIn id past) m.answer := by
  rw [insertedIn, List.foldl_append, List.foldl_cons, List.foldl_nil, insertedIn]

/-- The points of a measurement change as the answer to a call tells. -/
theorem Answers.points_eq {c : StoreCall} {answer : StoreAnswer c} {held : List Point}
    (h : s.Answers c answer s') (hheld : s.points id t = keptIn t held) :
    s'.points id t = keptIn t (c.leaves id held answer) := by
  cases c with
  | create vehicle =>
    rw [points, h.rows_of_create]
    exact hheld
  | setStatus moved target =>
    rw [points, h.rows_of_setStatus]
    exact hheld
  | insert owner batch =>
    rcases h.of_insert with ⟨e, rfl, rfl⟩ | ⟨rfl, -, hpoints⟩
    · exact hheld
    · rw [hpoints, hheld, StoreCall.leaves]
      split
      · rw [keptIn_append]
      · rw [List.append_nil]
  | clean owner =>
    rcases h.of_clean with ⟨e, rfl, rfl⟩ | ⟨n, rfl, -, hpoints⟩
    · exact hheld
    · rw [hpoints, hheld, StoreCall.leaves]
      by_cases hid : id = owner
      · rw [if_pos hid, if_pos hid.symm, keptIn_nil]
      · rw [if_neg hid, if_neg (Ne.symm hid)]
  | _ =>
    obtain rfl := h.of_reads (by trivial)
    exact hheld

/-- A page of points that can be read is a window of the points by time. -/
theorem page_eq (hread : s.Readable id) (hcount : s.count id t < signBound) {offset : Nat}
    (hoffset : offset < signBound) (limit : Nat) : s.page id t offset limit =
      .ok (((s.pointsByTime id t).drop offset).take (min limit s.queryLimit)) := by
  rw [page_of_readable (hread t), ← pointsByTime_eq, window, if_pos hoffset]
  split
  · rfl
  · -- A limit that counts as negative is none, and there are not as many rows as it says.
    rw [List.take_of_length_le]
    rw [List.length_drop, length_pointsByTime]
    rw [count] at hcount
    omega

/-! ### Sweeps -/

/-- From an offset on, pages are read one after another until one has less rows than were asked
for. -/
inductive Sweeps (s : Store) (id : MeasurementId) (t : Table) (size : Nat) :
    Nat → List (List Point) → Prop where
  | last {offset : Nat} {page : List Point} : s.page id t offset size = .ok page →
      page.length < size → Sweeps s id t size offset [page]
  | more {offset : Nat} {page : List Point} {rest : List (List Point)} :
      s.page id t offset size = .ok page → size ≤ page.length →
      Sweeps s id t size (offset + size) rest → Sweeps s id t size offset (page :: rest)

variable {size offset : Nat} {page points : List Point} {pages : List (List Point)}

/-- A sweep ends with a short page, and goes on after a full one. -/
theorem sweeps_iff (h : s.page id t offset size = .ok page) :
    s.Sweeps id t size offset pages ↔ if page.length < size then pages = [page]
      else ∃ rest, s.Sweeps id t size (offset + size) rest ∧ pages = page :: rest := by
  constructor
  · intro hsweep
    cases hsweep with
    | last hpage hshort =>
      cases h.symm.trans hpage
      rw [if_pos hshort]
    | more hpage hfull hrest =>
      cases h.symm.trans hpage
      rw [if_neg (Nat.not_lt.mpr hfull)]
      exact ⟨_, hrest, rfl⟩
  · split
    · rename_i hshort
      rintro rfl
      exact .last h hshort
    · rename_i hfull
      rintro ⟨rest, hrest, rfl⟩
      exact .more h (Nat.not_lt.mp hfull) hrest

/-- Where pages are windows of a list, there is one sweep. It ends, and its pages make up what the
list holds from the offset on. -/
theorem exists_sweep (hsize : 0 < size)
    (hpages : ∀ offset ≤ points.length,
      s.page id t offset size = .ok ((points.drop offset).take size))
    (hoffset : offset ≤ points.length) :
    ∃ pages, (∀ other, s.Sweeps id t size offset other ↔ other = pages) ∧
      pages.length = (points.length - offset) / size + 1 ∧
      pages.flatten = points.drop offset := by
  induction hleft : points.length - offset using Nat.strong_induction_on generalizing offset with
  | _ left ih => ?_
  subst hleft
  have hpage := hpages offset hoffset
  by_cases hshort : points.length - offset < size
  · have htake : (points.drop offset).take size = points.drop offset :=
      List.take_of_length_le (by rw [List.length_drop]; omega)
    rw [htake] at hpage
    refine ⟨[points.drop offset], fun other => ?_, ?_, List.flatten_singleton⟩
    · rw [sweeps_iff hpage, if_pos (by rwa [List.length_drop])]
    · rw [Nat.div_eq_of_lt hshort]
      rfl
  · -- The next page begins where this one ends, and fewer rows are left for it.
    obtain ⟨rest, hrest, hlength, hflatten⟩ :=
      ih (points.length - (offset + size)) (by omega) (by omega) rfl
    refine ⟨(points.drop offset).take size :: rest, fun other => ?_, ?_, ?_⟩
    · have hfull : ¬((points.drop offset).take size).length < size := by
        rw [List.length_take, List.length_drop]
        omega
      rw [sweeps_iff hpage, if_neg hfull]
      constructor
      · rintro ⟨found, hfound, rfl⟩
        rw [(hrest found).mp hfound]
      · rintro rfl
        exact ⟨rest, (hrest rest).mpr rfl, rfl⟩
    · rw [List.length_cons, hlength, ← Nat.sub_sub, Nat.div_eq_sub_div hsize (Nat.not_lt.mp hshort)]
    · rw [List.flatten_cons, hflatten, ← List.drop_drop, List.take_append_drop]

/-! ### After the calls of clients -/

namespace Crowd

variable {first : Store} {clients : List Client} {past : List ClientCall}

/-- What every call keeps is kept, whoever makes the calls and in whatever order. -/
theorem keeps {keeps : Store → Prop} (h : Crowd first clients past s)
    (hcalls : ∀ c s answer s', s.Answers c answer s' → keeps s → keeps s')
    (hfirst : keeps first) : keeps s := by
  induction h with
  | start => exact hfirst
  | enter errand _ ih => exact ih
  | step _ _ hact ih => exact hcalls _ _ _ _ hact ih

/-- A measurement holds what was inserted in it, in the order of the calls. -/
theorem points_eq (h : Crowd first clients past s) (hfirst : first.points id t = []) :
    s.points id t = keptIn t (insertedIn id past) := by
  induction h with
  | start => exact hfirst
  | enter errand _ ih => exact ih
  | step _ _ hact ih =>
    rw [insertedIn_concat]
    exact Answers.points_eq hact ih

/-- However the calls of clients come in between each other, the rows of a measurement are read in
one order: by time, and those of one time as they were inserted. This is the only order by time and
row number. Every page is a window of it, and for each size that a page can have, reading page after
page until one is short comes to an end, in one way, with every row read once and in order. -/
theorem pages_of_one_order {device : Option String} {batchLimit queryLimit : Nat} {rules : Rules}
    (h : Crowd { empty device batchLimit queryLimit with rules := rules } clients past s)
    (hfit : s.NumbersFit) (id : MeasurementId) (t : Table) :
    s.points id t = keptIn t (insertedIn id past) ∧
    Arranged (s.points id t) (s.pointsByTime id t) ∧
    (∀ rows, rows = s.rowsByTime id t ↔ rows.Perm (s.rowsOf id t) ∧ rows.Pairwise Row.Before) ∧
    (∀ offset limit, offset < signBound → s.page id t offset limit =
      .ok (((s.pointsByTime id t).drop offset).take (min limit s.queryLimit))) ∧
    ∀ size, 0 < size → size ≤ s.queryLimit →
      ∃ pages, (∀ other, s.Sweeps id t size 0 other ↔ other = pages) ∧
        pages.length = s.count id t / size + 1 ∧ pages.flatten = s.pointsByTime id t := by
  have hread : s.Readable id :=
    h.keeps (fun _ _ _ _ hcall hkept => Answers.readable hcall hkept) fun _ _ hr => nomatch hr
  have hnumbered : s.Numbered :=
    h.keeps (fun _ _ _ _ hcall hkept => hkept.answers hcall)
      ⟨fun _ => List.Pairwise.nil, fun _ _ hr => nomatch hr⟩
  have hcount : s.count id t < signBound := Nat.lt_of_le_of_lt (hnumbered.count_le id t) (hfit t)
  have hlength : (s.pointsByTime id t).length = s.count id t := length_pointsByTime s id t
  have hpage (offset limit : Nat) (hoffset : offset < signBound) :=
    page_eq hread hcount hoffset limit
  refine ⟨h.points_eq rfl, ?_, fun rows => hnumbered.rowsByTime_iff, hpage, ?_⟩
  · rw [pointsByTime_eq]
    exact arranged_byTime _
  · intro size hpos hle
    -- All offsets of a sweep are within the rows, so they are small enough.
    have hwindow (offset : Nat) (hoffset : offset ≤ (s.pointsByTime id t).length) :
        s.page id t offset size = .ok (((s.pointsByTime id t).drop offset).take size) := by
      rw [hpage offset size (by omega), Nat.min_eq_left hle]
    have hsweep := exists_sweep hpos hwindow (Nat.zero_le _)
    rwa [Nat.sub_zero, List.drop_zero, hlength] at hsweep

end Crowd

/-- A location of one moment, told from others by its latitude. -/
def sameMoment (bits : UInt64) : Point := .location ⟨7, ⟨bits⟩, .zero, .zero, .zero⟩

/-- Two appends to one measurement take turns, with an append to another one in between. -/
def takingTurns : Scene StoreAnswer Errand.Result Store :=
  TripRecorder.Crowd.play Errand.procedure serve (empty none 1 2)
    [.enter (.ask (.create .car) trivial), .enter (.ask (.create .bicycle) trivial),
      .call 0, .call 1,
      .enter (.append 1 ⟨1⟩ [sameMoment 1, sameMoment 3]),
      .enter (.append 1 ⟨2⟩ [sameMoment 5]),
      .enter (.append 1 ⟨1⟩ [sameMoment 2, sameMoment 4]),
      .call 2, .call 3, .call 4, .call 2, .call 3, .call 4, .call 2, .call 4]

/-- The four locations of one moment are read in the order in which they were inserted. Two pages of
two rows are followed by an empty one. -/
theorem pages_takingTurns :
    Crowd { empty none 1 2 with rules := Rules.none } takingTurns.parties takingTurns.past
        takingTurns.state ∧
      takingTurns.state.NumbersFit ∧
      ∃ pages, takingTurns.state.Sweeps ⟨1⟩ .locations 2 0 pages ∧ pages.length = 3 ∧
        pages.flatten = [sameMoment 1, sameMoment 2, sameMoment 3, sameMoment 4] := by
  have hcrowd : Crowd { empty none 1 2 with rules := Rules.none } takingTurns.parties
      takingTurns.past takingTurns.state := TripRecorder.Crowd.of_play answers_serve _ _
  have hfit : takingTurns.state.NumbersFit := fun t => by
    rcases t with _ | _ | _ | _ <;> decide +kernel
  obtain ⟨-, -, -, -, hsweeps⟩ := Crowd.pages_of_one_order hcrowd hfit ⟨1⟩ .locations
  obtain ⟨pages, hsweep, hlength, hflatten⟩ := hsweeps 2 (by decide) (by decide +kernel)
  refine ⟨hcrowd, hfit, pages, (hsweep pages).mpr rfl, ?_, ?_⟩
  · rw [hlength]
    decide +kernel
  · rw [hflatten, pointsByTime_eq, byTime_eq_insertionSort]
    decide +kernel

end Store

end TripRecorder
