import Mathlib.Data.List.Perm.Basic
import TripRecorder.Capture.Intake
import TripRecorder.Proofs.Chunks

/-!
# Batches that are filled one after another

A batch with more samples than a chunk may have is poured into others, one list after the other and
each sample into the list of its own kind. Each of them is filled before the next one is begun. This
file says that this is how batches are cut, how large the chunks are, and what becomes of a sample
that is in the list of another kind.

## Main definitions

* `Filling` — batches while they are being filled
* `SampleBatch.poured` — the batches into which a batch is poured
* `SampleBatch.InKindOrder` — samples that are sorted by kind already

## Main results

* `Filling.Holds.add`, `Filling.Holds.pour` — what is kept while samples are poured
* `SampleBatch.chunks_eq` — a large batch is poured, and any other stays as it is
* `SampleBatch.chunks_filled_greedily` — the number and the sizes of the chunks
* `SampleBatch.chunks_keep_lists_iff` — when the chunks keep each list of a batch
-/

namespace TripRecorder

/-! ### Filling batches -/

namespace SampleBatch

theorem push_ofSamples (samples : List Sample) (s : Sample) :
    (ofSamples samples).push s = ofSamples (samples ++ [s]) := by
  cases h : s.kind <;> simp [push, ofSamples, h]

theorem foldl_push_ofSamples (samples later : List Sample) :
    later.foldl push (ofSamples samples) = ofSamples (samples ++ later) := by
  induction later generalizing samples with
  | nil => rw [List.foldl_nil, List.append_nil]
  | cons s rest ih => rw [List.foldl_cons, push_ofSamples, ih, List.append_assoc,
      List.singleton_append]

end SampleBatch

/-- Batches that are filled one after another. -/
structure Filling where
  /-- The batches that are full. -/
  full : List SampleBatch
  /-- The batch that is being filled. -/
  current : SampleBatch
  /-- How many more samples the current batch takes. -/
  room : Nat
  room_pos : 0 < room

namespace Filling

/-- Nothing is filled yet. Room for no samples counts as room for one. -/
def start (limit : Nat) : Filling where
  full := []
  current := .empty
  room := max limit 1
  room_pos := Nat.lt_of_lt_of_le Nat.one_pos (Nat.le_max_right _ _)

/-- Samples for which there is room go into the current batch. When that takes away all room, the
batch is full and the next one is begun. -/
def add (limit : Nat) (f : Filling) (head : List Sample) : Filling :=
  let filled := head.foldl SampleBatch.push f.current
  if h : head.length < f.room then
    { f with current := filled, room := f.room - head.length, room_pos := Nat.sub_pos_of_lt h }
  else { start limit with full := f.full ++ [filled] }

/-- The samples of a list go into the current batch as far as there is room, and the others into
batches after it. -/
def pour (limit : Nat) (f : Filling) (samples : List Sample) : Filling :=
  match samples with
  | [] => f
  | s :: rest =>
    (f.add limit ((s :: rest).take f.room)).pour limit ((s :: rest).drop f.room)
termination_by samples.length
decreasing_by
  have hroom := f.room_pos
  simp only [List.length_drop, List.length_cons]
  omega

/-- The full batches, and the current one if there is something in it. -/
def batches (f : Filling) : List SampleBatch :=
  if f.current.size = 0 then f.full else f.full ++ [f.current]

/-- Some samples were poured: the first of them are in the full batches, and the others are in the
current one. -/
def Holds (limit : Nat) (f : Filling) (samples : List Sample) : Prop :=
  ∃ before last, samples = before ++ last ∧
    f.full = (inChunks limit before).map SampleBatch.ofSamples ∧ max limit 1 ∣ before.length ∧
    f.current = SampleBatch.ofSamples last ∧ last.length + f.room = max limit 1

variable {limit : Nat} {f : Filling} {samples : List Sample}

theorem holds_start (limit : Nat) : (start limit).Holds limit [] :=
  ⟨[], [], rfl, by rw [inChunks_nil]; rfl, Nat.dvd_zero _, rfl, Nat.zero_add _⟩

theorem Holds.add {head : List Sample} (h : f.Holds limit samples) (hhead : head.length ≤ f.room) :
    (f.add limit head).Holds limit (samples ++ head) := by
  obtain ⟨before, last, rfl, hfull, hdvd, hcurrent, hroom⟩ := h
  have hfilled : head.foldl SampleBatch.push f.current = SampleBatch.ofSamples (last ++ head) := by
    rw [hcurrent, SampleBatch.foldl_push_ofSamples]
  unfold Filling.add
  by_cases hlt : head.length < f.room
  · rw [dif_pos hlt]
    refine ⟨before, last ++ head, List.append_assoc _ _ _, hfull, hdvd, hfilled, ?_⟩
    rw [List.length_append]
    show last.length + head.length + (f.room - head.length) = max limit 1
    omega
  · -- The current batch is one more full piece.
    rw [dif_neg hlt]
    have hlength : (last ++ head).length = max limit 1 := by
      rw [List.length_append]
      omega
    have hne : last ++ head ≠ [] := by
      intro hnil
      rw [hnil, List.length_nil] at hlength
      omega
    refine ⟨before ++ (last ++ head), [], by simp, ?_, ?_, rfl, Nat.zero_add _⟩
    · rw [inChunks_append hdvd, inChunks_of_length_le hne (Nat.le_of_eq hlength), List.map_append,
        ← hfull, hfilled]
      rfl
    · rw [List.length_append, hlength]
      exact Nat.dvd_add hdvd (Nat.dvd_refl _)

theorem Holds.pour (h : f.Holds limit samples) (later : List Sample) :
    (f.pour limit later).Holds limit (samples ++ later) := by
  induction f, later using pour.induct limit generalizing samples with
  | case1 f => rwa [Filling.pour, List.append_nil]
  | case2 f s rest ih =>
    rw [Filling.pour]
    have hnext := ih (h.add (List.length_take_le _ _))
    rwa [List.append_assoc, List.take_append_drop] at hnext

/-- The batches are the pieces of the samples, each of them sorted by kind. -/
theorem Holds.batches_eq (h : f.Holds limit samples) :
    f.batches = (inChunks limit samples).map SampleBatch.ofSamples := by
  obtain ⟨before, last, rfl, hfull, hdvd, hcurrent, hroom⟩ := h
  have hpos := f.room_pos
  rw [batches, inChunks_append hdvd, List.map_append, ← hfull, hcurrent,
    SampleBatch.size_ofSamples]
  by_cases hlast : last = []
  · rw [hlast, inChunks_nil, List.map_nil, List.append_nil]
    rfl
  · rw [if_neg (fun hzero => hlast (List.eq_nil_of_length_eq_zero hzero)),
      inChunks_of_length_le hlast (by omega)]
    rfl

end Filling

namespace SampleBatch

variable {b : SampleBatch} {limit : Nat}

/-- A batch whose samples are poured kind by kind into batches of at most `limit`. -/
def poured (limit : Nat) (b : SampleBatch) : List SampleBatch :=
  (SampleKind.all.foldl (fun f kind => f.pour limit (b.ofKind kind)) (Filling.start limit)).batches

theorem poured_eq (limit : Nat) (b : SampleBatch) :
    b.poured limit = (inChunks limit b.toList).map ofSamples :=
  (Filling.holds_start limit).pour b.accelerations
    |>.pour b.rotations |>.pour b.directions |>.batches_eq

/-- A batch with more samples than a chunk may have is poured, and any other stays as it is. -/
theorem chunks_eq (limit : Nat) (b : SampleBatch) : b.chunks limit =
    if b.size = 0 then [] else if b.size ≤ max limit 1 then [b] else b.poured limit := by
  rw [poured_eq, chunks]

/-! ### Sizes -/

/-- The chunks are as large as the pieces of the list of all samples. -/
theorem map_size_chunks (limit : Nat) (b : SampleBatch) :
    (b.chunks limit).map size = (inChunks limit b.toList).map List.length := by
  by_cases hzero : b.size = 0
  · rw [chunks, if_pos hzero, size_eq_zero_iff.mp hzero, inChunks_nil]
    rfl
  · rw [chunks, if_neg hzero]
    by_cases hle : b.size ≤ max limit 1
    · have hne : b.toList ≠ [] := fun hnil => hzero (size_eq_zero_iff.mpr hnil)
      rw [if_pos hle, inChunks_of_length_le hne (b.size_eq_length ▸ hle), List.map_singleton,
        List.map_singleton, size_eq_length]
    · rw [if_neg hle, List.map_map]
      exact List.map_congr_left fun piece _ => size_ofSamples piece

/-- Sorting samples by kind keeps each of them. -/
theorem toList_ofSamples_perm (samples : List Sample) :
    (ofSamples samples).toList.Perm samples := by
  induction samples with
  | nil => exact List.Perm.refl _
  | cons s rest ih =>
    refine List.Perm.trans ?_ (ih.cons s)
    simp only [toList, ofSamples, List.filter_cons]
    cases hkind : s.kind with
    | acceleration => simp
    | rotation => simp
    | direction => simpa using @List.perm_middle Sample s (_ ++ _) _

/-- The chunks hold each sample as often as the batch does. -/
theorem flatMap_toList_chunks_perm (limit : Nat) (b : SampleBatch) :
    ((b.chunks limit).flatMap toList).Perm b.toList := by
  rw [chunks]
  split
  · rename_i hzero
    rw [size_eq_zero_iff.mp hzero]
    exact List.Perm.refl _
  · split
    · rw [List.flatMap_singleton]
    · rw [List.flatMap_map]
      have hpieces := List.Perm.flatMap_left (inChunks limit b.toList) (g := id)
        fun piece _ => toList_ofSamples_perm piece
      rwa [List.flatMap_id, flatten_inChunks] at hpieces

/-- The chunks of a batch of any samples. A batch that is too large is poured into them. They are as
many as the samples over the size of a chunk, rounded up. None of them is empty, none is too large,
all but the last are full, and together they hold each sample as often as the batch does. -/
theorem chunks_filled_greedily (limit : Nat) (b : SampleBatch) :
    (max limit 1 < b.size → b.chunks limit = b.poured limit) ∧
    (b.chunks limit).length = (b.size + (max limit 1 - 1)) / max limit 1 ∧
    (∀ c ∈ b.chunks limit, 0 < c.size ∧ c.size ≤ max limit 1) ∧
    (∀ c ∈ (b.chunks limit).dropLast, c.size = max limit 1) ∧
    ((b.chunks limit).flatMap toList).Perm b.toList := by
  have hsizes := map_size_chunks limit b
  refine ⟨fun hlarge => ?_, ?_, fun c hc => size_of_mem_chunks hc, fun c hc => ?_,
    flatMap_toList_chunks_perm limit b⟩
  · rw [chunks_eq, if_neg (by omega), if_neg (by omega)]
  · have hlength := congrArg List.length hsizes
    rwa [List.length_map, List.length_map, length_inChunks, ← size_eq_length] at hlength
  · have hmem : c.size ∈ ((inChunks limit b.toList).map List.length).dropLast := by
      rw [← hsizes, ← List.map_dropLast]
      exact List.mem_map_of_mem hc
    rw [← List.map_dropLast] at hmem
    obtain ⟨piece, hpiece, hlength⟩ := List.mem_map.mp hmem
    rw [← hlength, length_of_mem_dropLast_inChunks hpiece]

/-! ### Lists -/

theorem ext_ofKind {b' : SampleBatch} (h : ∀ kind, b.ofKind kind = b'.ofKind kind) : b = b' := by
  obtain ⟨accelerations, rotations, directions⟩ := b
  obtain ⟨accelerations', rotations', directions'⟩ := b'
  obtain rfl : accelerations = accelerations' := h .acceleration
  obtain rfl : rotations = rotations' := h .rotation
  obtain rfl : directions = directions' := h .direction
  rfl

theorem mem_toList_of_mem_ofKind {s : Sample} {kind : SampleKind} (h : s ∈ b.ofKind kind) :
    s ∈ b.toList := by
  rw [toList, List.mem_append, List.mem_append]
  cases kind with
  | acceleration => exact .inl (.inl h)
  | rotation => exact .inl (.inr h)
  | direction => exact .inr h

theorem sorted_iff_filter_toList :
    b.Sorted ↔ ∀ kind, b.toList.filter (fun s => s.kind = kind) = b.ofKind kind := by
  constructor
  · exact fun h kind => h.filter_toList kind
  · intro h kind s hs
    rw [← h kind] at hs
    simpa using (List.mem_filter.mp hs).2

theorem ofSamples_toList_eq_iff : ofSamples b.toList = b ↔ b.Sorted := by
  rw [sorted_iff_filter_toList]
  constructor
  · intro h kind
    rw [← ofKind_ofSamples, h]
  · intro h
    refine ext_ofKind fun kind => ?_
    rw [ofKind_ofSamples, h]

end SampleBatch

/-! ### Order -/

/-- The position of a kind in the order in which kinds are written. -/
def SampleKind.rank : SampleKind → Nat
  | acceleration => 0
  | rotation => 1
  | direction => 2

namespace SampleBatch

variable {b : SampleBatch} {limit : Nat}

/-- The kinds of samples come in the order in which they are written. -/
def InKindOrder (samples : List Sample) : Prop :=
  samples.Pairwise fun s s' => s.kind.rank ≤ s'.kind.rank

theorem filter_eq_nil_of_rank {samples : List Sample} {s : Sample}
    (h : ∀ s' ∈ samples, s.kind.rank ≤ s'.kind.rank) (kind : SampleKind)
    (hkind : kind.rank < s.kind.rank) : samples.filter (fun s' => s'.kind = kind) = [] := by
  rw [List.filter_eq_nil_iff]
  intro s' hs' heq
  have hle := h s' hs'
  rw [of_decide_eq_true heq] at hle
  omega

theorem inKindOrder_toList_ofSamples (samples : List Sample) :
    InKindOrder (ofSamples samples).toList := by
  have hkind (kind : SampleKind) (s : Sample)
      (hs : s ∈ samples.filter fun s => s.kind = kind) : s.kind = kind := by
    simpa using (List.mem_filter.mp hs).2
  have hlist (kind : SampleKind) : InKindOrder (samples.filter fun s => s.kind = kind) :=
    List.pairwise_of_forall_mem_list fun s hs s' hs' =>
      Nat.le_of_eq (congrArg SampleKind.rank ((hkind kind s hs).trans (hkind kind s' hs').symm))
  rw [toList, ofSamples]
  unfold InKindOrder
  rw [List.pairwise_append, List.pairwise_append]
  refine ⟨⟨hlist _, hlist _, ?_⟩, hlist _, ?_⟩
  · intro s hs s' hs'
    rw [hkind _ s hs, hkind _ s' hs']
    decide
  · intro s hs s' hs'
    rw [hkind _ s' hs']
    cases s.kind <;> decide

/-- Sorting samples by kind leaves them as they are if their kinds are in order. -/
theorem toList_ofSamples_eq_iff {samples : List Sample} :
    (ofSamples samples).toList = samples ↔ InKindOrder samples := by
  constructor
  · intro h
    rw [← h]
    exact inKindOrder_toList_ofSamples samples
  · intro h
    induction samples with
    | nil => rfl
    | cons s rest ih =>
      obtain ⟨hfirst, hrest⟩ := List.pairwise_cons.mp h
      have hih := ih hrest
      simp only [toList, ofSamples, List.filter_cons] at hih ⊢
      cases hkind : s.kind with
      | acceleration => simpa [hkind] using hih
      | rotation =>
        have hnone := filter_eq_nil_of_rank hfirst .acceleration (by rw [hkind]; decide)
        rw [hnone] at hih ⊢
        simpa [hkind] using hih
      | direction =>
        have hnone := filter_eq_nil_of_rank hfirst .acceleration (by rw [hkind]; decide)
        have hnone' := filter_eq_nil_of_rank hfirst .rotation (by rw [hkind]; decide)
        rw [hnone, hnone'] at hih ⊢
        simpa [hkind] using hih

/-- Pieces that are changed without changing their lengths make up the same list only if none of
them changes. -/
theorem flatMap_eq_flatten_iff {f : List Sample → List Sample}
    (hlength : ∀ piece, (f piece).length = piece.length) (pieces : List (List Sample)) :
    pieces.flatMap f = pieces.flatten ↔ ∀ piece ∈ pieces, f piece = piece := by
  induction pieces with
  | nil => simp
  | cons piece rest ih =>
    rw [List.flatMap_cons, List.flatten_cons, List.forall_mem_cons, ← ih]
    constructor
    · intro h
      exact List.append_inj h (hlength piece)
    · rintro ⟨hfirst, hrest⟩
      rw [hfirst, hrest]

/-- The lists of a sorted batch are in the order of their kinds. -/
theorem Sorted.inKindOrder (h : b.Sorted) : InKindOrder b.toList := by
  rw [← ofSamples_toList_eq_iff.mpr h]
  exact inKindOrder_toList_ofSamples _

theorem InKindOrder.of_mem_inChunks {samples piece : List Sample} (h : InKindOrder samples)
    (hpiece : piece ∈ inChunks limit samples) : InKindOrder piece := by
  have hsub := List.sublist_flatten_of_mem hpiece
  rw [flatten_inChunks] at hsub
  exact List.Pairwise.sublist hsub h

/-- The chunks of a large batch list its samples in the same order exactly if that order is sorted
by kind within each chunk. -/
theorem flatMap_toList_chunks_iff : (b.chunks limit).flatMap toList = b.toList ↔
    b.size ≤ max limit 1 ∨ ∀ piece ∈ inChunks limit b.toList, InKindOrder piece := by
  rw [chunks]
  split
  · rename_i hzero
    rw [size_eq_zero_iff.mp hzero]
    exact iff_of_true rfl (.inl (by omega))
  · split
    · rename_i hle
      rw [List.flatMap_singleton]
      exact iff_of_true rfl (.inl hle)
    · rename_i hlarge
      have hpieces := flatMap_eq_flatten_iff
        (fun piece => (toList_ofSamples_perm piece).length_eq) (inChunks limit b.toList)
      rw [flatten_inChunks] at hpieces
      simp only [toList_ofSamples_eq_iff] at hpieces
      rw [List.flatMap_map, hpieces, or_iff_right hlarge]

/-- A batch without samples has none in the list of another kind. -/
theorem sorted_of_size_eq_zero (h : b.size = 0) : b.Sorted := by
  intro kind s hs
  have hmem : s ∈ b.toList := mem_toList_of_mem_ofKind hs
  rw [size_eq_zero_iff.mp h] at hmem
  cases hmem

/-- The chunks hold each list of a batch in its order exactly if the batch is small enough to stay
as it is, or all its samples are in the lists of their own kinds. -/
theorem flatMap_ofKind_chunks_iff :
    (∀ kind, (b.chunks limit).flatMap (fun c => c.ofKind kind) = b.ofKind kind) ↔
      b.size ≤ max limit 1 ∨ b.Sorted := by
  by_cases hsize : b.size ≤ max limit 1
  · refine iff_of_true (fun kind => ?_) (.inl hsize)
    by_cases hzero : b.size = 0
    · exact (sorted_of_size_eq_zero hzero).flatMap_chunks limit kind
    · rw [chunks_of_size_le hzero hsize, List.flatMap_singleton]
  · rw [or_iff_right hsize, sorted_iff_filter_toList]
    simp only [flatMap_ofKind_chunks (Nat.lt_of_not_le hsize)]

/-- Pouring a batch that is small enough leaves it as it is exactly if all its samples are in the
lists of their own kinds. -/
theorem chunks_eq_poured_iff : b.chunks limit = b.poured limit ↔
    max limit 1 < b.size ∨ b.Sorted := by
  by_cases hzero : b.size = 0
  · rw [poured_eq, chunks, if_pos hzero, size_eq_zero_iff.mp hzero, inChunks_nil]
    exact iff_of_true rfl (.inr (sorted_of_size_eq_zero hzero))
  · by_cases hlarge : max limit 1 < b.size
    · rw [chunks_eq, if_neg hzero, if_neg (Nat.not_le_of_lt hlarge)]
      exact iff_of_true rfl (.inl hlarge)
    · have hle := Nat.le_of_not_lt hlarge
      have hne : b.toList ≠ [] := fun hnil => hzero (size_eq_zero_iff.mpr hnil)
      rw [chunks_of_size_le hzero hle, poured_eq,
        inChunks_of_length_le hne (b.size_eq_length ▸ hle), List.map_singleton, List.cons.injEq,
        eq_comm, ofSamples_toList_eq_iff, or_iff_right hlarge, and_iff_left rfl]

/-- What chunks keep of a batch with samples in the lists of other kinds. Each list is kept in its
order where the batch is small enough to stay as it is and where no sample is in the list of another
kind, and nowhere else. The order of all samples is kept in addition where the kinds come in order
within each chunk, as they do without such samples. And pouring a small batch as well would make no
difference only without them. -/
theorem chunks_keep_lists_iff (limit : Nat) (b : SampleBatch) :
    ((∀ kind, (b.chunks limit).flatMap (fun c => c.ofKind kind) = b.ofKind kind) ↔
      b.size ≤ max limit 1 ∨ b.Sorted) ∧
    ((b.chunks limit).flatMap toList = b.toList ↔
      b.size ≤ max limit 1 ∨ ∀ piece ∈ inChunks limit b.toList, InKindOrder piece) ∧
    (b.Sorted → ∀ piece ∈ inChunks limit b.toList, InKindOrder piece) ∧
    (b.chunks limit = b.poured limit ↔ max limit 1 < b.size ∨ b.Sorted) :=
  ⟨flatMap_ofKind_chunks_iff, flatMap_toList_chunks_iff,
    fun h _ hpiece => h.inKindOrder.of_mem_inChunks hpiece, chunks_eq_poured_iff⟩

/-- Three samples in the list of accelerations, the first of which is a rotation. -/
def misplaced : SampleBatch where
  accelerations := [⟨.rotation, .zero, .zero, .zero, 1⟩, ⟨.acceleration, .zero, .zero, .zero, 2⟩,
    ⟨.acceleration, .zero, .zero, .zero, 3⟩]
  rotations := []
  directions := []

/-- In chunks of two, the rotation is in another list and comes second. In one chunk of three it
stays, and pouring the batch would have moved it. -/
theorem misplaced_moved :
    ¬(∀ kind, (misplaced.chunks 2).flatMap (fun c => c.ofKind kind) = misplaced.ofKind kind) ∧
      (misplaced.chunks 2).flatMap toList ≠ misplaced.toList ∧
      misplaced.chunks 3 = [misplaced] ∧ misplaced.poured 3 ≠ [misplaced] := by
  refine ⟨fun hkept => ?_, by decide +kernel, by decide +kernel, by decide +kernel⟩
  have haccelerations : (misplaced.chunks 2).flatMap (fun c => c.ofKind .acceleration) ≠
      misplaced.ofKind .acceleration := by decide +kernel
  exact haccelerations (hkept .acceleration)

end SampleBatch

end TripRecorder
