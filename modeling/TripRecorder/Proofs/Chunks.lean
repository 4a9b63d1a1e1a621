import TripRecorder.Point

/-!
# Chunks of lists and of batches

Cutting a list loses nothing, keeps the order, and makes pieces that are neither empty nor too
long. A batch that is sorted by kind is cut the same way, kind by kind.

## Main definitions

* `SampleBatch.Sorted` — every list of the batch holds samples of its own kind

## Main results

* `flatten_inChunks`, `length_of_mem_inChunks` — the pieces of a list
* `inChunks_append`, `length_inChunks`, `length_of_mem_dropLast_inChunks` — where a list is cut, and
  into how many pieces
* `inChunks_append_cons` — the piece of an element
* `SampleBatch.flatMap_chunks`, `SampleBatch.size_of_mem_chunks` — the pieces of a batch
-/

namespace TripRecorder

section Lists

variable {α : Type}

/-- The pieces make up the list. -/
theorem flatten_inChunks (size : Nat) (xs : List α) : (inChunks size xs).flatten = xs := by
  induction xs using inChunks.induct size with
  | case1 => simp [inChunks_nil]
  | case2 x rest ih => rw [inChunks_cons, List.flatten_cons, ih, List.cons_append,
      List.take_append_drop]

/-- No piece is empty, and none is longer than the size, zero counting as one. -/
theorem length_of_mem_inChunks {size : Nat} {xs piece : List α} (h : piece ∈ inChunks size xs) :
    0 < piece.length ∧ piece.length ≤ max size 1 := by
  induction xs using inChunks.induct size with
  | case1 => simp [inChunks_nil] at h
  | case2 x rest ih =>
    rw [inChunks_cons, List.mem_cons] at h
    rcases h with rfl | h
    · rw [List.length_cons, List.length_take]
      omega
    · exact ih h

/-- A list that is not empty begins with a piece. -/
theorem inChunks_of_ne_nil {size : Nat} {xs : List α} (h : xs ≠ []) :
    inChunks size xs = xs.take (max size 1) :: inChunks size (xs.drop (max size 1)) := by
  cases xs with
  | nil => exact absurd rfl h
  | cons x rest =>
    have hsize : max size 1 = size - 1 + 1 := by omega
    rw [inChunks_cons, hsize, List.take_succ_cons, List.drop_succ_cons]

/-- A list that is short enough is one piece. -/
theorem inChunks_of_length_le {size : Nat} {xs : List α} (hne : xs ≠ [])
    (hle : xs.length ≤ max size 1) : inChunks size xs = [xs] := by
  rw [inChunks_of_ne_nil hne, List.take_of_length_le hle, List.drop_of_length_le hle, inChunks_nil]

/-- A list is cut where its first part is made up of full pieces. -/
theorem inChunks_append {size : Nat} {xs : List α} (h : max size 1 ∣ xs.length) (ys : List α) :
    inChunks size (xs ++ ys) = inChunks size xs ++ inChunks size ys := by
  induction xs using inChunks.induct size with
  | case1 => rw [inChunks_nil, List.nil_append, List.nil_append]
  | case2 x rest ih =>
    have hle : size - 1 ≤ rest.length := by
      have hlength := Nat.le_of_dvd (Nat.succ_pos _) h
      omega
    have hdvd : max size 1 ∣ (rest.drop (size - 1)).length := by
      have hsub := Nat.dvd_sub h (Nat.dvd_refl (max size 1))
      rw [List.length_drop]
      rwa [List.length_cons, show rest.length + 1 - max size 1 = rest.length - (size - 1) by omega]
        at hsub
    rw [List.cons_append, inChunks_cons, inChunks_cons, List.take_append_of_le_length hle,
      List.drop_append_of_le_length hle, ih hdvd, List.cons_append]

/-- The number of pieces is the number of elements over the size, rounded up. -/
theorem length_inChunks (size : Nat) (xs : List α) :
    (inChunks size xs).length = (xs.length + (max size 1 - 1)) / max size 1 := by
  induction xs using inChunks.induct size with
  | case1 =>
    rw [inChunks_nil, List.length_nil, List.length_nil, Nat.zero_add, Nat.div_eq_of_lt (by omega)]
  | case2 x rest ih =>
    rw [inChunks_cons, List.length_cons, ih, List.length_drop, List.length_cons]
    by_cases hle : size - 1 ≤ rest.length
    · rw [← Nat.add_div_right _ (by omega)]
      congr 1
      omega
    · -- All of a short list is in the first piece.
      rw [Nat.div_eq_of_lt (by omega)]
      exact (Nat.div_eq_of_lt_le (by omega) (by omega)).symm

/-- All pieces but the last are full. -/
theorem length_of_mem_dropLast_inChunks {size : Nat} {xs piece : List α}
    (h : piece ∈ (inChunks size xs).dropLast) : piece.length = max size 1 := by
  induction xs using inChunks.induct size with
  | case1 => simp [inChunks_nil] at h
  | case2 x rest ih =>
    rw [inChunks_cons] at h
    by_cases hdrop : rest.drop (size - 1) = []
    · simp [hdrop, inChunks_nil] at h
    · have hne : inChunks size (rest.drop (size - 1)) ≠ [] := by
        intro hnil
        have hflatten := flatten_inChunks size (rest.drop (size - 1))
        rw [hnil] at hflatten
        exact hdrop hflatten.symm
      rw [List.dropLast_cons_of_ne_nil hne, List.mem_cons] at h
      rcases h with rfl | h
      · rw [List.drop_eq_nil_iff] at hdrop
        rw [List.length_cons, List.length_take]
        omega
      · exact ih h

/-- An element is in the piece that follows all full pieces before it. -/
theorem inChunks_append_cons {limit size : Nat} (hsize : size = max limit 1) (before : List α)
    (x : α) (after : List α) :
    ∃ full begun later more, before = full ++ begun ∧
      full.length = size * (before.length / size) ∧
      (inChunks limit full).length = before.length / size ∧
      inChunks limit (before ++ x :: after) =
        inChunks limit full ++ (begun ++ x :: later) :: more := by
  have hpos : 0 < size := by omega
  have hlength : (before.take (size * (before.length / size))).length =
      size * (before.length / size) := List.length_take_of_le (Nat.mul_div_le _ _)
  have hsplit := List.take_append_drop (size * (before.length / size)) before
  have hshort : (before.drop (size * (before.length / size))).length < size := by
    rw [List.length_drop, ← Nat.mod_def]
    exact Nat.mod_lt _ hpos
  revert hlength hsplit hshort
  generalize before.take (size * (before.length / size)) = full
  generalize before.drop (size * (before.length / size)) = begun
  intro hlength hsplit hshort
  refine ⟨full, begun, after.take (size - begun.length - 1),
    inChunks limit ((begun ++ x :: after).drop size), hsplit.symm, hlength, ?_, ?_⟩
  · have hzero : (size - 1) / size = 0 := Nat.div_eq_of_lt (Nat.sub_lt hpos Nat.one_pos)
    rw [length_inChunks, ← hsize, hlength, Nat.mul_add_div hpos, hzero, Nat.add_zero]
  · have hdvd : max limit 1 ∣ full.length := by
      rw [hlength, ← hsize]
      exact Nat.dvd_mul_right _ _
    have hne : begun ++ x :: after ≠ [] := List.append_ne_nil_of_right_ne_nil _ nofun
    have htake : (begun ++ x :: after).take size =
        begun ++ x :: after.take (size - begun.length - 1) := by
      rw [List.take_append, List.take_of_length_le (Nat.le_of_lt hshort),
        show size - begun.length = size - begun.length - 1 + 1 by omega, List.take_succ_cons]
      rfl
    rw [← hsplit, List.append_assoc, inChunks_append hdvd, inChunks_of_ne_nil hne, ← hsize, htake]

end Lists

namespace SampleBatch

/-- Every list of a batch holds samples of its own kind. -/
def Sorted (b : SampleBatch) : Prop := ∀ kind, ∀ s ∈ b.ofKind kind, s.kind = kind

theorem ofKind_ofSamples (samples : List Sample) (kind : SampleKind) :
    (ofSamples samples).ofKind kind = samples.filter fun s => s.kind = kind := by
  cases kind <;> rfl

theorem sorted_ofSamples (samples : List Sample) : (ofSamples samples).Sorted := by
  intro kind s hs
  rw [ofKind_ofSamples] at hs
  simpa using (List.mem_filter.mp hs).2

theorem Sorted.filter_ofKind {b : SampleBatch} (h : b.Sorted) (kind kind' : SampleKind) :
    (b.ofKind kind').filter (fun s => s.kind = kind) =
      if kind' = kind then b.ofKind kind else [] := by
  by_cases heq : kind' = kind
  · subst heq
    rw [if_pos rfl, List.filter_eq_self]
    intro s hs
    simpa using h kind' s hs
  · rw [if_neg heq, List.filter_eq_nil_iff]
    intro s hs
    have hkind := h kind' s hs
    simpa [hkind] using heq

/-- The samples of a kind among all samples of a sorted batch. -/
theorem Sorted.filter_toList {b : SampleBatch} (h : b.Sorted) (kind : SampleKind) :
    b.toList.filter (fun s => s.kind = kind) = b.ofKind kind := by
  have hfilter := h.filter_ofKind kind
  have htoList : b.toList =
      b.ofKind .acceleration ++ b.ofKind .rotation ++ b.ofKind .direction := rfl
  rw [htoList, List.filter_append, List.filter_append, hfilter, hfilter, hfilter]
  cases kind <;> simp

theorem size_eq_length (b : SampleBatch) : b.size = b.toList.length := by
  simp [size, toList, Nat.add_assoc]

theorem size_eq_zero_iff {b : SampleBatch} : b.size = 0 ↔ b.toList = [] := by
  rw [size_eq_length, List.length_eq_zero_iff]

theorem size_ofSamples (samples : List Sample) : (ofSamples samples).size = samples.length := by
  induction samples with
  | nil => rfl
  | cons s rest ih =>
    simp only [size, ofSamples] at ih ⊢
    cases hkind : s.kind <;> simp [hkind] <;> omega

/-- A batch that is small enough stays as it is. -/
theorem chunks_of_size_le {b : SampleBatch} {limit : Nat} (hne : b.size ≠ 0)
    (hle : b.size ≤ max limit 1) : b.chunks limit = [b] := by
  rw [chunks, if_neg hne, if_pos hle]

/-- In the pieces of a large batch every sample is in the list of its own kind. -/
theorem flatMap_ofKind_chunks {b : SampleBatch} {limit : Nat} (h : max limit 1 < b.size)
    (kind : SampleKind) : (b.chunks limit).flatMap (fun c => c.ofKind kind) =
      b.toList.filter fun s => s.kind = kind := by
  rw [chunks, if_neg (by omega), if_neg (by omega)]
  simp only [List.flatMap_map, ofKind_ofSamples]
  rw [List.flatMap_def, ← List.filter_flatten, flatten_inChunks]

/-- The pieces of a sorted batch make up the batch, kind by kind. -/
theorem Sorted.flatMap_chunks {b : SampleBatch} (h : b.Sorted) (limit : Nat) (kind : SampleKind) :
    (b.chunks limit).flatMap (fun c => c.ofKind kind) = b.ofKind kind := by
  by_cases hsize : b.size ≤ max limit 1
  · by_cases hzero : b.size = 0
    · rw [← h.filter_toList, size_eq_zero_iff.mp hzero, chunks, if_pos hzero]
      rfl
    · rw [chunks_of_size_le hzero hsize, List.flatMap_singleton]
  · rw [flatMap_ofKind_chunks (Nat.lt_of_not_le hsize), h.filter_toList]

/-- The pieces of a sorted batch are sorted. -/
theorem Sorted.of_mem_chunks {b c : SampleBatch} (h : b.Sorted) {limit : Nat}
    (hc : c ∈ b.chunks limit) : c.Sorted := by
  unfold chunks at hc
  split at hc
  · cases hc
  · split at hc
    · rwa [List.mem_singleton.mp hc]
    · obtain ⟨piece, -, rfl⟩ := List.mem_map.mp hc
      exact sorted_ofSamples piece

/-- No piece is empty, and none has more samples than the limit, zero counting as one. -/
theorem size_of_mem_chunks {b c : SampleBatch} {limit : Nat} (h : c ∈ b.chunks limit) :
    0 < c.size ∧ c.size ≤ max limit 1 := by
  unfold chunks at h
  split at h
  · cases h
  · rename_i hsize
    split at h
    · rename_i hle
      rw [List.mem_singleton.mp h]
      exact ⟨Nat.pos_of_ne_zero hsize, hle⟩
    · obtain ⟨piece, hpiece, rfl⟩ := List.mem_map.mp h
      rw [size_ofSamples]
      exact length_of_mem_inChunks hpiece

end SampleBatch

end TripRecorder
