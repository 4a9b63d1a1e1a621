import TripRecorder.Proofs.Chunks
import TripRecorder.Transfer.Zlib

/-!
# Frames are unwrapped

A frame that was written is read back to the bytes it was written from: every stored block says
where it ends, and the last one says that it is the last.

## Main results

* `Zlib.unwrapBlocks?_blocks` — stored blocks are read back
* `Zlib.unwrap?_wrap` — a frame is read back
-/

namespace TripRecorder.Zlib

variable {fuel : Nat} {piece : List UInt8}

/-- Two bytes are enough for the length of a block. -/
theorem littleEndian_value {n : Nat} (h : n < blockBound) :
    n % 256 + 256 * (n / 256 % 256) = n := by
  have hbound : n < 65536 := h
  omega

/-- A block is taken off the front, and its mark says whether more of them follow. -/
theorem unwrapBlocks?_block (last : Bool) (h : piece.length < blockBound)
    (done : List (List UInt8)) (rest : List UInt8) :
    unwrapBlocks? (fuel + 1) done (block last piece ++ rest) =
      if last then some ((piece :: done).reverse.flatten, rest)
      else unwrapBlocks? fuel (piece :: done) rest := by
  have hlength := littleEndian_value h
  cases last <;> simp [block, littleEndian, unwrapBlocks?, hlength]

/-- Stored blocks are read back, and what follows them is left. -/
theorem unwrapBlocks?_blocks {pieces : List (List UInt8)}
    (h : ∀ piece ∈ pieces, piece.length < blockBound) (hfuel : pieces.length < fuel)
    (done : List (List UInt8)) (rest : List UInt8) :
    unwrapBlocks? fuel done (blocks pieces ++ rest) =
      some (done.reverse.flatten ++ pieces.flatten, rest) := by
  obtain ⟨fuel, rfl⟩ : ∃ k, fuel = k + 1 := ⟨fuel - 1, by omega⟩
  induction pieces using blocks.induct generalizing fuel done with
  | case1 =>
    rw [blocks, unwrapBlocks?_block true (by decide)]
    simp
  | case2 piece =>
    rw [blocks, unwrapBlocks?_block true (h piece List.mem_cons_self)]
    simp
  -- A block with others after it is taken off, and the fuel is still enough for these.
  | case3 piece others hothers ih =>
    obtain ⟨fuel, rfl⟩ : ∃ k, fuel = k + 1 := by
      have hpos := List.length_pos_iff.mpr hothers
      rw [List.length_cons] at hfuel
      exact ⟨fuel - 1, by omega⟩
    rw [blocks.eq_3 _ _ hothers, List.append_assoc,
      unwrapBlocks?_block false (h piece List.mem_cons_self)]
    rw [if_neg (by simp), ih (fun p hp => h p (List.mem_cons_of_mem _ hp)) _ _
      (by simpa using hfuel)]
    simp

/-- There are fewer blocks than bytes in them. -/
theorem length_lt_length_blocks (pieces : List (List UInt8)) :
    pieces.length < (blocks pieces).length := by
  induction pieces using blocks.induct with
  | case1 => decide
  | case2 piece => simp [blocks, block, littleEndian]
  | case3 piece others hothers ih =>
    rw [blocks.eq_3 _ _ hothers]
    simp only [block, List.length_append, List.length_cons]
    omega

/-- A frame is read back to the bytes it was written from. -/
theorem unwrap?_wrap (bytes : List UInt8) : unwrap? (wrap bytes) = some bytes := by
  have hpieces : ∀ piece ∈ inChunks (blockBound - 1) bytes, piece.length < blockBound := by
    intro piece hpiece
    have hle := (length_of_mem_inChunks hpiece).2
    have hbound : blockBound = 65536 := rfl
    omega
  -- A frame has more bytes than blocks, so its length is enough fuel.
  have hfuel : (inChunks (blockBound - 1) bytes).length < (wrap bytes).length := by
    have hlt := length_lt_length_blocks (inChunks (blockBound - 1) bytes)
    simp only [wrap, List.length_append]
    omega
  have htake : (wrap bytes).take 2 = header := rfl
  have hdrop : (wrap bytes).drop 2 =
      blocks (inChunks (blockBound - 1) bytes) ++ bigEndian 4 (checksum bytes) := rfl
  rw [unwrap?, if_pos htake, hdrop, unwrapBlocks?_blocks hpieces hfuel, flatten_inChunks]
  simp

end TripRecorder.Zlib
