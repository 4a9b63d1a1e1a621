/-!
# Chunks

## Main definitions

* `inChunks` — a list cut into pieces of a given size, the last one possibly shorter
-/

namespace TripRecorder

/-- A list cut into pieces of `size` elements, the last one possibly shorter and none of them
empty. Size zero counts as one. -/
def inChunks {α : Type} (size : Nat) (xs : List α) : List (List α) :=
  match xs with
  | [] => []
  | x :: rest =>
    (x :: rest.take (size - 1)) :: inChunks size (rest.drop (size - 1))
termination_by xs.length
decreasing_by simp only [List.length_drop, List.length_cons]; omega

theorem inChunks_nil {α : Type} (size : Nat) : inChunks size ([] : List α) = [] := by
  rw [inChunks]

theorem inChunks_cons {α : Type} (size : Nat) (x : α) (xs : List α) :
    inChunks size (x :: xs) =
      (x :: xs.take (size - 1)) :: inChunks size (xs.drop (size - 1)) := by
  rw [inChunks]

end TripRecorder
