import Mathlib.Algebra.Order.Field.Basic
import Mathlib.Algebra.Order.Floor.Div
import Mathlib.Data.Rat.Cast.Order
import TripRecorder.Proofs.Chunks
import TripRecorder.Proofs.Rounding
import TripRecorder.Proofs.Sync.Verdict

/-!
# Progress of an upload

A client asks for the pieces of a body one at a time. With each piece it is reported which share of
the body was handed over before, and one is reported when the collector has the measurement. The
shares are quotients of two numbers of bytes, each of which is rounded to a word, as their quotient
is.

## Main definitions

* `BodyStream` — a body on its way, and how it is asked for its next piece
* `Upload.Share` — a part of a whole, as a quotient and as a word
* `Upload.reports` — the reports of an upload, wherever the client stopped asking

## Main results

* `BodyStream.asked_eq` — the pieces that are handed over, and the reports with them
* `Upload.fst_run` — the reports of an exchange
* `Upload.progress` — nothing is lost, and the shares grow to one exactly if the collector has the
  measurement
-/

namespace TripRecorder

/-- A body on its way. -/
structure BodyStream where
  /-- The bytes of the body, which count as one if there are none. -/
  total : Nat
  /-- The bytes that were handed over. -/
  sent : Nat
  /-- The pieces that were not. -/
  waiting : List (List UInt8)
deriving DecidableEq, Repr

namespace BodyStream

/-- A body that is to be handed over in pieces. -/
def start (chunkBytes : Nat) (body : List UInt8) : BodyStream :=
  ⟨max body.length 1, 0, Upload.pieces chunkBytes body⟩

/-- The next piece with its report, and the body after it. The report is made first, of the bytes
before the piece. -/
def next? (s : BodyStream) : Option ((Double × List UInt8) × BodyStream) :=
  match s.waiting with
  | [] => none
  | piece :: rest =>
    some (((Double.ofNat s.sent).div (Double.ofNat s.total), piece),
      { s with sent := s.sent + piece.length, waiting := rest })

/-- The pieces and reports for a client that asks so many times. -/
def asked : Nat → BodyStream → List (Double × List UInt8)
  | 0, _ => []
  | times + 1, s =>
    match s.next? with
    | none => []
    | some (handed, s) => handed :: asked times s

/-- The pieces come in their order, with the fractions sent before them. -/
theorem asked_eq (times : Nat) (s : BodyStream) :
    (asked times s).map Prod.snd = s.waiting.take times ∧
      (asked times s).map Prod.fst =
        Upload.fractionsFrom s.total s.sent (s.waiting.take times) := by
  induction times generalizing s with
  | zero => exact ⟨rfl, rfl⟩
  | succ times ih =>
    obtain ⟨total, sent, waiting⟩ := s
    cases waiting with
    | nil => exact ⟨rfl, rfl⟩
    | cons piece rest =>
      obtain ⟨hpieces, hfractions⟩ := ih ⟨total, sent + piece.length, rest⟩
      exact ⟨congrArg (piece :: ·) hpieces, congrArg (_ :: ·) hfractions⟩

end BodyStream

instance : DecidablePred Exchange.Accepted
  | .failed _ _ => .isFalse id
  | .answered status _ => inferInstanceAs (Decidable (status = 201 ∨ status = 409))

/-- How often the client asks for a piece of a body of so many pieces. -/
def Exchange.asks (count : Nat) : Exchange → Nat
  | .failed taken _ => taken
  | .answered _ _ => count

namespace Upload

variable {chunkBytes : Nat} {body : List UInt8} {x : Exchange}

/-! ### Shares -/

/-- A part of a whole, in bytes. -/
structure Share where
  part : Nat
  whole : Nat
deriving DecidableEq, Repr

namespace Share

/-- The share as a quotient. -/
def value (s : Share) : ℚ := s.part / s.whole

/-- The share as it is reported: both numbers are rounded to words, and so is their quotient. -/
def word (s : Share) : Double := (Double.ofNat s.part).div (Double.ofNat s.whole)

/-- All of one byte. -/
def all : Share := ⟨1, 1⟩

theorem value_all : all.value = 1 := by norm_num [value, all]

theorem word_all : all.word = complete := by decide +kernel

variable {part part' whole : Nat}

theorem value_lt_value (hwhole : 0 < whole) (h : part < part') :
    value ⟨part, whole⟩ < value ⟨part', whole⟩ :=
  div_lt_div_of_pos_right (Nat.cast_lt.mpr h) (Nat.cast_pos.mpr hwhole)

theorem value_lt_one (h : part < whole) : value ⟨part, whole⟩ < 1 :=
  (div_lt_one (Nat.cast_pos.mpr (Nat.zero_lt_of_lt h))).mpr (Nat.cast_lt.mpr h)

theorem payload_word (s : Share) : s.word.payload =
    Double.payloadOfRatio (Double.ofNat s.part).numerator (Double.ofNat s.whole).numerator :=
  Double.payload_ofRatio _ _ _

theorem numerator_ofNat_pos (hwhole : 0 < whole) : 0 < (Double.ofNat whole).numerator :=
  Double.denominator_pos.trans_le (Double.denominator_le_numerator hwhole)

/-- Rounding keeps the order of shares of one whole. -/
theorem payload_word_mono (hwhole : 0 < whole) (h : part ≤ part') :
    (word ⟨part, whole⟩).payload ≤ (word ⟨part', whole⟩).payload := by
  rw [payload_word, payload_word]
  exact Double.payloadOfRatio_mono_left (numerator_ofNat_pos hwhole)
    (Double.numerator_ofNat_mono h)

/-- A part is reported as one at most. -/
theorem payload_word_le (h : part ≤ whole) (hwhole : 0 < whole) :
    (word ⟨part, whole⟩).payload ≤ complete.payload := by
  -- The whole is rounded as well, but to one word on both sides of the quotient.
  refine (payload_word_mono hwhole h).trans (Nat.le_of_eq ?_)
  have hsame := Double.payloadOfRatio_mul_right 1 1 (numerator_ofNat_pos hwhole)
  rw [Nat.one_mul] at hsame
  rw [payload_word, hsame]
  decide +kernel

/-- Numbers of 53 bits are words themselves. -/
theorem numerator_ofNat {n : Nat} (h : n ≤ 2 * Double.fractionBound) :
    (Double.ofNat n).numerator = n * Double.denominator := by
  rcases Nat.eq_or_lt_of_le h with rfl | hlt
  · decide +kernel
  · have hstands := (Double.stands_ofNat (j := 0) hlt (Nat.zero_le _)).1.value
    rwa [Nat.shiftLeft_zero, Nat.mul_one] at hstands

/-- A share of a whole of 53 bits that is less than one is reported as less than one. -/
theorem payload_word_lt (h : part < whole) (hwhole : whole ≤ 2 * Double.fractionBound) :
    (word ⟨part, whole⟩).payload < complete.payload := by
  have hpart : (Double.ofNat part).numerator = part * Double.denominator :=
    numerator_ofNat (h.le.trans hwhole)
  -- No share is closer to one than the greatest word below one.
  calc (word ⟨part, whole⟩).payload
      = Double.payloadOfRatio part whole := by
        rw [payload_word, hpart, numerator_ofNat hwhole,
          Double.payloadOfRatio_mul_right part whole Double.denominator_pos]
    _ ≤ Double.payloadOfRatio (2 * Double.fractionBound - 1) (2 * Double.fractionBound) := by
        refine Double.payloadOfRatio_mono (Nat.zero_lt_of_lt h) (by decide) ?_
        calc part * (2 * Double.fractionBound)
            ≤ (whole - 1) * (2 * Double.fractionBound) :=
              Nat.mul_le_mul_right _ (Nat.le_pred_of_lt h)
          _ = whole * (2 * Double.fractionBound) - 2 * Double.fractionBound :=
              Nat.sub_one_mul _ _
          _ ≤ 2 * Double.fractionBound * whole - whole := by
              rw [Nat.mul_comm]
              exact Nat.sub_le_sub_left hwhole _
          _ = (2 * Double.fractionBound - 1) * whole := (Nat.sub_one_mul _ _).symm
    _ < complete.payload := by decide +kernel

end Share

/-! ### Pieces and their reports -/

/-- The fractions reported with pieces of one length, but for the last one. -/
theorem fractionsFrom_eq {size : Nat} (total sent : Nat) {pieces : List (List UInt8)}
    (h : ∀ piece ∈ pieces.dropLast, piece.length = size) :
    fractionsFrom total sent pieces =
      (List.range pieces.length).map fun k => Share.word ⟨sent + k * size, total⟩ := by
  induction pieces generalizing sent with
  | nil => rfl
  | cons piece rest ih =>
    have hrest : fractionsFrom total (sent + piece.length) rest =
        (List.range rest.length).map fun k => Share.word ⟨sent + (k + 1) * size, total⟩ := by
      cases rest with
      | nil => rfl
      | cons next later =>
        -- The piece is not the last one.
        have hpiece : piece.length = size := h piece List.mem_cons_self
        have hlater : ∀ p ∈ (next :: later).dropLast, p.length = size := fun p hp =>
          h p (List.mem_cons_of_mem piece hp)
        rw [ih _ hlater, hpiece]
        refine List.map_congr_left fun k _ => ?_
        rw [Nat.succ_mul, Nat.add_assoc, Nat.add_comm size]
    rw [fractionsFrom, hrest, List.length_cons, List.range_succ_eq_map, List.map_cons,
      List.map_map, Nat.zero_mul, Nat.add_zero]
    rfl

theorem fractionsFrom_take (total sent times : Nat) (pieces : List (List UInt8)) :
    fractionsFrom total sent (pieces.take times) =
      (fractionsFrom total sent pieces).take times := by
  induction times generalizing sent pieces with
  | zero => rfl
  | succ times ih =>
    cases pieces with
    | nil => rfl
    | cons piece rest => exact congrArg (_ :: ·) (ih (sent + piece.length) rest)

/-- The number of pieces of a body. -/
theorem length_pieces (chunkBytes : Nat) (body : List UInt8) :
    (pieces chunkBytes body).length = body.length ⌈/⌉ max chunkBytes 1 := by
  rw [pieces, length_inChunks, Nat.ceilDiv_eq_add_pred_div, Nat.add_sub_assoc (by omega)]

/-- The fractions reported with the first pieces of a body. -/
theorem fractionsOf_eq (count chunkBytes : Nat) (body : List UInt8) :
    fractionsOf count chunkBytes body =
      (List.range (min count (body.length ⌈/⌉ max chunkBytes 1))).map fun k =>
        Share.word ⟨k * max chunkBytes 1, max body.length 1⟩ := by
  have hall : fractionsFrom (max body.length 1) 0 (pieces chunkBytes body) =
      (List.range (pieces chunkBytes body).length).map fun k =>
        Share.word ⟨0 + k * max chunkBytes 1, max body.length 1⟩ :=
    fractionsFrom_eq _ 0 fun piece hpiece => length_of_mem_dropLast_inChunks hpiece
  rw [fractionsOf, fractionsFrom_take, hall, ← List.map_take, List.take_range, length_pieces]
  simp only [Nat.zero_add]

/-- An exchange in which all pieces are handed over reports as many fractions. -/
theorem fractions_eq_fractionsOf (chunkBytes : Nat) (body : List UInt8) :
    fractions chunkBytes body =
      fractionsOf (body.length ⌈/⌉ max chunkBytes 1) chunkBytes body := by
  rw [fractions, fractionsOf, ← length_pieces, List.take_length]

/-! ### All reports -/

/-- The shares that are reported with the pieces for which the client asked, and the share that is
reported when the collector has the measurement. -/
def shares (asks chunkBytes : Nat) (body : List UInt8) (x : Exchange) : List Share :=
  ((List.range (min asks (body.length ⌈/⌉ max chunkBytes 1))).map fun k =>
    ⟨k * max chunkBytes 1, max body.length 1⟩) ++ if x.Accepted then [.all] else []

/-- The reports of an upload whose client asked so many times for a piece before the exchange was
over. -/
def reports (asks chunkBytes : Nat) (body : List UInt8) (x : Exchange) : List Double :=
  ((BodyStream.start chunkBytes body).asked asks).map Prod.fst ++
    if (outcome x).isOk then [complete] else []

theorem isOk_outcome_iff : (outcome x).isOk = true ↔ x.Accepted := by
  rw [← @snd_run 1 [] x, isOk_run_iff]

/-- The fractions with the pieces the client asked for are reported, and one after a success. -/
theorem reports_eq_fractionsOf (asks chunkBytes : Nat) (body : List UInt8) (x : Exchange) :
    reports asks chunkBytes body x =
      fractionsOf asks chunkBytes body ++ if (outcome x).isOk then [complete] else [] :=
  congrArg (· ++ _) (BodyStream.asked_eq asks (BodyStream.start chunkBytes body)).2

/-- The reports are those of the shares. -/
theorem reports_eq (asks chunkBytes : Nat) (body : List UInt8) (x : Exchange) :
    reports asks chunkBytes body x = (shares asks chunkBytes body x).map Share.word := by
  have hlast : (if (outcome x).isOk then [complete] else []) =
      (if x.Accepted then [Share.all] else []).map Share.word := by
    by_cases hx : x.Accepted
    · rw [if_pos (isOk_outcome_iff.mpr hx), if_pos hx, List.map_singleton, Share.word_all]
    · rw [if_neg (mt isOk_outcome_iff.mp hx), if_neg hx, List.map_nil]
  rw [reports_eq_fractionsOf, shares, fractionsOf_eq, hlast, List.map_append, List.map_map]
  rfl

/-- An exchange reports what its client asked for: all pieces of the body, unless the connection
failed. -/
theorem fst_run (chunkBytes : Nat) (body : List UInt8) (x : Exchange) :
    (run chunkBytes body x).1 =
      reports (x.asks (body.length ⌈/⌉ max chunkBytes 1)) chunkBytes body x := by
  rw [reports_eq_fractionsOf]
  unfold run
  cases x with
  | failed taken detail => exact (List.append_nil _).symm
  | answered status text =>
    -- The answer comes after all pieces.
    dsimp only
    rw [Exchange.asks, fractions_eq_fractionsOf]
    cases outcome (.answered status text) with
    | ok o => rfl
    | error e => exact (List.append_nil _).symm

theorem fst_run_answered (chunkBytes : Nat) (body : List UInt8) (status : Nat) (text : String) :
    (run chunkBytes body (.answered status text)).1 =
      ((List.range (body.length ⌈/⌉ max chunkBytes 1)).map fun k =>
        Share.word ⟨k * max chunkBytes 1, max body.length 1⟩) ++
        if status = 201 ∨ status = 409 then [complete] else [] := by
  rw [fst_run, reports_eq_fractionsOf, Exchange.asks, fractionsOf_eq, Nat.min_self]
  exact congrArg (_ ++ ·) (if_congr isOk_outcome_iff rfl rfl)

theorem fst_run_failed (chunkBytes : Nat) (body : List UInt8) (taken : Nat) (detail : String) :
    (run chunkBytes body (.failed taken detail)).1 =
      (List.range (min taken (body.length ⌈/⌉ max chunkBytes 1))).map fun k =>
        Share.word ⟨k * max chunkBytes 1, max body.length 1⟩ :=
  fractionsOf_eq taken chunkBytes body

/-- A share of a body is less than one as long as there is a piece left. -/
theorem part_lt_whole {k size length : Nat} (hsize : 0 < size) (h : k < length ⌈/⌉ size) :
    k * size < max length 1 := by
  have hlt : size * k < length := by
    by_contra hge
    exact absurd ((ceilDiv_le_iff_le_mul hsize).mpr (Nat.le_of_not_lt hge)) (Nat.not_le_of_lt h)
  rw [Nat.mul_comm]
  exact hlt.trans_le (Nat.le_max_left _ _)

variable {asks : Nat} {s : Share}

theorem mem_shares_iff : s ∈ shares asks chunkBytes body x ↔
    (∃ k < asks, k < body.length ⌈/⌉ max chunkBytes 1 ∧
      s = ⟨k * max chunkBytes 1, max body.length 1⟩) ∨ x.Accepted ∧ s = .all := by
  rw [shares, List.mem_append, List.mem_map]
  refine or_congr ⟨?_, ?_⟩ ?_
  · rintro ⟨k, hk, rfl⟩
    obtain ⟨hasks, hcount⟩ := lt_min_iff.mp (List.mem_range.mp hk)
    exact ⟨k, hasks, hcount, rfl⟩
  · rintro ⟨k, hasks, hcount, rfl⟩
    exact ⟨k, List.mem_range.mpr (lt_min hasks hcount), rfl⟩
  · by_cases hx : x.Accepted
    · rw [if_pos hx, List.mem_singleton, and_iff_right hx]
    · rw [if_neg hx]
      exact iff_of_false List.not_mem_nil fun h => hx h.1

/-- What holds between any two shares of the body, and between each of them and all, holds between
the shares in their order. -/
theorem pairwise_shares {r : Share → Share → Prop}
    (hsent : ∀ j k, j < k → r ⟨j * max chunkBytes 1, max body.length 1⟩
      ⟨k * max chunkBytes 1, max body.length 1⟩)
    (hlast : ∀ k < body.length ⌈/⌉ max chunkBytes 1,
      r ⟨k * max chunkBytes 1, max body.length 1⟩ .all) (asks : Nat) (x : Exchange) :
    (shares asks chunkBytes body x).Pairwise r := by
  rw [shares, List.pairwise_append, List.pairwise_map]
  refine ⟨List.pairwise_lt_range.imp fun h => hsent _ _ h, ?_, ?_⟩
  · by_cases hx : x.Accepted
    · rw [if_pos hx]
      exact List.pairwise_singleton _ _
    · rw [if_neg hx]
      exact .nil
  · -- All comes last, and only after the shares of the body.
    intro sent hmem last hall
    obtain ⟨k, hk, rfl⟩ := List.mem_map.mp hmem
    by_cases hx : x.Accepted
    · rw [if_pos hx, List.mem_singleton] at hall
      exact hall ▸ hlast k (lt_min_iff.mp (List.mem_range.mp hk)).2
    · rw [if_neg hx] at hall
      cases hall

/-- The shares grow, and all is more than any share of the body. -/
theorem shares_increasing (asks chunkBytes : Nat) (body : List UInt8) (x : Exchange) :
    ((shares asks chunkBytes body x).map Share.value).Pairwise (· < ·) := by
  have hsize : 0 < max chunkBytes 1 := Nat.le_max_right _ _
  have hwhole : 0 < max body.length 1 := Nat.le_max_right _ _
  refine List.pairwise_map.mpr (pairwise_shares (fun j k h => ?_) (fun k hk => ?_) asks x)
  · exact Share.value_lt_value hwhole (Nat.mul_lt_mul_of_pos_right h hsize)
  · rw [Share.value_all]
    exact Share.value_lt_one (part_lt_whole hsize hk)

/-- The words that are reported never fall. -/
theorem reports_ascending (asks chunkBytes : Nat) (body : List UInt8) (x : Exchange) :
    (reports asks chunkBytes body x).Pairwise fun w w' => w.payload ≤ w'.payload := by
  have hsize : 0 < max chunkBytes 1 := Nat.le_max_right _ _
  have hwhole : 0 < max body.length 1 := Nat.le_max_right _ _
  rw [reports_eq]
  refine List.pairwise_map.mpr (pairwise_shares (fun j k h => ?_) (fun k hk => ?_) asks x)
  · exact Share.payload_word_mono hwhole (Nat.mul_le_mul_right _ h.le)
  · rw [Share.word_all]
    exact Share.payload_word_le (part_lt_whole hsize hk).le hwhole

/-- One is a share exactly if the collector has the measurement. -/
theorem one_mem_shares_iff :
    1 ∈ (shares asks chunkBytes body x).map Share.value ↔ x.Accepted := by
  rw [List.mem_map]
  constructor
  · rintro ⟨s, hs, hone⟩
    rcases mem_shares_iff.mp hs with ⟨k, -, hk, rfl⟩ | ⟨hx, -⟩
    · have hlt := Share.value_lt_one (part_lt_whole (Nat.le_max_right chunkBytes 1) hk)
      exact absurd hone hlt.ne
    · exact hx
  · exact fun hx => ⟨.all, mem_shares_iff.mpr (.inr ⟨hx, rfl⟩), Share.value_all⟩

/-- The word of one is reported exactly if the collector has the measurement, for a body whose
length is a word itself. -/
theorem complete_mem_reports_iff (hbody : body.length ≤ 2 * Double.fractionBound) :
    complete ∈ reports asks chunkBytes body x ↔ x.Accepted := by
  have hwhole : max body.length 1 ≤ 2 * Double.fractionBound := max_le hbody (by decide)
  rw [reports_eq, List.mem_map]
  constructor
  · rintro ⟨s, hs, hword⟩
    rcases mem_shares_iff.mp hs with ⟨k, -, hk, rfl⟩ | ⟨hx, -⟩
    · have hlt := Share.payload_word_lt (part_lt_whole (Nat.le_max_right chunkBytes 1) hk) hwhole
      exact absurd (congrArg Double.payload hword) hlt.ne
    · exact hx
  · exact fun hx => ⟨.all, mem_shares_iff.mpr (.inr ⟨hx, rfl⟩), Share.word_all⟩

/-- A body is handed over in pieces that make it up, all but the last of one length. With each piece
the client asks for, the share before it is reported, and one is reported at the end exactly if the
collector has the measurement. The shares grow from one report to the next, all but that last one
are less than one, and their words never fall. -/
theorem progress (chunkBytes : Nat) (body : List UInt8) :
    let size := max chunkBytes 1
    let count := body.length ⌈/⌉ size
    let share := fun k => Share.mk (k * size) (max body.length 1)
    ((pieces chunkBytes body).flatten = body ∧ (pieces chunkBytes body).length = count ∧
      (∀ piece ∈ (pieces chunkBytes body).dropLast, piece.length = size) ∧
      ∀ piece ∈ pieces chunkBytes body, 0 < piece.length ∧ piece.length ≤ size) ∧
    (∀ k < count, (share k).value < 1 ∧ ∀ j < k, (share j).value < (share k).value) ∧
    (∀ status text, (run chunkBytes body (.answered status text)).1 =
      ((List.range count).map fun k => (share k).word) ++
        if status = 201 ∨ status = 409 then [complete] else []) ∧
    (∀ taken detail, (run chunkBytes body (.failed taken detail)).1 =
      (List.range (min taken count)).map fun k => (share k).word) ∧
    ∀ asks x,
      ((BodyStream.start chunkBytes body).asked asks).map Prod.snd =
        (pieces chunkBytes body).take asks ∧
      reports asks chunkBytes body x = (shares asks chunkBytes body x).map Share.word ∧
      ((shares asks chunkBytes body x).map Share.value).Pairwise (· < ·) ∧
      (1 ∈ (shares asks chunkBytes body x).map Share.value ↔ x.Accepted) ∧
      ((reports asks chunkBytes body x).Pairwise fun w w' => w.payload ≤ w'.payload) ∧
      (body.length ≤ 2 * Double.fractionBound →
        (complete ∈ reports asks chunkBytes body x ↔ x.Accepted)) := by
  intro size count share
  have hsize : 0 < size := Nat.le_max_right _ _
  have hwhole : 0 < max body.length 1 := Nat.le_max_right _ _
  refine ⟨⟨flatten_inChunks chunkBytes body, length_pieces chunkBytes body,
    fun piece hpiece => length_of_mem_dropLast_inChunks hpiece,
    fun piece hpiece => length_of_mem_inChunks hpiece⟩, fun k hk => ?_,
    fst_run_answered chunkBytes body, fst_run_failed chunkBytes body, fun asks x => ?_⟩
  · exact ⟨Share.value_lt_one (part_lt_whole hsize hk), fun j hj =>
      Share.value_lt_value hwhole (Nat.mul_lt_mul_of_pos_right hj hsize)⟩
  · exact ⟨(BodyStream.asked_eq asks _).1, reports_eq asks chunkBytes body x,
      shares_increasing asks chunkBytes body x, one_mem_shares_iff,
      reports_ascending asks chunkBytes body x, complete_mem_reports_iff⟩

/-- Five bytes in pieces of two: nothing, two fifths, four fifths, and all if the measurement is new
to the collector. An answer that refuses it after two pieces is not reported as one. -/
theorem progress_five :
    (run 2 [1, 2, 3, 4, 5] (.answered 201 "")).1 =
      [.zero, ⟨0x3FD999999999999A⟩, ⟨0x3FE999999999999A⟩, complete] ∧
    complete ∉ reports 2 2 [1, 2, 3, 4, 5] (.answered 500 "") := by
  obtain ⟨-, -, hanswered, -, hreports⟩ := progress 2 [1, 2, 3, 4, 5]
  obtain ⟨-, -, -, -, -, hcomplete⟩ := hreports 2 (.answered 500 "")
  refine ⟨(hanswered 201 "").trans (by decide +kernel), fun hone => ?_⟩
  exact absurd ((hcomplete (by decide)).mp hone) (by decide)

end Upload

end TripRecorder
