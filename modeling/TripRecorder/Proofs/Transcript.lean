import TripRecorder.Proofs.Procedure

/-!
# Transcripts of procedures

What a procedure does depends on the answers to its calls, whoever gives them. A transcript lists
calls with their answers and assumes nothing about where these come from: a store may answer each
call as if it were another one, and hardware may fail whenever it likes. What holds of all
transcripts holds however a procedure is served.

## Main definitions

* `AnsweredCall`, `Procedure.Follows` — a call with its answer, and what is left of a procedure
  after some of its calls

## Main results

* `Procedure.follows_bind_done_iff`, `Procedure.follows_bind_except_done_iff` — the transcripts of
  one procedure after another
* `Procedure.exists_follows_done` — whatever is answered to what was asked so far, a procedure ends
* `Procedure.exists_follows_run` — a served procedure has a transcript
-/

namespace TripRecorder

variable {Call : Type} {Answer : Call → Type} {α β σ ε : Type}

/-- A call and its answer. -/
structure AnsweredCall (Answer : Call → Type) where
  call : Call
  answer : Answer call

namespace Procedure

/-- What is left of a procedure after some of its calls were answered. -/
inductive Follows :
    Procedure Answer α → List (AnsweredCall Answer) → Procedure Answer α → Prop where
  | nil (p : Procedure Answer α) : Follows p [] p
  | cons {c : Call} {next : Answer c → Procedure Answer α} {answer : Answer c}
      {later : List (AnsweredCall Answer)} {rest : Procedure Answer α} :
      Follows (next answer) later rest → Follows (.call c next) (⟨c, answer⟩ :: later) rest

variable {p rest : Procedure Answer α} {early later : List (AnsweredCall Answer)}

/-- A finished procedure makes no more calls. -/
@[simp] theorem follows_done_iff {a : α} :
    (done a : Procedure Answer α).Follows later rest ↔ later = [] ∧ rest = .done a := by
  constructor
  · rintro ⟨⟩
    exact ⟨rfl, rfl⟩
  · rintro ⟨rfl, rfl⟩
    exact .nil _

theorem follows_call_iff {c : Call} {next : Answer c → Procedure Answer α} :
    (call c next).Follows later rest ↔
      (later = [] ∧ rest = .call c next) ∨
        ∃ answer later', later = ⟨c, answer⟩ :: later' ∧ (next answer).Follows later' rest := by
  constructor
  · rintro (_ | hrest)
    · exact .inl ⟨rfl, rfl⟩
    · exact .inr ⟨_, _, rfl, hrest⟩
  · rintro (⟨rfl, rfl⟩ | ⟨answer, later', rfl, hrest⟩)
    · exact .nil _
    · exact .cons hrest

theorem Follows.concat {c : Call} {next : Answer c → Procedure Answer α} (answer : Answer c)
    (h : p.Follows early (.call c next)) :
    p.Follows (early ++ [⟨c, answer⟩]) (next answer) := by
  -- By what was asked so far; the call that is still to be made stays at the end.
  generalize hq : Procedure.call c next = q at h
  induction h with
  | nil p =>
    subst hq
    exact .cons (.nil _)
  | cons _ ih => exact .cons (ih hq)

/-- A call in the middle cuts a procedure in two. -/
theorem Follows.of_append_cons {e : AnsweredCall Answer}
    (h : p.Follows (early ++ e :: later) rest) :
    ∃ next : Answer e.call → Procedure Answer α,
      p.Follows early (.call e.call next) ∧ (next e.answer).Follows later rest := by
  induction early generalizing p with
  | nil =>
    cases h with
    | cons hrest => exact ⟨_, .nil _, hrest⟩
  | cons e' early ih =>
    cases h with
    | cons hrest =>
      obtain ⟨next, hearly, hlater⟩ := ih hrest
      exact ⟨next, .cons hearly, hlater⟩

/-- What was asked, and what is still to be asked, is of the kind that the procedure confines itself
to. -/
theorem Follows.of_asks {kind : Call → Prop} (h : p.Follows early rest) (hp : p.Asks kind) :
    (∀ e ∈ early, kind e.call) ∧ rest.Asks kind := by
  induction h with
  | nil p => exact ⟨nofun, hp⟩
  | cons _ ih =>
    obtain ⟨hlater, hrest⟩ := ih (hp.2 _)
    exact ⟨List.forall_mem_cons.mpr ⟨hp.1, hlater⟩, hrest⟩

/-! ### Whole transcripts -/

theorem follows_call_done_iff {c : Call} {next : Answer c → Procedure Answer α} {a : α} :
    (call c next).Follows later (.done a) ↔
      ∃ answer later', later = ⟨c, answer⟩ :: later' ∧ (next answer).Follows later' (.done a) := by
  rw [follows_call_iff, or_iff_right]
  rintro ⟨-, heq⟩
  cases heq

theorem follows_bind_done_iff {p : Procedure Answer α} {f : α → Procedure Answer β} {b : β} :
    (p.bind f).Follows later (.done b) ↔
      ∃ first rest a, later = first ++ rest ∧ p.Follows first (.done a) ∧
        (f a).Follows rest (.done b) := by
  induction p generalizing later with
  | done a =>
    constructor
    · exact fun h => ⟨[], later, a, rfl, .nil _, h⟩
    · rintro ⟨first, rest, a', rfl, hdone, hf⟩
      obtain ⟨rfl, heq⟩ := follows_done_iff.mp hdone
      cases heq
      exact hf
  | call c next ih =>
    simp only [bind_call, follows_call_done_iff, ih]
    constructor
    · rintro ⟨answer, later', rfl, first, rest, a, rfl, hnext, hf⟩
      exact ⟨⟨c, answer⟩ :: first, rest, a, rfl, ⟨answer, first, rfl, hnext⟩, hf⟩
    · rintro ⟨_, rest, a, rfl, ⟨answer, first, rfl, hnext⟩, hf⟩
      exact ⟨answer, first ++ rest, rfl, first, rest, a, rfl, hnext, hf⟩

/-- A failure ends a procedure, and a result is handed on. -/
theorem follows_bind_except_done_iff {x : ExceptT ε (Procedure Answer) α}
    {f : α → ExceptT ε (Procedure Answer) β} {r : Except ε β} :
    (x >>= f).run.Follows later (.done r) ↔
      (∃ e, x.run.Follows later (.done (.error e)) ∧ r = .error e) ∨
      ∃ first rest a, later = first ++ rest ∧ x.run.Follows first (.done (.ok a)) ∧
        (f a).run.Follows rest (.done r) := by
  rw [run_bind_except, follows_bind_done_iff]
  constructor
  · rintro ⟨first, rest, (e | a), rfl, hx, hrest⟩
    · obtain ⟨rfl, heq⟩ := follows_done_iff.mp hrest
      cases heq
      exact .inl ⟨e, (List.append_nil first).symm ▸ hx, rfl⟩
    · exact .inr ⟨first, rest, a, rfl, hx, hrest⟩
  · rintro (⟨e, hx, rfl⟩ | ⟨first, rest, a, rfl, hx, hf⟩)
    · exact ⟨later, [], .error e, (List.append_nil later).symm, hx, .nil _⟩
    · exact ⟨first, rest, .ok a, rfl, hx, hf⟩

/-- Whatever is answered to a call, given what was asked and answered before, the procedure comes to
an end. -/
theorem exists_follows_done (give : List (AnsweredCall Answer) → (c : Call) → Answer c)
    (p : Procedure Answer α) :
    ∃ log a, p.Follows log (.done a) ∧
      ∀ before e after, log = before ++ e :: after → e.answer = give before e.call := by
  induction p generalizing give with
  | done a => exact ⟨[], a, .nil _, by simp⟩
  | call c next ih =>
    -- What follows is answered by one who remembers the first call as well.
    obtain ⟨log, a, hnext, hgiven⟩ := ih (give [] c) fun before => give (⟨c, give [] c⟩ :: before)
    refine ⟨⟨c, give [] c⟩ :: log, a, .cons hnext, fun before e after heq => ?_⟩
    cases before with
    | nil =>
      obtain ⟨rfl, -⟩ := List.cons.inj heq
      rfl
    | cons first before =>
      obtain ⟨rfl, hrest⟩ := List.cons.inj heq
      exact hgiven before e after hrest

/-- A procedure that is served from a state is answered by it. -/
theorem exists_follows_run (serve : (c : Call) → σ → Answer c × σ) (p : Procedure Answer α)
    (s : σ) :
    ∃ log, p.Follows log (.done (p.run serve s).1) := by
  induction p generalizing s with
  | done a => exact ⟨[], .nil _⟩
  | call c next ih =>
    obtain ⟨log, hnext⟩ := ih (serve c s).1 (serve c s).2
    exact ⟨_, .cons hnext⟩

end Procedure

end TripRecorder
