import TripRecorder.Proofs.Transcript

/-!
# Procedures side by side

Several parties work on one state, each of them through a procedure of its own. A call happens at
once, but between two calls of one party others may make as many as they like. What a party has done
so far is read off the history of all calls, and it is always a beginning of its own procedure.

## Main definitions

* `Moment` — one call of one party, with the states before and after it
* `Crowd` — parties that came one after another, and the calls they made in any order
* `Crowd.play` — the crowd of a script

## Main results

* `Crowd.follows` — a party has done a beginning of its procedure
* `Crowd.at_moment` — the moment of a call cuts its party's procedure in two
* `Crowd.passes` — every moment begins in the state that the one before it left
* `Crowd.of_play` — a script makes a crowd
-/

namespace TripRecorder

variable {Call : Type} {Answer : Call → Type} {α σ : Type}

/-- One call of one party, with the states before and after it. -/
structure Moment (Answer : Call → Type) (σ : Type) where
  party : Nat
  before : σ
  call : Call
  answer : Answer call
  after : σ

namespace Moment

/-- What was asked and answered. -/
def answered (m : Moment Answer σ) : AnsweredCall Answer := ⟨m.call, m.answer⟩

/-- The moments of one party. -/
def ofParty (i : Nat) (past : List (Moment Answer σ)) : List (Moment Answer σ) :=
  past.filter fun m => m.party = i

/-- The calls of one party and their answers. -/
def ownOf (i : Nat) (past : List (Moment Answer σ)) : List (AnsweredCall Answer) :=
  (ofParty i past).map answered

/-- The moments come one after another, and nothing happens in between. -/
def Passes (act : (c : Call) → σ → Answer c → σ → Prop) : σ → List (Moment Answer σ) → σ → Prop
  | s, [], s' => s' = s
  | s, m :: later, s' => m.before = s ∧ act m.call m.before m.answer m.after ∧
      Passes act m.after later s'

variable {act : (c : Call) → σ → Answer c → σ → Prop} {s s' : σ} {i : Nat} {m : Moment Answer σ}
  {early later : List (Moment Answer σ)}

@[simp] theorem ownOf_nil : ownOf i ([] : List (Moment Answer σ)) = [] := rfl

theorem ownOf_append : ownOf i (early ++ later) = ownOf i early ++ ownOf i later := by
  simp [ownOf, ofParty]

theorem ownOf_cons_of_eq (h : m.party = i) :
    ownOf i (m :: later) = m.answered :: ownOf i later := by
  simp [ownOf, ofParty, h]

theorem ownOf_cons_of_ne (h : m.party ≠ i) : ownOf i (m :: later) = ownOf i later := by
  simp [ownOf, ofParty, h]

theorem ownOf_eq_nil_iff : ownOf i later = [] ↔ ∀ m ∈ later, m.party ≠ i := by
  simp [ownOf, ofParty]

theorem answered_mem_ownOf (h : m ∈ later) : m.answered ∈ ownOf m.party later :=
  List.mem_map_of_mem (List.mem_filter.mpr ⟨h, by simp⟩)

/-- What was asked and answered was so at a moment of that party. -/
theorem exists_of_mem_ownOf {e : AnsweredCall Answer} (h : e ∈ ownOf i later) :
    ∃ m ∈ later, m.party = i ∧ m.answered = e := by
  obtain ⟨m, hm, rfl⟩ := List.mem_map.mp h
  obtain ⟨hmem, hparty⟩ := List.mem_filter.mp hm
  exact ⟨m, hmem, by simpa using hparty, rfl⟩

theorem passes_append_iff : Passes act s (early ++ later) s' ↔
    ∃ middle, Passes act s early middle ∧ Passes act middle later s' := by
  induction early generalizing s with
  | nil => simp [Passes]
  | cons m early ih =>
    simp only [List.cons_append, Passes, ih]
    constructor
    · rintro ⟨hbefore, hact, middle, hearly, hlater⟩
      exact ⟨middle, ⟨hbefore, hact, hearly⟩, hlater⟩
    · rintro ⟨middle, ⟨hbefore, hact, hearly⟩, hlater⟩
      exact ⟨hbefore, hact, middle, hearly, hlater⟩

/-- Each moment is a step from the state before it. -/
theorem Passes.act_of_mem (h : Passes act s later s') (hm : m ∈ later) :
    act m.call m.before m.answer m.after := by
  obtain ⟨before, after, rfl⟩ := List.mem_iff_append.mp hm
  obtain ⟨middle, -, -, hact, -⟩ := passes_append_iff.mp h
  exact hact

/-- Between two moments there are only the moments between them. -/
theorem Passes.between {m' : Moment Answer σ} {middle : List (Moment Answer σ)}
    (h : Passes act s (early ++ m :: (middle ++ m' :: later)) s') :
    Passes act m.after middle m'.before := by
  obtain ⟨s₁, -, -, -, hrest⟩ := passes_append_iff.mp h
  obtain ⟨s₂, hmiddle, rfl, -⟩ := passes_append_iff.mp hrest
  exact hmiddle

end Moment

/-! ### Crowds -/

section Crowd

variable {Task : Type} {Result : Task → Type}

/-- A party: what it came for, and what is left of its procedure. -/
structure Party (Answer : Call → Type) (Result : Task → Type) where
  task : Task
  rest : Procedure Answer (Result task)

variable (program : (t : Task) → Procedure Answer (Result t))
  (act : (c : Call) → σ → Answer c → σ → Prop)

/-- Parties come, and whoever has not finished may make its next call at any time. Parties are
numbered in the order in which they came. -/
inductive Crowd (first : σ) : List (Party Answer Result) → List (Moment Answer σ) → σ → Prop where
  | start : Crowd first [] [] first
  | enter {parties : List (Party Answer Result)} {past : List (Moment Answer σ)} {s : σ}
      (t : Task) : Crowd first parties past s → Crowd first (parties ++ [⟨t, program t⟩]) past s
  | step {parties : List (Party Answer Result)} {past : List (Moment Answer σ)} {s s' : σ} {i : Nat}
      {t : Task} {c : Call} {next : Answer c → Procedure Answer (Result t)} {answer : Answer c} :
      Crowd first parties past s → parties[i]? = some ⟨t, .call c next⟩ → act c s answer s' →
      Crowd first (parties.set i ⟨t, next answer⟩) (past ++ [⟨i, s, c, answer, s'⟩]) s'

namespace Crowd

variable {program act} {first s : σ} {parties : List (Party Answer Result)}
  {past : List (Moment Answer σ)} {party : Party Answer Result} {i : Nat}

/-- Every moment begins in the state that the one before it left. -/
theorem passes (h : Crowd program act first parties past s) : Moment.Passes act first past s := by
  induction h with
  | start => exact rfl
  | enter t _ ih => exact ih
  | step _ _ hact ih => exact Moment.passes_append_iff.mpr ⟨_, ih, rfl, hact, rfl⟩

/-- Only parties that came make calls. -/
theorem party_lt (h : Crowd program act first parties past s) :
    ∀ m ∈ past, m.party < parties.length := by
  induction h with
  | start => exact nofun
  | enter t _ ih =>
    intro m hm
    rw [List.length_append]
    exact Nat.lt_add_right _ (ih m hm)
  | step _ hparty _ ih =>
    intro m hm
    rw [List.length_set]
    rcases List.mem_append.mp hm with hm | hm
    · exact ih m hm
    · rw [List.mem_singleton.mp hm]
      exact (List.getElem?_eq_some_iff.mp hparty).1

/-- A party has done a beginning of its procedure. -/
theorem follows (h : Crowd program act first parties past s) (hparty : parties[i]? = some party) :
    (program party.task).Follows (Moment.ownOf i past) party.rest := by
  induction h generalizing party with
  | start => cases hparty
  | @enter parties past s t hcrowd ih =>
    by_cases hi : i < parties.length
    · exact ih (by rwa [List.getElem?_append_left hi] at hparty)
    · -- Whoever has just come has made no call yet.
      have hnone : Moment.ownOf i past = [] :=
        Moment.ownOf_eq_nil_iff.mpr fun m hm heq => hi (heq ▸ hcrowd.party_lt m hm)
      rw [List.getElem?_append_right (Nat.le_of_not_lt hi), List.getElem?_singleton] at hparty
      split at hparty
      · cases hparty
        rw [hnone]
        exact .nil _
      · cases hparty
  | @step parties past s s' j t c next answer hcrowd hcaller hact ih =>
    rw [Moment.ownOf_append]
    by_cases hj : j = i
    · -- The new moment is its own, and it goes on with the answer.
      rw [Moment.ownOf_cons_of_eq hj]
      subst hj
      have hlt := (List.getElem?_eq_some_iff.mp hcaller).1
      rw [List.getElem?_set_self hlt] at hparty
      cases hparty
      exact (ih hcaller).concat answer
    · -- Somebody else's call leaves it where it was.
      rw [List.getElem?_set_ne hj] at hparty
      rw [Moment.ownOf_cons_of_ne hj, Moment.ownOf_nil, List.append_nil]
      exact ih hparty

/-- The moment of a call cuts its party's procedure in two: what it had done before and was then
about to ask, and what followed the answer. -/
theorem at_moment {m : Moment Answer σ} {early late : List (Moment Answer σ)}
    (h : Crowd program act first parties (early ++ m :: late) s) :
    ∃ party next, parties[m.party]? = some party ∧
      (program party.task).Follows (Moment.ownOf m.party early) (.call m.call next) ∧
      (next m.answer).Follows (Moment.ownOf m.party late) party.rest := by
  have hlt := h.party_lt m (List.mem_append_right _ (List.mem_cons_self ..))
  have hfollows := h.follows (List.getElem?_eq_getElem hlt)
  rw [Moment.ownOf_append, Moment.ownOf_cons_of_eq rfl] at hfollows
  obtain ⟨next, hearly, hlate⟩ := hfollows.of_append_cons
  exact ⟨_, next, List.getElem?_eq_getElem hlt, hearly, hlate⟩

end Crowd

/-! ### Scripts -/

/-- What happens next: someone comes, or a party makes its next call. -/
inductive Cue (Task : Type) where
  | enter (t : Task)
  | call (party : Nat)

/-- A crowd as it stands. -/
structure Scene (Answer : Call → Type) (Result : Task → Type) (σ : Type) where
  parties : List (Party Answer Result)
  past : List (Moment Answer σ)
  state : σ

variable (serve : (c : Call) → σ → Answer c × σ)

/-- The crowd after a cue. A call of a party that has none to make is left out. -/
def Crowd.cue (crowd : Scene Answer Result σ) : Cue Task → Scene Answer Result σ
  | .enter t => { crowd with parties := crowd.parties ++ [⟨t, program t⟩] }
  | .call i =>
    match crowd.parties[i]? with
    | some ⟨t, .call c next⟩ =>
      let (answer, s') := serve c crowd.state
      ⟨crowd.parties.set i ⟨t, next answer⟩, crowd.past ++ [⟨i, crowd.state, c, answer, s'⟩], s'⟩
    | _ => crowd

/-- The crowd of a script. -/
def Crowd.play (first : σ) (script : List (Cue Task)) : Scene Answer Result σ :=
  script.foldl (Crowd.cue program serve) ⟨[], [], first⟩

variable {program act serve}

/-- A script makes a crowd. -/
theorem Crowd.of_play (hserve : ∀ c s, act c s (serve c s).1 (serve c s).2) (first : σ)
    (script : List (Cue Task)) :
    Crowd program act first (play program serve first script).parties
      (play program serve first script).past (play program serve first script).state := by
  have hfold (script : List (Cue Task)) (crowd : Scene Answer Result σ)
      (h : Crowd program act first crowd.parties crowd.past crowd.state) :
      Crowd program act first (script.foldl (cue program serve) crowd).parties
        (script.foldl (cue program serve) crowd).past
        (script.foldl (cue program serve) crowd).state := by
    induction script generalizing crowd with
    | nil => exact h
    | cons c rest ih =>
      refine ih _ ?_
      cases c with
      | enter t => exact h.enter t
      | call i =>
        simp only [cue]
        split
        · rename_i t c next hparty
          exact h.step hparty (hserve _ _)
        · exact h
  exact hfold script ⟨[], [], first⟩ .start

end Crowd

end TripRecorder
