import TripRecorder.Proofs.Procedure

/-!
# Procedures amid the steps of others

A procedure that shares a state with others may find another state at each of its calls. A run of
it is told with all states that it passed, so that what it answers can be traced to the moments at
which it looked.

## Main definitions

* `Procedure.Amid` — a run of a procedure with the steps of others between its calls
* `Procedure.runAmid` — the run in which others make some calls before each of its own

## Main results

* `Procedure.Amid.of_bind` — the states passed by one procedure after another
* `Procedure.Amid.keeps` — what all steps keep holds in all states that were passed
* `Procedure.amid_runAmid` — calls of others are steps
-/

namespace TripRecorder.Procedure

variable {Call : Type} {Answer : Call → Type} {α β σ ε : Type}

/-- The procedure, begun in one state, can end with a result in another, its calls acting on the
state and others changing it in between. The states that were passed are listed in their order, all
but the last one. -/
inductive Amid (act : (c : Call) → σ → Answer c → σ → Prop) (other : σ → σ → Prop) :
    Procedure Answer α → σ → List σ → α → σ → Prop where
  | done (a : α) (s : σ) : Amid act other (.done a) s [] a s
  | other {p : Procedure Answer α} {s s' s'' : σ} {passed : List σ} {a : α} :
      other s s' → Amid act other p s' passed a s'' → Amid act other p s (s :: passed) a s''
  | call {c : Call} {next : Answer c → Procedure Answer α} {s s' s'' : σ} {answer : Answer c}
      {passed : List σ} {a : α} : act c s answer s' →
      Amid act other (next answer) s' passed a s'' →
      Amid act other (.call c next) s (s :: passed) a s''

section Amid

variable {act : (c : Call) → σ → Answer c → σ → Prop} {other : σ → σ → Prop} {s s' s'' : σ}
  {passed : List σ}

/-- A procedure that makes no call is over, whatever others do. -/
theorem Amid.of_done {a b : α}
    (h : (Procedure.done a : Procedure Answer α).Amid act other s passed b s') : b = a := by
  generalize hp : (Procedure.done a : Procedure Answer α) = p at h
  induction h with
  | done b s => exact (Procedure.done.inj hp).symm
  | other _ _ ih => exact ih hp
  | call _ _ _ => cases hp

/-- Others may change the state before a call is made, and it is made in a state that was passed. -/
theorem Amid.of_call {c : Call} {next : Answer c → Procedure Answer α} {a : α}
    (h : (Procedure.call c next).Amid act other s passed a s'') :
    ∃ before middle rest answer s', passed = before ++ middle :: rest ∧
      act c middle answer s' ∧ (next answer).Amid act other s' rest a s'' := by
  generalize hp : Procedure.call c next = p at h
  induction h with
  | done b s => cases hp
  | other _ _ ih =>
    obtain ⟨before, middle, rest, answer, s', rfl, hact, hnext⟩ := ih hp
    exact ⟨_ :: before, middle, rest, answer, s', rfl, hact, hnext⟩
  | call hact hnext _ =>
    cases hp
    exact ⟨[], _, _, _, _, rfl, hact, hnext⟩

/-- The states passed by two procedures come one after another. -/
theorem Amid.of_bind {p : Procedure Answer α} {f : α → Procedure Answer β} {b : β}
    (h : (p.bind f).Amid act other s passed b s'') :
    ∃ a s' first rest, passed = first ++ rest ∧ p.Amid act other s first a s' ∧
      (f a).Amid act other s' rest b s'' := by
  generalize hq : p.bind f = q at h
  -- Each step is one of the first procedure, until that is over.
  induction h generalizing p with
  | done b s =>
    cases p with
    | done a =>
      have hrest : (f a).Amid act other s [] b s := by
        rw [show f a = .done b from hq]
        exact .done b s
      exact ⟨a, s, [], [], rfl, .done a s, hrest⟩
    | call c next => cases hq
  | other hother hrest ih =>
    obtain ⟨a, s', first, rest, rfl, hp, hf⟩ := ih hq
    exact ⟨a, s', _ :: first, rest, rfl, .other hother hp, hf⟩
  | @call c next s s' s'' answer passed b hact hnext ih =>
    cases p with
    | done a =>
      have hrest : (f a).Amid act other s (s :: passed) b s'' := by
        rw [show f a = .call c next from hq]
        exact .call hact hnext
      exact ⟨a, s, [], s :: passed, rfl, .done a s, hrest⟩
    | call c next =>
      cases hq
      obtain ⟨a, s', first, rest, rfl, hp, hf⟩ := ih rfl
      exact ⟨a, s', _ :: first, rest, rfl, .call hact hp, hf⟩

/-- A result that is only changed at the end. -/
theorem Amid.of_bind_done {p : Procedure Answer α} {f : α → β} {b : β}
    (h : (p.bind fun a => .done (f a)).Amid act other s passed b s'') :
    ∃ a, p.Amid act other s passed a s'' ∧ b = f a := by
  -- Here `of_bind` would cut off what others do after the last call.
  generalize hq : (p.bind fun a => .done (f a)) = q at h
  induction h generalizing p with
  | done b s =>
    cases p with
    | done a => exact ⟨a, .done a s, (Procedure.done.inj hq).symm⟩
    | call c next => cases hq
  | other hother _ ih =>
    obtain ⟨a, hp, hb⟩ := ih hq
    exact ⟨a, .other hother hp, hb⟩
  | call hact _ ih =>
    cases p with
    | done a => cases hq
    | call c next =>
      cases hq
      obtain ⟨a, hp, hb⟩ := ih rfl
      exact ⟨a, .call hact hp, hb⟩

/-- What the calls of a kind and the steps of others keep holds in all states that are passed by a
procedure that makes such calls only. -/
theorem Amid.keeps {kind : Call → Prop} {keeps : σ → Prop} {p : Procedure Answer α} {a : α}
    (h : p.Amid act other s passed a s') (hp : p.Asks kind)
    (hact : ∀ c s answer s', kind c → act c s answer s' → keeps s → keeps s')
    (hother : ∀ s s', other s s' → keeps s → keeps s') (hs : keeps s) :
    (∀ middle ∈ passed, keeps middle) ∧ keeps s' := by
  induction h with
  | done a s => exact ⟨nofun, hs⟩
  | other hstep _ ih =>
    obtain ⟨hpassed, hlast⟩ := ih hp (hother _ _ hstep hs)
    exact ⟨List.forall_mem_cons.mpr ⟨hs, hpassed⟩, hlast⟩
  | call hcall _ ih =>
    obtain ⟨hpassed, hlast⟩ := ih (hp.2 _) (hact _ _ _ _ hp.1 hcall hs)
    exact ⟨List.forall_mem_cons.mpr ⟨hs, hpassed⟩, hlast⟩

/-- A run without steps of others. -/
theorem Ends.exists_amid {p : Procedure Answer α} {a : α} (h : p.Ends act s a s') :
    ∃ passed, p.Amid act other s passed a s' := by
  induction h with
  | done a s => exact ⟨[], .done a s⟩
  | call hcall _ ih =>
    obtain ⟨passed, hrest⟩ := ih
    exact ⟨_ :: passed, .call hcall hrest⟩

end Amid

/-! ### Scripts -/

section Script

variable (serve : (c : Call) → σ → Answer c × σ)

/-- The states passed by some calls, and the last one. -/
def passing : List Call → σ → List σ × σ
  | [], s => ([], s)
  | c :: rest, s => (s :: (passing rest (serve c s).2).1, (passing rest (serve c s).2).2)

/-- The run of a procedure in which others make the calls of a script before each of its own: its
result, the states that were passed, and the last one. -/
def runAmid : Procedure Answer α → List (List Call) → σ → α × List σ × σ
  | done a, _, s => (a, [], s)
  | call c next, script, s =>
    let (before, middle) := passing serve (script.headD []) s
    let (a, passed, last) :=
      (next (serve c middle).1).runAmid script.tail (serve c middle).2
    (a, before ++ middle :: passed, last)

variable {serve} {act : (c : Call) → σ → Answer c → σ → Prop} {other : σ → σ → Prop}

theorem Amid.passing {p : Procedure Answer α} {passed : List σ} {a : α} {s s' : σ}
    (hother : ∀ c s, other s (serve c s).2) (calls : List Call)
    (h : p.Amid act other (passing serve calls s).2 passed a s') :
    p.Amid act other s ((Procedure.passing serve calls s).1 ++ passed) a s' := by
  induction calls generalizing s with
  | nil => exact h
  | cons c rest ih => exact .other (hother c s) (ih h)

/-- The calls of a script are steps of others. -/
theorem amid_runAmid (hact : ∀ c s, act c s (serve c s).1 (serve c s).2)
    (hother : ∀ c s, other s (serve c s).2) (p : Procedure Answer α) (script : List (List Call))
    (s : σ) : p.Amid act other s (p.runAmid serve script s).2.1 (p.runAmid serve script s).1
      (p.runAmid serve script s).2.2 := by
  induction p generalizing script s with
  | done a => exact .done a s
  | call c next ih => exact .passing hother _ (.call (hact _ _) (ih _ _ _))

end Script

end TripRecorder.Procedure
