import TripRecorder.Procedure

/-!
# Reasoning about procedures

A procedure says nothing about who answers its calls. What it does is described relative to what
the answers may be: to a contract that they keep, to a state on which the calls act, or to a state
that others change between the calls as well.

## Main definitions

* `Contract`, `Procedure.Meets` — what may be asked and answered, and what a procedure makes of it
* `Procedure.Asks` — the calls a procedure confines itself to
* `Procedure.Ends`, `Procedure.Begins` — the complete runs of a procedure whose calls act on a
  state, and those that are cut
* `Procedure.Safe` — a procedure that keeps a promise with each call and that relies on others to
  change the state in some ways only

## Main results

* `Procedure.Meets.run` — a procedure that meets a contract, served by a state that keeps it
* `Procedure.Ends.of_run` — a served procedure is a complete run
* `Procedure.Begins.exists_ends` — a run that was cut could have gone on to an end
* `Procedure.Safe.of_rely`, `Procedure.Safe.bind` — safety is kept by the steps of others, and by
  putting procedures one after another
-/

namespace TripRecorder

/-- What may be asked for, and what the answers to it may be. -/
structure Contract {Call : Type} (Answer : Call → Type) where
  allows : Call → Prop
  answers : (c : Call) → Answer c → Prop

namespace Procedure

variable {Call : Type} {Answer : Call → Type} {α β σ ε : Type}

/-! ### Procedures that may fail -/

/-- A failure ends a procedure, and a result is handed on. -/
theorem run_bind_except (x : ExceptT ε (Procedure Answer) α)
    (f : α → ExceptT ε (Procedure Answer) β) :
    (x >>= f).run = x.run.bind fun
      | .ok a => (f a).run
      | .error e => .done (.error e) :=
  congrArg (Procedure.bind x.run) (funext fun r => by cases r <;> rfl)

@[simp] theorem run_pure_except (a : α) :
    (pure a : ExceptT ε (Procedure Answer) α).run = .done (.ok a) := rfl

@[simp] theorem run_mk_except (p : Procedure Answer (Except ε α)) : (ExceptT.mk p).run = p := rfl

theorem run_bind_ok {serve : (c : Call) → σ → Answer c × σ} {x : ExceptT ε (Procedure Answer) α}
    {a : α} {s s' : σ} (h : x.run.run serve s = (.ok a, s'))
    (f : α → ExceptT ε (Procedure Answer) β) :
    (x >>= f).run.run serve s = (f a).run.run serve s' := by
  rw [run_bind_except, run_bind, h]

theorem run_bind_error {serve : (c : Call) → σ → Answer c × σ}
    {x : ExceptT ε (Procedure Answer) α} {e : ε} {s s' : σ}
    (h : x.run.run serve s = (.error e, s')) (f : α → ExceptT ε (Procedure Answer) β) :
    (x >>= f).run.run serve s = (.error e, s') := by
  rw [run_bind_except, run_bind, h]
  rfl

theorem run_lift_except (serve : (c : Call) → σ → Answer c × σ) (p : Procedure Answer α) (s : σ) :
    (ExceptT.lift p : ExceptT ε (Procedure Answer) α).run.run serve s =
      (Except.ok (p.run serve s).1, (p.run serve s).2) :=
  run_bind serve p (fun a => .done (Except.ok a)) s

theorem bind_assoc {γ : Type} (p : Procedure Answer α) (f : α → Procedure Answer β)
    (g : β → Procedure Answer γ) : (p.bind f).bind g = p.bind fun a => (f a).bind g := by
  induction p with
  | done a => rfl
  | call c next ih => simp [ih]

/-! ### Contracts -/

/-- As long as the answers keep the contract, the procedure asks for nothing else than the contract
allows, and its result has a property. -/
def Meets (k : Contract Answer) (post : α → Prop) : Procedure Answer α → Prop
  | done a => post a
  | call c next => k.allows c ∧ ∀ answer, k.answers c answer → (next answer).Meets k post

section Meets

variable {k : Contract Answer} {post post' : α → Prop}

@[simp] theorem meets_done {a : α} : (done a).Meets k post ↔ post a := Iff.rfl

@[simp] theorem meets_call {c : Call} {next : Answer c → Procedure Answer α} :
    (call c next).Meets k post ↔
      k.allows c ∧ ∀ answer, k.answers c answer → (next answer).Meets k post := Iff.rfl

theorem Meets.mono {p : Procedure Answer α} (h : p.Meets k post) (hpost : ∀ a, post a → post' a) :
    p.Meets k post' := by
  induction p with
  | done a => exact hpost a h
  | call c next ih => exact ⟨h.1, fun answer hanswer => ih answer (h.2 answer hanswer)⟩

theorem Meets.bind {f : α → Procedure Answer β} {final : β → Prop} {p : Procedure Answer α}
    (hp : p.Meets k post) (hf : ∀ a, post a → (f a).Meets k final) :
    (p.bind f).Meets k final := by
  induction p with
  | done a => exact hf a hp
  | call c next ih => exact ⟨hp.1, fun answer hanswer => ih answer (hp.2 answer hanswer)⟩

/-- A failure ends a procedure, and a result is handed on. -/
theorem Meets.bind_except {x : ExceptT ε (Procedure Answer) α}
    {f : α → ExceptT ε (Procedure Answer) β} {middle : α → Prop} {final : Except ε β → Prop}
    (hx : x.run.Meets k fun r => ∀ a, r = .ok a → middle a) (hfailed : ∀ e, final (.error e))
    (hf : ∀ a, middle a → (f a).run.Meets k final) : (x >>= f).run.Meets k final := by
  rw [run_bind_except]
  refine hx.bind fun r hr => ?_
  cases r with
  | ok a => exact hf a (hr a rfl)
  | error e => exact hfailed e

/-- Served from a state that keeps the contract and does not change, the result has the
property. -/
theorem Meets.run {serve : (c : Call) → σ → Answer c × σ} {p : Procedure Answer α} {s : σ}
    (h : p.Meets k post)
    (hserve : ∀ c, k.allows c → k.answers c (serve c s).1 ∧ (serve c s).2 = s) :
    post (p.run serve s).1 ∧ (p.run serve s).2 = s := by
  induction p with
  | done a => exact ⟨h, rfl⟩
  | call c next ih =>
    obtain ⟨hanswer, hstate⟩ := hserve c h.1
    rw [run_call, hstate]
    exact ih _ (h.2 _ hanswer)

end Meets

/-! ### Calls of some kind -/

/-- Whatever the answers are, the procedure makes calls of some kind only. -/
def Asks (kind : Call → Prop) : Procedure Answer α → Prop
  | done _ => True
  | call c next => kind c ∧ ∀ answer, (next answer).Asks kind

section Asks

variable {kind : Call → Prop}

@[simp] theorem asks_done {a : α} : (done a : Procedure Answer α).Asks kind := trivial

@[simp] theorem asks_call {c : Call} {next : Answer c → Procedure Answer α} :
    (call c next).Asks kind ↔ kind c ∧ ∀ answer, (next answer).Asks kind := Iff.rfl

theorem Asks.bind {p : Procedure Answer α} {f : α → Procedure Answer β} (hp : p.Asks kind)
    (hf : ∀ a, (f a).Asks kind) : (p.bind f).Asks kind := by
  induction p with
  | done a => exact hf a
  | call c next ih => exact ⟨hp.1, fun answer => ih answer (hp.2 answer)⟩

theorem Asks.mono {kind' : Call → Prop} {p : Procedure Answer α} (hp : p.Asks kind)
    (h : ∀ c, kind c → kind' c) : p.Asks kind' := by
  induction p with
  | done a => trivial
  | call c next ih => exact ⟨h c hp.1, fun answer => ih answer (hp.2 answer)⟩

/-- A contract that allows all calls of a kind is met by them. -/
theorem Asks.meets {k : Contract Answer} {p : Procedure Answer α} (hp : p.Asks kind)
    (h : ∀ c, kind c → k.allows c) : p.Meets k fun _ => True := by
  induction p with
  | done a => trivial
  | call c next ih => exact ⟨h c hp.1, fun answer _ => ih answer (hp.2 answer)⟩

theorem asks_true (p : Procedure Answer α) : p.Asks fun _ => True := by
  induction p with
  | done a => trivial
  | call c next ih => exact ⟨trivial, ih⟩

theorem Asks.mapCalls {Other : Type} {OtherAnswer : Other → Type} {into : Call → Other}
    {back : (c : Call) → OtherAnswer (into c) → Answer c} {kind' : Other → Prop}
    {p : Procedure Answer α} (hp : p.Asks kind) (h : ∀ c, kind c → kind' (into c)) :
    (p.mapCalls into back).Asks kind' := by
  induction p with
  | done a => trivial
  | call c next ih => exact ⟨h c hp.1, fun answer => ih _ (hp.2 _)⟩

end Asks

/-! ### Complete runs -/

/-- The procedure, begun in one state, can end with a result in another, its calls acting on the
state in between. -/
inductive Ends (act : (c : Call) → σ → Answer c → σ → Prop) :
    Procedure Answer α → σ → α → σ → Prop where
  | done (a : α) (s : σ) : Ends act (.done a) s a s
  | call {c : Call} {next : Answer c → Procedure Answer α} {s s' s'' : σ} {answer : Answer c}
      {a : α} : act c s answer s' → Ends act (next answer) s' a s'' →
      Ends act (.call c next) s a s''

section Ends

variable {act : (c : Call) → σ → Answer c → σ → Prop} {s s' : σ}

@[simp] theorem ends_done_iff {a b : α} :
    (done a : Procedure Answer α).Ends act s b s' ↔ b = a ∧ s' = s := by
  constructor
  · rintro ⟨⟩
    exact ⟨rfl, rfl⟩
  · rintro ⟨rfl, rfl⟩
    exact .done b s'

@[simp] theorem ends_call_iff {c : Call} {next : Answer c → Procedure Answer α} {a : α} :
    (call c next).Ends act s a s' ↔
      ∃ answer middle, act c s answer middle ∧ (next answer).Ends act middle a s' := by
  constructor
  · rintro ⟨⟩
    exact ⟨_, _, ‹_›, ‹_›⟩
  · rintro ⟨answer, middle, hact, hnext⟩
    exact .call hact hnext

theorem ends_bind_iff {p : Procedure Answer α} {f : α → Procedure Answer β} {b : β} :
    (p.bind f).Ends act s b s' ↔
      ∃ a middle, p.Ends act s a middle ∧ (f a).Ends act middle b s' := by
  induction p generalizing s with
  | done a =>
    constructor
    · exact fun h => ⟨a, s, .done a s, h⟩
    · rintro ⟨_, _, ⟨⟩, h⟩
      exact h
  | call c next ih =>
    simp only [bind_call, ends_call_iff, ih]
    constructor
    · rintro ⟨answer, first, hact, a, middle, hnext, hf⟩
      exact ⟨a, middle, ⟨answer, first, hact, hnext⟩, hf⟩
    · rintro ⟨a, middle, ⟨answer, first, hact, hnext⟩, hf⟩
      exact ⟨answer, first, hact, a, middle, hnext, hf⟩

/-- A result that is only changed at the end. -/
theorem ends_bind_done_iff {p : Procedure Answer α} {f : α → β} {b : β} :
    (p.bind fun a => .done (f a)).Ends act s b s' ↔ ∃ a, p.Ends act s a s' ∧ b = f a := by
  rw [ends_bind_iff]
  constructor
  · rintro ⟨a, middle, hp, hdone⟩
    obtain ⟨rfl, rfl⟩ := ends_done_iff.mp hdone
    exact ⟨a, hp, rfl⟩
  · rintro ⟨a, hp, rfl⟩
    exact ⟨a, s', hp, .done _ _⟩

/-- The second procedure runs if the first one did not fail. -/
theorem ends_bind_except_iff {x : ExceptT ε (Procedure Answer) α}
    {f : α → ExceptT ε (Procedure Answer) β} {r : Except ε β} :
    (x >>= f).run.Ends act s r s' ↔
      (∃ e, x.run.Ends act s (.error e) s' ∧ r = .error e) ∨
      ∃ a middle, x.run.Ends act s (.ok a) middle ∧ (f a).run.Ends act middle r s' := by
  rw [run_bind_except, ends_bind_iff]
  constructor
  · rintro ⟨(e | a), middle, hx, hrest⟩
    · obtain ⟨rfl, rfl⟩ := ends_done_iff.mp hrest
      exact .inl ⟨e, hx, rfl⟩
    · exact .inr ⟨a, middle, hx, hrest⟩
  · rintro (⟨e, hx, rfl⟩ | ⟨a, middle, hx, hf⟩)
    · exact ⟨.error e, s', hx, .done _ _⟩
    · exact ⟨.ok a, middle, hx, hf⟩

theorem Ends.mono {act' : (c : Call) → σ → Answer c → σ → Prop} {p : Procedure Answer α} {a : α}
    (h : p.Ends act s a s')
    (hact : ∀ c s answer s', act c s answer s' → act' c s answer s') : p.Ends act' s a s' := by
  induction h with
  | done a s => exact .done a s
  | call hcall _ ih => exact .call (hact _ _ _ _ hcall) ih

theorem ends_mapCalls_iff {Other : Type} {OtherAnswer : Other → Type} {into : Call → Other}
    {back : (c : Call) → OtherAnswer (into c) → Answer c}
    {act : (c : Other) → σ → OtherAnswer c → σ → Prop} {p : Procedure Answer α} {a : α} :
    (p.mapCalls into back).Ends act s a s' ↔
      p.Ends (fun c s answer s' => ∃ other, act (into c) s other s' ∧ back c other = answer)
        s a s' := by
  induction p generalizing s with
  | done b => simp [mapCalls]
  | call c next ih =>
    simp only [mapCalls, ends_call_iff, ih]
    constructor
    · rintro ⟨other, middle, hact, hnext⟩
      exact ⟨_, middle, ⟨other, hact, rfl⟩, hnext⟩
    · rintro ⟨_, middle, ⟨other, hact, rfl⟩, hnext⟩
      exact ⟨other, middle, hact, hnext⟩

/-- A served procedure is a complete run. -/
theorem Ends.of_run {serve : (c : Call) → σ → Answer c × σ}
    (hserve : ∀ c s, act c s (serve c s).1 (serve c s).2) (p : Procedure Answer α) (s : σ) :
    p.Ends act s (p.run serve s).1 (p.run serve s).2 := by
  induction p generalizing s with
  | done a => exact .done a s
  | call c next ih => exact .call (hserve c s) (ih _ _)

/-- A procedure that is served from more than what is seen of the states. -/
theorem Ends.of_run_seen {τ : Type} {serve : (c : Call) → τ → Answer c × τ} {seen : τ → σ}
    (hserve : ∀ c s, act c (seen s) (serve c s).1 (seen (serve c s).2)) (p : Procedure Answer α)
    (s : τ) : p.Ends act (seen s) (p.run serve s).1 (seen (p.run serve s).2) := by
  induction p generalizing s with
  | done a => exact .done a _
  | call c next ih => exact .call (hserve c s) (ih _ _)

/-- What every call of a kind keeps is kept by a run whose calls are all of that kind. -/
theorem Ends.of_asks {kind : Call → Prop} {keeps : σ → σ → Prop} {p : Procedure Answer α} {a : α}
    (h : p.Ends act s a s') (hp : p.Asks kind) (refl : ∀ s, keeps s s)
    (trans : ∀ {s₁ s₂ s₃}, keeps s₁ s₂ → keeps s₂ s₃ → keeps s₁ s₃)
    (hact : ∀ c s answer s', kind c → act c s answer s' → keeps s s') : keeps s s' := by
  induction h with
  | done a s => exact refl s
  -- The first call keeps it, and the rest of the run is a run of what follows its answer.
  | call hcall _ ih => exact trans (hact _ _ _ _ hp.1 hcall) (ih (hp.2 _))

/-- What every call of a kind keeps is kept while a procedure of such calls is served. -/
theorem Asks.run_keeps {kind : Call → Prop} {keeps : σ → Prop}
    {serve : (c : Call) → σ → Answer c × σ} {p : Procedure Answer α} (hp : p.Asks kind)
    (hcall : ∀ c s, kind c → keeps s → keeps (serve c s).2) {s : σ} (hs : keeps s) :
    keeps (p.run serve s).2 := by
  induction p generalizing s with
  | done a => exact hs
  | call c next ih => exact ih _ (hp.2 _) (hcall c s hp.1 hs)

/-- Where the calls that a contract allows keep it and do not change what the state shows, a run
keeps it as well. -/
theorem Meets.of_ends {k : Contract Answer} {post : α → Prop} {same : σ → Prop}
    {p : Procedure Answer α} {a : α} (h : p.Meets k post) (hends : p.Ends act s a s')
    (hact : ∀ c s answer s', same s → k.allows c → act c s answer s' →
      k.answers c answer ∧ same s') (hs : same s) : post a ∧ same s' := by
  induction hends with
  | done a s => exact ⟨h, hs⟩
  | call hcall _ ih =>
    obtain ⟨hanswer, hsame⟩ := hact _ _ _ _ hs h.1 hcall
    exact ih (h.2 _ hanswer) hsame

/-- Where every call can be answered, every procedure can end. -/
theorem exists_ends (htotal : ∀ c s, ∃ answer s', act c s answer s') (p : Procedure Answer α)
    (s : σ) : ∃ a s', p.Ends act s a s' := by
  induction p generalizing s with
  | done a => exact ⟨a, s, .done a s⟩
  | call c next ih =>
    obtain ⟨answer, middle, hcall⟩ := htotal c s
    obtain ⟨a, s', hrest⟩ := ih answer middle
    exact ⟨a, s', .call hcall hrest⟩

end Ends

/-! ### Runs that are cut -/

/-- The procedure, begun in one state, has led to another with the calls it has made so far. -/
inductive Begins (act : (c : Call) → σ → Answer c → σ → Prop) :
    Procedure Answer α → σ → σ → Prop where
  | start (p : Procedure Answer α) (s : σ) : Begins act p s s
  | call {c : Call} {next : Answer c → Procedure Answer α} {s s' s'' : σ} {answer : Answer c} :
      act c s answer s' → Begins act (next answer) s' s'' → Begins act (.call c next) s s''

/-- Where every call can be answered, a procedure that has begun can go on to its end. -/
theorem Begins.exists_ends {act : (c : Call) → σ → Answer c → σ → Prop} {s s' : σ}
    {p : Procedure Answer α} (htotal : ∀ c s, ∃ answer s', act c s answer s')
    (h : p.Begins act s s') :
    ∃ (rest : Procedure Answer α) (a : α) (s'' : σ),
      p.Ends act s a s'' ∧ rest.Ends act s' a s'' := by
  induction h with
  | start p s =>
    obtain ⟨a, s'', hends⟩ := Procedure.exists_ends htotal p s
    exact ⟨p, a, s'', hends, hends⟩
  | call hcall _ ih =>
    obtain ⟨rest, a, s'', hends, hrest⟩ := ih
    exact ⟨rest, a, s'', .call hcall hends, hrest⟩

/-! ### Steps of others -/

/-- The procedure relies on others to change the state in some ways only. Each of its calls is then
a change it guarantees, and its result has a property in every state in which it may be looked
at. -/
def Safe (act : (c : Call) → σ → Answer c → σ → Prop) (rely guarantee : σ → σ → Prop)
    (post : α → σ → Prop) : Procedure Answer α → σ → Prop
  | done a, s => ∀ s', rely s s' → post a s'
  | call c next, s => ∀ s', rely s s' → ∀ answer s'', act c s' answer s'' →
      guarantee s' s'' ∧ (next answer).Safe act rely guarantee post s''

section Safe

variable {act : (c : Call) → σ → Answer c → σ → Prop} {rely guarantee : σ → σ → Prop}
  {post : α → σ → Prop} {s s' : σ}

theorem Safe.of_rely {p : Procedure Answer α} (h : p.Safe act rely guarantee post s)
    (trans : ∀ {s₁ s₂ s₃}, rely s₁ s₂ → rely s₂ s₃ → rely s₁ s₃) (hrely : rely s s') :
    p.Safe act rely guarantee post s' := by
  cases p with
  | done a => exact fun s'' h'' => h s'' (trans hrely h'')
  | call c next => exact fun s'' h'' => h s'' (trans hrely h'')

theorem Safe.bind {f : α → Procedure Answer β} {final : β → σ → Prop} {p : Procedure Answer α}
    (hp : p.Safe act rely guarantee post s) (refl : ∀ s, rely s s)
    (hf : ∀ a s, post a s → (f a).Safe act rely guarantee final s) :
    (p.bind f).Safe act rely guarantee final s := by
  induction p generalizing s with
  | done a => exact hf a s (hp s (refl s))
  | call c next ih =>
    intro s' hrely answer s'' hact
    obtain ⟨hguarantee, hnext⟩ := hp s' hrely answer s'' hact
    exact ⟨hguarantee, ih answer hnext⟩

theorem Safe.mono {guarantee' : σ → σ → Prop} {post' : α → σ → Prop} {p : Procedure Answer α}
    (h : p.Safe act rely guarantee post s)
    (hguarantee : ∀ s s', guarantee s s' → guarantee' s s')
    (hpost : ∀ a s, post a s → post' a s) : p.Safe act rely guarantee' post' s := by
  induction p generalizing s with
  | done a => exact fun s' hrely => hpost a s' (h s' hrely)
  | call c next ih =>
    intro s' hrely answer s'' hact
    obtain ⟨hchange, hnext⟩ := h s' hrely answer s'' hact
    exact ⟨hguarantee s' s'' hchange, ih answer hnext⟩

/-- A failure ends a procedure, and a result is handed on. -/
theorem Safe.bind_except {x : ExceptT ε (Procedure Answer) α}
    {f : α → ExceptT ε (Procedure Answer) β} {middle : α → σ → Prop}
    {final : Except ε β → σ → Prop}
    (hx : x.run.Safe act rely guarantee (fun r s => ∀ a, r = .ok a → middle a s) s)
    (refl : ∀ s, rely s s) (hfailed : ∀ e s, final (.error e) s)
    (hf : ∀ a s, middle a s → (f a).run.Safe act rely guarantee final s) :
    (x >>= f).run.Safe act rely guarantee final s := by
  rw [run_bind_except]
  refine hx.bind refl fun r s hr => ?_
  cases r with
  | ok a => exact hf a s (hr a rfl)
  | error e => exact fun s' _ => hfailed e s'

/-- What the steps of others and the calls of the procedure keep holds at the end. -/
theorem Safe.frame {keeps : σ → Prop} {p : Procedure Answer α}
    (h : p.Safe act rely guarantee post s) (hrely : ∀ {s s'}, keeps s → rely s s' → keeps s')
    (hguarantee : ∀ {s s'}, keeps s → guarantee s s' → keeps s') (hs : keeps s) :
    p.Safe act rely guarantee (fun a s => keeps s ∧ post a s) s := by
  induction p generalizing s with
  | done a => exact fun s' h' => ⟨hrely hs h', h s' h'⟩
  | call c next ih =>
    intro s' h' answer s'' hact
    obtain ⟨hchange, hnext⟩ := h s' h' answer s'' hact
    exact ⟨hchange, ih answer hnext (hguarantee (hrely hs h') hchange)⟩

theorem Safe.mapCalls {Other : Type} {OtherAnswer : Other → Type} {into : Call → Other}
    {back : (c : Call) → OtherAnswer (into c) → Answer c}
    {act : (c : Other) → σ → OtherAnswer c → σ → Prop} {p : Procedure Answer α}
    (h : p.Safe (fun c s answer s' => ∃ other, act (into c) s other s' ∧ back c other = answer)
      rely guarantee post s) : (p.mapCalls into back).Safe act rely guarantee post s := by
  induction p generalizing s with
  | done a => exact h
  | call c next ih =>
    intro s' hrely other s'' hact
    obtain ⟨hguarantee, hnext⟩ := h s' hrely (back c other) s'' ⟨other, hact, rfl⟩
    exact ⟨hguarantee, ih _ hnext⟩

/-- While nobody else changes the state, a complete run is a change that the procedure
guarantees. -/
theorem Safe.guarantee_of_ends {p : Procedure Answer α} {a : α}
    (h : p.Safe act rely guarantee post s) (hends : p.Ends act s a s') (refl : ∀ s, rely s s)
    (hrefl : ∀ s, guarantee s s)
    (htrans : ∀ {s₁ s₂ s₃}, guarantee s₁ s₂ → guarantee s₂ s₃ → guarantee s₁ s₃) :
    guarantee s s' := by
  induction hends with
  | done a s => exact hrefl s
  | call hact _ ih =>
    obtain ⟨hguarantee, hnext⟩ := h _ (refl _) _ _ hact
    exact htrans hguarantee (ih hnext)

/-- A procedure that only looks at the state meets a contract, unless the state is spoiled in
between: then nothing is known of its result. -/
theorem Meets.safe {k : Contract Answer} {kind : Call → Prop} {assertion spoiled : σ → Prop}
    {expected : α → Prop} {p : Procedure Answer α}
    (hp : p.Asks kind) (refl : ∀ s, guarantee s s)
    (stable : ∀ {s s'}, assertion s → rely s s' → assertion s')
    (stays : ∀ {s s'}, assertion s → spoiled s → rely s s' → spoiled s')
    (hact : ∀ c s answer s', kind c → act c s answer s' → s' = s)
    (hanswer : ∀ c s answer s', assertion s → k.allows c → act c s answer s' →
      spoiled s ∨ k.answers c answer)
    (hs : assertion s) (h : spoiled s ∨ p.Meets k expected) :
    p.Safe act rely guarantee (fun a s => assertion s ∧ (spoiled s ∨ expected a)) s := by
  induction p generalizing s with
  | done a =>
    intro s' hrely
    refine ⟨stable hs hrely, ?_⟩
    rcases h with hspoiled | hexpected
    · exact .inl (stays hs hspoiled hrely)
    · exact .inr hexpected
  | call c next ih =>
    intro s' hrely answer s'' hcall
    obtain rfl := hact c s' answer s'' hp.1 hcall
    refine ⟨refl _, ih answer (hp.2 answer) (stable hs hrely) ?_⟩
    rcases h with hspoiled | hmeets
    · exact .inl (stays hs hspoiled hrely)
    · rcases hanswer c s'' answer s'' (stable hs hrely) hmeets.1 hcall with hspoiled | hanswers
      · exact .inl hspoiled
      · exact .inr (hmeets.2 answer hanswers)

/-- A procedure whose calls never change the state is safe. -/
theorem Asks.safe {kind : Call → Prop} {p : Procedure Answer α} (hp : p.Asks kind)
    (refl : ∀ s, guarantee s s)
    (hact : ∀ c s answer s', kind c → act c s answer s' → s' = s) :
    p.Safe act rely guarantee (fun _ _ => True) s := by
  induction p generalizing s with
  | done a => exact fun _ _ => trivial
  | call c next ih =>
    intro s' _ answer s'' h
    obtain rfl := hact c s' answer s'' hp.1 h
    exact ⟨refl _, ih answer (hp.2 answer)⟩

end Safe

end Procedure

end TripRecorder
