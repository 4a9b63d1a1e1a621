import TripRecorder.Proofs.Procedure

/-!
# Two runs side by side

Two runs of procedures are compared call by call. They may be served from different states; what is
compared of the states is a relation that the calls have to keep, and the results have to belong
together.

## Main definitions

* `Procedure.Agree` — two runs that begin alike end alike

## Main results

* `Procedure.Agree.bind`, `Procedure.Agree.call` — two runs are compared step by step
* `Procedure.Asks.agree` — one procedure, all of whose calls are answered alike
* `Procedure.Asks.agree_apart` — two procedures whose calls change nothing that is compared
-/

namespace TripRecorder.Procedure

variable {Call : Type} {Answer : Call → Type} {α β γ δ σ₁ σ₂ : Type}
  {serve₁ : (c : Call) → σ₁ → Answer c × σ₁} {serve₂ : (c : Call) → σ₂ → Answer c × σ₂}
  {alike : σ₁ → σ₂ → Prop} {post : α → β → Prop}

/-- Begun in states that are alike, two procedures answer what belongs together and leave states
that are alike. -/
def Agree (serve₁ : (c : Call) → σ₁ → Answer c × σ₁) (serve₂ : (c : Call) → σ₂ → Answer c × σ₂)
    (alike : σ₁ → σ₂ → Prop) (post : α → β → Prop) (p : Procedure Answer α)
    (q : Procedure Answer β) : Prop :=
  ∀ s₁ s₂, alike s₁ s₂ → post (p.run serve₁ s₁).1 (q.run serve₂ s₂).1 ∧
    alike (p.run serve₁ s₁).2 (q.run serve₂ s₂).2

theorem agree_done {a : α} {b : β} (h : post a b) :
    Agree serve₁ serve₂ alike post (.done a) (.done b) :=
  fun _ _ hs => ⟨h, hs⟩

theorem Agree.bind {final : γ → δ → Prop} {p : Procedure Answer α} {q : Procedure Answer β}
    {f : α → Procedure Answer γ} {g : β → Procedure Answer δ}
    (h : Agree serve₁ serve₂ alike post p q)
    (hfinal : ∀ a b, post a b → Agree serve₁ serve₂ alike final (f a) (g b)) :
    Agree serve₁ serve₂ alike final (p.bind f) (q.bind g) := by
  intro s₁ s₂ hs
  obtain ⟨hpost, hs'⟩ := h s₁ s₂ hs
  rw [run_bind, run_bind]
  exact hfinal _ _ hpost _ _ hs'

/-- The same call with the same answer on both sides. -/
theorem Agree.call {c : Call} {f : Answer c → Procedure Answer α}
    {g : Answer c → Procedure Answer β}
    (hcall : ∀ s₁ s₂, alike s₁ s₂ →
      (serve₁ c s₁).1 = (serve₂ c s₂).1 ∧ alike (serve₁ c s₁).2 (serve₂ c s₂).2)
    (hnext : ∀ answer, Agree serve₁ serve₂ alike post (f answer) (g answer)) :
    Agree serve₁ serve₂ alike post (.call c f) (.call c g) := by
  intro s₁ s₂ hs
  -- One answer, so one continuation on both sides.
  obtain ⟨hanswer, hs'⟩ := hcall s₁ s₂ hs
  rw [run_call, run_call, hanswer]
  exact hnext _ _ _ hs'

/-- A procedure whose calls are answered alike has one result. -/
theorem Asks.agree {kind : Call → Prop} {p : Procedure Answer α} (hp : p.Asks kind)
    (hcall : ∀ c s₁ s₂, kind c → alike s₁ s₂ →
      (serve₁ c s₁).1 = (serve₂ c s₂).1 ∧ alike (serve₁ c s₁).2 (serve₂ c s₂).2) :
    Agree serve₁ serve₂ alike Eq p p := by
  induction p with
  | done a => exact agree_done rfl
  | call c next ih =>
    exact .call (fun s₁ s₂ => hcall c s₁ s₂ hp.1) fun answer => ih answer (hp.2 answer)

/-- Procedures whose calls change nothing that is compared. They need not make the same calls, nor
as many. -/
theorem Asks.agree_apart {kind : Call → Prop} {p : Procedure Answer α} {q : Procedure Answer β}
    (hp : p.Asks kind) (hq : q.Asks kind)
    (hleft : ∀ c s₁ s₂, kind c → alike s₁ s₂ → alike (serve₁ c s₁).2 s₂)
    (hright : ∀ c s₁ s₂, kind c → alike s₁ s₂ → alike s₁ (serve₂ c s₂).2) :
    Agree serve₁ serve₂ alike (fun _ _ => True) p q := by
  intro s₁ s₂ hs
  have hfirst : alike (p.run serve₁ s₁).2 s₂ :=
    hp.run_keeps (fun c s => hleft c s s₂) hs
  exact ⟨trivial, hq.run_keeps (fun c s => hright c _ s) hfirst⟩

end TripRecorder.Procedure
