/-!
# Procedures

A procedure is a computation that asks for things it cannot do itself, one call at a time: to
store rows, to send a body, to write bytes. What answers is left open. The same procedure runs
against a real store, against one that refuses, or with the steps of others between its calls.

## Main definitions

* `Procedure` — a finished computation, or a call with what follows each answer
* `Procedure.run` — the result when every call is served from a state
* `Procedure.mapCalls` — the same procedure over another language of calls
* `Procedure.handle` — the procedure in which every call is served by another procedure
-/

namespace TripRecorder

/-- A computation over calls whose answers have a type of their own. -/
inductive Procedure {Call : Type} (Answer : Call → Type) (α : Type) : Type where
  /-- The computation is finished. -/
  | done (result : α)
  /-- A call, and what follows its answer. -/
  | call (c : Call) (next : Answer c → Procedure Answer α)

namespace Procedure

variable {Call : Type} {Answer : Call → Type} {α β σ : Type}

/-- One procedure after another. -/
def bind : Procedure Answer α → (α → Procedure Answer β) → Procedure Answer β
  | done a, f => f a
  | call c next, f => call c fun answer => (next answer).bind f

instance : Monad (Procedure Answer) where
  pure := done
  bind := bind

/-- A single call. -/
def ask (c : Call) : Procedure Answer (Answer c) := call c done

/-- The result of a procedure whose calls are served from a state. -/
def run (serve : (c : Call) → σ → Answer c × σ) : Procedure Answer α → σ → α × σ
  | done a, s => (a, s)
  | call c next, s => (next (serve c s).1).run serve (serve c s).2

/-- A procedure over calls of one language as a procedure over calls of another, in which every
call has a counterpart. -/
def mapCalls {Other : Type} {OtherAnswer : Other → Type} (into : Call → Other)
    (back : (c : Call) → OtherAnswer (into c) → Answer c) :
    Procedure Answer α → Procedure OtherAnswer α
  | done a => done a
  | call c next => call (into c) fun answer => (next (back c answer)).mapCalls into back

/-- A procedure whose calls are served from a state by procedures over other calls. -/
def handle {Other : Type} {OtherAnswer : Other → Type}
    (serve : (c : Call) → σ → Procedure OtherAnswer (Answer c × σ)) :
    Procedure Answer α → σ → Procedure OtherAnswer (α × σ)
  | done a, s => done (a, s)
  | call c next, s => (serve c s).bind fun (answer, s) => (next answer).handle serve s

/-- A procedure for every element of a list, one after another. -/
def forEach {ι : Type} (xs : List ι) (f : ι → Procedure Answer Unit) : Procedure Answer Unit :=
  match xs with
  | [] => done ()
  | x :: rest => (f x).bind fun _ => forEach rest f

@[simp] theorem bind_done (a : α) (f : α → Procedure Answer β) : (done a).bind f = f a := rfl

@[simp] theorem bind_call (c : Call) (next : Answer c → Procedure Answer α)
    (f : α → Procedure Answer β) :
    (call c next).bind f = call c fun answer => (next answer).bind f := rfl

@[simp] theorem run_done (serve : (c : Call) → σ → Answer c × σ) (a : α) (s : σ) :
    (done a : Procedure Answer α).run serve s = (a, s) := rfl

@[simp] theorem run_call (serve : (c : Call) → σ → Answer c × σ) (c : Call)
    (next : Answer c → Procedure Answer α) (s : σ) :
    (call c next).run serve s = (next (serve c s).1).run serve (serve c s).2 := rfl

/-- A run of two procedures is the run of the second from where the first ended. -/
theorem run_bind (serve : (c : Call) → σ → Answer c × σ) (p : Procedure Answer α)
    (f : α → Procedure Answer β) (s : σ) :
    (p.bind f).run serve s = (f (p.run serve s).1).run serve (p.run serve s).2 := by
  induction p generalizing s with
  | done a => rfl
  | call c next ih => simp [ih]

end Procedure

end TripRecorder
