import TripRecorder.Proofs.Capture.Running
import TripRecorder.Proofs.Service.Requests

/-!
# Moves of a pump

All that happens to a pump is a list of moves, each at its time: readings arrive, one is taken in, a
tick is noticed, the sinks vanish. What a recorder does with its capture between requests is such a
move, and every step of a capture on the bench is some of them. A run is punctual if time passes
only while nothing is left to do: no reading waits, and no tick is due earlier.

## Main definitions

* `Pump.move`, `Pump.after` — a move of a pump, and a pump after some moves
* `Pump.arrivals`, `Pump.emissions` — the readings it accepted and the events it emitted, with the
  times of the moves
* `Pump.Punctual`, `Pump.Plays` — no time passes while something is left to do, and what a run of
  such moves comes to
* `Pump.OnGrid` — the next tick is due on the grid of the periods, and not before now

## Main results

* `Recorder.move_eq_onPump` — what a recorder does with its capture
* `CaptureBench.exists_plays_of_start` — all steps of the bench are a punctual run
-/

namespace TripRecorder

namespace Pump

/-- The pump makes a move. -/
def move (p : Pump) (now : Nat) : CaptureMove → Pump × List CaptureEvent
  | .offer readings => ((p.offer readings).1, [])
  | .take => p.step now
  | .tick => p.tick now
  | .starve => p.close now

/-- The readings that the pump accepts with a move. -/
def accepted (p : Pump) : CaptureMove → List Reading
  | .offer readings => if (p.offer readings).2 then readings else []
  | _ => []

/-- The pump after some moves. -/
def after (p : Pump) (moves : List (Nat × CaptureMove)) : Pump :=
  moves.foldl (fun p m => (p.move m.1 m.2).1) p

/-- The readings that were accepted with some moves, and when. -/
def arrivals (p : Pump) : List (Nat × CaptureMove) → List (Nat × Reading)
  | [] => []
  | (now, m) :: rest => (p.accepted m).map (now, ·) ++ (p.move now m).1.arrivals rest

/-- The events that some moves led to, and when. -/
def emissions (p : Pump) : List (Nat × CaptureMove) → List (Nat × CaptureEvent)
  | [] => []
  | (now, m) :: rest => (p.move now m).2.map (now, ·) ++ (p.move now m).1.emissions rest

/-- Nothing is left undone if time passes from one moment to another: no reading waits, and no tick
is due before. -/
def WaitsUntil (p : Pump) (now later : Nat) : Prop :=
  now = later ∨
    now < later ∧ (p.isRunning = true → p.queue = []) ∧ ∀ t, p.ticker = some t → later ≤ t.due

instance (p : Pump) (now later : Nat) : Decidable (p.WaitsUntil now later) :=
  inferInstanceAs (Decidable (_ ∨ _ ∧ (_ → _) ∧ ∀ t ∈ p.ticker, later ≤ t.due))

theorem waitsUntil_of_le {p : Pump} {now later : Nat} (hlater : now ≤ later)
    (hqueue : p.isRunning = true → p.queue = []) (hdue : ∀ t, p.ticker = some t → later ≤ t.due) :
    p.WaitsUntil now later :=
  (Nat.eq_or_lt_of_le hlater).imp_right fun hlt => ⟨hlt, hqueue, hdue⟩

/-- The moves are made between two moments, and nothing is left undone in between. -/
def Punctual (p : Pump) (now : Nat) : List (Nat × CaptureMove) → Nat → Prop
  | [], later => p.WaitsUntil now later
  | (time, m) :: rest, later => p.WaitsUntil now time ∧ (p.move time m).1.Punctual time rest later

instance decidablePunctual (p : Pump) (now : Nat) (moves : List (Nat × CaptureMove)) (later : Nat) :
    Decidable (p.Punctual now moves later) :=
  match moves with
  | [] => inferInstanceAs (Decidable (p.WaitsUntil now later))
  | (time, m) :: rest =>
    have := decidablePunctual (p.move time m).1 time rest later
    inferInstanceAs (Decidable (p.WaitsUntil now time ∧ _))

section

variable {p : Pump} {now middle later : Nat} {moves first rest : List (Nat × CaptureMove)}

@[simp] theorem after_nil : p.after [] = p := rfl

@[simp] theorem after_cons (m : Nat × CaptureMove) :
    p.after (m :: rest) = (p.move m.1 m.2).1.after rest := rfl

theorem after_append : p.after (first ++ rest) = (p.after first).after rest := List.foldl_append

theorem emissions_append :
    p.emissions (first ++ rest) = p.emissions first ++ (p.after first).emissions rest := by
  induction first generalizing p with
  | nil => rfl
  | cons m first ih => rw [List.cons_append, emissions, ih, ← List.append_assoc]; rfl

theorem WaitsUntil.trans (h : p.WaitsUntil now middle) (h' : p.WaitsUntil middle later) :
    p.WaitsUntil now later := by
  rcases h with rfl | ⟨hlt, hqueue, hdue⟩
  · exact h'
  · rcases h' with rfl | ⟨hlt', -, hdue'⟩
    · exact .inr ⟨hlt, hqueue, hdue⟩
    · exact .inr ⟨Nat.lt_trans hlt hlt', hqueue, hdue'⟩

theorem Punctual.append (h : p.Punctual now first middle)
    (h' : (p.after first).Punctual middle rest later) :
    p.Punctual now (first ++ rest) later := by
  induction first generalizing p now with
  | nil =>
    cases rest with
    | nil => exact h.trans h'
    | cons m rest => exact ⟨WaitsUntil.trans h h'.1, h'.2⟩
  | cons m first ih => exact ⟨h.1, ih h.2 h'⟩

/-- Moves that lead from one pump and time to another, and to some events. -/
structure Plays (p : Pump) (now : Nat) (moves : List (Nat × CaptureMove))
    (events : List CaptureEvent) (p' : Pump) (later : Nat) : Prop where
  after : p.after moves = p'
  events : (p.emissions moves).map Prod.snd = events
  punctual : p.Punctual now moves later

theorem plays_nil (p : Pump) (now : Nat) : p.Plays now [] [] p now := ⟨rfl, rfl, .inl rfl⟩

/-- One move, now. -/
theorem plays_move (p : Pump) (now : Nat) (m : CaptureMove) :
    p.Plays now [(now, m)] (p.move now m).2 (p.move now m).1 now where
  after := rfl
  events := by rw [emissions, emissions, List.append_nil, List.map_map]; exact List.map_id _
  punctual := ⟨.inl rfl, .inl rfl⟩

/-- Time passes, and nothing is left undone. -/
theorem WaitsUntil.plays (h : p.WaitsUntil now later) : p.Plays now [] [] p later := ⟨rfl, rfl, h⟩

theorem Plays.trans {p' p'' : Pump} {events events' : List CaptureEvent}
    (h : p.Plays now first events p' middle) (h' : p'.Plays middle rest events' p'' later) :
    p.Plays now (first ++ rest) (events ++ events') p'' later where
  after := by rw [after_append, h.after, h'.after]
  events := by rw [emissions_append, List.map_append, h.events, h.after, h'.events]
  punctual := h.punctual.append (h.after.symm ▸ h'.punctual)

end

/-! ### Tickers on the grid -/

/-- The next tick is a number of periods after the start, and not before now. -/
def OnGrid (p : Pump) (start period now : Nat) : Prop :=
  ∀ t, p.ticker = some t →
    t.period = period ∧ 0 < period ∧ now ≤ t.due ∧ ∃ k, t.due = start + k * period

section

variable {p : Pump} {start period now later : Nat}

theorem onGrid_start (threshold intervalMs now : Nat) :
    (Pump.start threshold intervalMs now).OnGrid now intervalMs now := by
  intro t ht
  simp only [Pump.start, Ticker.start?] at ht
  split at ht
  · cases ht
  · rename_i hpos
    obtain rfl := Option.some.inj ht
    exact ⟨rfl, Nat.pos_of_ne_zero hpos, Nat.le_refl now, 0, by rw [Nat.zero_mul, Nat.add_zero]⟩

theorem OnGrid.wait (h : p.OnGrid start period now) (hwaits : p.WaitsUntil now later) :
    p.OnGrid start period later := by
  rcases hwaits with rfl | ⟨-, -, hdue⟩
  · exact h
  · intro t ht
    obtain ⟨hperiod, hpos, -, hgrid⟩ := h t ht
    exact ⟨hperiod, hpos, hdue t ht, hgrid⟩

theorem OnGrid.of_ticker_eq {p' : Pump} (h : p.OnGrid start period now)
    (heq : p'.ticker = p.ticker) : p'.OnGrid start period now :=
  fun t ht => h t (heq ▸ ht)

/-- A tick that is noticed on the grid is noticed when it is due, and so the next one is on the grid
as well. -/
theorem OnGrid.fire {t : Ticker} (h : p.OnGrid start period now) (ht : p.ticker = some t)
    (hdue : t.due ≤ now) : t.due = now ∧ t.fire now = ⟨period, now + period⟩ := by
  obtain ⟨hperiod, -, hnow, -⟩ := h t ht
  obtain rfl := Nat.le_antisymm hdue hnow
  refine ⟨rfl, ?_⟩
  rw [Ticker.fire, if_neg (by omega), hperiod]

@[simp] theorem ticker_offer (readings : List Reading) :
    (p.offer readings).1.ticker = p.ticker := by
  unfold offer
  split <;> rfl

@[simp] theorem ticker_step : (p.step now).1.ticker = p.ticker := by
  unfold step
  split <;> rfl

@[simp] theorem ticker_settle : (p.settle now).1.ticker = p.ticker := by
  unfold settle
  split <;> rfl

theorem tick_of_due {t : Ticker} (ht : p.ticker = some t) (hdue : t.due ≤ now) :
    p.tick now = ({ p with intake := (p.intake.tick now).1, ticker := some (t.fire now) },
      (p.intake.tick now).2) := by
  rw [tick, ht]
  simp only [Ticker.isDue, decide_eq_true hdue, if_true]

/-- All that noticing a tick can come to. -/
theorem tick_cases (p : Pump) (now : Nat) :
    p.tick now = (p, []) ∨
    ∃ t, p.ticker = some t ∧ t.due ≤ now ∧
      p.tick now = ({ p with intake := (p.intake.tick now).1, ticker := some (t.fire now) },
        (p.intake.tick now).2) := by
  cases ht : p.ticker with
  | none => exact .inl (by rw [tick, ht])
  | some t =>
    by_cases hdue : t.due ≤ now
    · exact .inr ⟨t, rfl, hdue, tick_of_due ht hdue⟩
    · left
      rw [tick, ht]
      simp only [Ticker.isDue, decide_eq_false hdue, Bool.false_eq_true, if_false]

theorem OnGrid.move (h : p.OnGrid start period now) (m : CaptureMove) :
    (p.move now m).1.OnGrid start period now := by
  cases m with
  | offer readings => exact h.of_ticker_eq (ticker_offer readings)
  | take => exact h.of_ticker_eq ticker_step
  | tick =>
    simp only [Pump.move]
    rcases tick_cases p now with hnone | ⟨t, ht, hdue, htick⟩
    · rw [hnone]
      exact h
    · obtain ⟨-, hpos, -, k, hgrid⟩ := h t ht
      obtain ⟨hnow, hfire⟩ := h.fire ht hdue
      rw [htick, hfire]
      intro t' ht'
      obtain rfl := Option.some.inj ht'
      have hnext : now + period = start + (k + 1) * period := by
        rw [← hnow, hgrid, Nat.succ_mul, Nat.add_assoc]
      exact ⟨rfl, hpos, Nat.le_add_right now period, k + 1, hnext⟩
  | starve =>
    intro t ht
    have hended : (p.close now).1.isRunning = false := isRunning_close
    rw [isRunning, show (p.close now).1.ticker = some t from ht] at hended
    cases hended

theorem OnGrid.after {moves : List (Nat × CaptureMove)} (h : p.OnGrid start period now)
    (hpunctual : p.Punctual now moves later) : (p.after moves).OnGrid start period later := by
  induction moves generalizing p now with
  | nil => exact h.wait hpunctual
  | cons m rest ih => exact ih ((h.wait hpunctual.1).move m.2) hpunctual.2

/-! ### What happens at once -/

/-- Readings that wait are taken in one after another. -/
theorem exists_plays_settle (p : Pump) (now : Nat) :
    ∃ moves, p.Plays now moves (p.settle now).2 (p.settle now).1 now := by
  obtain ⟨intake, queue, ticker⟩ := p
  cases ticker with
  | none => exact ⟨[], plays_nil _ now⟩
  | some t =>
    induction queue generalizing intake with
    | nil => exact ⟨[], plays_nil _ now⟩
    | cons r rest ih =>
      obtain ⟨moves, hrest⟩ := ih (intake.handle now r).1
      exact ⟨_, (plays_move ⟨intake, r :: rest, some t⟩ now .take).trans hrest⟩

/-- Nothing waits after the readings were taken in, unless the pump does not run. -/
theorem queue_settle (h : p.isRunning = true) : (p.settle now).1.queue = [] := by
  rw [settle, if_pos h]

/-- Ticks are noticed when they are due, and none that is due until some time is left. -/
theorem exists_plays_ticksUntil (h : p.OnGrid start period now)
    (hqueue : p.isRunning = true → p.queue = []) (time fuel : Nat) (htime : now ≤ time)
    (hfuel : ∀ t, p.ticker = some t → time < t.due + fuel * period) :
    ∃ moves, p.Plays now moves (ticksUntil time fuel p).2 (ticksUntil time fuel p).1 time := by
  -- By the ticks that are left; before each of them time passes until it is due.
  induction fuel generalizing p now with
  | zero =>
    refine ⟨[], WaitsUntil.plays (waitsUntil_of_le htime hqueue fun t ht => ?_)⟩
    have hdue := hfuel t ht
    rw [Nat.zero_mul, Nat.add_zero] at hdue
    exact Nat.le_of_lt hdue
  | succ fuel ih =>
    rw [ticksUntil]
    cases ht : p.ticker with
    | none => exact ⟨[], WaitsUntil.plays (waitsUntil_of_le htime hqueue (by simp [ht]))⟩
    | some t =>
      obtain ⟨-, -, hnow, -⟩ := h t ht
      simp only
      by_cases hdue : t.due ≤ time
      · rw [if_pos hdue]
        have hwaits : p.WaitsUntil now t.due := by
          refine waitsUntil_of_le hnow hqueue fun t' ht' => ?_
          exact Option.some.inj (ht.symm.trans ht') ▸ Nat.le_refl t.due
        have hgrid := h.wait hwaits
        have htick := tick_of_due ht (Nat.le_refl t.due)
        rw [(hgrid.fire ht (Nat.le_refl t.due)).2] at htick
        have hleft (t' : Ticker) (ht' : (p.tick t.due).1.ticker = some t') :
            time < t'.due + fuel * period := by
          rw [htick] at ht'
          obtain rfl := Option.some.inj ht'
          have hall := hfuel t ht
          rw [Nat.succ_mul] at hall
          simp only
          omega
        have hnone (hrunning : (p.tick t.due).1.isRunning = true) :
            (p.tick t.due).1.queue = [] := by
          rw [htick]
          exact hqueue (isRunning_tick ▸ hrunning)
        obtain ⟨moves, hrest⟩ := ih (hgrid.move .tick) hnone hdue hleft
        exact ⟨_, (hwaits.plays.trans (plays_move p t.due .tick)).trans hrest⟩
      · rw [if_neg hdue]
        refine ⟨[], WaitsUntil.plays (waitsUntil_of_le htime hqueue fun t' ht' => ?_)⟩
        obtain rfl := Option.some.inj (ht.symm.trans ht')
        exact Nat.le_of_not_le hdue

/-- When time passes, what waits is taken in at once, and the ticks are noticed when they are
due. -/
theorem exists_plays_advance (h : p.OnGrid start period now) (ms : Nat) :
    ∃ moves, p.Plays now moves (p.advance now ms).2 (p.advance now ms).1 (now + ms) := by
  obtain ⟨moves, hsettle⟩ := exists_plays_settle p now
  have hgrid : (p.settle now).1.OnGrid start period now := h.of_ticker_eq ticker_settle
  have hqueue (hrunning : (p.settle now).1.isRunning = true) : (p.settle now).1.queue = [] :=
    queue_settle (isRunning_settle ▸ hrunning)
  have hticks := exists_plays_ticksUntil hgrid hqueue (now + ms)
  rw [advance]
  simp only
  cases ht : (p.settle now).1.ticker with
  | none =>
    obtain ⟨ticks, hticks⟩ := hticks 0 (Nat.le_add_right now ms) fun t ht' =>
      absurd (ht.symm.trans ht') (Option.some_ne_none t).symm
    exact ⟨_, hsettle.trans hticks⟩
  | some t =>
    -- There is fuel for every tick until then.
    have hfuel : now + ms < t.due + ((now + ms - t.due) / t.period + 1) * period := by
      obtain ⟨hperiod, hpos, -⟩ := hgrid t ht
      have hroom := Nat.lt_mul_div_succ (now + ms - t.due) hpos
      rw [Nat.mul_comm] at hroom
      rw [hperiod]
      omega
    obtain ⟨ticks, hticks⟩ := hticks ((now + ms - t.due) / t.period + 1)
      (Nat.le_add_right now ms) fun t' ht' => by
        obtain rfl := Option.some.inj (ht.symm.trans ht')
        exact hfuel
    exact ⟨_, hsettle.trans hticks⟩

end

end Pump

/-! ### The moves of a bench and of a recorder -/

/-- What comes in through sinks is one arrival. -/
theorem plays_injectAll (sensors : ScriptedSensors) (attachment source : Nat) (p : Pump)
    (what : List Injection) (now : Nat) :
    p.Plays now [(now, .offer (Injection.reaching sensors attachment source what))] []
      (injectAll sensors attachment source p what).1 now := by
  have hplays := p.plays_move now (.offer (Injection.reaching sensors attachment source what))
  cases hrunning : p.isRunning with
  | true =>
    rw [injectAll_of_running hrunning]
    rw [Pump.move, Pump.offer_of_running hrunning] at hplays
    exact hplays
  | false =>
    rw [injectAll_of_ended hrunning]
    rw [Pump.move, Pump.offer_of_ended hrunning] at hplays
    exact hplays

namespace CaptureBench

variable {b : CaptureBench} {start period : Nat}

/-- A step of the bench is a punctual run. -/
theorem exists_plays_step (h : b.pump.OnGrid start period b.now) (hold : Bool) (s : CaptureStep) :
    ∃ moves, b.pump.Plays b.now moves (b.step hold s).2.events (b.step hold s).1.pump
      (b.step hold s).1.now := by
  -- Unless they are held back, the readings that wait are taken in at the end of the step.
  suffices hheld : ∃ moves, b.pump.Plays b.now moves (b.step true s).2.events
      (b.step true s).1.pump (b.step true s).1.now by
    cases hold with
    | true => exact hheld
    | false =>
      obtain ⟨moves, hfirst⟩ := hheld
      obtain ⟨rest, hsettle⟩ := (b.step true s).1.pump.exists_plays_settle (b.step true s).1.now
      exact ⟨_, hfirst.trans hsettle⟩
  cases s with
  | inject source what => exact ⟨_, plays_injectAll _ _ source b.pump what b.now⟩
  | advance ms => exact Pump.exists_plays_advance h ms
  | dropSinks => exact ⟨_, b.pump.plays_move b.now .starve⟩
  | close =>
    cases hclosed : b.closed with
    | true =>
      simp only [step, hclosed, if_true]
      exact ⟨_, b.pump.plays_nil b.now⟩
    | false =>
      simp only [step, hclosed]
      exact ⟨_, b.pump.plays_move b.now .starve⟩

/-- The events of some steps. -/
def emitted (b : CaptureBench) : List (Bool × CaptureStep) → List CaptureEvent
  | [] => []
  | x :: rest => (b.step x.1 x.2).2.events ++ (b.step x.1 x.2).1.emitted rest

/-- Some steps of the bench are a punctual run. -/
theorem exists_plays_steps (h : b.pump.OnGrid start period b.now)
    (script : List (Bool × CaptureStep)) :
    ∃ moves, b.pump.Plays b.now moves (b.emitted script) (b.steps script).pump
      (b.steps script).now := by
  induction script generalizing b with
  | nil => exact ⟨[], b.pump.plays_nil b.now⟩
  | cons x rest ih =>
    obtain ⟨first, hfirst⟩ := exists_plays_step h x.1 x.2
    have hgrid := h.after hfirst.punctual
    rw [hfirst.after] at hgrid
    obtain ⟨later, hlater⟩ := ih hgrid
    exact ⟨_, hfirst.trans hlater⟩

theorem now_of_start {config : CaptureConfig} {sensors : ScriptedSensors}
    (h : CaptureBench.start config sensors = .ok b) : b.now = 0 := by
  unfold CaptureBench.start at h
  split at h
  · cases h
  · obtain rfl := Except.ok.inj h
    rfl

/-- Whatever is done with a capture on the bench is a punctual run of its pump. -/
theorem exists_plays_of_start {config : CaptureConfig} {sensors : ScriptedSensors}
    (hstart : CaptureBench.start config sensors = .ok b) (script : List (Bool × CaptureStep)) :
    ∃ moves, (Pump.start config.flushThreshold config.flushIntervalMs 0).Plays 0 moves
      (b.emitted script) (b.steps script).pump (b.steps script).now := by
  have hnow : b.now = 0 := now_of_start hstart
  have hpump := (start_eq_ok hstart).2
  have hgrid := Pump.onGrid_start config.flushThreshold config.flushIntervalMs 0
  rw [← hpump, ← hnow] at hgrid
  rw [← hpump, ← hnow]
  exact exists_plays_steps hgrid script

end CaptureBench

/-- What a recorder does with its capture between requests is a move of the pump. -/
theorem Recorder.move_eq_onPump (r : Recorder) (now : Nat) (m : CaptureMove) :
    r.move now m = r.onPump fun p => p.move now m := by
  cases m with
  | offer readings =>
    rw [move, offer, onPump]
    cases r.capture with
    | none => rfl
    | some c => simp [Pump.move]
  | _ => rfl

end TripRecorder
