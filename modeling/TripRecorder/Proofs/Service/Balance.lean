import TripRecorder.Proofs.Service.Run

/-!
# Keeping the device awake

A recorder asks for the device to be kept awake when sensors are attached, and lets it sleep when
they are detached. A pause has let it sleep already, but a stop lets it sleep whether or not the
session is paused. So the requests are balanced exactly as long as no paused session is stopped.

## Main definitions

* `acquired`, `released`, `net` — how often the device was kept awake and let sleep
* `Guarded` — the device was never let sleep without being kept awake before
* `Happening.stopsPaused` — a paused session is stopped

## Main results

* `Service.Step.shifts` — what a step does to the balance
* `Service.Run.net_eq`, `Service.Run.guarded_iff` — what a run has done to it
* `Service.net_stop_paused` — a run after which the device was let sleep once too often
-/

namespace TripRecorder

namespace LoggedCall

/-- The call keeps the device awake. -/
def acquires : LoggedCall → Bool
  | ⟨.acquire, _⟩ => true
  | _ => false

/-- The call lets the device sleep. -/
def releases : LoggedCall → Bool
  | ⟨.release, _⟩ => true
  | _ => false

end LoggedCall

/-- How often the device was kept awake. -/
def acquired (calls : List LoggedCall) : Nat := calls.countP LoggedCall.acquires

/-- How often the device was let sleep. -/
def released (calls : List LoggedCall) : Nat := calls.countP LoggedCall.releases

/-- How much more often the device was kept awake than let sleep. -/
def net (calls : List LoggedCall) : Int := acquired calls - released calls

/-- At no time was the device let sleep more often than it was kept awake. -/
def Guarded (calls : List LoggedCall) : Prop := ∀ before, before <+: calls → 0 ≤ net before

theorem net_append (calls calls' : List LoggedCall) :
    net (calls ++ calls') = net calls + net calls' := by
  simp only [net, acquired, released, List.countP_append, Int.natCast_add]
  omega

theorem Guarded.nonneg {calls : List LoggedCall} (h : Guarded calls) : 0 ≤ net calls :=
  h calls (List.prefix_refl _)

theorem Guarded.of_prefix {calls calls' : List LoggedCall} (h : Guarded calls')
    (hcalls : calls <+: calls') : Guarded calls :=
  fun before hbefore => h before (hbefore.trans hcalls)

theorem Guarded.append {calls : List LoggedCall} (h : Guarded calls) {c : LoggedCall}
    (hc : 0 ≤ net (calls ++ [c])) : Guarded (calls ++ [c]) := by
  intro before hbefore
  rcases List.prefix_concat_iff.mp hbefore with rfl | hbefore
  · exact hc
  · exact h before hbefore

namespace RecorderCall

/-- The call neither keeps the device awake nor lets it sleep. -/
def Calm : RecorderCall → Prop
  | .acquire => False
  | .release => False
  | _ => True

theorem Recording.calm {c : RecorderCall} (h : c.Recording) : c.Calm := by
  cases c <;> trivial

theorem Attaching.calm {c : RecorderCall} (h : c.Attaching) : c.Calm := by
  cases c <;> trivial

end RecorderCall

namespace Logged

variable {w w' w'' : Logged}

/-- Some calls leave the balance as it is. -/
def Balanced (w w' : Logged) : Prop :=
  net w'.calls = net w.calls ∧ (Guarded w.calls → Guarded w'.calls)

theorem Balanced.refl (w : Logged) : w.Balanced w := ⟨rfl, id⟩

theorem Balanced.trans (h : w.Balanced w') (h' : w'.Balanced w'') : w.Balanced w'' :=
  ⟨h'.1.trans h.1, fun hw => h'.2 (h.2 hw)⟩

theorem balanced_of_calm {c : RecorderCall} {answer : RecorderAnswer c}
    (h : Acts c w answer w') (hc : c.Calm) : w.Balanced w' := by
  have hnet : net [⟨c, answer⟩] = 0 := by
    cases c <;> first | rfl | exact hc.elim
  have heq : net w'.calls = net w.calls := by
    rw [h.2, net_append, hnet, Int.add_zero]
  refine ⟨heq, fun hw => ?_⟩
  rw [h.2] at heq ⊢
  exact hw.append (heq ▸ hw.nonneg)

/-- Calls that are all calm leave the balance as it is. -/
theorem balanced_of_asks {α : Type} {p : Recording α} {a : α} (h : p.Ends Acts w a w')
    (hp : p.Asks RecorderCall.Calm) : w.Balanced w' :=
  h.of_asks hp Balanced.refl Balanced.trans fun _ _ _ _ hc hcall => balanced_of_calm hcall hc

theorem net_acquire (h : Acts .acquire w () w') :
    net w'.calls = net w.calls + 1 ∧ (Guarded w.calls → Guarded w'.calls) := by
  have heq : net w'.calls = net w.calls + 1 := by
    rw [h.2, net_append]
    rfl
  refine ⟨heq, fun hw => ?_⟩
  have hnonneg := hw.nonneg
  rw [h.2] at heq ⊢
  exact hw.append (by omega)

theorem net_release (h : Acts .release w () w') :
    net w'.calls = net w.calls - 1 ∧ (Guarded w.calls → 1 ≤ net w.calls → Guarded w'.calls) := by
  have heq : net w'.calls = net w.calls - 1 := by
    rw [h.2, net_append]
    rfl
  refine ⟨heq, fun hw hpos => ?_⟩
  rw [h.2] at heq ⊢
  exact hw.append (by omega)

end Logged

namespace Session

/-- How often a device should be kept awake: once while a session is running. -/
def held (s : Session) : Int := if s.state = .running then 1 else 0

end Session

/-- A paused session is stopped. -/
def Happening.stopsPaused : Happening → Bool
  | .handled before request _ => request.stops && decide (before = .paused)
  | _ => false

/-- What a step does to the balance: it changes as the session does, and there may be an excess of
times the device is let sleep. -/
structure Session.Shifts (before after : Session) (excess : Nat) (w w' : Logged) : Prop where
  net_eq : net w'.calls = net w.calls + (after.held - before.held) - excess
  guarded : excess = 0 → net w.calls = before.held → Guarded w.calls → Guarded w'.calls
  asleep : excess ≠ 0 → after.held = 0

namespace Recorder

variable {r r' : Recorder} {w w' : Logged} {now : Nat}

theorem balanced_attachTo {id : MeasurementId} {attached : Except CaptureError Nat}
    (h : (attachTo id).run.Ends Logged.Acts w attached w') : w.Balanced w' :=
  Logged.balanced_of_asks h ((asks_attachTo id).mono fun _ hc => hc.calm)

theorem balanced_detach (h : (r.detach now).Ends Logged.Acts w r' w') : w.Balanced w' :=
  Logged.balanced_of_asks h ((asks_detach r now).mono fun _ hc => hc.calm)

theorem shifts_of_balanced {before after : Session} (h : w.Balanced w')
    (hheld : after.held = before.held) : before.Shifts after 0 w w' :=
  ⟨by rw [h.1, hheld]; omega, fun _ _ hw => h.2 hw, fun h => absurd rfl h⟩

/-- Sensors are attached: the device is kept awake. -/
theorem shifts_of_acquire {before after : Session} {w₁ w₂ : Logged} (h : w.Balanced w₁)
    (hacquire : Logged.Acts .acquire w₁ () w₂) (h' : w₂.Balanced w')
    (hheld : after.held = before.held + 1) : before.Shifts after 0 w w' := by
  obtain ⟨hnet, hguarded⟩ := Logged.net_acquire hacquire
  exact ⟨by rw [h'.1, hnet, h.1, hheld]; omega, fun _ _ hw => h'.2 (hguarded (h.2 hw)),
    fun h => absurd rfl h⟩

/-- Sensors are detached: the device is let sleep, once too often if the session was not running. -/
theorem shifts_of_release {before after : Session} {w₁ w₂ : Logged} {excess : Nat}
    (h : w.Balanced w₁) (hrelease : Logged.Acts .release w₁ () w₂) (h' : w₂.Balanced w')
    (hafter : after.held = 0) (hbefore : before.held = 1 - excess) :
    before.Shifts after excess w w' := by
  obtain ⟨hnet, hguarded⟩ := Logged.net_release hrelease
  refine ⟨by rw [h'.1, hnet, h.1, hafter, hbefore]; omega, fun hexcess hw hcalls => ?_,
    fun _ => hafter⟩
  exact h'.2 (hguarded (h.2 hcalls) (by rw [h.1, hw, hbefore, hexcess]; decide))

theorem shifts_start {id : MeasurementId} {result : Except CaptureError Unit}
    (hr : r.session.Settled) (h : (r.start id now).Ends Logged.Acts w (result, r') w') :
    r.session.Shifts r'.session 0 w w' := by
  rcases ends_start h with ⟨-, -, rfl, rfl⟩ | ⟨hidle, attached, w₁, hattach, hrest⟩
  · exact shifts_of_balanced (Logged.Balanced.refl w') rfl
  · have hattached := balanced_attachTo hattach
    have hsession : r.session.held = 0 := by rw [Session.held, hidle]; rfl
    rcases hrest with ⟨e, -, -, rfl, rfl⟩ | ⟨sources, w₂, told, -, hacquire, htold, -, rfl⟩
    · exact shifts_of_balanced hattached hsession.symm
    · exact shifts_of_acquire hattached hacquire (Logged.balanced_of_calm htold trivial)
        (by rw [hsession]; rfl)

theorem shifts_pause {result : Except CaptureError Unit}
    (h : (r.pause now).Ends Logged.Acts w (result, r') w') :
    r.session.Shifts r'.session 0 w w' := by
  rcases ends_pause h with ⟨-, -, rfl, rfl⟩ | ⟨id, w₁, hsession, hdetach, hrelease, -⟩
  · exact shifts_of_balanced (Logged.Balanced.refl w') rfl
  · have hdetached := balanced_detach hdetach
    obtain ⟨stats, rfl⟩ := ends_detach_stats hdetach
    rw [hsession]
    exact shifts_of_release hdetached hrelease (Logged.Balanced.refl w') rfl rfl

theorem shifts_resume {result : Except CaptureError Unit}
    (h : (r.resume now).Ends Logged.Acts w (result, r') w') :
    r.session.Shifts r'.session 0 w w' := by
  rcases ends_resume h with ⟨-, -, rfl, rfl⟩ | ⟨id, attached, w₁, hsession, hattach, hrest⟩
  · exact shifts_of_balanced (Logged.Balanced.refl w') rfl
  · have hattached := balanced_attachTo hattach
    rcases hrest with ⟨e, -, -, rfl, rfl⟩ | ⟨sources, -, hacquire, -, rfl⟩
    · exact shifts_of_balanced hattached rfl
    · rw [hsession]
      exact shifts_of_acquire hattached hacquire (Logged.Balanced.refl w') rfl

/-- A stop lets the device sleep, also if the session was paused. -/
theorem shifts_stop {result : Except CaptureError StopReport} (hr : r.session.Settled)
    (h : (r.stop now).Ends Logged.Acts w (result, r') w') :
    r.session.Shifts r'.session (if r.session.state = .paused then 1 else 0) w w' := by
  rcases ends_stop h with ⟨hstate, -, rfl, rfl⟩ |
    ⟨id, stats, w₁, w₂, w₃, answer, told, -, hstate, hdetach, hrelease, hfinish, htold, -, rfl⟩
  · have hnot : r'.session.state ≠ .paused := by
      rcases hr with hidle | ⟨id, hrunning | hpaused⟩
      · rw [hidle]
        exact nofun
      · rw [hrunning]
        exact nofun
      · rw [hpaused] at hstate
        exact absurd (List.mem_cons_of_mem _ List.mem_cons_self) (hstate id rfl)
    rw [if_neg hnot]
    exact shifts_of_balanced (Logged.Balanced.refl w') rfl
  · have hdetached := balanced_detach hdetach
    have hafter := (Logged.balanced_of_calm hfinish trivial).trans
      (Logged.balanced_of_calm htold trivial)
    -- A running session was held once, and a paused one is let go although it was not held.
    refine shifts_of_release hdetached hrelease hafter rfl ?_
    rcases List.mem_cons.mp hstate with hrunning | hpaused
    · rw [Session.held, hrunning]
      rfl
    · rw [Session.held, List.mem_singleton.mp hpaused]
      rfl

/-- What a request does to the balance. -/
theorem shifts_respond {request : Request} {reply : RecorderReply} (hr : r.session.Settled)
    (h : (r.respond now request).Ends Logged.Acts w (reply, r') w') :
    r.session.Shifts r'.session
      (if (Happening.handled r.session.state request reply).stopsPaused then 1 else 0) w w' := by
  have hrespond := ends_respond h
  cases request with
  | start id =>
    obtain ⟨result, -, hstart⟩ := hrespond
    exact shifts_start hr hstart
  | pause =>
    obtain ⟨result, -, hpause⟩ := hrespond
    exact shifts_pause hpause
  | resume =>
    obtain ⟨result, -, hresume⟩ := hrespond
    exact shifts_resume hresume
  | stop =>
    obtain ⟨result, -, hstop⟩ := hrespond
    simpa [Happening.stopsPaused, Request.stops] using shifts_stop hr hstop
  | ping =>
    obtain ⟨-, rfl, rfl⟩ := hrespond
    exact shifts_of_balanced (Logged.Balanced.refl w') rfl
  | shutDown =>
    obtain ⟨-, hshutDown⟩ := hrespond
    rcases ends_shutDown hshutDown with ⟨hstate, rfl, rfl⟩ | ⟨-, result, hstop⟩
    · -- A service that ends without a session to stop leaves the device as it is.
      have hnot : r'.session.state ≠ .paused := fun hpaused =>
        hstate (hpaused ▸ List.mem_cons_of_mem _ List.mem_cons_self)
      simpa [Happening.stopsPaused, Request.stops, hnot] using
        shifts_of_balanced (Logged.Balanced.refl w') (rfl : r'.session.held = _)
    · simpa [Happening.stopsPaused, Request.stops] using shifts_stop hr hstop

end Recorder

namespace Service

variable {s s' : Service} {happening : Happening} {happenings : List Happening}

/-- What a step does to the balance. -/
theorem Step.shifts (h : Step s happening s') (hs : s.recorder.session.Settled) :
    s.recorder.session.Shifts s'.recorder.session (if happening.stopsPaused then 1 else 0)
      s.world s'.world := by
  cases h with
  | request request now h => exact Recorder.shifts_respond hs h
  | @event r w r' w' h =>
    have hcalm := Logged.balanced_of_asks h
      ((Recorder.asks_handleNext r).mono fun _ hc => hc.recording.calm)
    exact Recorder.shifts_of_balanced hcalm (congrArg _ (Recorder.session_handleNext h))
  | @capture r w move now =>
    exact Recorder.shifts_of_balanced (Logged.Balanced.refl w)
      (congrArg _ (Recorder.session_move r now move))

/-- After any run, the device was kept awake more often than let sleep by one if a session is
running, less the times a paused session was stopped. -/
theorem Run.net_eq {config : RecorderConfig} {store : Store}
    (h : Run (fresh config store) happenings s) :
    net s.world.calls =
      s.recorder.session.held - (happenings.countP Happening.stopsPaused : Nat) := by
  generalize hfresh : fresh config store = first at h
  induction h with
  | nil =>
    subst hfresh
    rfl
  | snoc hrun hstep ih =>
    subst hfresh
    have hnet := (hstep.shifts (hrun.settled (settled_fresh config store))).net_eq
    rw [hnet, ih, List.countP_append, List.countP_singleton]
    omega

/-- The device was never let sleep without being kept awake before exactly as long as no paused
session was stopped. -/
theorem Run.guarded_iff {config : RecorderConfig} {store : Store}
    (h : Run (fresh config store) happenings s) :
    Guarded s.world.calls ↔ happenings.countP Happening.stopsPaused = 0 := by
  generalize hfresh : fresh config store = first at h
  induction h with
  | nil =>
    subst hfresh
    refine iff_of_true (fun before hbefore => ?_) rfl
    rw [List.prefix_nil.mp hbefore]
    decide
  | @snoc happenings s₁ happening s₂ hrun hstep ih =>
    subst hfresh
    have hshifts := hstep.shifts (hrun.settled (settled_fresh config store))
    have hnet := hrun.net_eq
    rw [List.countP_append, List.countP_singleton]
    constructor
    · intro hguarded
      -- The balance after the first stop of a paused session is negative already.
      have hbefore := ih.mp (hguarded.of_prefix hstep.calls_prefix)
      by_cases hstops : happening.stopsPaused
      · have hnonneg := hguarded.nonneg
        have hasleep := hshifts.asleep (by simp [hstops])
        rw [hshifts.net_eq, hnet, hasleep, hbefore, if_pos hstops] at hnonneg
        omega
      · rw [hbefore, if_neg hstops]
    · intro hstops
      have hbefore : happenings.countP Happening.stopsPaused = 0 := by omega
      rw [hbefore] at hnet
      exact hshifts.guarded (by omega) (hnet.trans (Int.sub_zero _)) (ih.mpr hbefore)

/-- The device is kept awake once while a session is running and not at all otherwise, and it was
never let sleep without being kept awake before, exactly as long as no paused session was stopped.
Each such stop lets it sleep once too often. -/
theorem Run.balance_iff {config : RecorderConfig} {store : Store}
    (h : Run (fresh config store) happenings s) :
    ((acquired s.world.calls : Int) - released s.world.calls =
        (if s.recorder.session.state = .running then 1 else 0) -
          (happenings.countP Happening.stopsPaused : Nat)) ∧
    ((acquired s.world.calls : Int) - released s.world.calls =
        (if s.recorder.session.state = .running then 1 else 0) ↔
      happenings.countP Happening.stopsPaused = 0) ∧
    ((∀ before, before <+: s.world.calls → released before ≤ acquired before) ↔
      happenings.countP Happening.stopsPaused = 0) := by
  have hnet := h.net_eq
  rw [net, Session.held] at hnet
  refine ⟨hnet, by omega, Iff.trans ?_ h.guarded_iff⟩
  refine forall₂_congr fun before _ => ?_
  rw [net]
  omega

/-- A recorder that starts, pauses, resumes and stops lets the device sleep as often as it kept it
awake. -/
theorem balance_stop_resumed :
    ∃ happenings s, Run (fresh ⟨1, 1, 1, 1⟩ oneOpen) happenings s ∧
      happenings.length = 4 ∧ s.recorder.session.state = .idle ∧
      (acquired s.world.calls : Int) - released s.world.calls = 0 := by
  have hrun := Run.nil (s := fresh ⟨1, 1, 1, 1⟩ oneOpen)
    |>.snoc (step_respond (.start ⟨1⟩) 0 rfl)
    |>.snoc (step_respond .pause 1 rfl)
    |>.snoc (step_respond .resume 2 rfl)
    |>.snoc (step_respond .stop 3 rfl)
  exact ⟨_, _, hrun, rfl, rfl, hrun.balance_iff.2.1.mpr rfl⟩

/-- A recorder that stops while it is paused lets the device sleep twice, and kept it awake only
once. -/
theorem net_stop_paused :
    ∃ s, Run (fresh ⟨1, 1, 1, 1⟩ oneOpen)
        [.handled .idle (.start ⟨1⟩) (.finished (.ok ())),
          .handled .running .pause (.finished (.ok ())),
          .handled .paused .stop (.stopped (.ok ⟨⟨1⟩, true, 0⟩))] s ∧
      s.recorder.session.state = .idle ∧
      acquired s.world.calls = 1 ∧ released s.world.calls = 2 ∧ ¬ Guarded s.world.calls := by
  have hrun := Run.nil (s := fresh ⟨1, 1, 1, 1⟩ oneOpen)
    |>.snoc (step_respond (.start ⟨1⟩) 0 rfl)
    |>.snoc (step_respond .pause 1 rfl)
    |>.snoc (step_respond .stop 2 rfl)
  exact ⟨_, hrun, rfl, rfl, rfl, fun h => absurd h.nonneg (by decide)⟩

end Service

end TripRecorder
