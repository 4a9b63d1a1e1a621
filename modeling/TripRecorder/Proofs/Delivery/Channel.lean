import TripRecorder.Delivery.Observer
import TripRecorder.Proofs.Delivery.Snapshot

/-!
# What one observer hears of a channel

Observers are registered and unregistered, and messages are delivered, in any order and any number
of times. Observers may register and unregister others, and themselves, while they are told. An
observer that refuses a message is removed at once, so it hears nothing more before somebody
registers it again: what it has accepted since its last registration has no gaps.

## Main definitions

* `RegistryTouch`, `Registry.touched` — what is done to a registry, one touch after another
* `RegisteredAnew` — an observer comes back
* `ChannelEvent`, `ChannelRun` — what happens at a channel
* `Answers` — the messages that one observer was told, each with its answer
* `Mailbox.Serves`, `LineWriter.Serves` — an observer that is asked by nobody else

## Main results

* `registeredAnew_of_mem` — nobody is registered who was not registered anew
* `ChannelRun.map_fst_answers` — who is told what
* `ChannelRun.answers_eq` — who has not been registered anew has accepted everything
* `Mailbox.Serves.sent`, `LineWriter.Serves.sent` — what becomes of the messages accepted
* `ChannelRun.gapless` — all of it, for every part of every run
-/

namespace TripRecorder

variable {named : Nat → String} {key : Nat} {r r' : Registry} {message : Message}

/-! ### Touches of a registry -/

/-- What is done to a registry, by anybody. -/
inductive RegistryTouch where
  | change (c : RegistryChange)
  | discard (key : Nat)
deriving DecidableEq, Repr

/-- The registry after a touch. -/
def RegistryTouch.apply (named : Nat → String) (r : Registry) : RegistryTouch → Registry
  | change c => c.apply named r
  | discard key => r.discard key

namespace Registry

/-- The keys of the observers. -/
def keys (r : Registry) : List Nat := r.observers.map fun o => o.key

/-- The registry after some touches. -/
def touched (named : Nat → String) (r : Registry) (touches : List RegistryTouch) : Registry :=
  touches.foldl (RegistryTouch.apply named) r

theorem touched_append (first rest : List RegistryTouch) :
    r.touched named (first ++ rest) = (r.touched named first).touched named rest :=
  List.foldl_append ..

theorem touched_changes (changes : List RegistryChange) :
    r.touched named (changes.map .change) = changes.foldl (RegistryChange.apply named) r :=
  List.foldl_map ..

theorem Reachable.touched (h : Reachable named r) (touches : List RegistryTouch) :
    Reachable named (r.touched named touches) := by
  induction touches generalizing r with
  | nil => exact h
  | cons touch rest ih =>
    refine ih ?_
    cases touch with
    | change c => exact h.change c
    | discard key => exact h.discard key

theorem not_mem_keys_discard (r : Registry) (key : Nat) : key ∉ (r.discard key).keys := by
  rw [keys, observers_discard]
  intro hmem
  obtain ⟨o, ho, hkey⟩ := List.mem_map.mp hmem
  exact absurd hkey (by simpa using (List.mem_filter.mp ho).2)

/-- A single touch registers nobody but the observer of a registration that is not turned down. -/
theorem mem_keys_apply {touch : RegistryTouch} (h : key ∈ (touch.apply named r).keys) :
    key ∈ r.keys ∨
      touch = .change (.register key) ∧ (r.register ⟨key, named key⟩).2 = true := by
  cases touch with
  | discard other => exact .inl ((List.filter_sublist.map _).subset h)
  | change c =>
    cases c with
    | unregister id => exact .inl ((List.filter_sublist.map _).subset h)
    | register other =>
      rw [keys, RegistryTouch.apply, RegistryChange.apply, observers_register] at h
      by_cases htaken : r.observers.any fun o => o.id == (⟨other, named other⟩ : Registered).id
      · rw [if_pos htaken] at h
        exact .inl h
      · rw [if_neg htaken, List.map_append, List.mem_append] at h
        rcases h with h | h
        · exact .inl h
        · obtain rfl : key = other := List.mem_singleton.mp h
          exact .inr ⟨rfl, by rw [register, if_neg htaken]⟩

end Registry

/-- One of the touches registers an observer, and is not turned down. -/
def RegisteredAnew (named : Nat → String) (key : Nat) (r : Registry)
    (touches : List RegistryTouch) : Prop :=
  ∃ first rest, touches = first ++ .change (.register key) :: rest ∧
    ((r.touched named first).register ⟨key, named key⟩).2 = true

section

variable {touches first rest : List RegistryTouch}

theorem RegisteredAnew.append_right (h : RegisteredAnew named key r first)
    (rest : List RegistryTouch) : RegisteredAnew named key r (first ++ rest) := by
  obtain ⟨before, after, rfl, hregister⟩ := h
  exact ⟨before, after ++ rest, by rw [List.append_assoc, List.cons_append], hregister⟩

theorem RegisteredAnew.append_left (h : RegisteredAnew named key (r.touched named first) rest) :
    RegisteredAnew named key r (first ++ rest) := by
  obtain ⟨before, after, rfl, hregister⟩ := h
  refine ⟨first ++ before, after, (List.append_assoc ..).symm, ?_⟩
  rwa [Registry.touched_append]

/-- Who is registered now and was not before has been registered anew. -/
theorem registeredAnew_of_mem (hbefore : key ∉ r.keys)
    (hafter : key ∈ (r.touched named touches).keys) : RegisteredAnew named key r touches := by
  -- The touch after which it is registered for the first time is the registration.
  induction touches generalizing r with
  | nil => exact absurd hafter hbefore
  | cons touch rest ih =>
    by_cases hmem : key ∈ (touch.apply named r).keys
    · obtain hkey | ⟨rfl, hregister⟩ := Registry.mem_keys_apply hmem
      · exact absurd hkey hbefore
      · exact ⟨[], rest, rfl, hregister⟩
    · have hrest : RegisteredAnew named key (r.touched named [touch]) rest := ih hmem hafter
      exact hrest.append_left

/-- Who is registered now and was removed has been registered anew. -/
theorem registeredAnew_of_discard (hdiscard : .discard key ∈ touches)
    (hafter : key ∈ (r.touched named touches).keys) : RegisteredAnew named key r touches := by
  -- Right after it is removed it is not registered, so a later touch has registered it.
  obtain ⟨first, rest, rfl⟩ := List.append_of_mem hdiscard
  rw [List.append_cons] at hafter ⊢
  rw [Registry.touched_append] at hafter
  refine (registeredAnew_of_mem ?_ hafter).append_left
  rw [Registry.touched_append]
  exact Registry.not_mem_keys_discard _ key

end

/-! ### One delivery -/

/-- Messages that an observer was told, each with its answer. -/
abbrev Answers := List (Message × Except DeliveryError Unit)

namespace Answers

/-- The messages that were accepted. -/
def accepted (answers : Answers) : List Message :=
  answers.flatMap fun
    | (message, .ok ()) => [message]
    | (_, .error _) => []

/-- The messages that were refused. -/
def refused (answers : Answers) : List Message :=
  answers.flatMap fun
    | (_, .ok ()) => []
    | (message, .error _) => [message]

@[simp] theorem accepted_nil : accepted [] = [] := rfl

@[simp] theorem accepted_ok (answers : Answers) :
    accepted ((message, .ok ()) :: answers) = message :: accepted answers := rfl

@[simp] theorem accepted_error (e : DeliveryError) (answers : Answers) :
    accepted ((message, .error e) :: answers) = accepted answers := rfl

theorem accepted_append (first rest : Answers) :
    accepted (first ++ rest) = accepted first ++ accepted rest := List.flatMap_append

theorem refused_append (first rest : Answers) :
    refused (first ++ rest) = refused first ++ refused rest := List.flatMap_append

/-- Nothing was refused. -/
theorem accepted_map_ok (messages : List Message) :
    accepted (messages.map fun m => (m, .ok ())) = messages ∧
      refused (messages.map fun m => (m, .ok ())) = [] := by
  induction messages with
  | nil => exact ⟨rfl, rfl⟩
  | cons m rest ih => exact ⟨congrArg (m :: ·) ih.1, ih.2⟩

end Answers

namespace DeliveryEvent

/-- What is done to the registry. -/
def touches : DeliveryEvent → List RegistryTouch
  | told _ t => t.changes.map .change
  | dropped o => [.discard o.key]

/-- What an observer was told, and what it answered. -/
def answers (key : Nat) : DeliveryEvent → Answers
  | told message t => if t.observer.key = key then [(message, t.result)] else []
  | dropped _ => []

end DeliveryEvent

namespace Telling

variable {t : Telling}

theorem touched_events (t : Telling) (message : Message) (r : Registry) :
    r.touched named ((t.events message).flatMap DeliveryEvent.touches) = t.after named r := by
  unfold events after
  split
  · rw [List.flatMap_singleton, DeliveryEvent.touches, Registry.touched_changes, changed]
  · rw [List.flatMap_cons, List.flatMap_singleton, DeliveryEvent.touches, DeliveryEvent.touches,
      Registry.touched_append, Registry.touched_changes, changed]
    rfl

theorem answers_events (t : Telling) (message : Message) (key : Nat) :
    (t.events message).flatMap (DeliveryEvent.answers key) =
      if t.observer.key = key then [(message, t.result)] else [] := by
  unfold events
  split <;> simp [DeliveryEvent.answers]

/-- An observer accepts, or it is removed. -/
theorem result_or_discard (t : Telling) (message : Message) :
    t.result = .ok () ∨
      .discard t.observer.key ∈ (t.events message).flatMap DeliveryEvent.touches := by
  obtain ⟨o, changes, result⟩ := t
  cases result with
  | ok _ => exact .inl rfl
  | error e => exact .inr (List.mem_append_right _ (List.mem_singleton_self _))

/-- Nobody is told twice. -/
theorem filter_key {tellings : List Telling}
    (hnodup : (tellings.map fun t => t.observer.key).Nodup) (ht : t ∈ tellings) :
    (tellings.filter fun t' => t'.observer.key = t.observer.key) = [t] := by
  induction tellings with
  | nil => cases ht
  | cons head rest ih =>
    obtain ⟨hhead, hrest⟩ := List.nodup_cons.mp hnodup
    -- No other telling is about the observer of the first one.
    have hne : ∀ t' ∈ rest, t'.observer.key ≠ head.observer.key := fun t' ht' hkey =>
      hhead (List.mem_map.mpr ⟨t', ht', hkey⟩)
    rw [List.filter_cons]
    rcases List.mem_cons.mp ht with rfl | ht
    · rw [if_pos (decide_eq_true rfl), List.filter_eq_nil_iff.mpr]
      exact fun t' ht' hkey => hne t' ht' (of_decide_eq_true hkey)
    · rw [if_neg (by simpa using (hne t ht).symm), ih hrest ht]

end Telling

variable {observers : List Registered} {tellings : List Telling} {d : DeliveryRecord} {n : Nat}

namespace Tells

theorem registry_touched (h : Tells named message observers tellings ⟨r, []⟩ n d) :
    d.registry = r.touched named (d.events.flatMap DeliveryEvent.touches) := by
  rw [h.registry_eq, h.events_eq, List.nil_append]
  clear h
  induction tellings generalizing r with
  | nil => rfl
  | cons t rest ih =>
    rw [List.foldl_cons, ih, List.flatMap_cons, List.flatMap_append, Registry.touched_append,
      Telling.touched_events]

theorem answers_eq (h : Tells named message observers tellings ⟨r, []⟩ n d) (key : Nat) :
    d.events.flatMap (DeliveryEvent.answers key) =
      (tellings.filter fun t => t.observer.key = key).map fun t => (message, t.result) := by
  rw [h.events_eq, List.nil_append]
  clear h
  induction tellings with
  | nil => rfl
  | cons t rest ih =>
    rw [List.flatMap_cons, List.flatMap_append, ih, Telling.answers_events, List.filter_cons]
    by_cases hkey : t.observer.key = key <;> simp [hkey]

end Tells

theorem registry_of_deliver
    (h : (deliver message).Ends (DeliveryCall.Acts named) ⟨r, []⟩ n d) :
    d.registry = r.touched named (d.events.flatMap DeliveryEvent.touches) := by
  obtain ⟨tellings, htells⟩ := ends_deliver_iff.mp h
  exact htells.registry_touched

/-- A delivery tells a registered observer once. It accepts, or it is removed. -/
theorem answers_of_mem (hreach : r.Reachable named) (hkey : key ∈ r.keys)
    (h : (deliver message).Ends (DeliveryCall.Acts named) ⟨r, []⟩ n d) :
    ∃ result, d.events.flatMap (DeliveryEvent.answers key) = [(message, result)] ∧
      (result = .ok () ∨ .discard key ∈ d.events.flatMap DeliveryEvent.touches) := by
  obtain ⟨tellings, htells⟩ := ends_deliver_iff.mp h
  have hkeys : (tellings.map fun t => t.observer.key) = r.keys := by
    rw [Registry.keys, ← htells.told, List.map_map]
    rfl
  obtain ⟨t, ht, rfl⟩ := List.mem_map.mp (hkeys ▸ hkey)
  refine ⟨t.result, ?_, (t.result_or_discard message).imp_right fun hdiscard => ?_⟩
  · rw [htells.answers_eq, Telling.filter_key (hkeys ▸ hreach.keys_nodup) ht, List.map_singleton]
  · obtain ⟨event, hevent, hmem⟩ := List.mem_flatMap.mp hdiscard
    rw [htells.events_eq, List.nil_append]
    exact List.mem_flatMap.mpr ⟨event, List.mem_flatMap.mpr ⟨t, ht, hevent⟩, hmem⟩

/-- A delivery does not tell anybody else. -/
theorem answers_of_not_mem (hkey : key ∉ r.keys)
    (h : (deliver message).Ends (DeliveryCall.Acts named) ⟨r, []⟩ n d) :
    d.events.flatMap (DeliveryEvent.answers key) = [] := by
  obtain ⟨tellings, htells⟩ := ends_deliver_iff.mp h
  rw [htells.answers_eq, List.map_eq_nil_iff, List.filter_eq_nil_iff]
  intro t ht htkey
  refine hkey (of_decide_eq_true htkey ▸ ?_)
  rw [Registry.keys, ← htells.told, List.map_map]
  exact List.mem_map_of_mem ht

/-! ### Runs of a channel -/

/-- What happens at a channel. -/
inductive ChannelEvent where
  /-- Somebody changes the registry between two deliveries. -/
  | changed (c : RegistryChange)
  /-- A message is delivered to the observers registered now, and all this is done. -/
  | delivered (message : Message) (observers : List Registered) (events : List DeliveryEvent)

namespace ChannelEvent

/-- What is done to the registry. -/
def touches : ChannelEvent → List RegistryTouch
  | changed c => [.change c]
  | delivered _ _ events => events.flatMap DeliveryEvent.touches

/-- The message delivered. -/
def messages : ChannelEvent → List Message
  | changed _ => []
  | delivered message _ _ => [message]

/-- The message delivered, if an observer was registered when its delivery began. -/
def due (key : Nat) : ChannelEvent → List Message
  | changed _ => []
  | delivered message observers _ =>
    if key ∈ observers.map fun o => o.key then [message] else []

/-- What an observer was told, and what it answered. -/
def answers (key : Nat) : ChannelEvent → Answers
  | changed _ => []
  | delivered _ _ events => events.flatMap (DeliveryEvent.answers key)

end ChannelEvent

/-- Everything that can happen at a channel: the registry is changed, and messages are delivered,
one delivery after another. -/
inductive ChannelRun (named : Nat → String) : Registry → List ChannelEvent → Registry → Prop where
  | rest (r : Registry) : ChannelRun named r [] r
  | change {r r' : Registry} {later : List ChannelEvent} (c : RegistryChange) :
      ChannelRun named (c.apply named r) later r' → ChannelRun named r (.changed c :: later) r'
  | deliver {r r' : Registry} {message : Message} {n : Nat} {d : DeliveryRecord}
      {later : List ChannelEvent} :
      (deliver message).Ends (DeliveryCall.Acts named) ⟨r, []⟩ n d →
      ChannelRun named d.registry later r' →
      ChannelRun named r (.delivered message r.observers d.events :: later) r'

namespace ChannelRun

variable {events before later : List ChannelEvent}

theorem registry_touched (h : ChannelRun named r events r') :
    r' = r.touched named (events.flatMap ChannelEvent.touches) := by
  induction h with
  | rest r => rfl
  | change c _ ih =>
    rw [List.flatMap_cons, Registry.touched_append]
    exact ih
  | deliver hends _ ih =>
    rw [List.flatMap_cons, Registry.touched_append, ChannelEvent.touches,
      ← registry_of_deliver hends]
    exact ih

/-- A run that is cut in two. -/
theorem of_append (h : ChannelRun named r (before ++ later) r') :
    ∃ middle, ChannelRun named r before middle ∧ ChannelRun named middle later r' := by
  induction before generalizing r with
  | nil => exact ⟨r, .rest r, h⟩
  | cons event before ih =>
    cases h with
    | change c hrun =>
      obtain ⟨middle, hbefore, hlater⟩ := ih hrun
      exact ⟨middle, .change c hbefore, hlater⟩
    | deliver hends hrun =>
      obtain ⟨middle, hbefore, hlater⟩ := ih hrun
      exact ⟨middle, .deliver hends hbefore, hlater⟩

/-- Those who are registered may do anything and answer anything when they are told. -/
theorem of_tellings (tellings : List Telling)
    (htold : tellings.map (fun t => t.observer) = r.observers)
    (h : ChannelRun named (tellings.foldl (Telling.after named) r) later r') :
    ChannelRun named r
      (.delivered message r.observers (tellings.flatMap (Telling.events message)) :: later) r' := by
  have htells : Tells named message r.observers tellings ⟨r, []⟩ _
      ⟨tellings.foldl (Telling.after named) r, tellings.flatMap (Telling.events message)⟩ :=
    ⟨htold, rfl, rfl, rfl⟩
  exact .deliver (ends_deliver_iff.mpr ⟨tellings, htells⟩) h

/-- An observer is told exactly the messages whose deliveries began while it was registered. -/
theorem map_fst_answers (hreach : r.Reachable named) (h : ChannelRun named r events r')
    (key : Nat) : (events.flatMap (ChannelEvent.answers key)).map Prod.fst =
      events.flatMap (ChannelEvent.due key) := by
  induction h with
  | rest r => rfl
  | change c _ ih => exact ih (hreach.change c)
  | @deliver r _ message n d later hends _ ih =>
    have hd : d.registry.Reachable named := registry_of_deliver hends ▸ hreach.touched _
    rw [List.flatMap_cons, List.map_append, ih hd, List.flatMap_cons]
    congr 1
    by_cases hkey : key ∈ r.keys
    · obtain ⟨result, hanswers, -⟩ := answers_of_mem hreach hkey hends
      rw [ChannelEvent.answers, hanswers]
      exact (if_pos hkey).symm
    · rw [ChannelEvent.answers, answers_of_not_mem hkey hends]
      exact (if_neg hkey).symm

/-- Who is registered in the end, and has not been registered anew, was told everything and has
accepted everything. -/
theorem answers_eq (hreach : r.Reachable named) (h : ChannelRun named r events r')
    (hkey : key ∈ r'.keys)
    (hanew : ¬ RegisteredAnew named key r (events.flatMap ChannelEvent.touches)) :
    events.flatMap (ChannelEvent.answers key) =
      (events.flatMap ChannelEvent.messages).map fun m => (m, .ok ()) := by
  induction h with
  | rest r => rfl
  | @change r r' later c _ ih =>
    rw [List.flatMap_cons] at hanew
    refine ih (hreach.change c) hkey fun hlater => hanew ?_
    have hrest : RegisteredAnew named key (r.touched named [.change c])
        (later.flatMap ChannelEvent.touches) := hlater
    exact hrest.append_left
  | @deliver r r' message n d later hends hrun ih =>
    have hd : d.registry = r.touched named (d.events.flatMap DeliveryEvent.touches) :=
      registry_of_deliver hends
    have hr' : r' = d.registry.touched named (later.flatMap ChannelEvent.touches) :=
      hrun.registry_touched
    rw [List.flatMap_cons, ChannelEvent.touches] at hanew
    have hlater : ¬ RegisteredAnew named key d.registry (later.flatMap ChannelEvent.touches) :=
      fun hlater => hanew (RegisteredAnew.append_left (hd ▸ hlater))
    -- It was registered all along, for otherwise it would have been registered anew.
    have hafter : key ∈ d.registry.keys := by
      by_contra hnot
      exact hlater (registeredAnew_of_mem hnot (hr' ▸ hkey))
    have hbefore : key ∈ r.keys := by
      by_contra hnot
      exact hanew ((registeredAnew_of_mem hnot (hd ▸ hafter)).append_right _)
    obtain ⟨result, hanswers, rfl | hdiscard⟩ := answers_of_mem hreach hbefore hends
    · rw [List.flatMap_cons, ih (hd ▸ hreach.touched _) hkey hlater, ChannelEvent.answers, hanswers]
      rfl
    · -- Had it refused, it would not be registered after this delivery.
      exact absurd ((registeredAnew_of_discard hdiscard (hd ▸ hafter)).append_right _) hanew

end ChannelRun

/-! ### Mailboxes -/

namespace Mailbox

/-- A mailbox whose messages all come from one channel, while messages are taken out of it, and
until nobody takes any more: its answers, and what was taken out. -/
inductive Serves : Mailbox → Answers → List Message → Mailbox → Prop where
  | rest (m : Mailbox) : Serves m [] [] m
  | offered {m m' : Mailbox} {answers : Answers} {taken : List Message} (message : Message) :
      Serves (m.offer message).2 answers taken m' →
      Serves m ((message, (m.offer message).1) :: answers) taken m'
  | taken {m m' : Mailbox} {answers : Answers} {taken : List Message} (n : Nat) :
      Serves { m with messages := m.messages.drop n } answers taken m' →
      Serves m answers (m.messages.take n ++ taken) m'
  | disconnected {m m' : Mailbox} {answers : Answers} {taken : List Message} :
      Serves m.disconnect answers taken m' → Serves m answers taken m'

/-- A message that is accepted is the last one in the box. Otherwise the box is as it was. -/
theorem offer_cases (m : Mailbox) (message : Message) :
    m.connected = true ∧
        m.offer message = (.ok (), { m with messages := m.messages ++ [message] }) ∨
      ∃ e, m.offer message = (.error e, m) := by
  unfold offer
  split
  · split
    · exact .inl ⟨‹_›, rfl⟩
    · exact .inr ⟨_, rfl⟩
  · exact .inr ⟨_, rfl⟩

variable {m m' : Mailbox} {answers : Answers} {taken : List Message}

/-- Nothing goes into a mailbox that nobody takes messages out of. -/
theorem Serves.accepted_eq_nil (h : m.Serves answers taken m') (hm : m.connected = false) :
    answers.accepted = [] ∧ m'.connected = false := by
  induction h with
  | rest m => exact ⟨rfl, hm⟩
  | @offered m _ _ _ message _ ih =>
    obtain ⟨hconnected, -⟩ | ⟨e, hoffer⟩ := m.offer_cases message
    · rw [hm] at hconnected
      cases hconnected
    · rw [hoffer] at ih ⊢
      exact ih hm
  | taken n _ ih => exact ih hm
  | disconnected _ ih => exact ih rfl

/-- The messages come out in the order in which they went in, and none of them is missing as long as
anybody takes them out. -/
theorem Serves.sent (h : m.Serves answers taken m') :
    taken ++ m'.messages <+: m.messages ++ answers.accepted ∧
      (m'.connected = true → taken ++ m'.messages = m.messages ++ answers.accepted) := by
  induction h with
  | rest m => simp
  | @offered m _ answers _ message _ ih =>
    obtain ⟨-, hoffer⟩ | ⟨e, hoffer⟩ := m.offer_cases message
    · rw [hoffer] at ih ⊢
      rwa [Answers.accepted_ok, List.append_cons]
    · rw [hoffer] at ih ⊢
      rwa [Answers.accepted_error]
  | @taken m _ answers _ n _ ih =>
    -- What is taken out first is what the others come behind.
    have hsplit : m.messages ++ answers.accepted =
        m.messages.take n ++ (m.messages.drop n ++ answers.accepted) := by
      rw [← List.append_assoc, List.take_append_drop]
    rw [hsplit, List.append_assoc]
    exact ⟨(List.prefix_append_right_inj _).mpr ih.1, fun hconnected => by rw [ih.2 hconnected]⟩
  | @disconnected m m' answers taken hrest ih =>
    -- What was in the box is lost, but nothing comes after it.
    obtain ⟨haccepted, hm'⟩ := hrest.accepted_eq_nil rfl
    rw [hm'] at ih ⊢
    have hnothing : taken ++ m'.messages = [] := by
      have hinit := ih.1
      rw [haccepted] at hinit
      exact List.prefix_nil.mp hinit
    exact ⟨hnothing ▸ List.nil_prefix, nofun⟩

end Mailbox

/-! ### Line writers -/

namespace LineWriter

/-- A writer whose lines all come from one channel, and whose reader begins to take them at some
time: its answers. -/
inductive Serves : LineWriter → Answers → LineWriter → Prop where
  | rest (w : LineWriter) : Serves w [] w
  | offered {w w' : LineWriter} {answers : Answers} (message : Message) :
      Serves (w.offer message).2 answers w' →
      Serves w ((message, (w.offer message).1) :: answers) w'
  | opened {w w' : LineWriter} {answers : Answers} :
      Serves w.openGate answers w' → Serves w answers w'

/-- The lines that a writer has taken in, in the order in which it writes them. -/
def lines (w : LineWriter) : List String := w.written ++ (w.taken.toList ++ w.queue)

/-- No line waits while the reader takes lines, nor behind a writer that holds none. -/
structure InOrder (w : LineWriter) : Prop where
  queue_eq : w.taken = none → w.queue = []
  taken_eq : w.gateOpen = true → w.taken = none

theorem inOrder_fresh (capacity timeoutMs : Nat) (stalled : Bool) (failAfter : Option Nat) :
    (fresh capacity timeoutMs stalled failAfter).InOrder :=
  ⟨fun _ => rfl, fun _ => rfl⟩

variable {w w' : LineWriter} {answers : Answers}

/-- A line is written, or the writer has ended. -/
theorem write_cases (w : LineWriter) (line : String) :
    w.write line = { w with written := w.written ++ [line] } ∨
      w.write line = { w with ended := true } := by
  obtain ⟨capacity, timeoutMs, gateOpen, failAfter, taken, queue, written, ended⟩ := w
  unfold write
  split
  · rename_i hended
    exact .inr (by simp_all)
  · cases failAfter with
    | none => exact .inl rfl
    | some n =>
      dsimp only
      split
      · exact .inr rfl
      · exact .inl rfl

/-- Nothing is written behind a line that is lost. -/
theorem write_of_ended (h : w.ended = true) (line : String) : w.write line = w := by
  rw [write, if_pos h]

theorem foldl_write_of_ended (h : w.ended = true) (lines : List String) :
    lines.foldl write w = w := by
  induction lines with
  | nil => rfl
  | cons line rest ih => rw [List.foldl_cons, write_of_ended h, ih]

/-- What is written of some lines. -/
theorem foldl_write (w : LineWriter) (lines : List String) :
    ∃ written ended, lines.foldl write w = { w with written := written, ended := ended } ∧
      written <+: w.written ++ lines ∧ (ended = false → written = w.written ++ lines) := by
  induction lines generalizing w with
  | nil => exact ⟨w.written, w.ended, rfl, by simp, by simp⟩
  | cons line rest ih =>
    rw [List.foldl_cons]
    obtain hwrite | hwrite := w.write_cases line
    · obtain ⟨written, ended, hfold, hinit, hall⟩ := ih (w.write line)
      refine ⟨written, ended, hfold.trans (by rw [hwrite]), ?_⟩
      rw [List.append_cons]
      rw [hwrite] at hinit hall
      exact ⟨hinit, hall⟩
    · -- The later lines are lost with this one.
      refine ⟨w.written, true, ?_, List.prefix_append .., nofun⟩
      rw [foldl_write_of_ended (by rw [hwrite]), hwrite]

/-- The reader gets the lines that were taken in. -/
theorem openGate_lines (w : LineWriter) :
    w.openGate.InOrder ∧ w.openGate.lines <+: w.lines ∧
      (w.openGate.ended = false → w.openGate.lines = w.lines) := by
  obtain ⟨written, ended, hfold, hinit, hall⟩ :=
    foldl_write { w with gateOpen := true, taken := none, queue := [] } (w.taken.toList ++ w.queue)
  rw [openGate, hfold]
  refine ⟨⟨fun _ => rfl, fun _ => rfl⟩, ?_, fun hended => ?_⟩
  · rw [lines, lines]
    simpa using hinit
  · rw [lines, lines]
    simpa using hall hended

/-- A writer that has ended accepts nothing. -/
theorem Serves.accepted_eq_nil (h : w.Serves answers w') (hw : w.ended = true) :
    answers.accepted = [] ∧ w'.ended = true := by
  induction h with
  | rest w => exact ⟨rfl, hw⟩
  | @offered w w' answers message _ ih =>
    have hoffer : w.offer message = (.error .disconnected, w) := by
      rw [offer, offerLine, if_pos hw]
    rw [hoffer] at ih ⊢
    exact ih hw
  | @opened w w' answers _ ih =>
    let opened : LineWriter := { w with gateOpen := true, taken := none, queue := [] }
    have hopen : opened.ended = true := hw
    refine ih ?_
    rw [openGate, foldl_write_of_ended hopen]
    exact hopen

/-- A line that is accepted comes behind all others, or it is the one that the writer ends with. -/
theorem InOrder.offer (h : w.InOrder) (message : Message) :
    (∃ e, w.offer message = (.error e, w)) ∨
      ∃ w', w.offer message = (.ok (), w') ∧ w'.InOrder ∧
        (w'.lines = w.lines ++ [message.line] ∨ w'.lines = w.lines ∧ w'.ended = true) := by
  rw [LineWriter.offer, offerLine]
  split
  · exact .inl ⟨_, rfl⟩
  · split
    · -- The reader takes lines, so no line waits.
      rename_i hopen
      have htaken := h.taken_eq hopen
      have hqueue := h.queue_eq htaken
      obtain hwrite | hwrite := w.write_cases message.line
      · refine .inr ⟨_, rfl, hwrite ▸ ⟨h.queue_eq, h.taken_eq⟩, .inl ?_⟩
        simp [hwrite, lines, htaken, hqueue]
      · exact .inr ⟨_, rfl, hwrite ▸ ⟨h.queue_eq, h.taken_eq⟩, .inr ⟨by rw [hwrite]; rfl, by
          rw [hwrite]⟩⟩
    · rename_i hclosed
      split
      · rename_i htaken
        refine .inr ⟨_, rfl, ⟨nofun, fun hopen => absurd hopen hclosed⟩, .inl ?_⟩
        simp [lines, htaken, h.queue_eq htaken]
      · rename_i line htaken
        split
        · refine .inr ⟨_, rfl, ⟨fun hnone => ?_, fun hopen => absurd hopen hclosed⟩, .inl ?_⟩
          · exact nomatch htaken.symm.trans hnone
          · simp [lines]
        · exact .inl ⟨_, rfl⟩

/-- The lines of the messages that were accepted are written in their order, and none of them is
missing unless a write fails. -/
theorem Serves.sent (h : w.Serves answers w') (hw : w.InOrder) :
    w'.lines <+: w.lines ++ answers.accepted.map Message.line ∧
      (w'.ended = false → w'.lines = w.lines ++ answers.accepted.map Message.line) := by
  induction h with
  | rest w => simp [Answers.accepted_nil]
  | @offered w w' answers message hrest ih =>
    obtain ⟨e, hoffer⟩ | ⟨w₁, hoffer, hw₁, hlines | ⟨hlines, hended⟩⟩ := hw.offer message
    · rw [hoffer] at ih ⊢
      exact ih hw
    · rw [hoffer] at ih ⊢
      have hlater := ih hw₁
      rwa [hlines, List.append_assoc] at hlater
    · -- The line is lost, and no line comes after it.
      rw [hoffer] at hrest ih ⊢
      obtain ⟨haccepted, hw'⟩ := hrest.accepted_eq_nil hended
      have hlater := (ih hw₁).1
      rw [haccepted, hlines, List.map_nil, List.append_nil] at hlater
      refine ⟨hlater.trans (List.prefix_append ..), fun hnot => ?_⟩
      rw [hw'] at hnot
      cases hnot
  | @opened w w' answers hrest ih =>
    obtain ⟨hopen, hinit, hall⟩ := w.openGate_lines
    obtain ⟨hlater, hlines⟩ := ih hopen
    cases hended : w.openGate.ended with
    | false =>
      rw [hall hended] at hlater hlines
      exact ⟨hlater, hlines⟩
    | true =>
      -- A write failed as the reader began, so some of the lines that waited are lost.
      obtain ⟨haccepted, hw'⟩ := hrest.accepted_eq_nil hended
      rw [haccepted, List.map_nil, List.append_nil] at hlater ⊢
      refine ⟨hlater.trans hinit, fun hnot => ?_⟩
      rw [hw'] at hnot
      cases hnot

end LineWriter

/-! ### Without gaps -/

namespace ChannelRun

variable {events inner before later : List ChannelEvent} {did : List DeliveryEvent}

/-- Who is registered when a delivery begins, and has not been registered anew for a while, accepted
all messages of that while, except perhaps the last one. -/
theorem accepted_append_refused (hreach : r.Reachable named)
    (h : ChannelRun named r (inner ++ .delivered message observers did :: later) r')
    (hkey : key ∈ observers.map fun o => o.key)
    (hanew : ¬ RegisteredAnew named key r (inner.flatMap ChannelEvent.touches)) :
    let stretch := inner ++ [.delivered message observers did]
    let answers : Answers := stretch.flatMap (ChannelEvent.answers key)
    answers.accepted ++ answers.refused = stretch.flatMap ChannelEvent.messages ∧
      answers.refused.length ≤ 1 := by
  intro stretch answers
  obtain ⟨middle, hinner, hlast⟩ := h.of_append
  have hmiddle : middle.Reachable named := hinner.registry_touched ▸ hreach.touched _
  cases hlast with
  | deliver hends _ =>
    obtain ⟨result, hanswers, -⟩ := answers_of_mem hmiddle hkey hends
    have hall : answers = (inner.flatMap ChannelEvent.messages).map (fun m => (m, .ok ())) ++
        [(message, result)] := by
      rw [← hinner.answers_eq hreach hkey hanew, ← hanswers]
      exact List.flatMap_append.trans (congrArg _ (List.flatMap_singleton ..))
    -- All but the last message are accepted, whatever becomes of that one.
    obtain ⟨haccepted, hrefused⟩ := Answers.accepted_map_ok (inner.flatMap ChannelEvent.messages)
    rw [hall, Answers.accepted_append, Answers.refused_append, haccepted, hrefused,
      List.flatMap_append, List.flatMap_singleton, List.nil_append, List.append_assoc]
    cases result with
    | ok _ => exact ⟨rfl, Nat.zero_le 1⟩
    | error e => exact ⟨rfl, Nat.le_refl 1⟩

/-- Whatever is registered, unregistered and delivered, and whatever observers do and answer while
they are told: an observer is told, in order and once each, the messages whose deliveries began
while it was registered. Take any part of the run that ends with a delivery to it, and in which it
was not registered anew: it accepted the messages of that part from the first one on, and it refused
none but the last one. So a mailbox has passed on, or still holds, what it held and then these
messages in their order, and a line writer has written, or still holds, their lines. Nothing is
missing in between, and nothing at the end unless nobody takes messages out any more, or a write
failed. -/
theorem gapless (h : ChannelRun named .empty events r) (key : Nat) :
    (events.flatMap (ChannelEvent.answers key)).map Prod.fst =
      events.flatMap (ChannelEvent.due key) ∧
    ∀ before inner message observers did later,
      events = before ++ (inner ++ .delivered message observers did :: later) →
      (key ∈ observers.map fun o => o.key) →
      ¬ RegisteredAnew named key
        (Registry.empty.touched named (before.flatMap ChannelEvent.touches))
        (inner.flatMap ChannelEvent.touches) →
      let stretch := inner ++ [.delivered message observers did]
      let answers : Answers := stretch.flatMap (ChannelEvent.answers key)
      answers.accepted ++ answers.refused = stretch.flatMap ChannelEvent.messages ∧
      answers.refused.length ≤ 1 ∧
      (∀ m taken m', Mailbox.Serves m answers taken m' →
        taken ++ m'.messages <+: m.messages ++ answers.accepted ∧
        (m'.connected = true → taken ++ m'.messages = m.messages ++ answers.accepted)) ∧
      ∀ w w', LineWriter.Serves w answers w' → w.InOrder →
        w'.lines <+: w.lines ++ answers.accepted.map Message.line ∧
        (w'.ended = false → w'.lines = w.lines ++ answers.accepted.map Message.line) := by
  refine ⟨h.map_fst_answers .empty key, ?_⟩
  rintro before inner message observers did later rfl hkey hanew
  obtain ⟨first, hbefore, hpart⟩ := h.of_append
  have hfirst := hbefore.registry_touched
  rw [← hfirst] at hanew
  obtain ⟨hall, hlength⟩ := accepted_append_refused (hfirst ▸ Registry.Reachable.empty.touched _)
    hpart hkey hanew
  exact ⟨hall, hlength, fun m taken m' hserves => hserves.sent, fun w w' hserves => hserves.sent⟩

/-- A slow observer, and one that registers the slow one anew. -/
def slowNames : Nat → String
  | 0 => "slow"
  | _ => "helper"

/-- A message that both accept. -/
def slowFirst : List Telling := [⟨⟨0, "slow"⟩, [], .ok ()⟩, ⟨⟨1, "helper"⟩, [], .ok ()⟩]

/-- A message that the slow one has no room for. It is registered anew in the same delivery. -/
def slowSecond : List Telling :=
  [⟨⟨0, "slow"⟩, [], .error (.timeout 20)⟩, ⟨⟨1, "helper"⟩, [.register 0], .ok ()⟩]

/-- Both are registered, and told two messages. -/
def slowEvents : List ChannelEvent :=
  [.changed (.register 0), .changed (.register 1),
    .delivered .fixLost [⟨0, "slow"⟩, ⟨1, "helper"⟩] (slowFirst.flatMap (Telling.events .fixLost)),
    .delivered .fixAcquired [⟨0, "slow"⟩, ⟨1, "helper"⟩]
      (slowSecond.flatMap (Telling.events .fixAcquired))]

theorem channelRun_slowEvents :
    ChannelRun slowNames .empty slowEvents ⟨[⟨1, "helper"⟩, ⟨0, "slow"⟩]⟩ := by
  have hboth : (RegistryChange.register 1).apply slowNames
      ((RegistryChange.register 0).apply slowNames .empty) =
        ⟨[⟨0, "slow"⟩, ⟨1, "helper"⟩]⟩ := by decide +kernel
  have hsecond : slowSecond.foldl (Telling.after slowNames) ⟨[⟨0, "slow"⟩, ⟨1, "helper"⟩]⟩ =
      ⟨[⟨1, "helper"⟩, ⟨0, "slow"⟩]⟩ := by decide +kernel
  refine .change _ (.change _ ?_)
  rw [hboth]
  refine of_tellings slowFirst rfl (of_tellings slowSecond rfl ?_)
  exact hsecond ▸ .rest _

/-- If the slow observer has a mailbox for one message, that is the first one. If it has a line
writer whose reader takes none, the line is that of the first one. -/
theorem gapless_slowEvents :
    ChannelRun slowNames .empty slowEvents ⟨[⟨1, "helper"⟩, ⟨0, "slow"⟩]⟩ ∧
    (slowEvents.flatMap (ChannelEvent.answers 0)).map Prod.fst = [.fixLost, .fixAcquired] ∧
    (∃ m', Mailbox.Serves (.fresh 1 20) (slowEvents.flatMap (ChannelEvent.answers 0)) [] m' ∧
      m'.messages = [.fixLost]) ∧
    ∃ w', LineWriter.Serves (.fresh 0 20 true none)
        (slowEvents.flatMap (ChannelEvent.answers 0)) w' ∧
      w'.lines = [Message.fixLost.line] := by
  obtain ⟨htold, hparts⟩ := gapless channelRun_slowEvents 0
  have hanew : ¬ RegisteredAnew slowNames 0
      (Registry.empty.touched slowNames ((slowEvents.take 2).flatMap ChannelEvent.touches))
      (((slowEvents.drop 2).take 1).flatMap ChannelEvent.touches) := by
    rintro ⟨first, rest, heq, -⟩
    exact absurd heq (by cases first <;> nofun)
  obtain ⟨-, -, hmailbox, hwriter⟩ := hparts (slowEvents.take 2) ((slowEvents.drop 2).take 1) _ _ _ []
    rfl (by decide) hanew
  have hbox : Mailbox.Serves (.fresh 1 20) (slowEvents.flatMap (ChannelEvent.answers 0)) []
      ⟨1, 20, [.fixLost], true⟩ :=
    .offered .fixLost (.offered .fixAcquired (.rest _))
  have hlines : LineWriter.Serves (.fresh 0 20 true none)
      (slowEvents.flatMap (ChannelEvent.answers 0))
      ⟨0, 20, false, none, some Message.fixLost.line, [], [], false⟩ :=
    .offered .fixLost (.offered .fixAcquired (.rest _))
  exact ⟨channelRun_slowEvents, htold, ⟨_, hbox, (hmailbox _ _ _ hbox).2 rfl⟩, _, hlines,
    (hwriter _ _ hlines (LineWriter.inOrder_fresh _ _ _ _)).2 rfl⟩

end ChannelRun

end TripRecorder
