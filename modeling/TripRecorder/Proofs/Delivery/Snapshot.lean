import Mathlib.Data.List.Nodup
import TripRecorder.Bench.Delivery
import TripRecorder.Proofs.Procedure

/-!
# A delivery and the registry

A delivery tells the observers that were registered when it began, one after another. While an
observer is told it may change the registry as it likes, so what is registered in the meantime has
little to do with who is still to be told. An observer that fails is removed at once, by its key and
not by its identifier, because another observer may have taken the identifier by then.

An observer is known by its key, and it has one identifier for all times.

## Main definitions

* `RegistryChange` — what an observer may do to the registry while it is told
* `Registry.Reachable` — the registries that can come about
* `Telling` — one observer told: what it did to the registry, and whether it accepted
* `DeliveryRecord`, `DeliveryCall.Acts` — a registry with all that deliveries did, and a call of a
  delivery as a step of it
* `Tells` — what a delivery did

## Main results

* `Registry.Reachable.ids_nodup` — no two registered observers share an identifier
* `ends_deliverTo_iff` — the runs of a delivery are the possible behaviours of those it tells
* `Registry.sublist_after` — who accepted and was not unregistered keeps its place
* `deliver_tells` — every delivery tells the observers that were registered when it began
-/

namespace TripRecorder

/-- What an observer may do to the registry while it is told. -/
inductive RegistryChange where
  | register (key : Nat)
  | unregister (id : String)
deriving DecidableEq, Repr

variable {named : Nat → String} {key : Nat} {id : String}

/-- The registry after a change. Every observer has the identifier that it is named by. -/
def RegistryChange.apply (named : Nat → String) (r : Registry) : RegistryChange → Registry
  | register key => (r.register ⟨key, named key⟩).1
  | unregister id => (r.unregister id).1

namespace Registry

/-- The registries that can come about: observers register, are unregistered, and are removed when
they fail, at any time and in any order. -/
inductive Reachable (named : Nat → String) : Registry → Prop where
  | empty : Reachable named empty
  | change {r : Registry} (c : RegistryChange) :
      Reachable named r → Reachable named (c.apply named r)
  | discard {r : Registry} (key : Nat) : Reachable named r → Reachable named (r.discard key)

variable {r : Registry} {o : Registered}

/-! ### Single changes -/

theorem observers_register (r : Registry) (o : Registered) :
    (r.register o).1.observers =
      if r.observers.any fun other => other.id == o.id then r.observers
      else r.observers ++ [o] := by
  unfold register
  split <;> rfl

theorem observers_unregister (r : Registry) (id : String) :
    (r.unregister id).1.observers = r.observers.filter fun o => o.id != id := rfl

theorem observers_discard (r : Registry) (key : Nat) :
    (r.discard key).observers = r.observers.filter fun o => o.key != key := rfl

theorem Reachable.changes (h : Reachable named r) (changes : List RegistryChange) :
    Reachable named (changes.foldl (RegistryChange.apply named) r) := by
  induction changes generalizing r with
  | nil => exact h
  | cons c rest ih => exact ih (h.change c)

/-- An observer is registered under its own identifier. -/
theorem Reachable.id_eq (h : Reachable named r) : ∀ o ∈ r.observers, o.id = named o.key := by
  induction h with
  | empty => exact nofun
  | change c _ ih =>
    intro o ho
    cases c with
    | register key =>
      rw [RegistryChange.apply, observers_register] at ho
      split at ho
      · exact ih o ho
      · rcases List.mem_append.mp ho with ho | ho
        · exact ih o ho
        · rw [List.mem_singleton.mp ho]
    | unregister id => exact ih o (List.mem_filter.mp ho).1
  | discard key _ ih => exact fun o ho => ih o (List.mem_filter.mp ho).1

/-- No two registered observers share an identifier. -/
theorem Reachable.ids_nodup (h : Reachable named r) : (r.observers.map fun o => o.id).Nodup := by
  induction h with
  | empty => exact List.nodup_nil
  | change c _ ih =>
    cases c with
    | register key =>
      rw [RegistryChange.apply, observers_register]
      split
      · exact ih
      · -- It was registered because nobody had its identifier.
        rename_i hfree
        rw [List.map_append, List.nodup_append]
        refine ⟨ih, List.nodup_singleton _, ?_⟩
        rintro id hid id' hid' rfl
        obtain ⟨o, ho, rfl⟩ := List.mem_map.mp hid
        refine hfree (List.any_eq_true.mpr ⟨o, ho, ?_⟩)
        simpa using hid'
    | unregister id => exact ih.sublist (List.filter_sublist.map _)
  | discard key _ ih => exact ih.sublist (List.filter_sublist.map _)

/-- No observer is registered twice. -/
theorem Reachable.keys_nodup (h : Reachable named r) : (r.observers.map fun o => o.key).Nodup := by
  -- Two entries with one key would have the one identifier of that key.
  have hids : (r.observers.map fun o => o.id) = (r.observers.map fun o => o.key).map named := by
    rw [List.map_map]
    exact List.map_congr_left h.id_eq
  exact (hids ▸ h.ids_nodup).of_map _

end Registry

/-! ### Telling -/

/-- One observer told: what it did to the registry in order, and what it answered. -/
structure Telling where
  observer : Registered
  changes : List RegistryChange
  result : Except DeliveryError Unit

namespace Telling

/-- The observer accepted the message. -/
def accepted (t : Telling) : Bool :=
  match t.result with
  | .ok () => true
  | .error _ => false

/-- The registry when the observer has answered. -/
def changed (named : Nat → String) (r : Registry) (t : Telling) : Registry :=
  t.changes.foldl (RegistryChange.apply named) r

/-- The registry when the next observer is told. -/
def after (named : Nat → String) (r : Registry) (t : Telling) : Registry :=
  if t.accepted then t.changed named r else (t.changed named r).discard t.observer.key

end Telling

/-- What is done in a delivery. -/
inductive DeliveryEvent where
  | told (message : Message) (t : Telling)
  | dropped (observer : Registered)

/-- An observer is told, and dropped right after that if it fails. -/
def Telling.events (message : Message) (t : Telling) : List DeliveryEvent :=
  if t.accepted then [.told message t] else [.told message t, .dropped t.observer]

/-- A registry, and all that was done in deliveries. -/
structure DeliveryRecord where
  registry : Registry
  events : List DeliveryEvent

/-- A call of a delivery. An observer that is told may do anything to the registry, and it may
accept or fail. -/
def DeliveryCall.Acts (named : Nat → String) :
    (c : DeliveryCall) → DeliveryRecord → DeliveryAnswer c → DeliveryRecord → Prop
  | .registered, d, observers, d' => observers = d.registry.observers ∧ d' = d
  | .offer o message, d, result, d' => ∃ changes,
      d' = ⟨Telling.changed named d.registry ⟨o, changes, result⟩,
        d.events ++ [.told message ⟨o, changes, result⟩]⟩
  | .discard o, d, _, d' => d' = ⟨d.registry.discard o.key, d.events ++ [.dropped o]⟩

/-- What a delivery did. -/
structure Tells (named : Nat → String) (message : Message) (observers : List Registered)
    (tellings : List Telling) (d : DeliveryRecord) (n : Nat) (d' : DeliveryRecord) : Prop where
  told : tellings.map (fun t => t.observer) = observers
  events_eq : d'.events = d.events ++ tellings.flatMap (Telling.events message)
  registry_eq : d'.registry = tellings.foldl (Telling.after named) d.registry
  result_eq : n = tellings.countP Telling.accepted

variable {message : Message} {d d' : DeliveryRecord} {n : Nat} {observers : List Registered}
  {tellings : List Telling}

theorem tells_nil_iff :
    Tells named message [] tellings d n d' ↔ tellings = [] ∧ n = 0 ∧ d' = d := by
  constructor
  · rintro ⟨htold, hevents, hregistry, rfl⟩
    obtain rfl := List.map_eq_nil_iff.mp htold
    obtain ⟨registry, events⟩ := d'
    simp only [List.flatMap_nil, List.append_nil, List.foldl_nil] at hevents hregistry
    exact ⟨rfl, rfl, by rw [hevents, hregistry]⟩
  · rintro ⟨rfl, rfl, rfl⟩
    exact ⟨rfl, (List.append_nil _).symm, rfl, rfl⟩

theorem tells_cons_iff {o : Registered} : Tells named message (o :: observers) tellings d n d' ↔
    ∃ t rest m, tellings = t :: rest ∧ t.observer = o ∧ n = m + (if t.accepted then 1 else 0) ∧
      Tells named message observers rest
        ⟨t.after named d.registry, d.events ++ t.events message⟩ m d' := by
  constructor
  · rintro ⟨htold, hevents, hregistry, rfl⟩
    obtain ⟨t, rest, rfl, ho, hrest⟩ := List.map_eq_cons_iff.mp htold
    refine ⟨t, rest, _, rfl, ho, List.countP_cons .., hrest, ?_, hregistry, rfl⟩
    rw [hevents, List.flatMap_cons, List.append_assoc]
  · rintro ⟨t, rest, m, rfl, rfl, rfl, hrest⟩
    refine ⟨by rw [List.map_cons, hrest.told], ?_, hrest.registry_eq, ?_⟩
    · rw [hrest.events_eq, List.flatMap_cons, List.append_assoc]
    · rw [List.countP_cons, hrest.result_eq]

/-- The runs of a delivery are the possible behaviours of those it tells. -/
theorem ends_deliverTo_iff :
    (deliverTo message observers).Ends (DeliveryCall.Acts named) d n d' ↔
      ∃ tellings, Tells named message observers tellings d n d' := by
  induction observers generalizing d n with
  | nil => simp [deliverTo, tells_nil_iff]
  | cons o rest ih =>
    simp only [deliverTo, Procedure.ends_call_iff, tells_cons_iff]
    constructor
    · rintro ⟨result, middle, ⟨changes, rfl⟩, hnext⟩
      cases result with
      | ok _ =>
        -- One that accepts is counted when the others have been told.
        obtain ⟨m, hrest, rfl⟩ := Procedure.ends_bind_done_iff.mp hnext
        obtain ⟨tellings, htells⟩ := ih.mp hrest
        exact ⟨_, ⟨o, changes, .ok ()⟩, tellings, m, rfl, rfl, rfl, htells⟩
      | error e =>
        -- One that fails is removed before the next one is told.
        obtain ⟨_, _, rfl, hrest⟩ := Procedure.ends_call_iff.mp hnext
        obtain ⟨tellings, htells⟩ := ih.mp hrest
        refine ⟨_, ⟨o, changes, .error e⟩, tellings, n, rfl, rfl, rfl, ?_⟩
        rw [List.append_assoc] at htells
        exact htells
    · rintro ⟨_, ⟨o, changes, result⟩, tellings, m, rfl, rfl, rfl, htells⟩
      refine ⟨result, _, ⟨changes, rfl⟩, ?_⟩
      have hrest := ih.mpr ⟨tellings, htells⟩
      cases result with
      | ok _ => exact Procedure.ends_bind_done_iff.mpr ⟨m, hrest, rfl⟩
      | error e =>
        refine Procedure.ends_call_iff.mpr ⟨(), _, rfl, ?_⟩
        rw [List.append_assoc]
        exact hrest

theorem ends_deliver_iff : (deliver message).Ends (DeliveryCall.Acts named) d n d' ↔
    ∃ tellings, Tells named message d.registry.observers tellings d n d' := by
  rw [deliver, Procedure.ends_call_iff]
  constructor
  · rintro ⟨observers, middle, ⟨rfl, rfl⟩, h⟩
    exact ends_deliverTo_iff.mp h
  · exact fun h => ⟨_, d, ⟨rfl, rfl⟩, ends_deliverTo_iff.mpr h⟩

/-! ### Who stays -/

namespace Registry

variable {r : Registry} {kept : List Registered}

/-- Observers that a change does not unregister keep their places. -/
theorem sublist_apply {c : RegistryChange} (h : kept.Sublist r.observers)
    (hc : ∀ o ∈ kept, c ≠ .unregister o.id) : kept.Sublist (c.apply named r).observers := by
  cases c with
  | register key =>
    rw [RegistryChange.apply, observers_register]
    split
    · exact h
    · exact h.trans (List.sublist_append_left ..)
  | unregister id =>
    have hall : kept.filter (fun o => o.id != id) = kept := by
      rw [List.filter_eq_self]
      intro o ho
      simpa using fun heq : o.id = id => hc o ho (by rw [heq])
    rw [RegistryChange.apply, observers_unregister, ← hall]
    exact h.filter _

theorem sublist_changes {changes : List RegistryChange} (h : kept.Sublist r.observers)
    (hchanges : ∀ o ∈ kept, .unregister o.id ∉ changes) :
    kept.Sublist (changes.foldl (RegistryChange.apply named) r).observers := by
  induction changes generalizing r with
  | nil => exact h
  | cons c rest ih =>
    refine ih (sublist_apply h fun o ho heq => ?_) fun o ho hmem => ?_
    · exact hchanges o ho (heq ▸ List.mem_cons_self ..)
    · exact hchanges o ho (List.mem_cons_of_mem _ hmem)

/-- An observer that fails is removed, and others keep their places. -/
theorem sublist_after {t : Telling} (h : kept.Sublist r.observers)
    (hchanges : ∀ o ∈ kept, .unregister o.id ∉ t.changes)
    (hfailed : ∀ o ∈ kept, t.accepted = false → o.key ≠ t.observer.key) :
    kept.Sublist (t.after named r).observers := by
  have hchanged : kept.Sublist (t.changed named r).observers := sublist_changes h hchanges
  unfold Telling.after
  split
  · exact hchanged
  · rename_i hrefused
    have hall : kept.filter (fun o => o.key != t.observer.key) = kept := by
      rw [List.filter_eq_self]
      intro o ho
      simpa using hfailed o ho (by simpa using hrefused)
    rw [observers_discard, ← hall]
    exact hchanged.filter _

theorem sublist_foldl_after {tellings : List Telling} (h : kept.Sublist r.observers)
    (hchanges : ∀ t ∈ tellings, ∀ o ∈ kept, .unregister o.id ∉ t.changes)
    (hfailed : ∀ t ∈ tellings, ∀ o ∈ kept, t.accepted = false → o.key ≠ t.observer.key) :
    kept.Sublist (tellings.foldl (Telling.after named) r).observers := by
  induction tellings generalizing r with
  | nil => exact h
  | cons t rest ih =>
    rw [List.forall_mem_cons] at hchanges hfailed
    exact ih (sublist_after h hchanges.1 hfailed.1) hchanges.2 hfailed.2

theorem Reachable.after (h : Reachable named r) (t : Telling) :
    Reachable named (t.after named r) := by
  unfold Telling.after
  split
  · exact h.changes _
  · exact (h.changes _).discard _

theorem Reachable.foldl_after (h : Reachable named r) (tellings : List Telling) :
    Reachable named (tellings.foldl (Telling.after named) r) := by
  induction tellings generalizing r with
  | nil => exact h
  | cons t rest ih => exact ih (h.after t)

/-- Only the very observer that failed is removed. -/
theorem Reachable.observers_discard_eq {o : Registered} (h : Reachable named r)
    (ho : o.id = named o.key) :
    (r.discard o.key).observers = r.observers.filter fun other => other ≠ o := by
  rw [observers_discard]
  refine List.filter_congr fun other hother => ?_
  have hid := h.id_eq other hother
  obtain ⟨key, id⟩ := o
  obtain ⟨key', id'⟩ := other
  simp only at ho hid
  subst ho hid
  by_cases hkey : key' = key <;> simp [hkey]

end Registry

/-- An observer that accepted, and that nobody unregistered meanwhile. -/
def Telling.Stays (tellings : List Telling) (t : Telling) : Prop :=
  t.accepted = true ∧ ∀ t' ∈ tellings, .unregister t.observer.id ∉ t'.changes

instance (tellings : List Telling) : DecidablePred (Telling.Stays tellings) := fun _ =>
  inferInstanceAs (Decidable (_ ∧ _))

namespace Tells

/-- The observers that stay keep their order. -/
theorem sublist (h : Tells named message d.registry.observers tellings d n d')
    (hreach : d.registry.Reachable named) :
    ((tellings.filter fun t => t.Stays tellings).map fun t => t.observer).Sublist
      d'.registry.observers := by
  have hkeys : (tellings.map fun t => t.observer.key).Nodup := by
    have hmap := hreach.keys_nodup
    rw [← h.told, List.map_map] at hmap
    exact hmap
  have hstays {o : Registered}
      (ho : o ∈ (tellings.filter fun t => t.Stays tellings).map fun t => t.observer) :
      ∃ t ∈ tellings, t.Stays tellings ∧ t.observer = o := by
    obtain ⟨t, ht, rfl⟩ := List.mem_map.mp ho
    obtain ⟨hmem, hstays⟩ := List.mem_filter.mp ht
    exact ⟨t, hmem, of_decide_eq_true hstays, rfl⟩
  rw [h.registry_eq]
  refine Registry.sublist_foldl_after ?_ ?_ ?_
  · rw [← h.told]
    exact List.filter_sublist.map _
  · rintro t ht o ho
    obtain ⟨t', -, hstays', rfl⟩ := hstays ho
    exact hstays'.2 t ht
  · -- One that failed is not one that accepted, for nobody is told twice.
    rintro t ht o ho hrefused hkey
    obtain ⟨t', ht', hstays', rfl⟩ := hstays ho
    obtain rfl := List.inj_on_of_nodup_map hkeys ht' ht hkey
    rw [hstays'.1] at hrefused
    cases hrefused

/-- A failure removes the observer that failed, and nobody else. -/
theorem dropped (h : Tells named message d.registry.observers tellings d n d')
    (hreach : d.registry.Reachable named) {before late : List Telling} {t : Telling}
    (hsplit : tellings = before ++ t :: late) (hrefused : t.accepted = false) :
    (t.after named (before.foldl (Telling.after named) d.registry)).observers =
      (t.changed named (before.foldl (Telling.after named) d.registry)).observers.filter
        fun o => o ≠ t.observer := by
  have hmem : t.observer ∈ d.registry.observers := by
    rw [← h.told, hsplit]
    exact List.mem_map_of_mem (List.mem_append_right _ (List.mem_cons_self ..))
  have hchanged := (hreach.foldl_after before).changes t.changes
  rw [Telling.after, if_neg (by rw [hrefused]; exact Bool.false_ne_true)]
  exact hchanged.observers_discard_eq (hreach.id_eq _ hmem)

end Tells

/-! ### All deliveries -/

/-- However a delivery is cut, what is registered can come about. -/
theorem Registry.Reachable.begins {α : Type} {p : Procedure DeliveryAnswer α}
    (h : d.registry.Reachable named) (hbegins : p.Begins (DeliveryCall.Acts named) d d') :
    d'.registry.Reachable named := by
  induction hbegins with
  | start p d => exact h
  | @call c next d middle d' answer hact _ ih =>
    refine ih ?_
    cases c with
    | registered =>
      obtain ⟨-, rfl⟩ := hact
      exact h
    | offer o message =>
      obtain ⟨changes, rfl⟩ := hact
      exact h.changes changes
    | discard o =>
      obtain rfl := hact
      exact h.discard o.key

/-- Whatever each observer does and answers, a delivery comes to an end. -/
theorem exists_tells (message : Message) (observers : List Registered) (d : DeliveryRecord)
    (behaviours : List (List RegistryChange × Except DeliveryError Unit))
    (hlength : behaviours.length = observers.length) :
    ∃ n d' tellings, Tells named message observers tellings d n d' ∧
      tellings.map (fun t => (t.changes, t.result)) = behaviours := by
  induction observers generalizing d behaviours with
  | nil =>
    obtain rfl := List.eq_nil_of_length_eq_zero hlength
    exact ⟨0, d, [], tells_nil_iff.mpr ⟨rfl, rfl, rfl⟩, rfl⟩
  | cons o rest ih =>
    cases behaviours with
    | nil => cases hlength
    | cons behaviour behaviours =>
      -- The others are told where the first one has left the registry.
      obtain ⟨m, d', tellings, htells, hmap⟩ := ih
        ⟨Telling.after named d.registry ⟨o, behaviour.1, behaviour.2⟩,
          d.events ++ Telling.events message ⟨o, behaviour.1, behaviour.2⟩⟩
        behaviours (Nat.succ.inj hlength)
      exact ⟨_, d', _, tells_cons_iff.mpr ⟨_, tellings, m, rfl, rfl, rfl, htells⟩, by
        rw [List.map_cons, hmap]⟩

/-- Whatever observers do while they are told: no two registered observers share an identifier at
any point of a delivery, every behaviour of the observers leads to an end, and a delivery tells
exactly the observers that were registered when it began, in their order. One that fails is removed
right after it was told, and nobody else is. Those that accept and are not unregistered by anybody
keep their order. The answer is how many accepted. -/
theorem deliver_tells (hreach : d.registry.Reachable named) :
    (∀ d' (changes : List RegistryChange), (deliver message).Begins (DeliveryCall.Acts named) d d' →
      ((changes.foldl (RegistryChange.apply named) d'.registry).observers.map
        fun o => o.id).Nodup) ∧
    (∀ behaviours : List (List RegistryChange × Except DeliveryError Unit),
      behaviours.length = d.registry.observers.length →
      ∃ n d', (deliver message).Ends (DeliveryCall.Acts named) d n d' ∧
        ∃ tellings, Tells named message d.registry.observers tellings d n d' ∧
          tellings.map (fun t => (t.changes, t.result)) = behaviours) ∧
    ∀ n d', (deliver message).Ends (DeliveryCall.Acts named) d n d' →
      ∃ tellings, Tells named message d.registry.observers tellings d n d' ∧
        (∀ before t late, tellings = before ++ t :: late → t.accepted = false →
          (t.after named (before.foldl (Telling.after named) d.registry)).observers =
            (t.changed named (before.foldl (Telling.after named) d.registry)).observers.filter
              fun o => o ≠ t.observer) ∧
        ((tellings.filter fun t => t.Stays tellings).map fun t => t.observer).Sublist
          d'.registry.observers := by
  refine ⟨fun d' changes hbegins => ?_, fun behaviours hlength => ?_, fun n d' hends => ?_⟩
  · exact ((hreach.begins hbegins).changes changes).ids_nodup
  · obtain ⟨n, d', tellings, htells, hmap⟩ := exists_tells message _ d behaviours hlength
    exact ⟨n, d', ends_deliver_iff.mpr ⟨tellings, htells⟩, tellings, htells, hmap⟩
  · obtain ⟨tellings, htells⟩ := ends_deliver_iff.mp hends
    exact ⟨tellings, htells, fun before t late => htells.dropped hreach, htells.sublist hreach⟩

/-! ### The bench -/

namespace DeliveryBench

variable {b : DeliveryBench}

/-- The observers of the bench have the identifiers that they are named by. -/
def Named (named : Nat → String) (b : DeliveryBench) : Prop :=
  ∀ o ∈ b.observers, o.registered.id = named o.registered.key

theorem Named.of_keyed? (h : b.Named named) {o : BenchObserver} (ho : b.keyed? key = some o) :
    o.registered.id = named o.registered.key :=
  h o (List.mem_of_find?_eq_some ho)

theorem Named.of_held? (h : b.Named named) {name : String} {o : BenchObserver}
    (ho : b.held? name = some o) : o.registered.id = named o.registered.key := by
  obtain ⟨hnamed, -⟩ := Option.filter_eq_some_iff.mp ho
  exact h o (List.mem_reverse.mp (List.mem_of_find?_eq_some hnamed))

theorem Named.put (h : b.Named named) {o : BenchObserver}
    (ho : o.registered.id = named o.registered.key) : (b.put o).Named named := by
  intro other hother
  obtain ⟨before, hbefore, rfl⟩ := List.mem_map.mp hother
  split
  · exact ho
  · exact h before hbefore

/-- A name of the bench that is registered is a change of the registry. -/
theorem Named.register (h : b.Named named) (name : String) :
    ∃ changes, (b.register name).2.registry =
        List.foldl (RegistryChange.apply named) b.registry changes ∧
      (b.register name).2.Named named := by
  unfold DeliveryBench.register
  split
  · exact ⟨[], rfl, h⟩
  · rename_i o ho
    refine ⟨[.register o.registered.key], ?_, h⟩
    rw [List.foldl_cons, List.foldl_nil, RegistryChange.apply, ← h.of_held? ho]

/-- What an observer unregisters, if anything. -/
theorem Named.unregisters (h : b.Named named) (drop : Option String) :
    ∃ (b' : DeliveryBench) (changes : List RegistryChange),
      (match drop with
        | some id => { (b.unregister id).2 with inner := b.inner ++ [(b.unregister id).1] }
        | none => b) = b' ∧
      b'.registry = changes.foldl (RegistryChange.apply named) b.registry ∧ b'.Named named := by
  cases drop with
  | none => exact ⟨b, [], rfl, rfl, h⟩
  | some id => exact ⟨_, [.unregister id], rfl, rfl, h⟩

/-- What an observer registers, if anything. -/
theorem Named.registers (h : b.Named named) (added : Option String) :
    ∃ (b' : DeliveryBench) (changes : List RegistryChange),
      (match added with
        | some name =>
          match b.register name with
          | (some result, b) => { b with inner := b.inner ++ [result] }
          | (none, b) => b
        | none => b) = b' ∧
      b'.registry = changes.foldl (RegistryChange.apply named) b.registry ∧ b'.Named named := by
  cases added with
  | none => exact ⟨b, [], rfl, rfl, h⟩
  | some name =>
    obtain ⟨changes, hregistry, hnamed⟩ := h.register name
    refine ⟨_, changes, rfl, ?_, ?_⟩ <;>
    · dsimp only
      generalize b.register name = result at hregistry hnamed ⊢
      rcases result with ⟨_ | _, b'⟩ <;> first | exact hregistry | exact hnamed

/-- An observer of the bench does nothing to the registry but change it. -/
theorem Named.tell (h : b.Named named) {o : BenchObserver}
    (ho : o.registered.id = named o.registered.key) (message : Message) :
    ∃ changes : List RegistryChange, (b.tell o message).2.registry =
        changes.foldl (RegistryChange.apply named) b.registry ∧
      (b.tell o message).2.Named named := by
  obtain ⟨name, registered, state, held⟩ := o
  cases state with
  | mailbox m => exact ⟨[], rfl, h.put ho⟩
  | writer w => exact ⟨[], rfl, h.put ho⟩
  | failing reason => exact ⟨[], rfl, h⟩
  | reentrant drop added fails =>
    -- It unregisters first and registers then.
    obtain ⟨middle, first, rfl, hfirst, hnamed⟩ := h.unregisters drop
    obtain ⟨last, second, rfl, hsecond, hnamed'⟩ := hnamed.registers added
    refine ⟨first ++ second, ?_, hnamed'⟩
    rw [List.foldl_append, ← hfirst]
    exact hsecond

/-- A call that the bench answers is a call of a delivery. -/
theorem Named.acts (h : b.Named named) (c : DeliveryCall) (events : List DeliveryEvent) :
    ∃ events', DeliveryCall.Acts named c ⟨b.registry, events⟩ (serve c b).1
        ⟨(serve c b).2.registry, events'⟩ ∧ (serve c b).2.Named named := by
  cases c with
  | registered => exact ⟨events, ⟨rfl, rfl⟩, h⟩
  | discard o => exact ⟨_, rfl, h⟩
  | offer o message =>
    simp only [serve]
    split
    · rename_i found hfound
      obtain ⟨changes, hregistry, hnamed⟩ := h.tell (h.of_keyed? hfound) message
      refine ⟨events ++ [.told message ⟨o, changes, (b.tell found message).1⟩], ⟨changes, ?_⟩,
        hnamed⟩
      rw [hregistry]
      rfl
    · exact ⟨_, ⟨[], rfl⟩, h⟩

/-- What the bench does for a procedure is one of the procedure's runs. -/
theorem Named.ends {α : Type} (h : b.Named named) (p : Procedure DeliveryAnswer α)
    (events : List DeliveryEvent) :
    ∃ events', p.Ends (DeliveryCall.Acts named) ⟨b.registry, events⟩ (p.run serve b).1
      ⟨(p.run serve b).2.registry, events'⟩ := by
  induction p generalizing b events with
  | done a => exact ⟨events, .done a _⟩
  | call c next ih =>
    obtain ⟨middle, hact, hnamed⟩ := h.acts c events
    obtain ⟨events', hrest⟩ := ih _ hnamed middle
    exact ⟨events', .call hact hrest⟩

end DeliveryBench

/-- Three observers. The first one unregisters itself, registers another observer under its own
identifier, and fails. The second one accepts, and the third one fails. -/
def crossing : DeliveryBench :=
  let observers := DeliveryBench.empty
    |>.add "first" "a" (.reentrant (some "a") (some "again") true)
    |>.add "second" "b" (.mailbox (.fresh 1 1))
    |>.add "third" "c" (.failing "full")
    |>.add "again" "a" (.mailbox (.fresh 1 1))
  { observers with registry := ⟨[⟨0, "a"⟩, ⟨1, "b"⟩, ⟨2, "c"⟩]⟩ }

/-- The identifiers on the bench. -/
def crossingNames : Nat → String
  | 0 | 3 => "a"
  | 1 => "b"
  | _ => "c"

theorem reachable_crossing : crossing.registry.Reachable crossingNames :=
  Registry.Reachable.empty.changes [.register 0, .register 1, .register 2]

/-- The other observer with the identifier of the first one is still registered at the end, although
the first one was removed for its failure. -/
theorem deliver_tells_crossing :
    crossing.registry.Reachable crossingNames ∧
    ((deliver .fixLost).run DeliveryBench.serve crossing).2.registry = ⟨[⟨1, "b"⟩, ⟨3, "a"⟩]⟩ ∧
    ∃ tellings : List Telling,
      tellings.map (fun t => t.observer) = [⟨0, "a"⟩, ⟨1, "b"⟩, ⟨2, "c"⟩] ∧
      tellings.countP Telling.accepted = 1 := by
  have hnamed : crossing.Named crossingNames := by
    intro o ho
    have hall : ∀ o ∈ crossing.observers,
      o.registered.id = crossingNames o.registered.key := by decide +kernel
    exact hall o ho
  obtain ⟨events, hends⟩ := hnamed.ends (deliver .fixLost) []
  obtain ⟨tellings, htells, -, -⟩ := (deliver_tells reachable_crossing).2.2 _ _ hends
  refine ⟨reachable_crossing, by decide +kernel, tellings, htells.told, ?_⟩
  rw [← htells.result_eq]
  decide +kernel

end TripRecorder
