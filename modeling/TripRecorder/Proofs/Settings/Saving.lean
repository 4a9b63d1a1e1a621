import TripRecorder.Proofs.Procedure
import TripRecorder.Proofs.Settings.Preferences
import TripRecorder.Sync.Cycle

/-!
# Texts that could not be saved

A text is put under its key before the file is written. When the file cannot be written the call
fails, but the text stays in memory: it is found under its key until another one is put there or the
file is opened again, the device goes by an identifier that was never saved, and a cycle sends
measurements to an address that was never saved.

## Main definitions

* `PreferenceStep`, `Preferences.advance` — calls, and changes of the file by someone else
* `PreferenceStep.Keeps` — a step that puts no text under a key and does not open the file again
* `SyncCall.sending` — preferences with some texts, and uploads of some kind

## Main results

* `FilePreferences.set_error_iff` — when a text cannot be saved, and what is left then
* `Preferences.get?_advance` — a text stays, whatever becomes of the file
* `SyncCall.meets_syncCycle` — the uploads of a cycle go where the preferences say
* `FilePreferences.unsaved` — what a failed call leaves behind
-/

namespace TripRecorder

/-- A call, or a change of the file by someone else. -/
inductive PreferenceStep where
  | call (c : PreferenceCall)
  /-- Something else is found under the name of the file. -/
  | place (file : TextFile)
deriving DecidableEq, Repr

/-- The step puts no text under the key, and does not open the file again. -/
def PreferenceStep.Keeps (key : String) : PreferenceStep → Prop
  | .call (.set k _) => k ≠ key
  | .call .reopen => False
  | _ => True

namespace FilePreferences

variable {p : FilePreferences} {key value fresh : String} {e : SettingsError}

/-- A text cannot be saved where a directory has the name of the file. The file stays as it is, but
the text is in memory. -/
theorem set_error_iff :
    (p.set key value).1 = .error e ↔ e = .io ∧ p.file = .directory := by
  unfold set
  dsimp only
  cases p.file with
  | directory => exact ⟨fun h => ⟨(Except.error.inj h).symm, rfl⟩, fun h => h.1 ▸ rfl⟩
  | absent => exact ⟨nofun, fun h => nomatch h.2⟩
  | text content => exact ⟨nofun, fun h => nomatch h.2⟩
  | garbled => exact ⟨nofun, fun h => nomatch h.2⟩

/-- Nothing is written by a call that fails. -/
theorem file_set_of_error (h : (p.set key value).1 = .error e) :
    (p.set key value).2.file = p.file := by
  obtain ⟨-, hfile⟩ := set_error_iff.mp h
  unfold set
  dsimp only
  rw [hfile]
  rfl

/-- All texts are found as before exactly if the new text was under its key already. -/
theorem get?_set_eq_iff :
    (∀ k, (p.set key value).2.get? k = p.get? k) ↔ p.get? key = some value := by
  constructor
  · intro h
    rw [← h key, get?_set, if_pos rfl]
  · intro h k
    rw [get?_set]
    split_ifs with hkey
    · rw [hkey, h]
    · rfl

/-- An identifier that cannot be saved is one that was just made up, and it is in memory. -/
theorem deviceId_error (h : (p.deviceId fresh).1 = .error e) :
    p.get? deviceKey = none ∧ (p.set deviceKey fresh).1 = .error e ∧
      (p.deviceId fresh).2 = (p.set deviceKey fresh).2 := by
  cases hid : p.get? deviceKey with
  | some id =>
    rw [deviceId_of_some hid] at h
    cases h
  | none =>
    rw [deviceId_of_none hid] at h ⊢
    refine ⟨rfl, ?_, rfl⟩
    cases hset : (p.set deviceKey fresh).1 with
    | ok u =>
      rw [hset] at h
      cases h
    | error e' =>
      rw [hset] at h
      exact congrArg Except.error (Except.error.inj h)

end FilePreferences

/-! ### A text stays in memory -/

namespace Preferences

variable {p : Preferences} {key text : String}

/-- The preferences after a step. -/
def advance (p : Preferences) : PreferenceStep → Preferences
  | .call c => (p.act c).2
  | .place place => p.withFile place

theorem get?_set (p : Preferences) (key value k : String) :
    (p.set key value).2.get? k = if k = key then some value else p.get? k := by
  cases p with
  | memory m => exact m.get?_set key value k
  | file f => exact f.get?_set key value k

/-- A device that has an identifier keeps it. -/
theorem deviceId_of_some {id : String} (h : p.get? deviceKey = some id) (fresh : String) :
    p.deviceId fresh = (.ok id, p) := by
  cases p with
  | memory m =>
    have hid : m.get? deviceKey = some id := h
    rw [deviceId, MemoryPreferences.deviceId, hid]
  | file f => rw [deviceId, FilePreferences.deviceId_of_some h]

/-- The identifier of a device that has none is put under its key. -/
theorem snd_deviceId_of_none (h : p.get? deviceKey = none) (fresh : String) :
    (p.deviceId fresh).2 = (p.set deviceKey fresh).2 := by
  cases p with
  | memory m =>
    have hid : m.get? deviceKey = none := h
    rw [deviceId, MemoryPreferences.deviceId, hid]
    rfl
  | file f =>
    rw [deviceId, FilePreferences.deviceId_of_none h]
    rfl

/-- Asking for the identifier of the device changes no text that is there. -/
theorem get?_deviceId (h : p.get? key = some text) (fresh : String) :
    (p.deviceId fresh).2.get? key = some text := by
  cases hid : p.get? deviceKey with
  | some id => rw [deviceId_of_some hid, h]
  | none =>
    have hkey : key ≠ deviceKey := by
      rintro rfl
      exact Option.some_ne_none text (h.symm.trans hid)
    rw [snd_deviceId_of_none hid, get?_set, if_neg hkey, h]

/-- A text stays with every step that keeps its key. -/
theorem get?_advance (h : p.get? key = some text) {s : PreferenceStep} (hs : s.Keeps key) :
    (p.advance s).get? key = some text := by
  cases s with
  | place place => cases p <;> exact h
  | call c =>
    cases c with
    | get k => exact h
    | set k value =>
      have hset := p.get?_set k value key
      rw [if_neg (Ne.symm hs)] at hset
      exact hset.trans h
    | device fresh => exact get?_deviceId h fresh
    | reopen => exact hs.elim

/-- A text stays as long as its key is kept. -/
theorem get?_foldl_advance (h : p.get? key = some text) {steps : List PreferenceStep}
    (hsteps : ∀ s ∈ steps, s.Keeps key) : (steps.foldl advance p).get? key = some text := by
  induction steps generalizing p with
  | nil => exact h
  | cons s rest ih =>
    obtain ⟨hs, hrest⟩ := List.forall_mem_cons.mp hsteps
    exact ih (get?_advance h hs) hrest

/-- A text that was put under a key is found there as long as the key is kept, whether it was saved
or not. -/
theorem get?_foldl_set (p : FilePreferences) (key value : String) {steps : List PreferenceStep}
    (hsteps : ∀ s ∈ steps, s.Keeps key) :
    (steps.foldl advance (.file (p.set key value).2)).get? key = some value := by
  refine get?_foldl_advance ?_ hsteps
  exact (p.get?_set key value key).trans (if_pos rfl)

end Preferences

/-! ### Cycles use what is in memory -/

namespace SyncCall

/-- Preferences are answered by some texts, and all uploads are of some kind. -/
def sending (get? : String → Option String) (kind : UploadRequest → Prop) :
    Contract SyncAnswer where
  allows
    | .upload request => kind request
    | _ => True
  answers
    | .preference key, answer => answer = get? key
    | _, _ => True

section Cycle

variable {get? : String → Option String} {kind : UploadRequest → Prop} {α β : Type}

/-- As long as preferences are answered by the texts, all uploads are of the kind. -/
def Sends (get? : String → Option String) (kind : UploadRequest → Prop) (x : Syncing α) : Prop :=
  x.run.Meets (sending get? kind) fun _ => True

theorem Sends.bind {x : Syncing α} {f : α → Syncing β} (hx : Sends get? kind x)
    (hf : ∀ a, Sends get? kind (f a)) : Sends get? kind (x >>= f) :=
  Procedure.Meets.bind_except (hx.mono fun _ _ _ _ => trivial) (fun _ => trivial)
    fun a (_ : True) => hf a

theorem sends_pure (a : α) : Sends get? kind (pure a) := trivial

theorem sends_askStore (c : StoreCall) (read : StoreAnswer c → Except StoreError α) :
    Sends get? kind (askStore c read) := by
  refine ⟨trivial, fun answer _ => ?_⟩
  dsimp only
  split <;> trivial

theorem sends_packMeasurement (queryLimit : Nat) (id : MeasurementId) :
    Sends get? kind (packMeasurement queryLimit id) := by
  -- The store is asked for everything, and it sends nothing.
  have hasks : (onStore (collectBytes [] (serialize queryLimit id))).Asks
      fun c => ∃ stored, c = SyncCall.store stored :=
    (Procedure.asks_true _).mapCalls fun c _ => ⟨c, rfl⟩
  have hstored := hasks.meets (k := sending get? kind) fun c hc => by
    obtain ⟨stored, rfl⟩ := hc
    trivial
  refine hstored.bind fun r _ => ?_
  obtain ⟨result, bytes⟩ := r
  cases result <;> trivial

/-- The upload for a measurement goes to the endpoint, in the name of the device. -/
theorem sends_syncMeasurement {access : SyncAccess}
    (h : ∀ request : UploadRequest, request.endpoint = access.endpoint →
      request.device = access.device → kind request) (queryLimit : Nat) (id : MeasurementId) :
    Sends get? kind (syncMeasurement queryLimit access id) := by
  -- There is one upload, between the body and the new status.
  refine (sends_packMeasurement queryLimit id).bind fun body => ?_
  have hupload : Sends get? kind (ExceptT.mk
      (.call (.upload ⟨access.endpoint, access.token, access.device, id, body⟩) .done)) :=
    ⟨h _ rfl rfl, fun _ _ => trivial⟩
  refine hupload.bind fun outcome => (sends_askStore _ _).bind fun _ => ?_
  exact (sends_askStore _ _).bind fun _ => sends_pure outcome

theorem meets_syncAll {access : SyncAccess}
    (h : ∀ request : UploadRequest, request.endpoint = access.endpoint →
      request.device = access.device → kind request) (queryLimit : Nat) (report : SyncReport)
    (ids : List MeasurementId) :
    (syncAll queryLimit access report ids).Meets (sending get? kind) fun _ => True := by
  induction ids generalizing report with
  | nil => trivial
  | cons id rest ih =>
    refine Procedure.Meets.bind (sends_syncMeasurement h queryLimit id) fun r _ => ?_
    rcases r with e | outcome | outcome
    · trivial
    · exact ih _
    · exact ih _

/-- Every upload of a cycle goes to the endpoint among the texts, in the name of the device among
them. -/
theorem sends_syncCycle
    (h : ∀ request : UploadRequest, get? endpointKey = some request.endpoint →
      get? deviceKey = some request.device → kind request)
    (queryLimit timeoutMs : Nat) (account : String) :
    (syncCycle queryLimit timeoutMs account).Meets (sending get? kind) fun _ => True := by
  have htoken : Sends get? kind (askToken account timeoutMs) := by
    refine ⟨trivial, fun answer _ => ?_⟩
    cases answer <;> trivial
  have hpreference (key : String) (missing : SyncError) :
      (askPreference key missing).run.Meets (sending get? kind)
        fun r => ∀ text, r = .ok text → get? key = some text := by
    refine ⟨trivial, fun answer hanswer => ?_⟩
    obtain rfl : answer = get? key := hanswer
    dsimp only
    cases get? key with
    | none => exact fun _ h => nomatch h
    | some text => exact fun _ h => congrArg some (Except.ok.inj h)
  -- Nothing is sent before both texts are found.
  refine htoken.bind fun token => ?_
  refine (hpreference _ _).bind_except (fun _ => trivial) fun endpoint hendpoint => ?_
  refine (hpreference _ _).bind_except (fun _ => trivial) fun device hdevice => ?_
  refine (sends_askStore _ _).bind fun ids => ?_
  have hall : (syncAll queryLimit ⟨token, endpoint, device⟩ ⟨[], [], none⟩ ids).Meets
      (sending get? kind) fun _ => True :=
    meets_syncAll (fun request hrequest hrequest' =>
      h request (hendpoint.trans (congrArg some hrequest.symm))
        (hdevice.trans (congrArg some hrequest'.symm))) queryLimit _ ids
  exact hall.bind fun _ _ => trivial

end Cycle

end SyncCall

/-! ### Calls that fail -/

namespace FilePreferences

/-- A text that could not be saved: the file stays as it is, but from now on the text is found under
its key, so nothing was changed exactly if it was there before. An identifier that could not be
saved is answered by later calls. Neither is forgotten before the key is set or the file is opened
again, and until then cycles send measurements to that endpoint and in the name of that device. -/
theorem unsaved (p : FilePreferences) :
    (∀ key value e, (p.set key value).1 = .error e →
      (p.set key value).2.file = p.file ∧
      ((∀ k, (p.set key value).2.get? k = p.get? k) ↔ p.get? key = some value) ∧
      ∀ steps : List PreferenceStep, (∀ s ∈ steps, s.Keeps key) →
        let later := steps.foldl Preferences.advance (.file (p.set key value).2)
        later.get? key = some value ∧
        (key = endpointKey → ∀ queryLimit timeoutMs account,
          (syncCycle queryLimit timeoutMs account).Meets
            (SyncCall.sending later.get? fun request => request.endpoint = value)
            fun _ => True)) ∧
    ∀ fresh e, (p.deviceId fresh).1 = .error e →
      p.get? deviceKey = none ∧ (p.deviceId fresh).2.file = p.file ∧
      ∀ steps : List PreferenceStep, (∀ s ∈ steps, s.Keeps deviceKey) →
        let later := steps.foldl Preferences.advance (.file (p.deviceId fresh).2)
        (∀ fresh', (later.deviceId fresh').1 = .ok fresh) ∧
        ∀ queryLimit timeoutMs account,
          (syncCycle queryLimit timeoutMs account).Meets
            (SyncCall.sending later.get? fun request => request.device = fresh)
            fun _ => True := by
  refine ⟨fun key value e h => ⟨file_set_of_error h, get?_set_eq_iff, ?_⟩, fun fresh e h => ?_⟩
  · intro steps hsteps later
    have hkept : later.get? key = some value := Preferences.get?_foldl_set p key value hsteps
    refine ⟨hkept, ?_⟩
    rintro rfl queryLimit timeoutMs account
    exact SyncCall.sends_syncCycle (fun request hendpoint _ =>
      Option.some.inj (hendpoint.symm.trans hkept)) queryLimit timeoutMs account
  · -- The call failed to put the identifier that it made up under its key.
    obtain ⟨hid, hset, hleft⟩ := deviceId_error h
    rw [hleft]
    refine ⟨hid, file_set_of_error hset, ?_⟩
    intro steps hsteps later
    have hkept : later.get? deviceKey = some fresh :=
      Preferences.get?_foldl_set p deviceKey fresh hsteps
    refine ⟨fun fresh' => ?_, fun queryLimit timeoutMs account => ?_⟩
    · rw [Preferences.deviceId_of_some hkept]
    · exact SyncCall.sends_syncCycle (fun request _ hdevice =>
        Option.some.inj (hdevice.symm.trans hkept)) queryLimit timeoutMs account

/-- Preferences whose file was replaced by a directory. -/
def displaced : FilePreferences := ⟨[("a", .string "1")], .directory⟩

/-- A failed call, and a failed first look at the identifier of the device. -/
theorem unsaved_displaced :
    (displaced.set "a" "2").1 = .error .io ∧ (displaced.set "a" "2").2.file = displaced.file ∧
    ((∀ k, (displaced.set "a" "2").2.get? k = displaced.get? k) ↔
      displaced.get? "a" = some "2") ∧
    (displaced.deviceId "0f").1 = .error .io ∧
    ((Preferences.file (displaced.deviceId "0f").2).deviceId "1e").1 = .ok "0f" := by
  obtain ⟨hset, hdevice⟩ := unsaved displaced
  obtain ⟨hfile, hsame, -⟩ := hset "a" "2" .io rfl
  obtain ⟨-, -, hlater⟩ := hdevice "0f" .io rfl
  exact ⟨rfl, hfile, hsame, rfl, (hlater [] nofun).1 "1e"⟩

/-- A text that was not saved takes the place of the one that was. -/
theorem get?_displaced :
    (displaced.set "a" "2").1 = .error .io ∧ displaced.get? "a" = some "1" ∧
      (displaced.set "a" "2").2.get? "a" = some "2" := by
  decide

end FilePreferences

end TripRecorder
