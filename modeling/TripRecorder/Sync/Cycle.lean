import TripRecorder.Sync.Upload
import TripRecorder.Transfer.Zlib
import TripRecorder.Settings.Preferences

/-!
# Sync cycles

A cycle sends every finished measurement to the collector, in the order of their identifiers, until
one fails. A measurement the collector has is emptied and marked synced.

## Main definitions

* `SyncCall` — what a cycle asks for
* `syncMeasurement`, `syncCycle` — the procedures for one measurement and for all
* `SyncReport` — what a cycle did
-/

namespace TripRecorder

/-- What a credential provider answers in time. -/
inductive TokenAnswer where
  | granted (token : String)
  /-- The account has no token. -/
  | absent
  /-- No answer came in time. -/
  | late
deriving DecidableEq, Repr

/-- What a cycle asks for. -/
inductive SyncCall where
  /-- A token for an account, within some milliseconds. -/
  | token (account : String) (timeoutMs : Nat)
  | preference (key : String)
  | store (c : StoreCall)
  | upload (request : UploadRequest)

/-- The answers. -/
def SyncAnswer : SyncCall → Type
  | .token _ _ => TokenAnswer
  | .preference _ => Option String
  | .store c => StoreAnswer c
  | .upload _ => Except SyncError Outcome

/-- What a cycle did. -/
structure SyncReport where
  /-- The measurements that are with the collector now. -/
  synced : List MeasurementId
  /-- Those among them the collector had before. -/
  alreadyPresent : List MeasurementId
  /-- The measurement that ended the cycle. -/
  aborted : Option (MeasurementId × SyncError)
deriving DecidableEq, Repr

/-- A cycle that went through to its end. -/
def SyncReport.isComplete (r : SyncReport) : Bool := r.aborted.isNone

/-- What a cycle needs to send anything. -/
structure SyncAccess where
  token : String
  endpoint : String
  device : String
deriving DecidableEq, Repr

/-- A procedure of a cycle that may fail. -/
abbrev Syncing (α : Type) := ExceptT SyncError (Procedure SyncAnswer) α

/-- A call of the store that may fail. -/
def askStore {α : Type} (c : StoreCall) (read : StoreAnswer c → Except StoreError α) : Syncing α :=
  ExceptT.mk (.call (.store c) fun answer =>
    match read answer with
    | .ok a => .done (.ok a)
    | .error e => .done (.error (.storage e)))

/-- A procedure of the store within a cycle. -/
def onStore {α : Type} (p : Procedure StoreAnswer α) : Procedure SyncAnswer α :=
  p.mapCalls SyncCall.store fun _ answer => answer

/-- The frame with the bytes of a measurement. -/
def packMeasurement (queryLimit : Nat) (id : MeasurementId) : Syncing (List UInt8) :=
  ExceptT.mk <|
    (onStore (collectBytes [] (serialize queryLimit id))).bind fun
      | (.ok _, bytes) => .done (.ok (Zlib.wrap bytes))
      | (.error e, _) => .done (.error (.ofSerialize e))

/-- Sends one measurement. When the collector has it, its points are removed and it is marked. -/
def syncMeasurement (queryLimit : Nat) (access : SyncAccess) (id : MeasurementId) :
    Syncing Outcome := do
  let body ← packMeasurement queryLimit id
  let outcome ← ExceptT.mk
    (.call (.upload ⟨access.endpoint, access.token, access.device, id, body⟩) .done)
  let _ ← askStore (.clean id) fun answer => answer
  askStore (.setStatus id .synced) fun answer => answer
  return outcome

/-- Sends measurements one after another until one fails, after those sent already. -/
def syncAll (queryLimit : Nat) (access : SyncAccess) (done : SyncReport) :
    List MeasurementId → Procedure SyncAnswer SyncReport
  | [] => .done done
  | id :: rest => (syncMeasurement queryLimit access id).run.bind fun
    | .error e => .done { done with aborted := some (id, e) }
    | .ok .created => syncAll queryLimit access { done with synced := done.synced ++ [id] } rest
    | .ok .alreadyPresent =>
      syncAll queryLimit access
        { done with synced := done.synced ++ [id]
                    alreadyPresent := done.alreadyPresent ++ [id] } rest

/-- The token of an account. -/
def askToken (account : String) (timeoutMs : Nat) : Syncing String :=
  ExceptT.mk (.call (.token account timeoutMs) fun
    | .granted token => .done (.ok token)
    | .absent => .done (.error (.credentialUnavailable s!"no token for account {account}"))
    | .late =>
      .done (.error (.credentialUnavailable s!"token request timed out after {timeoutMs} ms")))

/-- A preference without which a cycle fails. -/
def askPreference (key : String) (missing : SyncError) : Syncing String :=
  ExceptT.mk (.call (.preference key) fun
    | some value => .done (.ok value)
    | none => .done (.error missing))

/-- One cycle: token, endpoint and device are asked for in this order before anything is sent. -/
def syncCycle (queryLimit timeoutMs : Nat) (account : String) :
    Procedure SyncAnswer (Except SyncError SyncReport) :=
  ExceptT.run do
    let token ← askToken account timeoutMs
    let endpoint ← askPreference endpointKey .endpointUnconfigured
    let device ← askPreference deviceKey .deviceIdUnconfigured
    let ids ← askStore .syncable fun answer => answer
    ExceptT.lift (syncAll queryLimit ⟨token, endpoint, device⟩ ⟨[], [], none⟩ ids)

end TripRecorder
