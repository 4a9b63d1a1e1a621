import TripRecorder.Transfer.Serializer

/-!
# Sync errors

## Main definitions

* `SyncError` — why a measurement was not handed to the collector
* `SyncError.message` — its text
* `SyncError.needsLogin` — whether a new login may help
-/

namespace TripRecorder

/-- Why a measurement was not handed to the collector. -/
inductive SyncError where
  | credentialUnavailable (detail : String)
  | endpointUnconfigured
  | deviceIdUnconfigured
  | clientSetup (detail : String)
  | remoteUnreachable (detail : String)
  /-- The answer of the collector cannot be understood. -/
  | malformedResponse (status : Nat) (body : String)
  | badRequest (reason : String)
  | unauthorized (reason : String)
  | requestRejected (status : Nat) (reason : String)
  | storage (error : StoreError)
  | serialization (detail : String)
deriving DecidableEq, Repr

namespace SyncError

/-- The name of an error. -/
def name : SyncError → String
  | credentialUnavailable _ => "CredentialUnavailable"
  | endpointUnconfigured => "EndpointUnconfigured"
  | deviceIdUnconfigured => "DeviceIdUnconfigured"
  | clientSetup _ => "ClientSetup"
  | remoteUnreachable _ => "RemoteUnreachable"
  | malformedResponse _ _ => "MalformedResponse"
  | badRequest _ => "BadRequest"
  | unauthorized _ => "Unauthorized"
  | requestRejected _ _ => "RequestRejected"
  | storage _ => "Storage"
  | serialization _ => "Serialization"

/-- The text of an error. -/
def message : SyncError → String
  | credentialUnavailable detail => s!"No valid auth token available: {detail}"
  | endpointUnconfigured => "Unable to read synchronization endpoint from settings"
  | deviceIdUnconfigured => "Unable to read device identifier from settings"
  | clientSetup detail => s!"Unable to set up the HTTP client: {detail}"
  | remoteUnreachable detail => s!"Remote unreachable: {detail}"
  | malformedResponse status body => s!"Malformed response (status {status}): {body}"
  | badRequest reason => s!"Bad request: {reason}"
  | unauthorized reason => s!"Unauthorized: {reason}"
  | requestRejected status reason => s!"Request rejected with status {status}: {reason}"
  | storage error => s!"Storage error: {error.message}"
  | serialization detail => s!"Serialization failed: {detail}"

/-- A new login may help. -/
def needsLogin : SyncError → Bool
  | credentialUnavailable _ => true
  | unauthorized _ => true
  | _ => false

/-- The error of a measurement that cannot be serialized. -/
def ofSerialize : SerializeError → SyncError
  | .storage error => storage error
  | .io detail => serialization detail
  | .inconsistent id table expected read =>
    serialization (SerializeError.inconsistent id table expected read).message

end SyncError

end TripRecorder
