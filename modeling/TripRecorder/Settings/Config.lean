import TripRecorder.Json.Record
import TripRecorder.Json.Printer
import TripRecorder.Settings.TextFile

/-!
# Configuration

Every value has a default, so that an empty object is a configuration.

## Main definitions

* `CaptureConfig`, `StorageConfig`, `SyncConfig`, `AppConfig`
* `AppConfig.load`, `AppConfig.text` — the configuration of a file, and the text saved for one
-/

namespace TripRecorder

open Json Record

/-- How a trip is recorded. -/
structure CaptureConfig where
  /-- The most samples one message holds. -/
  chunkSize : Nat
  /-- The number of buffered samples that are released at once. -/
  flushThreshold : Nat
  flushIntervalMs : Nat
  /-- How long requests to the recorder wait for their answer. -/
  pauseResumeTimeoutMs : Nat
  observerSendTimeoutMs : Nat
  minSatellitesForFix : UInt32
  locationFixTimeoutMs : Nat
deriving DecidableEq, Repr

/-- The defaults of recording. -/
def CaptureConfig.standard : CaptureConfig := ⟨400, 1000, 1000, 10000, 100, 4, 2000⟩

instance : Coded CaptureConfig where
  ofTree? t := do
    let d := CaptureConfig.standard
    match ← partialFields? ["chunk_size", "flush_threshold", "flush_interval_ms",
        "pause_resume_timeout_ms", "observer_send_timeout_ms", "min_satellites_for_fix",
        "location_fix_timeout_ms"] t with
    | [chunk, threshold, interval, timeout, send, satellites, location] =>
      return ⟨← defaulted d.chunkSize chunk, ← defaulted d.flushThreshold threshold,
        ← defaulted d.flushIntervalMs interval, ← defaulted d.pauseResumeTimeoutMs timeout,
        ← defaulted d.observerSendTimeoutMs send, ← defaulted d.minSatellitesForFix satellites,
        ← defaulted d.locationFixTimeoutMs location⟩
    | _ => none
  toJson c := .object [("chunk_size", toJson c.chunkSize),
    ("flush_threshold", toJson c.flushThreshold), ("flush_interval_ms", toJson c.flushIntervalMs),
    ("pause_resume_timeout_ms", toJson c.pauseResumeTimeoutMs),
    ("observer_send_timeout_ms", toJson c.observerSendTimeoutMs),
    ("min_satellites_for_fix", toJson c.minSatellitesForFix),
    ("location_fix_timeout_ms", toJson c.locationFixTimeoutMs)]

/-- Where and in which portions points are stored. -/
structure StorageConfig where
  databasePath : String
  /-- The most rows one transaction writes. -/
  maxBatchOperations : Nat
  /-- The most rows one page holds. -/
  queryLimit : Nat
deriving DecidableEq, Repr

/-- The defaults of storage. -/
def StorageConfig.standard : StorageConfig := ⟨"measurements.db", 550, 10000⟩

instance : Coded StorageConfig where
  ofTree? t := do
    let d := StorageConfig.standard
    match ← partialFields? ["database_path", "max_batch_operations", "query_limit"] t with
    | [path, batch, query] =>
      return ⟨← defaulted d.databasePath path, ← defaulted d.maxBatchOperations batch,
        ← defaulted d.queryLimit query⟩
    | _ => none
  toJson c := .object [("database_path", toJson c.databasePath),
    ("max_batch_operations", toJson c.maxBatchOperations), ("query_limit", toJson c.queryLimit)]

/-- How measurements are sent to a collector. -/
structure SyncConfig where
  credentialTimeoutMs : Nat
  uploadTimeoutSecs : Nat
  /-- The bytes of a piece of a body; progress is reported once a piece. -/
  uploadChunkBytes : Nat
  cycleIntervalSecs : Nat
deriving DecidableEq, Repr

/-- The defaults of sending. -/
def SyncConfig.standard : SyncConfig := ⟨1000, 60, 65536, 900⟩

instance : Coded SyncConfig where
  ofTree? t := do
    let d := SyncConfig.standard
    match ← partialFields? ["credential_timeout_ms", "upload_timeout_secs", "upload_chunk_bytes",
        "cycle_interval_secs"] t with
    | [credential, upload, chunk, cycle] =>
      return ⟨← defaulted d.credentialTimeoutMs credential, ← defaulted d.uploadTimeoutSecs upload,
        ← defaulted d.uploadChunkBytes chunk, ← defaulted d.cycleIntervalSecs cycle⟩
    | _ => none
  toJson c := .object [("credential_timeout_ms", toJson c.credentialTimeoutMs),
    ("upload_timeout_secs", toJson c.uploadTimeoutSecs),
    ("upload_chunk_bytes", toJson c.uploadChunkBytes),
    ("cycle_interval_secs", toJson c.cycleIntervalSecs)]

/-- The configuration of the program. -/
structure AppConfig where
  capture : CaptureConfig
  storage : StorageConfig
  sync : SyncConfig
deriving DecidableEq, Repr

namespace AppConfig

/-- The configuration without a file. -/
def standard : AppConfig :=
  ⟨CaptureConfig.standard, StorageConfig.standard, SyncConfig.standard⟩

instance : Coded AppConfig where
  ofTree? t := do
    match ← partialFields? ["capture", "storage", "sync"] t with
    | [capture, storage, sync] =>
      return ⟨← defaulted CaptureConfig.standard capture,
        ← defaulted StorageConfig.standard storage, ← defaulted SyncConfig.standard sync⟩
    | _ => none
  toJson c := .object [("capture", toJson c.capture), ("storage", toJson c.storage),
    ("sync", toJson c.sync)]

/-- The configuration of a file; a missing file yields the defaults. -/
def load (file : TextFile) : Except SettingsError AppConfig :=
  file.load standard (read? AppConfig)

/-- The text saved for a configuration. -/
def text (c : AppConfig) : String := pretty (toJson c)

/-- The spans of time a configuration sets, in milliseconds: between flushes, for requests, for
observers, for credentials, for uploads and between cycles. -/
def durationsMs (c : AppConfig) : List Nat :=
  [c.capture.flushIntervalMs, c.capture.pauseResumeTimeoutMs, c.capture.observerSendTimeoutMs,
    c.sync.credentialTimeoutMs, c.sync.uploadTimeoutSecs * 1000, c.sync.cycleIntervalSecs * 1000]

end AppConfig

end TripRecorder
