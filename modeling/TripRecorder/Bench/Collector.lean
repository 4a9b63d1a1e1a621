import TripRecorder.Sync.Cycle

/-!
# A bench for sync cycles

A store, preferences, a credential provider, and a collector whose replies are set in advance.

## Main definitions

* `Credentials` — a provider that takes its time
* `Reply` — what the collector answers to one upload
* `SyncBench` — all that a cycle asks, with a record of the uploads
* `SyncBench.cycle` — a cycle on the bench
-/

namespace TripRecorder

/-- A credential provider. -/
structure Credentials where
  /-- The token of an account. -/
  token : String → Option String
  delayMs : Nat

namespace Credentials

/-- A provider with one token for all accounts. -/
def fixed (token : String) : Credentials := ⟨fun _ => some token, 0⟩

/-- The answer to someone who waits for some time. -/
def answer (c : Credentials) (account : String) (timeoutMs : Nat) : TokenAnswer :=
  if timeoutMs < c.delayMs then .late
  else
    match c.token account with
    | some token => .granted token
    | none => .absent

/-- How long someone waits who does not wait longer than a timeout. -/
def waitMs (c : Credentials) (timeoutMs : Nat) : Nat := min c.delayMs timeoutMs

end Credentials

/-- What the collector answers to one upload. -/
structure Reply where
  /-- The fractions reported before. -/
  fractions : List Double
  outcome : Except SyncError Outcome

namespace Reply

/-- The measurement is new. -/
def created : Reply := ⟨[], .ok .created⟩

/-- The collector has the measurement. -/
def alreadyPresent : Reply := ⟨[], .ok .alreadyPresent⟩

/-- There is no connection. -/
def unreachable (detail : String) : Reply := ⟨[], .error (.remoteUnreachable detail)⟩

/-- A status and a text. -/
def ofResponse (fractions : List Double) (status : Nat) (text : String) : Reply :=
  ⟨fractions, Response.judge status text⟩

end Reply

/-- All that a cycle asks. -/
structure SyncBench where
  store : Store
  preferences : MemoryPreferences
  credentials : Credentials
  /-- A collector listens. -/
  listening : Bool
  /-- The replies to the next uploads. -/
  replies : List Reply
  /-- The uploads that reached the collector. -/
  uploads : List UploadRequest
  progress : List SyncProgress

namespace SyncBench

/-- The collector takes an upload. When its replies are used up, every measurement is new. -/
def receive (b : SyncBench) (request : UploadRequest) : Except SyncError Outcome × SyncBench :=
  let reply := b.replies.headD .created
  let progress := reply.fractions.map fun f => SyncProgress.mk request.id f
  (reply.outcome, { b with replies := b.replies.tail, uploads := b.uploads ++ [request],
                           progress := b.progress ++ progress })

/-- The answers to a cycle. -/
def serve : (c : SyncCall) → SyncBench → SyncAnswer c × SyncBench
  | .token account timeoutMs, b => (b.credentials.answer account timeoutMs, b)
  | .preference key, b => (b.preferences.get? key, b)
  | .store c, b =>
    let (answer, store) := Store.serve c b.store
    (answer, { b with store := store })
  | .upload request, b =>
    if b.listening then b.receive request
    else (.error (.remoteUnreachable "connection refused"), b)

/-- A cycle with some credentials. -/
def cycle (b : SyncBench) (credentials : Credentials) (timeoutMs : Nat) (account : String) :
    Except SyncError SyncReport × SyncBench :=
  let (result, after) := (syncCycle b.store.queryLimit timeoutMs account).run serve
    { b with credentials := credentials }
  (result, { after with credentials := b.credentials })

end SyncBench

end TripRecorder
