import Rebuilderd.Daemon.Stmt

/-!
The request handlers, as programs over the statements of the daemon.

Reading the clock is a statement of its own, so that between a reading and the statement
that uses it other handlers can run.
-/

namespace Rebuilderd.Daemon

open Rebuilderd.Lib Rebuilderd.Common

structure Headers where
  authCookie : Option String
  workerKey : Option String
  deriving DecidableEq

/-- The requests the handlers serve. -/
inductive Call
  | submitPackageReport (h : Headers) (r : PackageReport)
  | requestWork (h : Headers) (r : PopQueuedJobRequest)
  | pingJob (h : Headers) (id : ℕ)
  | submitRebuildReport (h : Headers) (r : RebuildReport)
  | requestRebuild (h : Headers) (r : QueueJobRequest)
  | dropQueuedJobs (h : Headers) (o : OriginFilter) (f : SourceIdentityFilter)
  | dropQueuedJob (h : Headers) (id : ℕ)
  deriving DecidableEq

inductive Response
  | forbidden
  | notFound
  | noContent
  | assignment (job : Option QueuedJobWithArtifacts)
  | matched (count : ℕ)
  | dropped (count : ℕ)
  deriving DecidableEq

abbrev Handler (α : Type) := Prog Stmt Stmt.Answer Err α

/-- Execute one statement. -/
abbrev sql (s : Stmt) : Handler s.Answer := Prog.stmt s

namespace Handler

open Prog

/-! ### Authentication -/

def admin (cfg : Config) (h : Headers) : Bool :=
  h.authCookie == some cfg.authCookie

/-- `Worker::get_and_refresh`. -/
def getAndRefresh (key : String) : Handler Worker := do
  let now ← sql .now
  sql (.refreshWorker key now)

/-- `Worker::get_or_create`. -/
def getOrCreate (key name : String) : Handler Worker := do
  let now ← sql .now
  sql (.upsertWorker
    { key := key
      name := name
      address := "unauthenticated"
      status := none
      lastPing := now
      online := true })

/-- No authentication is configured. -/
def openToAll (cfg : Config) : Bool :=
  cfg.worker.authorizedWorkers.isEmpty && cfg.worker.signupSecret.isNone

def worker (cfg : Config) (h : Headers) : Handler Worker :=
  if openToAll cfg then
    getOrCreate (h.workerKey.getD "unauthenticated") "anonymous"
  else
    match h.workerKey with
    | none => .fail .denied
    | some key =>
      if cfg.worker.authorizedWorkers ≠ [] ∧ key ∉ cfg.worker.authorizedWorkers then
        .fail .denied
      else do
        let registered ← sql (.keyIsRegistered key)
        if registered then getAndRefresh key else .fail .denied

/-! ### Package reports -/

def submitPackageReport (cfg : Config) (h : Headers) (r : PackageReport) : Handler Response := do
  if !admin cfg h then
    return .forbidden
  let now ← sql .now
  sql (.commitPackageReport now r)
  return .noContent

/-! ### The queue -/

def requestWork (cfg : Config) (h : Headers) (r : PopQueuedJobRequest) : Handler Response := do
  match ← (worker cfg h).attempt with
  | .error _ => return .forbidden
  | .ok worker =>
    let now ← sql .now
    let cutoff ← lift (addDuration now (-(pingDeadline * second)))
    sql (.clearStale cutoff)
    let job ← sql (.popJob worker r)
    return .assignment job

def pingJob (cfg : Config) (h : Headers) (id : ℕ) : Handler Response := do
  match ← (worker cfg h).attempt with
  | .error _ => return .forbidden
  | .ok worker =>
    let now ← sql .now
    let affected ← sql (.pingQueued now id worker.id)
    return if affected < 1 then .notFound else .noContent

/-- Forget the result of the rebuild with the largest id. -/
def resetLatestRebuild (id : ℕ) : Handler Unit := do
  match ← sql (.latestRebuildId id) with
  | some rebuild =>
    sql (.resetRebuild rebuild)
    sql (.resetArtifacts rebuild)
  | none => return ()

/-- One build input of `request_rebuild`. -/
def requeueInput (reset : Bool) (now nextRetry : Time) (priority : Priority) (id : ℕ) :
    Handler Unit := do
  (if reset then resetLatestRebuild id else pure ())
  sql (.setNextRetry [id] (some nextRetry))
  sql (.upsertQueued ⟨id, priority, now⟩)

def requestRebuild (cfg : Config) (h : Headers) (r : QueueJobRequest) : Handler Response := do
  if !admin cfg h then
    return .forbidden
  let matched ← sql (.matchingBuildInputs r)
  let now ← sql .now
  let nextRetry ← lift (addDuration now (-(60 * second)))
  let priority := r.priority.getD Priority.manual
  matched.eraseDups.foldlM (fun _ => requeueInput r.reset now nextRetry priority) ()
  return .matched matched.length

def dropQueuedJobs (cfg : Config) (h : Headers) (o : OriginFilter) (f : SourceIdentityFilter) :
    Handler Response := do
  if !admin cfg h then
    return .forbidden
  let ids ← sql (.matchingQueued o f)
  let _ ← sql (.deleteQueued ids)
  return .dropped ids.length

def dropQueuedJob (cfg : Config) (h : Headers) (id : ℕ) : Handler Response := do
  if !admin cfg h then
    return .forbidden
  let dropped ← sql (.deleteQueued [id])
  return if dropped < 1 then .notFound else .noContent

/-! ### Rebuild reports -/

def zstdMagic : Bytes := [0x28, 0xb5, 0x2f, 0xfd]

def isZstdCompressed (data : Bytes) : Bool := zstdMagic.isPrefixOf data

def encode (data : Bytes) : Handler Bytes :=
  if isZstdCompressed data then pure data else sql (.zstdCompress data)

/-- The ids of the diffoscope log and the attestation log, by the name of their artifact. -/
abbrev ArtifactLogs := List (String × Option ℕ × Option ℕ)

def encodeOptional : Option Bytes → Handler (Option Bytes)
  | some data => some <$> encode data
  | none => pure none

def insertDiffoscope : Option Bytes → Handler (Option ℕ)
  | some log => some <$> sql (.insertDiffoscopeLog log)
  | none => pure none

def insertAttestation : Option Bytes → Handler (Option ℕ)
  | some log => some <$> sql (.insertAttestationLog log)
  | none => pure none

def insertArtifactLogs (a : RebuildArtifactReport) : Handler (Option ℕ × Option ℕ) := do
  let diffoscope ← encodeOptional a.diffoscope
  let attestation ← encodeOptional a.attestation
  let diffoscopeId ← insertDiffoscope diffoscope
  let attestationId ← insertAttestation attestation
  return (diffoscopeId, attestationId)

/-- The logs of an artifact, inserted unless one of its name had them inserted before. -/
def artifactLogs (logs : ArtifactLogs) (a : RebuildArtifactReport) :
    Handler ((Option ℕ × Option ℕ) × ArtifactLogs) :=
  match logs.lookup a.name with
  | some ids => pure (ids, logs)
  | none => do
    let ids ← insertArtifactLogs a
    return (ids, (a.name, ids) :: logs)

def recordArtifact (rebuild : ℕ) (logs : ArtifactLogs) (a : RebuildArtifactReport) :
    Handler ArtifactLogs := do
  let (ids, logs) ← artifactLogs logs a
  sql (.insertRebuildArtifact ⟨rebuild, a.name, ids.1, ids.2, some a.status⟩)
  return logs

/-- The rebuild of one friend. -/
def recordRebuild (report : RebuildReport) (queued : Queued) (log : ℕ) (logs : ArtifactLogs)
    (friend : ℕ) : Handler ArtifactLogs := do
  let rebuild ← sql (.insertRebuild
    ⟨friend, queued.startedAt, some report.builtAt, log, some report.status⟩)
  report.artifacts.foldlM (recordArtifact rebuild) logs

def getLargestRetryCountAmongFriends (id : ℕ) : Handler ℤ := do
  let friends ← sql (.buildInputFriends id)
  sql (.maxRetriesOf friends)

def markBuildInputFriendsAsNonRetriable (id : ℕ) : Handler Unit := do
  let friends ← sql (.buildInputFriends id)
  sql (.setNextRetry friends none)
  sql (.deleteQueuedOf friends)

/-- What follows a rebuild that is not good. -/
def retry (cfg : Config) (queued : Queued) (friends : List ℕ) : Handler Unit := do
  sql (.incrementRetries friends)
  let retryCount ← getLargestRetryCountAmongFriends queued.buildInputId
  if cfg.schedule.retriesExhausted retryCount then
    markBuildInputFriendsAsNonRetriable queued.buildInputId
  else
    let now ← sql .now
    let next ← lift (cfg.schedule.retryAt now retryCount)
    sql (.setNextRetry friends (some next))
    sql (.upsertQueued ⟨queued.buildInputId, Priority.retry, now⟩)

/-- Everything from the insert of the build log on. -/
def storeReport (cfg : Config) (report : RebuildReport) (queued : Queued) (friends : List ℕ)
    (encodedLog : Bytes) : Handler Unit := do
  let log ← sql (.insertBuildLog encodedLog)
  let _ ← friends.foldlM (recordRebuild report queued log) []
  let _ ← sql (.deleteQueued [queued.id])
  if report.status ≠ .good then
    retry cfg queued friends

/-- Everything that follows the lookup of the queue row. -/
def recordReport (cfg : Config) (report : RebuildReport) (queued : Queued) : Handler Unit := do
  let friends ← sql (.buildInputFriends queued.buildInputId)
  let encodedLog ← encode report.buildLog
  storeReport cfg report queued friends encodedLog

def submitRebuildReport (cfg : Config) (h : Headers) (report : RebuildReport) :
    Handler Response := do
  match ← (worker cfg h).attempt with
  | .error _ => return .forbidden
  | .ok _ =>
    let queued ← sql (.findQueued report.queueId)
    recordReport cfg report queued
    return .noContent

end Handler

/-- The program that serves a request. -/
def handler (cfg : Config) : Call → Handler Response
  | .submitPackageReport h r => Handler.submitPackageReport cfg h r
  | .requestWork h r => Handler.requestWork cfg h r
  | .pingJob h id => Handler.pingJob cfg h id
  | .submitRebuildReport h r => Handler.submitRebuildReport cfg h r
  | .requestRebuild h r => Handler.requestRebuild cfg h r
  | .dropQueuedJobs h o f => Handler.dropQueuedJobs cfg h o f
  | .dropQueuedJob h id => Handler.dropQueuedJob cfg h id

/-! ### The statements of the parts of a handler -/

/-- The statements of the authentication of workers. -/
def Stmt.authenticates : Stmt → Bool
  | .now | .keyIsRegistered _ | .refreshWorker _ _ | .upsertWorker _ => true
  | _ => false

/-- The statements that store the logs of an artifact. -/
def Stmt.storesLog : Stmt → Bool
  | .zstdCompress _ | .insertDiffoscopeLog _ | .insertAttestationLog _ => true
  | _ => false

/-- The statements that store an artifact of a report. -/
def Stmt.storesArtifact : Stmt → Bool
  | .zstdCompress _ | .insertDiffoscopeLog _ | .insertAttestationLog _
  | .insertRebuildArtifact _ => true
  | _ => false

/-- The statements that follow a report on `q` that is not good. -/
def Stmt.retries (q : Queued) : Stmt → Bool
  | .now | .buildInputFriends _ | .maxRetriesOf _ | .incrementRetries _ | .setNextRetry _ _
  | .deleteQueuedOf _ => true
  | .upsertQueued new => new.buildInputId == q.buildInputId
  | _ => false

lemma only_worker (cfg : Config) (h : Headers) :
    Prog.Only (fun s => s.authenticates = true) (Handler.worker cfg h) := by
  unfold Handler.worker Handler.getOrCreate Handler.getAndRefresh
  split
  · exact .bind (.stmt rfl) fun _ => .stmt rfl
  · split
    · trivial
    · split
      · trivial
      · refine .bind (.stmt rfl) fun _ => ?_
        split
        · exact .bind (.stmt rfl) fun _ => .stmt rfl
        · trivial

lemma only_encode (data : Bytes) :
    Prog.Only (fun s => s = .zstdCompress data) (Handler.encode data) := by
  unfold Handler.encode
  split
  · exact .pure _
  · exact .stmt rfl

lemma only_artifactLogs (logs : Handler.ArtifactLogs) (a : RebuildArtifactReport) :
    Prog.Only (fun s => s.storesLog = true) (Handler.artifactLogs logs a) := by
  have hsql {s : Stmt} (hs : s.storesLog = true) :
      Prog.Only (fun s : Stmt => s.storesLog = true) (sql s) :=
    .stmt hs
  have hencode (data : Option Bytes) :
      Prog.Only (fun s : Stmt => s.storesLog = true) (Handler.encodeOptional data) := by
    cases data with
    | none => exact .pure _
    | some data => exact ((only_encode data).mono fun s hs => hs ▸ rfl).map _
  have hdiffoscope (log : Option Bytes) :
      Prog.Only (fun s : Stmt => s.storesLog = true) (Handler.insertDiffoscope log) := by
    cases log with
    | none => exact .pure _
    | some log => exact .map (hsql (s := .insertDiffoscopeLog log) rfl) _
  have hattestation (log : Option Bytes) :
      Prog.Only (fun s : Stmt => s.storesLog = true) (Handler.insertAttestation log) := by
    cases log with
    | none => exact .pure _
    | some log => exact .map (hsql (s := .insertAttestationLog log) rfl) _
  unfold Handler.artifactLogs
  split
  · exact .pure _
  · exact .bind (.bind (hencode _) fun _ => .bind (hencode _) fun _ => .bind (hdiffoscope _) fun _ =>
      .bind (hattestation _) fun _ => .pure _) fun _ => .pure _

lemma only_recordArtifact (rebuild : ℕ) (logs : Handler.ArtifactLogs) (a : RebuildArtifactReport) :
    Prog.Only (fun s => s.storesArtifact = true) (Handler.recordArtifact rebuild logs a) := by
  refine .bind ((only_artifactLogs logs a).mono fun s hs => ?_) fun _ => .bind (.stmt rfl) fun _ =>
    .pure _
  cases s <;> first | rfl | cases hs

lemma only_retry (cfg : Config) (q : Queued) (friends : List ℕ) :
    Prog.Only (fun s => s.retries q = true) (Handler.retry cfg q friends) := by
  refine .bind (.stmt rfl) fun _ => .bind ?_ fun _ => ?_
  · exact .bind (.stmt rfl) fun _ => .stmt rfl
  · split
    · exact .bind (.stmt rfl) fun _ => .bind (.stmt rfl) fun _ => .stmt rfl
    · exact .bind (.stmt rfl) fun _ => .bind (.lift _) fun _ => .bind (.stmt rfl) fun _ =>
        .stmt (beq_self_eq_true q.buildInputId)

end Rebuilderd.Daemon
