import Rebuilderd.Lib.Pool
import Rebuilderd.Daemon.Queue

/-!
The atomic statements of the handlers: SQL statements, whole transactions, readings of the
clock and compression steps. Each executes at one instant.
-/

namespace Rebuilderd.Daemon

open Rebuilderd.Lib Rebuilderd.Common

inductive Stmt
  | now
  | zstdCompress (data : Bytes)
  -- workers
  | keyIsRegistered (key : String)
  | refreshWorker (key : String) (now : Time)
  | upsertWorker (new : NewWorker)
  -- queue
  | clearStale (cutoff : Time)
  | popJob (worker : Worker) (r : PopQueuedJobRequest)
  | pingQueued (now : Time) (id worker : ℕ)
  | findQueued (id : ℕ)
  | matchingQueued (o : OriginFilter) (f : SourceIdentityFilter)
  | deleteQueued (ids : List ℕ)
  | upsertQueued (new : NewQueued)
  | deleteQueuedOf (inputs : List ℕ)
  -- build inputs
  | buildInputFriends (id : ℕ)
  | incrementRetries (ids : List ℕ)
  | maxRetriesOf (ids : List ℕ)
  | setNextRetry (ids : List ℕ) (t : Option Time)
  | matchingBuildInputs (r : QueueJobRequest)
  -- rebuilds
  | insertBuildLog (log : Bytes)
  | insertRebuild (new : NewRebuild)
  | insertDiffoscopeLog (log : Bytes)
  | insertAttestationLog (log : Bytes)
  | insertRebuildArtifact (new : NewRebuildArtifact)
  | latestRebuildId (input : ℕ)
  | resetRebuild (id : ℕ)
  | resetArtifacts (id : ℕ)
  -- packages
  | commitPackageReport (now : Time) (r : PackageReport)

/-- What a statement answers. -/
@[reducible] def Stmt.Answer : Stmt → Type
  | .now => Time
  | .zstdCompress _ => Bytes
  | .keyIsRegistered _ => Bool
  | .refreshWorker _ _ | .upsertWorker _ => Worker
  | .popJob _ _ => Option QueuedJobWithArtifacts
  | .findQueued _ => Queued
  | .pingQueued _ _ _ | .deleteQueued _ => ℕ
  | .matchingQueued _ _ | .buildInputFriends _ | .matchingBuildInputs _ => List ℕ
  | .maxRetriesOf _ => ℤ
  | .insertBuildLog _ | .insertRebuild _ | .insertDiffoscopeLog _ | .insertAttestationLog _ => ℕ
  | .latestRebuildId _ => Option ℕ
  | .clearStale _ | .upsertQueued _ | .deleteQueuedOf _ | .incrementRetries _ | .setNextRetry _ _
  | .insertRebuildArtifact _ | .resetRebuild _ | .resetArtifacts _
  | .commitPackageReport _ _ => Unit

/-- The workers that are registered before the first request; each has a key of its own. -/
structure RegisteredWorkers where
  table : Table Worker
  keys : (table.rows.map (·.key)).Nodup

def RegisteredWorkers.none : RegisteredWorkers := ⟨.empty, List.nodup_nil⟩

/-- What the daemon runs with: its configuration, the workers it knows, SQLite's order of tied rows,
and zstd. -/
structure Env where
  config : Config
  workers : RegisteredWorkers
  ties : Ties
  zstd : Bytes → Bytes

/-- The database before the first request. -/
def Env.start (env : Env) : Db := { Db.empty with workers := env.workers.table }

/-- A statement executed at time `t`. -/
def exec (env : Env) : Exec Stmt Stmt.Answer Err Time Db
  | t, .now, db => .ok (t, db)
  | _, .zstdCompress data, db => .ok (env.zstd data, db)
  | _, .keyIsRegistered key, db => .ok (keyIsRegistered key db, db)
  | _, .refreshWorker key now, db => refreshWorker key now db
  | _, .upsertWorker new, db => .ok (new.upsert db)
  | _, .clearStale cutoff, db => .ok ((), clearStale cutoff db)
  | t, .popJob worker r, db => .ok (popJob env.ties worker r t db)
  | _, .pingQueued now id worker, db => .ok (pingQueued now id worker db)
  | _, .findQueued id, db => (findQueued id db).map (·, db)
  | _, .matchingQueued o f, db => .ok (matchingQueued o f db, db)
  | _, .deleteQueued ids, db => .ok (deleteQueued ids db)
  | _, .upsertQueued new, db => .ok ((), new.upsert db)
  | _, .deleteQueuedOf inputs, db => .ok ((), deleteQueuedOf inputs db)
  | _, .buildInputFriends id, db => .ok (buildInputFriends db id, db)
  | _, .incrementRetries ids, db => .ok ((), incrementRetries ids db)
  | _, .maxRetriesOf ids, db => (maxRetriesOf ids db).map (·, db)
  | _, .setNextRetry ids t, db => .ok ((), setNextRetry ids t db)
  | _, .matchingBuildInputs r, db => .ok (matchingBuildInputs r db, db)
  | _, .insertBuildLog log, db => .ok (insertBuildLog log db)
  | _, .insertRebuild new, db => .ok (new.insert db)
  | _, .insertDiffoscopeLog log, db => .ok (insertDiffoscopeLog log db)
  | _, .insertAttestationLog log, db => .ok (insertAttestationLog log db)
  | _, .insertRebuildArtifact new, db => .ok ((), new.insert db)
  | _, .latestRebuildId input, db => .ok (latestRebuildId input db, db)
  | _, .resetRebuild id, db => .ok ((), resetRebuild id db)
  | _, .resetArtifacts id, db => .ok ((), resetArtifacts id db)
  | _, .commitPackageReport now r, db =>
    (commitPackageReport env.config.schedule env.ties now r db).map ((), ·)

/-! ### The statements that can fail -/

section
variable {env : Env} {t : Time} {db db' : Db}

lemma exec_commit {now : Time} {r : PackageReport} {u : Unit}
    (h : exec env t (.commitPackageReport now r) db = .ok (u, db')) :
    commitPackageReport env.config.schedule env.ties now r db = .ok db' := by
  rcases hc : commitPackageReport env.config.schedule env.ties now r db with e | d
  · simp [exec, hc, Except.map] at h
  · simpa [exec, hc, Except.map] using h

lemma exec_findQueued {id : ℕ} {q : Queued} (h : exec env t (.findQueued id) db = .ok (q, db')) :
    q ∈ db.queue.rows ∧ q.id = id ∧ db' = db := by
  rcases hf : db.queue.rows.find? (·.id == id) with _ | r
  · simp [exec, findQueued, hf, Except.map] at h
  · obtain ⟨rfl, rfl⟩ : r = q ∧ db = db' := by simpa [exec, findQueued, hf, Except.map] using h
    exact ⟨List.mem_of_find?_eq_some hf, by simpa using List.find?_some hf, rfl⟩

lemma exec_maxRetriesOf {ids : List ℕ} {n : ℤ}
    (h : exec env t (.maxRetriesOf ids) db = .ok (n, db')) : db' = db := by
  rcases hm : maxRetriesOf ids db with e | m
  · simp [exec, hm, Except.map] at h
  · simpa [exec, hm, Except.map, eq_comm] using (show _ ∧ _ by simpa [exec, hm, Except.map] using h).2

end

end Rebuilderd.Daemon
