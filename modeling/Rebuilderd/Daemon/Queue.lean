import Rebuilderd.Daemon.Package

/-!
The queue: handing out jobs, pings, requeues and drops, and the rows of the workers.
-/

namespace Rebuilderd.Daemon

open Rebuilderd.Lib Rebuilderd.Common

/-! ### Filters -/

def OriginFilter.accepts (f : OriginFilter) (s : SourcePackage) (architecture : String) : Bool :=
  (match f.distribution with
    | some d => s.distribution == d
    | none => true) &&
  (match f.release with
    | some r => if r ≠ "" then s.release == some r else s.release.isNone
    | none => true) &&
  (match f.component with
    | some c => if c ≠ "" ∧ c ≠ "null" then s.component == some c else s.component.isNone
    | none => true) &&
  (match f.architecture with
    | some a => architecture == a
    | none => true)

def SourceIdentityFilter.accepts (f : SourceIdentityFilter) (s : SourcePackage) : Bool :=
  (match f.name with
    | some n =>
      match f.searchType with
      | .exact => s.name == n
      | .contains => like ("%" ++ n ++ "%").toList s.name.toList
      | .startsWith => like (n ++ "%").toList s.name.toList
    | none => true) &&
  (match f.version with
    | some v => s.version == v
    | none => true)

/-! ### Handing out jobs -/

/-- The inner joins of `queue_base`. -/
def queueBase (db : Db) : List (Queued × BuildInput × SourcePackage) :=
  db.queue.rows.flatMap fun q =>
    (db.buildInputs.rows.filter (·.id == q.buildInputId)).flatMap fun b =>
      (db.sourcePackages.rows.filter (·.id == b.sourcePackageId)).map fun s => (q, b, s)

lemma mem_queueBase {db : Db} {q : Queued} {b : BuildInput} {s : SourcePackage} :
    (q, b, s) ∈ queueBase db ↔ q ∈ db.queue.rows ∧ (b ∈ db.buildInputs.rows ∧ b.id = q.buildInputId) ∧
      s ∈ db.sourcePackages.rows ∧ s.id = b.sourcePackageId := by
  simp only [queueBase, List.mem_flatMap, List.mem_map, List.mem_filter, beq_iff_eq,
    Prod.mk.injEq]
  constructor
  · rintro ⟨q', hq, b', hb, s', hs, rfl, rfl, rfl⟩
    exact ⟨hq, hb, hs⟩
  · rintro ⟨hq, hb, hs⟩
    exact ⟨q, hq, b, hb, s, hs, rfl, rfl, rfl⟩

def queuedJob : Queued × BuildInput × SourcePackage → QueuedJob
  | (q, b, s) => {
      id := q.id
      name := s.name
      version := s.version
      distribution := s.distribution
      release := s.release
      component := s.component
      architecture := b.architecture
      backend := b.backend
      url := b.url
      nextRetry := b.nextRetry
      priority := q.priority
      queuedAt := q.queuedAt
      startedAt := q.startedAt }

def standardArchitecture : String → Option String
  | "x86" => some "i386"
  | "i386" => some "x86"
  | "x86_64" => some "amd64"
  | "amd64" => some "x86_64"
  | "aarch64" => some "arm64"
  | "arm64" => some "aarch64"
  | "powerpc64" => some "ppc64"
  | "ppc64" => some "powerpc64"
  | _ => none

def standardizeArchitectures (architectures : List String) : List String :=
  architectures.flatMap fun a => (standardArchitecture a).toList ++ [a]

/-- Take the jobs last pinged before `cutoff` away from their workers. -/
def clearStale (cutoff : Time) (db : Db) : Db :=
  { db with queue := db.queue.update (fun q => q.lastPing.any (· < cutoff)) fun q =>
      { q with worker := none, startedAt := none, lastPing := none } }

/-- The jobs a worker can be handed at time `t`. -/
def availableJobs (r : PopQueuedJobRequest) (t : Time) (db : Db) :
    List (Queued × BuildInput × SourcePackage) :=
  (queueBase db).filter fun (q, b, _) =>
    q.worker.isNone && b.nextRetry.all (· ≤ currentTimestamp t) &&
      (standardizeArchitectures r.supportedArchitectures).contains b.architecture &&
      r.supportedBackends.contains b.backend

/-- By priority, then by day; the oldest ports tree first, then the oldest source package. -/
def jobOrder : Queued × BuildInput × SourcePackage → ℤ ×ₗ ℤ ×ₗ WithBot TimeText ×ₗ ℕ
  | (q, _, s) => toLex (q.priority, toLex (date q.queuedAt,
      toLex (nullsFirst (s.fbsdPortsTopGitTimestamp.map stored), s.id)))

def jobArtifacts (q : Queued) (db : Db) : List QueuedJobArtifact :=
  (db.binaryPackages.rows.filter (·.buildInputId == q.buildInputId)).map fun p =>
    ⟨p.name, p.version, p.architecture, p.artifactUrl⟩

/-- Mark the queue row `id` as taken at time `t`. -/
def takeJob (worker : Worker) (job : QueuedJob) (t : Time) (db : Db) : Db :=
  { db with
    queue := db.queue.update (·.id == job.id) fun q =>
      { q with startedAt := some t, worker := some worker.id, lastPing := some t }
    workers := db.workers.update (·.id == worker.id) fun w =>
      { w with
        online := true
        lastPing := t
        status := some ("working hard on " ++ job.name ++ " " ++ job.version) } }

/-- The transaction of `request_work`. -/
def popJob (T : Ties) (worker : Worker) (r : PopQueuedJobRequest) (t : Time) (db : Db) :
    Option QueuedJobWithArtifacts × Db :=
  match T.firstBy jobOrder (availableJobs r t db) with
  | some row =>
    (some ⟨queuedJob row, jobArtifacts row.1 db⟩, takeJob worker (queuedJob row) t db)
  | none => (none, db)

/-- A pop hands out an available job and marks it as taken, or does nothing. -/
lemma popJob_cases (T : Ties) (worker : Worker) (r : PopQueuedJobRequest) (t : Time) (db : Db) :
    (∃ row ∈ availableJobs r t db, popJob T worker r t db =
        (some ⟨queuedJob row, jobArtifacts row.1 db⟩, takeJob worker (queuedJob row) t db)) ∨
      popJob T worker r t db = (none, db) := by
  unfold popJob
  split
  · rename_i row hrow
    exact .inl ⟨row, (Ties.firstBy_mem hrow).1, rfl⟩
  · exact .inr rfl

lemma mem_availableJobs {r : PopQueuedJobRequest} {t : Time} {db : Db} {q : Queued} {b : BuildInput}
    {s : SourcePackage} (h : (q, b, s) ∈ availableJobs r t db) :
    q ∈ db.queue.rows ∧ q.worker = none ∧ b ∈ db.buildInputs.rows ∧ b.id = q.buildInputId := by
  obtain ⟨hmem, hok⟩ := List.mem_filter.mp h
  obtain ⟨hq, hb, -⟩ := mem_queueBase.mp hmem
  simp only [Bool.and_eq_true, Option.isNone_iff_eq_none] at hok
  exact ⟨hq, hok.1.1.1, hb⟩

/-- Refresh the lease of a worker on a queue row; returns the number of rows it holds. -/
def pingQueued (now : Time) (id worker : ℕ) (db : Db) : ℕ × Db :=
  let held := fun q : Queued => q.id == id && q.worker == some worker
  ((db.queue.rows.filter held).length,
    { db with queue := db.queue.update held fun q => { q with lastPing := some now } })

/-! ### Requeues and drops -/

/-- The rebuild with the largest id of the build input has a status that satisfies `p`. -/
def latestRebuildHas (p : Option BuildStatus → Bool) (id : ℕ) (db : Db) : Bool :=
  let own := db.rebuilds.rows.filter (·.buildInputId == id)
  own.any fun r => some r.id == (own.map (·.id)).max? && p r.status

/-- The build inputs `request_rebuild` selects, once for each of their binary packages. -/
def matchingBuildInputs (r : QueueJobRequest) (db : Db) : List ℕ :=
  let origin : OriginFilter := ⟨r.distribution, r.release, r.component, r.architecture⟩
  let identity : SourceIdentityFilter := ⟨r.name, .exact, r.version⟩
  db.sourcePackages.rows.flatMap fun s =>
    (db.buildInputs.rows.filter fun b => b.sourcePackageId == s.id).flatMap fun b =>
      (db.binaryPackages.rows.filter fun p => p.sourcePackageId == s.id &&
        OriginFilter.accepts origin s b.architecture && SourceIdentityFilter.accepts identity s &&
        (r.name.isSome || s.seenInLastSync) &&
        match r.status with
        | none => true
        | some .unknown => !latestRebuildHas Option.isSome b.id db
        | some status => latestRebuildHas (· == some status) b.id db).map fun _ => b.id

def latestRebuildId (id : ℕ) (db : Db) : Option ℕ :=
  ((db.rebuilds.rows.filter (·.buildInputId == id)).map (·.id)).max?

def resetRebuild (id : ℕ) (db : Db) : Db :=
  { db with rebuilds := db.rebuilds.update (·.id == id) fun r => { r with status := none } }

def resetArtifacts (id : ℕ) (db : Db) : Db :=
  { db with rebuildArtifacts := db.rebuildArtifacts.update (·.rebuildId == id) fun a =>
      { a with status := none } }

/-- The queue rows `drop_queued_jobs` selects. -/
def matchingQueued (o : OriginFilter) (f : SourceIdentityFilter) (db : Db) : List ℕ :=
  ((queueBase db).filter fun (_, b, s) =>
    OriginFilter.accepts o s b.architecture && SourceIdentityFilter.accepts f s).map (·.1.id)

/-- Delete queue rows by id; returns how many there were. -/
def deleteQueued (ids : List ℕ) (db : Db) : ℕ × Db :=
  ((db.queue.rows.filter fun q => ids.contains q.id).length,
    { db with queue := db.queue.delete fun q => ids.contains q.id })

def findQueued (id : ℕ) (db : Db) : Except Err Queued :=
  match db.queue.rows.find? (·.id == id) with
  | some q => .ok q
  | none => .error .notFound

/-! ### Workers -/

def keyIsRegistered (key : String) (db : Db) : Bool :=
  db.workers.rows.any (·.key == key)

/-- `Worker::get_and_refresh`. -/
def refreshWorker (key : String) (now : Time) (db : Db) : Except Err (Worker × Db) :=
  let refresh := fun w : Worker => { w with lastPing := now, online := true }
  match db.workers.rows.find? (·.key == key) with
  | some w => .ok (refresh w, { db with workers := db.workers.update (·.key == key) refresh })
  | none => .error .notFound

end Rebuilderd.Daemon
