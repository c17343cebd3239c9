import Rebuilderd.Lib.Table
import Rebuilderd.Lib.Query
import Rebuilderd.Common.Api

/-!
The database of the daemon and the inserts and upserts of its models.

The columns compared with `IS` are compared as options; the unique index of the source
packages reads a NULL release or component as a text of its own.
-/

namespace Rebuilderd.Daemon

open Rebuilderd.Lib Rebuilderd.Common

structure SourcePackage where
  id : ℕ
  name : String
  version : String
  distribution : String
  release : Option String
  component : Option String
  lastSeen : Time
  seenInLastSync : Bool
  fbsdPortsTopGitHash : Option String
  fbsdBuildTimestamp : Option Time
  fbsdPortsTopGitTimestamp : Option Time
  deriving DecidableEq

structure BuildInput where
  id : ℕ
  sourcePackageId : ℕ
  url : String
  backend : String
  architecture : String
  retries : ℤ
  nextRetry : Option Time
  deriving DecidableEq

structure BinaryPackage where
  id : ℕ
  sourcePackageId : ℕ
  buildInputId : ℕ
  name : String
  version : String
  architecture : String
  artifactUrl : String
  seenInLastSync : Bool
  deriving DecidableEq

structure BuildLog where
  id : ℕ
  buildLog : Bytes
  deriving DecidableEq

structure DiffoscopeLog where
  id : ℕ
  diffoscopeLog : Bytes
  deriving DecidableEq

structure AttestationLog where
  id : ℕ
  attestationLog : Bytes
  deriving DecidableEq

structure Rebuild where
  id : ℕ
  buildInputId : ℕ
  startedAt : Option Time
  builtAt : Option Time
  buildLogId : ℕ
  status : Option BuildStatus
  deriving DecidableEq

/-- `built_at` as the database compares it. -/
def Rebuild.builtText (r : Rebuild) : Option TimeText := r.builtAt.map stored

structure RebuildArtifact where
  id : ℕ
  rebuildId : ℕ
  name : String
  diffoscopeLogId : Option ℕ
  attestationLogId : Option ℕ
  status : Option ArtifactStatus
  deriving DecidableEq

structure Queued where
  id : ℕ
  buildInputId : ℕ
  priority : Priority
  queuedAt : Time
  startedAt : Option Time
  worker : Option ℕ
  lastPing : Option Time
  deriving DecidableEq

structure Worker where
  id : ℕ
  name : String
  key : String
  address : String
  status : Option String
  lastPing : Time
  online : Bool
  deriving DecidableEq

instance : Row SourcePackage := ⟨SourcePackage.id⟩
instance : Row BuildInput := ⟨BuildInput.id⟩
instance : Row BinaryPackage := ⟨BinaryPackage.id⟩
instance : Row BuildLog := ⟨BuildLog.id⟩
instance : Row DiffoscopeLog := ⟨DiffoscopeLog.id⟩
instance : Row AttestationLog := ⟨AttestationLog.id⟩
instance : Row Rebuild := ⟨Rebuild.id⟩
instance : Row RebuildArtifact := ⟨RebuildArtifact.id⟩
instance : Row Queued := ⟨Queued.id⟩
instance : Row Worker := ⟨Worker.id⟩

structure Db where
  sourcePackages : Table SourcePackage
  buildInputs : Table BuildInput
  binaryPackages : Table BinaryPackage
  buildLogs : Table BuildLog
  diffoscopeLogs : Table DiffoscopeLog
  attestationLogs : Table AttestationLog
  rebuilds : Table Rebuild
  rebuildArtifacts : Table RebuildArtifact
  queue : Table Queued
  workers : Table Worker

def Db.empty : Db :=
  ⟨.empty, .empty, .empty, .empty, .empty, .empty, .empty, .empty, .empty, .empty⟩

/-! ### Source packages -/

structure NewSourcePackage where
  name : String
  version : String
  distribution : String
  release : Option String
  component : Option String
  lastSeen : Time
  seenInLastSync : Bool
  fbsdPortsTopGitHash : Option String
  fbsdBuildTimestamp : Option Time
  fbsdPortsTopGitTimestamp : Option Time

namespace NewSourcePackage

/-- `source_packages_unique_idx`. -/
def conflicts (n : NewSourcePackage) (s : SourcePackage) : Bool :=
  s.name == n.name && s.version == n.version && s.distribution == n.distribution &&
    s.release.getD "PLACEHOLDER" == n.release.getD "PLACEHOLDER" &&
    s.component.getD "PLACEHOLDER" == n.component.getD "PLACEHOLDER"

def row (n : NewSourcePackage) (id : ℕ) : SourcePackage where
  id := id
  name := n.name
  version := n.version
  distribution := n.distribution
  release := n.release
  component := n.component
  lastSeen := n.lastSeen
  seenInLastSync := n.seenInLastSync
  fbsdPortsTopGitHash := n.fbsdPortsTopGitHash
  fbsdBuildTimestamp := n.fbsdBuildTimestamp
  fbsdPortsTopGitTimestamp := n.fbsdPortsTopGitTimestamp

/-- On a conflict every column is overwritten. -/
def upsert (n : NewSourcePackage) (db : Db) : SourcePackage × Db :=
  let r := db.sourcePackages.upsert n.conflicts n.row fun s => n.row s.id
  (r.1, { db with sourcePackages := r.2 })

/-- The source packages after an upsert: the conflicting rows overwritten, or a new row. -/
lemma upsert_cases (n : NewSourcePackage) (db : Db) :
    (∃ s ∈ db.sourcePackages.rows, n.conflicts s = true ∧ n.upsert db =
        (n.row s.id, { db with
          sourcePackages := (db.sourcePackages.update n.conflicts fun s => n.row s.id).skip })) ∨
      ((∀ s ∈ db.sourcePackages.rows, n.conflicts s = false) ∧ n.upsert db =
        (n.row (db.sourcePackages.seq + 1),
          { db with sourcePackages := db.sourcePackages.insert n.row })) := by
  unfold upsert
  rcases Table.upsert_cases db.sourcePackages n.conflicts n.row (fun s => n.row s.id)
    (fun _ => rfl) (fun _ => rfl) with ⟨s, hs, hc, h⟩ | ⟨hc, h⟩
  · exact .inl ⟨s, hs, hc, by rw [h]⟩
  · exact .inr ⟨hc, by rw [h]⟩

end NewSourcePackage

/-! ### Build inputs -/

structure NewBuildInput where
  sourcePackageId : ℕ
  url : String
  backend : String
  architecture : String
  retries : ℤ
  nextRetry : Option Time

namespace NewBuildInput

/-- `build_inputs_unique_idx`. -/
def conflicts (n : NewBuildInput) (b : BuildInput) : Bool :=
  b.sourcePackageId == n.sourcePackageId && b.url == n.url && b.backend == n.backend &&
    b.architecture == n.architecture

def row (n : NewBuildInput) (id : ℕ) : BuildInput where
  id := id
  sourcePackageId := n.sourcePackageId
  url := n.url
  backend := n.backend
  architecture := n.architecture
  retries := n.retries
  nextRetry := n.nextRetry

/-- On a conflict the retries and the next retry are kept. -/
def upsert (n : NewBuildInput) (db : Db) : BuildInput × Db :=
  let r := db.buildInputs.upsert n.conflicts n.row fun b =>
    { b with
      sourcePackageId := n.sourcePackageId
      url := n.url
      backend := n.backend
      architecture := n.architecture }
  (r.1, { db with buildInputs := r.2 })

/-- The build inputs after an upsert: a conflicting row has all the columns already, so only an id is
used up; otherwise there is a new row. -/
lemma upsert_cases (n : NewBuildInput) (db : Db) :
    (∃ b ∈ db.buildInputs.rows, n.conflicts b = true ∧
        n.upsert db = (b, { db with buildInputs := db.buildInputs.skip })) ∨
      ((∀ b ∈ db.buildInputs.rows, n.conflicts b = false) ∧ n.upsert db =
        (n.row (db.buildInputs.seq + 1),
          { db with buildInputs := db.buildInputs.insert n.row })) := by
  have hsame (b : BuildInput) (hc : n.conflicts b = true) : { b with
      sourcePackageId := n.sourcePackageId
      url := n.url
      backend := n.backend
      architecture := n.architecture } = b := by
    simp only [conflicts, Bool.and_eq_true, beq_iff_eq] at hc
    obtain ⟨⟨⟨hs, hu⟩, hb⟩, ha⟩ := hc
    rw [← hs, ← hu, ← hb, ← ha]
  unfold upsert
  rcases Table.upsert_cases db.buildInputs n.conflicts n.row (fun b => { b with
      sourcePackageId := n.sourcePackageId
      url := n.url
      backend := n.backend
      architecture := n.architecture })
    (fun _ => rfl) (fun _ => rfl) with ⟨b, hb, hc, h⟩ | ⟨hc, h⟩
  · refine .inl ⟨b, hb, hc, ?_⟩
    have hrows : db.buildInputs.update n.conflicts (fun b => { b with
        sourcePackageId := n.sourcePackageId
        url := n.url
        backend := n.backend
        architecture := n.architecture }) = db.buildInputs := by
      refine Table.ext (List.map_id'' (fun a => ?_) _) rfl
      split
      · rename_i ha
        exact hsame a ha
      · rfl
    rw [h, hrows, hsame b hc]
  · exact .inr ⟨hc, by rw [h]⟩

end NewBuildInput

/-! ### Binary packages -/

structure NewBinaryPackage where
  sourcePackageId : ℕ
  buildInputId : ℕ
  name : String
  version : String
  architecture : String
  artifactUrl : String
  seenInLastSync : Bool

namespace NewBinaryPackage

/-- `binary_packages_unique_idx`. -/
def conflicts (n : NewBinaryPackage) (b : BinaryPackage) : Bool :=
  b.sourcePackageId == n.sourcePackageId && b.buildInputId == n.buildInputId &&
    b.name == n.name && b.version == n.version && b.architecture == n.architecture

def row (n : NewBinaryPackage) (id : ℕ) : BinaryPackage where
  id := id
  sourcePackageId := n.sourcePackageId
  buildInputId := n.buildInputId
  name := n.name
  version := n.version
  architecture := n.architecture
  artifactUrl := n.artifactUrl
  seenInLastSync := n.seenInLastSync

def upsert (n : NewBinaryPackage) (db : Db) : Db :=
  { db with binaryPackages := (db.binaryPackages.upsert n.conflicts n.row fun b =>
      { b with artifactUrl := n.artifactUrl, seenInLastSync := n.seenInLastSync }).2 }

/-- The binary packages after an upsert: the url and the flag of the conflicting row, or a new
row. -/
lemma upsert_cases (n : NewBinaryPackage) (db : Db) :
    (∃ b ∈ db.binaryPackages.rows, n.conflicts b = true ∧ (n.upsert db).binaryPackages =
        (db.binaryPackages.update n.conflicts fun b =>
          { b with artifactUrl := n.artifactUrl, seenInLastSync := n.seenInLastSync }).skip) ∨
      ((∀ b ∈ db.binaryPackages.rows, n.conflicts b = false) ∧
        (n.upsert db).binaryPackages = db.binaryPackages.insert n.row) := by
  rcases Table.upsert_cases db.binaryPackages n.conflicts n.row (fun b =>
      { b with artifactUrl := n.artifactUrl, seenInLastSync := n.seenInLastSync }) (fun _ => rfl)
    (fun _ => rfl) with ⟨b, hb, hc, h⟩ | ⟨hc, h⟩
  · exact .inl ⟨b, hb, hc, congrArg Prod.snd h⟩
  · exact .inr ⟨hc, congrArg Prod.snd h⟩

end NewBinaryPackage

/-! ### Logs, rebuilds and their artifacts -/

structure NewRebuild where
  buildInputId : ℕ
  startedAt : Option Time
  builtAt : Option Time
  buildLogId : ℕ
  status : Option BuildStatus

def NewRebuild.builtText (n : NewRebuild) : Option TimeText := n.builtAt.map stored

def NewRebuild.row (n : NewRebuild) (id : ℕ) : Rebuild where
  id := id
  buildInputId := n.buildInputId
  startedAt := n.startedAt
  builtAt := n.builtAt
  buildLogId := n.buildLogId
  status := n.status

structure NewRebuildArtifact where
  rebuildId : ℕ
  name : String
  diffoscopeLogId : Option ℕ
  attestationLogId : Option ℕ
  status : Option ArtifactStatus

def NewRebuildArtifact.row (n : NewRebuildArtifact) (id : ℕ) : RebuildArtifact where
  id := id
  rebuildId := n.rebuildId
  name := n.name
  diffoscopeLogId := n.diffoscopeLogId
  attestationLogId := n.attestationLogId
  status := n.status

def insertBuildLog (log : Bytes) (db : Db) : ℕ × Db :=
  (db.buildLogs.seq + 1, { db with buildLogs := db.buildLogs.insert fun id => ⟨id, log⟩ })

def insertDiffoscopeLog (log : Bytes) (db : Db) : ℕ × Db :=
  (db.diffoscopeLogs.seq + 1,
    { db with diffoscopeLogs := db.diffoscopeLogs.insert fun id => ⟨id, log⟩ })

def insertAttestationLog (log : Bytes) (db : Db) : ℕ × Db :=
  (db.attestationLogs.seq + 1,
    { db with attestationLogs := db.attestationLogs.insert fun id => ⟨id, log⟩ })

def NewRebuild.insert (n : NewRebuild) (db : Db) : ℕ × Db :=
  (db.rebuilds.seq + 1, { db with rebuilds := db.rebuilds.insert n.row })

def NewRebuildArtifact.insert (n : NewRebuildArtifact) (db : Db) : Db :=
  { db with rebuildArtifacts := db.rebuildArtifacts.insert n.row }

lemma NewRebuild.rows_insert (n : NewRebuild) (db : Db) :
    (n.insert db).2.rebuilds.rows = db.rebuilds.rows ++ [n.row (db.rebuilds.seq + 1)] := rfl

lemma NewRebuildArtifact.rows_insert (n : NewRebuildArtifact) (db : Db) :
    (n.insert db).rebuildArtifacts.rows =
      db.rebuildArtifacts.rows ++ [n.row (db.rebuildArtifacts.seq + 1)] := rfl

/-! ### Queue -/

structure NewQueued where
  buildInputId : ℕ
  priority : Priority
  queuedAt : Time

namespace NewQueued

def row (n : NewQueued) (id : ℕ) : Queued where
  id := id
  buildInputId := n.buildInputId
  priority := n.priority
  queuedAt := n.queuedAt
  startedAt := none
  worker := none
  lastPing := none

/-- On a conflict only the priority changes: the time and the worker are kept. -/
def upsert (n : NewQueued) (db : Db) : Db :=
  { db with queue := (db.queue.upsert (fun q => q.buildInputId == n.buildInputId) n.row fun q =>
      { q with buildInputId := n.buildInputId, priority := n.priority }).2 }

/-- The queue after an upsert: a new priority in the row of the build input, or a new row. -/
lemma upsert_cases (n : NewQueued) (db : Db) :
    (∃ r ∈ db.queue.rows, r.buildInputId = n.buildInputId ∧
      (n.upsert db).queue = (db.queue.update (fun q => q.buildInputId == n.buildInputId) fun q =>
        { q with buildInputId := n.buildInputId, priority := n.priority }).skip) ∨
      ((∀ r ∈ db.queue.rows, r.buildInputId ≠ n.buildInputId) ∧
        (n.upsert db).queue = db.queue.insert n.row) := by
  rcases Table.upsert_cases db.queue (fun q => q.buildInputId == n.buildInputId) n.row
    (fun q => { q with buildInputId := n.buildInputId, priority := n.priority }) (fun _ => rfl)
    (fun _ => rfl) with ⟨r, hr, hb, h⟩ | ⟨hb, h⟩
  · exact .inl ⟨r, hr, by simpa using hb, congrArg Prod.snd h⟩
  · exact .inr ⟨by simpa using hb, congrArg Prod.snd h⟩

end NewQueued

/-! ### Workers -/

structure NewWorker where
  key : String
  name : String
  address : String
  status : Option String
  lastPing : Time
  online : Bool

namespace NewWorker

def row (n : NewWorker) (id : ℕ) : Worker where
  id := id
  name := n.name
  key := n.key
  address := n.address
  status := n.status
  lastPing := n.lastPing
  online := n.online

/-- On a conflict of the keys every column is overwritten. -/
def upsert (n : NewWorker) (db : Db) : Worker × Db :=
  let r := db.workers.upsert (fun w => w.key == n.key) n.row fun w => n.row w.id
  (r.1, { db with workers := r.2 })

end NewWorker

end Rebuilderd.Daemon
