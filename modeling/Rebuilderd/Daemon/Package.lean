import Rebuilderd.Daemon.Friends

/-!
Package reports and package listings.

A report is one transaction: it marks what its scope covers as unseen, imports its packages
one after the other, enqueues those that need a rebuild, and at the end drops the unclaimed
jobs of packages that stayed unseen.
-/

namespace Rebuilderd.Daemon

open Rebuilderd.Lib Rebuilderd.Common

/-! ### The scope of a report -/

/-- A source package of the report's distribution, release and component. -/
def SourcePackage.inOriginOf (s : SourcePackage) (r : PackageReport) : Bool :=
  s.distribution == r.distribution && s.release == r.release && s.component == r.component

lemma inOriginOf_iff_columns {s : SourcePackage} {r : PackageReport} : s.inOriginOf r = true ↔
    s.distribution = r.distribution ∧ s.release = r.release ∧ s.component = r.component := by
  simp [SourcePackage.inOriginOf, and_assoc]

/-- The build inputs of the report's architecture whose source package is of its origin and
satisfies `p`. -/
def scopedBuildInputs (r : PackageReport) (p : SourcePackage → Bool) (db : Db) :
    List BuildInput :=
  db.buildInputs.rows.filter fun b =>
    b.architecture == r.architecture &&
      db.sourcePackages.rows.any fun s => s.id == b.sourcePackageId && s.inOriginOf r && p s

def markScopedPackagesUnseen (r : PackageReport) (db : Db) : Db :=
  let affected := scopedBuildInputs r (fun _ => true) db
  { db with
    sourcePackages := db.sourcePackages.update
      (fun s => (affected.map (·.sourcePackageId)).contains s.id)
      fun s => { s with seenInLastSync := false }
    binaryPackages := db.binaryPackages.update
      (fun b => (affected.map (·.id)).contains b.buildInputId)
      fun b => { b with seenInLastSync := false } }

/-- Drop the unclaimed jobs of the packages in scope that were not seen. -/
def dropUnseenScopedJobs (r : PackageReport) (db : Db) : Db :=
  let unseen := (scopedBuildInputs r (fun s => !s.seenInLastSync) db).map (·.id)
  { db with queue := db.queue.delete fun q => q.worker.isNone && unseen.contains q.buildInputId }

/-! ### Importing one package -/

def isNewPackage (r : PackageReport) (p : SourcePackageReport) (db : Db) : Bool :=
  !db.sourcePackages.rows.any fun s =>
    s.name == p.name && s.version == p.version && s.inOriginOf r

/-- Insert a copy of the rebuild `r` and of its artifacts for the build input `id`. -/
def copyRebuild (id : ℕ) (db : Db) (r : Rebuild) : Db :=
  let new := NewRebuild.insert ⟨id, r.startedAt, r.builtAt, r.buildLogId, r.status⟩ db
  (db.rebuildArtifacts.rows.filter (·.rebuildId == r.id)).foldl
    (fun db a => NewRebuildArtifact.insert
      ⟨new.1, a.name, a.diffoscopeLogId, a.attestationLogId, a.status⟩ db) new.2

/-- Copy the rebuilds of the oldest other friend. -/
def copyExistingRebuilds (id : ℕ) (db : Db) : Db :=
  match ((buildInputFriends db id).filter (· ≠ id)).min? with
  | some existing =>
    if db.rebuilds.rows.any (·.buildInputId == existing) then
      (db.rebuilds.rows.filter (·.buildInputId == existing)).foldl (copyRebuild id) db
    else db
  | none => db

def rebuildsOf (db : Db) (i : ℕ) : List Rebuild := db.rebuilds.rows.filter (·.buildInputId == i)

/-- `ORDER BY built_at DESC`, where NULL comes last. -/
def newestBuilt (T : Ties) (db : Db) (i : ℕ) : Option Rebuild :=
  T.firstBy (fun r => OrderDual.toDual (nullsFirst r.builtText)) (rebuildsOf db i)

def getCurrentRebuildStatus (T : Ties) (db : Db) (id : ℕ) : BuildStatus :=
  ((newestBuilt T db id).bind (·.status)).getD .unknown

def newSourcePackage (now : Time) (r : PackageReport) (p : SourcePackageReport) :
    NewSourcePackage where
  name := p.name
  version := p.version
  distribution := r.distribution
  release := r.release
  component := r.component
  lastSeen := now
  seenInLastSync := true
  fbsdPortsTopGitHash := p.fbsdPortsTopGitHash
  fbsdBuildTimestamp := p.fbsdBuildTimestamp
  fbsdPortsTopGitTimestamp := p.fbsdPortsTopGitTimestamp

def newBuildInput (firstTry : Option Time) (r : PackageReport) (p : SourcePackageReport)
    (source : ℕ) : NewBuildInput where
  sourcePackageId := source
  url := p.url
  backend := r.distribution
  architecture := r.architecture
  retries := 0
  nextRetry := firstTry

/-- The group of the build input of a package. -/
def reportedGroup (r : PackageReport) (p : SourcePackageReport) : Group :=
  ⟨p.url, r.distribution, r.architecture⟩

def newBinaryPackage (r : PackageReport) (input : BuildInput) (a : BinaryPackageReport) :
    NewBinaryPackage where
  sourcePackageId := input.sourcePackageId
  buildInputId := input.id
  name := a.name
  version := a.version
  architecture := r.architecture
  artifactUrl := a.url
  seenInLastSync := true

/-- The rows of one package: its source package, its build input and its artifacts. -/
def importRows (now : Time) (firstTry : Option Time) (r : PackageReport)
    (p : SourcePackageReport) (db : Db) : BuildInput × Db :=
  let (source, db) := (newSourcePackage now r p).upsert db
  let (input, db) := (newBuildInput firstTry r p source.id).upsert db
  (input, p.artifacts.foldl (fun db a => (newBinaryPackage r input a).upsert db) db)

/-- Enqueue a build input that has no good rebuild, unless a friend of it is queued or its
retries are used up. -/
def enqueueImported (c : ScheduleConfig) (T : Ties) (now : Time) (id : ℕ) (db : Db) :
    Except Err Db := do
  let status := getCurrentRebuildStatus T db id
  if status ≠ .good ∧ hasQueuedFriend db id = false then
    let retryCount ← getLargestRetryCountAmongFriends db id
    if c.retriesExhausted retryCount then
      return markBuildInputFriendsAsNonRetriable db id
    let priority := if status = .bad then Priority.retry else Priority.default
    return NewQueued.upsert ⟨id, priority, now⟩ db
  else
    return db

/-- The rows of a package, with the rebuilds of its friends if its source package is new. -/
def importWithHistory (now : Time) (firstTry : Option Time) (r : PackageReport)
    (p : SourcePackageReport) (db : Db) : BuildInput × Db :=
  let (input, imported) := importRows now firstTry r p db
  (input, if isNewPackage r p db then copyExistingRebuilds input.id imported else imported)

def importPackage (c : ScheduleConfig) (T : Ties) (now : Time) (r : PackageReport) (db : Db)
    (p : SourcePackageReport) : Except Err Db := do
  let firstTry ← c.firstTry now
  let (input, db) := importWithHistory now firstTry r p db
  enqueueImported c T now input.id db

/-- The transaction of `submit_package_report`. -/
def commitPackageReport (c : ScheduleConfig) (T : Ties) (now : Time) (r : PackageReport)
    (db : Db) : Except Err Db := do
  let db ← r.packages.foldlM (importPackage c T now r) (markScopedPackagesUnseen r db)
  return dropUnseenScopedJobs r db

/-! ### What an import leaves alone -/

/-- What every step of a loop leaves alone, the loop leaves alone. -/
lemma foldl_frame {β γ : Type} {f : Db → β → Db} {g : Db → γ} (h : ∀ db b, g (f db b) = g db)
    (l : List β) (db : Db) : g (l.foldl f db) = g db := by
  induction l generalizing db with
  | nil => rfl
  | cons b l ih => rw [List.foldl_cons, ih, h]

/-- An import writes the tables of packages and of rebuilds only. -/
structure SameButImports (db db' : Db) : Prop where
  buildLogs : db'.buildLogs = db.buildLogs
  diffoscopeLogs : db'.diffoscopeLogs = db.diffoscopeLogs
  attestationLogs : db'.attestationLogs = db.attestationLogs
  queue : db'.queue = db.queue
  workers : db'.workers = db.workers

lemma importRows_frame (now : Time) (first : Option Time) (r : PackageReport)
    (p : SourcePackageReport) (db : Db) :
    SameButImports db (importRows now first r p db).2 ∧
      (importRows now first r p db).2.rebuilds = db.rebuilds ∧
      (importRows now first r p db).2.rebuildArtifacts = db.rebuildArtifacts := by
  have hb {γ : Type} (g : Db → γ) (hg : ∀ db (n : NewBinaryPackage), g (n.upsert db) = g db)
      (f : BinaryPackageReport → NewBinaryPackage) (db : Db) :
      g (p.artifacts.foldl (fun db a => (f a).upsert db) db) = g db :=
    foldl_frame (fun db a => hg db (f a)) _ _
  refine ⟨⟨?_, ?_, ?_, ?_, ?_⟩, ?_, ?_⟩
  · exact hb Db.buildLogs (fun _ _ => rfl) _ _
  · exact hb Db.diffoscopeLogs (fun _ _ => rfl) _ _
  · exact hb Db.attestationLogs (fun _ _ => rfl) _ _
  · exact hb Db.queue (fun _ _ => rfl) _ _
  · exact hb Db.workers (fun _ _ => rfl) _ _
  · exact hb Db.rebuilds (fun _ _ => rfl) _ _
  · exact hb Db.rebuildArtifacts (fun _ _ => rfl) _ _

/-- Copying rebuilds leaves alone what inserting rebuilds and artifacts leaves alone. -/
lemma copyExistingRebuilds_frame {γ : Type} {g : Db → γ}
    (hr : ∀ (n : NewRebuild) db, g (n.insert db).2 = g db)
    (ha : ∀ (n : NewRebuildArtifact) db, g (n.insert db) = g db) (id : ℕ) (db : Db) :
    g (copyExistingRebuilds id db) = g db := by
  have hcopy (db : Db) (r : Rebuild) : g (copyRebuild id db r) = g db := by
    unfold copyRebuild
    rw [foldl_frame (fun db a => ha _ db), hr]
  unfold copyExistingRebuilds
  split
  · split
    · exact foldl_frame hcopy _ _
    · rfl
  · rfl

lemma importWithHistory_frame (now : Time) (first : Option Time) (r : PackageReport)
    (p : SourcePackageReport) (db : Db) :
    SameButImports db (importWithHistory now first r p db).2 := by
  have h := (importRows_frame now first r p db).1
  unfold importWithHistory
  dsimp only
  split
  · have hc {γ : Type} {g : Db → γ} (hr : ∀ (n : NewRebuild) db, g (n.insert db).2 = g db)
        (ha : ∀ (n : NewRebuildArtifact) db, g (n.insert db) = g db) :=
      copyExistingRebuilds_frame hr ha (importRows now first r p db).1.id
        (importRows now first r p db).2
    exact ⟨(hc (fun _ _ => rfl) fun _ _ => rfl).trans h.buildLogs,
      (hc (fun _ _ => rfl) fun _ _ => rfl).trans h.diffoscopeLogs,
      (hc (fun _ _ => rfl) fun _ _ => rfl).trans h.attestationLogs,
      (hc (fun _ _ => rfl) fun _ _ => rfl).trans h.queue,
      (hc (fun _ _ => rfl) fun _ _ => rfl).trans h.workers⟩
  · exact h

/-! ### What an import adds -/

/-- A source package row as the report has it. -/
structure SourcePackage.IsFrom (s : SourcePackage) (r : PackageReport) (p : SourcePackageReport) :
    Prop where
  name : s.name = p.name
  version : s.version = p.version
  origin : s.inOriginOf r = true
  seen : s.seenInLastSync = true

lemma isFrom_row (now : Time) (r : PackageReport) (p : SourcePackageReport) (id : ℕ) :
    ((newSourcePackage now r p).row id).IsFrom r p :=
  ⟨rfl, rfl, by simp [SourcePackage.inOriginOf, newSourcePackage, NewSourcePackage.row], rfl⟩

/-- The source packages `t` after the report has written one of them, from `t₀`. -/
structure SourcesAfter (r : PackageReport) (p : SourcePackageReport) (t₀ t : Table SourcePackage) :
    Prop where
  from_ : ∀ s ∈ t.rows, s ∈ t₀.rows ∨ s.IsFrom r p
  kept : ∀ s ∈ t₀.rows, ∃ s' ∈ t.rows, s'.id = s.id ∧ s'.name = s.name ∧ s'.version = s.version ∧
    (s' = s ∨ s'.IsFrom r p)

lemma upsertSource_spec (now : Time) (r : PackageReport) (p : SourcePackageReport) (db : Db) :
    let out := (newSourcePackage now r p).upsert db
    out.2.buildInputs = db.buildInputs ∧ out.1 ∈ out.2.sourcePackages.rows ∧ out.1.IsFrom r p ∧
      SourcesAfter r p db.sourcePackages out.2.sourcePackages := by
  rcases (newSourcePackage now r p).upsert_cases db with ⟨s, hs, hc, h⟩ | ⟨-, h⟩ <;> rw [h]
  · refine ⟨rfl, List.mem_map.mpr ⟨s, hs, by simp [hc]⟩, isFrom_row _ _ _ _,
      fun s' hs' => ?_, fun s' hs' => ⟨_, List.mem_map.mpr ⟨s', hs', rfl⟩, ?_⟩⟩
    · obtain ⟨s₀, hs₀, rfl⟩ := List.mem_map.mp hs'
      split
      · exact .inr (isFrom_row _ _ _ _)
      · exact .inl hs₀
    · split
      · rename_i hc'
        simp only [NewSourcePackage.conflicts, Bool.and_eq_true, beq_iff_eq] at hc'
        exact ⟨rfl, hc'.1.1.1.1.symm, hc'.1.1.1.2.symm, .inr (isFrom_row _ _ _ _)⟩
      · exact ⟨rfl, rfl, rfl, .inl rfl⟩
  · refine ⟨rfl, List.mem_append_right _ (List.mem_singleton_self _), isFrom_row _ _ _ _,
      fun s' hs' => ?_, fun s' hs' => ⟨s', List.mem_append_left _ hs', rfl, rfl, rfl, .inl rfl⟩⟩
    rcases List.mem_append.mp hs' with hs' | hs'
    · exact .inl hs'
    · rw [List.mem_singleton.mp hs']
      exact .inr (isFrom_row _ _ _ _)

lemma upsertInput_spec (first : Option Time) (r : PackageReport) (p : SourcePackageReport)
    (source : ℕ) (db : Db) :
    let out := (newBuildInput first r p source).upsert db
    out.2.sourcePackages = db.sourcePackages ∧ out.1 ∈ out.2.buildInputs.rows ∧
      out.1.sourcePackageId = source ∧ out.1.group = ⟨p.url, r.distribution, r.architecture⟩ ∧
      (out.2.inputs = db.inputs ∨ out.2.inputs = db.inputs ++ [out.1.identity]) := by
  rcases (newBuildInput first r p source).upsert_cases db with ⟨b, hb, hc, h⟩ | ⟨-, h⟩ <;> rw [h]
  · simp only [NewBuildInput.conflicts, Bool.and_eq_true, beq_iff_eq] at hc
    obtain ⟨⟨⟨hs, hu⟩, hbackend⟩, harch⟩ := hc
    refine ⟨rfl, hb, hs, ?_, .inl rfl⟩
    rw [BuildInput.group, hu, hbackend, harch]
    rfl
  · exact ⟨rfl, List.mem_append_right _ (List.mem_singleton_self _), rfl, rfl,
      .inr List.map_append⟩

lemma upsertInput_binaries (new : NewBuildInput) (db : Db) :
    (new.upsert db).2.binaryPackages = db.binaryPackages := by
  rcases new.upsert_cases db with ⟨b, -, -, h⟩ | ⟨-, h⟩ <;> rw [h]

/-- What the import of `p` does to source packages and build inputs. -/
structure Imported (r : PackageReport) (p : SourcePackageReport) (db : Db) (input : BuildInput)
    (db' : Db) : Prop where
  source : ∃ s ∈ db'.sourcePackages.rows, s.id = input.sourcePackageId ∧ s.IsFrom r p
  sources : SourcesAfter r p db.sourcePackages db'.sourcePackages
  stored : input ∈ db'.buildInputs.rows
  group : input.group = ⟨p.url, r.distribution, r.architecture⟩
  inputs : db'.inputs = db.inputs ∨ db'.inputs = db.inputs ++ [input.identity]

/-- The build inputs there were are still there. -/
lemma Imported.keeps_inputs {r : PackageReport} {p : SourcePackageReport} {db db' : Db}
    {input : BuildInput} (h : Imported r p db input db') {x : ℕ × ℕ × Group} (hx : x ∈ db.inputs) :
    x ∈ db'.inputs := by
  rcases h.inputs with hin | hin <;> rw [hin]
  · exact hx
  · exact List.mem_append_left _ hx

/-- The binary packages of an import touch no other table. -/
lemma importRows_other {γ : Type} {g : Db → γ}
    (hg : ∀ db (n : NewBinaryPackage), g (n.upsert db) = g db) (now : Time) (first : Option Time)
    (r : PackageReport) (p : SourcePackageReport) (db : Db) :
    let source := (newSourcePackage now r p).upsert db
    g (importRows now first r p db).2 =
      g ((newBuildInput first r p source.1.id).upsert source.2).2 :=
  foldl_frame (fun db _ => hg db _) _ _

lemma importRows_imported (now : Time) (first : Option Time) (r : PackageReport)
    (p : SourcePackageReport) (db : Db) :
    Imported r p db (importRows now first r p db).1 (importRows now first r p db).2 := by
  obtain ⟨hinputs, hmem, hfrom, hafter⟩ := upsertSource_spec now r p db
  obtain ⟨hsrc, hstored, hid, hgroup, hin⟩ := upsertInput_spec first r p
    ((newSourcePackage now r p).upsert db).1.id ((newSourcePackage now r p).upsert db).2
  have hs := (importRows_other (g := Db.sourcePackages) (fun _ _ => rfl) now first r p db).trans hsrc
  have hb := importRows_other (g := Db.buildInputs) (fun _ _ => rfl) now first r p db
  dsimp only at hb
  refine ⟨⟨_, hs ▸ hmem, hid.symm, hfrom⟩, hs ▸ hafter, hb ▸ hstored, hgroup, ?_⟩
  simp only [Db.inputs, hinputs] at hin ⊢
  rw [hb]
  exact hin

lemma importWithHistory_imported (now : Time) (first : Option Time) (r : PackageReport)
    (p : SourcePackageReport) (db : Db) :
    Imported r p db (importWithHistory now first r p db).1 (importWithHistory now first r p db).2 := by
  have h := importRows_imported now first r p db
  unfold importWithHistory
  dsimp only
  split
  · have hs := copyExistingRebuilds_frame (g := Db.sourcePackages) (fun _ _ => rfl) (fun _ _ => rfl)
      (importRows now first r p db).1.id (importRows now first r p db).2
    have hb := copyExistingRebuilds_frame (g := Db.buildInputs) (fun _ _ => rfl) (fun _ _ => rfl)
      (importRows now first r p db).1.id (importRows now first r p db).2
    refine ⟨hs ▸ h.source, hs ▸ h.sources, hb ▸ h.stored, h.group, ?_⟩
    have hin := h.inputs
    simp only [Db.inputs] at hin ⊢
    rw [hb]
    exact hin
  · exact h

/-! ### What a report does, step by step -/

section
variable {c : ScheduleConfig} {T : Ties} {now : Time} {r : PackageReport} {db db' : Db}

/-- Enqueueing does nothing, or gives up on the friends, or inserts a queue row; the latter two
only if no friend is queued. -/
lemma enqueueImported_cases {id : ℕ} (h : enqueueImported c T now id db = .ok db') :
    ((getCurrentRebuildStatus T db id = .good ∨ hasQueuedFriend db id = true) ∧ db' = db) ∨
      (getCurrentRebuildStatus T db id ≠ .good ∧ hasQueuedFriend db id = false ∧
        ∃ n, getLargestRetryCountAmongFriends db id = .ok n ∧
          ((c.retriesExhausted n = true ∧ db' = markBuildInputFriendsAsNonRetriable db id) ∨
            (c.retriesExhausted n = false ∧
              ∃ priority, db' = NewQueued.upsert ⟨id, priority, now⟩ db))) := by
  unfold enqueueImported at h
  dsimp only at h
  split at h
  · rename_i hneed
    right
    refine ⟨hneed.1, hneed.2, ?_⟩
    rcases hn : getLargestRetryCountAmongFriends db id with e | n
    · simp [hn, bind, Except.bind] at h
    · refine ⟨n, rfl, ?_⟩
      simp only [hn, bind, Except.bind] at h
      split at h
      · rename_i hex
        exact .inl ⟨hex, (Except.ok.inj h).symm⟩
      · rename_i hex
        exact .inr ⟨by simpa using hex, _, (Except.ok.inj h).symm⟩
  · rename_i hneed
    left
    refine ⟨?_, (Except.ok.inj h).symm⟩
    rcases not_and_or.mp hneed with hs | hq
    · exact .inl (not_not.mp hs)
    · exact .inr (by simpa using hq)

/-- What enqueueing does to the queue: nothing, or one new row; and nothing to the packages. -/
lemma enqueueImported_queue {id s : ℕ} {g : Group} (hid : (id, s, g) ∈ db.inputs)
    (h : enqueueImported c T now id db = .ok db') :
    (db'.sourcePackages = db.sourcePackages ∧ db'.inputs = db.inputs) ∧
      (db'.queue = db.queue ∨ ∃ priority,
        db'.queue = db.queue.insert (NewQueued.row ⟨id, priority, now⟩)) := by
  rcases enqueueImported_cases h with
    ⟨-, rfl⟩ | ⟨-, hq, n, -, ⟨-, rfl⟩ | ⟨-, priority, rfl⟩⟩
  · exact ⟨⟨rfl, rfl⟩, .inl rfl⟩
  · exact ⟨⟨rfl, (markNonRetriable_of_none_queued hq).2⟩, .inl (markNonRetriable_of_none_queued hq).1⟩
  · exact ⟨⟨rfl, rfl⟩, .inr ⟨priority, upsertQueued_of_none_queued hid hq priority now⟩⟩

lemma importPackage_ok {p : SourcePackageReport} (h : importPackage c T now r db p = .ok db') :
    ∃ first, c.firstTry now = .ok first ∧
      enqueueImported c T now (importWithHistory now first r p db).1.id
        (importWithHistory now first r p db).2 = .ok db' := by
  unfold importPackage at h
  rcases hf : c.firstTry now with e | first
  · simp [hf, bind, Except.bind] at h
  · exact ⟨first, rfl, by simpa [hf, bind, Except.bind] using h⟩

/-- The packages are imported one after the other, between marking and dropping. -/
lemma commitPackageReport_ok (h : commitPackageReport c T now r db = .ok db') :
    ∃ db₁, r.packages.foldlM (importPackage c T now r) (markScopedPackagesUnseen r db) = .ok db₁ ∧
      db' = dropUnseenScopedJobs r db₁ := by
  unfold commitPackageReport at h
  rcases hf : r.packages.foldlM (importPackage c T now r) (markScopedPackagesUnseen r db) with e | db₁
  · simp [hf, bind, Except.bind] at h
  · refine ⟨db₁, rfl, ?_⟩
    simp only [hf, bind, Except.bind] at h
    exact (Except.ok.inj h).symm

end

/-! ### Binary package listings -/

/-- A row of `binary_packages_base`. -/
structure BinaryPackageRecord where
  id : ℕ
  name : String
  version : String
  distribution : String
  release : Option String
  component : Option String
  architecture : String
  url : String
  status : Option BuildStatus
  buildId : Option ℕ
  artifactId : Option ℕ
  diffoscopeLogId : Option ℕ
  attestationLogId : Option ℕ
  lastSeen : Time
  seenInLastSync : Bool
  rebuildStatus : Option BuildStatus
  deriving DecidableEq

/-- The rebuild `r2` comes after `r1`: later, or as late with a larger id. -/
def Rebuild.supersedes (r2 r1 : Rebuild) : Bool :=
  sqlLt r1.builtText r2.builtText || (sqlEq r1.builtText r2.builtText && decide (r1.id < r2.id))

/-- A row of the joins of `binary_packages_base`. -/
structure BinaryRow where
  package : BinaryPackage
  source : SourcePackage
  rebuild : Option Rebuild
  artifact : Option RebuildArtifact
  deriving DecidableEq

/-- The joins of `binary_packages_base`: each binary package with a rebuild of its build input
that no other one supersedes, and the artifact of that rebuild with the package's name. -/
def binaryRows (db : Db) : List BinaryRow := do
  let p ← db.binaryPackages.rows
  let s ← db.sourcePackages.rows.filter fun s => s.id == p.sourcePackageId
  let b ← db.buildInputs.rows.filter fun b => b.id == p.buildInputId
  let r1 ← leftJoin db.rebuilds.rows fun r => r.buildInputId == b.id
  let a ← leftJoin db.rebuildArtifacts.rows fun a =>
    r1.any (·.id == a.rebuildId) && a.name == p.name
  let r2 ← leftJoin db.rebuilds.rows fun r => r.buildInputId == b.id && r1.any r.supersedes
  if r2.isNone then return ⟨p, s, r1, a⟩ else []

def binaryRecord (row : BinaryRow) : BinaryPackageRecord where
  id := row.package.id
  name := row.package.name
  version := row.package.version
  distribution := row.source.distribution
  release := row.source.release
  component := row.source.component
  architecture := row.package.architecture
  url := row.package.artifactUrl
  status := (row.artifact.bind (·.status)).map ArtifactStatus.toBuild
  buildId := row.rebuild.map (·.id)
  artifactId := row.artifact.map (·.id)
  diffoscopeLogId := row.artifact.bind (·.diffoscopeLogId)
  attestationLogId := row.artifact.bind (·.attestationLogId)
  lastSeen := row.source.lastSeen
  seenInLastSync := row.package.seenInLastSync
  rebuildStatus := row.rebuild.bind (·.status)

def binaryPackagesBase (db : Db) : List BinaryPackageRecord := (binaryRows db).map binaryRecord

/-- `record.status = record.rebuild_status.take()` when there is no artifact status. -/
def BinaryPackageRecord.coalesce (p : BinaryPackageRecord) : BinaryPackageRecord :=
  if p.status.isNone then { p with status := p.rebuildStatus, rebuildStatus := none } else p

/-- What `get_binary_packages` and `get_binary_package` show, before their filters. -/
def shownBinaryPackages (db : Db) : List BinaryPackageRecord :=
  (binaryPackagesBase db).map BinaryPackageRecord.coalesce

end Rebuilderd.Daemon
