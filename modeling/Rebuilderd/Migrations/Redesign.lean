import Rebuilderd.Lib.Inserts
import Rebuilderd.Daemon.Schema

/-!
The migration that redesigned the database: what used to be one table of pkgbases became source
packages and build inputs, and the builds of packages became rebuilds of build inputs with artifacts.

Times and statuses are text, compared as such. The queue and the workers are not part of this
module.
-/

namespace Rebuilderd.Migrations

open Rebuilderd.Lib Rebuilderd.Common
open Rebuilderd.Daemon (BuildLog DiffoscopeLog AttestationLog)

/-! ### The database before -/

structure Pkgbase where
  id : ℕ
  name : String
  version : String
  distro : String
  suite : String
  architecture : String
  inputUrl : Option String
  retries : ℤ
  nextRetry : Option String
  deriving DecidableEq

structure Package where
  id : ℕ
  pkgbaseId : ℕ
  name : String
  version : String
  status : String
  distro : String
  suite : String
  architecture : String
  artifactUrl : String
  buildId : Option ℕ
  builtAt : Option String
  deriving DecidableEq

/-- The log of a build is NOT NULL; the migration takes it for nullable, and so it is here. -/
structure Build where
  id : ℕ
  diffoscope : Option Bytes
  buildLog : Option Bytes
  attestation : Option Bytes
  deriving DecidableEq

instance : Row Pkgbase := ⟨Pkgbase.id⟩
instance : Row Package := ⟨Package.id⟩
instance : Row Build := ⟨Build.id⟩

/-- `UNIQUE (name, version, distro, suite, architecture)` of the pkgbases. -/
def Pkgbase.columns (p : Pkgbase) : String × String × String × String × String :=
  (p.name, p.version, p.distro, p.suite, p.architecture)

/-- `UNIQUE (name, version, distro, suite, architecture)` of the packages. -/
def Package.columns (k : Package) : String × String × String × String × String :=
  (k.name, k.version, k.distro, k.suite, k.architecture)

structure OldDb where
  pkgbases : Table Pkgbase
  packages : Table Package
  builds : Table Build
  pkgbaseUnique : (pkgbases.rows.map Pkgbase.columns).Nodup
  packagesUnique : (packages.rows.map Package.columns).Nodup
  pkgbaseExists : ∀ k ∈ packages.rows, ∃ p ∈ pkgbases.rows, p.id = k.pkgbaseId
  buildExists : ∀ k ∈ packages.rows, ∀ i ∈ k.buildId, ∃ d ∈ builds.rows, d.id = i

/-! ### The database after -/

structure SourcePackage where
  id : ℕ
  name : String
  version : String
  distribution : String
  release : Option String
  component : Option String
  deriving DecidableEq

structure BuildInput where
  id : ℕ
  sourcePackageId : ℕ
  url : String
  backend : String
  architecture : String
  retries : ℤ
  nextRetry : Option String
  deriving DecidableEq

structure BinaryPackage where
  id : ℕ
  sourcePackageId : ℕ
  buildInputId : ℕ
  name : String
  version : String
  architecture : String
  artifactUrl : String
  deriving DecidableEq

structure Rebuild where
  id : ℕ
  buildInputId : ℕ
  startedAt : Option String
  builtAt : Option String
  buildLogId : ℕ
  status : Option String
  deriving DecidableEq

structure RebuildArtifact where
  id : ℕ
  rebuildId : ℕ
  name : String
  diffoscopeLogId : Option ℕ
  attestationLogId : Option ℕ
  status : Option String
  deriving DecidableEq

instance : Row BuildInput := ⟨BuildInput.id⟩
instance : Row Rebuild := ⟨Rebuild.id⟩
instance : Row RebuildArtifact := ⟨RebuildArtifact.id⟩

/-! ### Source packages and build inputs -/

/-- `INSERT INTO source_packages ... ON CONFLICT DO NOTHING`, of one pkgbase. -/
def insertSource (sources : List SourcePackage) (p : Pkgbase) : List SourcePackage :=
  if sources.any fun s => s.name == p.name && s.version == p.version &&
      s.distribution == p.distro && s.release == none && s.component == some p.suite then sources
  else sources ++ [⟨p.id, p.name, p.version, p.distro, none, some p.suite⟩]

def sourcePackages (o : OldDb) : List SourcePackage := o.pkgbases.rows.foldl insertSource []

/-- `__temp_pkgbase_lookup`: the ids of pkgbases with the ids of their source packages. -/
def lookup (o : OldDb) : List (ℕ × ℕ) :=
  o.pkgbases.rows.flatMap fun p => (sourcePackages o).flatMap fun s =>
    if s.name == p.name && s.version == p.version && s.distribution == p.distro &&
        s.component == some p.suite then [(p.id, s.id)]
    else []

/-- The row of a pkgbase with its source package. The `input_url` is not NULL. -/
def buildInput (x : Pkgbase × ℕ) (id : ℕ) : BuildInput :=
  ⟨id, x.2, x.1.inputUrl.getD "", x.1.distro, x.1.architecture, x.1.retries, x.1.nextRetry⟩

def inputRows (o : OldDb) : List (Pkgbase × ℕ) :=
  o.pkgbases.rows.flatMap fun p => (lookup o).flatMap fun t =>
    if p.id == t.1 then [(p, t.2)] else []

def buildInputs (o : OldDb) : List ((Pkgbase × ℕ) × BuildInput) := inserted buildInput (inputRows o)

/-- The unique index of the build inputs. -/
def BuildInput.columns (b : BuildInput) : ℕ × String × String × String :=
  (b.sourcePackageId, b.url, b.backend, b.architecture)

/-! ### Binary packages -/

def binaryPackages (o : OldDb) : List BinaryPackage :=
  o.packages.rows.flatMap fun k => (lookup o).flatMap fun t => (buildInputs o).flatMap fun b =>
    if k.pkgbaseId == t.1 && t.2 == b.2.sourcePackageId && b.2.architecture == k.architecture then
      [⟨k.id, t.2, b.2.id, k.name, k.version, k.architecture, k.artifactUrl⟩]
    else []

/-- The unique index of the binary packages. -/
def BinaryPackage.columns (b : BinaryPackage) : ℕ × ℕ × String × String × String :=
  (b.sourcePackageId, b.buildInputId, b.name, b.version, b.architecture)

/-! ### Logs -/

/-- A zero-length zstd stream. -/
def emptyStream : Bytes :=
  [0x28, 0xb5, 0x2f, 0xfd, 0x24, 0x00, 0x01, 0x00, 0x00, 0x99, 0xe9, 0xd8, 0x51]

/-- `COALESCE(builds.build_log, x'28b52ffd240001000099e9d851')`. -/
def Build.log (d : Build) : Bytes := d.buildLog.getD emptyStream

def buildLogs (S : Scan) (o : OldDb) : List (Build × BuildLog) :=
  inserted (fun d id => ⟨id, d.log⟩) (S.arrange o.builds.rows)

def diffoscopeLogs (S : Scan) (o : OldDb) : List (Bytes × DiffoscopeLog) :=
  inserted (fun log id => ⟨id, log⟩) (S.arrange (o.builds.rows.filterMap (·.diffoscope)))

def attestationLogs (S : Scan) (o : OldDb) : List (Bytes × AttestationLog) :=
  inserted (fun log id => ⟨id, log⟩) (S.arrange (o.builds.rows.filterMap (·.attestation)))

/-! ### Rebuilds -/

/-- A row of the join that the rebuilds are made of. -/
structure BuiltRow where
  package : Package
  build : Build
  log : BuildLog

/-- The group of a build input. -/
def builtRows (S : Scan) (o : OldDb) (b : BuildInput) : List BuiltRow :=
  (sourcePackages o).flatMap fun s =>
    if b.sourcePackageId == s.id then
      o.packages.rows.flatMap fun k =>
        if (lookup o).any fun t => t.1 == k.pkgbaseId && t.2 == s.id then
          (leftJoin o.builds.rows fun d => k.buildId == some d.id).flatMap fun d =>
            (buildLogs S o).flatMap fun l =>
              if l.2.buildLog == (d.bind (·.buildLog)).getD emptyStream then
                d.toList.map fun d => ⟨k, d, l.2⟩
              else []
        else []
    else []

/-- What the SELECT gives for a group. -/
structure Group where
  input : BuildInput
  rows : List BuiltRow
  log : BuildLog

/-- `MAX(pkg.built_at)`. -/
def Group.builtAt (rows : List BuiltRow) : Option String :=
  (rows.filterMap (·.package.builtAt)).max?

/-- `MIN(pkg.status)`. -/
def Group.status (rows : List BuiltRow) : Option String := (rows.map (·.package.status)).min?

/-- With two aggregates, a bare column is read from a row that has the value of one of them. -/
def Group.aggregated (rows : List BuiltRow) : List BuiltRow :=
  rows.filter fun x =>
    x.package.builtAt == Group.builtAt rows || some x.package.status == Group.status rows

/-- The groups, each with the row its bare column is read from. -/
def groups (S : Scan) (o : OldDb) : List Group :=
  (buildInputs o).flatMap fun b =>
    let rows := builtRows S o b.2
    ((S.pick (Group.aggregated rows)).map fun x => ⟨b.2, rows, x.log⟩).toList

def Group.rebuild (g : Group) (id : ℕ) : Rebuild :=
  ⟨id, g.input.id, none, Group.builtAt g.rows, g.log.id, Group.status g.rows⟩

def rebuilds (S : Scan) (o : OldDb) : List (Group × Rebuild) :=
  inserted Group.rebuild (S.arrange (groups S o))

/-! ### Artifacts -/

/-- A row of the join that the artifacts are made of. -/
structure ArtifactRow where
  package : Package
  rebuild : Rebuild
  diffoscopeLog : Option DiffoscopeLog
  attestationLog : Option AttestationLog

def artifactRows (S : Scan) (o : OldDb) : List ArtifactRow :=
  o.packages.rows.flatMap fun k => (lookup o).flatMap fun t => (buildInputs o).flatMap fun b =>
    if k.pkgbaseId == t.1 && b.2.sourcePackageId == t.2 then
      (rebuilds S o).flatMap fun r => o.builds.rows.flatMap fun d =>
        if r.2.buildInputId == b.2.id && k.buildId == some d.id then
          (leftJoin ((diffoscopeLogs S o).map (·.2)) fun l =>
              d.diffoscope == some l.diffoscopeLog).flatMap fun diffoscope =>
            (leftJoin ((attestationLogs S o).map (·.2)) fun l =>
              d.attestation == some l.attestationLog).map fun attestation =>
                ⟨k, r.2, diffoscope, attestation⟩
        else []
    else []

def ArtifactRow.artifact (x : ArtifactRow) (id : ℕ) : RebuildArtifact :=
  ⟨id, x.rebuild.id, x.package.name, x.diffoscopeLog.map (·.id), x.attestationLog.map (·.id),
    some x.package.status⟩

def rebuildArtifacts (S : Scan) (o : OldDb) : List (ArtifactRow × RebuildArtifact) :=
  inserted ArtifactRow.artifact (S.arrange (artifactRows S o))

/-! ### The migration -/

/-- The tables after the migration, with the rows of the SELECTs they were inserted for. -/
structure NewDb where
  sourcePackages : List SourcePackage
  buildInputs : List ((Pkgbase × ℕ) × BuildInput)
  binaryPackages : List BinaryPackage
  buildLogs : List (Build × BuildLog)
  diffoscopeLogs : List (Bytes × DiffoscopeLog)
  attestationLogs : List (Bytes × AttestationLog)
  rebuilds : List (Group × Rebuild)
  rebuildArtifacts : List (ArtifactRow × RebuildArtifact)

/-- No row violates a constraint of the new tables. -/
def Accepts (o : OldDb) : Prop :=
  (∀ p ∈ o.pkgbases.rows, p.inputUrl.isSome = true) ∧
    ((buildInputs o).map fun b => b.2.columns).Nodup ∧
    ((binaryPackages o).map (·.id)).Nodup ∧ ((binaryPackages o).map (·.columns)).Nodup

instance (o : OldDb) : Decidable (Accepts o) :=
  inferInstanceAs (Decidable (_ ∧ _ ∧ _ ∧ _))

/-- `up.sql`. -/
def redesign (S : Scan) (o : OldDb) : Option NewDb :=
  if Accepts o then
    some ⟨sourcePackages o, buildInputs o, binaryPackages o, buildLogs S o, diffoscopeLogs S o,
      attestationLogs S o, rebuilds S o, rebuildArtifacts S o⟩
  else none

end Rebuilderd.Migrations
