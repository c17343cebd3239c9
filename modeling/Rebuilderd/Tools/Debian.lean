import Rebuilderd.Tools.Schedule

/-!
The scheduler for Debian (`schedule/debian.rs`): the parser of the indices, the source packages,
and the report groups.
-/

namespace Rebuilderd.Tools.Debian

open Rebuilderd.Common Rebuilderd.Lib

def binNmuPrefix : Text := "+b".toList

inductive VersionConstraint
  | explicit (version : String)
  | implicit (version : String)
  deriving DecidableEq

structure DebianSourcePkg where
  base : String
  binary : List String
  version : String
  directory : String
  architecture : String
  uploaders : List String
  deriving DecidableEq

structure DebianBinPkg where
  name : String
  version : String
  source : String × VersionConstraint
  architecture : String
  filename : String
  uploaders : List String
  deriving DecidableEq

instance : Pkg DebianBinPkg where
  pkgName := DebianBinPkg.name
  byMaintainer p maintainers := p.uploaders.any fun uploader => maintainers.any (startsWith uploader)

/-! ### Indices -/

structure NewPkg where
  base : Option String := none
  binary : Option (List String) := none
  source : Option String := none
  version : Option String := none
  directory : Option String := none
  architecture : Option String := none
  filename : Option String := none
  uploaders : List String := []

/-- A required field; the error names it. -/
def required {α : Type} (field : Option α) : Except Err α := field.elim (.error .io) .ok

class AnyhowTryFrom (α : Type) where
  tryFrom : NewPkg → Except Err α

instance : AnyhowTryFrom DebianSourcePkg where
  tryFrom new := do
    return {
      base := ← required new.base
      binary := ← required new.binary
      version := ← required new.version
      directory := ← required new.directory
      architecture := ← required new.architecture
      uploaders := new.uploaders }

/-- The source package a binary package belongs to, with its version in parentheses if the field
names one. -/
def sourceOf (name version : String) (source : Option String) :
    Except Err (String × VersionConstraint) :=
  match source with
  | none => .ok (name, .implicit version)
  | some source =>
    match Text.splitOnce [' '] source.toList with
    | none => .ok (source, .implicit version)
    | some (name, version) => do
      let version ← required ((Text.stripPrefix ['('] version).bind (Text.stripSuffix [')']))
      return (String.ofList name, .explicit (String.ofList version))

instance : AnyhowTryFrom DebianBinPkg where
  tryFrom new := do
    let name ← required new.base
    let version ← required new.version
    return {
      name
      version
      source := ← sourceOf name version new.source
      architecture := ← required new.architecture
      filename := ← required new.filename
      uploaders := new.uploaders }

/-- A value that ends with a comma goes on in the next line if that begins with a blank; with the
number of lines it takes. -/
def continued (value : Text) : List Text → Text × ℕ
  | [] => (value, 0)
  | line :: rest =>
    if [','].isSuffixOf value && [' '].isPrefixOf line then
      let (value, n) := continued (value ++ line) rest
      (value, n + 1)
    else (value, 0)

/-- The items of a list that is separated by a comma and a blank. -/
def items (value : Text) : List String := (Text.split [',', ' '] value).map String.ofList

/-- Stores a field of the package, and counts the further lines it takes from `rest`. -/
def NewPkg.set (pkg : NewPkg) (field value : Text) (rest : List Text) : NewPkg × ℕ :=
  if field = "Package".toList then ({ pkg with base := some (String.ofList value) }, 0)
  else if field = "Binary".toList then
    let (value, n) := continued value rest
    ({ pkg with binary := some (items value) }, n)
  else if field = "Version".toList then ({ pkg with version := some (String.ofList value) }, 0)
  else if field = "Source".toList then ({ pkg with source := some (String.ofList value) }, 0)
  else if field = "Directory".toList then ({ pkg with directory := some (String.ofList value) }, 0)
  else if field = "Filename".toList then ({ pkg with filename := some (String.ofList value) }, 0)
  else if field = "Architecture".toList then
    ({ pkg with architecture := some (String.ofList value) }, 0)
  else if field = "Uploaders".toList then ({ pkg with uploaders := items value }, 0)
  else (pkg, 0)

/-- The loop over the lines, of which `skip` are taken by the last field. An empty line ends a
package. -/
def extractLines {α : Type} [AnyhowTryFrom α] (skip : ℕ) (pkg : NewPkg) (pkgs : List α) :
    List Text → Except Err (List α)
  | [] => .ok pkgs
  | line :: rest =>
    match skip with
    | skip + 1 => extractLines skip pkg pkgs rest
    | 0 =>
      if line = [] then do
        let new ← AnyhowTryFrom.tryFrom pkg
        extractLines 0 {} (pkgs ++ [new]) rest
      else match Text.splitOnce [':', ' '] line with
        | none => extractLines 0 pkg pkgs rest
        | some (field, value) =>
          let (pkg, n) := pkg.set field value rest
          extractLines n pkg pkgs rest

def extractPkgsUncompressed {α : Type} [AnyhowTryFrom α] (bytes : Bytes) : Except Err (List α) := do
  extractLines 0 {} [] (Text.lines (← decodeUtf8 bytes))

structure Env where
  mirror : Mirror
  order : HashOrder
  xz : Bytes → Except Err Bytes

variable (env : Env)

def extractPkgsCompressed {α : Type} [AnyhowTryFrom α] (bytes : Bytes) : Except Err (List α) := do
  extractPkgsUncompressed (← env.xz bytes)

/-! ### Source packages -/

/-- The source packages by name. -/
abbrev SourcePkgBucket := AList fun _ : String => List DebianSourcePkg

namespace SourcePkgBucket

def push (sources : SourcePkgBucket) (pkg : DebianSourcePkg) : SourcePkgBucket :=
  match sources.lookup pkg.base with
  | some list => sources.replace pkg.base (list ++ [pkg])
  | none => sources.insert pkg.base [pkg]

/-- The suffix of a binary rebuild. -/
def binNmu (version : Text) : Text :=
  ((Text.fromLast binNmuPrefix version).filter fun num =>
    Text.isU64 (num.drop binNmuPrefix.length)).getD []

/-- The source package of a binary package, with the suffix of its binary rebuild. -/
def get (sources : SourcePkgBucket) (pkg : DebianBinPkg) : Except Err DebianSourcePkg := do
  let (name, version) := pkg.source
  let list ← required (sources.lookup name)
  let version := match version with
    | .explicit version => version
    | .implicit version => version
  let src ← required (list.find? (·.version = version))
  return { src with version := src.version ++ String.ofList (binNmu pkg.version.toList) }

def importCompressedSourcePackageFile (sources : SourcePkgBucket) (bytes : Bytes) :
    Except Err SourcePkgBucket := do
  return (← extractPkgsCompressed env bytes).foldl push sources

end SourcePkgBucket

/-- The slices panic if the name is too short, or not of one-byte characters there. -/
def DebianSourcePkg.buildinfoPath (src : DebianSourcePkg) : Except Err String :=
  let n := if "lib".toList.isPrefixOf src.base.toList then 4 else 1
  match Text.sliceTo n src.base.toList with
  | some slice => .ok (String.ofList slice)
  | none => .error .panic

def DebianSourcePkg.buildinfoUrl (src : DebianSourcePkg) (arch : String) : Except Err String := do
  let directory ← src.buildinfoPath
  let versionWithoutEpoch := match Text.splitOnce [':'] src.version.toList with
    | some (_, version) => String.ofList version
    | none => src.version
  return "https://buildinfos.debian.net/buildinfo-pool/" ++ directory ++ "/" ++ src.base ++ "/" ++
    src.base ++ "_" ++ versionWithoutEpoch ++ "_" ++ arch ++ ".buildinfo"

/-! ### Report groups -/

structure GroupKey where
  release : String
  component : String
  architecture : String
  deriving DecidableEq

def GroupKey.scope (k : GroupKey) : Scope :=
  ⟨"debian", some k.release, some k.component, k.architecture⟩

lemma GroupKey.scope_injective : Function.Injective GroupKey.scope := by
  rintro ⟨⟩ ⟨⟩ h
  simpa [GroupKey.scope] using h

/-- The reports by release, component and architecture. A report is about its key. -/
structure SyncState where
  reports : AList fun _ : GroupKey => PackageReport
  scope : ∀ e ∈ reports.entries, e.2.scope = e.1.scope

def emptyReport (k : GroupKey) : PackageReport :=
  ⟨"debian", some k.release, some k.component, k.architecture, []⟩

namespace SyncState

def new : SyncState where
  reports := ∅
  scope := by simp

def createReleaseGroup (state : SyncState) (k : GroupKey) : SyncState :=
  if h : k ∈ state.reports then state
  else
    { reports := state.reports.insert k (emptyReport k)
      scope := by
        rw [AList.entries_insert_of_notMem h]
        exact List.forall_mem_cons.mpr ⟨rfl, state.scope⟩ }

/-- The packages of a report with the artifact added to the group of its source package, which
is made if there is none. -/
def addArtifact (src : DebianSourcePkg) (arch : String) (artifact : BinaryPackageReport)
    (packages : List SourcePackageReport) : Except Err (List SourcePackageReport) :=
  match packages.findIdx? fun p => src.base = p.name ∧ src.version = p.version with
  | some i => .ok (packages.modify i fun p => { p with artifacts := p.artifacts ++ [artifact] })
  | none => do
    return packages ++ [{
      name := src.base
      version := src.version
      url := ← src.buildinfoUrl arch
      artifacts := [artifact]
      fbsdPortsTopGitHash := none
      fbsdBuildTimestamp := none
      fbsdPortsTopGitTimestamp := none }]

def report (state : SyncState) (k : GroupKey) : PackageReport :=
  (state.reports.lookup k).getD (emptyReport k)

lemma report_scope (state : SyncState) (k : GroupKey) : (state.report k).scope = k.scope := by
  unfold report
  rcases h : state.reports.lookup k with _ | r
  · rfl
  · exact state.scope _ (AList.mem_lookup_iff.mp h)

def setPackages (state : SyncState) (k : GroupKey) (packages : List SourcePackageReport) :
    SyncState where
  reports := state.reports.replace k { state.report k with packages }
  scope := forall_mem_replace state.scope (state.report_scope k)

def push (state : SyncState) (src : DebianSourcePkg) (bin : DebianBinPkg)
    (source release component : String) : Except Err SyncState := do
  let k : GroupKey := ⟨release, component, bin.architecture⟩
  let state := state.createReleaseGroup k
  let artifact := ⟨bin.name, bin.version, bin.architecture, source ++ "/" ++ bin.filename⟩
  return state.setPackages k
    (← addArtifact src bin.architecture artifact (state.report k).packages)

def toVec (order : HashOrder) (state : SyncState) : List PackageReport :=
  order.apply (state.reports.entries.map (·.2))

/-- Imports a binary package of a configured architecture if its source package is known. -/
def importBinaryPkg (sources : SourcePkgBucket) (release component : String) (sync : PkgsSync)
    (state : SyncState) (pkg : DebianBinPkg) : Except Err SyncState :=
  if !matchesSync pkg sync || !sync.architectures.contains pkg.architecture then .ok state
  else match sources.get pkg with
    | .ok source => state.push source pkg sync.source release component
    | .error _ => .ok state

/-- Creates the groups of all configured architectures, whichever index is imported. -/
def createAllReleaseGroups (state : SyncState) (release component : String) (sync : PkgsSync) :
    SyncState :=
  sync.architectures.foldl (fun state arch => state.createReleaseGroup ⟨release, component, arch⟩)
    state

def importPkgs (state : SyncState) (pkgs : Except Err (List DebianBinPkg))
    (sources : SourcePkgBucket) (release component : String) (sync : PkgsSync) :
    Except Err SyncState := do
  let state := state.createAllReleaseGroups release component sync
  (← pkgs).foldlM (importBinaryPkg sources release component sync) state

def importCompressedBinaryPackageFile (state : SyncState) (bytes : Bytes)
    (sources : SourcePkgBucket) (release component : String) (sync : PkgsSync) :
    Except Err SyncState :=
  state.importPkgs (extractPkgsCompressed env bytes) sources release component sync

def importUncompressedBinaryPackageFile (state : SyncState) (bytes : Bytes)
    (sources : SourcePkgBucket) (release component : String) (sync : PkgsSync) :
    Except Err SyncState :=
  state.importPkgs (extractPkgsUncompressed bytes) sources release component sync

end SyncState

/-! ### The sync -/

/-- What the sync downloads. -/
inductive Index
  | sources (release component : String)
  | packages (k : GroupKey)
  deriving DecidableEq

/-- The installer's packages have their sources in the component before the slash. -/
def sourceComponent (component : String) : String :=
  if "/debian-installer".toList.isSuffixOf component.toList then
    match Text.splitOnce ['/'] component.toList with
    | some (a, _) => String.ofList a
    | none => component
  else component

def Index.url (source : String) : Index → String
  | .sources release component =>
    source ++ "/dists/" ++ release ++ "/" ++ sourceComponent component ++ "/source/Sources.xz"
  | .packages ⟨release, component, arch⟩ =>
    source ++ "/dists/" ++ release ++ "/" ++ component ++ "/binary-" ++ arch ++ "/Packages.xz"

def fetchIndex (sync : PkgsSync) (index : Index) : Fetch Index (Except Err Bytes) :=
  fetchUrlOrPath env.mirror index (index.url sync.source)

/-- A binary index that cannot be fetched is skipped. -/
def syncArchitecture (sync : PkgsSync) (sources : SourcePkgBucket) (release component : String)
    (state : SyncState) (arch : String) : Fetch Index SyncState := do
  match ← fetchIndex env sync (.packages ⟨release, component, arch⟩) with
  | .ok bytes =>
    orFail (state.importCompressedBinaryPackageFile env bytes sources release component sync)
  | .error _ => return state

def syncComponent (sync : PkgsSync) (release : String) (x : SourcePkgBucket × SyncState)
    (component : String) : Fetch Index (SourcePkgBucket × SyncState) := do
  let bytes ← orFail (← fetchIndex env sync (.sources release component))
  let sources ← orFail (x.1.importCompressedSourcePackageFile env bytes)
  let state ← sync.architectures.foldlM (syncArchitecture env sync sources release component) x.2
  return (sources, state)

def syncRelease (sync : PkgsSync) (state : SyncState) (release : String) : Fetch Index SyncState := do
  return (← sync.components.foldlM (syncComponent env sync release) (∅, state)).2

def sync (sync : PkgsSync) : Fetch Index (List PackageReport) := do
  let state ← sync.releases.foldlM (syncRelease env sync) SyncState.new
  return state.toVec env.order

end Rebuilderd.Tools.Debian
