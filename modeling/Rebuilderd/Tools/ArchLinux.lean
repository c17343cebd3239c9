import Rebuilderd.Tools.Schedule

/-!
The scheduler for Arch Linux (`schedule/archlinux.rs`).
-/

namespace Rebuilderd.Tools.ArchLinux

open Rebuilderd.Common Rebuilderd.Lib

/-- The pieces up to a `$`, and the values of the variables, which end before the next `/`. -/
def substitute (repo arch mirror : Text) : Except Err Text :=
  match _h : mirror.dropWhile (· != '$') with
  | [] => .ok mirror
  | c :: rest => do
    let var := c :: rest.takeWhile (· != '/')
    let value ←
      if var = "$repo".toList then .ok repo
      else if var = "$arch".toList then .ok arch
      else .error .io
    let tail ← substitute repo arch (rest.dropWhile (· != '/'))
    return mirror.takeWhile (· != '$') ++ value ++ tail
termination_by mirror.length
decreasing_by
  have hdrop : (c :: rest).length ≤ mirror.length := _h ▸ List.length_dropWhile_le _ mirror
  have hrest := List.length_dropWhile_le (· != '/') rest
  simp only [List.length_cons] at hdrop
  omega

def mirrorToUrl (mirror repo arch file : String) : Except Err String := do
  let url ← substitute repo.toList arch.toList mirror.toList
  let url := if ['/'].isSuffixOf url then url else url ++ ['/']
  return String.ofList url ++ file

structure ArchPkg where
  name : String
  base : String
  filename : String
  version : String
  architecture : String
  packager : String
  deriving DecidableEq

instance : Pkg ArchPkg where
  pkgName := ArchPkg.name
  byMaintainer p maintainers := maintainers.any (startsWith p.packager)

structure NewPkg where
  name : List Text := []
  base : List Text := []
  filename : List Text := []
  version : List Text := []
  architecture : List Text := []
  packager : List Text := []

/-- The first value of a section. -/
def first (values : List Text) : Except Err String :=
  match values.head? with
  | some value => .ok (String.ofList value)
  | none => .error .io

def NewPkg.tryInto (pkg : NewPkg) : Except Err ArchPkg := do
  return {
    name := ← first pkg.name
    base := ← first pkg.base
    filename := ← first pkg.filename
    version := ← first pkg.version
    architecture := ← first pkg.architecture
    packager := ← first pkg.packager }

def NewPkg.set (pkg : NewPkg) (key : Text) (values : List Text) : NewPkg :=
  if key = "%FILENAME%".toList then { pkg with filename := values }
  else if key = "%NAME%".toList then { pkg with name := values }
  else if key = "%BASE%".toList then { pkg with base := values }
  else if key = "%VERSION%".toList then { pkg with version := values }
  else if key = "%ARCH%".toList then { pkg with architecture := values }
  else if key = "%PACKAGER%".toList then { pkg with packager := values }
  else pkg

/-- Reads the values of the section `key`, up to an empty line, and the sections after it. -/
def readValues (pkg : NewPkg) (key : Text) (values : List Text) : List Text → NewPkg
  | [] => pkg.set key values
  | [] :: [] => pkg.set key values
  | [] :: key' :: rest => readValues (pkg.set key values) key' [] rest
  | (c :: cs) :: rest => readValues pkg key (values ++ [c :: cs]) rest

/-- A section begins with its key and goes up to an empty line. -/
def readSections (content : List Text) : NewPkg :=
  match content with
  | [] => {}
  | key :: rest => readValues {} key [] rest

structure Env where
  mirror : Mirror
  order : HashOrder
  decoders : Decoders
  untar : Bytes → Except Err (List (Except Err TarEntry))

/-- An index, whatever it is compressed with. -/
def Env.decompress (env : Env) (bytes : Bytes) : Except Err Bytes := env.decoders.decompress bytes

variable (env : Env)

def extractPkgs (bytes : Bytes) : Except Err (List ArchPkg) := do
  let entries ← env.untar (← env.decompress bytes)
  entries.foldlM (fun pkgs entry => do
    let entry ← entry
    if entry.isRegular then
      let content ← decodeUtf8 (← entry.content)
      let pkg ← (readSections (Text.split ['\n'] content)).tryInto
      return pkgs ++ [pkg]
    else return pkgs) []

/-- Adds a package of the index to the groups by `pkgbase`. -/
def addPkg (sync : PkgsSync) (source component arch : String) (bases : Groups String)
    (pkg : ArchPkg) : Except Err (Groups String) := do
  if !matchesSync pkg sync then return bases
  let url ← mirrorToUrl source component arch pkg.filename
  return bases.push pkg.base
    { name := pkg.base
      version := pkg.version
      url := url
      artifacts := []
      fbsdPortsTopGitHash := none
      fbsdBuildTimestamp := none
      fbsdPortsTopGitTimestamp := none }
    ⟨pkg.name, pkg.version, pkg.architecture, url⟩

/-- The report about one index. -/
def report (sync : PkgsSync) (source arch component : String) : Fetch String PackageReport := do
  let db ← orFail (mirrorToUrl source component arch (component ++ ".db"))
  let bytes ← orFail (← fetchUrlOrPath env.mirror db db)
  let pkgs ← orFail (extractPkgs env bytes)
  let bases ← orFail (pkgs.foldlM (addPkg sync source component arch) ∅)
  return {
    distribution := "archlinux"
    release := none
    component := some component
    architecture := arch
    packages := bases.intoValues env.order }

/-- A source that ends in `.db` is one of the legacy format. -/
def sourceOf (sync : PkgsSync) : String :=
  if ".db".toList.isSuffixOf sync.source.toList then
    "https://mirrors.kernel.org/archlinux/$repo/os/$arch"
  else sync.source

def sync (sync : PkgsSync) : Fetch String (List PackageReport) :=
  sync.architectures.foldlM (fun reports arch =>
    sync.components.foldlM (fun reports component => do
      return reports ++ [← report env sync (sourceOf sync) arch component]) reports) []

end Rebuilderd.Tools.ArchLinux
