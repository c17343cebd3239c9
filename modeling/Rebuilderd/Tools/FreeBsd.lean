import Rebuilderd.Tools.Schedule

/-!
The scheduler for FreeBSD (`schedule/freebsd.rs`).
-/

namespace Rebuilderd.Tools.FreeBsd

open Rebuilderd.Common Rebuilderd.Lib

structure FreeBSDPkgAnnotations where
  portsTopGitHash : Option String
  buildTimestamp : Option String

structure FreeBSDPkg where
  name : String
  origin : String
  version : String
  arch : String
  annotations : Option FreeBSDPkgAnnotations

/-- `packagesite.yaml` does not name the maintainers. -/
instance : Pkg FreeBSDPkg where
  pkgName := FreeBSDPkg.name
  byMaintainer _ _ := false

structure PackageInfo where
  pkg : FreeBSDPkg
  pkgUrl : String
  buildTimestamp : Option Time
  gitHash : Option String

structure Env where
  mirror : Mirror
  order : HashOrder
  zstd : Bytes → Except Err Bytes
  untar : Bytes → Except Err (List (Except Err TarEntry))
  /-- A package of `packagesite.yaml`, if the line is one. -/
  pkgOfJson : Text → Option FreeBSDPkg
  /-- A time in the format `%Y-%m-%dT%H:%M:%S%z`. -/
  parseTime : String → Option Time
  /-- The date of the commit that GitHub answers with. -/
  commitDate : Bytes → Option Time

variable (env : Env)

/-- The requests of a sync: the index of an architecture, and a commit of the ports tree. -/
inductive Request
  | packagesite (release arch : String)
  | commit (gitHash : String)
  deriving DecidableEq

def fetchGithubCommitTimestamp (gitHash : String) (githubToken : Option String) :
    Fetch Request (Option Time) :=
  match githubToken with
  | none => return none
  | some _ => do
    let url := "https://api.github.com/repos/freebsd/freebsd-ports/commits/" ++ gitHash
    match ← fetchUrlOrPath env.mirror (.commit gitHash) url with
    | .error _ => return none
    | .ok bytes => return env.commitDate bytes

/-- The first `packagesite.yaml` of the archive. -/
def findPackagesite : List (Except Err TarEntry) → Except Err (Option Bytes)
  | [] => .ok none
  | entry :: rest => do
    let entry ← entry
    if entry.path = "packagesite.yaml" then some <$> entry.content else findPackagesite rest

def packageInfo (sync : PkgsSync) (release arch : String) (line : Text) : Option PackageInfo := do
  guard (!line.all Text.isWhiteSpace)
  let pkg ← env.pkgOfJson line
  guard (matchesSync pkg sync)
  return {
    pkg
    pkgUrl := sync.source ++ "/FreeBSD:" ++ release ++ ":" ++ arch ++ "/latest/All/" ++ pkg.name ++
      "-" ++ pkg.version ++ ".pkg"
    buildTimestamp := pkg.annotations.bind (·.buildTimestamp) |>.bind env.parseTime
    gitHash := pkg.annotations.bind (·.portsTopGitHash) }

/-- The commit timestamps by git hash. -/
abbrev Timestamps := AList fun _ : String => Time

/-- The timestamps of the commits, as far as GitHub knows them. -/
def fetchTimestamps (sync : PkgsSync) (infos : List PackageInfo) : Fetch Request Timestamps :=
  if sync.githubToken.isSome then
    (env.order.apply (infos.filterMap (·.gitHash)).dedup).foldlM (fun timestamps gitHash => do
      match ← fetchGithubCommitTimestamp env gitHash sync.githubToken with
      | some timestamp => return timestamps.insert gitHash timestamp
      | none => return timestamps) ∅
  else return ∅

/-- The earliest build timestamp stands in for a commit timestamp, and replaces a later one. -/
def addBuildTimestamp (timestamps : Timestamps) (info : PackageInfo) : Timestamps :=
  match info.gitHash, info.buildTimestamp with
  | some gitHash, some buildTs =>
    match timestamps.lookup gitHash with
    | some ts => if buildTs < ts then timestamps.replace gitHash buildTs else timestamps
    | none => timestamps.insert gitHash buildTs
  | _, _ => timestamps

/-- Adds a package to the groups by origin and version. -/
def addInfo (timestamps : Timestamps) (groups : Groups (String × String)) (info : PackageInfo) :
    Groups (String × String) :=
  groups.push (info.pkg.origin, info.pkg.version)
    { name := info.pkg.origin
      version := info.pkg.version
      url := info.pkgUrl
      artifacts := []
      fbsdPortsTopGitHash := info.gitHash
      fbsdBuildTimestamp := info.buildTimestamp
      fbsdPortsTopGitTimestamp := info.gitHash.bind timestamps.lookup }
    ⟨info.pkg.name, info.pkg.version, info.pkg.arch, info.pkgUrl⟩

/-- The report about one architecture, unless its index could not be fetched or has no
`packagesite.yaml`. -/
def report (sync : PkgsSync) (release arch : String) : Fetch Request (Option PackageReport) := do
  let url := sync.source ++ "/FreeBSD:" ++ release ++ ":" ++ arch ++ "/latest/packagesite.pkg"
  match ← fetchUrlOrPath env.mirror (.packagesite release arch) url with
  | .error _ => return none
  | .ok bytes => do
    let entries ← orFail (env.untar (← orFail (env.zstd bytes)))
    match ← orFail (findPackagesite entries) with
    | none => return none
    | some packagesite => do
      let text ← orFail (decodeUtf8 packagesite)
      let infos := (Text.lines text).filterMap (packageInfo env sync release arch)
      let fetched ← fetchTimestamps env sync infos
      let timestamps := infos.foldl addBuildTimestamp fetched
      let sorted := infos.insertionSort fun a b => a.pkg.name ≤ b.pkg.name
      return some {
        distribution := "freebsd"
        release := some release
        component := none
        architecture := arch
        packages := (sorted.foldl (addInfo timestamps) ∅).intoValues env.order }

def sync (sync : PkgsSync) : Fetch Request (List PackageReport) :=
  sync.releases.foldlM (fun reports release =>
    sync.architectures.foldlM (fun reports arch => do
      return reports ++ (← report env sync release arch).toList) reports) []

end Rebuilderd.Tools.FreeBsd
