import Rebuilderd.Tools.Schedule

/-!
The scheduler for Fedora (`schedule/fedora.rs`).
-/

namespace Rebuilderd.Tools.Fedora

open Rebuilderd.Common Rebuilderd.Lib

structure RepomdXmlLocation where
  href : String

structure RepomdXmlItem where
  itemType : Option String
  location : Option RepomdXmlLocation

structure PackagesXmlItemVersion where
  epoch : String
  ver : String
  rel : String

structure PackagesXmlItem where
  name : String
  arch : String
  version : PackagesXmlItemVersion
  packager : String
  /-- `location.href` -/
  href : String
  /-- `format.sourcerpm` -/
  sourcerpm : String

instance : Pkg PackagesXmlItem where
  pkgName := PackagesXmlItem.name
  byMaintainer p maintainers := maintainers.any (startsWith p.packager)

structure Env where
  mirror : Mirror
  order : HashOrder
  decoders : Decoders
  repomdXml : Bytes → Except Err (List RepomdXmlItem)
  packagesXml : Bytes → Except Err (List PackagesXmlItem)

/-- An index, whatever it is compressed with. -/
def Env.decompress (env : Env) (bytes : Bytes) : Except Err Bytes := env.decoders.decompress bytes

variable (env : Env)

def getPrimaryLocationFromXml (bytes : Bytes) : Except Err String := do
  let list ← env.repomdXml bytes
  match list.find? (·.itemType == some "primary") with
  | none => .error .io
  | some primary =>
    match primary.location with
    | none => .error .io
    | some location => .ok location.href

/-- Adds a package of the index to the groups by `sourcerpm`. -/
def addPkg (sync : PkgsSync) (url : String) (bases : Groups String) (pkg : PackagesXmlItem) :
    Groups String :=
  if !matchesSync pkg sync then bases
  else
    let url := url ++ pkg.href
    let version := pkg.version.ver ++ "-" ++ pkg.version.rel
    bases.push pkg.sourcerpm
      { name := pkg.sourcerpm
        version := version
        url := url
        artifacts := []
        fbsdPortsTopGitHash := none
        fbsdBuildTimestamp := none
        fbsdPortsTopGitTimestamp := none }
      ⟨pkg.name, version, pkg.arch, url⟩

/-- The report about one index. It does not name the release. -/
def report (sync : PkgsSync) (release component arch : String) : Fetch String PackageReport := do
  let url := sync.source ++ "/" ++ release ++ "/" ++ component ++ "/" ++ arch ++ "/os/"
  let repomd := url ++ "repodata/repomd.xml"
  let bytes ← orFail (← fetchUrlOrPath env.mirror repomd repomd)
  let location ← orFail (getPrimaryLocationFromXml env bytes)
  let bytes ← orFail (← fetchUrlOrPath env.mirror (url ++ location) (url ++ location))
  let data ← orFail (env.decompress bytes)
  let packages ← orFail (env.packagesXml data)
  return {
    distribution := "fedora"
    release := none
    component := some component
    architecture := arch
    packages := (packages.foldl (addPkg sync url) ∅).intoValues env.order }

def sync (sync : PkgsSync) : Fetch String (List PackageReport) :=
  sync.releases.foldlM (fun reports release =>
    sync.components.foldlM (fun reports component =>
      sync.architectures.foldlM (fun reports arch => do
        return reports ++ [← report env sync release component arch]) reports) reports) []

end Rebuilderd.Tools.Fedora
