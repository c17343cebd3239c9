import Mathlib.Data.List.AList
import Rebuilderd.Lib.Text
import Rebuilderd.Daemon.SourceListing

/-!
The cross-check with other rebuilders: the cache of the packages on which a peer and the daemon
disagree, and the requests that renew it.

A request registers the peers and is answered; the comparison runs on in the background. What the
peers answer and the packages of the daemon stay as they are meanwhile.
-/

namespace Rebuilderd.Daemon

open Rebuilderd.Lib Rebuilderd.Common

/-! ### Tables -/

structure PeerRebuilder where
  id : ℕ
  url : String
  distribution : String
  architecture : String
  release : String
  releaseAlias : String
  deriving DecidableEq

structure PeerSha256Check where
  id : ℕ
  peerRebuilderId : ℕ
  binaryName : String
  binaryVersion : String
  peerBuildId : Option ℤ
  checkedAt : Time
  peerStatus : Option String
  deriving DecidableEq

instance : Row PeerRebuilder := ⟨PeerRebuilder.id⟩
instance : Row PeerSha256Check := ⟨PeerSha256Check.id⟩

/-- The tables of the packages, which the checks only read, and those of the peers. -/
structure PeerDb where
  packages : Db
  peerRebuilders : Table PeerRebuilder
  peerSha256Checks : Table PeerSha256Check

structure NewPeerRebuilder where
  url : String
  distribution : String
  architecture : String
  release : String
  releaseAlias : String

namespace NewPeerRebuilder

/-- `UNIQUE(url, distribution, architecture)`. -/
def conflicts (n : NewPeerRebuilder) (p : PeerRebuilder) : Bool :=
  p.url == n.url && p.distribution == n.distribution && p.architecture == n.architecture

def row (n : NewPeerRebuilder) (id : ℕ) : PeerRebuilder where
  id := id
  url := n.url
  distribution := n.distribution
  architecture := n.architecture
  release := n.release
  releaseAlias := n.releaseAlias

/-- On a conflict the release and its alias are overwritten. -/
def upsert (n : NewPeerRebuilder) (db : PeerDb) : PeerDb :=
  { db with peerRebuilders := (db.peerRebuilders.upsert n.conflicts n.row fun p =>
      { p with release := n.release, releaseAlias := n.releaseAlias }).2 }

end NewPeerRebuilder

/-- The checks of the peers that are deleted go with them. -/
def deletePeers (p : PeerRebuilder → Bool) (db : PeerDb) : PeerDb :=
  let gone := db.peerRebuilders.rows.filter p
  { db with
    peerRebuilders := db.peerRebuilders.delete p
    peerSha256Checks := db.peerSha256Checks.delete fun c => gone.any (·.id == c.peerRebuilderId) }

/-- The URLs that are no longer configured. -/
def stalePeer (distribution architecture : String) (urls : List String) (p : PeerRebuilder) : Bool :=
  p.distribution == distribution && p.architecture == architecture && !urls.contains p.url

def peersOf (distribution architecture : String) (db : PeerDb) : List PeerRebuilder :=
  db.peerRebuilders.rows.filter fun p =>
    p.distribution == distribution && p.architecture == architecture

structure UpsertPeerSha256Check where
  peerRebuilderId : ℕ
  binaryName : String
  binaryVersion : String
  peerBuildId : Option ℤ
  checkedAt : Time
  peerStatus : Option String

namespace UpsertPeerSha256Check

def row (u : UpsertPeerSha256Check) (id : ℕ) : PeerSha256Check where
  id := id
  peerRebuilderId := u.peerRebuilderId
  binaryName := u.binaryName
  binaryVersion := u.binaryVersion
  peerBuildId := u.peerBuildId
  checkedAt := u.checkedAt
  peerStatus := u.peerStatus

/-- `UNIQUE(peer_rebuilder_id, binary_name, binary_version)`. -/
def conflicts (u : UpsertPeerSha256Check) (c : PeerSha256Check) : Bool :=
  c.peerRebuilderId == u.peerRebuilderId && c.binaryName == u.binaryName &&
    c.binaryVersion == u.binaryVersion

/-- The peer must exist, and a second check of the same package is refused. -/
def insert (u : UpsertPeerSha256Check) (db : PeerDb) : Except Err PeerDb :=
  if !db.peerRebuilders.rows.any (·.id == u.peerRebuilderId) then .error .io
  else if db.peerSha256Checks.rows.any u.conflicts then .error .io
  else .ok { db with peerSha256Checks := db.peerSha256Checks.insert u.row }

end UpsertPeerSha256Check

/-- One transaction: the checks of the peers that were compared are replaced. -/
def replaceChecks (compared : List ℕ) (upserts : List UpsertPeerSha256Check) (db : PeerDb) :
    Except Err PeerDb :=
  upserts.foldlM (fun db u => u.insert db) { db with
    peerSha256Checks := db.peerSha256Checks.delete fun c => compared.contains c.peerRebuilderId }

/-! ### The packages of a peer -/

/-- A package, by its name and its version. -/
abbrev PackageKey := String × String

structure PeerPkgInfo where
  status : BuildStatus
  peerBuildId : Option ℤ
  deriving DecidableEq

structure LocalPkgInfo where
  status : BuildStatus
  deriving DecidableEq

/-- A `HashMap` by name and version. -/
abbrev PackageMap (ν : Type) := AList fun _ : PackageKey => ν

structure PeerBinaryPackage where
  id : ℤ
  name : String
  version : String
  status : Option BuildStatus
  buildId : Option ℤ
  rebuildStatus : Option BuildStatus

structure V1PageQuery where
  distribution : String
  architecture : String
  seenOnly : Bool
  limit : ℤ
  after : Option ℤ
  release : Option String

inductive V0Status
  | good | bad | unknown

structure V0PkgRelease where
  name : String
  version : String
  status : V0Status
  buildId : Option ℤ

def v0ToBuildStatus : V0Status → BuildStatus
  | .good => .good
  | .bad => .bad
  | .unknown => .unknown

/-- A package as the daemon selects it, with the release its source package is of. -/
structure LocalRow where
  binName : String
  binVersion : String
  release : Option String
  artifactStatus : Option BuildStatus
  rebuildStatus : Option BuildStatus

/-- What the checks run with: the configuration, what the peers answer, and the orders that are
not determined. A peer that has more than `maxPages` full pages is given up. -/
structure PeerEnv where
  config : Config
  getV1 : Text → V1PageQuery → Except Err (List PeerBinaryPackage)
  getV0 : Text → String → Except Err (List V0PkgRelease)
  maxPages : ℕ
  /-- The order in which the peers have been fetched. -/
  fetched : Shuffle PeerRebuilder
  /-- The order of the entries of a `HashMap`. -/
  entries : Shuffle (Sigma fun _ : PackageKey => PeerPkgInfo)
  /-- The order of the selected rows. -/
  selected : Shuffle LocalRow

def trimSlashes (url : Text) : Text := (url.reverse.dropWhile (· == '/')).reverse

/-- `peer.url.replace("\x7barch\x7d", arch)`. -/
def resolveUrl (url architecture : String) : Text :=
  architecture.toList.intercalate (Text.split "\x7barch\x7d".toList url.toList)

def isV0Url (url : Text) : Bool :=
  let trimmed := trimSlashes url
  "/v0".toList.isSuffixOf trimmed || (Text.splitOnce "/v0/".toList trimmed).isSome

def PeerBinaryPackage.entry (pkg : PeerBinaryPackage) : Sigma fun _ : PackageKey => PeerPkgInfo :=
  ⟨(pkg.name, pkg.version), (pkg.status.or pkg.rebuildStatus).getD .unknown, pkg.buildId⟩

def V0PkgRelease.entry (pkg : V0PkgRelease) : Sigma fun _ : PackageKey => PeerPkgInfo :=
  ⟨(pkg.name, pkg.version), v0ToBuildStatus pkg.status, pkg.buildId⟩

namespace PeerEnv

variable (env : PeerEnv)

/-- The loop of `fetch_v1_packages`, after the packages up to `after` are in the map. -/
def fetchPages (url : Text) (distribution architecture : String) (release : Option String) :
    ℕ → Option ℤ → PackageMap PeerPkgInfo → Except Err (PackageMap PeerPkgInfo)
  | 0, _, _ => .error .io
  | pages + 1, after, map => do
    let records ← env.getV1 (trimSlashes url ++ "/packages/binary".toList)
      { distribution, architecture, seenOnly := true, limit := 1000, after, release }
    let map := records.foldl (fun map pkg => map.insert pkg.entry.1 pkg.entry.2) map
    if records.length < 1000 then return map
    match records.getLast? with
    | none => return map
    | some last => fetchPages url distribution architecture release pages (some last.id) map

def fetchV1Packages (url : Text) (distribution architecture : String) (release : Option String) :
    Except Err (PackageMap PeerPkgInfo) :=
  env.fetchPages url distribution architecture release (env.maxPages + 1) none ∅

def fetchV0Packages (url : Text) (architecture : String) : Except Err (PackageMap PeerPkgInfo) := do
  let packages ← env.getV0 (trimSlashes url ++ "/pkgs/list".toList) architecture
  return (packages.map V0PkgRelease.entry).foldl (fun map e => map.insert e.1 e.2) ∅

def fetchAllPeerPackages (url : Text) (distribution architecture : String) (release : Option String) :
    Except Err (PackageMap PeerPkgInfo) :=
  if isV0Url url then env.fetchV0Packages url architecture
  else env.fetchV1Packages url distribution architecture release

end PeerEnv

/-! ### The packages of the daemon -/

/-- The rows `fetch_local_packages` selects. -/
def localRows (distribution architecture : String) (db : Db) : List LocalRow := do
  let p ← db.binaryPackages.rows.filter (·.seenInLastSync)
  let s ← db.sourcePackages.rows.filter fun s =>
    s.id == p.sourcePackageId && s.distribution == distribution
  let b ← db.buildInputs.rows.filter fun b =>
    b.id == p.buildInputId && b.architecture == architecture
  let r1 ← unsupersededRebuilds db b.id
  let a ← leftJoin db.rebuildArtifacts.rows fun a =>
    r1.any (·.id == a.rebuildId) && a.name == p.name
  return {
    binName := p.name
    binVersion := p.version
    release := s.release
    artifactStatus := (a.bind (·.status)).map ArtifactStatus.toBuild
    rebuildStatus := r1.bind (·.status) }

def LocalRow.entry (row : LocalRow) : Sigma fun _ : PackageKey => LocalPkgInfo :=
  ⟨(row.binName, row.binVersion), ⟨(row.artifactStatus.or row.rebuildStatus).getD .unknown⟩⟩

def PeerEnv.fetchLocalPackages (env : PeerEnv) (distribution architecture : String) (db : PeerDb) :
    PackageMap LocalPkgInfo :=
  (env.selected.order (localRows distribution architecture db.packages)).foldl
    (fun map row => map.insert row.entry.1 row.entry.2) ∅

/-! ### Statements -/

inductive PeerStmt
  | now
  | upsertPeer (new : NewPeerRebuilder)
  | deleteStalePeers (distribution architecture : String) (urls : List String)
  | peersOf (distribution architecture : String)
  | fetchAllPeerPackages (url : Text) (distribution architecture : String) (release : Option String)
  | fetchLocalPackages (distribution architecture : String)
  | replaceChecks (compared : List ℕ) (upserts : List UpsertPeerSha256Check)

@[reducible] def PeerStmt.Answer : PeerStmt → Type
  | .now => Time
  | .upsertPeer _ | .deleteStalePeers _ _ _ | .replaceChecks _ _ => Unit
  | .peersOf _ _ => List PeerRebuilder
  | .fetchAllPeerPackages _ _ _ _ => PackageMap PeerPkgInfo
  | .fetchLocalPackages _ _ => PackageMap LocalPkgInfo

namespace PeerEnv

/-- A statement executed at time `t`. -/
def exec (env : PeerEnv) : Exec PeerStmt PeerStmt.Answer Err Time PeerDb
  | t, .now, db => .ok (t, db)
  | _, .upsertPeer new, db => .ok ((), new.upsert db)
  | _, .deleteStalePeers distribution architecture urls, db =>
    .ok ((), deletePeers (stalePeer distribution architecture urls) db)
  | _, .peersOf distribution architecture, db => .ok (Daemon.peersOf distribution architecture db, db)
  | _, .fetchAllPeerPackages url distribution architecture release, db =>
    (env.fetchAllPeerPackages url distribution architecture release).map (·, db)
  | _, .fetchLocalPackages distribution architecture, db =>
    .ok (env.fetchLocalPackages distribution architecture db, db)
  | _, .replaceChecks compared upserts, db => (Daemon.replaceChecks compared upserts db).map ((), ·)

end PeerEnv

abbrev PeerHandler (α : Type) := Prog PeerStmt PeerStmt.Answer Err α

/-- Execute one statement. -/
abbrev peerSql (s : PeerStmt) : PeerHandler s.Answer := Prog.stmt s

/-! ### Requests and background checks -/

inductive PeerResponse
  | forbidden | accepted
  deriving DecidableEq

def effectiveRelease (r : CheckPeersRequest) : String := r.release.getD ""

/-- What the peer calls the release. -/
def effectiveAlias (r : CheckPeersRequest) : String :=
  (r.releaseAlias.filter (· ≠ "")).getD (effectiveRelease r)

def newPeer (r : CheckPeersRequest) (url : String) : NewPeerRebuilder where
  url := url
  distribution := r.distribution
  architecture := r.architecture
  release := effectiveRelease r
  releaseAlias := effectiveAlias r

/-- Whether one side is good and the other one bad. -/
def statusDisagrees : BuildStatus → BuildStatus → Bool
  | .good, .bad | .bad, .good => true
  | _, _ => false

/-- An empty text is no filter. -/
def releaseFilter (releaseAlias : String) : Option String :=
  if releaseAlias = "" then none else some releaseAlias

namespace PeerHandler

open Prog

/-- The part of `check_peers` before its answer. -/
def register (cfg : Config) (h : Headers) (r : CheckPeersRequest) : PeerHandler PeerResponse := do
  if !Handler.admin cfg h then
    return .forbidden
  r.urls.foldlM (fun _ url => peerSql (.upsertPeer (newPeer r url))) ()
  peerSql (.deleteStalePeers r.distribution r.architecture r.urls)
  return .accepted

/-- Fetch the packages of every peer; the peers that cannot be fetched are left out. -/
def fetchPeers (distribution architecture : String) (peers : List PeerRebuilder) :
    PeerHandler (List (PeerRebuilder × PackageMap PeerPkgInfo)) :=
  peers.foldlM (fun maps peer => do
    let result ← (peerSql (.fetchAllPeerPackages (resolveUrl peer.url architecture) distribution
      architecture (releaseFilter peer.releaseAlias))).attempt
    match result with
    | .ok map => return maps ++ [(peer, map)]
    | .error _ => return maps) []

/-- Compare one package of a peer. -/
def compareEntry (localPackages : PackageMap LocalPkgInfo) (peer : PeerRebuilder)
    (upserts : List UpsertPeerSha256Check) (e : Sigma fun _ : PackageKey => PeerPkgInfo) :
    PeerHandler (List UpsertPeerSha256Check) :=
  match localPackages.lookup e.1 with
  | none => return upserts
  | some localInfo => do
    if statusDisagrees e.2.status localInfo.status then
      let now ← peerSql .now
      return upserts ++ [{
        peerRebuilderId := peer.id
        binaryName := e.1.1
        binaryVersion := e.1.2
        peerBuildId := e.2.peerBuildId
        checkedAt := now
        peerStatus := some (statusText e.2.status) }]
    else
      return upserts

/-- The rest of `run_peer_check`, once the peers are read. -/
def comparePeers (env : PeerEnv) (distribution architecture : String) (peers : List PeerRebuilder) :
    PeerHandler Unit := do
  if peers.isEmpty then
    return
  let maps ← fetchPeers distribution architecture (env.fetched.order peers)
  if maps.isEmpty then
    return
  let localPackages ← peerSql (.fetchLocalPackages distribution architecture)
  let upserts ← maps.foldlM (fun upserts m =>
    (env.entries.order m.2.entries).foldlM (compareEntry localPackages m.1) upserts) []
  peerSql (.replaceChecks (maps.map (·.1.id)) upserts)

def runPeerCheck (env : PeerEnv) (distribution architecture : String) : PeerHandler Unit := do
  let peers ← peerSql (.peersOf distribution architecture)
  comparePeers env distribution architecture peers

/-- The request, and the background check it leaves behind. -/
def checkPeers (env : PeerEnv) (c : Headers × CheckPeersRequest) : PeerHandler PeerResponse := do
  match ← register env.config c.1 c.2 with
  | .forbidden => return .forbidden
  | .accepted =>
    let _ ← (runPeerCheck env c.2.distribution c.2.architecture).attempt
    return .accepted

end PeerHandler

end Rebuilderd.Daemon
