import Rebuilderd.Daemon.BinaryFilters
import Rebuilderd.Daemon.PeerCache

/-!
What the peers have of one package: asked for now, or as the last check has left it.

A peer may be a daemon like this one. It then answers the questions of a check and those about one
package by the same listing of its binary packages.
-/

namespace Rebuilderd.Daemon

open Rebuilderd.Lib Rebuilderd.Common

/-! ### Asking a peer -/

/-- A record of a peer, with the fields only the question about one package reads. -/
structure PeerPackage extends PeerBinaryPackage where
  artifactId : Option ℤ
  diffoscopeLogId : Option ℤ

structure V1PackageQuery where
  name : String
  version : String
  architecture : String
  seenOnly : Bool
  limit : ℤ

structure V0Package extends V0PkgRelease where
  hasDiffoscope : Bool

structure V0PackageQuery where
  name : String
  architecture : String

/-- What the checks run with, what the peers answer about one package, and the order in which they
do so. -/
structure PackageEnv extends PeerEnv where
  getV1Package : Text → V1PackageQuery → Except Err (List PeerPackage)
  getV0Package : Text → V0PackageQuery → Except Err (List V0Package)
  answered : Shuffle PeerRebuilder

structure PeerStatusEntry where
  url : Text
  status : Option BuildStatus
  buildId : Option ℤ
  logUrl : Option Text
  diffoscopeUrl : Option Text
  deriving DecidableEq

/-- The peer does not have the package, or has not answered. -/
def PeerStatusEntry.missing (url : Text) : PeerStatusEntry := ⟨url, none, none, none, none⟩

/-- `"{base}/builds/{build_id}{path}"`, without the slashes at the end of the peer's URL. -/
def buildUrl (peerUrl : Text) (buildId : ℤ) (path : Text) : Text :=
  trimSlashes peerUrl ++ "/builds/".toList ++ (toString buildId).toList ++ path

def artifactPath (artifactId : ℤ) : Text :=
  "/artifacts/".toList ++ (toString artifactId).toList ++ "/diffoscope".toList

def v0Urls (peerUrl : Text) (buildId : ℤ) (hasDiffoscope isBad : Bool) : Option Text × Option Text :=
  (some (buildUrl peerUrl buildId "/log".toList),
    if isBad && hasDiffoscope then some (buildUrl peerUrl buildId "/diffoscope".toList) else none)

def v1Urls (peerUrl : Text) (buildId : ℤ) (artifactId diffoscopeLogId : Option ℤ) (isBad : Bool) :
    Option Text × Option Text :=
  (some (buildUrl peerUrl buildId "/log".toList),
    if isBad then
      artifactId.bind fun aid => diffoscopeLogId.map fun _ =>
        buildUrl peerUrl buildId (artifactPath aid)
    else none)

def V0Package.statusEntry (peerUrl : Text) (pkg : V0Package) : PeerStatusEntry :=
  let peerStatus := v0ToBuildStatus pkg.status
  let urls := match pkg.buildId with
    | some bid => v0Urls peerUrl bid pkg.hasDiffoscope (peerStatus == BuildStatus.bad)
    | none => (none, none)
  ⟨peerUrl, some peerStatus, pkg.buildId, urls.1, urls.2⟩

def PeerPackage.statusEntry (peerUrl : Text) (pkg : PeerPackage) : PeerStatusEntry :=
  let effective := pkg.status.or pkg.rebuildStatus
  let urls := match pkg.buildId with
    | some bid =>
      v1Urls peerUrl bid pkg.artifactId pkg.diffoscopeLogId (effective == some BuildStatus.bad)
    | none => (none, none)
  ⟨peerUrl, effective, pkg.buildId, urls.1, urls.2⟩

namespace PackageEnv

variable (env : PackageEnv)

/-- Of the packages with the name, the first one with the version. -/
def fetchV0PeerPackage (peerUrl : Text) (name version architecture : String) :
    Except Err PeerStatusEntry := do
  let packages ← env.getV0Package (trimSlashes peerUrl ++ "/pkgs/list".toList) { name, architecture }
  match packages.find? (·.version == version) with
  | some pkg => return pkg.statusEntry peerUrl
  | none => return .missing peerUrl

def fetchV1PeerPackage (peerUrl : Text) (name version architecture : String) :
    Except Err PeerStatusEntry := do
  let records ← env.getV1Package (trimSlashes peerUrl ++ "/packages/binary".toList)
    { name, version, architecture, seenOnly := true, limit := 1 }
  match records.head? with
  | some pkg => return pkg.statusEntry peerUrl
  | none => return .missing peerUrl

def fetchPeerPackage (peerUrl : Text) (name version architecture : String) :
    Except Err PeerStatusEntry :=
  if isV0Url peerUrl then env.fetchV0PeerPackage peerUrl name version architecture
  else env.fetchV1PeerPackage peerUrl name version architecture

end PackageEnv

/-! ### `get_peer_package` -/

structure PeerPackageQuery where
  distribution : String
  architecture : String
  name : String
  version : String
  live : Bool := true
  peer : Option String

/-- The peers of the query, filtered by a part of their URL. -/
def PeerPackageQuery.peers (q : PeerPackageQuery) (y : PeerDb) : List PeerRebuilder :=
  (peersOf q.distribution q.architecture y).filter fun p =>
    q.peer.all fun part => decide (part.toList <:+: p.url.toList)

/-- The text of a status in the database, read back. -/
def strToBuildStatus (s : String) : Option BuildStatus :=
  [.good, .bad, .fail, .unknown].find? (statusText · == s)

/-- What a row of the cache says of a package. -/
def PeerSha256Check.statusEntry (url : Text) (c : PeerSha256Check) : PeerStatusEntry :=
  let status := c.peerStatus.bind strToBuildStatus
  { url := url
    status := status
    buildId := c.peerBuildId
    logUrl := c.peerBuildId.map (buildUrl url · "/log".toList)
    diffoscopeUrl := if status == some BuildStatus.bad then
        c.peerBuildId.map (buildUrl url · "/diffoscope".toList)
      else none }

/-- The entry of one peer in `cached_peer_entries`. -/
def cachedPeerEntry (name version : String) (y : PeerDb) (peer : PeerRebuilder) : PeerStatusEntry :=
  let url := resolveUrl peer.url peer.architecture
  match y.peerSha256Checks.rows.find? fun c =>
    c.peerRebuilderId == peer.id && c.binaryName == name && c.binaryVersion == version with
  | some c => c.statusEntry url
  | none => .missing url

/-- A peer that cannot be asked is shown as one that does not have the package. -/
def PackageEnv.liveEntry (env : PackageEnv) (q : PeerPackageQuery) (peer : PeerRebuilder) :
    PeerStatusEntry :=
  let url := resolveUrl peer.url q.architecture
  match env.fetchPeerPackage url q.name q.version q.architecture with
  | .ok entry => entry
  | .error _ => .missing url

/-- The answer for one of the peers. -/
def PackageEnv.peerEntry (env : PackageEnv) (q : PeerPackageQuery) (y : PeerDb)
    (peer : PeerRebuilder) : PeerStatusEntry :=
  if q.live then env.liveEntry q peer else cachedPeerEntry q.name q.version y peer

def PackageEnv.getPeerPackage (env : PackageEnv) (q : PeerPackageQuery) (y : PeerDb) :
    List PeerStatusEntry :=
  if q.live then (env.answered.order (q.peers y)).map (env.peerEntry q y)
  else (q.peers y).map (env.peerEntry q y)

/-- The answer has an entry for each peer, and no other ones. -/
lemma PackageEnv.getPeerPackage_perm (env : PackageEnv) (q : PeerPackageQuery) (y : PeerDb) :
    (env.getPeerPackage q y).Perm ((q.peers y).map (env.peerEntry q y)) := by
  unfold getPeerPackage
  split
  · exact (env.answered.perm _).map _
  · exact .refl _

/-! ### A peer that is a daemon -/

/-- A record of the listing, as far as it is read. -/
def PeerPackage.ofRecord (r : BinaryPackageRecord) : PeerPackage where
  id := r.id
  name := r.name
  version := r.version
  status := r.status
  buildId := r.buildId.map Nat.cast
  rebuildStatus := r.rebuildStatus
  artifactId := r.artifactId.map Nat.cast
  diffoscopeLogId := r.diffoscopeLogId.map Nat.cast

/-- The parameters of the listing: those that are not sent are none. -/
def V1PageQuery.filters (q : V1PageQuery) : BinaryFilters :=
  ⟨⟨some q.distribution, q.release, none, some q.architecture⟩, ⟨none, .exact, none, none⟩,
    ⟨some q.seenOnly⟩, ⟨none⟩, ⟨none, []⟩⟩

def V1PackageQuery.filters (q : V1PackageQuery) : BinaryFilters :=
  ⟨⟨none, none, none, some q.architecture⟩, ⟨some q.name, .exact, some q.version, none⟩,
    ⟨some q.seenOnly⟩, ⟨none⟩, ⟨none, []⟩⟩

/-- The answer of a daemon to another one. -/
def servePackages (shuffle : Shuffle BinaryPackageRecord) (f : BinaryFilters) (limit : ℤ)
    (after : Option ℤ) (peer : PeerDb) : Except Err (List PeerPackage) :=
  match getBinaryPackages shuffle
    { limit := some limit, before := none, after := after, sort := none, direction := none }
    f peer with
  | .ok page => .ok (page.records.map PeerPackage.ofRecord)
  | .error _ => .error .io

/-- At `url` there is a daemon in the state `peer`. -/
structure Serves (env : PackageEnv) (url : Text) (peer : PeerDb) : Prop where
  page : ∀ q, ∃ shuffle, env.getV1 (trimSlashes url ++ "/packages/binary".toList) q =
    (servePackages shuffle q.filters q.limit q.after peer).map (·.map PeerPackage.toPeerBinaryPackage)
  package : ∀ q, ∃ shuffle, env.getV1Package (trimSlashes url ++ "/packages/binary".toList) q =
    servePackages shuffle q.filters q.limit none peer

/-- What a daemon lists unless it is asked for packages it has not seen. -/
def listedRecords (peer : PeerDb) : List BinaryPackageRecord := binaryRecords (seenIs true) peer

/-- Each name and version is listed once for an architecture. -/
def OncePerArchitecture (peer : PeerDb) : Prop :=
  ((listedRecords peer).map fun r => (r.name, r.version, r.architecture)).Nodup

instance (peer : PeerDb) : Decidable (OncePerArchitecture peer) :=
  inferInstanceAs (Decidable (List.Nodup _))

section
variable {peer : PeerDb}

lemma servePackages_eq (shuffle : Shuffle BinaryPackageRecord) (f : BinaryFilters) {limit : ℤ}
    (h : 1 ≤ limit) (after : Option ℤ) (peer : PeerDb) :
    ∃ shown : List BinaryPackageRecord,
      servePackages shuffle f limit after peer =
        .ok ((shown.take limit.toNat).map PeerPackage.ofRecord) ∧
      shown.Perm ((binaryRecords f peer).filter fun r =>
        after.all fun c => decide (c < binaryId r)) := by
  obtain ⟨shown, hpage, hperm, -⟩ := binaryPage_eq (fun _ => shuffle) f h peer 0 after
  refine ⟨shown, ?_, hperm⟩
  unfold binaryPage at hpage
  unfold servePackages
  rcases hget : getBinaryPackages shuffle
    { limit := some limit, before := none, after := after, sort := none, direction := none } f peer
    with e | page <;> rw [hget] at hpage
  · cases hpage
  · have hrecords : page.records = shown.take limit.toNat := Option.some.inj hpage
    rw [← hrecords]

lemma coalesce_key (r : BinaryPackageRecord) : r.coalesce.name = r.name ∧
    r.coalesce.version = r.version ∧ r.coalesce.architecture = r.architecture := by
  unfold BinaryPackageRecord.coalesce
  split <;> exact ⟨rfl, rfl, rfl⟩

lemma mem_binaryRecords {f : BinaryFilters} {r : BinaryPackageRecord} :
    r ∈ binaryRecords f peer ↔ ∃ row ∈ binaryRows peer.packages,
      f.accepts peer row = true ∧ (binaryRecord row).coalesce = r := by
  simp [binaryRecords, binaryQuery, and_assoc]

/-- What the filters of a check let through is listed. -/
lemma mem_pageRecords {q : V1PageQuery} (hseen : q.seenOnly = true) {r : BinaryPackageRecord}
    (hr : r ∈ binaryRecords q.filters peer) :
    r ∈ listedRecords peer ∧ r.architecture = q.architecture := by
  obtain ⟨row, hrow, hacc, rfl⟩ := mem_binaryRecords.mp hr
  have hmatch : row.package.architecture = q.architecture ∧ row.package.seenInLastSync = true := by
    simp only [BinaryFilters.accepts, BinaryFilters.matches, V1PageQuery.filters,
      OriginFilter.accepts, Bool.and_eq_true, beq_iff_eq, hseen, Option.getD_some] at hacc
    exact ⟨hacc.1.1.1.1.2, hacc.1.1.2⟩
  refine ⟨mem_binaryRecords.mpr ⟨row, hrow, ?_, rfl⟩, (coalesce_key _).2.2.trans hmatch.1⟩
  simp [BinaryFilters.accepts, BinaryFilters.matches, seenIs, OriginFilter.accepts,
    BinaryIdentityFilter.accepts, DisagreementFilter.accepts, StatusFilter.selects, hmatch.2]

/-- The question about one package is answered from the records with its name and version. -/
lemma mem_packageRecords {q : V1PackageQuery} (hseen : q.seenOnly = true) {r : BinaryPackageRecord} :
    r ∈ binaryRecords q.filters peer ↔ r ∈ listedRecords peer ∧
      (r.name, r.version, r.architecture) = (q.name, q.version, q.architecture) := by
  have hacc (row : BinaryRow) : q.filters.accepts peer row = true ↔
      (seenIs true).accepts peer row = true ∧ row.package.name = q.name ∧
        row.package.version = q.version ∧ row.package.architecture = q.architecture := by
    simp [BinaryFilters.accepts, BinaryFilters.matches, seenIs, V1PackageQuery.filters, hseen,
      OriginFilter.accepts, BinaryIdentityFilter.accepts, DisagreementFilter.accepts,
      StatusFilter.selects]
    tauto
  constructor
  · intro hr
    obtain ⟨row, hrow, hrowacc, rfl⟩ := mem_binaryRecords.mp hr
    obtain ⟨hseen, hname, hversion, harchitecture⟩ := (hacc row).mp hrowacc
    obtain ⟨hn, hv, ha⟩ := coalesce_key (binaryRecord row)
    refine ⟨mem_binaryRecords.mpr ⟨row, hrow, hseen, rfl⟩, ?_⟩
    rw [hn, hv, ha, ← hname, ← hversion, ← harchitecture]
    rfl
  · rintro ⟨hr, hkey⟩
    obtain ⟨row, hrow, hrowacc, rfl⟩ := mem_binaryRecords.mp hr
    obtain ⟨hn, hv, ha⟩ := coalesce_key (binaryRecord row)
    simp only [hn, hv, ha, Prod.mk.injEq] at hkey
    exact mem_binaryRecords.mpr ⟨row, hrow, (hacc row).mpr ⟨hrowacc, hkey⟩, rfl⟩

/-- A row without a rebuild has no artifact. -/
lemma artifact_eq_none {row : BinaryRow} (hrow : row ∈ binaryRows peer.packages)
    (h : row.rebuild = none) : row.artifact = none := by
  simp only [binaryRows, List.bind_eq_flatMap, List.mem_flatMap] at hrow
  obtain ⟨p, -, s, -, b, -, r1, -, a, ha, r2, -, hrow⟩ := hrow
  split at hrow
  · obtain rfl := List.mem_singleton.mp hrow
    obtain rfl : r1 = none := h
    obtain ⟨a', -, hon, -⟩ | ⟨-, hnone⟩ := mem_leftJoin.mp ha
    · simp at hon
    · exact hnone
  · cases hrow

/-- A record with a status is of a rebuild. -/
lemma buildId_of_status {r : BinaryPackageRecord} (hr : r ∈ listedRecords peer) {s : BuildStatus}
    (hs : r.status.or r.rebuildStatus = some s) : ∃ id, r.buildId = some id := by
  obtain ⟨row, hrow, -, rfl⟩ := mem_binaryRecords.mp hr
  rw [(coalesce_ids _).1]
  rcases hrebuild : row.rebuild with _ | rebuild
  · have hartifact := artifact_eq_none hrow hrebuild
    simp [BinaryPackageRecord.coalesce, binaryRecord, hrebuild, hartifact] at hs
  · exact ⟨rebuild.id, by simp [binaryRecord, hrebuild]⟩

end

end Rebuilderd.Daemon
