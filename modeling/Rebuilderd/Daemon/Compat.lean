import Rebuilderd.Daemon.SharedHistory
import Rebuilderd.Daemon.Shown
import Rebuilderd.Daemon.StoredLogs

/-!
The read-only v0 API: the package listing, and the logs of the builds it lists.

The listing numbers builds by their rebuild. The attestation and the diffoscope log are looked up by
that number, but the build log by the number of an artifact.
-/

namespace Rebuilderd.Daemon

open Rebuilderd.Lib Rebuilderd.Common

/-! ### The listing -/

/-- The filters of the listing; the statuses of v0 are those of artifacts. -/
structure ListPkgs where
  name : Option String
  status : Option ArtifactStatus
  distro : Option String
  suite : Option String
  architecture : Option String

structure PkgRelease where
  name : String
  version : String
  status : ArtifactStatus
  distro : String
  suite : String
  architecture : String
  artifactUrl : String
  buildId : Option ℕ
  builtAt : Option Time
  hasDiffoscope : Bool
  hasAttestation : Bool
  deriving DecidableEq

/-- The suite is the component; there is no filter for the release. -/
def ListPkgs.accepts (f : ListPkgs) (p : BinaryPackage) (s : SourcePackage) (b : BuildInput)
    (r1 : Option Rebuild) : Bool :=
  f.name.all (p.name == ·) && f.distro.all (s.distribution == ·) &&
    f.suite.all (s.component == some ·) && f.architecture.all (b.architecture == ·) &&
    match f.status with
    | none => true
    | some .unknown => r1.bind (·.status) == some .unknown || (r1.bind (·.status)).isNone
    | some status => r1.bind (·.status) == some status.toBuild

def filterBinaryPackagesBy (f : ListPkgs) (db : Db) :
    List (BinaryPackage × SourcePackage × Option Rebuild × Option RebuildArtifact) := do
  let p ← db.binaryPackages.rows
  let s ← db.sourcePackages.rows.filter fun s => s.id == p.sourcePackageId
  let b ← db.buildInputs.rows.filter fun b => b.id == p.buildInputId
  let r1 ← leftJoin db.rebuilds.rows fun r => r.buildInputId == b.id
  let a ← leftJoin db.rebuildArtifacts.rows fun a =>
    r1.any (·.id == a.rebuildId) && a.name == p.name
  let r2 ← leftJoin db.rebuilds.rows fun r => r.buildInputId == b.id && r1.any r.supersedes
  if r2.isNone && f.accepts p s b r1 then return (p, s, r1, a) else []

def pkgRelease : BinaryPackage × SourcePackage × Option Rebuild × Option RebuildArtifact → PkgRelease
  | (p, s, r1, a) => {
      name := p.name
      version := p.version
      status := (a.bind (·.status)).getD .unknown
      distro := s.distribution
      suite := s.component.getD ""
      architecture := p.architecture
      artifactUrl := p.artifactUrl
      buildId := r1.map (·.id)
      builtAt := r1.bind (·.builtAt)
      hasDiffoscope := (a.bind (·.diffoscopeLogId)).isSome
      hasAttestation := (a.bind (·.attestationLogId)).isSome }

/-- `max(rebuilds::built_at)`: the greatest of the stored texts. -/
def latestBuiltAt (db : Db) : Option Time := (db.rebuilds.rows.filterMap (·.builtAt)).argmax stored

/-- Nothing was built since then; a difference of less than a second counts as none. -/
def notModified (since : Option Time) (db : Db) : Bool :=
  match latestBuiltAt db, since with
  | some latest, some since => decide (0 ≤ (since - latest).tdiv second)
  | _, _ => false

/-- The listing, unless the client has it already. -/
def listPkgs (f : ListPkgs) (since : Option Time) (db : Db) : Option (List PkgRelease) :=
  if notModified since db then none else some ((filterBinaryPackagesBy f db).map pkgRelease)

/-! ### The logs of a build -/

def getBuildLog (T : Ties) (id : ℕ) (db : Db) : Option Bytes :=
  let rows := (db.rebuildArtifacts.rows.filter (·.id == id)).flatMap fun a =>
    (db.rebuilds.rows.filter (·.id == a.rebuildId)).flatMap fun r =>
      (db.buildLogs.rows.filter (·.id == r.buildLogId)).map fun l => (r, l)
  (T.firstBy (fun row => OrderDual.toDual (nullsFirst row.1.builtText)) rows).map (·.2.buildLog)

/-- The artifacts of a rebuild with their logs of one kind. -/
def artifactLogRows (logId : RebuildArtifact → Option ℕ) (logs : List (ℕ × Bytes)) (id : ℕ) (db : Db) :
    List (RebuildArtifact × ℕ × Bytes) :=
  (db.rebuildArtifacts.rows.filter (·.rebuildId == id)).flatMap fun a =>
    (logs.filter fun l => logId a == some l.1).map fun l => (a, l)

/-- The log of the first artifact that has one. -/
def firstArtifactLog (logId : RebuildArtifact → Option ℕ) (logs : List (ℕ × Bytes)) (T : Ties)
    (id : ℕ) (db : Db) : Option Bytes :=
  (T.firstBy (fun row => row.1.id) (artifactLogRows logId logs id db)).map (·.2.2)

def Db.attestations (db : Db) : List (ℕ × Bytes) :=
  db.attestationLogs.rows.map fun l => (l.id, l.attestationLog)

def Db.diffoscopes (db : Db) : List (ℕ × Bytes) :=
  db.diffoscopeLogs.rows.map fun l => (l.id, l.diffoscopeLog)

def getAttestation (T : Ties) (id : ℕ) (db : Db) : Option Bytes :=
  firstArtifactLog (·.attestationLogId) db.attestations T id db

def getDiffoscope (T : Ties) (id : ℕ) (db : Db) : Option Bytes :=
  firstArtifactLog (·.diffoscopeLogId) db.diffoscopes T id db

/-! ### What the endpoints say about one build -/

/-- The answer is a log of an artifact of rebuild `b`, and there is one if the listing says so. -/
def IsArtifactLog (db : Db) (b : ℕ) (logId : RebuildArtifact → Option ℕ) (logs : List (ℕ × Bytes))
    (listed : Bool) (answer : Option Bytes) : Prop :=
  (∀ log, answer = some log →
    ∃ a ∈ db.rebuildArtifacts.rows, a.rebuildId = b ∧ ∃ id, logId a = some id ∧ (id, log) ∈ logs) ∧
    (listed = true → answer.isSome = true)

/-- The listed package is one whose build input has `r` as its latest rebuild. -/
def LatestOf (db : Db) (p : PkgRelease) (r : Rebuild) : Prop :=
  ∃ bp ∈ db.binaryPackages.rows, bp.name = p.name ∧ bp.version = p.version ∧
    bp.artifactUrl = p.artifactUrl ∧ r.buildInputId = bp.buildInputId ∧
    ∀ x ∈ db.rebuilds.rows, x.buildInputId = r.buildInputId → x.supersedes r = false

/-- The logs of build `b` of the listed package are those of its latest rebuild `r`. -/
structure LogsOfRebuild (T : Ties) (db : Db) (p : PkgRelease) (b : ℕ) (r : Rebuild) : Prop where
  id : r.id = b
  latest : LatestOf db p r
  buildLog : ∃ l ∈ db.buildLogs.rows, l.id = r.buildLogId ∧ getBuildLog T b db = some l.buildLog
  diffoscope : IsArtifactLog db b (·.diffoscopeLogId) db.diffoscopes p.hasDiffoscope
    (getDiffoscope T b db)
  attestation : IsArtifactLog db b (·.attestationLogId) db.attestations p.hasAttestation
    (getAttestation T b db)

/-- The build log of a rebuild. -/
def buildLogOf (db : Db) (rebuild : ℕ) : List Bytes :=
  (db.rebuilds.rows.filter (·.id == rebuild)).flatMap fun r =>
    (db.buildLogs.rows.filter (·.id == r.buildLogId)).map (·.buildLog)

/-- There is an artifact with the number of rebuild `b`, and its rebuild has the same build log. -/
def sharesBuildLog (db : Db) (b : ℕ) : Bool :=
  db.rebuildArtifacts.rows.any fun a => a.id == b && buildLogOf db a.rebuildId == buildLogOf db b

section
variable {T : Ties} {db : Db} {p : PkgRelease} {b : ℕ}

/-- A rebuild that is joined with no later one is the latest of its build input. -/
lemma unsuperseded_of_join {r : Rebuild} {i : ℕ}
    (hr1 : some r ∈ leftJoin db.rebuilds.rows fun r => r.buildInputId == i)
    (hr2 : none ∈ leftJoin db.rebuilds.rows fun x =>
      x.buildInputId == i && (some r).any x.supersedes) :
    r ∈ db.rebuilds.rows ∧ r.buildInputId = i ∧
      ∀ x ∈ db.rebuilds.rows, x.buildInputId = i → x.supersedes r = false := by
  rcases mem_leftJoin.mp hr1 with ⟨r', hr, hin, heq⟩ | ⟨-, heq⟩
  · cases heq
    refine ⟨hr, beq_iff_eq.mp hin, fun x hx hid => ?_⟩
    rcases mem_leftJoin.mp hr2 with ⟨_, -, -, heq⟩ | ⟨hall, -⟩
    · cases heq
    · simpa [hid] using hall x hx
  · cases heq

/-- What the listing says about a package that was built. -/
lemma listed_latest {f : ListPkgs} {since : Option Time} {ps : List PkgRelease}
    (hps : listPkgs f since db = some ps) (hp : p ∈ ps) (hb : p.buildId = some b) :
    ∃ r ∈ db.rebuilds.rows, r.id = b ∧ LatestOf db p r ∧
      (p.hasDiffoscope = true →
        ∃ a ∈ db.rebuildArtifacts.rows, a.rebuildId = b ∧ a.diffoscopeLogId.isSome = true) ∧
      (p.hasAttestation = true →
        ∃ a ∈ db.rebuildArtifacts.rows, a.rebuildId = b ∧ a.attestationLogId.isSome = true) := by
  unfold listPkgs at hps
  split at hps
  · cases hps
  · obtain rfl := (Option.some.inj hps).symm
    obtain ⟨row, hrow, rfl⟩ := List.mem_map.mp hp
    simp only [filterBinaryPackagesBy, List.bind_eq_flatMap, List.mem_flatMap, List.mem_filter,
      beq_iff_eq] at hrow
    obtain ⟨bp, hbp, s, -, i, ⟨-, hi⟩, r1, hr1, a, ha, r2, hr2, hrow⟩ := hrow
    split at hrow
    · rename_i hok
      obtain rfl : r2 = none := by simpa using (Bool.and_eq_true_iff.mp hok).1
      obtain rfl := List.mem_singleton.mp hrow
      obtain ⟨r, rfl, hrid⟩ : ∃ r, r1 = some r ∧ r.id = b := Option.map_eq_some_iff.mp hb
      obtain ⟨hr, hin, hlatest⟩ := unsuperseded_of_join hr1 hr2
      -- The listing looks at the artifact that is joined, which is one of the rebuild.
      have hartifact {f : RebuildArtifact → Option ℕ} (h : (a.bind f).isSome = true) :
          ∃ a ∈ db.rebuildArtifacts.rows, a.rebuildId = b ∧ (f a).isSome = true := by
        rcases mem_leftJoin.mp ha with ⟨a', ha', hon, rfl⟩ | ⟨-, rfl⟩
        · rw [Option.any_some, Bool.and_eq_true, beq_iff_eq] at hon
          exact ⟨a', ha', hon.1.symm.trans hrid, h⟩
        · cases h
      exact ⟨r, hr, hrid, ⟨bp, hbp, rfl, rfl, rfl, hin.trans hi, fun x hx hid =>
        hlatest x hx (hid.trans hin)⟩, hartifact, hartifact⟩
    · cases hrow

/-- The build log that is returned is that of the rebuild of artifact number `b`. -/
lemma getBuildLog_eq_some {log : Bytes} : getBuildLog T b db = some log ↔
    ∃ a ∈ db.rebuildArtifacts.rows, a.id = b ∧ ∃ r ∈ db.rebuilds.rows, r.id = a.rebuildId ∧
      ∃ l ∈ db.buildLogs.rows, l.id = r.buildLogId ∧ l.buildLog = log := by
  unfold getBuildLog
  dsimp only
  have hmem (row : Rebuild × BuildLog) :
      (row ∈ (db.rebuildArtifacts.rows.filter (·.id == b)).flatMap fun a =>
        (db.rebuilds.rows.filter (·.id == a.rebuildId)).flatMap fun r =>
          (db.buildLogs.rows.filter (·.id == r.buildLogId)).map fun l => (r, l)) ↔
      ∃ a ∈ db.rebuildArtifacts.rows, a.id = b ∧ (row.1 ∈ db.rebuilds.rows ∧ row.1.id = a.rebuildId) ∧
        row.2 ∈ db.buildLogs.rows ∧ row.2.id = row.1.buildLogId := by
    simp only [List.mem_flatMap, List.mem_map, List.mem_filter, beq_iff_eq, and_assoc]
    refine exists_congr fun a => and_congr_right fun _ => and_congr_right fun _ => ?_
    constructor
    · rintro ⟨r, hr, hrid, l, hl, hlid, rfl⟩
      exact ⟨hr, hrid, hl, hlid⟩
    · rintro ⟨hr, hrid, hl, hlid⟩
      exact ⟨_, hr, hrid, _, hl, hlid, rfl⟩
  generalize ((db.rebuildArtifacts.rows.filter (·.id == b)).flatMap fun a =>
    (db.rebuilds.rows.filter (·.id == a.rebuildId)).flatMap fun r =>
      (db.buildLogs.rows.filter (·.id == r.buildLogId)).map fun l => (r, l)) = rows at hmem
  constructor
  · intro h
    obtain ⟨row, hrow, rfl⟩ := Option.map_eq_some_iff.mp h
    obtain ⟨a, ha, hid, ⟨hr, hrid⟩, hl, hlid⟩ := (hmem row).mp (Ties.firstBy_mem hrow).1
    exact ⟨a, ha, hid, row.1, hr, hrid, row.2, hl, hlid, rfl⟩
  · rintro ⟨a, ha, hid, r, hr, hrid, l, hl, hlid, rfl⟩
    have hin : (r, l) ∈ rows := (hmem (r, l)).mpr ⟨a, ha, hid, ⟨hr, hrid⟩, hl, hlid⟩
    rcases hfirst : T.firstBy (fun row : Rebuild × BuildLog =>
      OrderDual.toDual (nullsFirst row.1.builtText)) rows with _ | row
    · rw [Ties.firstBy_eq_none.mp hfirst] at hin
      cases hin
    · -- Ids are keys, so there is one row at most.
      obtain ⟨a', ha', hid', ⟨hr', hrid'⟩, hl', hlid'⟩ := (hmem row).mp (Ties.firstBy_mem hfirst).1
      obtain rfl := Table.eq_of_key ha ha' (hid.trans hid'.symm)
      have hrebuild := Table.eq_of_key hr hr' (hrid.trans hrid'.symm)
      subst hrebuild
      rw [Table.eq_of_key hl hl' (hlid.trans hlid'.symm)]
      rfl

/-- The rebuild with this id has this build log. -/
lemma buildLogOf_eq {r : Rebuild} (hr : r ∈ db.rebuilds.rows) {l : BuildLog}
    (hl : l ∈ db.buildLogs.rows) (hid : l.id = r.buildLogId) : buildLogOf db r.id = [l.buildLog] := by
  have hrows : db.rebuilds.rows.filter (·.id == r.id) = [r] := Table.filter_key hr
  have hlogs : db.buildLogs.rows.filter (·.id == l.id) = [l] := Table.filter_key hl
  unfold buildLogOf
  rw [hrows, List.flatMap_singleton, ← hid, hlogs]
  rfl

lemma isArtifactLog {logId : RebuildArtifact → Option ℕ} {logs : List (ℕ × Bytes)} {listed : Bool}
    (h : listed = true → ∃ a ∈ db.rebuildArtifacts.rows, a.rebuildId = b ∧ (logId a).isSome = true)
    (hstored : ∀ a ∈ db.rebuildArtifacts.rows, ∀ id, logId a = some id → ∃ log, (id, log) ∈ logs) :
    IsArtifactLog db b logId logs listed (firstArtifactLog logId logs T b db) := by
  have hmem (a : RebuildArtifact) (l : ℕ × Bytes) : (a, l) ∈ artifactLogRows logId logs b db ↔
      (a ∈ db.rebuildArtifacts.rows ∧ a.rebuildId = b) ∧ l ∈ logs ∧ logId a = some l.1 := by
    simp only [artifactLogRows, List.mem_flatMap, List.mem_map, List.mem_filter, beq_iff_eq,
      Prod.mk.injEq]
    constructor
    · rintro ⟨a', ha, l', hl, rfl, rfl⟩
      exact ⟨ha, hl⟩
    · rintro ⟨ha, hl⟩
      exact ⟨a, ha, l, hl, rfl, rfl⟩
  refine ⟨fun log hlog => ?_, fun hlisted => ?_⟩
  · obtain ⟨⟨a, id, bytes⟩, hrow, rfl⟩ := Option.map_eq_some_iff.mp hlog
    obtain ⟨⟨ha, hid⟩, hl, hlogId⟩ := (hmem _ _).mp (Ties.firstBy_mem hrow).1
    exact ⟨a, ha, hid, id, hlogId, hl⟩
  · obtain ⟨a, ha, hid, hsome⟩ := h hlisted
    obtain ⟨k, hk⟩ := Option.isSome_iff_exists.mp hsome
    obtain ⟨log, hlog⟩ := hstored a ha k hk
    have hin := (hmem a (k, log)).mpr ⟨⟨ha, hid⟩, hlog, hk⟩
    unfold firstArtifactLog
    rw [Option.isSome_map, Option.isSome_iff_ne_none]
    intro hnone
    rw [Ties.firstBy_eq_none.mp hnone] at hin
    cases hin

end

/-- **The logs of a listed build are those of its rebuild exactly if the artifact with the number of
the rebuild has the same build log.** -/
theorem logsOfRebuild_iff (env : Env) (db : Db) (h : Reachable env db) (f : ListPkgs)
    (since : Option Time) (ps : List PkgRelease) (p : PkgRelease) (b : ℕ)
    (hps : listPkgs f since db = some ps) (hp : p ∈ ps) (hb : p.buildId = some b) :
    (∃ r ∈ db.rebuilds.rows, LogsOfRebuild env.ties db p b r) ↔ sharesBuildLog db b = true := by
  have hlogs := reachable_logsExist h
  obtain ⟨r, hr, rfl, hlatest, hdiffoscope, hattestation⟩ := listed_latest hps hp hb
  obtain ⟨l, hl, hlid⟩ := hlogs.rebuilds r hr
  have hown := buildLogOf_eq hr hl hlid
  simp only [sharesBuildLog, List.any_eq_true, Bool.and_eq_true, beq_iff_eq, hown]
  constructor
  · rintro ⟨r', hr', hlogs'⟩
    obtain rfl := Table.eq_of_key hr hr' hlogs'.id.symm
    obtain ⟨l', hl', hlid', hget⟩ := hlogs'.buildLog
    obtain rfl := Table.eq_of_key hl hl' (hlid.trans hlid'.symm)
    obtain ⟨a, ha, haid, r₁, hr₁, hr₁id, l₁, hl₁, hl₁id, hsame⟩ := getBuildLog_eq_some.mp hget
    exact ⟨a, ha, haid, by rw [← hr₁id, buildLogOf_eq hr₁ hl₁ hl₁id, hsame]⟩
  · rintro ⟨a, ha, haid, hsame⟩
    obtain ⟨r₁, hr₁, l₁, hl₁, hl₁id, hlog⟩ : ∃ r₁ ∈ db.rebuilds.rows.filter (·.id == a.rebuildId),
        ∃ l₁ ∈ db.buildLogs.rows, l₁.id = r₁.buildLogId ∧ l₁.buildLog = l.buildLog := by
      have hmem : l.buildLog ∈ buildLogOf db a.rebuildId := by simp [hsame]
      obtain ⟨r₁, hr₁, hmem⟩ := List.mem_flatMap.mp hmem
      obtain ⟨l₁, hl₁, hlog⟩ := List.mem_map.mp hmem
      obtain ⟨hl₁, hl₁id⟩ := List.mem_filter.mp hl₁
      exact ⟨r₁, hr₁, l₁, hl₁, by simpa using hl₁id, hlog⟩
    obtain ⟨hr₁, hr₁id⟩ := List.mem_filter.mp hr₁
    refine ⟨r, hr, rfl, hlatest, ⟨l, hl, hlid, getBuildLog_eq_some.mpr
      ⟨a, ha, haid, r₁, hr₁, by simpa using hr₁id, l₁, hl₁, hl₁id, hlog⟩⟩, ?_, ?_⟩
    · refine isArtifactLog hdiffoscope fun x hx k hk => ?_
      obtain ⟨l, hl, hlid⟩ := (hlogs.artifacts x hx).1 k hk
      exact ⟨_, List.mem_map.mpr ⟨l, hl, by rw [hlid]⟩⟩
    · refine isArtifactLog hattestation fun x hx k hk => ?_
      obtain ⟨l, hl, hlid⟩ := (hlogs.artifacts x hx).2 k hk
      exact ⟨_, List.mem_map.mpr ⟨l, hl, by rw [hlid]⟩⟩

/-! ### Two packages, one with two artifacts -/

def noFilter : ListPkgs := ⟨none, none, none, none, none⟩

/-- A package with these artifacts. -/
def packageWith (name : String) (artifacts : List String) : SourcePackageReport :=
  { package name ("https://" ++ name) with
    artifacts := artifacts.map fun a => ⟨a, "1.0", "amd64", "https://pool/" ++ a⟩ }

/-- `alice` rebuilds the artifacts of a job, with this log. -/
def rebuiltBy (queueId : ℕ) (log : Bytes) (artifacts : List String) : List Call :=
  [.requestWork (workerHeaders "alice") ⟨["debian"], "amd64", ["amd64"]⟩,
    .submitRebuildReport (workerHeaders "alice")
      ⟨queueId, 0, log, .good, artifacts.map fun a => ⟨a, none, none, .good⟩⟩]

def oneArtifact : List Request :=
  atOnce (.submitPackageReport adminHeaders (debianReport [packageWith "hello" ["hello"]]) ::
    rebuiltBy 1 [1] ["hello"])

theorem logsOfRebuild_oneArtifact :
    (∃ r ∈ (oneArtifact.foldl (served (openDaemon none)) (openDaemon none).start).rebuilds.rows,
      LogsOfRebuild .inOrder (oneArtifact.foldl (served (openDaemon none)) (openDaemon none).start)
        ⟨"hello", "1.0", .good, "debian", "", "amd64", "https://pool/hello", some 1, some 0, false,
          false⟩ 1 r) ↔
      sharesBuildLog (oneArtifact.foldl (served (openDaemon none)) (openDaemon none).start) 1 = true :=
  logsOfRebuild_iff (openDaemon none) _
    (reachable_of_runs (Runs.of_forall fun _ _ => trivial)) noFilter none _ _ 1 rfl
    (by decide +kernel) rfl

/-- `hello` has two artifacts and is rebuilt before `world`. -/
def twoPackages : List Request :=
  atOnce (.submitPackageReport adminHeaders (debianReport
      [packageWith "hello" ["hello", "hello-doc"], packageWith "world" ["world"]]) ::
    (rebuiltBy 1 [1] ["hello", "hello-doc"] ++ rebuiltBy 2 [2] ["world"]))

/-- **The build log of the second build is that of the first**, which has two artifacts. -/
theorem secondBuild_otherLog : ¬ ∀ env db, Reachable env db → ∀ f since ps,
    listPkgs f since db = some ps → ∀ p ∈ ps, ∀ b, p.buildId = some b →
      ∃ r ∈ db.rebuilds.rows, LogsOfRebuild env.ties db p b r := by
  intro h
  have hreach : Reachable (openDaemon none) (twoPackages.foldl (served (openDaemon none)) (openDaemon none).start) :=
    reachable_of_runs (Runs.of_forall fun _ _ => trivial)
  obtain ⟨r, hr, hlogs⟩ := h (openDaemon none) _ hreach noFilter none _ rfl
    ⟨"world", "1.0", .good, "debian", "", "amd64", "https://pool/world", some 2, some 0, false, false⟩
    (by decide +kernel) 2 rfl
  obtain ⟨l, hl, hlid, hget⟩ := hlogs.buildLog
  have hother : ∀ r ∈ (twoPackages.foldl (served (openDaemon none)) (openDaemon none).start).rebuilds.rows, r.id = 2 →
      ∀ l ∈ (twoPackages.foldl (served (openDaemon none)) (openDaemon none).start).buildLogs.rows,
        l.id = r.buildLogId →
          getBuildLog .inOrder 2 (twoPackages.foldl (served (openDaemon none)) (openDaemon none).start) ≠
            some l.buildLog := by
    decide +kernel
  exact hother r hr hlogs.id l hl hlid hget

end Rebuilderd.Daemon
