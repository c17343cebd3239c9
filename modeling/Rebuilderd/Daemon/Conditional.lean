import Rebuilderd.Daemon.CompatStatus
import Rebuilderd.Daemon.JobArtifacts
import Rebuilderd.Daemon.NewRebuilds
import Rebuilderd.Daemon.Written

/-!
Conditional requests for the v0 listing.

The listing is sent with the time of the newest rebuild, in whole seconds, and is taken to be the same
as long as no rebuild is newer. The newest is the one whose time has the greatest text. But packages, artifacts and resets change it as well, and so does a
rebuild of the same second, or one that is older than those of other packages.
-/

namespace Rebuilderd.Daemon

open Rebuilderd.Lib Rebuilderd.Common

/-! ### The validator -/

/-- `latest_built_at`, in seconds. -/
def latestSecond (db : Db) : Option ℤ := (latestBuiltAt db).map (· / second)

/-- HTTP dates are whole seconds of the years 1970 to 9999. -/
def httpDate (s : ℤ) : Option Time :=
  if 0 ≤ s ∧ s < 253402300800 then some (s * second) else none

/-- The `Last-Modified` header of a full response. -/
def lastModified (db : Db) : Option Time := (latestSecond db).bind httpDate

/-- A client that has the listing of `db` and is told by `db'` that it has not changed has that of
`db'`. -/
def Revalidates (f : ListPkgs) (db db' : Db) : Prop :=
  ∀ since ps L, listPkgs f since db = some ps → lastModified db = some L →
    listPkgs f (some L) db' = none → listPkgs f none db' = some ps

/-- Conditional requests are sound for any two moments of the run. -/
def ConditionalSound (env : Env) (as : Schedule) : Prop :=
  ∀ f m n, m ≤ n → Revalidates f (runPool env (as.take m)).state (runPool env (as.take n)).state

/-! ### Statements that change the listing with the validator only -/

/-- The rebuild `id` is one the listing shows for the build input `i`. -/
def isListed (db : Db) (i id : ℕ) : Bool :=
  (unsupersededRebuilds db i).any fun r1 => r1.any (·.id == id)

/-- The new rebuild comes after all others, and is of a later second than the newest of them. -/
def isNewest (new : NewRebuild) (db : Db) : Bool :=
  sqlLt ((latestBuiltAt db).map stored) new.builtText &&
    sqlLt (latestSecond db) (new.builtAt.map (· / second))

/-- The new rebuild is not listed: its build input has no binary package or a later rebuild. -/
def rebuildUnlisted (new : NewRebuild) (db : Db) : Bool :=
  (db.binaryPackages.rows.all fun p => p.buildInputId != new.buildInputId) ||
    db.rebuilds.rows.any fun r => r.buildInputId == new.buildInputId && sqlLt new.builtText r.builtText

/-- The new artifact is not listed: its rebuild is not, or it looks like one that is missing. -/
def artifactUnlisted (new : NewRebuildArtifact) (db : Db) : Bool :=
  db.binaryPackages.rows.all fun p =>
    p.name != new.name || !isListed db p.buildInputId new.rebuildId ||
      (new.status.getD .unknown == .unknown && new.diffoscopeLogId.isNone &&
        new.attestationLogId.isNone &&
        db.rebuildArtifacts.rows.all fun a => a.rebuildId != new.rebuildId || a.name != new.name)

/-- If the rebuild is listed, its status is unknown already. -/
def rebuildUnknown (id : ℕ) (db : Db) : Bool :=
  db.binaryPackages.rows.all fun p => !isListed db p.buildInputId id ||
    db.rebuilds.rows.all fun r => r.id != id || r.status.getD .unknown == .unknown

/-- If the rebuild is listed, the statuses of the artifacts that are listed with it are unknown
already. -/
def artifactsUnknown (id : ℕ) (db : Db) : Bool :=
  db.binaryPackages.rows.all fun p => !isListed db p.buildInputId id ||
    db.rebuildArtifacts.rows.all fun a =>
      a.rebuildId != id || a.name != p.name || a.status.getD .unknown == .unknown

/-- The artifacts of the report are binary packages already, the last url it has for each is the one
that is listed, and it moves no source package with binary packages to its origin. -/
def relists (r : PackageReport) (db : Db) : Bool :=
  (r.packages.all fun p => p.artifacts.isEmpty || (idsOf r db p).any fun x =>
    p.artifacts.all fun a => db.binaryPackages.rows.any fun b =>
      (reportedBinary r x a).conflicts b) &&
  (db.binaryPackages.rows.all fun b =>
    (binaryUpserts.last (binaryWrites r r.packages db) b.columns).all (·.artifactUrl == b.artifactUrl)) &&
  db.sourcePackages.rows.all fun s =>
    s.inOriginOf r || !(r.packages.map (reportedKey r)).contains s.uniqueKey ||
      db.binaryPackages.rows.all fun b => b.sourcePackageId != s.id

/-- If a listing can have been sent with the present date, the statement gives it a new one or leaves
what is listed as it is. -/
def announced (e : Event) : Bool :=
  (lastModified e.before).isNone ||
    match e.stmt with
    | .insertRebuild new => isNewest new e.before || rebuildUnlisted new e.before
    | .insertRebuildArtifact new => artifactUnlisted new e.before
    | .resetRebuild id => rebuildUnknown id e.before
    | .resetArtifacts id => artifactsUnknown id e.before
    | .commitPackageReport _ r => e.answer.toOption.isNone || relists r e.before
    | _ => true

/-! ### What is listed -/

/-- What the listing shows of a row, and what else it selects it by. -/
structure ListedRow where
  release : PkgRelease
  component : Option String
  inputArchitecture : String
  buildStatus : BuildStatus

def listedRow : JoinedRow → ListedRow
  | (p, s, b, r1, a) => ⟨releaseOf (p, s, b, r1, a), s.component, b.architecture,
      (r1.bind (·.status)).getD .unknown⟩

noncomputable def compatRows (db : Db) : List ListedRow := (latestRows db).map listedRow

def ListPkgs.selects (f : ListPkgs) (row : ListedRow) : Bool :=
  f.name.all (row.release.name == ·) && f.distro.all (row.release.distro == ·) &&
    f.suite.all (row.component == some ·) && f.architecture.all (row.inputArchitecture == ·) &&
      f.status.all (row.buildStatus == ·.toBuild)

section
variable {f : ListPkgs} {db db' : Db}

lemma selects_listedRow (row : JoinedRow) :
    f.selects (listedRow row) = f.accepts row.1 row.2.1 row.2.2.1 row.2.2.2.1 := by
  obtain ⟨p, s, b, r1, a⟩ := row
  unfold ListPkgs.accepts ListPkgs.selects
  dsimp only [listedRow, releaseOf, pkgRelease]
  congr 1
  rcases f.status with _ | status
  · rfl
  · rcases r1.bind (·.status) with _ | x
    · cases status <;> rfl
    · cases status <;> cases x <;> rfl

/-- The listing is made of the listed rows. -/
lemma listPkgs_listed (h : TimesKnown db) (f : ListPkgs) :
    listPkgs f none db = some (((compatRows db).filter f.selects).map (·.release)) := by
  rw [listPkgs_latest h, compatRows, List.filter_map, List.map_map]
  refine congrArg some ?_
  have hselects : (f.selects ∘ listedRow) =
      fun row => f.accepts row.1 row.2.1 row.2.2.1 row.2.2.2.1 := funext selects_listedRow
  rw [hselects]
  rfl

/-! ### Databases that list the same -/

/-- The row without its flag, which is not listed. -/
def BinaryPackage.unflagged (p : BinaryPackage) : BinaryPackage := { p with seenInLastSync := false }

/-- What is listed of a source package. -/
def sourceColumns (db : Db) (i : ℕ) : List (String × Option String) :=
  (db.sourcePackages.rows.filter (·.id == i)).map fun s => (s.distribution, s.component)

/-- What is listed of a build input. -/
def architecturesOf (db : Db) (i : ℕ) : List String :=
  (db.inputs.filter (·.1 == i)).map (·.2.2.architecture)

/-- What is listed of a rebuild and one of its artifacts. -/
structure BuildColumns where
  buildId : Option ℕ
  builtAt : Option Time
  buildStatus : BuildStatus
  status : ArtifactStatus
  hasDiffoscope : Bool
  hasAttestation : Bool

def recordColumns (r1 : Option Rebuild) (a : Option ArtifactRecord) : BuildColumns where
  buildId := r1.map (·.id)
  builtAt := r1.bind (·.builtAt)
  buildStatus := (r1.bind (·.status)).getD .unknown
  status := (a.bind (·.status)).getD .unknown
  hasDiffoscope := (a.bind (·.diffoscopeLogId)).isSome
  hasAttestation := (a.bind (·.attestationLogId)).isSome

def buildColumns (r1 : Option Rebuild) (a : Option RebuildArtifact) : BuildColumns :=
  recordColumns r1 (a.map RebuildArtifact.content)

/-- What is listed of the builds of a binary package. -/
noncomputable def buildsOf (db : Db) (p : BinaryPackage) : List BuildColumns :=
  (joinedArtifacts db p (latestRebuild db p.buildInputId)).map
    (buildColumns (latestRebuild db p.buildInputId))

def listedOf (p : BinaryPackage) (s : String × Option String) (architecture : String)
    (c : BuildColumns) : ListedRow where
  release := {
    name := p.name
    version := p.version
    status := c.status
    distro := s.1
    suite := s.2.getD ""
    architecture := p.architecture
    artifactUrl := p.artifactUrl
    buildId := c.buildId
    builtAt := c.builtAt
    hasDiffoscope := c.hasDiffoscope
    hasAttestation := c.hasAttestation }
  component := s.2
  inputArchitecture := architecture
  buildStatus := c.buildStatus

lemma architecturesOf_eq (db : Db) (i : ℕ) : architecturesOf db i =
    (db.buildInputs.rows.filter (·.id == i)).map (·.architecture) := by
  simp [architecturesOf, Db.inputs, List.filter_map, Function.comp_def, BuildInput.identity,
    BuildInput.group]

/-- The listed rows by their columns. -/
lemma compatRows_eq (db : Db) : compatRows db =
    (db.binaryPackages.rows.map BinaryPackage.unflagged).flatMap fun p =>
      (sourceColumns db p.sourcePackageId).flatMap fun s =>
        (architecturesOf db p.buildInputId).flatMap fun a => (buildsOf db p).map (listedOf p s a) := by
  simp only [compatRows, latestRows, List.map_flatMap, List.map_map, List.flatMap_map, sourceColumns,
    architecturesOf_eq]
  refine List.flatMap_congr fun p _ => List.flatMap_congr fun s _ => List.flatMap_congr fun b hb => ?_
  have hid : b.id = p.buildInputId := by simpa using (List.mem_filter.mp hb).2
  rw [hid, buildsOf, List.map_map]
  refine List.map_congr_left fun a _ => ?_
  cases a <;> rfl

/-- Nothing that is listed differs. -/
structure ListsSame (db db' : Db) : Prop where
  binaries : db'.binaryPackages.rows.map BinaryPackage.unflagged =
    db.binaryPackages.rows.map BinaryPackage.unflagged
  sources : ∀ p ∈ db.binaryPackages.rows,
    sourceColumns db' p.sourcePackageId = sourceColumns db p.sourcePackageId
  architectures : ∀ p ∈ db.binaryPackages.rows,
    architecturesOf db' p.buildInputId = architecturesOf db p.buildInputId
  builds : ∀ p ∈ db.binaryPackages.rows, buildsOf db' p = buildsOf db p

lemma ListsSame.rows (h : ListsSame db db') : compatRows db' = compatRows db := by
  rw [compatRows_eq, compatRows_eq, h.binaries, List.flatMap_map, List.flatMap_map]
  refine List.flatMap_congr fun p hp => ?_
  have hs : sourceColumns db' p.unflagged.sourcePackageId =
      sourceColumns db p.unflagged.sourcePackageId := h.sources p hp
  have ha : architecturesOf db' p.unflagged.buildInputId =
      architecturesOf db p.unflagged.buildInputId := h.architectures p hp
  have hb : buildsOf db' p.unflagged = buildsOf db p.unflagged := h.builds p hp
  rw [hs, ha, hb]

/-- With the same packages, it is the builds that matter. -/
lemma ListsSame.of_samePackages (h : SamePackages db db')
    (hb : ∀ p ∈ db.binaryPackages.rows, buildsOf db' p = buildsOf db p) : ListsSame db db' := by
  refine ⟨by rw [h.binaries], fun p _ => ?_, fun p _ => ?_, hb⟩
  · rw [sourceColumns, h.sources]
    rfl
  · rw [architecturesOf, h.inputs]
    rfl

lemma ListsSame.of_sameRecords (h : SameRecords db db') : ListsSame db db' := by
  refine .of_samePackages h.toSamePackages fun p _ => ?_
  simp only [buildsOf, joinedArtifacts, latestRebuild, rebuildsOf, h.rebuilds, h.artifacts]

/-! ### Rebuilds, artifacts and resets that are not listed -/

lemma isListed_eq (h : TimesKnown db) (i id : ℕ) :
    isListed db i id = (latestRebuild db i).any (·.id == id) := by
  rw [isListed, unsupersededRebuilds_latest h, List.any_cons, List.any_nil, Bool.or_false]

lemma latestRebuild_insert {new : NewRebuild} (h : rebuildUnlisted new db = true) {p : BinaryPackage}
    (hp : p ∈ db.binaryPackages.rows) :
    latestRebuild (new.insert db).2 p.buildInputId = latestRebuild db p.buildInputId := by
  have hrows : rebuildsOf (new.insert db).2 p.buildInputId = rebuildsOf db p.buildInputId ++
      [new.row (db.rebuilds.seq + 1)].filter (·.buildInputId == p.buildInputId) := by
    rw [rebuildsOf, NewRebuild.rows_insert, List.filter_append]
    rfl
  by_cases hi : new.buildInputId = p.buildInputId
  · obtain ⟨r, hr, hrid, hlater⟩ : ∃ r ∈ db.rebuilds.rows, r.buildInputId = p.buildInputId ∧
        sqlLt new.builtText r.builtText = true := by
      rcases Bool.or_eq_true_iff.mp h with hnone | hsome
      · simpa [hi] using List.all_eq_true.mp hnone p hp
      · simpa [hi] using hsome
    have hin : r ∈ rebuildsOf db p.buildInputId := mem_rebuildsOf.mpr ⟨hr, hrid⟩
    have hlt : (new.row (db.rebuilds.seq + 1)).order < r.order :=
      Prod.Lex.toLex_lt_toLex.mpr (.inl (sqlLt_nullsFirst hlater))
    have hlatest := isLatest_latestRebuild db p.buildInputId
    refine (IsLatest.eq ?_).symm
    rcases hl : latestRebuild db p.buildInputId with _ | r₀ <;> rw [hl] at hlatest
    · rw [show rebuildsOf db p.buildInputId = [] from hlatest] at hin
      cases hin
    · refine ⟨hrows ▸ List.mem_append_left _ hlatest.1, fun r' hr' => ?_⟩
      rcases List.mem_append.mp (hrows ▸ hr') with hold | hnew
      · exact hlatest.2 r' hold
      · rw [List.mem_singleton.mp (List.mem_filter.mp hnew).1]
        exact hlt.le.trans (hlatest.2 r hin)
  · have hother : [new.row (db.rebuilds.seq + 1)].filter (·.buildInputId == p.buildInputId) = [] := by
      simpa [NewRebuild.row] using hi
    rw [latestRebuild, hrows, hother, List.append_nil]
    rfl

lemma listsSame_insertRebuild {new : NewRebuild} (h : rebuildUnlisted new db = true) :
    ListsSame db (new.insert db).2 := by
  refine .of_samePackages ⟨rfl, rfl, rfl, rfl⟩ fun p hp => ?_
  rw [buildsOf, latestRebuild_insert h hp]
  rfl

/-- An artifact that looks like a missing one is listed as before. -/
lemma map_leftJoin_append {l : List RebuildArtifact} {on : RebuildArtifact → Bool}
    {a : RebuildArtifact} {r1 : Option Rebuild}
    (h : on a = true → (∀ x ∈ l, on x = false) ∧ buildColumns r1 (some a) = buildColumns r1 none) :
    (leftJoin (l ++ [a]) on).map (buildColumns r1) = (leftJoin l on).map (buildColumns r1) := by
  cases hon : on a
  · simp [leftJoin, List.any_append, List.filter_append, hon]
  · obtain ⟨hnone, hsame⟩ := h hon
    have hfree : l.filter on = [] := by simpa using hnone
    rw [leftJoin_eq_none hfree, leftJoin_eq_map (by simp [hon])]
    simp [List.filter_append, hfree, hon, hsame]

lemma listsSame_insertArtifact (ht : TimesKnown db) {new : NewRebuildArtifact}
    (h : artifactUnlisted new db = true) : ListsSame db (new.insert db) := by
  refine .of_samePackages ⟨rfl, rfl, rfl, rfl⟩ fun p hp => ?_
  have hunlisted := List.all_eq_true.mp h p hp
  rw [isListed_eq ht] at hunlisted
  refine map_leftJoin_append fun hon => ?_
  obtain ⟨hid, hname⟩ := Bool.and_eq_true_iff.mp hon
  change (latestRebuild db p.buildInputId).any (·.id == new.rebuildId) = true at hid
  have hname : new.name = p.name := beq_iff_eq.mp hname
  simp only [hname, hid, bne_self_eq_false, Bool.not_true, Bool.false_or, Bool.and_eq_true,
    beq_iff_eq, Option.isNone_iff_eq_none, List.all_eq_true, Bool.or_eq_true, bne_iff_ne] at hunlisted
  obtain ⟨⟨⟨hstatus, hdiffoscope⟩, hattestation⟩, hnone⟩ := hunlisted
  refine ⟨fun x hx => ?_, ?_⟩
  · change ((latestRebuild db p.buildInputId).any (·.id == x.rebuildId) && x.name == p.name) = false
    rcases hl : latestRebuild db p.buildInputId with _ | r
    · rfl
    · rw [hl, Option.any_some, beq_iff_eq] at hid
      rw [Option.any_some, hid]
      rcases hnone x hx with hother | hother
      · simp [hother.symm]
      · simp [hother]
  · simp [buildColumns, recordColumns, RebuildArtifact.content, NewRebuildArtifact.row, hstatus,
      hdiffoscope, hattestation]

lemma rebuildsOf_reset (id : ℕ) (db : Db) (i : ℕ) : rebuildsOf (resetRebuild id db) i =
    (rebuildsOf db i).map fun r => if r.id == id then { r with status := none } else r := by
  unfold rebuildsOf resetRebuild
  rw [Table.rows_update, List.filter_map]
  refine congrArg (List.map _) (List.filter_congr fun r _ => ?_)
  simp only [Function.comp]
  split <;> rfl

lemma latestRebuild_reset (id : ℕ) (db : Db) (i : ℕ) : latestRebuild (resetRebuild id db) i =
    (latestRebuild db i).map fun r => if r.id == id then { r with status := none } else r := by
  have hlatest := isLatest_latestRebuild db i
  have horder (r : Rebuild) :
      (if r.id == id then { r with status := none } else r).order = r.order := by
    split <;> rfl
  refine (IsLatest.eq ?_).symm
  rcases hl : latestRebuild db i with _ | r <;> rw [hl] at hlatest
  · exact (rebuildsOf_reset id db i).trans (by rw [show rebuildsOf db i = [] from hlatest]; rfl)
  · refine ⟨rebuildsOf_reset id db i ▸ List.mem_map.mpr ⟨r, hlatest.1, rfl⟩, fun r' hr' => ?_⟩
    rw [rebuildsOf_reset] at hr'
    obtain ⟨r₀, hr₀, rfl⟩ := List.mem_map.mp hr'
    rw [horder, horder]
    exact hlatest.2 r₀ hr₀

lemma listsSame_resetRebuild (ht : TimesKnown db) {id : ℕ} (h : rebuildUnknown id db = true) :
    ListsSame db (resetRebuild id db) := by
  refine .of_samePackages ⟨rfl, rfl, rfl, rfl⟩ fun p hp => ?_
  have hunknown := List.all_eq_true.mp h p hp
  rw [isListed_eq ht] at hunknown
  rw [buildsOf, latestRebuild_reset, buildsOf]
  rcases hr : latestRebuild db p.buildInputId with _ | r
  · rfl
  · rw [Option.map_some]
    split
    · rename_i hid
      obtain ⟨hmem, -⟩ := latestRebuild_mem hr
      rw [hr, Option.any_some, hid, Bool.not_true, Bool.false_or] at hunknown
      have hstatus : r.status.getD .unknown = .unknown := by
        simpa [beq_iff_eq.mp hid] using List.all_eq_true.mp hunknown r hmem
      have hcolumns : buildColumns (some { r with status := none }) = buildColumns (some r) := by
        funext a
        simp [buildColumns, recordColumns, hstatus]
      rw [hcolumns]
      rfl
    · rfl

lemma listsSame_resetArtifacts (ht : TimesKnown db) {id : ℕ} (h : artifactsUnknown id db = true) :
    ListsSame db (resetArtifacts id db) := by
  refine .of_samePackages ⟨rfl, rfl, rfl, rfl⟩ fun p hp => ?_
  have hunknown := List.all_eq_true.mp h p hp
  rw [isListed_eq ht] at hunknown
  let forget := fun a : RebuildArtifact => if a.rebuildId == id then { a with status := none } else a
  let on := fun a : RebuildArtifact =>
    (latestRebuild db p.buildInputId).any (·.id == a.rebuildId) && a.name == p.name
  have hon : on ∘ forget = on := by
    funext a
    dsimp only [Function.comp, on, forget]
    split <;> rfl
  have hjoin : joinedArtifacts (resetArtifacts id db) p (latestRebuild db p.buildInputId) =
      (leftJoin db.rebuildArtifacts.rows on).map (Option.map forget) :=
    (leftJoin_map forget db.rebuildArtifacts.rows on).trans (by rw [hon])
  change (joinedArtifacts (resetArtifacts id db) p (latestRebuild db p.buildInputId)).map
    (buildColumns (latestRebuild db p.buildInputId)) = _
  rw [hjoin, List.map_map]
  refine List.map_congr_left fun o ho => ?_
  rcases mem_leftJoin.mp ho with ⟨a, ha, haon, rfl⟩ | ⟨-, rfl⟩
  · dsimp only [Function.comp, Option.map_some, forget]
    split
    · rename_i hid
      have hid := beq_iff_eq.mp hid
      obtain ⟨hlisted, hname⟩ := Bool.and_eq_true_iff.mp haon
      rw [← hid, hlisted, Bool.not_true, Bool.false_or] at hunknown
      have hstatus : a.status.getD .unknown = .unknown := by
        simpa [beq_iff_eq.mp hname] using List.all_eq_true.mp hunknown a ha
      simp [buildColumns, recordColumns, RebuildArtifact.content, hstatus]
    · rfl
  · rfl

/-! ### Builds that a report keeps -/

/-- The builds of the binary packages of `db` are as they were. -/
structure BuildsKept (db d : Db) : Prop where
  fresh : Fresh d
  seq : db.rebuilds.seq ≤ d.rebuilds.seq
  artifacts : ∀ k ≤ db.rebuilds.seq, artifactsOf d k = artifactsOf db k
  rebuilds : ∀ p ∈ db.binaryPackages.rows, rebuildsOf d p.buildInputId = rebuildsOf db p.buildInputId

/-- The artifacts that are listed with a rebuild. -/
lemma joinedArtifacts_content (db : Db) (p : BinaryPackage) (r : Rebuild) :
    (joinedArtifacts db p (some r)).map (Option.map RebuildArtifact.content) =
      leftJoin (artifactsOf db r.id) (·.name == p.name) := by
  have hon : (fun a : RebuildArtifact => (some r).any (·.id == a.rebuildId) && a.name == p.name) =
      fun a => a.rebuildId == r.id && a.name == p.name := by
    funext a
    rw [Option.any_some, BEq.comm]
  have hfilter : db.rebuildArtifacts.rows.filter (fun a => a.rebuildId == r.id && a.name == p.name) =
      db.rebuildArtifacts.rows.filter fun a => a.name == p.name && a.rebuildId == r.id :=
    List.filter_congr fun a _ => Bool.and_comm _ _
  rw [artifactsOf, leftJoin_map, joinedArtifacts, hon]
  refine congrArg (List.map _) ?_
  unfold leftJoin
  rw [List.any_filter, List.filter_filter, hfilter]
  rfl

lemma BuildsKept.buildsOf (h : BuildsKept db db') {p : BinaryPackage}
    (hp : p ∈ db.binaryPackages.rows) : buildsOf db' p = buildsOf db p := by
  have hlatest : latestRebuild db' p.buildInputId = latestRebuild db p.buildInputId := by
    rw [latestRebuild, h.rebuilds p hp]
    rfl
  have hcolumns (d : Db) : Daemon.buildsOf d p =
      ((joinedArtifacts d p (latestRebuild d p.buildInputId)).map
        (Option.map RebuildArtifact.content)).map (recordColumns (latestRebuild d p.buildInputId)) := by
    rw [List.map_map]
    rfl
  rw [hcolumns, hcolumns, hlatest]
  rcases hr : latestRebuild db p.buildInputId with _ | r
  · simp [joinedArtifacts, leftJoin]
  · rw [joinedArtifacts_content, joinedArtifacts_content,
      h.artifacts r.id (db.rebuilds.bound r (latestRebuild_mem hr).1)]

/-- Copying rebuilds leaves the artifacts of those that were there. -/
lemma artifactsOf_copyExistingRebuilds (h : Fresh db) {id : ℕ} (hid : id ≤ db.buildInputs.seq) :
    db.rebuilds.seq ≤ (copyExistingRebuilds id db).rebuilds.seq ∧
      ∀ k ≤ db.rebuilds.seq, artifactsOf (copyExistingRebuilds id db) k = artifactsOf db k := by
  unfold copyExistingRebuilds
  split
  · rename_i existing _
    split
    · have hc := copied_foldl h hid (db.rebuilds.rows.filter (·.buildInputId == existing))
        fun r hr => db.rebuilds.bound r (List.mem_filter.mp hr).1
      exact ⟨hc.seq, hc.artifacts⟩
    · exact ⟨le_rfl, fun _ _ => rfl⟩
  · exact ⟨le_rfl, fun _ _ => rfl⟩

section
variable {c : ScheduleConfig} {T : Ties} {now : Time} {r : PackageReport} {p : SourcePackageReport}
  {ps : List SourcePackageReport} {d d' : Db}

/-- An import keeps the builds, if a new package has a build input without binary packages. -/
lemma BuildsKept.import (h : BuildsKept db d) (hok : importPackage c T now r d p = .ok d')
    (hnew : isNewPackage r p d = true → ∀ first, ∀ b ∈ db.binaryPackages.rows,
      b.buildInputId ≠ (importRows now first r p d).1.id) : BuildsKept db d' := by
  obtain ⟨first, -, henq⟩ := importPackage_ok hok
  have hsame := sameRecords_enqueueImported henq
  obtain ⟨-, hrebuilds, hartifacts⟩ := importRows_frame now first r p d
  have hrows : BuildsKept db (importRows now first r p d).2 := by
    refine ⟨h.fresh.congr hrebuilds hartifacts (importRows_seq now first r p d), ?_, fun k hk => ?_,
      fun b hb => ?_⟩
    · rw [hrebuilds]
      exact h.seq
    · rw [artifactsOf, hartifacts]
      exact h.artifacts k hk
    · rw [rebuildsOf, hrebuilds]
      exact h.rebuilds b hb
  have hbound : (importRows now first r p d).1.id ≤ (importRows now first r p d).2.buildInputs.seq :=
    Table.bound _ _ (importRows_imported now first r p d).stored
  have hhistory : BuildsKept db (importWithHistory now first r p d).2 := by
    have hfresh := (importWithHistory_history now first r p h.fresh).1
    unfold importWithHistory at hfresh ⊢
    dsimp only at hfresh ⊢
    split at hfresh
    · rename_i hisNew
      rw [if_pos hisNew]
      obtain ⟨hseq, hkept⟩ := artifactsOf_copyExistingRebuilds hrows.fresh hbound
      refine ⟨hfresh, hrows.seq.trans hseq, fun k hk => ?_, fun b hb => ?_⟩
      · rw [hkept k (hk.trans hrows.seq), hrows.artifacts k hk]
      · exact (copyExistingRebuilds_rebuilds_of_ne (hnew hisNew first b hb) _).trans
          (hrows.rebuilds b hb)
    · rename_i hisOld
      rw [if_neg hisOld]
      exact hrows
  refine ⟨hsame.fresh hhistory.fresh, ?_, fun k hk => ?_, fun b hb => ?_⟩
  · rw [hsame.rebuilds]
    exact hhistory.seq
  · rw [artifactsOf, hsame.artifacts]
    exact hhistory.artifacts k hk
  · rw [rebuildsOf, hsame.rebuilds]
    exact hhistory.rebuilds b hb

/-- A source package after some packages of a report: as before, or of the report's origin. -/
lemma Written.source (h : Written now r ps db d) {s : SourcePackage}
    (hs : s ∈ db.sourcePackages.rows) : ∃ s' ∈ d.sourcePackages.rows, s'.id = s.id ∧
      s'.uniqueKey = s.uniqueKey ∧
        (s' = s ∨ (∃ q ∈ ps, s.uniqueKey = reportedKey r q) ∧ s'.inOriginOf r = true) := by
  have hmem := Upserts.after_mem_all (u := sourceUpserts now r) ps hs
  rw [← h.sources] at hmem
  have hkept := Upserts.keyOf_after (u := sourceUpserts now r) ps s
  unfold Upserts.after at hmem hkept
  rcases hlast : (sourceUpserts now r).last ps ((sourceUpserts now r).keyOf s) with _ | q <;>
    rw [hlast] at hmem hkept
  · exact ⟨s, hmem, rfl, rfl, .inl rfl⟩
  · obtain ⟨hq, hkey⟩ := Upserts.of_last hlast
    refine ⟨_, hmem, rfl, hkept, .inr ⟨⟨q, hq, hkey.symm⟩, ?_⟩⟩
    simp [SourcePackage.inOriginOf, sourceUpserts, newSourcePackage, NewSourcePackage.row]

/-- The imports of a report keep the builds, if every source package with binary packages that the
report lists is of its origin. -/
lemma buildsKept_imports (hu : Unique db) (hf : Fresh db) (hlinked : BinariesLinked db)
    (howned : BinariesOwned db) (horigin : ∀ s ∈ db.sourcePackages.rows,
      ∀ b ∈ db.binaryPackages.rows, b.sourcePackageId = s.id → ∀ q ∈ ps,
        s.uniqueKey = reportedKey r q → s.inOriginOf r = true)
    (hok : ps.foldlM (importPackage c T now r) db = .ok d) :
    Written now r ps db d ∧ BuildsKept db d := by
  refine foldlM_ok (I := fun done d => Written now r done db d ∧ BuildsKept db d) hok
    ⟨⟨hu, .refl _, by simp, rfl, rfl⟩, hf, le_rfl, fun _ _ => rfl, fun _ _ => rfl⟩
    fun done p d d' hp hd himp => ⟨hd.1.import himp, hd.2.import himp fun hnew first b hb heq => ?_⟩
  -- The build input is that of the binary package, so the source package was there before.
  have hrows := importRows_imported now first r p d
  obtain ⟨s, hs, hsid⟩ := (hlinked b hb).1
  obtain ⟨s₁, hs₁, hid₁, hkey₁, hcase⟩ := hd.1.source hs
  obtain ⟨s', hs', hid', hfrom⟩ := hrows.source
  obtain ⟨g, hg⟩ := howned b hb
  have hsource : b.sourcePackageId = (importRows now first r p d).1.sourcePackageId := by
    have hin : (b.buildInputId, b.sourcePackageId, g) ∈ (importRows now first r p d).2.inputs :=
      hrows.keeps_inputs (hd.1.keeps.inputs _ hg)
    obtain ⟨i, hi, hiid, hisource, -⟩ := mem_inputs.mp hin
    rw [← hisource, Table.eq_of_key hi hrows.stored (hiid.trans heq)]
  have hkey : s.uniqueKey = reportedKey r p := by
    by_contra hne
    have hsources : (importRows now first r p d).2.sourcePackages =
        ((newSourcePackage now r p).upsert d).2.sourcePackages :=
      (importRows_other (g := Db.sourcePackages) (fun _ _ => rfl) now first r p d).trans
        (upsertInput_spec first r p _ _).1
    obtain ⟨s₂, hs₂, hid₂, -, hsame⟩ := upsertSource_row now r p hs₁
    rw [← hsources] at hs₂
    have hsame : s₂ = s₁ := hsame (hkey₁.trans_ne hne)
    have heq : s₂ = s' :=
      Table.eq_of_key hs₂ hs' (((hid₂.trans hid₁).trans (hsid.trans hsource)).trans hid'.symm)
    exact hne (by rw [← hkey₁, ← hsame, heq, hfrom.uniqueKey])
  have horigin₁ : s₁.inOriginOf r = true := by
    rcases hcase with rfl | ⟨-, horigin₁⟩
    · exact horigin s₁ hs b hb hsid.symm p hp hkey
    · exact horigin₁
  have hold : isNewPackage r p d = false := by
    rw [← hkey₁] at hkey
    simp only [SourcePackage.uniqueKey, reportedKey, Prod.mk.injEq] at hkey
    rw [isNewPackage, Bool.not_eq_false']
    exact List.any_eq_true.mpr ⟨s₁, hs₁, by simp [hkey.1, hkey.2.1, horigin₁]⟩
  rw [hold] at hnew
  cases hnew

/-! ### Reports that list nothing new -/

lemma of_idsOf {x : ℕ × ℕ} (h : idsOf r d p = some x) : IdsOf r p d x := by
  obtain ⟨z, hz, rfl⟩ := Option.map_eq_some_iff.mp h
  have hfound := List.find?_some hz
  simp only [Bool.and_eq_true, beq_iff_eq, List.any_eq_true] at hfound
  obtain ⟨hgroup, s, hs, hid, hkey⟩ := hfound
  exact ⟨⟨s, hs, hid, hkey⟩, hgroup ▸ List.mem_of_find?_eq_some hz⟩

lemma sourceColumns_of_mem {s : SourcePackage} (hs : s ∈ db.sourcePackages.rows) :
    sourceColumns db s.id = [(s.distribution, s.component)] := by
  rw [sourceColumns, show db.sourcePackages.rows.filter (·.id == s.id) = [s] from Table.filter_key hs]
  rfl

lemma architecturesOf_of_mem {i s : ℕ} {g : Group} (h : (i, s, g) ∈ db.inputs) :
    architecturesOf db i = [g.architecture] := by
  obtain ⟨b, hb, rfl, -, rfl⟩ := mem_inputs.mp h
  rw [architecturesOf_eq, show db.buildInputs.rows.filter (·.id == b.id) = [b] from Table.filter_key hb]
  rfl

/-- Marking packages as unseen leaves what is listed. -/
lemma listsSame_mark (r : PackageReport) (db : Db) : ListsSame db (markScopedPackagesUnseen r db) := by
  refine ⟨Table.map_rows_update _ fun _ _ _ => rfl, fun p _ => ?_, fun _ _ => rfl, fun _ _ => rfl⟩
  unfold sourceColumns markScopedPackagesUnseen
  rw [Table.rows_update, List.filter_map, List.map_map]
  refine (List.map_congr_left fun s _ => ?_).trans
    (congrArg (List.map _) (List.filter_congr fun s _ => ?_))
  · simp only [Function.comp]
    split <;> rfl
  · simp only [Function.comp]
    split <;> rfl

/-- The writes of such a report are known before. -/
lemma binaryWrites_relisted (h : relists r db = true) (hu : Unique d) (hk : KeepsIds db d) :
    binaryWrites r r.packages d = binaryWrites r r.packages db := by
  simp only [relists, Bool.and_eq_true, List.all_eq_true, Bool.or_eq_true] at h
  unfold binaryWrites
  rw [List.flatMap_def, List.flatMap_def]
  refine congrArg List.flatten (List.map_congr_left fun p hp => ?_)
  rcases h.1.1 p hp with hempty | hids
  · rw [List.isEmpty_iff.mp hempty]
    rcases idsOf r d p with _ | _ <;> rcases idsOf r db p with _ | _ <;> rfl
  · rcases hx : idsOf r db p with _ | x
    · rw [hx] at hids
      cases hids
    · rw [idsOf_eq hu (hk.idsOf (of_idsOf hx))]

/-- Every artifact of such a report has its row. -/
lemma mem_of_binaryWrites (h : relists r db = true) {w : NewBinaryPackage}
    (hw : w ∈ binaryWrites r r.packages db) :
    ∃ b ∈ db.binaryPackages.rows, b.columns = binaryUpserts.of w := by
  simp only [relists, Bool.and_eq_true, List.all_eq_true, Bool.or_eq_true] at h
  obtain ⟨p, hp, hw⟩ := List.mem_flatMap.mp hw
  rcases hx : idsOf r db p with _ | x <;> rw [hx] at hw
  · cases hw
  · obtain ⟨a, ha, rfl⟩ := List.mem_map.mp hw
    rcases h.1.1 p hp with hempty | hids
    · rw [List.isEmpty_iff.mp hempty] at ha
      cases ha
    · rw [hx, Option.any_some, List.all_eq_true] at hids
      obtain ⟨b, hb, hconflict⟩ := List.any_eq_true.mp (hids a ha)
      exact ⟨b, hb, conflicts_binary_iff.mp hconflict⟩

/-- The source packages of the binary packages such a report lists are of its origin. -/
lemma inOrigin_of_relists (h : relists r db = true) {s : SourcePackage}
    (hs : s ∈ db.sourcePackages.rows) {b : BinaryPackage} (hb : b ∈ db.binaryPackages.rows)
    (hid : b.sourcePackageId = s.id) (hp : p ∈ r.packages) (hkey : s.uniqueKey = reportedKey r p) :
    s.inOriginOf r = true := by
  have hall := List.all_eq_true.mp (Bool.and_eq_true_iff.mp h).2 s hs
  rcases Bool.or_eq_true_iff.mp hall with hall | hnone
  · rcases Bool.or_eq_true_iff.mp hall with horigin | hother
    · exact horigin
    · have hlisted : s.uniqueKey ∈ r.packages.map (reportedKey r) :=
        List.mem_map.mpr ⟨p, hp, hkey.symm⟩
      simp [hlisted] at hother
  · simpa [hid] using List.all_eq_true.mp hnone b hb

/-- A report that lists nothing new leaves what is listed. -/
lemma listedRows_commit (hu : Unique db) (hf : Fresh db) (hlinked : BinariesLinked db)
    (howned : BinariesOwned db) (h : relists r db = true)
    (hok : commitPackageReport c T now r db = .ok db') : compatRows db' = compatRows db := by
  obtain ⟨d, hfold, rfl⟩ := commitPackageReport_ok hok
  let m := markScopedPackagesUnseen r db
  have hmark : ListsSame db m := listsSame_mark r db
  have hbinary {b' : BinaryPackage} (hb' : b' ∈ m.binaryPackages.rows) :
      ∃ b ∈ db.binaryPackages.rows, b'.columns = b.columns ∧ b'.artifactUrl = b.artifactUrl := by
    obtain ⟨b, hb, rfl⟩ := List.mem_map.mp hb'
    refine ⟨b, hb, ?_⟩
    split <;> exact ⟨rfl, rfl⟩
  have horigin : ∀ s ∈ m.sourcePackages.rows, ∀ b ∈ m.binaryPackages.rows,
      b.sourcePackageId = s.id → ∀ q ∈ r.packages, s.uniqueKey = reportedKey r q →
        s.inOriginOf r = true := by
    intro s' hs' b' hb' hid q hq hkey
    obtain ⟨b, hb, hcolumns, -⟩ := hbinary hb'
    simp only [BinaryPackage.columns, Prod.mk.injEq] at hcolumns
    obtain ⟨s, hs, hsid, hskey, hsorigin⟩ : ∃ s ∈ db.sourcePackages.rows, s'.id = s.id ∧
        s'.uniqueKey = s.uniqueKey ∧ s'.inOriginOf r = s.inOriginOf r := by
      obtain ⟨s, hs, rfl⟩ := List.mem_map.mp hs'
      refine ⟨s, hs, ?_⟩
      split <;> exact ⟨rfl, rfl, rfl⟩
    rw [hsorigin]
    exact inOrigin_of_relists h hs hb ((hcolumns.1.symm.trans hid).trans hsid) hq (hskey.symm.trans hkey)
  obtain ⟨hw, hbuilds⟩ := buildsKept_imports (unique_mark hu r) (hf.congr rfl rfl le_rfl)
    (hlinked.mark r) (howned.mark r) horigin hfold
  have hwrites := binaryWrites_relisted h hw.unique ((keepsIds_mark r db).trans hw.keeps)
  -- The jobs that are dropped at the end are not listed.
  change compatRows d = compatRows db
  rw [← hmark.rows]
  refine ListsSame.rows ⟨?_, fun b hb => ?_, fun b hb => ?_, fun b hb => hbuilds.buildsOf hb⟩
  · have hkeys : ∀ w ∈ binaryWrites r r.packages db, ∃ b ∈ m.binaryPackages.rows,
        binaryUpserts.keyOf b = binaryUpserts.of w := by
      intro w hwmem
      obtain ⟨b, hb, hkey⟩ := mem_of_binaryWrites h hwmem
      refine ⟨_, List.mem_map.mpr ⟨b, hb, rfl⟩, Eq.trans ?_ hkey⟩
      split <;> rfl
    have hrows : d.binaryPackages.rows =
        m.binaryPackages.rows.map (binaryUpserts.after (binaryWrites r r.packages db)) := by
      rw [hw.binaries, hwrites, Upserts.rows_all hkeys]
    rw [hrows, List.map_map]
    refine List.map_congr_left fun b' hb' => ?_
    obtain ⟨b, hb, hcolumns, hurl⟩ := hbinary hb'
    have hlisted := List.all_eq_true.mp (Bool.and_eq_true_iff.mp (Bool.and_eq_true_iff.mp h).1).2 b hb
    rw [← hcolumns, ← hurl] at hlisted
    change (((binaryUpserts.last (binaryWrites r r.packages db) b'.columns).elim b'
      fun w => binaryUpserts.write w b').unflagged) = _
    rcases hlast : binaryUpserts.last (binaryWrites r r.packages db) b'.columns with _ | w
    · rfl
    · rw [hlast, Option.all_some, beq_iff_eq] at hlisted
      simp [binaryUpserts, BinaryPackage.unflagged, hlisted]
  · obtain ⟨s, hs, hsid⟩ := (hlinked.mark r b hb).1
    obtain ⟨s', hs', hid', -, hcase⟩ := hw.source hs
    rw [← hsid, sourceColumns_of_mem hs, ← hid', sourceColumns_of_mem hs']
    rcases hcase with rfl | ⟨⟨q, hq, hkey⟩, horigin'⟩
    · rfl
    · have hfrom := horigin s hs b hb hsid.symm q hq hkey
      obtain ⟨hd, -, hc⟩ := inOriginOf_iff_columns.mp hfrom
      obtain ⟨hd', -, hc'⟩ := inOriginOf_iff_columns.mp horigin'
      rw [hd, hc, hd', hc']
  · obtain ⟨g, hg⟩ := howned.mark r b hb
    rw [architecturesOf_of_mem hg, architecturesOf_of_mem (hw.keeps.inputs _ hg)]

end

end

/-! ### The date of a listing -/

/-- Once a date can be sent, it never goes back, and the listing changes with it only. -/
structure Announced (db db' : Db) : Prop where
  sent : (lastModified db).isSome = true → (lastModified db').isSome = true
  le : (lastModified db).isSome = true →
    nullsFirst (latestSecond db) ≤ nullsFirst (latestSecond db')
  same : latestSecond db' = latestSecond db → (lastModified db).isSome = true →
    compatRows db' = compatRows db

section
variable {db db' db'' : Db}

lemma nullsFirst_inj {α : Type} {a b : Option α} (h : nullsFirst a = nullsFirst b) : a = b := by
  cases a <;> cases b <;> simp_all [nullsFirst]

lemma Announced.refl (db : Db) : Announced db db := ⟨id, fun _ => le_rfl, fun _ _ => rfl⟩

lemma Announced.trans (h : Announced db db') (h' : Announced db' db'') : Announced db db'' := by
  refine ⟨h'.sent ∘ h.sent, fun hsent => (h.le hsent).trans (h'.le (h.sent hsent)),
    fun heq hsent => ?_⟩
  have hmid : latestSecond db' = latestSecond db := by
    refine nullsFirst_inj (le_antisymm ?_ (h.le hsent))
    rw [← heq]
    exact h'.le (h.sent hsent)
  rw [h'.same (heq.trans hmid.symm) (h.sent hsent), h.same hmid hsent]

/-- A date is sent for a time of the years 1970 to 9999. -/
lemma lastModified_isSome : (lastModified db).isSome = true ↔
    ∃ t, latestBuiltAt db = some t ∧ 0 ≤ t ∧ FourDigitYear t := by
  have hyears (t : Time) : 0 ≤ t / 1000000000 ∧ t / 1000000000 < 253402300800 ↔
      0 ≤ t ∧ FourDigitYear t := by
    unfold FourDigitYear
    have hdiv : t / 1000000000 < 253402300800 ↔ t < 253402300800 * 1000000000 :=
      Int.ediv_lt_iff_lt_mul (by decide)
    have hneg : 0 ≤ t / 1000000000 ↔ 0 * 1000000000 ≤ t := Int.le_ediv_iff_mul_le (by decide)
    rw [hdiv, hneg]
    constructor
    · rintro ⟨hpos, hlt⟩
      exact ⟨by simpa using hpos, by linarith, by linarith⟩
    · rintro ⟨hpos, -, hlt⟩
      exact ⟨by simpa using hpos, by linarith⟩
  unfold lastModified latestSecond httpDate
  rcases latestBuiltAt db with _ | t
  · simp
  · simp [second, ← hyears t]

lemma builtTimes_eq : db.rebuilds.rows.filterMap (·.builtAt) = db.builds.filterMap (·.2) := by
  rw [Db.builds, List.filterMap_map]
  rfl

/-- Further rebuilds leave a date that was sent, or bring a later one. -/
lemma latestBuiltAt_mono {xs : List (ℕ × Option Time)} (h : db'.builds = db.builds ++ xs)
    (hsent : (lastModified db).isSome = true) :
    ∃ t t', latestBuiltAt db = some t ∧ latestBuiltAt db' = some t' ∧ 0 ≤ t ∧ FourDigitYear t' ∧
      t ≤ t' := by
  obtain ⟨t, ht, hpos, hyear⟩ := lastModified_isSome.mp hsent
  have hmem : t ∈ db'.rebuilds.rows.filterMap (·.builtAt) := by
    have hin := List.argmax_mem (Option.mem_def.mpr ht)
    rw [builtTimes_eq] at hin ⊢
    rw [h, List.filterMap_append]
    exact List.mem_append_left _ hin
  rcases ht' : latestBuiltAt db' with _ | t'
  · rw [List.argmax_eq_none.mp ht'] at hmem
    cases hmem
  · have hle : stored t ≤ stored t' := not_lt.mp (List.not_lt_of_mem_argmax hmem ht')
    obtain ⟨hyear', hle⟩ := le_of_dateTimeText_le hle hyear
    exact ⟨t, t', ht, rfl, hpos, hyear', hle⟩

/-- A new rebuild of a later second has a new date. -/
lemma latestSecond_insert {new : NewRebuild} (h : isNewest new db = true) :
    latestSecond (new.insert db).2 ≠ latestSecond db := by
  obtain ⟨htext, hsecond⟩ := Bool.and_eq_true_iff.mp h
  rcases hbuilt : new.builtAt with _ | t
  · rcases latestSecond db with _ | a <;> simp [hbuilt, sqlLt] at hsecond
  · have hafter : latestBuiltAt (new.insert db).2 = some t := by
      have hrow : (new.row (db.rebuilds.seq + 1)).builtAt = some t := hbuilt
      unfold latestBuiltAt
      rw [NewRebuild.rows_insert, List.filterMap_append, List.filterMap_cons_some hrow,
        List.filterMap_nil, List.argmax_concat]
      change (latestBuiltAt db).casesOn (motive := fun _ => Option Time) _ _ = _
      rcases hlatest : latestBuiltAt db with _ | c
      · rfl
      · rw [hlatest, NewRebuild.builtText, hbuilt] at htext
        exact if_pos (WithBot.coe_lt_coe.mp (sqlLt_nullsFirst htext))
    intro heq
    rw [← heq, latestSecond, hafter, hbuilt] at hsecond
    simp [sqlLt] at hsecond

/-- The difference to a whole second is cut off towards zero, so it is negative from a second on. -/
lemma seconds_le {a s : ℤ} (h : 0 ≤ (s * 1000000000 - a).tdiv 1000000000) : a / 1000000000 ≤ s := by
  rcases le_or_gt a (s * 1000000000) with hbefore | hafter
  · omega
  · have hflip : (s * 1000000000 - a).tdiv 1000000000 = -((a - s * 1000000000) / 1000000000) := by
      rw [← neg_sub, Int.neg_tdiv, Int.tdiv_eq_ediv_of_nonneg (by omega)]
    rw [hflip] at h
    omega

/-- A client is told that nothing changed only if the newest rebuild is of no later second. -/
lemma latestSecond_of_notModified {f : ListPkgs} {L : Time} (hL : lastModified db = some L)
    (h : listPkgs f (some L) db' = none) :
    nullsFirst (latestSecond db') ≤ nullsFirst (latestSecond db) := by
  obtain ⟨s, hs, hdate⟩ := Option.bind_eq_some_iff.mp hL
  obtain rfl : L = s * second := by
    unfold httpDate at hdate
    split at hdate
    · exact (Option.some.inj hdate).symm
    · cases hdate
  rw [hs]
  have hmodified : notModified (some (s * second)) db' = true := by
    unfold listPkgs at h
    split at h
    · assumption
    · cases h
  unfold notModified at hmodified
  unfold latestSecond
  split at hmodified
  · rename_i latest since hmax hsince
    obtain rfl := Option.some.inj hsince
    rw [hmax]
    have hnonneg := of_decide_eq_true hmodified
    exact WithBot.coe_le_coe.mpr (seconds_le hnonneg)
  · cases hmodified

end

/-! ### Runs -/

/-- A statement adds rebuilds, and keeps the times of the others. -/
lemma exec_builds_grow (env : Env) (t : Time) (s : Stmt) (db : Db) :
    ∃ xs, ((exec env).answer t s db).2.builds = db.builds ++ xs := by
  rcases exec_builds env t s db with ⟨new, rfl⟩ | ⟨now, r, rfl⟩ | hsame
  · exact ⟨[_], List.map_append⟩
  · refine Exec.answer_inv (I := fun d : Db => ∃ xs, d.builds = db.builds ++ xs) ⟨[], by simp⟩
      fun u db' hok => ?_
    obtain ⟨d, hf, rfl⟩ := commitPackageReport_ok (exec_commit hok)
    refine foldlM_ok (I := fun _ d => ∃ xs, d.builds = db.builds ++ xs) hf ⟨[], ?_⟩
      fun _ p d d' _ hd himp => ?_
    · rw [List.append_nil]
      rfl
    · obtain ⟨first, -, henq⟩ := importPackage_ok himp
      obtain ⟨xs, hxs⟩ := hd
      rw [Db.builds, (sameRecords_enqueueImported henq).rebuilds]
      rcases builds_importWithHistory now first r p d with hkept | ⟨-, i, hcopied⟩
      · exact ⟨xs, hkept.trans hxs⟩
      · exact ⟨xs ++ _, hcopied.trans (by rw [hxs, List.append_assoc])⟩
  · exact ⟨[], by rw [hsame, List.append_nil]⟩

/-- What a statement that meets the condition does. -/
lemma announced_step {env : Env} {e : Event} (hreach : Reachable env e.before)
    (hans : e.answer = ((exec env).answer e.input e.stmt e.before).1) (h : announced e = true) :
    Announced e.before (e.after (exec env)) := by
  obtain ⟨xs, hxs⟩ := exec_builds_grow env e.input e.stmt e.before
  refine ⟨fun hsent => ?_, fun hsent => ?_, fun hdate hsent => ?_⟩
  · obtain ⟨t, t', -, hlatest, hpos, hyear, hle⟩ := latestBuiltAt_mono hxs hsent
    exact lastModified_isSome.mpr ⟨t', hlatest, hpos.trans hle, hyear⟩
  · obtain ⟨t, t', hbefore, hlatest, -, -, hle⟩ := latestBuiltAt_mono hxs hsent
    rw [latestSecond, latestSecond, hbefore, show latestBuiltAt (e.after (exec env)) = _ from hlatest]
    exact WithBot.coe_le_coe.mpr (Int.ediv_le_ediv (by decide) hle)
  have htimes := reachable_timesKnown hreach
  obtain ⟨⟨t, s, a⟩, i, c, db⟩ := e
  have hnone : (lastModified db).isNone = false := by simpa using hsent
  change compatRows ((exec env).answer t s db).2 = compatRows db
  by_cases hs : s.keepsRecords = true
  · exact (ListsSame.of_sameRecords (exec_sameRecords env t hs db)).rows
  · cases s with
    | insertBuildLog log =>
      have hsame : ListsSame db ((exec env).answer t (.insertBuildLog log) db).2 :=
        .of_samePackages ⟨rfl, rfl, rfl, rfl⟩ fun _ _ => rfl
      exact hsame.rows
    | insertRebuild new =>
      simp only [announced, hnone, Bool.false_or, Bool.or_eq_true] at h
      rcases h with hnew | hunlisted
      · exact absurd hdate (latestSecond_insert hnew)
      · exact (listsSame_insertRebuild hunlisted).rows
    | insertRebuildArtifact new =>
      simp only [announced, hnone, Bool.false_or] at h
      exact (listsSame_insertArtifact htimes h).rows
    | resetRebuild id =>
      simp only [announced, hnone, Bool.false_or] at h
      exact (listsSame_resetRebuild htimes h).rows
    | resetArtifacts id =>
      simp only [announced, hnone, Bool.false_or] at h
      exact (listsSame_resetArtifacts htimes h).rows
    | commitPackageReport now r =>
      simp only [announced, hnone, Bool.false_or, Bool.or_eq_true] at h
      rcases hok : exec env t (.commitPackageReport now r) db with err | ⟨u, db'⟩
      · rw [Exec.answer_error.mpr ⟨hok, rfl⟩]
      · rw [Exec.answer_ok.mpr hok] at hans ⊢
        have hrelists : relists r db = true := by
          rcases h with hfailed | hrelists
          · rw [show a = _ from hans] at hfailed
            cases hfailed
          · exact hrelists
        exact listedRows_commit (reachable_unique hreach) (reachable_fresh hreach)
          (reachable_binariesLinked hreach) (reachable_binariesOwned hreach) hrelists (exec_commit hok)
    | _ => exact absurd rfl hs

/-- **Conditional requests are sound in every run in which no statement changes the listing without
giving it a new date.** -/
theorem conditionalSound (env : Env) (as : Schedule) (h : (trace env as).all announced = true) :
    ConditionalSound env as := by
  intro f m n hmn since ps L hps hL hnone
  have htake : as.take n = as.take m ++ (as.take n).drop m := by
    conv_lhs => rw [← List.take_append_drop m (as.take n), List.take_take, min_eq_left hmn]
  have hreach (k : ℕ) : Reachable env (runPool env (as.take k)).state := ⟨_, rfl⟩
  have hannounced : Announced (runPool env (as.take m)).state (runPool env (as.take n)).state := by
    have htrace : trace env (as.take n) = trace env (as.take m) ++
        Pool.trace (exec env) (handler env.config) (runPool env (as.take m)) ((as.take n).drop m) := by
      conv_lhs => rw [htake]
      exact Pool.trace_append _ _ _
    have hbeg (e : Event) (he : e ∈ trace env (as.take n)) : e ∈ trace env as := by
      rw [← List.take_append_drop n as, trace, Pool.trace_append]
      exact List.mem_append_left _ he
    have hh := trace_history env (as.take n)
    rw [state_runPool, state_runPool, htrace]
    rw [htrace] at hh hbeg
    refine hh.related Announced.refl (fun _ _ _ => Announced.trans) fun e he hans => ?_
    have hmem := hbeg e (List.mem_append_right _ he)
    exact announced_step (Pool.exists_before hmem) hans (List.all_eq_true.mp h e hmem)
  have hsame : latestSecond (runPool env (as.take n)).state =
      latestSecond (runPool env (as.take m)).state :=
    nullsFirst_inj (le_antisymm (latestSecond_of_notModified hL hnone)
      (hannounced.le (by rw [hL]; rfl)))
  have hrows := hannounced.same hsame (by rw [hL]; rfl)
  rw [← listPkgs_full hps, listPkgs_listed (reachable_timesKnown (hreach m)),
    listPkgs_listed (reachable_timesKnown (hreach n)), hrows]

/-- One package is imported, its rebuild fails, and the same report comes again. -/
def listedAgain : Schedule :=
  serveAt 0 (.submitPackageReport adminHeaders (debianReport [packageWith "hello" ["hello"]])) 0 ++
  serveAt 1 (.requestWork (workerHeaders "alice") ⟨["debian"], "amd64", ["amd64"]⟩) (10 * second) ++
  serveAt 2 (reportBy "alice" .fail) (20 * second) ++
  serveAt 3 (.submitPackageReport adminHeaders (debianReport [packageWith "hello" ["hello"]]))
    (30 * second)

theorem conditionalSound_listedAgain : ConditionalSound (openDaemon none) listedAgain :=
  conditionalSound (openDaemon none) listedAgain (by decide +kernel)

/-- A package without artifacts is imported and rebuilt, and then one with an artifact is imported. -/
def importedAfter : Schedule :=
  serveAt 0 (.submitPackageReport adminHeaders (debianReport [packageWith "hello" []])) 0 ++
  serveAt 1 (.requestWork (workerHeaders "alice") ⟨["debian"], "amd64", ["amd64"]⟩) (10 * second) ++
  serveAt 2 (reportBy "alice" .good) (20 * second) ++
  serveAt 3 (.submitPackageReport adminHeaders (debianReport [packageWith "world" ["world"]]))
    (30 * second)

/-- **A package that is imported after the newest rebuild is never listed** for a client that has
the listing from before. -/
theorem importedAfter_notModified : ¬ ∀ env as, ConditionalSound env as := by
  intro h
  have hstale := h (openDaemon none) importedAfter noFilter 51 68 (by decide) none [] 0
    (by decide +kernel) (by decide +kernel) (by decide +kernel)
  revert hstale
  decide +kernel

end Rebuilderd.Daemon
