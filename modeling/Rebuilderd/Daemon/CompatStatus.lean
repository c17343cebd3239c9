import Rebuilderd.Daemon.Compat
import Rebuilderd.Daemon.Dashboard

/-!
The status filter of the v0 listing.

It looks at the status of the latest rebuild, while the listing shows that of the artifact with the
package's name.
-/

namespace Rebuilderd.Daemon

open Rebuilderd.Lib Rebuilderd.Common

/-! ### The filter and the listed status -/

/-- The same filters with another status. -/
def ListPkgs.withStatus (f : ListPkgs) (status : Option ArtifactStatus) : ListPkgs :=
  { f with status := status }

/-- With a status, exactly those packages are listed that are listed with it without one. -/
def SelectsListed (f : ListPkgs) (db : Db) : Prop :=
  ∀ status, listPkgs (f.withStatus (some status)) none db =
    (listPkgs (f.withStatus none) none db).map fun ps => ps.filter (·.status == status)

/-- The artifacts of the package's name in the rebuild, or a NULL. -/
def joinedArtifacts (db : Db) (p : BinaryPackage) (r1 : Option Rebuild) :
    List (Option RebuildArtifact) :=
  leftJoin db.rebuildArtifacts.rows fun a => r1.any (·.id == a.rebuildId) && a.name == p.name

/-- The latest rebuild has the status of the artifact with the package's name; a status that is NULL
is unknown, and so is that of a missing artifact. -/
def StatusesAgree (f : ListPkgs) (db : Db) : Prop :=
  ∀ p ∈ db.binaryPackages.rows, ∀ s ∈ db.sourcePackages.rows, s.id = p.sourcePackageId →
    ∀ b ∈ db.buildInputs.rows, b.id = p.buildInputId →
      (f.withStatus none).accepts p s b none = true → ∀ r, IsLatest db b.id (some r) →
        ∀ a ∈ joinedArtifacts db p (some r),
          r.status.getD .unknown = ((a.bind (·.status)).getD .unknown).toBuild

/-! ### The rows of the listing -/

abbrev JoinedRow :=
  BinaryPackage × SourcePackage × BuildInput × Option Rebuild × Option RebuildArtifact

/-- What the listing shows of a row. -/
def releaseOf : JoinedRow → PkgRelease
  | (p, s, _, r1, a) => pkgRelease (p, s, r1, a)

/-- The joins of the listing, with the latest rebuilds. -/
noncomputable def latestRows (db : Db) : List JoinedRow :=
  db.binaryPackages.rows.flatMap fun p =>
    (db.sourcePackages.rows.filter fun s => s.id == p.sourcePackageId).flatMap fun s =>
      (db.buildInputs.rows.filter fun b => b.id == p.buildInputId).flatMap fun b =>
        (joinedArtifacts db p (latestRebuild db b.id)).map fun a =>
          (p, s, b, latestRebuild db b.id, a)

section
variable {f : ListPkgs} {db : Db} {status : ArtifactStatus}

lemma mem_latestRows {row : JoinedRow} : row ∈ latestRows db ↔
    row.1 ∈ db.binaryPackages.rows ∧ (row.2.1 ∈ db.sourcePackages.rows ∧
      row.2.1.id = row.1.sourcePackageId) ∧ (row.2.2.1 ∈ db.buildInputs.rows ∧
      row.2.2.1.id = row.1.buildInputId) ∧ row.2.2.2.1 = latestRebuild db row.2.2.1.id ∧
        row.2.2.2.2 ∈ joinedArtifacts db row.1 (latestRebuild db row.2.2.1.id) := by
  obtain ⟨p, s, b, r1, a⟩ := row
  simp only [latestRows, List.mem_flatMap, List.mem_map, List.mem_filter, beq_iff_eq, Prod.mk.injEq]
  constructor
  · rintro ⟨p', hp, s', hs, b', hb, a', ha, rfl, rfl, rfl, rfl, rfl⟩
    exact ⟨hp, hs, hb, rfl, ha⟩
  · rintro ⟨hp, hs, hb, rfl, ha⟩
    exact ⟨p, hp, s, hs, b, hb, a, ha, rfl, rfl, rfl, rfl, rfl⟩

lemma notModified_none (db : Db) : notModified none db = false := by
  unfold notModified
  split
  · rename_i heq
    cases heq
  · rfl

/-- A full response is the one a client without a date gets. -/
lemma listPkgs_full {since : Option Time} {ps : List PkgRelease} (h : listPkgs f since db = some ps) :
    listPkgs f none db = some ps := by
  unfold listPkgs at h ⊢
  rw [notModified_none]
  split at h
  · cases h
  · exact h

lemma listPkgs_latest (h : TimesKnown db) (f : ListPkgs) : listPkgs f none db =
    some (((latestRows db).filter fun row => f.accepts row.1 row.2.1 row.2.2.1 row.2.2.2.1).map
      releaseOf) := by
  have hrows : filterBinaryPackagesBy f db =
      ((latestRows db).filter fun row => f.accepts row.1 row.2.1 row.2.2.1 row.2.2.2.1).map
        fun row => (row.1, row.2.1, row.2.2.2.1, row.2.2.2.2) := by
    simp only [filterBinaryPackagesBy, latestRows, List.bind_eq_flatMap, List.pure_def,
      List.filter_flatMap, List.map_flatMap]
    refine List.flatMap_congr fun p _ => List.flatMap_congr fun s _ => List.flatMap_congr fun b _ => ?_
    rw [latest_join h b.id (fun r1 a => r1.any (·.id == a.rebuildId) && a.name == p.name)
      (f.accepts p s b) fun r1 a => (p, s, r1, a)]
    split
    · rename_i hok
      simp [joinedArtifacts, List.filter_map, Function.comp_def, hok]
    · rename_i hno
      simp [List.filter_map, Function.comp_def, hno]
  rw [listPkgs, notModified_none, hrows, List.map_map]
  rfl

/-- The filter on the status of a rebuild. -/
lemma accepts_status {p : BinaryPackage} {s : SourcePackage} {b : BuildInput} {r1 : Option Rebuild} :
    (f.withStatus (some status)).accepts p s b r1 = ((f.withStatus none).accepts p s b none &&
      ((r1.bind (·.status)).getD .unknown == status.toBuild)) := by
  unfold ListPkgs.accepts ListPkgs.withStatus
  dsimp only
  rw [Bool.and_true]
  congr 1
  rcases r1.bind (·.status) with _ | x
  · cases status <;> rfl
  · cases status <;> cases x <;> rfl

lemma toBuild_inj {s s' : ArtifactStatus} : s.toBuild = s'.toBuild ↔ s = s' := by
  cases s <;> cases s' <;> simp [ArtifactStatus.toBuild]

/-- One status selects as listed if the rebuild has it exactly when the artifact does. -/
lemma shows_all_iff (h : TimesKnown db) (f : ListPkgs) (status : ArtifactStatus) :
    listPkgs (f.withStatus (some status)) none db =
        (listPkgs (f.withStatus none) none db).map (fun ps => ps.filter (·.status == status)) ↔
      ∀ row ∈ latestRows db, (f.withStatus none).accepts row.1 row.2.1 row.2.2.1 none = true →
        ((row.2.2.2.1.bind (·.status)).getD .unknown = status.toBuild ↔
          (row.2.2.2.2.bind (·.status)).getD .unknown = status) := by
  have hfree (row : JoinedRow) : (f.withStatus none).accepts row.1 row.2.1 row.2.2.1 row.2.2.2.1 =
      (f.withStatus none).accepts row.1 row.2.1 row.2.2.1 none := rfl
  have hagree := map_filter_perm_filter_map_iff (g := releaseOf) (q := fun p => p.status == status)
    (p := fun row : JoinedRow => (row.2.2.2.1.bind (·.status)).getD .unknown == status.toBuild)
    (l := (latestRows db).filter fun row => (f.withStatus none).accepts row.1 row.2.1 row.2.2.1 none)
  have hrows (a : JoinedRow) : ((a.2.2.2.1.bind (·.status)).getD .unknown == status.toBuild) =
      ((releaseOf a).status == status) ↔ ((a.2.2.2.1.bind (·.status)).getD .unknown = status.toBuild ↔
        (a.2.2.2.2.bind (·.status)).getD .unknown = status) := by
    rw [Bool.eq_iff_iff, beq_iff_eq, beq_iff_eq]
    rfl
  simp only [List.mem_filter, and_imp, hrows, List.filter_filter] at hagree
  rw [listPkgs_latest h, listPkgs_latest h, Option.map_some, Option.some.injEq, ← hagree]
  simp only [accepts_status, hfree]
  constructor
  · intro heq
    rw [← heq]
    exact .of_eq (congrArg (List.map releaseOf) (List.filter_congr fun _ _ => Bool.and_comm _ _))
  · intro hperm
    have hall := hagree.mp hperm
    rw [List.filter_map, List.filter_filter]
    refine congrArg (List.map releaseOf) (List.filter_congr fun row hrow => ?_)
    cases hok : (f.withStatus none).accepts row.1 row.2.1 row.2.2.1 none
    · rw [Bool.false_and, Bool.and_false]
    · rw [Bool.true_and, Bool.and_true]
      exact (hrows row).mpr (hall row hrow hok)

end

/-- **The status filter selects what is listed exactly if the latest rebuild of every package has
the status of the package's artifact.** -/
theorem selectsListed_iff (env : Env) (db : Db) (h : Reachable env db) (f : ListPkgs) :
    SelectsListed f db ↔ StatusesAgree f db := by
  have htimes := reachable_timesKnown h
  constructor
  · intro hall p hp s hs hsid b hb hbid hok r hr a ha
    have hrow : (p, s, b, some r, a) ∈ latestRows db :=
      mem_latestRows.mpr ⟨hp, ⟨hs, hsid⟩, ⟨hb, hbid⟩, hr.eq, hr.eq ▸ ha⟩
    have hstatus := (shows_all_iff htimes f ((a.bind (·.status)).getD .unknown)).mp (hall _) _ hrow hok
    exact hstatus.mpr rfl
  · intro hagree status
    refine (shows_all_iff htimes f status).mpr fun row hrow hok => ?_
    obtain ⟨p, s, b, r1, a⟩ := row
    obtain ⟨hp, ⟨hs, hsid⟩, ⟨hb, hbid⟩, hr1, ha⟩ := mem_latestRows.mp hrow
    dsimp only at *
    rcases r1 with _ | r
    · -- Without a rebuild there is no artifact.
      rw [← hr1] at ha
      have hnone : a = none := by simpa [joinedArtifacts, leftJoin] using ha
      rw [hnone]
      cases status <;> simp [ArtifactStatus.toBuild]
    · have hlatest : IsLatest db b.id (some r) := hr1 ▸ isLatest_latestRebuild db b.id
      rw [Option.bind_some, hagree p hp s hs hsid b hb hbid hok r hlatest a (hr1 ▸ ha), toBuild_inj]

theorem selectsListed_iff_oneArtifact :
    SelectsListed noFilter (oneArtifact.foldl (served (openDaemon none)) (openDaemon none).start) ↔
      StatusesAgree noFilter (oneArtifact.foldl (served (openDaemon none)) (openDaemon none).start) :=
  selectsListed_iff (openDaemon none) _ (reachable_of_runs (Runs.of_forall fun _ _ => trivial)) noFilter

/-- The rebuild of a package fails, so there is no artifact. -/
def failedBuild : List Request :=
  atOnce [.submitPackageReport adminHeaders (debianReport [packageWith "hello" ["hello"]]),
    .requestWork (workerHeaders "alice") ⟨["debian"], "amd64", ["amd64"]⟩,
    .submitRebuildReport (workerHeaders "alice") ⟨1, 0, [1], .fail, []⟩]

/-- **A failed build is listed as unknown, but not if one asks for the unknown ones.** -/
theorem failedBuild_notSelected :
    ¬ ∀ env db, Reachable env db → ∀ f, SelectsListed f db := by
  intro h
  have hreach : Reachable (openDaemon none)
      (failedBuild.foldl (served (openDaemon none)) (openDaemon none).start) :=
    reachable_of_runs (Runs.of_forall fun _ _ => trivial)
  have hselects := h (openDaemon none) _ hreach noFilter .unknown
  revert hselects
  decide +kernel

end Rebuilderd.Daemon
