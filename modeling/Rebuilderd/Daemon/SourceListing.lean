import Rebuilderd.Lib.PageBorders
import Rebuilderd.Daemon.Pagination
import Rebuilderd.Daemon.LatestRebuild
import Rebuilderd.Daemon.Recording

/-!
The listing of the source packages, which has a record for each of their build inputs.

Its id is that of the source package. The cursor passes all records of an id, so that a page must
not end between two of them.
-/

namespace Rebuilderd.Daemon

open Rebuilderd.Lib Rebuilderd.Common

/-! ### Filters -/

structure FreshnessFilter where
  seenOnly : Option Bool

structure StatusFilter where
  status : Option (List String)

def FreshnessFilter.accepts (f : FreshnessFilter) (s : SourcePackage) : Bool :=
  s.seenInLastSync == f.seenOnly.getD true

/-- The text of a status in the database. -/
def statusText : BuildStatus → String
  | .good => "GOOD"
  | .bad => "BAD"
  | .fail => "FAIL"
  | .unknown => "UNKWN"

/-- Upper case, of the letters the texts of the statuses are made of: an `ı` becomes an `I`. -/
def toUppercase (s : String) : String := s.map fun c => if c == 'ı' then 'I' else c.toUpper

/-- A rebuild with the status `UNKWN` is not found by that text, which stands for no rebuild. -/
def StatusFilter.accepts (f : StatusFilter) (status : Option BuildStatus) : Bool :=
  match f.status with
  | none => true
  | some statuses =>
    if statuses.isEmpty then true
    else
      let statusValues := statuses.map toUppercase
      let hasUnkwn := statusValues.any (· == "UNKWN")
      let otherStatuses := statusValues.filter (· != "UNKWN")
      let other := status.any fun s => otherStatuses.contains (statusText s)
      if hasUnkwn && !otherStatuses.isEmpty then status.isNone || other
      else if hasUnkwn then status.isNone
      else other

structure SourceFilters where
  origin : OriginFilter
  identity : SourceIdentityFilter
  freshness : FreshnessFilter
  status : StatusFilter

/-! ### The listing -/

/-- The records the filters select. -/
def sourceRecords (f : SourceFilters) (db : Db) : List SourcePackageRecord :=
  ((sourcePackagesRows db).filter fun (s, b, r1) =>
    OriginFilter.accepts f.origin s b.architecture && SourceIdentityFilter.accepts f.identity s &&
      f.freshness.accepts s && f.status.accepts (r1.bind (·.status))).map sourcePackageRecord

def recordId (r : SourcePackageRecord) : ℤ := r.id

/-- The columns of `source_packages_base`; the id of the rebuild has no name of its own. -/
def sourceColumn : String → Option (SourcePackageRecord → Option SqlValue)
  | "id" => some fun r => some (Sum.inlₗ r.id)
  | "name" => some fun r => some (Sum.inrₗ r.name)
  | "version" => some fun r => some (Sum.inrₗ r.version)
  | "distribution" => some fun r => some (Sum.inrₗ r.distribution)
  | "release" => some fun r => r.release.map Sum.inrₗ
  | "component" => some fun r => r.component.map Sum.inrₗ
  | "status" => some fun r => r.status.map fun s => Sum.inrₗ (statusText s)
  | "last_seen" => some fun r => some (Sum.inrₗ (String.ofList (stored r.lastSeen)))
  | "seen_in_last_sync" => some fun r => some (Sum.inlₗ (if r.seenInLastSync then 1 else 0))
  | _ => none

/-- `SELECT count(*)`, with the same filters. -/
def sourceTotal (f : SourceFilters) (db : Db) : ℕ := (sourceRecords f db).length

def getSourcePackages (shuffle : Shuffle SourcePackageRecord) (page : Page) (f : SourceFilters)
    (db : Db) : Except QueryError (ResultPage SourcePackageRecord) := do
  let records ← paginate recordId sourceColumn page (shuffle.order (sourceRecords f db))
  return ⟨sourceTotal f db, records⟩

/-- Request `k` of a walk over the source packages. -/
def sourcePage (shuffle : ℕ → Shuffle SourcePackageRecord) (f : SourceFilters) (limit : ℤ) (db : Db)
    (k : ℕ) (cursor : Option ℤ) : Option (List SourcePackageRecord) :=
  (getSourcePackages (shuffle k)
    { limit := some limit, before := none, after := cursor, sort := none, direction := none }
    f db).toOption.map (·.records)

lemma sourcePage_eq (shuffle : ℕ → Shuffle SourcePackageRecord) (f : SourceFilters) {limit : ℤ}
    (h : 1 ≤ limit) (db : Db) (k : ℕ) (cursor : Option ℤ) :
    sourcePage shuffle f limit db k cursor =
      some ((orderBy recordId (((shuffle k).order (sourceRecords f db)).filter fun r =>
        cursor.all fun c => decide (c < recordId r))).take limit.toNat) := by
  simp [sourcePage, getSourcePackages, paginate, limitRows_some h, Except.toOption, pure, Except.pure,
    bind, Except.bind]

/-- **When a walk over the source packages is lossless**: exactly if no page ends between two
records of one source package. -/
theorem sourceWalk_lossless_iff (shuffle : ℕ → Shuffle SourcePackageRecord) (f : SourceFilters)
    {limit : ℤ} (h : 1 ≤ limit) (db : Db) :
    ∃ result, Yields (sourcePage shuffle f limit db) recordId result ∧
      (result.length = sourceTotal f db ↔
        Aligned recordId limit.toNat (sourceRecords f db)) ∧
      (result.Perm (sourceRecords f db) ↔
        Aligned recordId limit.toNat (sourceRecords f db)) := by
  refine yields_rows_iff (by omega) fun k cursor =>
    ⟨_, sourcePage_eq shuffle f h db k cursor, ?_, orderBy_sorted _ _⟩
  exact (orderBy_perm _ _).trans (((shuffle k).perm _).filter _)

/-! ### Two architectures -/

def allSources : SourceFilters :=
  ⟨⟨none, none, none, none⟩, ⟨none, .exact, none⟩, ⟨none⟩, ⟨none⟩⟩

/-- `hello` is imported for two architectures. -/
def twoArchitectures : List Request :=
  [(.submitPackageReport adminHeaders (debianReport [package "hello" "https://hello"]), fun _ => 0),
    (.submitPackageReport adminHeaders
      { debianReport [package "hello" "https://hello"] with architecture := "arm64" }, fun _ => 0)]

theorem sourceWalk_lossless_iff_twoArchitectures :
    ∃ result, Yields (sourcePage (fun _ => unshuffled) allSources 1000
        (twoArchitectures.foldl (served (openDaemon none)) (openDaemon none).start)) recordId result ∧
      (result.length = sourceTotal allSources
          (twoArchitectures.foldl (served (openDaemon none)) (openDaemon none).start) ↔
        Aligned recordId 1000 (sourceRecords allSources
          (twoArchitectures.foldl (served (openDaemon none)) (openDaemon none).start))) ∧
      (result.Perm (sourceRecords allSources
          (twoArchitectures.foldl (served (openDaemon none)) (openDaemon none).start)) ↔
        Aligned recordId 1000 (sourceRecords allSources
          (twoArchitectures.foldl (served (openDaemon none)) (openDaemon none).start))) :=
  sourceWalk_lossless_iff (fun _ => unshuffled) allSources (by decide) _

/-- **In pages of one, the second architecture is never shown.** -/
theorem twoArchitectures_lossy : ¬ ∀ env db, Reachable env db → ∀ f limit, 1 ≤ limit →
    ∃ result, Yields (sourcePage (fun _ => unshuffled) f limit db) recordId result ∧
      result.length = sourceTotal f db := by
  intro h
  obtain ⟨result, hyields, hlength⟩ := h (openDaemon none) _
    (reachable_of_runs (Runs.of_forall fun _ _ => trivial) :
      Reachable (openDaemon none) (twoArchitectures.foldl (served (openDaemon none)) (openDaemon none).start))
    allSources 1 le_rfl
  have hone : (walk (sourcePage (fun _ => unshuffled) allSources 1
      (twoArchitectures.foldl (served (openDaemon none)) (openDaemon none).start)) recordId 2 0 none).map
        (·.flatten.length) = some 1 := by decide +kernel
  obtain ⟨pages, hpages, hlengths⟩ := Option.map_eq_some_iff.mp hone
  have hresult : Yields (sourcePage (fun _ => unshuffled) allSources 1
      (twoArchitectures.foldl (served (openDaemon none)) (openDaemon none).start)) recordId pages.flatten :=
    ⟨pages, ⟨2, hpages⟩, rfl⟩
  rw [hyields.unique hresult, hlengths] at hlength
  exact absurd hlength (by decide +kernel)

end Rebuilderd.Daemon
