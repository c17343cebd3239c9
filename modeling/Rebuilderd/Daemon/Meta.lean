import Rebuilderd.Daemon.SourceListing
import Rebuilderd.Daemon.Compat

/-!
The endpoints to browse the releases of a distribution and the architectures of a component.

The query of the architectures reads the release of the path twice: once with `-` for NULL, and once
with the empty text for it. Both have to agree with the column.
-/

namespace Rebuilderd.Daemon

open Rebuilderd.Lib Rebuilderd.Common

/-! ### Endpoints -/

/-- `NO_RELEASE`. -/
def noRelease : String := "-"

def deriveRelease (release : String) : Option String := (some release).filter (· != noRelease)

def getDistributionReleases (distribution : String) (f : FreshnessFilter) (db : Db) :
    List (Option String) :=
  ((db.sourcePackages.rows.filter fun s => s.distribution == distribution && f.accepts s).map
    (·.release)).dedup

/-- A text of the path as a column; the empty one is NULL. -/
def isOrNull (text : String) (column : Option String) : Bool :=
  if text.isEmpty then column.isNone else column == some text

def getDistributionReleaseComponentArchitectures (distribution release component : String)
    (f : FreshnessFilter) (db : Db) : List String :=
  let rows : List String := do
    let s ← db.sourcePackages.rows.filter fun s => s.distribution == distribution &&
      s.release == deriveRelease release && s.component == some component &&
      isOrNull release s.release && isOrNull component s.component && f.accepts s
    let b ← db.buildInputs.rows.filter fun b => b.sourcePackageId == s.id
    return b.architecture
  rows.dedup

/-! ### What is browsed -/

/-- The build inputs of the component, with the release that is spelled so in the path. -/
def InComponent (distribution release component : String) (f : FreshnessFilter) (db : Db)
    (b : BuildInput) : Prop :=
  b ∈ db.buildInputs.rows ∧ ∃ s ∈ db.sourcePackages.rows, b.sourcePackageId = s.id ∧
    s.distribution = distribution ∧ s.release = (if release = "-" then none else some release) ∧
      s.component = some component ∧ s.seenInLastSync = f.seenOnly.getD true

/-- Exactly the architectures of these build inputs are returned, and each once. -/
structure ListsArchitectures (distribution release component : String) (f : FreshnessFilter)
    (db : Db) : Prop where
  nodup : (getDistributionReleaseComponentArchitectures distribution release component f db).Nodup
  mem_iff : ∀ a, a ∈ getDistributionReleaseComponentArchitectures distribution release component f db ↔
    ∃ b, InComponent distribution release component f db b ∧ b.architecture = a

section
variable {distribution release component : String} {f : FreshnessFilter} {db : Db}

/-- The two readings of the path agree. -/
def Consistent (release component : String) : Prop :=
  release ≠ "-" ∧ release ≠ "" ∧ component ≠ ""

lemma deriveRelease_eq (release : String) :
    deriveRelease release = if release = "-" then none else some release := by
  unfold deriveRelease noRelease
  split
  · rename_i h
    simp [h, Option.filter]
  · rename_i h
    simp [h, Option.filter]

/-- Both readings hold of a row that is meant if they agree, and of no row if they do not. -/
lemma readings_iff {s : SourcePackage} :
    (s.release = deriveRelease release ∧ s.component = some component ∧
      isOrNull release s.release = true ∧ isOrNull component s.component = true) ↔
      Consistent release component ∧
        s.release = (if release = "-" then none else some release) ∧ s.component = some component := by
  rw [deriveRelease_eq]
  unfold Consistent isOrNull
  constructor
  · rintro ⟨hr, hc, hr', hc'⟩
    rw [hr] at hr'
    rw [hc] at hc'
    have hcomponent : component ≠ "" := by
      rintro rfl
      exact absurd hc' (by decide)
    have hdash : release ≠ "-" := by
      rintro rfl
      exact absurd hr' (by decide)
    have hrelease : release ≠ "" := by
      rintro rfl
      exact absurd hr' (by decide)
    exact ⟨⟨hdash, hrelease, hcomponent⟩, hr, hc⟩
  · rintro ⟨⟨hdash, hrelease, hcomponent⟩, hr, hc⟩
    rw [hr, hc, if_neg hdash]
    simp [hrelease, hcomponent]

lemma mem_architectures {a : String} :
    a ∈ getDistributionReleaseComponentArchitectures distribution release component f db ↔
      Consistent release component ∧
        ∃ b, InComponent distribution release component f db b ∧ b.architecture = a := by
  simp only [getDistributionReleaseComponentArchitectures, List.mem_dedup, List.bind_eq_flatMap,
    List.pure_def, List.mem_flatMap, List.mem_filter, List.mem_singleton, Bool.and_eq_true,
    beq_iff_eq, FreshnessFilter.accepts]
  constructor
  · rintro ⟨s, ⟨hs, ⟨⟨⟨⟨hd, hr⟩, hc⟩, hr'⟩, hc'⟩, hseen⟩, b, ⟨hb, hbs⟩, rfl⟩
    obtain ⟨hcons, hr, hc⟩ := readings_iff.mp ⟨hr, hc, hr', hc'⟩
    exact ⟨hcons, b, ⟨hb, s, hs, hbs, hd, hr, hc, hseen⟩, rfl⟩
  · rintro ⟨hcons, b, ⟨hb, s, hs, hbs, hd, hr, hc, hseen⟩, rfl⟩
    obtain ⟨hr, hc, hr', hc'⟩ := readings_iff.mpr ⟨hcons, hr, hc⟩
    exact ⟨s, ⟨hs, ⟨⟨⟨⟨hd, hr⟩, hc⟩, hr'⟩, hc'⟩, hseen⟩, b, ⟨hb, hbs⟩, rfl⟩

lemma listsArchitectures_iff : ListsArchitectures distribution release component f db ↔
    Consistent release component ∨ ∀ b, ¬ InComponent distribution release component f db b := by
  constructor
  · intro h
    by_contra! hno
    obtain ⟨hcons, b, hb⟩ := hno
    exact hcons (mem_architectures.mp ((h.mem_iff b.architecture).mpr ⟨b, hb, rfl⟩)).1
  · intro h
    refine ⟨List.nodup_dedup _, fun a => ?_⟩
    rw [mem_architectures, and_iff_right_iff_imp]
    rintro ⟨b, hb, -⟩
    exact h.resolve_right fun hnone => hnone b hb

end

/-- **The architectures of a component are listed exactly if the path's release is not `-`, neither
the release nor the component is empty, or there are none.** -/
theorem architectures_listed_iff (distribution release component : String) (f : FreshnessFilter)
    (db : Db) : ListsArchitectures distribution release component f db ↔
      release ≠ "-" ∧ release ≠ "" ∧ component ≠ "" ∨
        ∀ b, ¬ InComponent distribution release component f db b :=
  listsArchitectures_iff

/-- A package of a distribution without named releases. -/
def unnamedRelease : List Request :=
  atOnce [.submitPackageReport adminHeaders
    ⟨"debian", none, some "main", "amd64", [packageWith "hello" ["hello"]]⟩]

/-- **The release `-` that stands for NULL has no architectures.** -/
theorem unnamedRelease_not_listed :
    ¬ ∀ env db, Reachable env db → ∀ distribution f,
      ∀ release ∈ getDistributionReleases distribution f db, ∀ component,
        ListsArchitectures distribution (release.getD "-") component f db := by
  intro h
  have hreach : Reachable (openDaemon none)
      (unnamedRelease.foldl (served (openDaemon none)) (openDaemon none).start) :=
    reachable_of_runs (Runs.of_forall fun _ _ => trivial)
  have hinput : ∃ b ∈ (unnamedRelease.foldl (served (openDaemon none)) (openDaemon none).start).buildInputs.rows,
      ∃ s ∈ (unnamedRelease.foldl (served (openDaemon none)) (openDaemon none).start).sourcePackages.rows,
        b.sourcePackageId = s.id ∧ s.distribution = "debian" ∧ s.release = none ∧
          s.component = some "main" ∧ s.seenInLastSync = true := by decide +kernel
  obtain ⟨b, hb, hs⟩ := hinput
  obtain hcons | hnone := listsArchitectures_iff.mp
    (h (openDaemon none) _ hreach "debian" ⟨none⟩ none (by decide +kernel) "main")
  · exact hcons.1 rfl
  · exact hnone b ⟨hb, hs⟩

end Rebuilderd.Daemon
