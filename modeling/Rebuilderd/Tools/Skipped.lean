import Rebuilderd.Tools.Scopes

/-!
What a Debian sync reports when downloads fail.

An index that cannot be fetched is skipped. But every index that is fetched creates the groups of
all configured architectures of its release and component, also of those whose index is missing.
-/

namespace Rebuilderd.Tools.Debian

open Rebuilderd.Common Rebuilderd.Lib

/-- The binary index was fetched. -/
def fetched (ds : List (Download Index)) (k : GroupKey) : Bool :=
  ds.any fun d => d.what == .packages k && d.result.isOk

/-- A report is made only if the index of its architecture was fetched. -/
def NoneEmptied (reports : List PackageReport) (ds : List (Download Index)) : Prop :=
  ∀ r ∈ reports, ∃ k : GroupKey, r.scope = k.scope ∧ fetched ds k = true

/-- Of each release and component, the indices of all architectures are fetched or none. -/
def allOrNone (sync : PkgsSync) (ds : List (Download Index)) : Bool :=
  ds.all fun d => match d.what with
    | .packages k => !d.result.isOk ||
        sync.architectures.all fun arch => fetched ds ⟨k.release, k.component, arch⟩
    | .sources _ _ => true

/-- The groups are those of the configured architectures of which some index was fetched. -/
def GroupsOf (sync : PkgsSync) (state : SyncState) (ds : List (Download Index)) : Prop :=
  ∀ k, k ∈ state.reports ↔ k.architecture ∈ sync.architectures ∧
    ∃ arch, fetched ds ⟨k.release, k.component, arch⟩ = true

/-! ### Groups -/

section
variable {sync : PkgsSync} {state state' : SyncState} {k k' : GroupKey}

lemma mem_createReleaseGroup : k' ∈ (state.createReleaseGroup k).reports ↔
    k' = k ∨ k' ∈ state.reports := by
  unfold SyncState.createReleaseGroup
  split
  · rename_i hk
    exact ⟨.inr, fun h => h.elim (fun h => h ▸ hk) id⟩
  · exact AList.mem_insert _

lemma mem_createAllReleaseGroups {release component : String} :
    k ∈ (state.createAllReleaseGroups release component sync).reports ↔
      (k.release = release ∧ k.component = component ∧ k.architecture ∈ sync.architectures) ∨
        k ∈ state.reports := by
  unfold SyncState.createAllReleaseGroups
  induction sync.architectures generalizing state with
  | nil => simp
  | cons arch architectures ih =>
    rw [List.foldl_cons, ih, mem_createReleaseGroup, List.mem_cons]
    have hkey : k = ⟨release, component, arch⟩ ↔
        k.release = release ∧ k.component = component ∧ k.architecture = arch := by
      cases k
      simp
    rw [hkey]
    tauto

lemma mem_push {src : DebianSourcePkg} {bin : DebianBinPkg} {source release component : String}
    (h : state.push src bin source release component = .ok state') :
    k ∈ state'.reports ↔ k = ⟨release, component, bin.architecture⟩ ∨ k ∈ state.reports := by
  unfold SyncState.push at h
  simp only [bind, Except.bind] at h
  split at h
  · cases h
  · cases h
    rw [SyncState.setPackages, AList.mem_replace, mem_createReleaseGroup]

/-- The import of a package creates no group. -/
lemma mem_importBinaryPkg {sources : SourcePkgBucket} {release component : String}
    {pkg : DebianBinPkg} (h : SyncState.importBinaryPkg sources release component sync state pkg =
      .ok state') (hall : ∀ arch ∈ sync.architectures, (⟨release, component, arch⟩ : GroupKey) ∈ state.reports) :
    k ∈ state'.reports ↔ k ∈ state.reports := by
  unfold SyncState.importBinaryPkg at h
  split at h
  · cases h
    rfl
  · rename_i hpkg
    rw [Bool.or_eq_true, not_or, Bool.not_eq_true', Bool.not_eq_true', Bool.not_eq_false,
      Bool.not_eq_false, List.contains_iff_mem] at hpkg
    split at h
    · rw [mem_push h]
      exact ⟨fun hk => hk.elim (fun hk => hk ▸ hall _ hpkg.2) id, .inr⟩
    · cases h
      rfl

/-- The import of an index creates the groups of all architectures. -/
lemma mem_importPkgs {pkgs : Except Err (List DebianBinPkg)} {sources : SourcePkgBucket}
    {release component : String}
    (h : state.importPkgs pkgs sources release component sync = .ok state') :
    k ∈ state'.reports ↔
      (k.release = release ∧ k.component = component ∧ k.architecture ∈ sync.architectures) ∨
        k ∈ state.reports := by
  unfold SyncState.importPkgs at h
  rcases pkgs with e | pkgs
  · cases h
  · change pkgs.foldlM _ _ = _ at h
    have hkept : ∀ k, k ∈ state'.reports ↔
        k ∈ (state.createAllReleaseGroups release component sync).reports := by
      refine foldlM_ok (I := fun _ (st : SyncState) => ∀ k, k ∈ st.reports ↔
        k ∈ (state.createAllReleaseGroups release component sync).reports) h (fun _ => Iff.rfl)
        fun done pkg st st' _ hst hok => ?_
      intro k
      have hall (arch : String) (harch : arch ∈ sync.architectures) :
          (⟨release, component, arch⟩ : GroupKey) ∈ st.reports :=
        (hst _).mpr (mem_createAllReleaseGroups.mpr (.inl ⟨rfl, rfl, harch⟩))
      rw [mem_importBinaryPkg hok hall, hst]
    rw [hkept, mem_createAllReleaseGroups]

end

/-! ### Downloads -/

section
variable {env : Env} {sync : PkgsSync} {ds ds' : List (Download Index)}

lemma fetched_append {d : Download Index} {k : GroupKey} : fetched (ds ++ [d]) k = true ↔
    fetched ds k = true ∨ (d.what = .packages k ∧ d.result.isOk = true) := by
  simp [fetched]

/-- A round of the loop over the architectures. -/
lemma groupsOf_architecture {sources : SourcePkgBucket} {release component arch : String}
    {state state' : SyncState} (hg : GroupsOf sync state ds)
    (h : syncArchitecture env sync sources release component state arch ds = .ok (state', ds')) :
    GroupsOf sync state' ds' := by
  obtain ⟨result, ds₁, hfetch, h⟩ := bind_ok.mp h
  have hds := fetch_ok hfetch
  rcases result with e | bytes
  · obtain ⟨rfl, rfl⟩ := pure_ok.mp h
    intro k
    rw [hg, hds]
    simp [fetched_append, Except.isOk, Except.toBool]
  · obtain ⟨himport, rfl⟩ := orFail_ok.mp h
    intro k
    rw [mem_importPkgs himport, hg, hds]
    simp only [fetched_append, Index.packages.injEq, GroupKey.mk.injEq, Except.isOk, Except.toBool,
      and_true, exists_or]
    constructor
    · rintro (⟨rfl, rfl, harch⟩ | ⟨harch, hfetched⟩)
      · exact ⟨harch, .inr ⟨arch, rfl, rfl, rfl⟩⟩
      · exact ⟨harch, .inl hfetched⟩
    · rintro ⟨harch, hfetched | ⟨_, hrelease, hcomponent, -⟩⟩
      · exact .inr ⟨harch, hfetched⟩
      · exact .inl ⟨hrelease.symm, hcomponent.symm, harch⟩

/-- A round of the loop over the components. -/
lemma groupsOf_component {release component : String} {x x' : SourcePkgBucket × SyncState}
    (hg : GroupsOf sync x.2 ds) (h : syncComponent env sync release x component ds = .ok (x', ds')) :
    GroupsOf sync x'.2 ds' := by
  simp only [syncComponent, bind_ok, orFail_ok, pure_ok] at h
  obtain ⟨result, ds₁, hfetch, bytes, ds₂, ⟨-, rfl⟩, sources, ds₃, ⟨-, rfl⟩, state, ds₄, hloop, rfl,
    rfl⟩ := h
  have hds := fetch_ok hfetch
  refine loop_ok (I := fun _ state ds => GroupsOf sync state ds) hloop ?_
    fun done arch st ds st' ds' _ hst hok => groupsOf_architecture hst hok
  intro k
  rw [hg, hds]
  simp [fetched_append]

/-- The reports of a sync are those of its groups. -/
lemma exists_groups {reports : List PackageReport}
    (h : Debian.sync env sync [] = .ok (reports, ds)) :
    ∃ state, GroupsOf sync state ds ∧
      ∀ k : GroupKey, (∃ r ∈ reports, r.scope = k.scope) ↔ k ∈ state.reports := by
  simp only [Debian.sync, bind_ok, pure_ok] at h
  obtain ⟨state, ds₁, hloop, rfl, rfl⟩ := h
  refine ⟨state, ?_, fun k => ?_⟩
  · refine loop_ok (I := fun _ state ds => GroupsOf sync state ds) hloop ?_
      fun done release st ds st' ds' _ hst hok => ?_
    · intro k
      simp [SyncState.new, fetched]
    · simp only [syncRelease, bind_ok, pure_ok] at hok
      obtain ⟨x, ds₂, hcomponents, rfl, rfl⟩ := hok
      exact loop_ok (I := fun _ (x : SourcePkgBucket × SyncState) ds => GroupsOf sync x.2 ds)
        hcomponents hst fun done component x ds x' ds' _ hx hok => groupsOf_component hx hok
  · have hmem (r : PackageReport) : r ∈ state.toVec env.order ↔
        ∃ e ∈ state.reports.entries, e.2 = r :=
      (env.order.perm _).mem_iff.trans List.mem_map
    constructor
    · rintro ⟨r, hr, hscope⟩
      obtain ⟨e, he, rfl⟩ := (hmem r).mp hr
      have hkey : e.1.scope = k.scope := (state.scope e he).symm.trans hscope
      rw [← GroupKey.scope_injective hkey]
      exact AList.mem_keys.mpr (List.mem_map.mpr ⟨e, he, rfl⟩)
    · intro hk
      obtain ⟨e, he, rfl⟩ := List.mem_map.mp (AList.mem_keys.mp hk)
      exact ⟨e.2, (hmem _).mpr ⟨e, he, rfl⟩, state.scope e he⟩

/-- **A failed download empties no scope exactly if, of each release and component, the indices of
all architectures are fetched or none.** -/
theorem noneEmptied_iff (env : Env) (sync : PkgsSync) (reports : List PackageReport)
    (ds : List (Download Index)) (h : Debian.sync env sync [] = .ok (reports, ds)) :
    NoneEmptied reports ds ↔ allOrNone sync ds = true := by
  obtain ⟨state, hgroups, hreports⟩ := exists_groups h
  constructor
  · intro hnone
    refine List.all_eq_true.mpr fun d hd => ?_
    rcases hwhat : d.what with ⟨release, component⟩ | k
    · rfl
    · dsimp only
      rw [Bool.or_eq_true, Bool.not_eq_true', ← Bool.not_eq_true, ← imp_iff_not_or]
      intro hresult
      refine List.all_eq_true.mpr fun arch harch => ?_
      have hfetched : fetched ds k = true :=
        List.any_eq_true.mpr ⟨d, hd, by simp [hwhat, hresult]⟩
      -- The other index was fetched, so there is a group for this architecture too.
      obtain ⟨r, hr, hscope⟩ := (hreports ⟨k.release, k.component, arch⟩).mpr
        ((hgroups _).mpr ⟨harch, k.architecture, hfetched⟩)
      obtain ⟨k', hscope', hfetched'⟩ := hnone r hr
      rwa [← GroupKey.scope_injective (hscope'.symm.trans hscope)]
  · intro hall r hr
    obtain ⟨k, hk⟩ := (yields_debian env _ _ _ h).2 r hr
    obtain ⟨harch, arch, hfetched⟩ := (hgroups k).mp ((hreports k).mp ⟨r, hr, hk⟩)
    refine ⟨k, hk, ?_⟩
    obtain ⟨d, hd, hd'⟩ := List.any_eq_true.mp hfetched
    simp only [Bool.and_eq_true, beq_iff_eq] at hd'
    have hround := List.all_eq_true.mp hall d hd
    simp only [hd'.1, hd'.2, Bool.not_true, Bool.false_or, List.all_eq_true] at hround
    exact hround k.architecture harch

end

/-! ### An index that cannot be fetched -/

/-- The mirror answers with empty indices, but fails from download number `n` on. -/
def emptyMirror (n : ℕ) : Env where
  mirror ds _ := if ds.length < n then .ok [] else .error .io
  order := .inserted
  xz := .ok

def trixieSync : PkgsSync where
  distro := "debian"
  components := ["main"]
  source := "https://debian"
  architectures := ["amd64", "arm64"]
  printJson := false
  maintainers := []
  releases := ["trixie"]
  pkgs := []
  excludes := []
  syncMethod := none
  githubToken := none

/-- The downloads of the sync, with what came back for the last index. -/
def trixieDownloads (last : Except Err Bytes) : List (Download Index) :=
  [⟨.sources "trixie" "main", "https://debian/dists/trixie/main/source/Sources.xz", .ok []⟩,
    ⟨.packages ⟨"trixie", "main", "amd64"⟩,
      "https://debian/dists/trixie/main/binary-amd64/Packages.xz", .ok []⟩,
    ⟨.packages ⟨"trixie", "main", "arm64"⟩,
      "https://debian/dists/trixie/main/binary-arm64/Packages.xz", last⟩]

/-- The reports of the sync: one for each architecture. -/
def trixieReports : List PackageReport :=
  ["arm64", "amd64"].map fun arch => emptyReport ⟨"trixie", "main", arch⟩

theorem noneEmptied_allFetched :
    NoneEmptied trixieReports (trixieDownloads (.ok [])) ↔
      allOrNone trixieSync (trixieDownloads (.ok [])) = true :=
  noneEmptied_iff (emptyMirror 3) trixieSync trixieReports (trixieDownloads (.ok []))
    (by decide +kernel)

/-- **An index that cannot be fetched empties its architecture** if that of another one can be: the
daemon marks a package of `arm64` as unseen and drops its job. -/
theorem failedIndex_empties :
    (¬ ∀ (env : Env) (sync : PkgsSync) (reports : List PackageReport) (ds : List (Download Index)),
      Debian.sync env sync [] = .ok (reports, ds) → NoneEmptied reports ds) ∧
      (let hello : SourcePackageReport :=
        ⟨"hello", "1.0", "https://hello", [⟨"hello", "1.0", "arm64", "https://hello.deb"⟩], none,
          none, none⟩
      let before := { emptyReport ⟨"trixie", "main", "arm64"⟩ with packages := [hello] }
      let after := (([before] ++ trixieReports).map fun r =>
          (((Daemon.adminHeaders, r), fun _ => 0) : Daemon.Submission)).foldl
        (Daemon.Syncs.submit (Daemon.openDaemon none)) (.start (Daemon.openDaemon none))
      after.db.binaryPackages.rows.map (·.seenInLastSync) = [false] ∧ after.db.queue.rows = []) := by
  refine ⟨fun h => ?_, by decide +kernel⟩
  have hnone := h (emptyMirror 2) trixieSync trixieReports (trixieDownloads (.error .io))
    (by decide +kernel)
  obtain ⟨k, hk, hfetched⟩ := hnone (emptyReport ⟨"trixie", "main", "arm64"⟩) (by decide)
  rw [← GroupKey.scope_injective (show GroupKey.scope ⟨"trixie", "main", "arm64"⟩ = k.scope from hk)]
    at hfetched
  revert hfetched
  decide

end Rebuilderd.Tools.Debian
