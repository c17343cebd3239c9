import Rebuilderd.Tools.ReportGroups

/-!
The artifacts that a Debian sync lists.

A package is listed under its own architecture, whichever index it was found in. The indices of a
release and component are imported one after the other, and what is in two of them is listed twice.
-/

namespace Rebuilderd.Tools.Debian

open Rebuilderd.Common Rebuilderd.Lib

/-- The packages of an index, if it can be read. -/
def packagesIn {α : Type} [AnyhowTryFrom α] (env : Env) (bytes : Bytes) : List α :=
  (extractPkgsCompressed env bytes).toOption.getD []

/-- The source packages of a release that are known after the downloads. -/
def knownSources (env : Env) (release : String) : List (Download Index) → SourcePkgBucket :=
  List.foldl (fun sources d =>
    match d.what, d.result with
    | .sources r _, .ok bytes =>
      if r = release then (packagesIn env bytes).foldl SourcePkgBucket.push sources else sources
    | _, _ => sources) ∅

/-- The import of a binary index. -/
structure Import where
  release : String
  component : String
  sources : SourcePkgBucket
  pkgs : List DebianBinPkg

/-- The import that a download leads to. -/
def importOf (env : Env) (before : List (Download Index)) (d : Download Index) : Option Import :=
  match d.what, d.result with
  | .packages k, .ok bytes =>
    some ⟨k.release, k.component, knownSources env k.release before, packagesIn env bytes⟩
  | _, _ => none

def importsFrom (env : Env) (before : List (Download Index)) : List (Download Index) → List Import
  | [] => []
  | d :: ds => (importOf env before d).toList ++ importsFrom env (before ++ [d]) ds

def importsOf (env : Env) (ds : List (Download Index)) : List Import := importsFrom env [] ds

def Import.pushes (sync : PkgsSync) (i : Import) : List Push :=
  i.pkgs.filterMap (pushOf i.sources i.release i.component sync)

/-- No group lists an artifact twice. -/
def NoDuplicates (reports : List PackageReport) : Prop :=
  ∀ r ∈ reports, ∀ g ∈ r.packages, (g.artifacts.map fun a => (a.name, a.version, a.url)).Nodup

/-- Every package that is chosen and has a known source is listed under it. -/
def AllListed (env : Env) (sync : PkgsSync) (reports : List PackageReport)
    (ds : List (Download Index)) : Prop :=
  ∀ i ∈ importsOf env ds, ∀ pkg ∈ i.pkgs, ∀ src, listedSource i.sources sync pkg = some src →
    ∃ r ∈ reports, r.scope = GroupKey.scope ⟨i.release, i.component, pkg.architecture⟩ ∧
      ∃ g ∈ r.packages, sourceKey g = src.key ∧ artifactOf sync pkg ∈ g.artifacts

/-- No index has a package twice. -/
def OncePerIndex (env : Env) (ds : List (Download Index)) : Prop :=
  ∀ i ∈ importsOf env ds, (i.pkgs.map fun p => (p.name, p.version, p.architecture)).Nodup

/-- No package is listed from two indices for the same report, source package and URL. -/
def Apart (env : Env) (sync : PkgsSync) (ds : List (Download Index)) : Prop :=
  (importsOf env ds).Pairwise fun i j => (i.pushes sync).Disjoint (j.pushes sync)

/-! ### The imports of a run -/

section
variable {env : Env} {sync : PkgsSync} {ds ds' : List (Download Index)} {release component : String}

lemma importsFrom_concat (before ds : List (Download Index)) (d : Download Index) :
    importsFrom env before (ds ++ [d]) =
      importsFrom env before ds ++ (importOf env (before ++ ds) d).toList := by
  induction ds generalizing before with
  | nil => simp [importsFrom]
  | cons d' ds ih =>
    rw [List.cons_append, importsFrom, ih, importsFrom, List.append_assoc, List.append_assoc,
      List.singleton_append]

lemma importsOf_concat (ds : List (Download Index)) (d : Download Index) :
    importsOf env (ds ++ [d]) = importsOf env ds ++ (importOf env ds d).toList := by
  rw [importsOf, importsFrom_concat, List.nil_append]
  rfl

/-- The state lists what the imports push. -/
def Lists (env : Env) (sync : PkgsSync) (state : SyncState) (ds : List (Download Index)) : Prop :=
  Holds ((importsOf env ds).flatMap (Import.pushes sync)) state

lemma lists_of_none {state : SyncState} {d : Download Index} (h : Lists env sync state ds)
    (hd : importOf env ds d = none) : Lists env sync state (ds ++ [d]) := by
  rw [Lists, importsOf_concat, hd, Option.toList_none, List.append_nil]
  exact h

lemma knownSources_concat (d : Download Index) (hd : ∀ component, d.what ≠ .sources release component) :
    knownSources env release (ds ++ [d]) = knownSources env release ds := by
  unfold knownSources
  rw [List.foldl_append, List.foldl_cons, List.foldl_nil]
  split
  · rename_i r component bytes hwhat _
    have hne : r ≠ release := by
      rintro rfl
      exact hd component hwhat
    exact if_neg hne
  · rfl

/-- A round of the loop over the architectures. -/
lemma lists_architecture {arch : String} {state state' : SyncState}
    (h : Lists env sync state ds)
    (hok : syncArchitecture env sync (knownSources env release ds) release component state arch ds =
      .ok (state', ds')) :
    Lists env sync state' ds' ∧ knownSources env release ds' = knownSources env release ds ∧
      ∃ d, ds' = ds ++ [d] ∧ ∀ r c, d.what ≠ .sources r c := by
  obtain ⟨result, ds₁, hfetch, hok⟩ := bind_ok.mp hok
  have hds := fetch_ok hfetch
  rcases result with e | bytes
  · obtain ⟨rfl, rfl⟩ := pure_ok.mp hok
    subst hds
    exact ⟨lists_of_none h rfl, knownSources_concat _ (by simp), _, rfl, by simp⟩
  · obtain ⟨himport, rfl⟩ := orFail_ok.mp hok
    subst hds
    refine ⟨?_, knownSources_concat _ (by simp), _, rfl, by simp⟩
    unfold SyncState.importCompressedBinaryPackageFile at himport
    rcases hpkgs : (extractPkgsCompressed env bytes : Except Err (List DebianBinPkg)) with e | pkgs
    · rw [hpkgs] at himport
      cases himport
    · rw [hpkgs] at himport
      have hlists := Holds.importPkgs h himport
      rw [Lists, importsOf_concat, List.flatMap_append]
      have himports : importOf env ds ⟨Index.packages ⟨release, component, arch⟩,
          Index.url sync.source (.packages ⟨release, component, arch⟩), .ok bytes⟩ =
            some ⟨release, component, knownSources env release ds, pkgs⟩ := by
        simp [importOf, packagesIn, hpkgs, Except.toOption]
      rw [himports, Option.toList_some, List.flatMap_singleton]
      exact hlists

/-- A round of the loop over the components. -/
lemma lists_component {x' : SourcePkgBucket × SyncState} {state : SyncState}
    (h : Lists env sync state ds)
    (hok : syncComponent env sync release (knownSources env release ds, state) component ds =
      .ok (x', ds')) :
    Lists env sync x'.2 ds' ∧ x'.1 = knownSources env release ds' ∧
      ∀ d ∈ ds', d ∈ ds ∨ ∀ r c, d.what = .sources r c → r = release := by
  simp only [syncComponent, bind_ok, orFail_ok, pure_ok] at hok
  obtain ⟨result, ds₁, hfetch, bytes, ds₂, ⟨rfl, rfl⟩, sources, ds₃, ⟨hsources, rfl⟩, state', ds₄, hloop,
    rfl, rfl⟩ := hok
  have hds := fetch_ok hfetch
  have hknown : sources = knownSources env release ds₁ := by
    unfold SourcePkgBucket.importCompressedSourcePackageFile at hsources
    rcases hpkgs : (extractPkgsCompressed env bytes : Except Err (List DebianSourcePkg)) with e | pkgs
    · rw [hpkgs] at hsources
      cases hsources
    · rw [hpkgs] at hsources
      cases hsources
      rw [hds]
      simp [knownSources, packagesIn, hpkgs, Except.toOption]
  subst hknown
  have hrun := loop_ok (I := fun _ state ds' => Lists env sync state ds' ∧
      knownSources env release ds' = knownSources env release ds₁ ∧
        ∀ d ∈ ds', d ∈ ds ∨ ∀ r c, d.what = .sources r c → r = release) hloop ?_
    fun done arch st ds st' ds' _ hst hstep => ?_
  · exact ⟨hrun.1, hrun.2.1.symm, hrun.2.2⟩
  · refine ⟨?_, rfl, fun d hd => ?_⟩
    · rw [hds]
      exact lists_of_none h rfl
    · rw [hds] at hd
      rcases List.mem_append.mp hd with hd | hd
      · exact .inl hd
      · rw [List.mem_singleton.mp hd]
        exact .inr fun r c hr => (Index.sources.inj hr).1.symm
  · obtain ⟨hlists, hsame, hold⟩ := hst
    rw [← hsame] at hstep
    obtain ⟨hlists', hsame', d, rfl, hd⟩ := lists_architecture hlists hstep
    refine ⟨hlists', hsame'.trans hsame, fun d' hd' => ?_⟩
    rcases List.mem_append.mp hd' with hd' | hd'
    · exact hold d' hd'
    · rw [List.mem_singleton.mp hd']
      exact .inr fun r c hr => absurd hr (hd r c)

/-- A round of the loop over the releases, of which none comes twice. -/
lemma lists_release {state state' : SyncState} (h : Lists env sync state ds)
    (hnew : ∀ d ∈ ds, ∀ c, d.what ≠ .sources release c)
    (hok : syncRelease env sync state release ds = .ok (state', ds')) :
    Lists env sync state' ds' ∧ ∀ d ∈ ds', d ∈ ds ∨ ∀ r c, d.what = .sources r c → r = release := by
  have hnone : knownSources env release ds = ∅ := by
    unfold knownSources
    refine List.foldlRecOn (motive := fun sources => sources = ∅) ds _ rfl fun sources hsources d hd => ?_
    rw [hsources]
    split
    · rename_i r component bytes hwhat _
      have hne : r ≠ release := by
        rintro rfl
        exact hnew d hd component hwhat
      exact if_neg hne
    · rfl
  simp only [syncRelease, bind_ok, pure_ok] at hok
  obtain ⟨x, ds₁, hloop, rfl, rfl⟩ := hok
  have hrun := loop_ok (I := fun _ (x : SourcePkgBucket × SyncState) ds' => Lists env sync x.2 ds' ∧
      x.1 = knownSources env release ds' ∧
        ∀ d ∈ ds', d ∈ ds ∨ ∀ r c, d.what = .sources r c → r = release) hloop
    ⟨h, hnone.symm, fun d hd => .inl hd⟩ fun done component x ds x' ds' _ hx hstep => ?_
  · exact ⟨hrun.1, hrun.2.2⟩
  · obtain ⟨hlists, hsources, hold⟩ := hx
    obtain ⟨sources, state⟩ := x
    obtain rfl : sources = knownSources env release ds := hsources
    obtain ⟨hlists', hsources', hold'⟩ := lists_component hlists hstep
    refine ⟨hlists', hsources', fun d hd => ?_⟩
    rcases hold' d hd with hd | hd
    · exact hold d hd
    · exact .inr hd

/-- The reports of a sync list what its imports push. -/
lemma exists_lists {reports : List PackageReport} (hreleases : sync.releases.Nodup)
    (h : Debian.sync env sync [] = .ok (reports, ds)) :
    ∃ state, Lists env sync state ds ∧ reports = state.toVec env.order := by
  simp only [Debian.sync, bind_ok, pure_ok] at h
  obtain ⟨state, ds₁, hloop, rfl, rfl⟩ := h
  refine ⟨state, ?_, rfl⟩
  -- That the releases so far are distinct is known at the end only.
  have hrun := loop_ok (I := fun done state ds => done.Nodup → Lists env sync state ds ∧
    ∀ d ∈ ds, ∀ r c, d.what = .sources r c → r ∈ done) hloop
    (fun _ => ⟨holds_new, by simp⟩) fun done release st ds st' ds' _ hst hstep hnodup => ?_
  · exact (hrun hreleases).1
  · obtain ⟨hdone, -, hdisjoint⟩ := List.nodup_append'.mp hnodup
    obtain ⟨hlists, hold⟩ := hst hdone
    have hnew : release ∉ done := fun hmem => hdisjoint hmem (List.mem_singleton.mpr rfl)
    obtain ⟨hlists', hold'⟩ := lists_release hlists
      (fun d hd c hc => hnew (hold d hd release c hc)) hstep
    refine ⟨hlists', fun d hd r c hc => ?_⟩
    rcases hold' d hd with hd | hd
    · exact List.mem_append_left _ (hold d hd r c hc)
    · exact List.mem_append_right _ (List.mem_singleton.mpr (hd r c hc))

end

/-! ### Duplicates -/

lemma nodup_iff_groups {α κ β : Type} [DecidableEq κ] {key : α → κ} {f : α → β} {l : List α} :
    (l.map fun a => (key a, f a)).Nodup ↔ ∀ k, ((l.filter fun a => key a = k).map f).Nodup := by
  simp only [List.Nodup, List.pairwise_map, List.pairwise_filter]
  simp only [List.pairwise_iff_getElem, ne_eq, Prod.mk.injEq, not_and, decide_eq_true_eq]
  constructor
  · intro h k i j hi hj hlt hki hkj
    exact h i j hi hj hlt (hki.trans hkj.symm)
  · intro h i j hi hj hlt hkey
    exact h _ i j hi hj hlt hkey rfl

section
variable {env : Env} {sync : PkgsSync} {ds : List (Download Index)} {state : SyncState}

/-- The reports are those of the keys. -/
lemma mem_toVec {r : PackageReport} : r ∈ state.toVec env.order ↔
    ∃ k ∈ state.reports, state.report k = r := by
  rw [SyncState.toVec, (env.order.perm _).mem_iff, List.mem_map]
  constructor
  · rintro ⟨e, he, rfl⟩
    refine ⟨e.1, AList.mem_keys.mpr (List.mem_map.mpr ⟨e, he, rfl⟩), ?_⟩
    have hlookup : state.reports.lookup e.1 = some e.2 := AList.mem_lookup_iff.mpr he
    rw [SyncState.report, hlookup]
    rfl
  · rintro ⟨k, hk, rfl⟩
    obtain ⟨r, hr⟩ := Option.isSome_iff_exists.mp (AList.lookup_isSome.mpr hk)
    refine ⟨⟨k, r⟩, AList.mem_lookup_iff.mp hr, ?_⟩
    rw [SyncState.report, hr]
    rfl

/-- A group is in a report that was made. -/
lemma mem_of_group {k : GroupKey} {g : SourcePackageReport} (h : g ∈ (state.report k).packages) :
    k ∈ state.reports := by
  by_contra hk
  rw [SyncState.report, AList.lookup_eq_none.mpr hk] at h
  exact absurd h List.not_mem_nil

/-- The pushes of an import are told apart by their reports, source packages, names, versions and
URLs. -/
lemma push_inj {i : Import} {x : Push} (hx : x ∈ i.pushes sync) :
    x.artifact.architecture = x.report.architecture := by
  obtain ⟨pkg, -, hpush⟩ := List.mem_filterMap.mp hx
  obtain ⟨src, -, rfl⟩ := Option.map_eq_some_iff.mp hpush
  rfl

/-- No group lists an artifact twice exactly if nothing was pushed twice. -/
lemma noDuplicates_iff {pushes : List Push} (h : Holds pushes state)
    (harch : ∀ x ∈ pushes, x.artifact.architecture = x.report.architecture) :
    NoDuplicates (state.toVec env.order) ↔ pushes.Nodup := by
  have hgroups : NoDuplicates (state.toVec env.order) ↔ ∀ k x,
      ((artifactsIn (state.report k).packages x).map fun a => (a.name, a.version, a.url)).Nodup := by
    constructor
    · intro hnodup k x
      rcases hfind : (state.report k).packages.find? fun g => sourceKey g == x with _ | g
      · simp [artifactsIn, hfind]
      · have hg := List.mem_of_find?_eq_some hfind
        rw [artifactsIn, hfind]
        exact hnodup _ (mem_toVec.mpr ⟨k, mem_of_group hg, rfl⟩) g hg
    · rintro hall r hr g hg
      obtain ⟨k, -, rfl⟩ := mem_toVec.mp hr
      rw [← artifactsIn_of_mem (h.distinct k) hg]
      exact hall k _
  have hsplit : (∀ k x, ((artifactsIn (state.report k).packages x).map fun a =>
      (a.name, a.version, a.url)).Nodup) ↔ ∀ key : GroupKey × String × String,
        ((pushes.filter fun p => (p.report, p.source) = key).map fun p =>
          (p.artifact.name, p.artifact.version, p.artifact.url)).Nodup := by
    simp only [Prod.forall (α := GroupKey), h.artifacts, List.map_map, Function.comp_def,
      Prod.mk.injEq (α := GroupKey)]
  rw [hgroups, hsplit, ← nodup_iff_groups]
  refine ⟨fun hnodup => hnodup.of_map, fun hnodup => hnodup.map_on fun x hx y hy heq => ?_⟩
  simp only [Prod.mk.injEq] at heq
  obtain ⟨⟨hreport, hsource⟩, hname, hversion, hurl⟩ := heq
  have hsame : x.artifact.architecture = y.artifact.architecture := by
    rw [harch x hx, harch y hy, hreport]
  obtain ⟨report, source, ⟨name, version, arch, url⟩⟩ := x
  obtain ⟨report', source', ⟨name', version', arch', url'⟩⟩ := y
  dsimp only at hreport hsource hname hversion hurl hsame
  rw [hreport, hsource, hname, hversion, hurl, hsame]

/-- An index that has each package once pushes nothing twice. -/
lemma nodup_pushes {i : Import}
    (h : (i.pkgs.map fun p => (p.name, p.version, p.architecture)).Nodup) : (i.pushes sync).Nodup := by
  refine (List.pairwise_map.mp h).filterMap _ fun pkg pkg' hne x hx y hy heq => hne ?_
  obtain ⟨src, -, rfl⟩ := Option.map_eq_some_iff.mp hx
  obtain ⟨src', -, rfl⟩ := Option.map_eq_some_iff.mp hy
  have hartifact := congrArg Push.artifact heq
  have hname := congrArg BinaryPackageReport.name hartifact
  have hversion := congrArg BinaryPackageReport.version hartifact
  have harch := congrArg (fun p => p.report.architecture) heq
  exact Prod.ext hname (Prod.ext hversion harch)

lemma allListed {reports : List PackageReport} (h : Lists env sync state ds)
    (hreports : reports = state.toVec env.order) : AllListed env sync reports ds := by
  intro i hi pkg hpkg src hsrc
  have hpush : ⟨⟨i.release, i.component, pkg.architecture⟩, src.key, artifactOf sync pkg⟩ ∈
      (importsOf env ds).flatMap (Import.pushes sync) := by
    refine List.mem_flatMap.mpr ⟨i, hi, List.mem_filterMap.mpr ⟨pkg, hpkg, ?_⟩⟩
    rw [pushOf, hsrc]
    rfl
  have hartifact : artifactOf sync pkg ∈
      artifactsIn (state.report ⟨i.release, i.component, pkg.architecture⟩).packages src.key := by
    rw [h.artifacts]
    exact List.mem_map.mpr ⟨_, List.mem_filter.mpr ⟨hpush, by simp⟩, rfl⟩
  obtain ⟨g, hg, hkey, hmem⟩ := exists_of_mem_artifactsIn hartifact
  refine ⟨_, hreports ▸ mem_toVec.mpr ⟨_, mem_of_group hg, rfl⟩, state.report_scope _, g, hg, hkey, hmem⟩

end

/-- **No artifact is listed twice exactly if no package is listed from two indices**, and every
package that is chosen and has a known source is listed. -/
theorem noDuplicateArtifacts_iff (env : Env) (sync : PkgsSync) (reports : List PackageReport)
    (ds : List (Download Index)) (hreleases : sync.releases.Nodup)
    (h : Debian.sync env sync [] = .ok (reports, ds)) (honce : OncePerIndex env ds) :
    NoDuplicates reports ∧ AllListed env sync reports ds ↔ Apart env sync ds := by
  obtain ⟨state, hlists, rfl⟩ := exists_lists hreleases h
  rw [and_iff_left (allListed hlists rfl), noDuplicates_iff hlists]
  · rw [List.nodup_flatMap]
    exact and_iff_right fun i hi => nodup_pushes (honce i hi)
  · rw [List.forall_mem_flatMap]
    exact fun i _ x hx => push_inj hx

/-- The documentation, in a binary index. -/
def docIndex : List String :=
  ["Package: hello-doc\n", "Source: hello\n", "Version: 1\n", "Architecture: all\n",
    "Filename: doc.deb\n", "\n"]

/-- The program, without its documentation. -/
def helloIndex : List String :=
  ["Package: hello\n", "Version: 1\n", "Architecture: amd64\n", "Filename: hello.deb\n", "\n"]

/-- A mirror with one source package, whose documentation is in the first binary index; the lines of
the second one are `amd64`. -/
def docMirror (amd64 : List String) : Env where
  mirror ds _ :=
    let index := match ds with
      | [] => ["Package: hello\n", "Binary: hello, hello-doc\n", "Version: 1\n", "Directory: pool\n",
          "Architecture: any all\n", "\n"]
      | [_] => docIndex
      | _ => amd64
    .ok (index.flatMap fun line => line.toUTF8.data.toList)
  order := .inserted
  xz := .ok

def docSync : PkgsSync where
  distro := "debian"
  components := ["main"]
  source := "https://debian"
  architectures := ["all", "amd64"]
  printJson := false
  maintainers := []
  releases := ["trixie"]
  pkgs := []
  excludes := []
  syncMethod := none
  githubToken := none

/-- What holds of the reports and the downloads of a sync that ends well. -/
lemma exists_run (amd64 : List String) {P : List PackageReport → List (Download Index) → Bool}
    (h : ((Debian.sync (docMirror amd64) docSync []).toOption.any fun x => P x.1 x.2) = true) :
    ∃ reports ds, Debian.sync (docMirror amd64) docSync [] = .ok (reports, ds) ∧
      P reports ds = true := by
  rcases hrun : Debian.sync (docMirror amd64) docSync [] with e | ⟨reports, ds⟩ <;> rw [hrun] at h
  · cases h
  · exact ⟨reports, ds, rfl, h⟩

instance (env : Env) (ds : List (Download Index)) : Decidable (OncePerIndex env ds) :=
  inferInstanceAs (Decidable (∀ _ ∈ _, _))

instance (reports : List PackageReport) : Decidable (NoDuplicates reports) :=
  inferInstanceAs (Decidable (∀ _ ∈ _, _))

/-- Two binary indices with a package each. -/
theorem noDuplicateArtifacts_doc : ∃ reports ds,
    Debian.sync (docMirror helloIndex) docSync [] = .ok (reports, ds) ∧
      (importsOf (docMirror helloIndex) ds).length = 2 ∧
      (NoDuplicates reports ∧ AllListed (docMirror helloIndex) docSync reports ds ↔
        Apart (docMirror helloIndex) docSync ds) := by
  obtain ⟨reports, ds, hsync, hrun⟩ := exists_run helloIndex (P := fun _ ds =>
    decide (OncePerIndex (docMirror helloIndex) ds ∧
      (importsOf (docMirror helloIndex) ds).length = 2)) (by decide +kernel)
  obtain ⟨honce, htwo⟩ := of_decide_eq_true hrun
  exact ⟨reports, ds, hsync, htwo, noDuplicateArtifacts_iff (docMirror helloIndex) docSync reports ds
    (by decide) hsync honce⟩

/-- **A package for all architectures is listed twice** when its index is synced next to that of
another architecture, which has it as well. -/
theorem docPackage_twice : ¬ ∀ (env : Env) (sync : PkgsSync) (reports : List PackageReport)
    (ds : List (Download Index)), sync.architectures.Nodup → sync.components.Nodup →
      sync.releases.Nodup → Debian.sync env sync [] = .ok (reports, ds) → OncePerIndex env ds →
        NoDuplicates reports ∧ AllListed env sync reports ds := by
  intro h
  obtain ⟨reports, ds, hsync, hrun⟩ := exists_run docIndex (P := fun reports ds =>
    decide (OncePerIndex (docMirror docIndex) ds ∧ ¬ NoDuplicates reports)) (by decide +kernel)
  obtain ⟨honce, htwice⟩ := of_decide_eq_true hrun
  exact htwice (h (docMirror docIndex) docSync reports ds (by decide) (by decide) (by decide) hsync
    honce).1

end Rebuilderd.Tools.Debian
