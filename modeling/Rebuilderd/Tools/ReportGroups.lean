import Rebuilderd.Tools.Debian

/-!
The groups of a Debian report.

Every binary package that is imported is pushed to the group of its source package in the report of
its own architecture. A group lists what was pushed to it, in the order of the pushes.
-/

namespace Rebuilderd.Tools.Debian

open Rebuilderd.Common Rebuilderd.Lib

/-! ### Reports of a state -/

section
variable {state : SyncState} {k k' : GroupKey}

lemma report_createReleaseGroup : (state.createReleaseGroup k).report k' = state.report k' := by
  unfold SyncState.createReleaseGroup
  split
  · rfl
  · rename_i hk
    unfold SyncState.report
    by_cases h : k' = k
    · subst h
      rw [AList.lookup_insert, AList.lookup_eq_none.mpr hk]
      rfl
    · rw [AList.lookup_insert_ne h]

lemma report_createAllReleaseGroups {release component : String} {sync : PkgsSync} :
    (state.createAllReleaseGroups release component sync).report k = state.report k := by
  unfold SyncState.createAllReleaseGroups
  induction sync.architectures generalizing state with
  | nil => rfl
  | cons arch architectures ih => rw [List.foldl_cons, ih, report_createReleaseGroup]

lemma packages_setPackages {packages : List SourcePackageReport} (hk : k ∈ state.reports) :
    ((state.setPackages k packages).report k').packages =
      if k' = k then packages else (state.report k').packages := by
  change ((((state.reports.replace k _).lookup k').getD (emptyReport k')).packages) = _
  rw [lookup_replace hk]
  by_cases h : k' = k
  · rw [if_pos h, if_pos h]
    rfl
  · rw [if_neg h, if_neg h]
    rfl

lemma mem_createReleaseGroup_self : k ∈ (state.createReleaseGroup k).reports := by
  unfold SyncState.createReleaseGroup
  split
  · assumption
  · exact (AList.mem_insert _).mpr (.inl rfl)

end

/-! ### Groups of a report -/

def sourceKey (g : SourcePackageReport) : String × String := (g.name, g.version)

def DebianSourcePkg.key (src : DebianSourcePkg) : String × String := (src.base, src.version)

/-- The artifacts of the group of a source package. -/
def artifactsIn (gs : List SourcePackageReport) (x : String × String) : List BinaryPackageReport :=
  ((gs.find? fun g => sourceKey g == x).map (·.artifacts)).getD []

section
variable {src : DebianSourcePkg} {arch : String} {artifact : BinaryPackageReport}
  {g : SourcePackageReport} {gs gs' : List SourcePackageReport} {x : String × String}

lemma addArtifact_cons : SyncState.addArtifact src arch artifact (g :: gs) =
    if sourceKey g = src.key then .ok ({ g with artifacts := g.artifacts ++ [artifact] } :: gs)
    else (g :: ·) <$> SyncState.addArtifact src arch artifact gs := by
  unfold SyncState.addArtifact
  rw [List.findIdx?_cons]
  by_cases h : sourceKey g = src.key
  · obtain ⟨hname, hversion⟩ := Prod.mk.inj h
    have hmatch : decide (src.base = g.name ∧ src.version = g.version) = true :=
      decide_eq_true ⟨hname.symm, hversion.symm⟩
    rw [hmatch, if_pos h]
    rfl
  · have hmatch : decide (src.base = g.name ∧ src.version = g.version) = false := by
      refine decide_eq_false fun hand => h ?_
      rw [sourceKey, DebianSourcePkg.key, hand.1, hand.2]
    rw [hmatch, if_neg h, if_neg Bool.false_ne_true]
    generalize List.findIdx? _ gs = found
    rcases found with _ | i
    · rcases src.buildinfoUrl arch with e | url <;> rfl
    · rfl

/-- A group that is there gets the artifact; else the group is made, with the URL of its source. -/
lemma addArtifact_ok (h : SyncState.addArtifact src arch artifact gs = .ok gs') :
    (artifactsIn gs' x = artifactsIn gs x ++ if src.key = x then [artifact] else []) ∧
      (gs'.map sourceKey = gs.map sourceKey ∧ src.key ∈ gs.map sourceKey ∨
        gs'.map sourceKey = gs.map sourceKey ++ [src.key] ∧ src.key ∉ gs.map sourceKey ∧
          ∃ url, src.buildinfoUrl arch = .ok url) := by
  induction gs generalizing gs' with
  | nil =>
    rcases hurl : src.buildinfoUrl arch with e | url
    · change (src.buildinfoUrl arch >>= _) = _ at h
      rw [hurl] at h
      cases h
    · change (src.buildinfoUrl arch >>= _) = _ at h
      rw [hurl] at h
      cases h
      refine ⟨?_, .inr ⟨rfl, by simp, url, rfl⟩⟩
      by_cases hx : src.key = x
      · simp [artifactsIn, sourceKey, ← hx, DebianSourcePkg.key]
      · have hfind : ((src.base, src.version) == x) = false := by simpa [DebianSourcePkg.key] using hx
        simp [artifactsIn, sourceKey, hfind, hx]
  | cons g gs ih =>
    rw [addArtifact_cons] at h
    by_cases hg : sourceKey g = src.key
    · rw [if_pos hg] at h
      cases h
      refine ⟨?_, .inl ⟨rfl, by simp [hg]⟩⟩
      by_cases hx : src.key = x
      · simp [artifactsIn, sourceKey, ← hx, ← hg]
      · have hfind : (sourceKey g == x) = false := by simpa [hg] using hx
        have hfind' : (sourceKey { g with artifacts := g.artifacts ++ [artifact] } == x) = false := hfind
        simp [artifactsIn, hfind, hfind', hx]
    · rw [if_neg hg] at h
      obtain ⟨gs₁, hgs₁, rfl⟩ : ∃ gs₁, SyncState.addArtifact src arch artifact gs = .ok gs₁ ∧
          g :: gs₁ = gs' := by
        rcases hadd : SyncState.addArtifact src arch artifact gs with e | gs₁
        · rw [hadd] at h
          cases h
        · rw [hadd] at h
          exact ⟨gs₁, rfl, Except.ok.inj h⟩
      obtain ⟨hartifacts, hkeys⟩ := ih hgs₁
      refine ⟨?_, ?_⟩
      · by_cases hx : sourceKey g = x
        · have hne : src.key ≠ x := fun heq => hg (hx.trans heq.symm)
          simp [artifactsIn, hx, hne]
        · have hfind : (sourceKey g == x) = false := by simpa using hx
          simpa [artifactsIn, hfind] using hartifacts
      · simp only [List.map_cons, List.mem_cons, Ne.symm hg, false_or, List.cons_append,
          List.cons.injEq, true_and]
        exact hkeys

lemma artifactsIn_of_mem (h : (gs.map sourceKey).Nodup) (hg : g ∈ gs) :
    artifactsIn gs (sourceKey g) = g.artifacts := by
  rcases hfind : gs.find? fun g' => sourceKey g' == sourceKey g with _ | g'
  · exact absurd (List.find?_eq_none.mp hfind g hg) (by simp)
  · have hkey : sourceKey g' = sourceKey g := by simpa using List.find?_some hfind
    obtain rfl := List.inj_on_of_nodup_map h (List.mem_of_find?_eq_some hfind) hg hkey
    rw [artifactsIn, hfind]
    rfl

lemma exists_of_mem_artifactsIn (h : artifact ∈ artifactsIn gs x) :
    ∃ g ∈ gs, sourceKey g = x ∧ artifact ∈ g.artifacts := by
  unfold artifactsIn at h
  rcases hfind : gs.find? fun g => sourceKey g == x with _ | g
  · rw [hfind] at h
    exact absurd h List.not_mem_nil
  · rw [hfind] at h
    exact ⟨g, List.mem_of_find?_eq_some hfind, by simpa using List.find?_some hfind, h⟩

end

/-! ### Pushes -/

/-- An artifact that is listed, in which report and under which source package. -/
structure Push where
  report : GroupKey
  source : String × String
  artifact : BinaryPackageReport
  deriving DecidableEq

/-- The source package under which a binary package is listed: it has to be of a configured
architecture, be chosen by the sync, and have a known source. -/
def listedSource (sources : SourcePkgBucket) (sync : PkgsSync) (pkg : DebianBinPkg) :
    Option DebianSourcePkg :=
  if !matchesSync pkg sync || !sync.architectures.contains pkg.architecture then none
  else (sources.get pkg).toOption

def artifactOf (sync : PkgsSync) (pkg : DebianBinPkg) : BinaryPackageReport :=
  ⟨pkg.name, pkg.version, pkg.architecture, sync.source ++ "/" ++ pkg.filename⟩

def pushOf (sources : SourcePkgBucket) (release component : String) (sync : PkgsSync)
    (pkg : DebianBinPkg) : Option Push :=
  (listedSource sources sync pkg).map fun src =>
    ⟨⟨release, component, pkg.architecture⟩, src.key, artifactOf sync pkg⟩

/-- The reports list the artifacts that were pushed, each source package once. -/
structure Holds (pushes : List Push) (state : SyncState) : Prop where
  distinct : ∀ k, ((state.report k).packages.map sourceKey).Nodup
  artifacts : ∀ k x, artifactsIn (state.report k).packages x =
    (pushes.filter fun p => p.report = k ∧ p.source = x).map (·.artifact)

section
variable {sources : SourcePkgBucket} {release component : String} {sync : PkgsSync}
  {state state' : SyncState} {pkg : DebianBinPkg} {src : DebianSourcePkg} {pushes : List Push}

lemma importBinaryPkg_none (h : listedSource sources sync pkg = none) :
    SyncState.importBinaryPkg sources release component sync state pkg = .ok state := by
  unfold listedSource at h
  unfold SyncState.importBinaryPkg
  split
  · rfl
  · rename_i hlisted
    rw [if_neg hlisted] at h
    rcases hget : sources.get pkg with e | src
    · rfl
    · rw [hget] at h
      cases h

lemma importBinaryPkg_some (h : listedSource sources sync pkg = some src) :
    SyncState.importBinaryPkg sources release component sync state pkg =
      ((state.createReleaseGroup ⟨release, component, pkg.architecture⟩).setPackages
        ⟨release, component, pkg.architecture⟩ ·) <$>
          SyncState.addArtifact src pkg.architecture (artifactOf sync pkg)
            (state.report ⟨release, component, pkg.architecture⟩).packages := by
  unfold listedSource at h
  unfold SyncState.importBinaryPkg
  split
  · rename_i hlisted
    rw [if_pos hlisted] at h
    cases h
  · rename_i hlisted
    rw [if_neg hlisted] at h
    rcases hget : sources.get pkg with e | src'
    · rw [hget] at h
      cases h
    · rw [hget] at h
      obtain rfl : src' = src := Option.some.inj h
      change (SyncState.addArtifact src' pkg.architecture (artifactOf sync pkg)
        ((state.createReleaseGroup ⟨release, component, pkg.architecture⟩).report
          ⟨release, component, pkg.architecture⟩).packages >>= _) = _
      rw [report_createReleaseGroup]
      rcases SyncState.addArtifact src' pkg.architecture (artifactOf sync pkg)
        (state.report ⟨release, component, pkg.architecture⟩).packages with e | gs <;> rfl

/-- What the import of a listed package does to the reports. -/
lemma importBinaryPkg_ok (h : listedSource sources sync pkg = some src)
    (hok : SyncState.importBinaryPkg sources release component sync state pkg = .ok state') :
    ∃ gs, SyncState.addArtifact src pkg.architecture (artifactOf sync pkg)
        (state.report ⟨release, component, pkg.architecture⟩).packages = .ok gs ∧
      ∀ k, (state'.report k).packages =
        if k = ⟨release, component, pkg.architecture⟩ then gs else (state.report k).packages := by
  rw [importBinaryPkg_some h] at hok
  rcases hadd : SyncState.addArtifact src pkg.architecture (artifactOf sync pkg)
    (state.report ⟨release, component, pkg.architecture⟩).packages with e | gs
  · rw [hadd] at hok
    cases hok
  · rw [hadd] at hok
    cases hok
    refine ⟨gs, rfl, fun k => ?_⟩
    rw [packages_setPackages mem_createReleaseGroup_self, report_createReleaseGroup]

/-- The import of a package adds its push. -/
lemma Holds.importBinaryPkg (h : Holds pushes state)
    (hok : SyncState.importBinaryPkg sources release component sync state pkg = .ok state') :
    Holds (pushes ++ (pushOf sources release component sync pkg).toList) state' := by
  rcases hsrc : listedSource sources sync pkg with _ | src
  · rw [importBinaryPkg_none hsrc] at hok
    cases hok
    simpa [pushOf, hsrc] using h
  · obtain ⟨gs, hadd, hpackages⟩ := importBinaryPkg_ok hsrc hok
    have hpush : pushOf sources release component sync pkg =
        some ⟨⟨release, component, pkg.architecture⟩, src.key, artifactOf sync pkg⟩ := by
      rw [pushOf, hsrc]
      rfl
    rw [hpush, Option.toList_some]
    refine ⟨fun k => ?_, fun k x => ?_⟩
    · rw [hpackages]
      split
      · rename_i hk
        rcases (addArtifact_ok (x := src.key) hadd).2 with ⟨hkeys, -⟩ | ⟨hkeys, hnew, -⟩
        · rw [hkeys]
          exact h.distinct _
        · rw [hkeys]
          exact List.nodup_append'.mpr ⟨h.distinct _, List.nodup_singleton _, by simpa using hnew⟩
      · exact h.distinct k
    · rw [hpackages, List.filter_append, List.map_append, ← h.artifacts]
      split
      · rename_i hk
        rw [(addArtifact_ok hadd).1, hk]
        by_cases hx : src.key = x <;> simp [hx]
      · rename_i hk
        simp [Ne.symm hk]

/-- The import of an index adds the pushes of its packages. -/
lemma Holds.importPkgs (h : Holds pushes state) {pkgs : List DebianBinPkg}
    (hok : state.importPkgs (.ok pkgs) sources release component sync = .ok state') :
    Holds (pushes ++ pkgs.filterMap (pushOf sources release component sync)) state' := by
  have hstart : Holds pushes (state.createAllReleaseGroups release component sync) := by
    refine ⟨fun k => ?_, fun k x => ?_⟩
    · rw [report_createAllReleaseGroups]
      exact h.distinct k
    · rw [report_createAllReleaseGroups]
      exact h.artifacts k x
  change pkgs.foldlM _ _ = _ at hok
  refine foldlM_ok (I := fun done st =>
    Holds (pushes ++ done.filterMap (pushOf sources release component sync)) st) hok
    (by simpa using hstart) fun done pkg st st' _ hst hstep => ?_
  have hnext := hst.importBinaryPkg hstep
  rw [List.filterMap_append, ← List.append_assoc]
  rcases hpush : pushOf sources release component sync pkg with _ | x <;> simpa [hpush] using hnext

lemma holds_new : Holds [] SyncState.new :=
  ⟨fun _ => List.nodup_nil, fun _ _ => rfl⟩

end

end Rebuilderd.Tools.Debian
