import Rebuilderd.Tools.ReportGroups
import Rebuilderd.Tools.Stanzas

/-!
When the import of Debian indices panics.

The URL of a group is made when the first artifact of a source package is listed. It slices one byte
off the name of the source, or four if the name begins with `lib`.
-/

namespace Rebuilderd.Tools.Debian

open Rebuilderd.Common Rebuilderd.Lib

def SourcePkgBucket.importUncompressedSourcePackageFile (sources : SourcePkgBucket)
    (bytes : Bytes) : Except Err SourcePkgBucket := do
  return (← extractPkgsUncompressed bytes).foldl SourcePkgBucket.push sources

/-- The sources are imported, and then the binary packages. -/
def importIndices (sources binaries : Bytes) (release component : String) (sync : PkgsSync) :
    Except Err SyncState := do
  let sources ← SourcePkgBucket.importUncompressedSourcePackageFile ∅ sources
  SyncState.new.importUncompressedBinaryPackageFile binaries sources release component sync

/-- The name begins with a character of one byte, and if with `lib`, then another one of one byte
comes next. -/
def Sliceable (base : String) : Prop :=
  (∃ c cs, base.toList = c :: cs ∧ c.utf8Size = 1) ∧
    ("lib".toList <+: base.toList → ∃ c cs, base.toList = "lib".toList ++ c :: cs ∧ c.utf8Size = 1)

/-- Every source package under which a binary package is listed can be sliced. -/
def AllSliceable (sources binaries : Bytes) (sync : PkgsSync) : Prop :=
  ∀ srcs pkgs, extractPkgsUncompressed sources = .ok srcs →
    extractPkgsUncompressed binaries = .ok pkgs → ∀ pkg ∈ pkgs, ∀ src,
      listedSource (srcs.foldl SourcePkgBucket.push ∅) sync pkg = some src → Sliceable src.base

/-! ### Slices -/

section
variable {src : DebianSourcePkg} {arch : String} {artifact : BinaryPackageReport}
  {gs : List SourcePackageReport}

lemma sliceTo_one {s : Text} :
    (∃ slice, Text.sliceTo 1 s = some slice) ↔ ∃ c cs, s = c :: cs ∧ c.utf8Size = 1 := by
  cases s with
  | nil => simp [Text.sliceTo]
  | cons c cs =>
    have hpos := c.utf8Size_pos
    have hzero : Text.sliceTo 0 cs = some [] := by cases cs <;> rfl
    simp only [Text.sliceTo, one_ne_zero, if_false, List.cons.injEq]
    by_cases hc : c.utf8Size ≤ 1
    · have hone : c.utf8Size = 1 := by omega
      simp [hone, hzero]
    · rw [if_neg hc]
      refine iff_of_false (by simp) ?_
      rintro ⟨c', cs', ⟨rfl, rfl⟩, hone⟩
      omega

lemma sliceTo_four {s : Text} : (∃ slice, Text.sliceTo 4 ("lib".toList ++ s) = some slice) ↔
    ∃ slice, Text.sliceTo 1 s = some slice := by
  change (∃ slice, (((Text.sliceTo 1 s).map ('b' :: ·)).map ('i' :: ·)).map ('l' :: ·) = some slice) ↔ _
  rcases Text.sliceTo 1 s with _ | slice <;> simp

lemma buildinfoPath_ok_iff : (∃ path, src.buildinfoPath = .ok path) ↔ Sliceable src.base := by
  have hpath : (∃ path, src.buildinfoPath = .ok path) ↔ ∃ slice, Text.sliceTo
      (if "lib".toList.isPrefixOf src.base.toList then 4 else 1) src.base.toList = some slice := by
    unfold DebianSourcePkg.buildinfoPath
    dsimp only
    generalize Text.sliceTo _ _ = slice
    cases slice <;> simp
  rw [hpath, Sliceable]
  by_cases hlib : "lib".toList <+: src.base.toList
  · obtain ⟨rest, hrest⟩ := hlib
    rw [if_pos (List.isPrefixOf_iff_prefix.mpr ⟨rest, hrest⟩), ← hrest, sliceTo_four, sliceTo_one]
    constructor
    · rintro ⟨c, cs, rfl, hc⟩
      exact ⟨⟨'l', _, rfl, by decide⟩, fun _ => ⟨c, cs, rfl, hc⟩⟩
    · rintro ⟨-, h⟩
      obtain ⟨c, cs, heq, hc⟩ := h (List.prefix_append _ _)
      exact ⟨c, cs, List.append_cancel_left heq, hc⟩
  · have hnot : "lib".toList.isPrefixOf src.base.toList = false := by
      rw [← Bool.not_eq_true, List.isPrefixOf_iff_prefix]
      exact hlib
    rw [hnot, if_neg Bool.false_ne_true, sliceTo_one]
    exact (and_iff_left fun h => absurd h hlib).symm

lemma buildinfoUrl_ok (h : Sliceable src.base) : ∃ url, src.buildinfoUrl arch = .ok url := by
  obtain ⟨path, hpath⟩ := buildinfoPath_ok_iff.mpr h
  unfold DebianSourcePkg.buildinfoUrl
  rw [hpath]
  exact ⟨_, rfl⟩

lemma buildinfoUrl_panic (h : ¬ Sliceable src.base) : src.buildinfoUrl arch = .error .panic := by
  have hpath : src.buildinfoPath = .error .panic := by
    rcases hpath : src.buildinfoPath with e | path
    · unfold DebianSourcePkg.buildinfoPath at hpath
      dsimp only at hpath
      split at hpath
      · cases hpath
      · rw [← hpath]
    · exact absurd (buildinfoPath_ok_iff.mp ⟨path, hpath⟩) h
  unfold DebianSourcePkg.buildinfoUrl
  rw [hpath]
  rfl

/-! ### Imports -/

lemma addArtifact_sliceable (h : Sliceable src.base) :
    ∃ gs', SyncState.addArtifact src arch artifact gs = .ok gs' := by
  induction gs with
  | nil =>
    obtain ⟨url, hurl⟩ : ∃ url, src.buildinfoUrl arch = .ok url := buildinfoUrl_ok h
    change ∃ gs', (src.buildinfoUrl arch >>= _) = _
    rw [hurl]
    exact ⟨_, rfl⟩
  | cons g gs ih =>
    rw [addArtifact_cons]
    split
    · exact ⟨_, rfl⟩
    · obtain ⟨gs', hgs'⟩ := ih
      rw [hgs']
      exact ⟨_, rfl⟩

/-- A source that cannot be sliced has no group yet. -/
lemma addArtifact_panic (h : ¬ Sliceable src.base) (hgs : ∀ g ∈ gs, Sliceable g.name) :
    SyncState.addArtifact src arch artifact gs = .error .panic := by
  induction gs with
  | nil =>
    change (src.buildinfoUrl arch >>= _) = _
    rw [buildinfoUrl_panic h]
    rfl
  | cons g gs ih =>
    obtain ⟨hg, hgs⟩ := List.forall_mem_cons.mp hgs
    have hne : sourceKey g ≠ src.key := fun heq => h ((Prod.mk.inj heq).1 ▸ hg)
    rw [addArtifact_cons, if_neg hne, ih hgs]
    rfl

end

section
variable {sources : SourcePkgBucket} {release component : String} {sync : PkgsSync}
  {state state' : SyncState} {pkg : DebianBinPkg} {src : DebianSourcePkg}

/-- The groups that have been made have names that can be sliced. -/
def GroupsSliceable (state : SyncState) : Prop :=
  ∀ k, ∀ g ∈ (state.report k).packages, Sliceable g.name

lemma GroupsSliceable.importBinaryPkg (h : GroupsSliceable state)
    (hok : SyncState.importBinaryPkg sources release component sync state pkg = .ok state') :
    GroupsSliceable state' ∧ ∀ src, listedSource sources sync pkg = some src → Sliceable src.base := by
  rcases hsrc : listedSource sources sync pkg with _ | src
  · rw [importBinaryPkg_none hsrc] at hok
    cases hok
    exact ⟨h, by simp⟩
  · obtain ⟨gs, hadd, hpackages⟩ := importBinaryPkg_ok hsrc hok
    have hsliceable : Sliceable src.base := by
      by_contra hnot
      rw [addArtifact_panic hnot (h _)] at hadd
      cases hadd
    refine ⟨fun k => ?_, by simpa using hsliceable⟩
    rw [hpackages]
    split
    · -- The names are those of the groups before, and the new one.
      have hnames : ∀ x ∈ gs.map sourceKey, Sliceable x.1 := by
        have hold : ∀ x ∈ (state.report ⟨release, component, pkg.architecture⟩).packages.map sourceKey,
            Sliceable x.1 := List.forall_mem_map.mpr fun g hg => h _ g hg
        rcases (addArtifact_ok (x := src.key) hadd).2 with ⟨hkeys, -⟩ | ⟨hkeys, -⟩
        · rw [hkeys]
          exact hold
        · rw [hkeys]
          exact List.forall_mem_append.mpr ⟨hold, List.forall_mem_singleton.mpr hsliceable⟩
      exact fun g hg => hnames _ (List.mem_map_of_mem hg)
    · exact h k

lemma importBinaryPkg_sliceable
    (h : ∀ src, listedSource sources sync pkg = some src → Sliceable src.base) :
    ∃ state', SyncState.importBinaryPkg sources release component sync state pkg = .ok state' := by
  rcases hsrc : listedSource sources sync pkg with _ | src
  · exact ⟨state, importBinaryPkg_none hsrc⟩
  · obtain ⟨gs, hgs⟩ : ∃ gs, SyncState.addArtifact src pkg.architecture (artifactOf sync pkg)
        (state.report ⟨release, component, pkg.architecture⟩).packages = .ok gs :=
      addArtifact_sliceable (h src hsrc)
    rw [importBinaryPkg_some hsrc, hgs]
    exact ⟨_, rfl⟩

lemma importBinaryPkg_panic (hstate : GroupsSliceable state)
    (h : listedSource sources sync pkg = some src) (hsrc : ¬ Sliceable src.base) :
    SyncState.importBinaryPkg sources release component sync state pkg = .error .panic := by
  rw [importBinaryPkg_some h, addArtifact_panic hsrc (hstate _)]
  rfl

/-- The import of packages panics at the first one whose source cannot be sliced. -/
lemma importBinaryPkgs_iff {pkgs : List DebianBinPkg} (hstate : GroupsSliceable state) :
    pkgs.foldlM (SyncState.importBinaryPkg sources release component sync) state ≠ .error .panic ↔
      ∀ pkg ∈ pkgs, ∀ src, listedSource sources sync pkg = some src → Sliceable src.base := by
  induction pkgs generalizing state with
  | nil => exact iff_of_true (fun h => by cases h) (by simp)
  | cons pkg pkgs ih =>
    rw [List.foldlM_cons, List.forall_mem_cons]
    by_cases hpkg : ∀ src, listedSource sources sync pkg = some src → Sliceable src.base
    · obtain ⟨state', hok⟩ : ∃ state', SyncState.importBinaryPkg sources release component sync state
          pkg = .ok state' := importBinaryPkg_sliceable hpkg
      rw [hok, and_iff_right hpkg]
      exact ih (hstate.importBinaryPkg hok).1
    · refine iff_of_false (not_not.mpr ?_) fun h => hpkg h.1
      push Not at hpkg
      obtain ⟨src, hsrc, hnot⟩ := hpkg
      rw [importBinaryPkg_panic hstate hsrc hnot]
      rfl

end

/-! ### Indices -/

/-- The parser fails, but it does not panic. -/
lemma extract_ne_panic {α : Type} [AnyhowTryFrom α] (hα : Requires α) (bytes : Bytes) :
    (extractPkgsUncompressed bytes : Except Err (List α)) ≠ .error .panic := by
  unfold extractPkgsUncompressed
  rcases hdecode : decodeUtf8 bytes with e | text
  · unfold decodeUtf8 at hdecode
    split at hdecode
    · cases hdecode
    · cases hdecode
      exact fun h => by cases h
  · change extractLines 0 {} [] (Text.lines text) ≠ _
    rw [extractLines_eq]
    rcases parse_stanzas hα ((Text.lines text).splitOn []).dropLast with ⟨h, -⟩ | ⟨⟨news, h, -⟩, -⟩
    · rw [h]
      exact fun h => by cases h
    · rw [h]
      exact fun h => by cases h

/-- **The import of a source index and a binary index panics exactly if a binary package is listed
under a source package whose name cannot be sliced.** -/
theorem neverPanics_iff (sources binaries : Bytes) (release component : String) (sync : PkgsSync) :
    importIndices sources binaries release component sync ≠ .error .panic ↔
      AllSliceable sources binaries sync := by
  unfold importIndices SourcePkgBucket.importUncompressedSourcePackageFile AllSliceable
  have hsources := extract_ne_panic requires_source sources
  rcases hsrcs : extractPkgsUncompressed sources with e | srcs
  · rw [hsrcs] at hsources
    refine iff_of_true (fun h => hsources ?_) (by simp)
    cases h
    rfl
  · have hbinaries := extract_ne_panic requires_bin binaries
    change SyncState.importPkgs _ (extractPkgsUncompressed binaries) _ _ _ _ ≠ _ ↔ _
    rcases hpkgs : extractPkgsUncompressed binaries with e | pkgs
    · rw [hpkgs] at hbinaries
      refine iff_of_true (fun h => hbinaries ?_) (by simp)
      cases h
      rfl
    · have hstate : GroupsSliceable (SyncState.new.createAllReleaseGroups release component sync) := by
        intro k g hg
        rw [report_createAllReleaseGroups] at hg
        exact absurd hg List.not_mem_nil
      refine (importBinaryPkgs_iff hstate).trans ?_
      simp

lemma eq_error_of_map {α : Type} {x : Except Err α} {e : Err}
    (h : x.map (fun _ => ()) = .error e) : x = .error e := by
  rcases x with e' | a
  · cases h
    rfl
  · cases h

/-- A source index with a package of the name `lib`. -/
def libSources : Bytes := encodeUtf8
  "Package: lib\nBinary: lib\nVersion: 1\nDirectory: pool\nArchitecture: any\n\n".toList

def libBinaries : Bytes := encodeUtf8
  "Package: lib\nVersion: 1\nArchitecture: amd64\nFilename: lib.deb\n\n".toList

def libSync : PkgsSync :=
  ⟨"debian", ["main"], "https://debian", ["amd64"], false, [], ["trixie"], [], [], none, none⟩

/-- **A source package with the name `lib` makes the import panic.** -/
theorem lib_panics : ¬ ∀ (sources binaries : Bytes) (release component : String) (sync : PkgsSync),
    importIndices sources binaries release component sync ≠ .error .panic := fun h =>
  h libSources libBinaries "trixie" "main" libSync (eq_error_of_map (by decide +kernel))

end Rebuilderd.Tools.Debian
