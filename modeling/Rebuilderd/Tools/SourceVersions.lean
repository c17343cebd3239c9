import Rebuilderd.Lib.Lines
import Rebuilderd.Tools.ReportGroups

/-!
The versions of source packages that are found for binary packages.

A binary package that was rebuilt has a suffix that its source package lacks. The lookup appends it
to the source package's version, whether the binary package names that version or not.
-/

namespace Rebuilderd.Lib.Text

variable {x y : Char}

lemma fromLast_eq_some {p s t : Text} (h : fromLast p s = some t) :
    ∃ front, s = front ++ t ∧ p <+: t := by
  induction s with
  | nil =>
    unfold fromLast at h
    split at h
    · rename_i hp
      cases h
      exact ⟨[], rfl, hp ▸ List.prefix_refl _⟩
    · cases h
  | cons c cs ih =>
    rw [fromLast] at h
    rcases hrest : fromLast p cs with _ | t'
    · rw [hrest, Option.none_or] at h
      split at h
      · rename_i hp
        cases h
        exact ⟨[], rfl, List.isPrefixOf_iff_prefix.mp hp⟩
      · cases h
    · rw [hrest, Option.some_or] at h
      cases h
      obtain ⟨front, rfl, hp⟩ := ih hrest
      exact ⟨c :: front, rfl, hp⟩

lemma fromLast_eq_none {s : Text} (h : y ∉ s) : fromLast [x, y] s = none := by
  rcases hlast : fromLast [x, y] s with _ | t
  · rfl
  · obtain ⟨front, rfl, hp⟩ := fromLast_eq_some hlast
    refine absurd (List.mem_append_right front (hp.subset ?_)) h
    simp

/-- The last pattern is the one after which its second character does not stand. -/
lemma fromLast_append (front : Text) {s : Text} (hxy : x ≠ y) (h : y ∉ s) :
    fromLast [x, y] (front ++ [x, y] ++ s) = some ([x, y] ++ s) := by
  induction front with
  | nil =>
    have hnone : fromLast [x, y] (y :: s) = none := by
      have hbegins : [x, y].isPrefixOf (y :: s) = false := isPrefixOf_ne hxy
      rw [fromLast, fromLast_eq_none h, hbegins]
      rfl
    have hbegins : [x, y].isPrefixOf (x :: y :: s) = true :=
      List.isPrefixOf_iff_prefix.mpr (List.prefix_append [x, y] s)
    change fromLast [x, y] (x :: y :: s) = _
    rw [fromLast, hnone, hbegins]
    rfl
  | cons c front ih =>
    rw [List.cons_append, List.cons_append, fromLast, ih, Option.some_or]

lemma not_mem_of_isU64 {s : Text} {c : Char} (h : isU64 s = true) (hc : c.isDigit = false)
    (hplus : c ≠ '+') : c ∉ s := by
  unfold isU64 at h
  simp only [Bool.and_eq_true, List.all_eq_true] at h
  intro hmem
  have hdigit : c ∈ (stripPrefix ['+'] s).getD s := by
    unfold stripPrefix
    split
    · rename_i hp
      obtain ⟨rest, rfl⟩ := List.isPrefixOf_iff_prefix.mp hp
      simpa [hplus] using hmem
    · exact hmem
  exact absurd (h.1.2 c hdigit) (by simp [hc])

end Rebuilderd.Lib.Text

namespace Rebuilderd.Tools.Debian

open Rebuilderd.Common Rebuilderd.Lib

/-! ### Suffixes of binary rebuilds -/

/-- The version of the source package that is looked up. -/
def VersionConstraint.version : VersionConstraint → String
  | .explicit version => version
  | .implicit version => version

def IsNumber (num : Text) : Prop := num ≠ [] ∧ ∀ c ∈ num, c.isDigit = true

/-- The version ends with `+b` and a number. -/
def EndsInRebuild (version suffix : Text) : Prop :=
  ∃ front num, version = front ++ suffix ∧ suffix = binNmuPrefix ++ num ∧ IsNumber num

/-- The suffix of the version, or nothing if it has none. -/
def RebuildSuffix (version suffix : Text) : Prop :=
  EndsInRebuild version suffix ∨ suffix = [] ∧ ∀ s, ¬ EndsInRebuild version s

/-- The version of the source package is the one that the binary package stands for, and if it does
not name one, it is listed under its own version. -/
structure VersionKept (sources : SourcePkgBucket) (pkg : DebianBinPkg) (src : DebianSourcePkg) :
    Prop where
  implicit : ∀ v, pkg.source.2 = .implicit v → src.version = pkg.version
  explicit : ∀ v, pkg.source.2 = .explicit v →
    ∃ suffix, RebuildSuffix pkg.version.toList suffix ∧ src.version = v ++ String.ofList suffix
  group : ∀ v, pkg.source.2 = .implicit v → ∀ release component sync state state',
    (listedSource sources sync pkg).isSome = true →
      SyncState.importBinaryPkg sources release component sync state pkg = .ok state' →
        ∃ g ∈ (state'.report ⟨release, component, pkg.architecture⟩).packages,
          g.name = src.base ∧ g.version = pkg.version ∧ artifactOf sync pkg ∈ g.artifacts

/-- Without a version of the source, the version does not end with `+b` and a number of 64 bits. With
one, what follows a `+b` is such a number if it is a number at all, and without a sign of its own. -/
def Regular (pkg : DebianBinPkg) : Prop :=
  (∀ v, pkg.source.2 = .implicit v → ∀ front num,
    pkg.version.toList = front ++ binNmuPrefix ++ num → Text.isU64 num = false) ∧
    ∀ v, pkg.source.2 = .explicit v → ∀ front num,
      pkg.version.toList = front ++ binNmuPrefix ++ num → (Text.isU64 num = true ↔ IsNumber num)

section
variable {sources : SourcePkgBucket} {pkg : DebianBinPkg} {src : DebianSourcePkg}
  {version suffix front num : Text}

lemma b_not_mem_of_isNumber (h : IsNumber num) : 'b' ∉ num :=
  fun hb => absurd (h.2 'b' hb) (by decide)

lemma b_not_mem_of_isU64 (h : Text.isU64 num = true) : 'b' ∉ num :=
  Text.not_mem_of_isU64 h (by decide) (by decide)

lemma binNmu_append (h : 'b' ∉ num) : SourcePkgBucket.binNmu (front ++ binNmuPrefix ++ num) =
    if Text.isU64 num then binNmuPrefix ++ num else [] := by
  have hlast : Text.fromLast binNmuPrefix (front ++ binNmuPrefix ++ num) =
      some (binNmuPrefix ++ num) := Text.fromLast_append front (by decide) h
  rw [SourcePkgBucket.binNmu, hlast]
  change (Option.filter (fun num => Text.isU64 (num.drop 2)) (some ('+' :: 'b' :: num))).getD [] = _
  rw [Option.filter_some]
  change (if Text.isU64 num = true then _ else none : Option Text).getD [] = _
  split <;> rfl

/-- The suffix that is found, if one is found. -/
lemma binNmu_ne_nil (h : SourcePkgBucket.binNmu version ≠ []) : ∃ front num,
    version = front ++ binNmuPrefix ++ num ∧ Text.isU64 num = true ∧
      SourcePkgBucket.binNmu version = binNmuPrefix ++ num := by
  unfold SourcePkgBucket.binNmu at h ⊢
  rcases hlast : Text.fromLast binNmuPrefix version with _ | t
  · rw [hlast] at h
    exact absurd rfl h
  · rw [hlast, Option.filter_some] at h
    split at h
    · rename_i hnum
      obtain ⟨front, rfl, num, rfl⟩ := Text.fromLast_eq_some hlast
      refine ⟨front, num, (List.append_assoc _ _ _).symm, hnum, ?_⟩
      rw [Option.filter_some, if_pos hnum]
      rfl
    · exact absurd rfl h

lemma binNmu_eq_nil_iff : SourcePkgBucket.binNmu version = [] ↔
    ∀ front num, version = front ++ binNmuPrefix ++ num → Text.isU64 num = false := by
  constructor
  · rintro h front num rfl
    refine Bool.not_eq_true _ ▸ fun hnum => ?_
    rw [binNmu_append (b_not_mem_of_isU64 hnum), if_pos hnum] at h
    cases h
  · intro h
    by_contra hne
    obtain ⟨front, num, hversion, hnum, -⟩ := binNmu_ne_nil hne
    rw [h front num hversion] at hnum
    cases hnum

/-- The suffix that is found is that of the version exactly if numbers and numbers of 64 bits are the
same after its `+b`. -/
lemma rebuildSuffix_binNmu_iff : RebuildSuffix version (SourcePkgBucket.binNmu version) ↔
    ∀ front num, version = front ++ binNmuPrefix ++ num →
      (Text.isU64 num = true ↔ IsNumber num) := by
  constructor
  · rintro h front num rfl
    constructor
    · intro hnum
      rw [binNmu_append (b_not_mem_of_isU64 hnum), if_pos hnum] at h
      rcases h with ⟨front', num', -, hnum', hnumber⟩ | ⟨hnil, -⟩
      · rwa [List.append_cancel_left hnum']
      · cases hnil
    · intro hnumber
      rw [binNmu_append (b_not_mem_of_isNumber hnumber)] at h
      split at h
      · assumption
      · rcases h with ⟨front', num', -, hnil, -⟩ | ⟨-, hnone⟩
        · cases hnil
        · exact absurd ⟨front, num, List.append_assoc _ _ _, rfl, hnumber⟩ (hnone (binNmuPrefix ++ num))
  · intro h
    by_cases hnil : SourcePkgBucket.binNmu version = []
    · rw [hnil]
      refine .inr ⟨rfl, ?_⟩
      rintro s ⟨front, num, rfl, rfl, hnumber⟩
      rw [← List.append_assoc] at h hnil
      have hnone := binNmu_eq_nil_iff.mp hnil front num rfl
      rw [(h front num rfl).mpr hnumber] at hnone
      cases hnone
    · obtain ⟨front, num, hversion, hnum, hsuffix⟩ := binNmu_ne_nil hnil
      rw [hsuffix]
      exact .inl ⟨front, num, by rw [hversion, List.append_assoc], rfl, (h front num hversion).mp hnum⟩

/-! ### Source packages of binary packages -/

lemma get_version (h : sources.get pkg = .ok src) : src.version =
    pkg.source.2.version ++ String.ofList (SourcePkgBucket.binNmu pkg.version.toList) := by
  change (required (sources.lookup pkg.source.1) >>= fun list =>
    required (list.find? (·.version = pkg.source.2.version)) >>= fun src => _) = _ at h
  rcases hlist : sources.lookup pkg.source.1 with _ | list
  · rw [hlist] at h
    cases h
  · rw [hlist] at h
    change (required (list.find? (·.version = pkg.source.2.version)) >>= fun src => _) = _ at h
    rcases hfind : list.find? (·.version = pkg.source.2.version) with _ | src'
    · rw [hfind] at h
      cases h
    · rw [hfind] at h
      cases h
      have hversion : src'.version = pkg.source.2.version := by
        simpa using List.find?_some hfind
      rw [← hversion]

lemma sourceOf_implicit {name version v : String} {source : Option String} {s : String}
    (h : sourceOf name version source = .ok (s, .implicit v)) : v = version := by
  rcases source with _ | source
  · cases h
    rfl
  · unfold sourceOf at h
    dsimp only at h
    split at h
    · cases h
      rfl
    · obtain ⟨_, -, h⟩ := except_bind_ok h
      cases h

/-- A binary package that is read from an index and names no version of its source has its own. -/
lemma implicit_version {new : NewPkg} (h : AnyhowTryFrom.tryFrom new = .ok pkg) {v : String}
    (hv : pkg.source.2 = .implicit v) : v = pkg.version := by
  obtain ⟨name, -, h⟩ := except_bind_ok h
  obtain ⟨version, -, h⟩ := except_bind_ok h
  obtain ⟨⟨s, constraint⟩, hsource, h⟩ := except_bind_ok h
  obtain ⟨architecture, -, h⟩ := except_bind_ok h
  obtain ⟨filename, -, h⟩ := except_bind_ok h
  cases h
  obtain rfl : constraint = .implicit v := hv
  exact sourceOf_implicit hsource

/-- A listed package is in the group of the source that was found for it. -/
lemma listed_in_group {release component : String} {sync : PkgsSync} {state state' : SyncState}
    (h : listedSource sources sync pkg = some src)
    (hok : SyncState.importBinaryPkg sources release component sync state pkg = .ok state') :
    ∃ g ∈ (state'.report ⟨release, component, pkg.architecture⟩).packages,
      sourceKey g = src.key ∧ artifactOf sync pkg ∈ g.artifacts := by
  obtain ⟨gs, hadd, hpackages⟩ := importBinaryPkg_ok h hok
  rw [hpackages, if_pos rfl]
  refine exists_of_mem_artifactsIn ?_
  rw [(addArtifact_ok hadd).1, if_pos rfl]
  exact List.mem_append_right _ (List.mem_singleton.mpr rfl)

lemma listedSource_eq {sync : PkgsSync} (hget : sources.get pkg = .ok src)
    (h : (listedSource sources sync pkg).isSome = true) : listedSource sources sync pkg = some src := by
  unfold listedSource at h ⊢
  split at h
  · cases h
  · rename_i hlisted
    rw [if_neg hlisted, hget]
    rfl

lemma append_eq_left {s t : String} : s ++ t = s ↔ t.toList = [] := by
  rw [← String.toList_inj, String.toList_append]
  simp

end

/-- **The version of the source package is right exactly if the binary package's version has no
suffix that the lookup takes for one of a rebuild**, if it names no version of its source; and if it
names one, exactly if such a suffix is `+b` and a number. -/
theorem versionKept_iff (sources : SourcePkgBucket) (new : NewPkg) (pkg : DebianBinPkg)
    (src : DebianSourcePkg) (hpkg : AnyhowTryFrom.tryFrom new = .ok pkg)
    (hget : sources.get pkg = .ok src) : VersionKept sources pkg src ↔ Regular pkg := by
  have hversion := get_version hget
  constructor
  · intro h
    refine ⟨fun v hv => ?_, fun v hv => ?_⟩
    · have hsame := h.implicit v hv
      rw [hversion, hv, VersionConstraint.version, implicit_version hpkg hv, append_eq_left,
        String.toList_ofList] at hsame
      exact binNmu_eq_nil_iff.mp hsame
    · obtain ⟨suffix, hsuffix, hsame⟩ := h.explicit v hv
      rw [hversion, hv, VersionConstraint.version, ← String.toList_inj, String.toList_append,
        String.toList_append, List.append_right_inj, String.toList_ofList,
        String.toList_ofList] at hsame
      exact rebuildSuffix_binNmu_iff.mp (hsame ▸ hsuffix)
  · rintro ⟨himplicit, hexplicit⟩
    have hkept (v : String) (hv : pkg.source.2 = .implicit v) : src.version = pkg.version := by
      rw [hversion, hv, VersionConstraint.version, implicit_version hpkg hv, append_eq_left,
        String.toList_ofList]
      exact binNmu_eq_nil_iff.mpr (himplicit v hv)
    refine ⟨hkept, fun v hv => ⟨_, rebuildSuffix_binNmu_iff.mpr (hexplicit v hv), ?_⟩, ?_⟩
    · rw [hversion, hv]
      rfl
    · intro v hv release component sync state state' hlisted hok
      obtain ⟨g, hg, hkey, hartifact⟩ := listed_in_group (listedSource_eq hget hlisted) hok
      obtain ⟨hname, hgroup⟩ := Prod.mk.inj hkey
      exact ⟨g, hg, hname, hgroup.trans (hkept v hv), hartifact⟩

/-- A source package and a binary package of it that names no version. -/
def bashSource (version : String) : DebianSourcePkg where
  base := "bash"
  binary := ["bash"]
  version := version
  directory := "pool/bash"
  architecture := "any"
  uploaders := []

def bashFields (version : String) : NewPkg :=
  { base := some "bash", version := some version, architecture := some "amd64",
    filename := some "bash.deb" }

def bashBin (version : String) : DebianBinPkg where
  name := "bash"
  version := version
  source := ("bash", .implicit version)
  architecture := "amd64"
  filename := "bash.deb"
  uploaders := []

def bashSources (version : String) : SourcePkgBucket :=
  SourcePkgBucket.push ∅ (bashSource version)

/-- A binary package that was rebuilt and names the version of its source. -/
def rebuiltBash : DebianBinPkg :=
  { bashBin "5.2-1+b1" with source := ("bash", .explicit "5.2-1") }

def rebuiltBashFields : NewPkg := { bashFields "5.2-1+b1" with source := some "bash (5.2-1)" }

theorem versionKept_bash :
    (VersionKept (bashSources "5.2-1") rebuiltBash (bashSource "5.2-1+b1") ↔ Regular rebuiltBash) ∧
      (VersionKept (bashSources "5.2-1") (bashBin "5.2-1") (bashSource "5.2-1") ↔
        Regular (bashBin "5.2-1")) :=
  ⟨versionKept_iff (bashSources "5.2-1") rebuiltBashFields rebuiltBash (bashSource "5.2-1+b1")
      (by decide +kernel) (by decide +kernel),
    versionKept_iff (bashSources "5.2-1") (bashFields "5.2-1") (bashBin "5.2-1")
      (bashSource "5.2-1") rfl (by decide +kernel)⟩

/-- **A source package whose own version ends with `+b1` gets that suffix twice.** -/
theorem suffix_twice : ¬ ∀ (sources : SourcePkgBucket) (new : NewPkg) (pkg : DebianBinPkg)
    (src : DebianSourcePkg), AnyhowTryFrom.tryFrom new = .ok pkg → sources.get pkg = .ok src →
      VersionKept sources pkg src := by
  intro h
  have hkept := h (bashSources "5.2-1+b1") (bashFields "5.2-1+b1") (bashBin "5.2-1+b1")
    (bashSource "5.2-1+b1+b1") rfl (by decide +kernel)
  exact absurd (hkept.implicit _ rfl) (by decide)

end Rebuilderd.Tools.Debian
