import Rebuilderd.Tools.DebianArtifacts
import Rebuilderd.Tools.FreeBsdOrder
import Rebuilderd.Tools.Grouping
import Rebuilderd.Tools.Scopes

/-!
What a sync lists of the indices that it downloads.

Each report of a sync is about one scope, for which an index was downloaded. The report lists the
packages of this index that the sync takes, each under its source package.
-/

namespace Rebuilderd.Tools

open Rebuilderd.Common Rebuilderd.Lib

/-! ### Reports and downloads -/

section
variable {κ : Type} {P : List (Download κ) → PackageReport → Prop}

/-- A scheduler's loop: it adds to the downloads and to the reports, all of which have `P`. -/
def Reports (P : List (Download κ) → PackageReport → Prop)
    (f : List PackageReport → Fetch κ (List PackageReport)) : Prop :=
  ∀ rs ds rs' ds', f rs ds = .ok (rs', ds') → (∀ r ∈ rs, P ds r) → ∀ r ∈ rs', P ds' r

lemma Reports.loop {α : Type} {f : List PackageReport → α → Fetch κ (List PackageReport)}
    (h : ∀ a, Reports P (f · a)) (as : List α) : Reports P (as.foldlM f ·) :=
  fun _ _ _ _ hok h0 => loop_ok (I := fun _ rs ds => ∀ r ∈ rs, P ds r) hok h0
    fun _ a rs ds rs' ds' _ hrs hstep => h a rs ds rs' ds' hstep hrs

/-- What holds of a report still holds after more downloads. -/
def Lasting (P : List (Download κ) → PackageReport → Prop) : Prop :=
  ∀ ⦃ds ds'⦄, ds <+: ds' → ∀ ⦃r⦄, P ds r → P ds' r

lemma Reports.append (hP : Lasting P) {x : Fetch κ PackageReport}
    (h : ∀ ds r ds', x ds = .ok (r, ds') → ds <+: ds' ∧ P ds' r) :
    Reports P fun rs => do return rs ++ [← x] := by
  intro rs ds rs' ds' hok hrs r hr
  obtain ⟨r₁, ds₁, hx, hreturn⟩ := bind_ok.mp hok
  obtain ⟨rfl, rfl⟩ := pure_ok.mp hreturn
  obtain ⟨hds, hr₁⟩ := h _ _ _ hx
  rcases List.mem_append.mp hr with hr | hr
  · exact hP hds (hrs r hr)
  · exact List.mem_singleton.mp hr ▸ hr₁

lemma Reports.appendOption (hP : Lasting P) {x : Fetch κ (Option PackageReport)}
    (h : ∀ ds r ds', x ds = .ok (r, ds') → ds <+: ds' ∧ ∀ r₁ ∈ r, P ds' r₁) :
    Reports P fun rs => do return rs ++ (← x).toList := by
  intro rs ds rs' ds' hok hrs r hr
  obtain ⟨found, ds₁, hx, hreturn⟩ := bind_ok.mp hok
  obtain ⟨rfl, rfl⟩ := pure_ok.mp hreturn
  obtain ⟨hds, hfound⟩ := h _ _ _ hx
  rcases List.mem_append.mp hr with hr | hr
  · exact hP hds (hrs r hr)
  · exact hfound r (Option.mem_toList.mp hr)

/-- The report lists what the index of its scope lists. -/
def FromIndex (indexed : List (Download κ) → Scope → Set Listed → Prop) (ds : List (Download κ))
    (r : PackageReport) : Prop :=
  ∃ listed, indexed ds r.scope listed ∧ ∀ x, Lists r.packages x ↔ x ∈ listed

lemma lasting_fromIndex {indexed : List (Download κ) → Scope → Set Listed → Prop}
    (h : ∀ ⦃ds ds'⦄, ds <+: ds' → ∀ scope listed, indexed ds scope listed → indexed ds' scope listed) :
    Lasting (FromIndex indexed) :=
  fun _ _ hds _ ⟨listed, hlisted, hlists⟩ => ⟨listed, h hds _ _ hlisted, hlists⟩

end

/-! ### Arch Linux -/

namespace ArchLinux

variable {env : Env} {s : PkgsSync} {source component arch : String}
  {ds ds' : List (Download String)}

/-- What a package of the index is pushed as. -/
def entryOf (pkg : ArchPkg) (url : String) : Entry String where
  key := pkg.base
  group := ⟨pkg.base, pkg.version, url, [], none, none, none⟩
  artifact := ⟨pkg.name, pkg.version, pkg.architecture, url⟩

def entriesOf (s : PkgsSync) (source component arch : String) (pkgs : List ArchPkg) :
    Except Err (List (Entry String)) :=
  (pkgs.filter fun pkg => matchesSync pkg s).mapM fun pkg =>
    entryOf pkg <$> mirrorToUrl source component arch pkg.filename

/-- The index of the scope was downloaded, and lists these packages. -/
def Indexed (env : Env) (s : PkgsSync) (ds : List (Download String)) (scope : Scope)
    (listed : Set Listed) : Prop :=
  ∃ arch component url bytes pkgs es, scope = ⟨"archlinux", none, some component, arch⟩ ∧
    mirrorToUrl (sourceOf s) component arch (component ++ ".db") = .ok url ∧
    ⟨url, url, .ok bytes⟩ ∈ ds ∧ extractPkgs env bytes = .ok pkgs ∧
    entriesOf s (sourceOf s) component arch pkgs = .ok es ∧ listed = listing es

lemma addPkgs_ok {pkgs : List ArchPkg} {bases : Groups String}
    (h : pkgs.foldlM (addPkg s source component arch) ∅ = .ok bases) :
    ∃ es, entriesOf s source component arch pkgs = .ok es ∧ bases = grouped es := by
  refine foldlM_ok (I := fun done bases => ∃ es, entriesOf s source component arch done = .ok es ∧
    bases = grouped es) h ⟨[], rfl, rfl⟩ fun done pkg bases bases' _ hdone hadd => ?_
  obtain ⟨es, hes, rfl⟩ := hdone
  unfold entriesOf at hes ⊢
  rw [List.filter_append, List.mapM_append, hes]
  unfold addPkg at hadd
  rcases hmatch : matchesSync pkg s with _ | _
  · rw [hmatch] at hadd
    cases hadd
    exact ⟨es, by simp [hmatch], rfl⟩
  · rw [hmatch] at hadd
    obtain ⟨url, hurl, hpush⟩ := except_bind_ok hadd
    cases hpush
    refine ⟨es ++ [entryOf pkg url], ?_, (grouped_append es (entryOf pkg url)).symm⟩
    simp [hmatch, hurl]
    rfl

lemma report_fromIndex {r : PackageReport}
    (h : report env s (sourceOf s) arch component ds = .ok (r, ds')) :
    ds <+: ds' ∧ FromIndex (Indexed env s) ds' r := by
  simp only [report, bind_ok, orFail_ok, pure_ok] at h
  obtain ⟨url, ds₁, ⟨hurl, rfl⟩, result, ds₂, hfetch, bytes, ds₃, ⟨rfl, rfl⟩, pkgs, ds₄, ⟨hpkgs, rfl⟩,
    bases, ds₅, ⟨hbases, rfl⟩, rfl, rfl⟩ := h
  obtain rfl := fetch_ok hfetch
  obtain ⟨es, hes, rfl⟩ := addPkgs_ok hbases
  refine ⟨List.prefix_append _ _, listing es, ?_, fun x => lists_grouped⟩
  exact ⟨arch, component, url, bytes, pkgs, es, rfl, hurl, by simp, hpkgs, hes, rfl⟩

lemma lasting_indexed : Lasting (FromIndex (Indexed env s)) := by
  refine lasting_fromIndex fun ds ds' hds scope listed h => ?_
  obtain ⟨arch, component, url, bytes, pkgs, es, hscope, hurl, hmem, hrest⟩ := h
  exact ⟨arch, component, url, bytes, pkgs, es, hscope, hurl, hds.subset hmem, hrest⟩

lemma sync_fromIndex {reports : List PackageReport} (h : sync env s [] = .ok (reports, ds)) :
    ∀ r ∈ reports, FromIndex (Indexed env s) ds r :=
  Reports.loop (fun _ => .loop (fun _ => .append lasting_indexed fun _ _ _ => report_fromIndex) _) _
    _ _ _ _ h (by simp)

end ArchLinux

/-! ### Fedora -/

namespace Fedora

variable {env : Env} {s : PkgsSync} {release component arch url : String}
  {ds ds' : List (Download String)}

/-- What a package of the index is pushed as. -/
def entryOf (url : String) (pkg : PackagesXmlItem) : Entry String where
  key := pkg.sourcerpm
  group := ⟨pkg.sourcerpm, pkg.version.ver ++ "-" ++ pkg.version.rel, url ++ pkg.href, [], none, none, none⟩
  artifact := ⟨pkg.name, pkg.version.ver ++ "-" ++ pkg.version.rel, pkg.arch, url ++ pkg.href⟩

def entriesOf (s : PkgsSync) (url : String) (pkgs : List PackagesXmlItem) : List (Entry String) :=
  (pkgs.filter fun pkg => matchesSync pkg s).map (entryOf url)

def repoUrl (s : PkgsSync) (release component arch : String) : String :=
  s.source ++ "/" ++ release ++ "/" ++ component ++ "/" ++ arch ++ "/os/"

/-- The index of the scope was downloaded, after the file that names it, and lists these packages. -/
def Indexed (env : Env) (s : PkgsSync) (ds : List (Download String)) (scope : Scope)
    (listed : Set Listed) : Prop :=
  ∃ release component arch repomd location index data pkgs,
    scope = ⟨"fedora", none, some component, arch⟩ ∧
    ⟨repoUrl s release component arch ++ "repodata/repomd.xml",
      repoUrl s release component arch ++ "repodata/repomd.xml", .ok repomd⟩ ∈ ds ∧
    getPrimaryLocationFromXml env repomd = .ok location ∧
    ⟨repoUrl s release component arch ++ location, repoUrl s release component arch ++ location,
      .ok index⟩ ∈ ds ∧
    env.decompress index = .ok data ∧ env.packagesXml data = .ok pkgs ∧
    listed = listing (entriesOf s (repoUrl s release component arch) pkgs)

lemma addPkgs_eq (pkgs : List PackagesXmlItem) :
    pkgs.foldl (addPkg s url) ∅ = grouped (entriesOf s url pkgs) := by
  induction pkgs using List.reverseRecOn with
  | nil => rfl
  | append_singleton pkgs pkg ih =>
    rw [List.foldl_append, List.foldl_cons, List.foldl_nil, ih]
    unfold addPkg entriesOf
    rw [List.filter_append, List.map_append]
    rcases hmatch : matchesSync pkg s with _ | _
    · simp [hmatch]
    · simp [hmatch, entryOf]

lemma report_fromIndex {r : PackageReport}
    (h : report env s release component arch ds = .ok (r, ds')) :
    ds <+: ds' ∧ FromIndex (Indexed env s) ds' r := by
  simp only [report, bind_ok, orFail_ok, pure_ok] at h
  obtain ⟨result, ds₁, hfetch, repomd, ds₂, ⟨rfl, rfl⟩, location, ds₃, ⟨hlocation, rfl⟩, result', ds₄,
    hfetch', index, ds₅, ⟨rfl, rfl⟩, data, ds₆, ⟨hdata, rfl⟩, pkgs, ds₇, ⟨hpkgs, rfl⟩, rfl, rfl⟩ := h
  obtain rfl := fetch_ok hfetch
  obtain rfl := fetch_ok hfetch'
  refine ⟨by simp, _, ⟨release, component, arch, repomd, location, index, data, pkgs, rfl, ?_, hlocation,
    ?_, hdata, hpkgs, rfl⟩, fun x => ?_⟩
  · simp [repoUrl]
  · simp [repoUrl]
  · dsimp only
    rw [addPkgs_eq]
    exact lists_grouped

lemma lasting_indexed : Lasting (FromIndex (Indexed env s)) := by
  refine lasting_fromIndex fun ds ds' hds scope listed h => ?_
  obtain ⟨release, component, arch, repomd, location, index, data, pkgs, hscope, hrepomd, hlocation,
    hindex, hrest⟩ := h
  exact ⟨release, component, arch, repomd, location, index, data, pkgs, hscope, hds.subset hrepomd,
    hlocation, hds.subset hindex, hrest⟩

lemma sync_fromIndex {reports : List PackageReport} (h : sync env s [] = .ok (reports, ds)) :
    ∀ r ∈ reports, FromIndex (Indexed env s) ds r :=
  Reports.loop (fun _ => .loop (fun _ => .loop
    (fun _ => .append lasting_indexed fun _ _ _ => report_fromIndex) _) _) _ _ _ _ _ h (by simp)

end Fedora

/-! ### FreeBSD -/

namespace FreeBsd

variable {env : Env} {s : PkgsSync} {release arch : String} {ds ds' : List (Download Request)}

/-- What a package of the index is pushed as. -/
def entryOf (timestamps : Timestamps) (info : PackageInfo) : Entry (String × String) where
  key := (info.pkg.origin, info.pkg.version)
  group := ⟨info.pkg.origin, info.pkg.version, info.pkgUrl, [], info.gitHash, info.buildTimestamp,
    info.gitHash.bind timestamps.lookup⟩
  artifact := ⟨info.pkg.name, info.pkg.version, info.pkg.arch, info.pkgUrl⟩

/-- The packages are listed by their origins, and the URL is that of the one whose name comes first. -/
def listingOf (infos : List PackageInfo) : Set Listed :=
  {x | ∃ info ∈ infos, (info.pkg.name, info.pkg.version) = x.artifact ∧
    (info.pkg.origin, info.pkg.version) = x.source ∧
    ∃ head, (infos.insertionSort fun a b => a.pkg.name ≤ b.pkg.name).find?
      (fun info => (info.pkg.origin, info.pkg.version) = x.source) = some head ∧ head.pkgUrl = x.url}

/-- The index of the scope was downloaded, and lists these packages. -/
def Indexed (env : Env) (s : PkgsSync) (ds : List (Download Request)) (scope : Scope)
    (listed : Set Listed) : Prop :=
  ∃ release arch bytes text, scope = ⟨"freebsd", some release, none, arch⟩ ∧
    ⟨.packagesite release arch, indexUrl s release arch, .ok bytes⟩ ∈ ds ∧
    packagesite env bytes = .ok (some text) ∧
    listed = listingOf (infosOf env s release arch (Text.lines text))

lemma addInfos_eq (timestamps : Timestamps) (infos : List PackageInfo) :
    infos.foldl (addInfo timestamps) ∅ = grouped (infos.map (entryOf timestamps)) := by
  rw [grouped, List.foldl_map]
  rfl

lemma mem_listing_infos {timestamps : Timestamps} {infos : List PackageInfo} {x : Listed} :
    x ∈ listing ((infos.insertionSort fun a b => a.pkg.name ≤ b.pkg.name).map (entryOf timestamps)) ↔
      x ∈ listingOf infos := by
  have hkey {info head : PackageInfo} (h : ((infos.insertionSort fun a b => a.pkg.name ≤ b.pkg.name).map
      (entryOf timestamps)).find? (fun e => e.key = (entryOf timestamps info).key) =
        some (entryOf timestamps head)) :
      (head.pkg.origin, head.pkg.version) = (info.pkg.origin, info.pkg.version) := by
    simpa [entryOf] using List.find?_some h
  constructor
  · rintro ⟨e, he, hartifact, head, hhead, hsource, hurl⟩
    obtain ⟨info, hinfo, rfl⟩ := List.mem_map.mp he
    obtain ⟨head, -, rfl⟩ := List.mem_map.mp (List.mem_of_find?_eq_some hhead)
    have hsame : (info.pkg.origin, info.pkg.version) = x.source := (hkey hhead).symm.trans hsource
    refine ⟨info, (List.mem_insertionSort _).mp hinfo, hartifact, hsame, ?_⟩
    rw [List.find?_map] at hhead
    obtain ⟨head', hhead', heq⟩ := Option.map_eq_some_iff.mp hhead
    refine ⟨head', ?_, (congrArg (·.group.url) heq).trans hurl⟩
    rw [← hsame]
    exact hhead'
  · rintro ⟨info, hinfo, hartifact, hsource, head, hhead, hurl⟩
    refine ⟨entryOf timestamps info, List.mem_map_of_mem ((List.mem_insertionSort _).mpr hinfo), hartifact,
      entryOf timestamps head, ?_, by simpa [entryOf] using List.find?_some hhead, hurl⟩
    rw [List.find?_map, ← hsource] at *
    exact congrArg (Option.map _) hhead

lemma isPrefix_fetchCommit {hash : String} {token : Option String} {timestamp : Option Time}
    (h : fetchGithubCommitTimestamp env hash token ds = .ok (timestamp, ds')) : ds <+: ds' := by
  rcases token with _ | token
  · obtain ⟨-, rfl⟩ := pure_ok.mp h
    exact List.prefix_refl ds
  · obtain ⟨result, ds₁, hfetch, h⟩ := bind_ok.mp h
    obtain rfl := fetch_ok hfetch
    rcases result with e | bytes
    · obtain ⟨-, rfl⟩ := pure_ok.mp h
      exact List.prefix_append _ _
    · obtain ⟨-, rfl⟩ := pure_ok.mp h
      exact List.prefix_append _ _

lemma isPrefix_fetchTimestamps {infos : List PackageInfo} {timestamps : Timestamps}
    (h : fetchTimestamps env s infos ds = .ok (timestamps, ds')) : ds <+: ds' := by
  unfold fetchTimestamps at h
  split at h
  · refine loop_ok (I := fun _ _ ds' => ds <+: ds') h (List.prefix_refl ds)
      fun done hash timestamps ds₁ timestamps' ds₂ _ hds hstep => ?_
    obtain ⟨timestamp, ds₃, hfetch, hreturn⟩ := bind_ok.mp hstep
    have hds₃ := hds.trans (isPrefix_fetchCommit hfetch)
    rcases timestamp with _ | timestamp
    · exact (pure_ok.mp hreturn).2 ▸ hds₃
    · exact (pure_ok.mp hreturn).2 ▸ hds₃
  · exact (pure_ok.mp h).2 ▸ List.prefix_refl ds

lemma report_fromIndex {found : Option PackageReport} (h : report env s release arch ds = .ok (found, ds')) :
    ds <+: ds' ∧ ∀ r ∈ found, FromIndex (Indexed env s) ds' r := by
  obtain ⟨result, ds₁, hfetch, h⟩ := bind_ok.mp h
  obtain rfl := fetch_ok hfetch
  rcases result with e | bytes
  · obtain ⟨rfl, rfl⟩ := pure_ok.mp h
    exact ⟨List.prefix_append _ _, by simp⟩
  simp only [bind_ok, orFail_ok] at h
  obtain ⟨raw, ds₂, ⟨hraw, rfl⟩, entries, ds₃, ⟨hentries, rfl⟩, content, ds₄, ⟨hcontent, rfl⟩, h⟩ := h
  rcases content with _ | content
  · obtain ⟨rfl, rfl⟩ := pure_ok.mp h
    exact ⟨List.prefix_append _ _, by simp⟩
  simp only [bind_ok, orFail_ok, pure_ok] at h
  obtain ⟨text, ds₅, ⟨htext, rfl⟩, timestamps, ds₆, htimestamps, rfl, rfl⟩ := h
  have hds := isPrefix_fetchTimestamps htimestamps
  refine ⟨(List.prefix_append _ _).trans hds, ?_⟩
  rintro r ⟨⟩
  refine ⟨_, ⟨release, arch, bytes, text, rfl, hds.subset (by simp [indexUrl]), ?_, rfl⟩, fun x => ?_⟩
  · unfold packagesite
    rw [hraw]
    change (env.untar raw >>= _) = _
    rw [hentries]
    change (findPackagesite entries >>= _) = _
    rw [hcontent]
    change some <$> decodeUtf8 content = _
    rw [htext]
    rfl
  · dsimp only
    rw [addInfos_eq]
    exact lists_grouped.trans mem_listing_infos

lemma lasting_indexed : Lasting (FromIndex (Indexed env s)) := by
  refine lasting_fromIndex fun ds ds' hds scope listed h => ?_
  obtain ⟨release, arch, bytes, text, hscope, hmem, hrest⟩ := h
  exact ⟨release, arch, bytes, text, hscope, hds.subset hmem, hrest⟩

lemma sync_fromIndex {reports : List PackageReport} (h : sync env s [] = .ok (reports, ds)) :
    ∀ r ∈ reports, FromIndex (Indexed env s) ds r :=
  Reports.loop (fun _ => .loop (fun _ => .appendOption lasting_indexed fun _ _ _ => report_fromIndex) _) _
    _ _ _ _ h (by simp)

end FreeBsd

/-! ### Debian -/

namespace Debian

section
variable {src src' : DebianSourcePkg} {arch : String} {artifact : BinaryPackageReport}
  {gs gs' : List SourcePackageReport}

lemma buildinfoUrl_congr (h : src.key = src'.key) : src.buildinfoUrl arch = src'.buildinfoUrl arch := by
  obtain ⟨hbase, hversion⟩ := Prod.mk.inj h
  unfold DebianSourcePkg.buildinfoUrl DebianSourcePkg.buildinfoPath
  rw [hbase, hversion]

/-- The URL of the group is that of its source package. -/
def HasUrl (arch : String) (g : SourcePackageReport) : Prop :=
  ∀ src : DebianSourcePkg, src.key = sourceKey g → src.buildinfoUrl arch = .ok g.url

lemma addArtifact_hasUrl (h : SyncState.addArtifact src arch artifact gs = .ok gs')
    (hgs : ∀ g ∈ gs, HasUrl arch g) : ∀ g ∈ gs', HasUrl arch g := by
  induction gs generalizing gs' with
  | nil =>
    obtain ⟨url, hurl, hreturn⟩ := except_bind_ok h
    cases hreturn
    refine List.forall_mem_singleton.mpr fun src' hkey => ?_
    rw [buildinfoUrl_congr hkey]
    exact hurl
  | cons g gs ih =>
    obtain ⟨hg, hgs⟩ := List.forall_mem_cons.mp hgs
    rw [addArtifact_cons] at h
    split at h
    · cases h
      exact List.forall_mem_cons.mpr ⟨hg, hgs⟩
    · rcases hadd : SyncState.addArtifact src arch artifact gs with e | gs₁
      · rw [hadd] at h
        cases h
      · rw [hadd] at h
        cases h
        exact List.forall_mem_cons.mpr ⟨hg, ih hadd hgs⟩

end

/-- The URLs of all groups are those of their source packages. -/
def Urls (state : SyncState) : Prop := ∀ k, ∀ g ∈ (state.report k).packages, HasUrl k.architecture g

section
variable {env : Env} {s : PkgsSync} {sources : SourcePkgBucket} {release component arch : String}
  {state state' : SyncState} {pkg : DebianBinPkg}

lemma Urls.importBinaryPkg (h : Urls state)
    (hok : SyncState.importBinaryPkg sources release component s state pkg = .ok state') : Urls state' := by
  rcases hsrc : listedSource sources s pkg with _ | src
  · rw [importBinaryPkg_none hsrc] at hok
    cases hok
    exact h
  · obtain ⟨gs, hadd, hpackages⟩ := importBinaryPkg_ok hsrc hok
    intro k
    rw [hpackages]
    split
    · rename_i hk
      rw [hk]
      exact addArtifact_hasUrl hadd (h ⟨release, component, pkg.architecture⟩)
    · exact h k

lemma Urls.importPkgs {pkgs : Except Err (List DebianBinPkg)} (h : Urls state)
    (hok : state.importPkgs pkgs sources release component s = .ok state') : Urls state' := by
  obtain ⟨pkgs, -, hloop⟩ := except_bind_ok hok
  refine foldlM_ok (I := fun _ state => Urls state) hloop (fun k => ?_)
    fun _ pkg state state' _ hstate hstep => hstate.importBinaryPkg hstep
  rw [report_createAllReleaseGroups]
  exact h k

lemma yields_urls : Yields (s.releases.foldlM (syncRelease env s) SyncState.new) Urls := by
  refine .loop (I := fun _ state => Urls state) (fun k g hg => ?_) fun _ release state hstate => ?_
  · exact absurd hg List.not_mem_nil
  have hcomponents : Yields (s.components.foldlM (syncComponent env s release) (∅, state))
      fun x => Urls x.2 := by
    refine .loop (I := fun _ (x : SourcePkgBucket × SyncState) => Urls x.2) hstate
      fun _ component x hx => .bind fun _ => .bind fun bytes => .bind fun sources => ?_
    refine .bind' (Q := Urls) (.loop (I := fun _ state => Urls state) hx fun _ arch state hstate =>
      .bind fun result => ?_) fun state hstate => .pure hstate
    rcases result with e | bytes
    · exact .pure hstate
    · intro ds state' ds' hok
      exact hstate.importPkgs (orFail_ok.mp hok).1
  exact .bind' hcomponents fun x hx => .pure hx

/-- The packages of the scope in the indices of its release and component, as they are listed. A package
is listed under its own architecture, whichever index it is in. -/
def listingOf (env : Env) (s : PkgsSync) (ds : List (Download Index)) (k : GroupKey) : Set Listed :=
  {x | ∃ i ∈ importsOf env ds, i.release = k.release ∧ i.component = k.component ∧
    ∃ pkg ∈ i.pkgs, pkg.architecture = k.architecture ∧ (pkg.name, pkg.version) = x.artifact ∧
      ∃ src, listedSource i.sources s pkg = some src ∧ src.key = x.source ∧
        src.buildinfoUrl k.architecture = .ok x.url}

def Indexed (env : Env) (s : PkgsSync) (ds : List (Download Index)) (scope : Scope)
    (listed : Set Listed) : Prop :=
  ∃ k : GroupKey, scope = k.scope ∧ listed = listingOf env s ds k

variable {ds : List (Download Index)} {k : GroupKey} {x : Listed}

/-- What was pushed to the report of the scope. -/
lemma mem_pushes {artifact : BinaryPackageReport} {source : String × String} :
    ⟨k, source, artifact⟩ ∈ (importsOf env ds).flatMap (Import.pushes s) ↔
      ∃ i ∈ importsOf env ds, i.release = k.release ∧ i.component = k.component ∧
        ∃ pkg ∈ i.pkgs, pkg.architecture = k.architecture ∧ artifactOf s pkg = artifact ∧
          ∃ src, listedSource i.sources s pkg = some src ∧ src.key = source := by
  simp only [List.mem_flatMap, Import.pushes, List.mem_filterMap, pushOf, Option.map_eq_some_iff,
    Push.mk.injEq]
  refine exists_congr fun i => and_congr_right fun _ => ?_
  constructor
  · rintro ⟨pkg, hpkg, src, hsrc, rfl, hkey, hartifact⟩
    exact ⟨rfl, rfl, pkg, hpkg, rfl, hartifact, src, hsrc, hkey⟩
  · obtain ⟨release, component, architecture⟩ := k
    rintro ⟨rfl, rfl, pkg, hpkg, rfl, hartifact, src, hsrc, hkey⟩
    exact ⟨pkg, hpkg, src, hsrc, rfl, hkey, hartifact⟩

lemma lists_report (h : Lists env s state ds) (hurls : ∀ g ∈ (state.report k).packages,
    HasUrl k.architecture g) : Tools.Lists (state.report k).packages x ↔ x ∈ listingOf env s ds k := by
  constructor
  · rintro ⟨g, hg, hsource, hurl, a, ha, hartifact⟩
    rw [← artifactsIn_of_mem (h.distinct k) hg, h.artifacts] at ha
    obtain ⟨⟨k', source, a'⟩, hpush, rfl⟩ := List.mem_map.mp ha
    obtain ⟨hmem, hfilter⟩ := List.mem_filter.mp hpush
    obtain ⟨rfl, rfl⟩ : k' = k ∧ source = sourceKey g := by simpa using hfilter
    obtain ⟨i, hi, hrelease, hcomponent, pkg, hpkg, harch, rfl, src, hsrc, hkey⟩ := mem_pushes.mp hmem
    exact ⟨i, hi, hrelease, hcomponent, pkg, hpkg, harch, hartifact, src, hsrc, hkey.trans hsource,
      hurl ▸ hurls g hg src hkey⟩
  · rintro ⟨i, hi, hrelease, hcomponent, pkg, hpkg, harch, hartifact, src, hsrc, hkey, hurl⟩
    have hpush : ⟨k, src.key, artifactOf s pkg⟩ ∈ (importsOf env ds).flatMap (Import.pushes s) :=
      mem_pushes.mpr ⟨i, hi, hrelease, hcomponent, pkg, hpkg, harch, rfl, src, hsrc, rfl⟩
    have hmem : artifactOf s pkg ∈ artifactsIn (state.report k).packages src.key := by
      rw [h.artifacts]
      exact List.mem_map.mpr ⟨_, List.mem_filter.mpr ⟨hpush, by simp⟩, rfl⟩
    obtain ⟨g, hg, hsource, ha⟩ := exists_of_mem_artifactsIn hmem
    refine ⟨g, hg, hsource.trans hkey, ?_, _, ha, hartifact⟩
    exact Except.ok.inj ((hurls g hg src hsource.symm).symm.trans hurl)

lemma sync_fromIndex {reports : List PackageReport} (hreleases : s.releases.Nodup)
    (h : sync env s [] = .ok (reports, ds)) : ∀ r ∈ reports, FromIndex (Indexed env s) ds r := by
  have hurls : ∀ r ∈ reports, ∀ g ∈ r.packages, HasUrl r.architecture g := by
    obtain ⟨state, ds₁, hloop, hreturn⟩ := bind_ok.mp h
    obtain ⟨rfl, -⟩ := pure_ok.mp hreturn
    intro r hr g hg
    obtain ⟨k, -, rfl⟩ := mem_toVec.mp hr
    have harch : (state.report k).architecture = k.architecture :=
      congrArg Scope.architecture (state.report_scope k)
    rw [harch]
    exact yields_urls _ _ _ hloop k g hg
  obtain ⟨state, hlists, rfl⟩ := exists_lists hreleases h
  intro r hr
  obtain ⟨k, -, rfl⟩ := mem_toVec.mp hr
  have harch : (state.report k).architecture = k.architecture :=
    congrArg Scope.architecture (state.report_scope k)
  refine ⟨_, ⟨k, state.report_scope k, rfl⟩, fun x => lists_report hlists ?_⟩
  rw [← harch]
  exact hurls _ hr

end

end Debian

end Rebuilderd.Tools
