import Rebuilderd.Daemon.SideBySide
import Rebuilderd.Tools.ArchLinux
import Rebuilderd.Tools.Debian
import Rebuilderd.Tools.Fedora
import Rebuilderd.Tools.FreeBsd

/-!
The scopes of the reports of one sync.

The daemon takes the second report about a scope as a replacement of the first. The schedulers loop
over releases, components and architectures, and each of their reports has to name all of those it
was made for.
-/

namespace Rebuilderd.Tools

open Rebuilderd.Common Rebuilderd.Lib
open Rebuilderd.Daemon (Syncs Submission AllAccepted AllSeen Alike allSeen_of_nodup)

/-- The schedulers of `rebuildctl pkgs sync`. -/
inductive Method
  | archlinux | debian | fedora | freebsd
  deriving DecidableEq

structure Env where
  archlinux : ArchLinux.Env
  debian : Debian.Env
  fedora : Fedora.Env
  freebsd : FreeBsd.Env

def schedule (env : Env) (sync : PkgsSync) : Method → Except Err (List PackageReport)
  | .archlinux => Prod.fst <$> ArchLinux.sync env.archlinux sync []
  | .debian => Prod.fst <$> Debian.sync env.debian sync []
  | .fedora => Prod.fst <$> Fedora.sync env.fedora sync []
  | .freebsd => Prod.fst <$> FreeBsd.sync env.freebsd sync []

/-- The order in which `rebuildctl` submits the reports. -/
def sorted (reports : List PackageReport) : List PackageReport :=
  reports.insertionSort fun a b => a.distribution ≤ b.distribution

/-- The reports have different scopes, and when the daemon has accepted them all, it shows the
binary packages of all of them as seen. -/
structure KeptApart (reports : List PackageReport) : Prop where
  scopes : (reports.map (·.scope)).Nodup
  seen : ∀ (daemon : Daemon.Env) (x : Syncs) (cs : List Submission),
    cs.map (·.1.2) = sorted reports → AllAccepted daemon x cs →
      ∀ r ∈ reports, AllSeen (cs.foldl (Syncs.submit daemon) x).db r

/-! ### The loops of the schedulers -/

section
variable {κ : Type} {sync : PkgsSync}

/-- A loop that appends the reports of its rounds appends their scopes. -/
lemma yields_scopes {f : List PackageReport → String → Fetch κ (List PackageReport)}
    {scopes : String → List Scope} {names : List String} {reports : List PackageReport}
    (hf : ∀ rs name, Yields (f rs name) fun rs' =>
      rs'.map (·.scope) = rs.map (·.scope) ++ scopes name) :
    Yields (names.foldlM f reports) fun rs' =>
      rs'.map (·.scope) = reports.map (·.scope) ++ names.flatMap scopes := by
  refine .loop (I := fun (done : List String) (rs : List PackageReport) =>
    rs.map (·.scope) = reports.map (·.scope) ++ done.flatMap scopes)
    (by simp) fun done name rs hrs ds rs' ds' hok => ?_
  beta_reduce
  rw [hf rs name ds rs' ds' hok, hrs, List.flatMap_append, List.flatMap_singleton,
    List.append_assoc]

lemma yields_archlinux (env : ArchLinux.Env) : Yields (ArchLinux.sync env sync) fun reports =>
    reports.map (·.scope) = sync.architectures.flatMap fun arch =>
      sync.components.flatMap fun component => [⟨"archlinux", none, some component, arch⟩] := by
  refine yields_scopes fun rs arch => yields_scopes fun rs component => ?_
  have hreport : Yields (ArchLinux.report env sync (ArchLinux.sourceOf sync) arch component)
      fun r => r.scope = ⟨"archlinux", none, some component, arch⟩ :=
    .bind fun _ => .bind fun _ => .bind fun _ => .bind fun _ => .bind fun _ => .pure rfl
  refine .bind' hreport fun r hr => .pure ?_
  rw [List.map_append, List.map_singleton, hr]

lemma yields_fedora (env : Fedora.Env) : Yields (Fedora.sync env sync) fun reports =>
    reports.map (·.scope) = sync.releases.flatMap fun _ => sync.components.flatMap fun component =>
      sync.architectures.flatMap fun arch => [⟨"fedora", none, some component, arch⟩] := by
  refine yields_scopes fun rs release => yields_scopes fun rs component => yields_scopes fun rs arch => ?_
  have hreport : Yields (Fedora.report env sync release component arch)
      fun r => r.scope = ⟨"fedora", none, some component, arch⟩ :=
    .bind fun _ => .bind fun _ => .bind fun _ => .bind fun _ => .bind fun _ => .bind fun _ =>
      .bind fun _ => .pure rfl
  refine .bind' hreport fun r hr => .pure ?_
  rw [List.map_append, List.map_singleton, hr]

lemma yields_freebsd (env : FreeBsd.Env) : Yields (FreeBsd.sync env sync) fun reports =>
    (reports.map (·.scope)).Sublist <| sync.releases.flatMap fun release =>
      sync.architectures.map fun arch => ⟨"freebsd", some release, none, arch⟩ := by
  refine .loop (I := fun (done : List String) (rs : List PackageReport) =>
    (rs.map (·.scope)).Sublist <| done.flatMap fun release =>
      sync.architectures.map fun arch => ⟨"freebsd", some release, none, arch⟩)
    (a := []) (by simp) fun done release before hbefore => ?_
  have hinner : Yields (sync.architectures.foldlM (fun reports arch => do
      return reports ++ (← FreeBsd.report env sync release arch).toList) before) fun after =>
      (after.map (·.scope)).Sublist <| before.map (·.scope) ++
        sync.architectures.map fun arch => ⟨"freebsd", some release, none, arch⟩ := by
    refine .loop (I := fun (done : List String) (rs : List PackageReport) =>
      (rs.map (·.scope)).Sublist <| before.map (·.scope) ++
        done.map fun arch => ⟨"freebsd", some release, none, arch⟩)
      (a := before) (by simp) fun done arch rs hrs => ?_
    have hreport : Yields (FreeBsd.report env sync release arch)
        fun r => ∀ r' ∈ r, r'.scope = ⟨"freebsd", some release, none, arch⟩ := by
      refine .bind fun bytes => ?_
      rcases bytes with e | bytes
      · exact .pure (by simp)
      · refine .bind fun _ => .bind fun _ => .bind fun packagesite => ?_
        rcases packagesite with _ | packagesite
        · exact .pure (by simp)
        · exact .bind fun _ => .bind fun _ => .pure (by rintro r ⟨⟩; rfl)
    refine .bind' hreport fun r hr => .pure ?_
    rw [List.map_append, List.map_append, ← List.append_assoc]
    refine hrs.append ?_
    rcases r with _ | r
    · simp
    · simp [hr r rfl]
  intro ds after ds' hok
  rw [List.flatMap_append, List.flatMap_singleton]
  exact (hinner ds after ds' hok).trans (hbefore.append (.refl _))

lemma yields_debian (env : Debian.Env) : Yields (Debian.sync env sync) fun reports =>
    (reports.map (·.scope)).Nodup ∧
      ∀ r ∈ reports, ∃ k : Debian.GroupKey, r.scope = k.scope := by
  refine .bind fun state => .pure ?_
  have hscopes : (state.reports.entries.map (·.2)).map PackageReport.scope =
      state.reports.keys.map Debian.GroupKey.scope := by
    rw [AList.keys, List.keys, List.map_map, List.map_map]
    exact List.map_congr_left state.scope
  refine ⟨?_, fun r hr => ?_⟩
  · rw [Debian.SyncState.toVec, ((env.order.perm _).map _).nodup_iff, hscopes]
    exact state.reports.keys_nodup.map Debian.GroupKey.scope_injective
  · obtain ⟨e, he, rfl⟩ := List.mem_map.mp ((env.order.perm _).mem_iff.mp hr)
    exact ⟨e.1, state.scope e he⟩

/-! ### Scopes -/

/-- Whether the reports of a scheduler say which index they were made for: a second release of
Fedora gives rise to the scopes of the first once more. -/
def namesApart (sync : PkgsSync) : Method → Bool
  | .fedora => decide (sync.releases.length ≤ 1) || sync.components.isEmpty ||
      sync.architectures.isEmpty
  | _ => true

lemma nodup_scopes {outer inner : List String} {f : String → String → Scope}
    (hf : ∀ a b a' b', f a b = f a' b' → a = a' ∧ b = b') (houter : outer.Nodup)
    (hinner : inner.Nodup) : (outer.flatMap fun a => inner.flatMap fun b => [f a b]).Nodup := by
  simp only [← List.map_eq_flatMap]
  refine List.nodup_flatMap.mpr ⟨fun a _ => ?_, ?_⟩
  · exact hinner.map fun b b' h => (hf a b a b' h).2
  · refine houter.imp fun hne x hx hx' => hne ?_
    obtain ⟨b, -, rfl⟩ := List.mem_map.mp hx
    obtain ⟨b', -, heq⟩ := List.mem_map.mp hx'
    exact (hf _ _ _ _ heq).1.symm

lemma nodup_repeated {names : List String} {scopes : List Scope} (h : scopes.Nodup) :
    (names.flatMap fun _ => scopes).Nodup ↔ names.length ≤ 1 ∨ scopes = [] := by
  rcases names with _ | ⟨name, _ | ⟨name', names⟩⟩
  · simp
  · simp [h]
  · rw [List.flatMap_cons, List.flatMap_cons, List.nodup_append']
    constructor
    · rintro ⟨-, -, hdisjoint⟩
      exact .inr (List.eq_nil_iff_forall_not_mem.mpr fun x hx => hdisjoint hx (by simp [hx]))
    · rintro (hlength | rfl)
      · simp at hlength
      · have hnil : (names.flatMap fun _ => ([] : List Scope)) = [] :=
          List.flatMap_eq_nil_iff.mpr fun _ _ => rfl
        simp [hnil]

/-- Reports that are alike and have different scopes are kept apart. -/
lemma KeptApart.of_nodup {reports : List PackageReport} (hscopes : (reports.map (·.scope)).Nodup)
    (halike : ∀ r ∈ reports, ∀ r' ∈ reports, Alike r.scope r'.scope) : KeptApart reports := by
  refine ⟨hscopes, fun daemon x cs hcs haccepted r hr => ?_⟩
  have hperm : (cs.map (·.1.2)).Perm reports := hcs ▸ List.perm_insertionSort _ _
  have hmem (c : Submission) (hc : c ∈ cs) : c.1.2 ∈ reports :=
    hperm.mem_iff.mp (List.mem_map.mpr ⟨c, hc, rfl⟩)
  have hnodup : (cs.map fun c => c.1.2.scope).Nodup := by
    have hsame := (hperm.map PackageReport.scope).nodup_iff.mpr hscopes
    rwa [List.map_map] at hsame
  obtain ⟨c, hc, rfl⟩ := List.mem_map.mp (hperm.mem_iff.mpr hr)
  exact allSeen_of_nodup haccepted hnodup
    (fun c hc c' hc' => halike _ (hmem c hc) _ (hmem c' hc')) c hc

/-- The reports are alike if the releases and components of their scopes are null or set
regardless of the report. -/
lemma alike_of_scopes {reports : List PackageReport} (release component : Bool)
    (h : ∀ s ∈ reports.map (·.scope), s.release.isSome = release ∧ s.component.isSome = component) :
    ∀ r ∈ reports, ∀ r' ∈ reports, Alike r.scope r'.scope := by
  intro r hr r' hr'
  obtain ⟨hrelease, hcomponent⟩ := h _ (List.mem_map.mpr ⟨r, hr, rfl⟩)
  obtain ⟨hrelease', hcomponent'⟩ := h _ (List.mem_map.mpr ⟨r', hr', rfl⟩)
  exact ⟨hrelease.trans hrelease'.symm, hcomponent.trans hcomponent'.symm⟩

lemma schedule_ok {κ : Type} {x : Fetch κ (List PackageReport)} {reports : List PackageReport}
    {P : List PackageReport → Prop} (hx : Yields x P) (h : Prod.fst <$> x [] = .ok reports) :
    P reports := by
  rcases hrun : x [] with e | ⟨rs, ds⟩
  · rw [hrun] at h
    cases h
  · rw [hrun] at h
    cases h
    exact hx _ _ _ hrun

/-- **The reports of a sync are kept apart unless it covers two releases of Fedora.** -/
theorem reportsKeptApart (env : Env) (sync : PkgsSync) (method : Method)
    (reports : List PackageReport) (hreleases : sync.releases.Nodup)
    (hcomponents : sync.components.Nodup) (harchitectures : sync.architectures.Nodup)
    (hok : schedule env sync method = .ok reports) :
    KeptApart reports ↔ namesApart sync method = true := by
  cases method with
  | archlinux =>
    have hscopes := schedule_ok (yields_archlinux env.archlinux) hok
    refine iff_of_true (.of_nodup ?_ (alike_of_scopes false true ?_)) rfl
    · rw [hscopes]
      exact nodup_scopes (by simp) harchitectures hcomponents
    · rw [hscopes]
      simp only [List.mem_flatMap, List.mem_singleton]
      rintro s ⟨arch, -, component, -, rfl⟩
      exact ⟨rfl, rfl⟩
  | debian =>
    obtain ⟨hscopes, hkeys⟩ := schedule_ok (yields_debian env.debian) hok
    refine iff_of_true (.of_nodup hscopes (alike_of_scopes true true ?_)) rfl
    intro s hs
    obtain ⟨r, hr, rfl⟩ := List.mem_map.mp hs
    obtain ⟨k, hk⟩ := hkeys r hr
    rw [hk]
    exact ⟨rfl, rfl⟩
  | freebsd =>
    have hscopes := schedule_ok (yields_freebsd env.freebsd) hok
    refine iff_of_true (.of_nodup ?_ (alike_of_scopes true false ?_)) rfl
    · refine hscopes.nodup ?_
      simp only [List.map_eq_flatMap]
      exact nodup_scopes (by simp) hreleases harchitectures
    · intro s hs
      obtain ⟨release, -, hs⟩ := List.mem_flatMap.mp (hscopes.subset hs)
      obtain ⟨arch, -, rfl⟩ := List.mem_map.mp hs
      exact ⟨rfl, rfl⟩
  | fedora =>
    have hscopes := schedule_ok (yields_fedora env.fedora) hok
    have hone : (sync.components.flatMap fun component => sync.architectures.flatMap fun arch =>
        [(⟨"fedora", none, some component, arch⟩ : Scope)]).Nodup :=
      nodup_scopes (by simp) hcomponents harchitectures
    have hempty : (sync.components.flatMap fun component => sync.architectures.flatMap fun arch =>
        [(⟨"fedora", none, some component, arch⟩ : Scope)]) = [] ↔
        sync.components = [] ∨ sync.architectures = [] := by
      rcases sync.components with _ | ⟨component, components⟩
      · simp
      · rcases sync.architectures with _ | ⟨arch, architectures⟩ <;> simp
    have hiff : (reports.map (·.scope)).Nodup ↔ namesApart sync .fedora = true := by
      rw [hscopes, nodup_repeated hone, hempty]
      simp [namesApart, or_assoc]
    refine ⟨fun h => hiff.mp h.scopes, fun h => .of_nodup (hiff.mpr h)
      (alike_of_scopes false true ?_)⟩
    rw [hscopes]
    simp only [List.mem_flatMap, List.mem_singleton]
    rintro s ⟨release, -, component, -, arch, -, rfl⟩
    exact ⟨rfl, rfl⟩

end

/-! ### Two releases of Fedora -/

/-- A package of an index. -/
def rpm (name : String) : Fedora.PackagesXmlItem :=
  ⟨name, "x86_64", ⟨"0", "1.0", "1"⟩, "Fedora Project", name ++ ".rpm", name ++ ".src.rpm"⟩

/-- The mirror answers with the number of downloads so far: the first index lists `bash`, the
second one `zsh`. -/
def fedoraMirror : Fedora.Env where
  mirror ds _ := .ok [UInt8.ofNat ds.length]
  order := .inserted
  decoders := .plain
  repomdXml _ := .ok [⟨some "primary", some ⟨"primary.xml"⟩⟩]
  packagesXml bytes := .ok [rpm (if bytes = [1] then "bash" else "zsh")]

def noMirror : Mirror := fun _ _ => .error .io

def fedoraOnly : Env where
  archlinux := ⟨noMirror, .inserted, .plain, fun _ => .error .io⟩
  debian := ⟨noMirror, .inserted, .ok⟩
  fedora := fedoraMirror
  freebsd := ⟨noMirror, .inserted, .ok, fun _ => .error .io, fun _ => none, fun _ => none, fun _ => none⟩

def fedoraSync (releases : List String) : PkgsSync where
  distro := "fedora"
  components := ["Everything"]
  source := "https://fedora"
  architectures := ["x86_64"]
  printJson := false
  maintainers := []
  releases := releases
  pkgs := []
  excludes := []
  syncMethod := none
  githubToken := none

/-- What the sync reports about a release that has one package. -/
def fedoraReport (release name : String) : PackageReport where
  distribution := "fedora"
  release := none
  component := some "Everything"
  architecture := "x86_64"
  packages :=
    let url := "https://fedora/" ++ release ++ "/Everything/x86_64/os/" ++ name ++ ".rpm"
    [⟨name ++ ".src.rpm", "1.0-1", url, [⟨name, "1.0-1", "x86_64", url⟩], none, none, none⟩]

theorem reportsKeptApart_oneRelease :
    KeptApart [fedoraReport "41" "bash"] ↔ namesApart (fedoraSync ["41"]) .fedora = true :=
  reportsKeptApart fedoraOnly (fedoraSync ["41"]) .fedora [fedoraReport "41" "bash"] (by decide)
    (by decide) (by decide) (by decide +kernel)

/-- **A second release of Fedora replaces the first**: when both reports are accepted, the package
of the first one is not seen. -/
theorem secondRelease_replaces :
    (¬ ∀ (env : Env) (sync : PkgsSync) (method : Method) (reports : List PackageReport),
      sync.releases.Nodup → sync.components.Nodup → sync.architectures.Nodup →
        schedule env sync method = .ok reports → KeptApart reports) ∧
      (([fedoraReport "41" "bash", fedoraReport "42" "zsh"].map fun r =>
          (((Daemon.adminHeaders, r), fun _ => 0) : Submission)).foldl
        (Syncs.submit (Daemon.openDaemon none)) (.start (Daemon.openDaemon none))).db.binaryPackages.rows.map
          (fun b => (b.name, b.seenInLastSync)) = [("bash", false), ("zsh", true)] := by
  refine ⟨fun h => ?_, by decide +kernel⟩
  have hapart := h fedoraOnly (fedoraSync ["41", "42"]) .fedora
    [fedoraReport "41" "bash", fedoraReport "42" "zsh"] (by decide) (by decide) (by decide)
    (by decide +kernel)
  have hscopes := hapart.scopes
  revert hscopes
  decide

end Rebuilderd.Tools
