import Rebuilderd.Daemon.Committed
import Rebuilderd.Tools.Indices

/-!
From the index of a mirror to the packages that the daemon shows.

A sync downloads the indices, groups the packages and submits a report for every scope. Meanwhile the
daemon serves workers, admins and other syncs. What it shows of a scope in the end is what the index
of the sync that came last lists.
-/

namespace Rebuilderd.Tools

open Rebuilderd.Common Rebuilderd.Lib
open Rebuilderd.Daemon (Schedule AllPlain BinaryKey committed runPool seenKeys trace)

/-- A binary package as an index lists it. -/
def listedAs (k : BinaryKey) : Listed := ⟨(k.source.name, k.source.version), k.url, (k.name, k.version)⟩

/-- The reports are those of a sync that has downloaded the index of the scope, which lists these
packages. -/
inductive Mirrored (env : Env) (sync : PkgsSync) :
    Method → List PackageReport → Scope → Set Listed → Prop
  | archlinux {reports ds scope listed} (run : ArchLinux.sync env.archlinux sync [] = .ok (reports, ds))
      (index : ArchLinux.Indexed env.archlinux sync ds scope listed) :
      Mirrored env sync .archlinux reports scope listed
  | debian {reports ds scope listed} (run : Debian.sync env.debian sync [] = .ok (reports, ds))
      (index : Debian.Indexed env.debian sync ds scope listed) :
      Mirrored env sync .debian reports scope listed
  | fedora {reports ds scope listed} (run : Fedora.sync env.fedora sync [] = .ok (reports, ds))
      (index : Fedora.Indexed env.fedora sync ds scope listed) :
      Mirrored env sync .fedora reports scope listed
  | freebsd {reports ds scope listed} (run : FreeBsd.sync env.freebsd sync [] = .ok (reports, ds))
      (index : FreeBsd.Indexed env.freebsd sync ds scope listed) :
      Mirrored env sync .freebsd reports scope listed

lemma fst_ok {κ : Type} {x : Fetch κ (List PackageReport)} {reports : List PackageReport}
    (h : Prod.fst <$> x [] = .ok reports) : ∃ ds, x [] = .ok (reports, ds) := by
  rcases hrun : x [] with e | ⟨rs, ds⟩
  · rw [hrun] at h
    cases h
  · rw [hrun] at h
    cases h
    exact ⟨ds, rfl⟩

/-- Every report of a sync lists what the index of its scope lists. -/
lemma mirrored_of_mem {env : Env} {sync : PkgsSync} {method : Method} {reports : List PackageReport}
    {r : PackageReport} (hreleases : method = .debian → sync.releases.Nodup)
    (hsync : schedule env sync method = .ok reports) (hr : r ∈ reports) :
    ∃ listed, Mirrored env sync method reports r.scope listed ∧
      ∀ x, Lists r.packages x ↔ x ∈ listed := by
  cases method with
  | archlinux =>
    obtain ⟨ds, hrun⟩ := fst_ok hsync
    obtain ⟨listed, hindex, hlists⟩ := ArchLinux.sync_fromIndex hrun r hr
    exact ⟨listed, .archlinux hrun hindex, hlists⟩
  | debian =>
    obtain ⟨ds, hrun⟩ := fst_ok hsync
    obtain ⟨listed, hindex, hlists⟩ := Debian.sync_fromIndex (hreleases rfl) hrun r hr
    exact ⟨listed, .debian hrun hindex, hlists⟩
  | fedora =>
    obtain ⟨ds, hrun⟩ := fst_ok hsync
    obtain ⟨listed, hindex, hlists⟩ := Fedora.sync_fromIndex hrun r hr
    exact ⟨listed, .fedora hrun hindex, hlists⟩
  | freebsd =>
    obtain ⟨ds, hrun⟩ := fst_ok hsync
    obtain ⟨listed, hindex, hlists⟩ := FreeBsd.sync_fromIndex hrun r hr
    exact ⟨listed, .freebsd hrun hindex, hlists⟩

lemma listsBinary_iff {r : PackageReport} {k : BinaryKey} :
    Daemon.listsBinary r k = true ↔ Lists r.packages (listedAs k) := by
  simp [Daemon.listsBinary, Daemon.listsArtifact, Lists, listedAs, and_assoc]

/-- **What a mirror lists is what the daemon shows**: if the last report about a scope that was committed
is one of a sync, whatever other requests and syncs were served in between, the binary packages of the
scope that are seen are those that the downloaded index lists, under their source packages. -/
theorem mirror_shown (env : Env) (sync : PkgsSync) (method : Method) (reports : List PackageReport)
    (daemon : Daemon.Env) (as : Schedule) (r : PackageReport)
    (hreleases : method = .debian → sync.releases.Nodup)
    (hsync : schedule env sync method = .ok reports) (hr : r ∈ reports)
    (hplain : AllPlain (trace daemon as))
    (hlast : latest PackageReport.scope (committed (trace daemon as)) r.scope = some r) :
    ∃ listed, Mirrored env sync method reports r.scope listed ∧
      ∀ k : BinaryKey, k.scope = r.scope →
        (k ∈ seenKeys (runPool daemon as).state ↔ listedAs k ∈ listed) := by
  obtain ⟨listed, hmirrored, hlists⟩ := mirrored_of_mem hreleases hsync hr
  have hseen := (Daemon.seenSoFar_trace (Daemon.trace_history daemon as) hplain).seen
  rw [← Daemon.state_runPool] at hseen
  refine ⟨listed, hmirrored, fun k hk => ?_⟩
  rw [hseen, Daemon.listedNow, current_iff, hk, hlast, ← hlists, ← listsBinary_iff]
  simp

/-- Two syncs report about the same scope at the same time. The one that has started first is committed
last. -/
def twoSyncs : Schedule :=
  [.call (.submitPackageReport Daemon.adminHeaders (fedoraReport "41" "bash")), .step 0 1,
    .call (.submitPackageReport Daemon.adminHeaders (fedoraReport "42" "zsh")), .step 1 2, .step 1 3,
    .step 0 4]

theorem mirror_shown_twoSyncs :
    ∃ listed, Mirrored fedoraOnly (fedoraSync ["41"]) .fedora [fedoraReport "41" "bash"]
        (fedoraReport "41" "bash").scope listed ∧
      ∀ k : BinaryKey, k.scope = (fedoraReport "41" "bash").scope →
        (k ∈ seenKeys (runPool (Daemon.openDaemon none) twoSyncs).state ↔ listedAs k ∈ listed) :=
  mirror_shown fedoraOnly (fedoraSync ["41"]) .fedora [fedoraReport "41" "bash"] (Daemon.openDaemon none)
    twoSyncs (fedoraReport "41" "bash") (by simp) (by decide +kernel) (by simp) (by decide +kernel)
    (by decide +kernel)

end Rebuilderd.Tools
