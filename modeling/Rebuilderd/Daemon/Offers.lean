import Rebuilderd.Daemon.GoodArtifacts
import Rebuilderd.Daemon.JobArtifacts

/-!
Where the artifacts of a job come from.

Each binary package was listed by a committed report, for a source package that is built as its
build input is. So also each artifact of a job that was handed out was.
-/

namespace Rebuilderd.Daemon

open Rebuilderd.Lib Rebuilderd.Common

/-- The report lists this artifact for a package that is built as the group `g` is. -/
def Offers (r : PackageReport) (g : Group) (name version url : String) : Prop :=
  ∃ p ∈ r.packages, reportedGroup r p = g ∧
    ∃ a ∈ p.artifacts, a.name = name ∧ a.version = version ∧ a.url = url

/-- A build input of the group `g` has a binary package of this name and version at this url. -/
def HasBinary (db : Db) (g : Group) (name version url : String) : Prop :=
  ∃ b ∈ db.binaryPackages.rows, b.name = name ∧ b.version = version ∧ b.artifactUrl = url ∧
    ∃ s, (b.buildInputId, s, g) ∈ db.inputs

section
variable {env : Env} {db db' : Db} {g : Group} {name version url : String} {r : PackageReport}

/-- A binary package after the artifacts of an import is one of before, or one of them. -/
lemma mem_upsertedBinaries {input : BuildInput} {as : List BinaryPackageReport} {b : BinaryPackage}
    (h : b ∈ (as.foldl (fun db a => (newBinaryPackage r input a).upsert db) db).binaryPackages.rows) :
    (∃ b₀ ∈ db.binaryPackages.rows, b₀.buildInputId = b.buildInputId ∧ b₀.name = b.name ∧
        b₀.version = b.version ∧ b₀.artifactUrl = b.artifactUrl) ∨
      b.buildInputId = input.id ∧
        ∃ a ∈ as, a.name = b.name ∧ a.version = b.version ∧ a.url = b.artifactUrl := by
  induction as generalizing db with
  | nil => exact .inl ⟨b, h, rfl, rfl, rfl, rfl⟩
  | cons a as ih =>
    rcases ih h with ⟨b₁, hb₁, hinput, hname, hversion, hurl⟩ | ⟨hinput, a', ha', hsame⟩
    · rcases (newBinaryPackage r input a).upsert_cases db with ⟨-, -, -, hrows⟩ | ⟨-, hrows⟩ <;>
        rw [hrows] at hb₁
      · obtain ⟨b₀, hb₀, rfl⟩ := List.mem_map.mp hb₁
        split at hinput
        · rename_i hconflict
          rw [if_pos hconflict] at hname hversion hurl
          simp only [NewBinaryPackage.conflicts, newBinaryPackage, Bool.and_eq_true,
            beq_iff_eq] at hconflict
          obtain ⟨⟨⟨⟨-, hid⟩, hsameName⟩, hsameVersion⟩, -⟩ := hconflict
          exact .inr ⟨hinput.symm.trans hid, a, by simp, hsameName.symm.trans hname,
            hsameVersion.symm.trans hversion, hurl⟩
        · rename_i hother
          rw [if_neg hother] at hname hversion hurl
          exact .inl ⟨b₀, hb₀, hinput, hname, hversion, hurl⟩
      · rcases List.mem_append.mp hb₁ with hb₁ | hb₁
        · exact .inl ⟨b₁, hb₁, hinput, hname, hversion, hurl⟩
        · rw [List.mem_singleton.mp hb₁] at hinput hname hversion hurl
          exact .inr ⟨hinput.symm, a, by simp, hname, hversion, hurl⟩
    · exact .inr ⟨hinput, a', by simp [ha'], hsame⟩

lemma BinariesOwned.import (h : BinariesOwned db) {c : ScheduleConfig} {T : Ties} {now : Time}
    {p : SourcePackageReport} (hok : importPackage c T now r db p = .ok db') : BinariesOwned db' := by
  obtain ⟨first, -, hi, -⟩ := importPackage_rows hok
  refine h.grow (fun x hx => ?_) fun b hb => (mem_importPackage hok hb).imp_right And.right
  rw [hi]
  exact (importRows_imported now first r p db).keeps_inputs hx

/-- A binary package after an import was there before, or the package lists it. -/
lemma hasBinary_import {c : ScheduleConfig} {T : Ties} {now : Time} {p : SourcePackageReport}
    (hp : p ∈ r.packages) (hlinked : BinariesOwned db) (hok : importPackage c T now r db p = .ok db')
    (h : HasBinary db' g name version url) :
    HasBinary db g name version url ∨ Offers r g name version url := by
  obtain ⟨first, -, hinputs, hbinaries⟩ := importPackage_rows hok
  have himp := importRows_imported now first r p db
  obtain ⟨b, hb, rfl, rfl, rfl, s, hin⟩ := h
  rw [hbinaries] at hb
  rw [hinputs] at hin
  rcases mem_upsertedBinaries hb with ⟨b₀, hb₀, hinput, hname, hversion, hurl⟩ | ⟨hinput, ha⟩
  · have hsame : ((newBuildInput first r p ((newSourcePackage now r p).upsert db).1.id).upsert
        ((newSourcePackage now r p).upsert db).2).2.binaryPackages = db.binaryPackages :=
      upsertInput_binaries _ _
    replace hb₀ : b₀ ∈ db.binaryPackages.rows := by
      rw [← hsame]
      exact hb₀
    obtain ⟨g₀, hin₀⟩ := hlinked b₀ hb₀
    rw [← hinput] at hin
    obtain rfl : g₀ = g := (inputs_inj (himp.keeps_inputs hin₀) hin).2
    exact .inl ⟨b₀, hb₀, hname, hversion, hurl, _, hin₀⟩
  · rw [hinput] at hin
    have hstored := mem_inputs.mpr ⟨_, himp.stored, rfl, rfl, rfl⟩
    obtain rfl : _ = g := (inputs_inj hstored hin).2
    exact .inr ⟨p, hp, himp.group.symm, ha⟩

lemma hasBinary_commit {c : ScheduleConfig} {T : Ties} {now : Time} (hlinked : BinariesOwned db)
    (hok : commitPackageReport c T now r db = .ok db') (h : HasBinary db' g name version url) :
    HasBinary db g name version url ∨ Offers r g name version url := by
  obtain ⟨db₁, hfold, rfl⟩ := commitPackageReport_ok hok
  have hmark (hmarked : HasBinary (markScopedPackagesUnseen r db) g name version url) :
      HasBinary db g name version url := by
    obtain ⟨b', hb', hname, hversion, hurl, hin⟩ := hmarked
    obtain ⟨b, hb, rfl⟩ := List.mem_map.mp hb'
    refine ⟨b, hb, ?_⟩
    split at hname <;> rename_i hscoped
    · simp only [if_pos hscoped] at hversion hurl hin
      exact ⟨hname, hversion, hurl, hin⟩
    · simp only [if_neg hscoped] at hversion hurl hin
      exact ⟨hname, hversion, hurl, hin⟩
  have hend : BinariesOwned db₁ ∧ (HasBinary db₁ g name version url →
      HasBinary db g name version url ∨ Offers r g name version url) := by
    refine foldlM_ok (I := fun _ d => BinariesOwned d ∧ (HasBinary d g name version url →
      HasBinary db g name version url ∨ Offers r g name version url)) hfold
      ⟨hlinked.mark r, fun h => .inl (hmark h)⟩ fun _ p d d' hp hd himp => ?_
    refine ⟨hd.1.import himp, fun h => ?_⟩
    rcases hasBinary_import hp hd.1 himp h with hold | hnew
    · exact hd.2 hold
    · exact .inr hnew
  exact hend.2 h

end

/-- **Each binary package was listed by a committed report.** -/
lemma offers_of_hasBinary {env : Env} {tr : List Event} {g : Group} {name version url : String}
    (hh : History (exec env) justified env.start tr)
    (h : HasBinary (stateAfter (exec env) env.start tr) g name version url) :
    ∃ r ∈ committed tr, Offers r g name version url := by
  obtain ⟨pre, e, post, rfl, hnot, hafter⟩ :=
    hh.origin (P := fun db => HasBinary db g name version url) (by simp [HasBinary, Env.start, Db.empty]) h
  obtain ⟨hbefore, hans, -⟩ := hh.event
  have hlinked : BinariesOwned e.before := by
    have hpre : History (exec env) justified env.start ([] ++ pre) := hh.of_append
    rw [hbefore]
    exact hpre.stable (exec_binariesOwned env) (by simp [BinariesOwned, Env.start, Db.empty])
  rcases committed_cases hans with ⟨now, r, hr, hok⟩ | ⟨-, hbinaries, -, hinputs⟩
  · refine ⟨r, ?_, (hasBinary_commit hlinked hok hafter).resolve_left hnot⟩
    simp [committed, hr]
  · obtain ⟨b, hb, hname, hversion, hurl, s, hin⟩ := hafter
    rw [hbinaries] at hb
    rw [hinputs] at hin
    exact absurd ⟨b, hb, hname, hversion, hurl, s, hin⟩ hnot

end Rebuilderd.Daemon
