import Rebuilderd.Migrations.CompressLogs
import Rebuilderd.Migrations.Preserved

/-!
From a database whose logs are not compressed yet to that of the daemon, with the daemon stopped
and started again on the way.
-/

namespace Rebuilderd.Migrations

open Rebuilderd.Lib Rebuilderd.Common
open Rebuilderd.Daemon (BuildLog DiffoscopeLog AttestationLog Zstd DecodesTo)

/-! ### The migrations one by one -/

section
variable {z : Zstd} {fuel : ℕ} {S : Scan} {o : OldDb} {d d' : Stage} {now : Time}

end

/-! ### Logs -/

/-- The id of a log that decodes to this one, NULL if there is none. -/
def KeepsLog (z : Zstd) (logs : List (ℕ × Bytes)) : Option Bytes → Option ℕ → Prop :=
  Option.Rel fun log id => ∃ stored, (id, stored) ∈ logs ∧ DecodesTo z stored log

def NewDb.diffoscopes (d : NewDb) : List (ℕ × Bytes) :=
  (d.diffoscopeLogs.map (·.2)).map fun l => (l.id, l.diffoscopeLog)

def NewDb.attestations (d : NewDb) : List (ℕ × Bytes) :=
  (d.attestationLogs.map (·.2)).map fun l => (l.id, l.attestationLog)

/-- The row is of the package, and has the logs of its build. -/
structure IsArtifactOf (z : Zstd) (d : NewDb) (k : Package) (b : Build) (a : RebuildArtifact) :
    Prop where
  name : a.name = k.name
  status : a.status = some k.status
  diffoscope : KeepsLog z d.diffoscopes b.diffoscope a.diffoscopeLogId
  attestation : KeepsLog z d.attestations b.attestation a.attestationLogId

/-- Each rebuild has the build log of some build of its source package, and each artifact the other logs
of a built package; of every built package these are kept. -/
structure LogsKept (z : Zstd) (o : OldDb) (d : NewDb) : Prop where
  rebuild : ∀ r ∈ d.rebuilds, ∃ x ∈ d.buildInputs, x.2.id = r.2.buildInputId ∧
    ∃ p ∈ o.pkgbases.rows, p.group = x.1.1.group ∧ ∃ k ∈ o.packages.rows, k.pkgbaseId = p.id ∧
      ∃ b ∈ o.builds.rows, k.buildId = some b.id ∧ ∃ log, b.buildLog = some log ∧
        ∃ l ∈ d.buildLogs, l.2.id = r.2.buildLogId ∧ DecodesTo z l.2.buildLog log
  artifact : ∀ a ∈ d.rebuildArtifacts, ∃ k ∈ o.packages.rows, ∃ b ∈ o.builds.rows,
    k.buildId = some b.id ∧ IsArtifactOf z d k b a.2
  package : ∀ k ∈ o.packages.rows, ∀ b ∈ o.builds.rows, k.buildId = some b.id →
    ∃ a ∈ d.rebuildArtifacts, IsArtifactOf z d k b a.2

section
variable {z : Zstd} {Remains : z.Decoder → Bytes → Prop} {S : Scan} {o o' : OldDb} {d : NewDb}

end

/-! ### Starts of the daemon -/

/-- What starts of the daemon have done to the first database when one comes through `setup`. -/
lemma done_of_setup {D : Type} {e : Engine D} {latest : List Migration}
    (hlatest : latest.Pairwise (·.version < ·.version)) {n : ℕ} (hn : n ≤ latest.length) {d : D}
    {attempts : List Attempt} (hreleases : ∀ a ∈ attempts, a.release <+: latest) {times : List Time}
    {db : Managed D} (hsetup : setup e latest times
      (attempts.foldl (attempt e) ⟨d, (latest.take n).map (·.version)⟩) = (db, true)) :
    db.applied = latest.map (·.version) ∧ Done (applyMigration e) (latest.drop n) d db.data := by
  obtain ⟨k, hk⟩ := (Upto.refl (e := e) hn d).attempts hlatest hreleases
  obtain ⟨k', hk', hdone⟩ := hk.setup hlatest List.prefix_rfl times
  rw [hsetup] at hk' hdone
  have hall : latest.take k' = latest := List.take_of_length_le (hdone rfl)
  have hdata := hk'.data
  have happlied := hk'.applied
  rw [hall] at hdata happlied
  exact ⟨happlied, hdata⟩

/-- Two packages, of two builds. -/
def twoBuilds : OldDb where
  pkgbases := ⟨[⟨1, "ghc", "9.0", "debian", "main", "amd64", some "ghc.dsc", 0, none⟩], 1,
    by decide, by decide⟩
  packages := ⟨[⟨1, 1, "ghc", "9.0", "BAD", "debian", "main", "amd64", "ghc.deb", some 1, none⟩,
    ⟨2, 1, "ghc-doc", "9.0", "GOOD", "debian", "main", "amd64", "ghc-doc.deb", some 2, none⟩], 2,
    by decide, by decide⟩
  builds := ⟨[⟨1, some [1], some [2], none⟩, ⟨2, none, some [3], some [4]⟩], 2, by decide, by decide⟩
  pkgbaseUnique := by decide
  packagesUnique := by decide
  pkgbaseExists := by decide
  buildExists := by decide

/-- A release that compresses the logs and no more, and one that is stopped before it starts. -/
def twoAttempts : List Attempt := [⟨migrations.take 13, [1]⟩, ⟨migrations, []⟩]

lemma twoAttempts_prefix : ∀ a ∈ twoAttempts, a.release <+: migrations := by decide +kernel

lemma twoBuilds_setup : (setup (sqlite Daemon.plainZstd 10 .inOrder) migrations [2, 3, 4, 5, 6, 7, 8, 9]
    (twoAttempts.foldl (attempt (sqlite Daemon.plainZstd 10 .inOrder))
      ⟨.legacy twoBuilds, (migrations.take uncompressed).map (·.version)⟩)).2 = true := by
  decide +kernel

/-- **However often it was stopped and started again, by whatever releases, a daemon that comes
through `setup` has the database that a single start would have made of the first one.** -/
theorem setup_resumes {D : Type} (e : Engine D) {latest : List Migration}
    (hlatest : latest.Pairwise (·.version < ·.version)) {n : ℕ} (hn : n ≤ latest.length) (d : D)
    {attempts : List Attempt} (hreleases : ∀ a ∈ attempts, a.release <+: latest) {times : List Time}
    {db : Managed D} (hsetup : setup e latest times
      (attempts.foldl (attempt e) ⟨d, (latest.take n).map (·.version)⟩) = (db, true)) :
    db.applied = latest.map (·.version) ∧
      ∃ times, setup e latest times ⟨d, (latest.take n).map (·.version)⟩ = (db, true) := by
  obtain ⟨happlied, hdone⟩ := done_of_setup hlatest hn hreleases hsetup
  refine ⟨happlied, ?_⟩
  obtain ⟨times, htimes⟩ := (Upto.refl (e := e) hn d).setup_of_done hlatest hdone
  exact ⟨times, by rw [htimes, ← happlied]⟩

theorem setup_resumes_twoBuilds : ∃ db : Managed Stage, db.applied = migrations.map (·.version) ∧
    ∃ times, setup (sqlite Daemon.plainZstd 10 .inOrder) migrations times
      ⟨.legacy twoBuilds, (migrations.take uncompressed).map (·.version)⟩ = (db, true) :=
  ⟨_, setup_resumes (sqlite Daemon.plainZstd 10 .inOrder) migrations_sorted (by decide)
    (.legacy twoBuilds) twoAttempts_prefix (Prod.ext rfl twoBuilds_setup)⟩

end Rebuilderd.Migrations
