import Rebuilderd.Migrations.Setup
import Rebuilderd.Daemon.ArtifactLogs

/-!
The migrations from the database whose logs are not compressed yet to that of the daemon, as far as
logs, builds and packages go.
-/

namespace Rebuilderd.Migrations

open Rebuilderd.Lib Rebuilderd.Common
open Rebuilderd.Daemon (BuildLog DiffoscopeLog AttestationLog Zstd DecodesTo)

/-! ### Updates of a log column -/

namespace LogColumn

def get : LogColumn → Build → Option Bytes
  | buildLog, b => b.buildLog
  | diffoscope, b => b.diffoscope
  | attestation, b => b.attestation

def set : LogColumn → Option Bytes → Build → Build
  | buildLog, data, b => { b with buildLog := data }
  | diffoscope, data, b => { b with diffoscope := data }
  | attestation, data, b => { b with attestation := data }

@[simp] lemma set_id (c : LogColumn) (data : Option Bytes) (b : Build) : (c.set data b).id = b.id := by
  cases c <;> rfl

@[simp] lemma get_set (c : LogColumn) (data : Option Bytes) (b : Build) :
    c.get (c.set data b) = data := by
  cases c <;> rfl

@[simp] lemma set_set (c : LogColumn) (data data' : Option Bytes) (b : Build) :
    c.set data (c.set data' b) = c.set data b := by
  cases c <;> rfl

end LogColumn

/-- `f` has a value for the column of every row, which without a `WHERE` may not be NULL. -/
def Updatable (c : LogColumn) (whereNotNull : Bool) (f : Bytes → Option Bytes) (b : Build) : Prop :=
  (c.get b).elim (whereNotNull = true) fun data => (f data).isSome = true

instance (c : LogColumn) (whereNotNull : Bool) (f : Bytes → Option Bytes) (b : Build) :
    Decidable (Updatable c whereNotNull f b) := by
  unfold Updatable
  cases c.get b <;> exact inferInstanceAs (Decidable (_ = _))

def OldDb.updateColumn (c : LogColumn) (whereNotNull : Bool) (f : Bytes → Option Bytes) (o : OldDb) :
    Option OldDb :=
  if ∀ b ∈ o.builds.rows, Updatable c whereNotNull f b then
    some { o with
      builds := o.builds.update (fun b => (c.get b).isSome) (fun b => c.set ((c.get b).bind f) b)
        fun b => c.set_id _ b
      buildExists := fun k hk i hi => by
        obtain ⟨b, hb, rfl⟩ := o.buildExists k hk i hi
        refine ⟨_, List.mem_map_of_mem hb, ?_⟩
        split
        · exact c.set_id _ b
        · rfl }
  else none

section
variable {c : LogColumn} {whereNotNull : Bool} {f : Bytes → Option Bytes} {o o' : OldDb}

end

/-! ### The database over the migrations -/

inductive Stage where
  | legacy (o : OldDb)
  | redesigned (d : NewDb)

/-- Migrations that add columns and tables beside those of `NewDb`, or copy tables as they are. -/
def additions : List String :=
  ["2025-08-31-145144_package-last-seen", "2025-11-12-000000_add_freebsd_git_fields",
    "2026-03-03-000000_stats-snapshots", "2026-03-03-000001_stats-categories",
    "2026-04-30-000000_binary-packages-seen-in-last-sync", "2026-05-02-000000_peer-feature",
    "2026-05-05-000000_peer-sha256-checks-simplify"]

/-- The `up.sql` of the migrations that are modelled. -/
def runSql (S : Scan) (m : Migration) : Stage → Option Stage
  | .legacy o =>
    -- The builds are copied to a table whose logs are BLOBs.
    if m.name = "2025-05-20-210543_compress-logs" then some (.legacy o)
    else if m.name = "2025-06-01-095202_redesign_database" then (redesign S o).map .redesigned
    else none
  | .redesigned d => if additions.contains m.name then some (.redesigned d) else none

/-- In what pieces `io::copy` reads. -/
def copySize : ℕ := 8192

/-- SQLite with zstd. `encode_all` hands its slice to the encoder as a whole. -/
def sqlite (z : Zstd) (fuel : ℕ) (S : Scan) : Engine Stage where
  run _ m := runSql S m
  updateColumn c whereNotNull f
    | .legacy o => (o.updateColumn c whereNotNull f).map .legacy
    | .redesigned _ => none
  encodeAll data := z.frame [data]
  decodeAll data := z.decompress copySize fuel data

/-- `MIGRATIONS`. -/
def migrations : List Migration :=
  [⟨"2019-12-05-202101_setup", "20191205202101"⟩, ⟨"2020-05-27-160242_retries", "20200527160242"⟩,
    ⟨"2020-05-27-190113_priorities", "20200527190113"⟩,
    ⟨"2020-11-07-135105_track-builds", "20201107135105"⟩,
    ⟨"2020-12-23-025138_pkgbase", "20201223025138"⟩,
    ⟨"2021-07-22-093726_has_diffoscope", "20210722093726"⟩,
    ⟨"2021-08-04-171946_queue-per-distro", "20210804171946"⟩,
    ⟨"2021-08-06-184605_add_attestation", "20210806184605"⟩,
    ⟨"2021-10-06-132128_input-url", "20211006132128"⟩,
    ⟨"2021-11-21-134730_build-groups", "20211121134730"⟩,
    ⟨"2021-11-22-110050_cleanup-pkgs-table", "20211122110050"⟩,
    ⟨"2021-11-25-002754_pkgs-table-uniq", "20211125002754"⟩,
    ⟨"2025-05-20-210543_compress-logs", "20250520210543"⟩,
    ⟨"2025-06-01-095202_redesign_database", "20250601095202"⟩,
    ⟨"2025-08-31-145144_package-last-seen", "20250831145144"⟩,
    ⟨"2025-11-12-000000_add_freebsd_git_fields", "20251112000000"⟩,
    ⟨"2026-03-03-000000_stats-snapshots", "20260303000000"⟩,
    ⟨"2026-03-03-000001_stats-categories", "20260303000001"⟩,
    ⟨"2026-04-30-000000_binary-packages-seen-in-last-sync", "20260430000000"⟩,
    ⟨"2026-05-02-000000_peer-feature", "20260502000000"⟩,
    ⟨"2026-05-05-000000_peer-sha256-checks-simplify", "20260505000000"⟩]

lemma migrations_sorted : migrations.Pairwise (·.version < ·.version) := by decide +kernel

/-- How many migrations a database has behind it whose logs are not compressed yet. -/
def uncompressed : ℕ := 12

/-! ### Compression -/

section
variable {z : Zstd} {fuel : ℕ} {S : Scan} {o : OldDb} {d d' : Stage}

end

end Rebuilderd.Migrations
