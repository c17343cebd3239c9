import Rebuilderd.Lib.Resume
import Rebuilderd.Migrations.Redesign

/-!
How the daemon brings its database up to date when it starts.

A migration runs in a transaction together with its code and the row that says it was applied, since
none comes with a `metadata.toml`. A daemon that stops within one leaves nothing of it behind.
-/

namespace Rebuilderd.Migrations

open Rebuilderd.Lib Rebuilderd.Common

/-- A migration as it is embedded in the daemon. -/
structure Migration where
  name : String
  version : String
  deriving DecidableEq

/-- The database, with the versions in `__diesel_schema_migrations`. -/
structure Managed (D : Type) where
  data : D
  applied : List String
  deriving DecidableEq

/-! ### Code migrations -/

/-- The columns of the builds that are logs. -/
inductive LogColumn where
  | buildLog
  | diffoscope
  | attestation
  deriving DecidableEq

/-- SQLite, with the functions it is given. -/
structure Engine (D : Type) where
  /-- `up.sql` of a migration, run at some time. -/
  run : Time → Migration → D → Option D
  /-- `UPDATE builds SET column = f(column)`, with a `WHERE column IS NOT NULL` or without. -/
  updateColumn : LogColumn → Bool → (Bytes → Option Bytes) → D → Option D
  encodeAll : Bytes → Bytes
  decodeAll : Bytes → Option Bytes

structure CodeMigration (D : Type) where
  prepare : D → Option D := some
  preUp : D → Option D := some
  preDown : D → Option D := some
  postUp : D → Option D := some
  postDown : D → Option D := some

variable {D : Type} (e : Engine D)

def compressLogsMigration : CodeMigration D where
  postUp d := do
    let d ← e.updateColumn .buildLog false (fun data => some (e.encodeAll data)) d
    let d ← e.updateColumn .diffoscope true (fun data => some (e.encodeAll data)) d
    e.updateColumn .attestation true (fun data => some (e.encodeAll data)) d
  preDown d := do
    let d ← e.updateColumn .buildLog false e.decodeAll d
    let d ← e.updateColumn .diffoscope true e.decodeAll d
    e.updateColumn .attestation true e.decodeAll d

def getCodeMigration (m : Migration) : CodeMigration D :=
  if m.name = "2025-05-20-210543_compress-logs" then compressLogsMigration e else {}

/-- What `apply_migration` does to the data. -/
def applyMigration (now : Time) (m : Migration) (d : D) : Option D := do
  let d ← (getCodeMigration e m).prepare d
  let d ← (getCodeMigration e m).preUp d
  let d ← e.run now m d
  (getCodeMigration e m).postUp d

/-- The version is the primary key of `__diesel_schema_migrations`. -/
def runCodeBackedMigration (now : Time) (m : Migration) (db : Managed D) : Option (Managed D) := do
  let d ← applyMigration e now m db.data
  if db.applied.contains m.version then none else some ⟨d, db.applied ++ [m.version]⟩

/-! ### Setup -/

/-- The migrations that have not been applied, in the order of their versions. -/
def pendingMigrations (ms : List Migration) (applied : List String) : List Migration :=
  (ms.filter fun m => !applied.contains m.version).insertionSort fun m m' => m.version ≤ m'.version

/-- The loop, which is at its migrations at these times; it is stopped once there are no more of
them. Says whether it got to its end. -/
def setup (ms : List Migration) : List Time → Managed D → Managed D × Bool
  | [], db => (db, (pendingMigrations ms db.applied).isEmpty)
  | now :: times, db =>
    match (pendingMigrations ms db.applied).head? with
    | none => (db, true)
    | some m =>
      match runCodeBackedMigration e now m db with
      | none => (db, false)
      | some db => setup ms times db

/-- A start of the daemon, of a release with these migrations. -/
structure Attempt where
  release : List Migration
  times : List Time

def attempt (db : Managed D) (a : Attempt) : Managed D := (setup e a.release a.times db).1

/-! ### What is applied -/

/-- Of the migrations `latest`, the first `k` have been applied, and all but the first `n` of them
since the data was `d`. -/
structure Upto (latest : List Migration) (n : ℕ) (d : D) (k : ℕ) (db : Managed D) : Prop where
  le : n ≤ k
  length : k ≤ latest.length
  applied : db.applied = (latest.take k).map (·.version)
  data : Done (applyMigration e) ((latest.take k).drop n) d db.data

section
variable {e} {latest ms : List Migration} {n k : ℕ} {d : D} {db db' : Managed D}

lemma nodup_versions (hlatest : latest.Pairwise (·.version < ·.version)) :
    (latest.map (·.version)).Nodup :=
  List.pairwise_map.mpr (hlatest.imp fun hlt => hlt.ne)

lemma exists_eq_take (h : ms <+: latest) : ∃ j ≤ latest.length, ms = latest.take j :=
  ⟨ms.length, h.length_le, List.prefix_iff_eq_take.mp h⟩

/-- Of a release, what comes after the first `k` is pending. -/
lemma Upto.pending (hlatest : latest.Pairwise (·.version < ·.version)) (h : Upto e latest n d k db)
    (hms : ms <+: latest) : pendingMigrations ms db.applied = ms.drop k := by
  obtain ⟨j, -, rfl⟩ := exists_eq_take hms
  have hsorted : ((latest.take j).drop k).Pairwise fun m m' => m.version ≤ m'.version :=
    ((hlatest.sublist (List.take_sublist _ _)).sublist (List.drop_sublist _ _)).imp fun hlt => hlt.le
  rw [pendingMigrations, h.applied, filter_take_eq_drop (nodup_versions hlatest)]
  exact hsorted.insertionSort_eq

lemma Upto.refl (hn : n ≤ latest.length) (d : D) :
    Upto e latest n d n ⟨d, (latest.take n).map (·.version)⟩ := by
  refine ⟨le_rfl, hn, rfl, ?_⟩
  rw [List.drop_eq_nil_of_le (List.length_take_le n latest)]
  exact .nil d

lemma runCodeBackedMigration_eq_some {now : Time} {m : Migration} :
    runCodeBackedMigration e now m db = some db' ↔ applyMigration e now m db.data = some db'.data ∧
      m.version ∉ db.applied ∧ db'.applied = db.applied ++ [m.version] := by
  unfold runCodeBackedMigration
  rcases applyMigration e now m db.data with _ | d
  · simp
  · by_cases hm : m.version ∈ db.applied
    · simp [hm]
    · obtain ⟨d', applied'⟩ := db'
      simp [hm, eq_comm]

/-- A migration that is committed is the next one. -/
lemma Upto.commit (h : Upto e latest n d k db) {m : Migration} (hm : latest[k]? = some m)
    {now : Time} (hrun : runCodeBackedMigration e now m db = some db') :
    Upto e latest n d (k + 1) db' := by
  obtain ⟨hdata, -, happlied⟩ := runCodeBackedMigration_eq_some.mp hrun
  obtain ⟨hlt, -⟩ := List.getElem?_eq_some_iff.mp hm
  have htake : latest.take (k + 1) = latest.take k ++ [m] := by rw [List.take_add_one, hm]; rfl
  refine ⟨h.le.trans k.le_succ, hlt, ?_, ?_⟩
  · rw [happlied, h.applied, htake, List.map_append, List.map_singleton]
  · have hn : n ≤ (latest.take k).length := by rw [List.length_take]; exact le_min h.le (h.le.trans h.length)
    rw [htake, List.drop_append_of_le_length hn]
    exact h.data.snoc hdata

/-- What a start of the daemon leaves: some of its migrations were committed, all of them if it got
to the end. -/
lemma Upto.setup (hlatest : latest.Pairwise (·.version < ·.version)) (hms : ms <+: latest)
    (times : List Time) (h : Upto e latest n d k db) :
    ∃ k', Upto e latest n d k' (setup e ms times db).1 ∧
      ((setup e ms times db).2 = true → ms.length ≤ k') := by
  induction times generalizing k db with
  | nil =>
    refine ⟨k, h, fun hdone => ?_⟩
    rw [Migrations.setup, h.pending hlatest hms] at hdone
    exact List.drop_eq_nil_iff.mp (List.isEmpty_iff.mp hdone)
  | cons now times ih =>
    rw [Migrations.setup, h.pending hlatest hms, List.head?_drop]
    rcases hnext : ms[k]? with _ | m
    · exact ⟨k, h, fun _ => List.getElem?_eq_none_iff.mp hnext⟩
    · have hlater : latest[k]? = some m := by
        obtain ⟨later, rfl⟩ := hms
        rw [List.getElem?_append_left (List.getElem?_eq_some_iff.mp hnext).1]
        exact hnext
      dsimp only
      rcases hrun : runCodeBackedMigration e now m db with _ | db'
      · exact ⟨k, h, nofun⟩
      · exact ih (h.commit hlater hrun)

/-- Whatever starts there were, the migrations that are applied are the first ones. -/
lemma Upto.attempts (hlatest : latest.Pairwise (·.version < ·.version)) {attempts : List Attempt}
    (hreleases : ∀ a ∈ attempts, a.release <+: latest) (h : Upto e latest n d k db) :
    ∃ k', Upto e latest n d k' (attempts.foldl (attempt e) db) := by
  induction attempts generalizing k db with
  | nil => exact ⟨k, h⟩
  | cons a attempts ih =>
    obtain ⟨k', h', -⟩ := h.setup hlatest (hreleases a List.mem_cons_self) a.times
    exact ih (fun b hb => hreleases b (List.mem_cons_of_mem _ hb)) h'

/-- Jobs that can be done at some times are done by a start of the daemon at these times. -/
lemma Upto.setup_of_done (hlatest : latest.Pairwise (·.version < ·.version))
    (h : Upto e latest n d k db) {d' : D} (hdone : Done (applyMigration e) (latest.drop k) db.data d') :
    ∃ times, Migrations.setup e latest times db = (⟨d', latest.map (·.version)⟩, true) := by
  generalize hrest : latest.drop k = rest at hdone
  obtain ⟨data, applied⟩ := db
  dsimp only at hdone
  induction hdone generalizing k applied with
  | nil d' =>
    refine ⟨[], ?_⟩
    rw [Migrations.setup, h.pending hlatest List.prefix_rfl, hrest]
    have hk : latest.take k = latest := List.take_of_length_le (List.drop_eq_nil_iff.mp hrest)
    rw [show applied = _ from h.applied, hk]
    rfl
  | @cons now m rest d d' d'' hjob _ ih =>
    have hnext : latest[k]? = some m := by rw [← List.head?_drop, hrest]; rfl
    have hnew : m.version ∉ applied := by
      have hm : m ∈ pendingMigrations latest applied := by
        rw [h.pending hlatest List.prefix_rfl, hrest]
        exact List.mem_cons_self
      simpa using (List.mem_filter.mp ((List.mem_insertionSort _).mp hm)).2
    have hrun : runCodeBackedMigration e now m ⟨d, applied⟩ = some ⟨d', applied ++ [m.version]⟩ :=
      runCodeBackedMigration_eq_some.mpr ⟨hjob, hnew, rfl⟩
    have hrest' : latest.drop (k + 1) = rest := by rw [← List.drop_drop, hrest]; rfl
    obtain ⟨times, htimes⟩ := ih hrest' _ (h.commit hnext hrun)
    refine ⟨now :: times, ?_⟩
    rw [Migrations.setup, h.pending hlatest List.prefix_rfl, hrest]
    dsimp only [List.head?_cons]
    rw [hrun]
    exact htimes

end

end Rebuilderd.Migrations
