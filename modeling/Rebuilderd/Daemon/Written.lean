import Rebuilderd.Lib.Upserts
import Rebuilderd.Daemon.BinaryListing
import Rebuilderd.Daemon.Tries

/-!
The rows a package report writes.

What a report does to source packages and to binary packages is a sequence of upserts. It depends
on the rows that were there, but on nothing else the report does, and reporting the same packages
again writes the same rows.
-/

namespace Rebuilderd.Daemon

open Rebuilderd.Lib Rebuilderd.Common

/-! ### Upserts of packages -/

/-- The packages of a report, as writes to the source packages. -/
def sourceUpserts (now : Time) (r : PackageReport) :
    Upserts SourcePackage SourcePackageReport (String × String × String × String × String) where
  of := reportedKey r
  keyOf := SourcePackage.uniqueKey
  make p := (newSourcePackage now r p).row
  write p s := (newSourcePackage now r p).row s.id
  key_make _ _ := rfl
  key_write _ _ := rfl
  keyOf_make _ _ := rfl
  keyOf_write _ _ _ := rfl
  write_make _ _ := rfl
  write_write _ _ _ := rfl

lemma NewBinaryPackage.key_row (n : NewBinaryPackage) (i : ℕ) : Row.key (n.row i) = i := rfl

lemma NewBinaryPackage.key_refreshed (n : NewBinaryPackage) (b : BinaryPackage) :
    Row.key { b with artifactUrl := n.artifactUrl, seenInLastSync := n.seenInLastSync } =
      Row.key b := rfl

/-- Writes to the binary packages. -/
def binaryUpserts : Upserts BinaryPackage NewBinaryPackage (ℕ × ℕ × String × String × String) where
  of n := (n.sourcePackageId, n.buildInputId, n.name, n.version, n.architecture)
  keyOf := BinaryPackage.columns
  make := NewBinaryPackage.row
  write n b := { b with artifactUrl := n.artifactUrl, seenInLastSync := n.seenInLastSync }
  key_make := NewBinaryPackage.key_row
  key_write := NewBinaryPackage.key_refreshed
  keyOf_make _ _ := rfl
  keyOf_write _ _ h := h
  write_make _ _ := rfl
  write_write _ _ _ := rfl

/-- The ids under which a report finds the source package and the build input of `p`. -/
def IdsOf (r : PackageReport) (p : SourcePackageReport) (db : Db) (x : ℕ × ℕ) : Prop :=
  (∃ s ∈ db.sourcePackages.rows, s.id = x.1 ∧ s.uniqueKey = reportedKey r p) ∧
    (x.2, x.1, reportedGroup r p) ∈ db.inputs

def idsOf (r : PackageReport) (db : Db) (p : SourcePackageReport) : Option (ℕ × ℕ) :=
  (db.inputs.find? fun x => x.2.2 == reportedGroup r p && db.sourcePackages.rows.any fun s =>
    s.id == x.2.1 && s.uniqueKey == reportedKey r p).map fun x => (x.2.1, x.1)

/-- The binary package of an artifact, with the ids of its source package and its build input. -/
def reportedBinary (r : PackageReport) (x : ℕ × ℕ) (a : BinaryPackageReport) : NewBinaryPackage where
  sourcePackageId := x.1
  buildInputId := x.2
  name := a.name
  version := a.version
  architecture := r.architecture
  artifactUrl := a.url
  seenInLastSync := true

/-- The writes of some packages of a report to the binary packages. -/
def binaryWrites (r : PackageReport) (ps : List SourcePackageReport) (db : Db) :
    List NewBinaryPackage :=
  ps.flatMap fun p => (idsOf r db p).elim [] fun x => p.artifacts.map (reportedBinary r x)

/-- No source package and no build input was removed or got another id. -/
structure KeepsIds (db db' : Db) : Prop where
  sources : ∀ s ∈ db.sourcePackages.rows, ∃ s' ∈ db'.sourcePackages.rows, s'.id = s.id ∧
    s'.uniqueKey = s.uniqueKey
  inputs : ∀ x ∈ db.inputs, x ∈ db'.inputs

section
variable {c : ScheduleConfig} {T : Ties} {now : Time} {r : PackageReport} {p : SourcePackageReport}
  {ps : List SourcePackageReport} {db d d' : Db} {x y : ℕ × ℕ}

lemma KeepsIds.refl (db : Db) : KeepsIds db db := ⟨fun s hs => ⟨s, hs, rfl, rfl⟩, fun _ hx => hx⟩

lemma KeepsIds.trans (h : KeepsIds db d) (h' : KeepsIds d d') : KeepsIds db d' := by
  refine ⟨fun s hs => ?_, fun x hx => h'.inputs x (h.inputs x hx)⟩
  obtain ⟨s₁, hs₁, hid₁, hkey₁⟩ := h.sources s hs
  obtain ⟨s₂, hs₂, hid₂, hkey₂⟩ := h'.sources s₁ hs₁
  exact ⟨s₂, hs₂, hid₂.trans hid₁, hkey₂.trans hkey₁⟩

lemma KeepsIds.idsOf (h : KeepsIds d d') (hx : IdsOf r p d x) : IdsOf r p d' x := by
  obtain ⟨⟨s, hs, hid, hkey⟩, hi⟩ := hx
  obtain ⟨s', hs', hid', hkey'⟩ := h.sources s hs
  exact ⟨⟨s', hs', hid'.trans hid, hkey'.trans hkey⟩, h.inputs _ hi⟩

lemma idsOf_unique (hu : Unique d) (hx : IdsOf r p d x) (hy : IdsOf r p d y) : x = y := by
  obtain ⟨⟨s, hs, hid, hkey⟩, hi⟩ := hx
  obtain ⟨⟨s', hs', hid', hkey'⟩, hi'⟩ := hy
  obtain rfl := hu.source_eq hs hs' (hkey.trans hkey'.symm)
  have hsource : x.1 = y.1 := hid.symm.trans hid'
  exact Prod.ext hsource (hu.input_eq hi (hsource ▸ hi'))

lemma idsOf_eq (hu : Unique d) (hx : IdsOf r p d x) : idsOf r d p = some x := by
  have hiff (z : ℕ × ℕ × Group) (hz : z ∈ d.inputs) : (z.2.2 == reportedGroup r p &&
      d.sourcePackages.rows.any fun s => s.id == z.2.1 && s.uniqueKey == reportedKey r p) = true ↔
        IdsOf r p d (z.2.1, z.1) := by
    obtain ⟨i, s, g⟩ := z
    simp only [IdsOf, Bool.and_eq_true, beq_iff_eq, List.any_eq_true]
    constructor
    · rintro ⟨rfl, hs⟩
      exact ⟨hs, hz⟩
    · rintro ⟨hs, hi⟩
      exact ⟨(inputs_inj hz hi).2, hs⟩
  unfold idsOf
  rcases hfind : d.inputs.find? _ with _ | z
  · have := List.find?_eq_none.mp hfind _ hx.2
    exact absurd ((hiff _ hx.2).mpr hx) this
  · have hz := (hiff z (List.mem_of_find?_eq_some hfind)).mp (by simpa using List.find?_some hfind)
    rw [Option.map_some, idsOf_unique hu hx hz]

/-- The writes are the same after other packages were imported. -/
lemma KeepsIds.binaryWrites (h : KeepsIds d d') (hu : Unique d) (hu' : Unique d')
    (hps : ∀ p ∈ ps, ∃ x, IdsOf r p d x) : binaryWrites r ps d' = binaryWrites r ps d := by
  unfold Daemon.binaryWrites
  rw [List.flatMap_def, List.flatMap_def]
  refine congrArg List.flatten (List.map_congr_left fun p hp => ?_)
  obtain ⟨x, hx⟩ := hps p hp
  rw [idsOf_eq hu hx, idsOf_eq hu' (h.idsOf hx)]

/-! ### The rows after a report -/

lemma one_source (now : Time) (r : PackageReport) (p : SourcePackageReport) (db : Db) :
    ((newSourcePackage now r p).upsert db).2.sourcePackages =
      (sourceUpserts now r).one db.sourcePackages p := by
  have hconf : (newSourcePackage now r p).conflicts =
      fun s => decide (s.uniqueKey = reportedKey r p) := by
    funext s
    rw [Bool.eq_iff_iff, conflicts_iff_reported, decide_eq_true_eq]
  unfold NewSourcePackage.upsert
  simp only [hconf]
  rfl

lemma one_binary (n : NewBinaryPackage) (db : Db) :
    (n.upsert db).binaryPackages = binaryUpserts.one db.binaryPackages n := by
  have hconf : n.conflicts = fun b => decide (b.columns = binaryUpserts.of n) := by
    funext b
    rw [Bool.eq_iff_iff, conflicts_binary_iff, decide_eq_true_eq]
    rfl
  unfold NewBinaryPackage.upsert
  simp only [hconf]
  rfl

lemma all_binaries (r : PackageReport) (input : BuildInput) (as : List BinaryPackageReport) (db : Db) :
    (as.foldl (fun db a => (newBinaryPackage r input a).upsert db) db).binaryPackages =
      binaryUpserts.all (as.map (reportedBinary r (input.sourcePackageId, input.id)))
        db.binaryPackages := by
  induction as generalizing db with
  | nil => rfl
  | cons a as ih =>
    rw [List.foldl_cons, ih, one_binary]
    rfl

lemma importRows_binaries (now : Time) (first : Option Time) (r : PackageReport)
    (p : SourcePackageReport) (db : Db) :
    (importRows now first r p db).2.binaryPackages = binaryUpserts.all (p.artifacts.map
      (reportedBinary r ((importRows now first r p db).1.sourcePackageId,
        (importRows now first r p db).1.id))) db.binaryPackages := by
  unfold importRows
  dsimp only
  rw [all_binaries]
  rcases (newBuildInput first r p ((newSourcePackage now r p).upsert db).1.id).upsert_cases
    ((newSourcePackage now r p).upsert db).2 with ⟨b, -, -, heq⟩ | ⟨-, heq⟩ <;> (rw [heq]; rfl)

/-- The database `d` after the packages `ps` of a report, from `db`. -/
structure Written (now : Time) (r : PackageReport) (ps : List SourcePackageReport) (db d : Db) :
    Prop where
  unique : Unique d
  keeps : KeepsIds db d
  ids : ∀ p ∈ ps, ∃ x, IdsOf r p d x
  sources : d.sourcePackages = (sourceUpserts now r).all ps db.sourcePackages
  binaries : d.binaryPackages = binaryUpserts.all (binaryWrites r ps d) db.binaryPackages

lemma keepsIds_mark (r : PackageReport) (db : Db) : KeepsIds db (markScopedPackagesUnseen r db) := by
  refine ⟨fun s hs => ⟨_, List.mem_map.mpr ⟨s, hs, rfl⟩, ?_⟩, fun _ hx => hx⟩
  split <;> exact ⟨rfl, rfl⟩

lemma keepsIds_import (hok : importPackage c T now r d p = .ok d') : KeepsIds d d' := by
  obtain ⟨first, -, henq⟩ := importPackage_ok hok
  have himp := importWithHistory_imported now first r p d
  obtain ⟨⟨-, hin⟩, -⟩ := enqueueImported_queue (mem_inputs.mpr ⟨_, himp.stored, rfl, rfl, rfl⟩) henq
  refine ⟨fun s hs => ?_, fun x hx => ?_⟩
  · obtain ⟨s', hs', hid, hmoved, hsame⟩ := upsertSource_row now r p hs
    refine ⟨s', importPackage_sources hok ▸ hs', hid, ?_⟩
    by_cases hkey : s.uniqueKey = reportedKey r p
    · exact (hmoved hkey).uniqueKey.trans hkey.symm
    · rw [hsame hkey]
  · rw [hin]
    exact himp.keeps_inputs hx

lemma Written.import (h : Written now r ps db d) (hok : importPackage c T now r d p = .ok d') :
    Written now r (ps ++ [p]) db d' := by
  have hkeeps := keepsIds_import hok
  have hu' := unique_import h.unique hok
  obtain ⟨first, hs, hi, hb⟩ := importPackage_rows hok
  have himp := importRows_imported now first r p d
  have hself : IdsOf r p d' ((importRows now first r p d).1.sourcePackageId,
      (importRows now first r p d).1.id) := by
    obtain ⟨s, hmem, hid, hfrom⟩ := himp.source
    refine ⟨⟨s, hs ▸ hmem, hid, hfrom.uniqueKey⟩, ?_⟩
    rw [hi]
    exact mem_inputs.mpr ⟨_, himp.stored, rfl, rfl, himp.group⟩
  refine ⟨hu', h.keeps.trans hkeeps, fun q hq => ?_, ?_, ?_⟩
  · rcases List.mem_append.mp hq with hq | hq
    · exact (h.ids q hq).imp fun x => hkeeps.idsOf
    · rw [List.mem_singleton.mp hq]
      exact ⟨_, hself⟩
  · rw [importPackage_sources hok, one_source, h.sources, Upserts.all_append]
  · have hwrites : binaryWrites r (ps ++ [p]) d' = binaryWrites r ps d ++ p.artifacts.map
        (reportedBinary r ((importRows now first r p d).1.sourcePackageId,
          (importRows now first r p d).1.id)) := by
      rw [← hkeeps.binaryWrites h.unique hu' h.ids]
      simp [binaryWrites, idsOf_eq hu' hself]
    rw [hb, importRows_binaries, h.binaries, hwrites]
    exact List.foldl_append.symm

lemma written_imports (hu : Unique db) (hf : ps.foldlM (importPackage c T now r) db = .ok d) :
    Written now r ps db d :=
  foldlM_ok (I := fun ps d => Written now r ps db d) hf ⟨hu, .refl _, by simp, rfl, rfl⟩
    fun _ _ _ _ _ h hok => h.import hok

end

end Rebuilderd.Daemon
