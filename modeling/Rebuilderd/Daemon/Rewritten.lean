import Rebuilderd.Daemon.JobArtifacts
import Rebuilderd.Daemon.Written

/-!
The packages after the same report was committed twice.

The second time, every row is written as it was. What is not written is marked as unseen, if it is in
scope; and a source package that the report has taken over from another origin is in scope only now.
-/

namespace Rebuilderd.Daemon

open Rebuilderd.Lib Rebuilderd.Common

/-! ### Marked rows -/

/-- Marking a row as unseen, as reports do with the rows of some scope. -/
def markedSource (r : PackageReport) (db : Db) (s : SourcePackage) : SourcePackage :=
  if s.inOriginOf r && hasScopedInput r db s then { s with seenInLastSync := false } else s

/-- The build input is of the scope of the report. -/
def inScope (r : PackageReport) (db : Db) (i : ℕ) : Bool :=
  ((scopedBuildInputs r (fun _ => true) db).map (·.id)).contains i

def markedBinary (r : PackageReport) (db : Db) (b : BinaryPackage) : BinaryPackage :=
  if inScope r db b.buildInputId then { b with seenInLastSync := false } else b

/-- The source package apart from when it was seen last. -/
def SourcePackage.exceptLastSeen (s : SourcePackage) : SourcePackage := { s with lastSeen := 0 }

/-- The binary package is of a source package that the report takes over from another origin. -/
def TakenOver (r : PackageReport) (db : Db) (b : BinaryPackage) : Prop :=
  (∃ g, (b.buildInputId, b.sourcePackageId, g) ∈ db.inputs ∧ g.architecture = r.architecture) ∧
    ∃ s ∈ db.sourcePackages.rows, s.id = b.sourcePackageId ∧ s.inOriginOf r = false ∧
      ∃ p ∈ r.packages, s.uniqueKey = reportedKey r p

/-- The report lists the binary package. -/
def ListsRow (r : PackageReport) (db : Db) (b : BinaryPackage) : Prop :=
  ∃ p ∈ r.packages, IdsOf r p db (b.sourcePackageId, b.buildInputId) ∧
    b.architecture = r.architecture ∧ ∃ a ∈ p.artifacts, a.name = b.name ∧ a.version = b.version

/-- The report lists all binary packages of the source packages it takes over, unless they are unseen
already. -/
def ListsTakenOver (r : PackageReport) (db : Db) : Prop :=
  ∀ b ∈ db.binaryPackages.rows, b.seenInLastSync = true → TakenOver r db b → ListsRow r db b

section
variable {c : ScheduleConfig} {T : Ties} {now now' : Time} {r : PackageReport} {p : SourcePackageReport}
  {db d d' : Db} {i s : ℕ} {g : Group}

lemma sources_mark (r : PackageReport) (db : Db) :
    (markScopedPackagesUnseen r db).sourcePackages.rows =
      db.sourcePackages.rows.map (markedSource r db) := by
  refine List.map_congr_left fun s hs => ?_
  simp only [mem_scoped_iff hs, markedSource, Bool.and_eq_true]

lemma binaries_mark (r : PackageReport) (db : Db) :
    (markScopedPackagesUnseen r db).binaryPackages.rows =
      db.binaryPackages.rows.map (markedBinary r db) := rfl

lemma uniqueKey_markedSource (s : SourcePackage) : (markedSource r db s).uniqueKey = s.uniqueKey := by
  unfold markedSource
  split <;> rfl

lemma columns_markedBinary (b : BinaryPackage) : (markedBinary r db b).columns = b.columns := by
  unfold markedBinary
  split <;> rfl

lemma inScope_iff (h : (i, s, g) ∈ db.inputs) : inScope r db i = true ↔
    g.architecture = r.architecture ∧
      ∃ row ∈ db.sourcePackages.rows, row.id = s ∧ row.inOriginOf r = true := by
  obtain ⟨b, hb, rfl, rfl, rfl⟩ := mem_inputs.mp h
  simp only [inScope, List.contains_iff_mem, List.mem_map, scopedBuildInputs, List.mem_filter,
    Bool.and_eq_true, beq_iff_eq, List.any_eq_true, Bool.and_true]
  constructor
  · rintro ⟨b', ⟨hb', hrest⟩, hid⟩
    rw [Table.eq_of_key hb' hb hid] at hrest
    exact hrest
  · exact fun hrest => ⟨b, ⟨hb, hrest⟩, rfl⟩

/-- The rows after a report that was committed. -/
lemma written_commit (hu : Unique db) (hok : commitPackageReport c T now r db = .ok d) :
    Written now r r.packages (markScopedPackagesUnseen r db) d := by
  obtain ⟨d₁, hf, rfl⟩ := commitPackageReport_ok hok
  have h := written_imports (unique_mark hu r) hf
  exact ⟨h.unique.congr rfl rfl, ⟨h.keeps.sources, h.keeps.inputs⟩, h.ids, h.sources, h.binaries⟩

/-! ### Source packages -/

lemma unseen_of_unlisted (hok : commitPackageReport c T now r db = .ok d) {s : SourcePackage}
    (hs : s ∈ d.sourcePackages.rows) (hscope : (s.inOriginOf r && hasScopedInput r d s) = true)
    (hnone : ∀ p ∈ r.packages, reportedKey r p ≠ s.uniqueKey) : s.seenInLastSync = false := by
  obtain ⟨d₁, hsync, rfl⟩ := syncing_of_commit hok
  obtain ⟨horigin, hinput⟩ := Bool.and_eq_true_iff.mp hscope
  obtain ⟨b, hb, hin⟩ := List.any_eq_true.mp hinput
  simp only [Bool.and_eq_true, beq_iff_eq] at hin
  by_contra hseen
  obtain ⟨p, hp, hname, hversion⟩ := hsync.seen b.id b.group s hs
    (mem_inputs.mpr ⟨b, hb, rfl, hin.1, rfl⟩) horigin hin.2 (by simpa using hseen)
  obtain ⟨q, hq, hkey⟩ := (listsSource_iff_key horigin).mp
    (listsSource_iff.mpr ⟨p, hp, hname.symm, hversion.symm⟩)
  exact hnone q hq hkey.symm

/-- **Source packages do not change again**, but for the time they were seen. -/
lemma sources_again (hu : Unique db) (hok : commitPackageReport c T now r db = .ok d)
    (hok' : commitPackageReport c T now' r d = .ok d') :
    d'.sourcePackages.rows.map SourcePackage.exceptLastSeen =
      d.sourcePackages.rows.map SourcePackage.exceptLastSeen := by
  have hw := written_commit hu hok
  have hw' := written_commit hw.unique hok'
  have hkeys : ∀ p ∈ r.packages, ∃ s ∈ (markScopedPackagesUnseen r d).sourcePackages.rows,
      (sourceUpserts now' r).keyOf s = (sourceUpserts now' r).of p := by
    intro p hp
    obtain ⟨s, hs, hkey⟩ := Upserts.exists_all (u := sourceUpserts now r)
      (markScopedPackagesUnseen r db).sourcePackages hp
    rw [← hw.sources] at hs
    refine ⟨markedSource r d s, ?_, (uniqueKey_markedSource s).trans hkey⟩
    rw [sources_mark]
    exact List.mem_map.mpr ⟨s, hs, rfl⟩
  rw [hw'.sources, Upserts.rows_all hkeys, sources_mark, List.map_map, List.map_map]
  refine List.map_congr_left fun s hs => ?_
  have hafter : (sourceUpserts now r).after r.packages s = s := Upserts.after_all (hw.sources ▸ hs)
  have hlast : (sourceUpserts now' r).last r.packages (markedSource r d s).uniqueKey =
      (sourceUpserts now r).last r.packages s.uniqueKey := by
    rw [uniqueKey_markedSource]
    rfl
  have hid : (markedSource r d s).id = s.id := by
    unfold markedSource
    split <;> rfl
  change (((sourceUpserts now' r).last r.packages (markedSource r d s).uniqueKey).elim
    (markedSource r d s)
    fun p => (sourceUpserts now' r).write p (markedSource r d s)).exceptLastSeen = _
  change ((sourceUpserts now r).last r.packages s.uniqueKey).elim s
    (fun p => (sourceUpserts now r).write p s) = s at hafter
  rw [hlast]
  rcases h : (sourceUpserts now r).last r.packages s.uniqueKey with _ | p <;> rw [h] at hafter
  · rw [Option.elim_none, markedSource]
    split
    · -- A package in scope that is not listed has been marked before.
      rename_i hscope
      have hunseen := unseen_of_unlisted hok hs hscope (Upserts.last_eq_none.mp h)
      rw [← hunseen]
    · rfl
  · rw [Option.elim_some] at hafter ⊢
    conv_rhs => rw [← hafter]
    change ((newSourcePackage now' r p).row (markedSource r d s).id).exceptLastSeen = _
    rw [hid]
    rfl

/-! ### Binary packages -/

lemma write_markedBinary (w : NewBinaryPackage) (b : BinaryPackage) :
    binaryUpserts.write w (markedBinary r db b) = binaryUpserts.write w b := by
  unfold markedBinary
  split <;> rfl

/-- A row that is not written keeps its columns and is marked. -/
lemma after_markedBinary {ws : List NewBinaryPackage} {b : BinaryPackage}
    (hb : binaryUpserts.after ws b = b) : binaryUpserts.after ws (markedBinary r d b) = b ↔
      ((∀ w ∈ ws, binaryUpserts.of w ≠ b.columns) → inScope r d b.buildInputId = true →
        b.seenInLastSync = false) := by
  have hkey : binaryUpserts.keyOf (markedBinary r d b) = b.columns := columns_markedBinary b
  unfold Upserts.after at hb ⊢
  rw [hkey]
  change (binaryUpserts.last ws b.columns).elim b _ = b at hb
  rcases h : binaryUpserts.last ws b.columns with _ | w <;> rw [h] at hb
  · rw [Option.elim_none, markedBinary]
    have hnone := Upserts.last_eq_none.mp h
    split
    · rename_i hscope
      constructor
      · intro heq _ _
        rw [← heq]
      · intro hunseen
        rw [← hunseen hnone hscope]
    · rename_i hout
      exact iff_of_true rfl fun _ hscope => absurd hscope hout
  · rw [Option.elim_some] at hb ⊢
    rw [write_markedBinary]
    obtain ⟨hw, hof⟩ := Upserts.of_last h
    exact iff_of_true hb fun hnone => absurd hof (hnone w hw)

/-- The second time, the binary packages stay as they are exactly if those of the scope that are not
written are unseen. -/
lemma binaries_again_iff (hu : Unique db) (hok : commitPackageReport c T now r db = .ok d)
    (hok' : commitPackageReport c T now' r d = .ok d') :
    d'.binaryPackages.rows = d.binaryPackages.rows ↔ ∀ b ∈ d.binaryPackages.rows,
      (∀ w ∈ binaryWrites r r.packages d, binaryUpserts.of w ≠ b.columns) →
        inScope r d b.buildInputId = true → b.seenInLastSync = false := by
  have hw := written_commit hu hok
  have hw' := written_commit hw.unique hok'
  have hwrites : binaryWrites r r.packages d' = binaryWrites r r.packages d :=
    ((keepsIds_mark r d).trans hw'.keeps).binaryWrites hw.unique hw'.unique hw.ids
  have hkeys : ∀ w ∈ binaryWrites r r.packages d,
      ∃ b ∈ (markScopedPackagesUnseen r d).binaryPackages.rows,
        binaryUpserts.keyOf b = binaryUpserts.of w := by
    intro w hwmem
    obtain ⟨b, hb, hkey⟩ := Upserts.exists_all (u := binaryUpserts)
      (markScopedPackagesUnseen r db).binaryPackages hwmem
    rw [← hw.binaries] at hb
    refine ⟨markedBinary r d b, ?_, (columns_markedBinary b).trans hkey⟩
    rw [binaries_mark]
    exact List.mem_map.mpr ⟨b, hb, rfl⟩
  rw [hw'.binaries, hwrites, Upserts.rows_all hkeys, binaries_mark, List.map_map]
  have hself {f : BinaryPackage → BinaryPackage} {l : List BinaryPackage} :
      l.map f = l ↔ ∀ b ∈ l, f b = b := by
    conv_lhs => rhs; rw [← List.map_id l]
    exact List.map_inj_left
  rw [hself]
  refine forall₂_congr fun b hb => ?_
  exact after_markedBinary (Upserts.after_all (hw.binaries ▸ hb))

/-- A report writes a binary package that was there exactly if it lists it. -/
lemma listsRow_iff (hu : Unique d) (hkeeps : KeepsIds db d)
    (hids : ∀ p ∈ r.packages, ∃ x, IdsOf r p d x) {b : BinaryPackage}
    (hsource : ∃ s ∈ db.sourcePackages.rows, s.id = b.sourcePackageId)
    (hin : (b.buildInputId, b.sourcePackageId, g) ∈ db.inputs) :
    ListsRow r db b ↔ ∃ w ∈ binaryWrites r r.packages d, binaryUpserts.of w = b.columns := by
  have hback {p : SourcePackageReport} (hx : IdsOf r p d (b.sourcePackageId, b.buildInputId)) :
      IdsOf r p db (b.sourcePackageId, b.buildInputId) := by
    obtain ⟨⟨s', hs', hid', hkey'⟩, hg⟩ := hx
    obtain ⟨s, hs, hid⟩ := hsource
    obtain ⟨s₁, hs₁, hid₁, hkey₁⟩ := hkeeps.sources s hs
    obtain rfl := Table.eq_of_key hs₁ hs' ((hid₁.trans hid).trans hid'.symm)
    refine ⟨⟨s, hs, hid, hkey₁.symm.trans hkey'⟩, ?_⟩
    rw [(inputs_inj hg (hkeeps.inputs _ hin)).2]
    exact hin
  have hmem {p : SourcePackageReport} (hp : p ∈ r.packages) {w : NewBinaryPackage}
      {x : ℕ × ℕ} (hx : IdsOf r p d x) {a : BinaryPackageReport} (ha : a ∈ p.artifacts)
      (hw : w = reportedBinary r x a) : w ∈ binaryWrites r r.packages d := by
    refine List.mem_flatMap.mpr ⟨p, hp, ?_⟩
    rw [idsOf_eq hu hx, hw]
    exact List.mem_map.mpr ⟨a, ha, rfl⟩
  constructor
  · rintro ⟨p, hp, hx, harch, a, ha, hname, hversion⟩
    refine ⟨_, hmem hp (hkeeps.idsOf hx) ha rfl, ?_⟩
    simp [binaryUpserts, reportedBinary, BinaryPackage.columns, harch, hname, hversion]
  · rintro ⟨w, hw, hcolumns⟩
    obtain ⟨p, hp, hw⟩ := List.mem_flatMap.mp hw
    obtain ⟨x, hx⟩ := hids p hp
    rw [idsOf_eq hu hx] at hw
    obtain ⟨a, ha, rfl⟩ := List.mem_map.mp hw
    simp only [binaryUpserts, reportedBinary, BinaryPackage.columns, Prod.mk.injEq] at hcolumns
    obtain ⟨hs, hi, hname, hversion, harch⟩ := hcolumns
    refine ⟨p, hp, hback ?_, harch.symm, a, ha, hname, hversion⟩
    rwa [← hs, ← hi]

/-- A build input that was outside the scope is in it after the report exactly if its source package
was taken over. -/
lemma inScope_commit_iff (hok : commitPackageReport c T now r db = .ok d) (hkeeps : KeepsIds db d)
    {b : BinaryPackage} (hin : (b.buildInputId, b.sourcePackageId, g) ∈ db.inputs)
    (hsource : ∃ s ∈ db.sourcePackages.rows, s.id = b.sourcePackageId)
    (hout : inScope r db b.buildInputId = false) :
    inScope r d b.buildInputId = true ↔ TakenOver r db b := by
  have hm := merged_commit hok
  obtain ⟨s, hs, hid⟩ := hsource
  have hs₀ : markedSource r db s ∈ (markScopedPackagesUnseen r db).sourcePackages.rows := by
    rw [sources_mark]
    exact List.mem_map.mpr ⟨s, hs, rfl⟩
  have hmarked : (markedSource r db s).id = s.id ∧
      (markedSource r db s).inOriginOf r = s.inOriginOf r := by
    unfold markedSource
    split <;> exact ⟨rfl, rfl⟩
  rw [inScope_iff (hkeeps.inputs _ hin)]
  constructor
  · rintro ⟨harch, s', hs', hid', horigin'⟩
    have hforeign : s.inOriginOf r = false := by
      by_contra horigin
      rw [(inScope_iff hin).mpr ⟨harch, s, hs, hid, by simpa using horigin⟩] at hout
      cases hout
    refine ⟨⟨g, hin, harch⟩, s, hs, hid, hforeign, ?_⟩
    by_contra hnone
    have hkept := hm.kept _ hs₀ fun p hp hkey =>
      hnone ⟨p, hp, (uniqueKey_markedSource s).symm.trans hkey⟩
    have heq := Table.eq_of_key hkept hs' ((hmarked.1.trans hid).trans hid'.symm)
    rw [← heq, hmarked.2, hforeign] at horigin'
    cases horigin'
  · rintro ⟨⟨g', hin', harch⟩, s', hs', hid', -, p, hp, hkey⟩
    obtain rfl := Table.eq_of_key hs' hs (hid'.trans hid.symm)
    obtain ⟨s₁, hs₁, hid₁, q, -, hfrom⟩ :=
      hm.moved _ hs₀ p hp ((uniqueKey_markedSource s').trans hkey)
    refine ⟨?_, s₁, hs₁, (hid₁.trans hmarked.1).trans hid, hfrom.origin⟩
    rw [(inputs_inj hin hin').2]
    exact harch

/-- **Binary packages do not change again** exactly if the report lists those it has taken over. -/
lemma binaries_again (hu : Unique db) (hlinked : BinariesLinked db) (howned : BinariesOwned db)
    (hok : commitPackageReport c T now r db = .ok d)
    (hok' : commitPackageReport c T now' r d = .ok d') :
    d'.binaryPackages.rows = d.binaryPackages.rows ↔ ListsTakenOver r db := by
  have hw := written_commit hu hok
  have hkeeps : KeepsIds db d := (keepsIds_mark r db).trans hw.keeps
  rw [binaries_again_iff hu hok hok']
  constructor
  · intro h b hb hseen htaken
    obtain ⟨g, hin⟩ := howned b hb
    rw [listsRow_iff hw.unique hkeeps hw.ids (hlinked b hb).1 hin]
    by_contra hnone
    have hout : inScope r db b.buildInputId = false := by
      obtain ⟨-, s, hs, hid, hforeign, -⟩ := htaken
      by_contra hscope
      obtain ⟨-, s', hs', hid', horigin⟩ := (inScope_iff hin).mp (by simpa using hscope)
      rw [Table.eq_of_key hs' hs (hid'.trans hid.symm), hforeign] at horigin
      cases horigin
    have hkept : b ∈ d.binaryPackages.rows := by
      have hmark : markedBinary r db b ∈ (markScopedPackagesUnseen r db).binaryPackages.rows :=
        List.mem_map.mpr ⟨b, hb, rfl⟩
      have hmem := Upserts.after_mem_all (u := binaryUpserts) (binaryWrites r r.packages d) hmark
      rw [markedBinary, if_neg (by simp [hout]), Upserts.after_of_none fun w hwmem hof =>
        hnone ⟨w, hwmem, hof⟩] at hmem
      exact hw.binaries ▸ hmem
    have hunseen := h b hkept (fun w hwmem hof => hnone ⟨w, hwmem, hof⟩)
      ((inScope_commit_iff hok hkeeps hin (hlinked b hb).1 hout).mpr htaken)
    rw [hseen] at hunseen
    cases hunseen
  · intro h b' hb' hnone hscope
    -- The row is one from before that was marked, or is of a source package that was taken over.
    have hold := Upserts.mem_of_mem_all (u := binaryUpserts) (hw.binaries ▸ hb') hnone
    rw [binaries_mark] at hold
    obtain ⟨b, hb, rfl⟩ := List.mem_map.mp hold
    by_contra hseen
    unfold markedBinary at hseen hscope hnone
    split at hseen
    · exact hseen rfl
    · rename_i hout
      rw [if_neg hout] at hscope hnone
      obtain ⟨g, hin⟩ := howned b hb
      have htaken := (inScope_commit_iff hok hkeeps hin (hlinked b hb).1 (by simpa using hout)).mp
        hscope
      obtain ⟨w, hwmem, hof⟩ := (listsRow_iff hw.unique hkeeps hw.ids (hlinked b hb).1 hin).mp
        (h b hb (by simpa using hseen) htaken)
      exact hnone w hwmem hof

end

end Rebuilderd.Daemon
