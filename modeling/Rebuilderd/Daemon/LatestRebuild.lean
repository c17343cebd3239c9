import Rebuilderd.Daemon.Landing
import Rebuilderd.Daemon.Histories
import Rebuilderd.Daemon.Origins

/-!
Which rebuild of a build input is its latest.

The listings go by the time a rebuild was built and break ties by id, the import of a package goes
by that time alone, and requeues and statistics go by id. The time comes from the workers.
-/

namespace Rebuilderd.Daemon

open Rebuilderd.Lib Rebuilderd.Common Prog

/-! ### The queries -/

/-- The joins with the aliases `r1` and `r2` of the listings, the dashboard and the statistics,
for one build input. -/
def unsupersededRebuilds (db : Db) (i : ℕ) : List (Option Rebuild) := do
  let r1 ← leftJoin db.rebuilds.rows fun r => r.buildInputId == i
  let r2 ← leftJoin db.rebuilds.rows fun r => r.buildInputId == i && r1.any r.supersedes
  if r2.isNone then return r1 else []

/-- A row of `source_packages_base`. -/
structure SourcePackageRecord where
  id : ℕ
  name : String
  version : String
  distribution : String
  release : Option String
  component : Option String
  status : Option BuildStatus
  buildId : Option ℕ
  lastSeen : Time
  seenInLastSync : Bool
  deriving DecidableEq

/-- The joins of `source_packages_base`. -/
def sourcePackagesRows (db : Db) : List (SourcePackage × BuildInput × Option Rebuild) := do
  let s ← db.sourcePackages.rows
  let b ← db.buildInputs.rows.filter fun b => b.sourcePackageId == s.id
  let r1 ← unsupersededRebuilds db b.id
  return (s, b, r1)

def sourcePackageRecord : SourcePackage × BuildInput × Option Rebuild → SourcePackageRecord
  | (s, _, r1) => {
      id := s.id
      name := s.name
      version := s.version
      distribution := s.distribution
      release := s.release
      component := s.component
      status := r1.bind (·.status)
      buildId := r1.map (·.id)
      lastSeen := s.lastSeen
      seenInLastSync := s.seenInLastSync }

def sourcePackagesBase (db : Db) : List SourcePackageRecord :=
  (sourcePackagesRows db).map sourcePackageRecord

/-- `max(rebuilds.id)` of the rebuilds of one build input. -/
def maxRebuildId (db : Db) (i : ℕ) : Option ℕ := ((rebuildsOf db i).map (·.id)).max?

/-- The latest rebuilds `categorize_bad_packages` looks at. -/
def categorizedRebuilds (distribution release architecture : Option String) (db : Db) : List ℕ :=
  (db.buildInputs.rows.filter fun b =>
    architecture.all (b.architecture == ·) &&
      db.sourcePackages.rows.any fun s => s.id == b.sourcePackageId && s.seenInLastSync &&
        distribution.all (s.distribution == ·) &&
        release.all (s.release == some ·)).filterMap fun b => maxRebuildId db b.id

/-- All of them select the rebuild `o` of the build input `i`, or none. -/
structure LatestIs (db : Db) (i : ℕ) (o : Option Rebuild) : Prop where
  listed : unsupersededRebuilds db i = [o]
  imported : ∀ T : Ties, newestBuilt T db i = o
  filtered : ∀ p : Option BuildStatus → Bool, latestRebuildHas p i db = o.any (p ·.status)
  reset : latestRebuildId i db = o.map (·.id)
  categorized : maxRebuildId db i = o.map (·.id)

/-- There is one notion of the latest rebuild of each build input. -/
def OneLatest (db : Db) : Prop := ∀ b ∈ db.buildInputs.rows, ∃ o, LatestIs db b.id o

/-! ### The rebuild with the largest id -/

/-- The rebuild with the largest id was built later than all others. -/
def LastIsLatest (rs : List Rebuild) : Prop :=
  ∀ pre last, rs = pre ++ [last] → ∀ r ∈ pre, sqlLt r.builtText last.builtText = true

section
variable {db : Db} {i : ℕ}

lemma mem_rebuildsOf {r : Rebuild} : r ∈ rebuildsOf db i ↔ r ∈ db.rebuilds.rows ∧ r.buildInputId = i := by
  simp [rebuildsOf]

/-- Rebuilds are in the order of their ids. -/
lemma rebuildsOf_sorted : (rebuildsOf db i).Pairwise (·.id < ·.id) := db.rebuilds.sorted.filter _

lemma maxRebuildId_concat {pre : List Rebuild} {last : Rebuild}
    (h : rebuildsOf db i = pre ++ [last]) : maxRebuildId db i = some last.id := by
  have hsorted : (rebuildsOf db i).Pairwise _ := rebuildsOf_sorted
  rw [h] at hsorted
  rw [maxRebuildId, h, List.max?_eq_some_iff]
  refine ⟨by simp, fun a ha => ?_⟩
  obtain ⟨r, hr, rfl⟩ := List.mem_map.mp ha
  rcases List.mem_append.mp hr with hr | hr
  · exact ((List.pairwise_append.mp hsorted).2.2 r hr last (by simp)).le
  · rw [List.mem_singleton.mp hr]

lemma sqlLt_nullsFirst {a b : Option TimeText} (h : sqlLt a b = true) : nullsFirst a < nullsFirst b := by
  cases a <;> cases b <;> simp_all [sqlLt, nullsFirst]

lemma sqlLt_irrefl (a : Option TimeText) : sqlLt a a = false := by
  cases a <;> simp [sqlLt]

/-- The rebuilds of the build input that none of them supersedes, or a NULL. -/
lemma unsupersededRebuilds_eq (db : Db) (i : ℕ) : unsupersededRebuilds db i =
    (leftJoin db.rebuilds.rows fun r => r.buildInputId == i).filter fun r1 =>
      !(rebuildsOf db i).any fun r => r1.any r.supersedes := by
  have hjoin (r1 : Option Rebuild) :
      ((leftJoin db.rebuilds.rows fun r => r.buildInputId == i && r1.any r.supersedes).flatMap
        fun r2 => if r2.isNone then [r1] else []) =
      if (rebuildsOf db i).any fun r => r1.any r.supersedes then [] else [r1] := by
    rw [antiJoin, rebuildsOf, List.any_filter]
  change (leftJoin db.rebuilds.rows fun r => r.buildInputId == i).flatMap (fun r1 =>
    (leftJoin db.rebuilds.rows fun r => r.buildInputId == i && r1.any r.supersedes).flatMap
      fun r2 => if r2.isNone then [r1] else []) = _
  simp only [hjoin]
  induction leftJoin db.rebuilds.rows fun r => r.buildInputId == i with
  | nil => rfl
  | cons r1 rest ih =>
    rw [List.flatMap_cons, List.filter_cons, ih]
    rcases (rebuildsOf db i).any fun r => r1.any r.supersedes with _ | _ <;> rfl

lemma latestRebuildHas_eq (p : Option BuildStatus → Bool) : latestRebuildHas p i db =
    (rebuildsOf db i).any fun r => some r.id == maxRebuildId db i && p r.status := rfl

/-- Requeues go by the rebuild with the largest id. -/
lemma latestRebuildHas_concat {pre : List Rebuild} {last : Rebuild}
    (h : rebuildsOf db i = pre ++ [last]) (p : Option BuildStatus → Bool) :
    latestRebuildHas p i db = p last.status := by
  have hsorted : (rebuildsOf db i).Pairwise _ := rebuildsOf_sorted
  rw [h, List.pairwise_append] at hsorted
  have hold : (pre.any fun r => some r.id == some last.id && p r.status) = false := by
    refine List.any_eq_false.mpr fun r hr => ?_
    have hid := hsorted.2.2 r hr last (by simp)
    simp [hid.ne]
  rw [latestRebuildHas_eq, maxRebuildId_concat h, h, List.any_append, hold]
  simp

/-- A build input without rebuilds has no latest one. -/
lemma latestIs_none (h : rebuildsOf db i = []) : LatestIs db i none := by
  refine ⟨?_, fun T => ?_, fun p => ?_, ?_, ?_⟩
  · rw [unsupersededRebuilds_eq, leftJoin_eq_none h, h]
    rfl
  · rw [newestBuilt, h]
    exact Ties.firstBy_eq_none.mpr rfl
  · rw [latestRebuildHas_eq, h]
    rfl
  · change maxRebuildId db i = none
    rw [maxRebuildId, h]
    rfl
  · rw [maxRebuildId, h]
    rfl

/-- If the rebuild with the largest id was built last, it is the latest one for all queries. -/
lemma latestIs_some {pre : List Rebuild} {last : Rebuild} (h : rebuildsOf db i = pre ++ [last])
    (hlast : ∀ r ∈ pre, sqlLt r.builtText last.builtText = true) : LatestIs db i (some last) := by
  have hmax := maxRebuildId_concat h
  have hsorted : (rebuildsOf db i).Pairwise _ := rebuildsOf_sorted
  rw [h, List.pairwise_append] at hsorted
  refine ⟨?_, fun T => ?_, fun p => ?_, hmax, hmax⟩
  · have hne : db.rebuilds.rows.filter (·.buildInputId == i) ≠ [] := by
      rw [show db.rebuilds.rows.filter (·.buildInputId == i) = _ from h]
      simp
    rw [unsupersededRebuilds_eq, leftJoin_eq_map hne]
    change ((rebuildsOf db i).map some).filter _ = _
    rw [h, List.map_append, List.filter_append]
    -- The last rebuild supersedes all others, and none supersedes it.
    have hold : (pre.map some).filter (fun r1 =>
        !(pre ++ [last]).any fun r => r1.any r.supersedes) = [] := by
      refine List.filter_eq_nil_iff.mpr fun r1 hr1 hkeep => ?_
      obtain ⟨r, hr, rfl⟩ := List.mem_map.mp hr1
      simp [Rebuild.supersedes, hlast r hr] at hkeep
    have hnew : ((pre ++ [last]).any fun r => (some last).any r.supersedes) = false := by
      refine List.any_eq_false.mpr fun r hr => ?_
      rcases List.mem_append.mp hr with hr | hr
      · have hlt := sqlLt_nullsFirst (hlast r hr)
        have hid := hsorted.2.2 r hr last (by simp)
        simp only [Option.any_some, Rebuild.supersedes, Bool.or_eq_true, Bool.and_eq_true,
          decide_eq_true_eq, not_or, not_and]
        refine ⟨fun h' => absurd (sqlLt_nullsFirst h') hlt.not_gt, fun _ => ?_⟩
        omega
      · rw [List.mem_singleton.mp hr]
        simp [Rebuild.supersedes, sqlLt_irrefl]
    rw [hold, List.nil_append, List.map_singleton, List.filter_singleton, hnew]
    rfl
  · rw [newestBuilt, h]
    exact Ties.firstBy_concat fun r hr =>
      OrderDual.toDual_lt_toDual.mpr (sqlLt_nullsFirst (hlast r hr))
  · rw [latestRebuildHas_concat h, Option.any_some]

/-- If all queries agree, the rebuild with the largest id was built last. -/
lemma lastIsLatest_of_latestIs {o : Option Rebuild} (h : LatestIs db i o) :
    LastIsLatest (rebuildsOf db i) := by
  intro pre last hrs r hr
  have hsorted : (rebuildsOf db i).Pairwise _ := rebuildsOf_sorted
  rw [hrs, List.pairwise_append] at hsorted
  have hmem (x : Rebuild) (hx : x ∈ pre ++ [last]) : x ∈ db.rebuilds.rows :=
    (mem_rebuildsOf.mp (hrs ▸ hx)).1
  -- The queries by id select the last rebuild, so all of them do.
  obtain rfl : o = some last := by
    have hid := h.categorized
    rw [maxRebuildId_concat hrs] at hid
    obtain ⟨x, rfl, hx⟩ := Option.map_eq_some_iff.mp hid.symm
    have hfirst := Ties.firstBy_mem (h.imported .inOrder)
    rw [Table.eq_of_key (hmem x (hrs ▸ hfirst.1)) (hmem last (by simp)) hx]
  have hne : r ≠ last := fun heq => (hsorted.2.2 r hr last (by simp)).ne (heq ▸ rfl)
  -- A rebuild without a time would be listed.
  have hsome : r.builtText ≠ none := by
    intro hnone
    have hlisted : some r ∈ unsupersededRebuilds db i := by
      rw [unsupersededRebuilds_eq]
      refine List.mem_filter.mpr ⟨mem_leftJoin.mpr (.inl ⟨r, hmem r (by simp [hr]), ?_, rfl⟩), ?_⟩
      · simpa using (mem_rebuildsOf.mp (hrs ▸ by simp [hr] : r ∈ rebuildsOf db i)).2
      · simp [Rebuild.supersedes, hnone, sqlLt, sqlEq]
    rw [h.listed] at hlisted
    exact hne (Option.some.inj (List.mem_singleton.mp hlisted))
  -- A rebuild as late as the last could come first as well.
  have hlt : nullsFirst r.builtText < nullsFirst last.builtText := by
    let key := fun r : Rebuild => OrderDual.toDual (nullsFirst r.builtText)
    have hmin : ∀ x ∈ rebuildsOf db i, key last ≤ key x :=
      (Ties.firstBy_mem (h.imported .inOrder)).2
    have hle : key last ≤ key r := hmin r (hrs ▸ by simp [hr])
    refine lt_of_le_of_ne hle fun heq => ?_
    have hleast : r ∈ Ties.least key (rebuildsOf db i) := by
      refine Ties.mem_least.mpr ⟨hrs ▸ by simp [hr], fun x hx => ?_⟩
      rw [show key r = key last from congrArg OrderDual.toDual heq]
      exact hmin x hx
    obtain ⟨k, hk, hget⟩ := List.getElem_of_mem hleast
    let T : Ties := ⟨fun n => if k < n then k else 0, fun n hn => by split <;> assumption⟩
    have hT := h.imported T
    rw [newestBuilt, Ties.firstBy] at hT
    change (Ties.least key (rebuildsOf db i))[T.pick (Ties.least key (rebuildsOf db i)).length]? = _ at hT
    rw [show T.pick (Ties.least key (rebuildsOf db i)).length = k from if_pos hk,
      List.getElem?_eq_getElem hk, hget] at hT
    exact hne (Option.some.inj hT)
  rcases ha : r.builtText with _ | a
  · exact absurd ha hsome
  · rcases hb : last.builtText with _ | b
    · rw [ha, hb] at hlt
      exact absurd hlt (by simp [nullsFirst])
    · rw [ha, hb] at hlt
      simpa [nullsFirst, sqlLt] using hlt

/-- **All queries agree exactly if the rebuild with the largest id was built last**, for each
build input. -/
theorem oneLatest_iff (db : Db) :
    OneLatest db ↔ ∀ b ∈ db.buildInputs.rows, LastIsLatest (rebuildsOf db b.id) := by
  refine forall₂_congr fun b _ => ⟨fun ⟨o, h⟩ => lastIsLatest_of_latestIs h, fun h => ?_⟩
  rcases List.eq_nil_or_concat (rebuildsOf db b.id) with hnone | ⟨pre, last, hrs⟩
  · exact ⟨none, latestIs_none hnone⟩
  · rw [List.concat_eq_append] at hrs
    exact ⟨some last, latestIs_some hrs (h pre last hrs)⟩

end

/-! ### Rebuilds in the order they were built -/

/-- The build inputs and the times of the rebuilds. -/
def Db.builds (db : Db) : List (ℕ × Option Time) :=
  db.rebuilds.rows.map fun r => (r.buildInputId, r.builtAt)

/-- The times of the rebuilds of a build input, in the order of their ids. -/
def builtAts (db : Db) (i : ℕ) : List (Option Time) :=
  (db.builds.filter fun x => x.1 == i).map (·.2)

/-- Rebuilds are of build inputs that exist, and each was built later than those of its build
input with smaller ids. -/
structure InOrder (db : Db) : Prop where
  inputs : ∀ x ∈ db.builds, HasInput x.1 db
  sources : SourcesExist db
  sorted : ∀ i, (builtAts db i).Pairwise fun a b => sqlLt (a.map stored) (b.map stored) = true

section
variable {db db' : Db} {i : ℕ}

lemma builtAts_eq (db : Db) (i : ℕ) : builtAts db i = (rebuildsOf db i).map (·.builtAt) := by
  simp [builtAts, Db.builds, rebuildsOf, List.filter_map, Function.comp_def]

lemma builtAts_append {xs : List (ℕ × Option Time)} (h : db'.builds = db.builds ++ xs) :
    builtAts db' i = builtAts db i ++ (xs.filter fun x => x.1 == i).map (·.2) := by
  simp [builtAts, h]

lemma filter_copied (id : ℕ) (ts : List (Option Time)) (i : ℕ) :
    ((ts.map fun t => (id, t)).filter fun x => x.1 == i).map (·.2) = if id = i then ts else [] := by
  by_cases h : id = i
  · simp [h, List.filter_map, Function.comp_def]
  · have hne : (id == i) = false := by simpa using h
    simp [h, hne, List.filter_map, Function.comp_def]

lemma InOrder.lastIsLatest (h : InOrder db) (i : ℕ) : LastIsLatest (rebuildsOf db i) := by
  intro pre last hrs r hr
  have hsorted := h.sorted i
  rw [builtAts_eq, hrs, List.map_append, List.pairwise_append] at hsorted
  exact hsorted.2.2 r.builtAt (List.mem_map.mpr ⟨r, hr, rfl⟩) last.builtAt (by simp)

lemma InOrder.congr (h : InOrder db) (hb : db'.builds = db.builds)
    (hi : ∀ x ∈ db.inputs, x ∈ db'.inputs) (hs : SourcesExist db') : InOrder db' := by
  refine ⟨fun x hx => ?_, hs, fun i => ?_⟩
  · obtain ⟨s, g, hg⟩ := h.inputs x (hb ▸ hx)
    exact ⟨s, g, hi _ hg⟩
  · rw [builtAts, hb]
    exact h.sorted i

/-- A new rebuild that is later than those of its build input keeps the order. -/
lemma InOrder.insert (h : InOrder db) {n : NewRebuild} (hi : HasInput n.buildInputId db)
    (hlater : ∀ t ∈ builtAts db n.buildInputId, sqlLt (t.map stored) n.builtText = true) :
    InOrder (n.insert db).2 := by
  have hbuilds : (n.insert db).2.builds = db.builds ++ [(n.buildInputId, n.builtAt)] := by
    change (db.rebuilds.rows ++ [_]).map _ = _
    rw [List.map_append]
    rfl
  refine ⟨fun x hx => ?_, h.sources, fun i => ?_⟩
  · rw [hbuilds] at hx
    rcases List.mem_append.mp hx with hx | hx
    · exact h.inputs x hx
    · rw [List.mem_singleton.mp hx]
      exact hi
  · rw [builtAts_append hbuilds]
    by_cases hid : n.buildInputId = i
    · subst hid
      rw [List.filter_singleton, beq_self_eq_true]
      refine List.pairwise_append.mpr ⟨h.sorted _, List.pairwise_singleton _ _, fun t ht t' ht' => ?_⟩
      rw [List.mem_singleton.mp ht']
      exact hlater t ht
    · simpa [hid] using h.sorted i

/-! ### Imports -/

lemma builds_copyRebuilds (id : ℕ) (rs : List Rebuild) (db : Db) :
    (rs.foldl (copyRebuild id) db).builds = db.builds ++ rs.map fun r => (id, r.builtAt) := by
  induction rs generalizing db with
  | nil => simp
  | cons r rs ih =>
    have hcopy : (copyRebuild id db r).builds = db.builds ++ [(id, r.builtAt)] := by
      rw [Db.builds, copyRebuild_rebuilds]
      change (db.rebuilds.rows ++ [_]).map _ = _
      rw [List.map_append]
      rfl
    rw [List.foldl_cons, ih, hcopy, List.append_assoc]
    rfl

/-- A copy adds to one build input the times of the rebuilds of another, or nothing. -/
lemma builds_copyExistingRebuilds (id : ℕ) (db : Db) :
    (copyExistingRebuilds id db).builds = db.builds ∨
      ∃ i, (copyExistingRebuilds id db).builds = db.builds ++ (builtAts db i).map fun t => (id, t) := by
  unfold copyExistingRebuilds
  split
  · split
    · rename_i existing _ _
      refine .inr ⟨existing, ?_⟩
      rw [builds_copyRebuilds, builtAts_eq, List.map_map]
      rfl
    · exact .inl rfl
  · exact .inl rfl

/-- The rebuilds stay as they are, or those of a friend are copied to the build input of a new
package. -/
lemma builds_importWithHistory (now : Time) (first : Option Time) (r : PackageReport)
    (p : SourcePackageReport) (db : Db) :
    (importWithHistory now first r p db).2.builds = db.builds ∨
      isNewPackage r p db = true ∧ ∃ i, (importWithHistory now first r p db).2.builds =
        db.builds ++ (builtAts db i).map fun t => ((importWithHistory now first r p db).1.id, t) := by
  have hrows : (importRows now first r p db).2.builds = db.builds := by
    rw [Db.builds, (importRows_frame now first r p db).2.1]
    rfl
  unfold importWithHistory
  dsimp only
  split
  · rename_i hnew
    rcases builds_copyExistingRebuilds (importRows now first r p db).1.id
      (importRows now first r p db).2 with hcopy | ⟨i, hcopy⟩ <;> rw [hcopy, hrows]
    · exact .inl rfl
    · refine .inr ⟨hnew, i, ?_⟩
      rw [builtAts, hrows]
      rfl
  · exact .inl hrows

/-- A package that conflicts with no source package gets a new build input. -/
lemma importRows_new {now : Time} {first : Option Time} {r : PackageReport} {p : SourcePackageReport}
    (hs : SourcesExist db) (hnone : ∀ s ∈ db.sourcePackages.rows,
      (newSourcePackage now r p).conflicts s = false) :
    ¬ HasInput (importRows now first r p db).1.id db := by
  have hsource : (newSourcePackage now r p).upsert db =
      ((newSourcePackage now r p).row (db.sourcePackages.seq + 1),
        { db with sourcePackages := db.sourcePackages.insert (newSourcePackage now r p).row }) := by
    rcases (newSourcePackage now r p).upsert_cases db with ⟨s, hmem, hc, -⟩ | ⟨-, h⟩
    · rw [hnone s hmem] at hc
      cases hc
    · exact h
  have hinput : (importRows now first r p db).1 = ((newBuildInput first r p
      ((newSourcePackage now r p).upsert db).1.id).upsert ((newSourcePackage now r p).upsert db).2).1 := rfl
  rw [hinput, hsource]
  rcases (newBuildInput first r p (db.sourcePackages.seq + 1)).upsert_cases
    { db with sourcePackages := db.sourcePackages.insert (newSourcePackage now r p).row } with
    ⟨b, hb, hc, -⟩ | ⟨-, h⟩
  · -- A build input of the next source package would be one without a source package.
    obtain ⟨s, hmem, hid⟩ := hs b.identity (List.mem_map.mpr ⟨b, hb, rfl⟩)
    have hnext : b.sourcePackageId = db.sourcePackages.seq + 1 := by
      simp only [NewBuildInput.conflicts, Bool.and_eq_true, beq_iff_eq] at hc
      exact hc.1.1.1
    exact absurd (hid.trans hnext) (Table.key_ne_next hmem)
  · change ¬ HasInput ((newBuildInput first r p (db.sourcePackages.seq + 1)).upsert _).1.id db
    rw [h]
    rintro ⟨s, g, hi⟩
    obtain ⟨b, hb, hid, -⟩ := mem_inputs.mp hi
    exact Table.key_ne_next hb hid

lemma builtAts_eq_nil (h : InOrder db) (hi : ¬ HasInput i db) : builtAts db i = [] := by
  rw [builtAts, List.map_eq_nil_iff, List.filter_eq_nil_iff]
  intro x hx hid
  exact hi (beq_iff_eq.mp hid ▸ h.inputs x hx)

/-- A new package conflicts with no source package, if none of another origin does. -/
lemma not_conflicts_of_new {now : Time} {r : PackageReport} {p : SourcePackageReport}
    (hp : p ∈ r.packages) (hforeign : noForeignConflict r db = true)
    (hnew : isNewPackage r p db = true) :
    ∀ s ∈ db.sourcePackages.rows, (newSourcePackage now r p).conflicts s = false := by
  intro s hs
  by_contra hc
  have hkey := conflicts_iff_reported.mp (by simpa using hc)
  have horigin := List.all_eq_true.mp hforeign s hs
  rw [Bool.or_eq_true, hkey] at horigin
  rcases horigin with horigin | hother
  · have hnone := List.any_eq_false.mp (by simpa [isNewPackage] using hnew :
      (db.sourcePackages.rows.any fun s =>
        s.name == p.name && s.version == p.version && s.inOriginOf r) = false) s hs
    simp only [SourcePackage.uniqueKey, reportedKey, Prod.mk.injEq] at hkey
    simp [hkey.1, hkey.2.1, horigin] at hnone
  · have hnot : reportedKey r p ∉ r.packages.map (reportedKey r) := by simpa using hother
    exact hnot (List.mem_map.mpr ⟨p, hp, rfl⟩)

lemma InOrder.import (h : InOrder db) {c : ScheduleConfig} {T : Ties} {now : Time}
    {r : PackageReport} {p : SourcePackageReport} (hp : p ∈ r.packages)
    (hforeign : noForeignConflict r db = true) (hok : importPackage c T now r db p = .ok db') :
    InOrder db' := by
  have hsources := h.sources.import hok
  obtain ⟨first, -, he⟩ := importPackage_ok hok
  have himp := importWithHistory_imported now first r p db
  have henqueued := SameHistory.enqueueImported he
  have hold : ∀ x ∈ db.inputs, x ∈ db'.inputs := by
    intro x hx
    rw [henqueued.inputs]
    exact himp.keeps_inputs hx
  have hself : HasInput (importWithHistory now first r p db).1.id db' :=
    ⟨_, _, henqueued.inputs.symm ▸ mem_inputs.mpr ⟨_, himp.stored, rfl, rfl, rfl⟩⟩
  have hbuilds : db'.builds = (importWithHistory now first r p db).2.builds := by
    rw [Db.builds, henqueued.rebuilds]
    rfl
  rcases builds_importWithHistory now first r p db with hsame | ⟨hnew, i, hcopied⟩
  · exact h.congr (hbuilds.trans hsame) hold hsources
  · replace hcopied := hbuilds.trans hcopied
    have hinput : ¬ HasInput (importWithHistory now first r p db).1.id db :=
      importRows_new h.sources (not_conflicts_of_new hp hforeign hnew)
    refine ⟨fun x hx => ?_, hsources, fun j => ?_⟩
    · rw [hcopied] at hx
      rcases List.mem_append.mp hx with hx | hx
      · obtain ⟨s, g, hi⟩ := h.inputs x hx
        exact ⟨s, g, hold _ hi⟩
      · obtain ⟨t, -, rfl⟩ := List.mem_map.mp hx
        exact hself
    · rw [builtAts_append hcopied, filter_copied]
      split
      · rename_i hj
        rw [builtAts_eq_nil h (hj ▸ hinput), List.nil_append]
        exact h.sorted i
      · rw [List.append_nil]
        exact h.sorted j

lemma InOrder.commit (h : InOrder db) {c : ScheduleConfig} {T : Ties} {now : Time}
    {r : PackageReport} (hforeign : noForeignConflict r db = true)
    (hok : commitPackageReport c T now r db = .ok db') : InOrder db' := by
  obtain ⟨db₁, hf, rfl⟩ := commitPackageReport_ok hok
  have hmarkForeign : noForeignConflict r (markScopedPackagesUnseen r db) = true := by
    refine List.all_eq_true.mpr fun s hs => ?_
    obtain ⟨s₀, hs₀, rfl⟩ := List.mem_map.mp hs
    have hfree := List.all_eq_true.mp hforeign s₀ hs₀
    split <;> exact hfree
  suffices hend : InOrder db₁ ∧ noForeignConflict r db₁ = true from
    hend.1.congr rfl (fun _ hx => hx) hend.1.sources
  refine foldlM_ok (I := fun _ d => InOrder d ∧ noForeignConflict r d = true) hf
    ⟨h.congr rfl (fun _ hx => hx) (h.sources.mark r), hmarkForeign⟩ fun _ p d d' hp hd hpok => ?_
  refine ⟨hd.1.import hp hd.2 hpok, List.all_eq_true.mpr fun s hs => ?_⟩
  obtain ⟨first, -, he⟩ := importPackage_ok hpok
  rw [(SameHistory.enqueueImported he).sources] at hs
  rcases (importWithHistory_imported now first r p d).sources.from_ s hs with hs | hfrom
  · exact List.all_eq_true.mp hd.2 s hs
  · rw [hfrom.origin, Bool.true_or]

end

/-! ### Runs -/

/-- A package report is committed without a conflict with a source package of another origin. -/
def commitsCleanly (e : Event) : Bool :=
  match e.stmt with
  | .commitPackageReport _ r => noForeignConflict r e.before
  | _ => true

/-- A rebuild is inserted whose `built_at` comes after those of all rebuilds its build input has. -/
def insertsLatest (e : Event) : Bool :=
  match e.stmt with
  | .insertRebuild new => e.before.rebuilds.rows.all fun r =>
      r.buildInputId != new.buildInputId || sqlLt r.builtText new.builtText
  | _ => true

/-- The statements other than inserts and package reports change no build input and no time. -/
lemma exec_builds (env : Env) (t : Time) (s : Stmt) (db : Db) :
    (∃ new, s = .insertRebuild new) ∨ (∃ now r, s = .commitPackageReport now r) ∨
      ((exec env).answer t s db).2.builds = db.builds := by
  cases s with
  | insertRebuild new => exact .inl ⟨new, rfl⟩
  | commitPackageReport now r => exact .inr (.inl ⟨now, r, rfl⟩)
  | resetRebuild id =>
    refine .inr (.inr (Table.map_rows_update db.rebuilds (p := (·.id == id))
      (f := fun r => { r with status := none }) fun _ _ _ => rfl))
  | refreshWorker key now =>
    refine .inr (.inr (Exec.answer_inv (E := exec env) (I := fun d : Db => d.builds = db.builds) rfl
      fun w db' h => ?_))
    simp only [exec, refreshWorker] at h
    split at h <;> cases h
    rfl
  | popJob w r =>
    refine .inr (.inr ?_)
    change (popJob env.ties w r t db).2.builds = _
    rcases popJob_cases env.ties w r t db with ⟨row, -, h⟩ | h <;> rw [h]
    rfl
  | findQueued id =>
    refine .inr (.inr (Exec.answer_inv (I := fun d : Db => d.builds = db.builds) rfl
      fun q db' h => ?_))
    rw [(exec_findQueued h).2.2]
  | maxRetriesOf ids =>
    refine .inr (.inr (Exec.answer_inv (I := fun d : Db => d.builds = db.builds) rfl
      fun n db' h => ?_))
    rw [exec_maxRetriesOf h]
  | _ => exact .inr (.inr rfl)

section
variable {env : Env} {tr : List Event}

/-- The build input of an inserted rebuild exists. -/
lemma hasInput_of_inserts (hf : History (exec env) (fun _ => insertsForFriends) env.start tr)
    {i : ℕ} {t : Time} {new : NewRebuild}
    (h : insertsForFriends (own i tr) t (.insertRebuild new)) :
    HasInput new.buildInputId (stateAfter (exec env) env.start tr) := by
  obtain ⟨id, friends, hdid, hmem⟩ := h
  refine did_stable (I := fun db => ∀ j ∈ friends, HasInput j db)
    (fun t s db h j hj => exec_hasInput env j t s db (h j hj)) hf hdid (fun t db db' hok j hj => ?_)
    _ hmem
  cases hok
  obtain ⟨b, hb, rfl⟩ := List.mem_map.mp hj
  exact ⟨_, _, mem_inputs.mpr ⟨b, (List.mem_filter.mp hb).1, rfl, rfl, rfl⟩⟩

lemma later_of_insertsLatest {db : Db} {new : NewRebuild}
    (h : (db.rebuilds.rows.all fun r =>
      r.buildInputId != new.buildInputId || sqlLt r.builtText new.builtText) = true) :
    ∀ t ∈ builtAts db new.buildInputId, sqlLt (t.map stored) new.builtText = true := by
  intro t ht
  rw [builtAts_eq] at ht
  obtain ⟨r, hr, rfl⟩ := List.mem_map.mp ht
  obtain ⟨hr, hid⟩ := mem_rebuildsOf.mp hr
  simpa [hid, Rebuild.builtText] using List.all_eq_true.mp h r hr

/-- If every rebuild is inserted as the latest, the rebuilds are in order. -/
lemma inOrder_of_history (hf : History (exec env) (fun _ => insertsForFriends) env.start tr)
    (hclean : ∀ e ∈ tr, commitsCleanly e = true) (hlatest : ∀ e ∈ tr, insertsLatest e = true) :
    InOrder (stateAfter (exec env) env.start tr) := by
  induction tr using List.reverseRecOn with
  | nil => exact ⟨by simp [Db.builds, Env.start, Db.empty], by simp [SourcesExist, Db.inputs, Env.start, Db.empty],
      fun i => by simp [builtAts, Db.builds, Env.start, Db.empty]⟩
  | append_singleton tr e ih =>
    have hbefore := ih hf.of_append (fun x hx => hclean x (by simp [hx]))
      fun x hx => hlatest x (by simp [hx])
    obtain ⟨hstate, hans, hfriend, -⟩ := hf.last
    have hcleanNow := hclean e (by simp)
    have hlatestNow := hlatest e (by simp)
    rw [← hstate] at hbefore
    rw [stateAfter_snoc, Lib.Event.after]
    rcases exec_builds env e.input e.stmt e.before with ⟨new, hs⟩ | ⟨now, r, hs⟩ | hsame
    · simp only [insertsLatest, hs] at hlatestNow
      rw [hs] at hfriend ⊢
      refine hbefore.insert ?_ (later_of_insertsLatest hlatestNow)
      rw [hstate]
      exact hasInput_of_inserts hf.of_append hfriend
    · simp only [commitsCleanly, hs] at hcleanNow
      rw [hs]
      exact Exec.answer_inv hbefore fun u db' hok => hbefore.commit hcleanNow (exec_commit hok)
    · exact hbefore.congr hsame (exec_inputs env _ _ _) (exec_sourcesExist env _ _ _ hbefore.sources)

/-- If the rebuild just inserted is the latest for all queries, it was inserted as the latest. -/
lemma insertsLatest_of_oneLatest {e : Event}
    (hf : History (exec env) (fun _ => insertsForFriends) env.start (tr ++ [e]))
    (h : OneLatest (e.after (exec env))) : insertsLatest e = true := by
  obtain ⟨hstate, -, hfriend, -⟩ := hf.last
  obtain ⟨⟨t, s, a⟩, i, c, db⟩ := e
  cases s with
  | insertRebuild new =>
    obtain ⟨src, g, hi⟩ := hasInput_of_inserts hf.of_append hfriend
    rw [← hstate] at hi
    obtain ⟨b, hb, hid, -⟩ := mem_inputs.mp hi
    have hlast := (oneLatest_iff _).mp h b hb
    change LastIsLatest ((db.rebuilds.rows ++ [new.row _]).filter (·.buildInputId == b.id)) at hlast
    rw [hid, List.filter_append, List.filter_singleton,
      show ((new.row (db.rebuilds.seq + 1)).buildInputId == new.buildInputId) = true from
        beq_self_eq_true new.buildInputId] at hlast
    refine List.all_eq_true.mpr fun r hr => ?_
    by_cases hrid : r.buildInputId = new.buildInputId
    · rw [Bool.or_eq_true]
      exact .inr (hlast _ _ rfl r (List.mem_filter.mpr ⟨hr, by simpa using hrid⟩))
    · simp [hrid]
  | _ => rfl

end

/-- **There is one notion of the latest rebuild in every state of a run in which every rebuild is
inserted with a later time than those its build input has**, and no package report overwrites a source
package of another origin. The former holds in no other run. -/
theorem oneLatest (env : Env) (as : Schedule) :
    ((trace env as).all (fun e => insertsLatest e && commitsCleanly e) = true →
      ∀ n, OneLatest (runPool env (as.take n)).state) ∧
    ((∀ n, OneLatest (runPool env (as.take n)).state) →
      (trace env as).all insertsLatest = true) := by
  have hhistory (as : Schedule) :
      History (exec env) (fun _ => insertsForFriends) env.start (trace env as) :=
    (Pool.progress (submitRebuildReport_inserted env.config) env.start as).1.1
  constructor
  · intro h n
    have hbeg (e : Event) (he : e ∈ trace env (as.take n)) :
        insertsLatest e = true ∧ commitsCleanly e = true := by
      refine Bool.and_eq_true_iff.mp (List.all_eq_true.mp h e ?_)
      rw [← List.take_append_drop n as, trace, Pool.trace_append]
      exact List.mem_append_left _ he
    have horder := inOrder_of_history (hhistory (as.take n)) (fun e he => (hbeg e he).2)
      fun e he => (hbeg e he).1
    rw [← state_runPool] at horder
    exact (oneLatest_iff _).mpr fun b _ => horder.lastIsLatest b.id
  · intro h
    refine List.all_eq_true.mpr fun e he => ?_
    obtain ⟨pre, post, htr⟩ := List.append_of_mem he
    obtain ⟨n, hn⟩ := Pool.exists_take htr
    change trace env (as.take n) = pre ++ [e] at hn
    have hbeg := hhistory (as.take n)
    rw [hn] at hbeg
    refine insertsLatest_of_oneLatest hbeg ?_
    have hstate := h n
    rw [state_runPool, hn, stateAfter_snoc] at hstate
    exact hstate

/-- `alice` reports a bad rebuild at 20 s; three days later she gets the job again and reports a
good one. Her clock read `first` and `second` when the rebuilds were built. -/
def rebuiltTwice (first second : Time) : Schedule :=
  handedOut ++
  serveAt 2 (.submitRebuildReport (workerHeaders "alice") ⟨1, first, [], .bad, []⟩)
    (20 * Common.second) ++
  serveAt 3 (.requestWork (workerHeaders "alice") ⟨["debian"], "amd64", ["amd64"]⟩)
    (260000 * Common.second) ++
  serveAt 4 (.submitRebuildReport (workerHeaders "alice") ⟨2, second, [], .good, []⟩)
    (260010 * Common.second)

theorem oneLatest_rebuiltTwice :
    ∀ n, OneLatest (runPool (openDaemon none) ((rebuiltTwice 15 16).take n)).state :=
  (oneLatest (openDaemon none) (rebuiltTwice 15 16)).1 (by decide +kernel)

/-- **A rebuild that a worker dates back is the latest by its id only**: the listings show the bad
rebuild, and a requeue of the bad packages does not find it. -/
theorem rebuiltTwice_not_oneLatest :
    (¬ ∀ env as, OneLatest (runPool env as).state) ∧
      (sourcePackagesBase (runPool (openDaemon none) (rebuiltTwice 16 15)).state).map (·.status) =
        [some .bad] ∧
      latestRebuildHas (· == some .bad) 1
        (runPool (openDaemon none) (rebuiltTwice 16 15)).state = false := by
  refine ⟨fun h => ?_, by decide +kernel, by decide +kernel⟩
  have hdiffer : ((runPool (openDaemon none) (rebuiltTwice 16 15)).state.buildInputs.rows.any fun b =>
      (unsupersededRebuilds (runPool (openDaemon none) (rebuiltTwice 16 15)).state b.id).map
        (Option.map Rebuild.id) !=
      [latestRebuildId b.id (runPool (openDaemon none) (rebuiltTwice 16 15)).state]) = true := by
    decide +kernel
  obtain ⟨b, hb, hne⟩ := List.any_eq_true.mp hdiffer
  obtain ⟨o, ho⟩ := h (openDaemon none) (rebuiltTwice 16 15) b hb
  rw [ho.listed, ho.reset] at hne
  simp at hne

end Rebuilderd.Daemon
