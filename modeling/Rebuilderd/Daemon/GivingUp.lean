import Rebuilderd.Daemon.Delays
import Rebuilderd.Daemon.Tries

/-!
What a package report makes of the groups of its packages.

A group is enqueued, given up, or left alone because one of its members is queued. Giving up clears
the next retries of the members there are; those that are imported later have one again.
-/

namespace Rebuilderd.Daemon

open Rebuilderd.Lib Rebuilderd.Common

/-! ### Groups at rest -/

def GroupQueued (db : Db) (g : Group) : Prop := ∃ q ∈ db.queue.rows, InGroup db q g

/-- A member of the group has used up its retries. -/
def UsedUp (c : ScheduleConfig) (db : Db) (g : Group) : Prop :=
  ∃ x ∈ db.tries, x.1.2.2 = g ∧ c.retriesExhausted x.2 = true

/-- The listed package was imported, and its build input has no good rebuild. -/
def NeedsBuild (T : Ties) (r : PackageReport) (p : SourcePackageReport) (db : Db) : Prop :=
  ∃ i, IsInputOf r p db i ∧ getCurrentRebuildStatus T db i ≠ .good

/-- Importing the package again does nothing to its group. -/
def AtRest (c : ScheduleConfig) (T : Ties) (r : PackageReport) (db : Db) (p : SourcePackageReport) :
    Prop :=
  ∃ i, IsInputOf r p db i ∧ (getCurrentRebuildStatus T db i = .good ∨
    GroupQueued db (reportedGroup r p) ∨ (UsedUp c db (reportedGroup r p) ∧
      ∀ b ∈ members (reportedGroup r p) db, b.nextRetry = none))

/-! ### Groups that are given up -/

/-- The earliest first try of a build input that is imported now. -/
def firstTryOf (c : ScheduleConfig) (now : Time) : Option Time :=
  if initialDelaySeconds c = 0 then none else some (now + initialDelaySeconds c * second)

/-- The database with the packages `ps` and their histories, but with nothing enqueued or given up. -/
def imported (c : ScheduleConfig) (now : Time) (r : PackageReport) (ps : List SourcePackageReport)
    (db : Db) : Db :=
  ps.foldl (fun d p => (importWithHistory now (firstTryOf c now) r p d).2)
    (markScopedPackagesUnseen r db)

/-- The package `p` needs a build, but its group `g` has no job at first and no retries left; the
build input `i` of the group is there in `d`. -/
structure GivesUp (c : ScheduleConfig) (T : Ties) (r : PackageReport) (db : Db)
    (p : SourcePackageReport) (d : Db) (i : ℕ) (g : Group) : Prop where
  free : ¬ GroupQueued db g
  group : reportedGroup r p = g
  need : NeedsBuild T r p d
  used : UsedUp c d g
  there : HasInput i d

/-- The build input `i` of the group is there when a package of the group is given up. -/
def GaveUp (c : ScheduleConfig) (T : Ties) (now : Time) (r : PackageReport) (db : Db)
    (ps : List SourcePackageReport) (i : ℕ) (g : Group) : Prop :=
  ∃ done p, done ++ [p] <+: ps ∧ GivesUp c T r db p (imported c now r (done ++ [p]) db) i g

/-- The packages that need a build are enqueued by the report, or given up with all their friends. -/
structure LeavesAtRest (c : ScheduleConfig) (T : Ties) (now : Time) (r : PackageReport) (db : Db) :
    Prop where
  /-- The jobs that the report drops at the end were not needed. -/
  doomed : ∀ p ∈ r.packages, NeedsBuild T r p (imported c now r r.packages db) →
    Doomed r db (reportedGroup r p) → UsedUp c (imported c now r r.packages db) (reportedGroup r p)
  /-- No friend is imported with a next retry after the group was given up. -/
  last : ∀ p ∈ r.packages, NeedsBuild T r p (imported c now r r.packages db) →
    Doomed r db (reportedGroup r p) ∨ ¬ GroupQueued db (reportedGroup r p) →
      UsedUp c (imported c now r r.packages db) (reportedGroup r p) →
        ∀ b ∈ members (reportedGroup r p) (imported c now r r.packages db), b.nextRetry ≠ none →
          GaveUp c T now r db r.packages b.id (reportedGroup r p)

section
variable {c : ScheduleConfig} {T : Ties} {now : Time} {r : PackageReport} {p : SourcePackageReport}
  {ps : List SourcePackageReport} {db d₀ d d' : Db} {g : Group} {i s : ℕ}

lemma groupQueued_iff (h : (i, s, g) ∈ d.inputs) : hasQueuedFriend d i = true ↔ GroupQueued d g :=
  hasQueuedFriend_iff h

lemma usedUp_iff (h : (i, s, g) ∈ d.inputs) : retriesUsedUp c d i = true ↔ UsedUp c d g :=
  retriesUsedUp_iff h

lemma firstTryOf_eq {first : Option Time} (h : c.firstTry now = .ok first) : firstTryOf c now = first :=
  (firstTry_ok_iff.mp h).2.symm

lemma SameHistory.usedUp (h : SameHistory d d') : UsedUp c d' g ↔ UsedUp c d g := by
  unfold UsedUp
  rw [h.tries]

lemma SameHistory.hasInput (h : SameHistory d d') : HasInput i d' ↔ HasInput i d := by
  unfold HasInput
  rw [h.inputs]

lemma SameHistory.needsBuild (h : SameHistory d d') : NeedsBuild T r p d' ↔ NeedsBuild T r p d := by
  unfold NeedsBuild
  simp only [h.isInputOf, h.status]

lemma needsBuild_iff (hu : Unique d) (h : IsInputOf r p d i) :
    NeedsBuild T r p d ↔ getCurrentRebuildStatus T d i ≠ .good := by
  constructor
  · rintro ⟨j, hj, hne⟩
    rwa [isInputOf_unique hu h hj] at hne
  · exact fun hne => ⟨i, h, hne⟩

/-! ### Enqueueing -/

/-- What enqueueing the build input `i` does to its group. -/
inductive Enqueued (c : ScheduleConfig) (T : Ties) (now : Time) (d : Db) (i : ℕ) (g : Group) (d' : Db) :
    Prop
  | rests (rest : getCurrentRebuildStatus T d i = .good ∨ GroupQueued d g) (same : d' = d)
  | givenUp (need : getCurrentRebuildStatus T d i ≠ .good) (free : ¬ GroupQueued d g)
      (used : UsedUp c d g) (queue : d'.queue = d.queue) (inputs : d'.buildInputs.rows =
        d.buildInputs.rows.map fun b => if b.group = g then { b with nextRetry := none } else b)
  | queued (need : getCurrentRebuildStatus T d i ≠ .good) (free : ¬ GroupQueued d g)
      (unused : ¬ UsedUp c d g) (inputs : d'.buildInputs = d.buildInputs) (priority : Priority)
      (queue : d'.queue = d.queue.insert (NewQueued.row ⟨i, priority, now⟩))

lemma enqueued_of_ok (hin : (i, s, g) ∈ d.inputs) (hok : enqueueImported c T now i d = .ok d') :
    Enqueued c T now d i g d' := by
  rcases enqueueImported_cases hok with ⟨hor, rfl⟩ | ⟨hneed, hfree, n, hn, hex⟩
  · exact .rests (hor.imp_right (groupQueued_iff hin).mp) rfl
  · have hfree' : ¬ GroupQueued d g := fun hq => by
      rw [(groupQueued_iff hin).mpr hq] at hfree
      cases hfree
    have hused : UsedUp c d g ↔ c.retriesExhausted n = true := by
      rw [← usedUp_iff hin, retriesUsedUp, hn]
    rcases hex with ⟨hex, rfl⟩ | ⟨hex, priority, rfl⟩
    · refine .givenUp hneed hfree' (hused.mpr hex) (markNonRetriable_of_none_queued hfree).1 ?_
      refine List.map_congr_left fun b hb => ?_
      simp only [List.contains_iff_mem, mem_friends_iff hin hb]
    · refine .queued hneed hfree' (fun h => ?_) rfl priority
        (upsertQueued_of_none_queued hin hfree priority now)
      rw [hused.mp h] at hex
      cases hex

/-! ### One package after the other -/

lemma seq_importWithHistory (now : Time) (first : Option Time) (r : PackageReport)
    (p : SourcePackageReport) (db : Db) :
    db.buildInputs.seq ≤ (importWithHistory now first r p db).2.buildInputs.seq := by
  rcases buildInputs_import_cases now first r p db with h | ⟨source, h⟩ <;> rw [h] <;>
    exact Nat.le_succ _

lemma mem_buildInputs_import {first : Option Time} {b : BuildInput}
    (hb : b ∈ (importWithHistory now first r p db).2.buildInputs.rows) :
    b ∈ db.buildInputs.rows ∨ (db.buildInputs.seq < b.id ∧ b.nextRetry = first) := by
  rcases buildInputs_import_cases now first r p db with h | ⟨source, h⟩ <;> rw [h] at hb
  · exact .inl hb
  · rcases List.mem_append.mp hb with hb | hb
    · exact .inl hb
    · rw [List.mem_singleton.mp hb]
      exact .inr ⟨Nat.lt_succ_self _, rfl⟩

lemma imported_append (c : ScheduleConfig) (now : Time) (r : PackageReport)
    (ps : List SourcePackageReport) (p : SourcePackageReport) (db : Db) :
    imported c now r (ps ++ [p]) db =
      (importWithHistory now (firstTryOf c now) r p (imported c now r ps db)).2 := by
  simp [imported]

lemma gaveUp_append : GaveUp c T now r db (ps ++ [p]) i g ↔ GaveUp c T now r db ps i g ∨
    GivesUp c T r db p (imported c now r (ps ++ [p]) db) i g := by
  simp only [GaveUp, List.prefix_concat_iff]
  constructor
  · rintro ⟨done, q, heq | hpre, hrest⟩
    · obtain ⟨rfl, hqp⟩ := List.append_inj' heq rfl
      obtain rfl : q = p := by simpa using hqp
      exact .inr hrest
    · exact .inl ⟨done, q, hpre, hrest⟩
  · rintro (⟨done, q, hpre, hrest⟩ | hrest)
    · exact ⟨done, q, .inr hpre, hrest⟩
    · exact ⟨ps, p, .inl rfl, hrest⟩

/-- The database `d`, which is `d₀` but for the queue and the build inputs that were given up. -/
structure Followed (c : ScheduleConfig) (db : Db) (gone : ℕ → Group → Prop) (d₀ d : Db) : Prop where
  unique : Unique d
  history : SameHistory d₀ d
  nonneg : ∀ x ∈ d.tries, 0 ≤ x.2
  hasInput : ∀ q ∈ d.queue.rows, HasInput q.buildInputId d
  kept : ∀ g, GroupQueued db g → GroupQueued d g
  jobs : ∀ g, GroupQueued d g → GroupQueued db g ∨ ¬ UsedUp c d g
  bound : ∀ i g, gone i g → i ≤ d₀.buildInputs.seq
  next : ∀ b ∈ d.buildInputs.rows, ∀ b₀ ∈ d₀.buildInputs.rows, b₀.id = b.id →
    (b.nextRetry = none ↔ gone b.id b.group ∨ b₀.nextRetry = none)

/-- The retries of a group that has a member are not used up by importing another. -/
lemma usedUp_of_import {first : Option Time} (hnonneg : ∀ x ∈ d.tries, 0 ≤ x.2)
    (hin : (i, s, g) ∈ d.inputs) (h : UsedUp c (importWithHistory now first r p d).2 g) :
    UsedUp c d g := by
  obtain ⟨new, htries, hzero⟩ := tries_importWithHistory now first r p d
  obtain ⟨x, hx, hg, hex⟩ := h
  rw [htries] at hx
  rcases List.mem_append.mp hx with hx | hx
  · exact ⟨x, hx, hg, hex⟩
  · obtain ⟨n, hn⟩ := exists_tries hin
    exact ⟨_, hn, rfl, retriesExhausted_mono hex ((hzero x hx).le.trans (hnonneg _ hn))⟩

/-- The rows of one more package, in both databases. -/
lemma Followed.importWithHistory {gone : ℕ → Group → Prop} (h : Followed c db gone d₀ d) (now : Time)
    (first : Option Time) (r : PackageReport) (p : SourcePackageReport) :
    Followed c db gone (importWithHistory now first r p d₀).2
      (importWithHistory now first r p d).2 := by
  have hu₀ : Unique d₀ := h.unique.congr
    (congrArg (·.rows.map SourcePackage.uniqueKey) h.history.sources.symm) h.history.inputs.symm
  have himp := importWithHistory_imported now first r p d
  have hqueue := (importWithHistory_frame now first r p d).queue
  have hseq := h.history.seq
  have hgrown := seq_importWithHistory now first r p d₀
  refine ⟨unique_importWithHistory h.unique now first r p,
    h.history.importWithHistory hu₀ now first first r p, fun x hx => ?_, fun q hq => ?_,
    fun g hg => ?_, fun g hg => ?_, fun i g hi => (h.bound i g hi).trans hgrown,
    fun b hb b₀ hb₀ hid => ?_⟩
  · obtain ⟨new, htries, hzero⟩ := tries_importWithHistory now first r p d
    rw [htries] at hx
    rcases List.mem_append.mp hx with hx | hx
    · exact h.nonneg x hx
    · exact (hzero x hx).ge
  · exact (h.hasInput q (hqueue ▸ hq)).imp fun s => .imp fun g => himp.keeps_inputs
  · obtain ⟨q, hq, s, hs⟩ := h.kept g hg
    exact ⟨q, hqueue ▸ hq, s, himp.keeps_inputs hs⟩
  · obtain ⟨q, hq, s, hs⟩ := hg
    rw [hqueue] at hq
    have hs := mem_inputs_of_hasInput (h.hasInput q hq) (fun _ => himp.keeps_inputs) hs
    refine (h.jobs g ⟨q, hq, s, hs⟩).imp_right fun hunused hused => ?_
    exact hunused (usedUp_of_import h.nonneg hs hused)
  · rcases mem_buildInputs_import hb with hold | ⟨hlt, hnext⟩ <;>
      rcases mem_buildInputs_import hb₀ with hold₀ | ⟨hlt₀, hnext₀⟩
    · exact h.next b hold b₀ hold₀ hid
    · have hle : b.id ≤ d.buildInputs.seq := d.buildInputs.bound b hold
      omega
    · have hle : b₀.id ≤ d₀.buildInputs.seq := d₀.buildInputs.bound b₀ hold₀
      omega
    · rw [hnext, hnext₀]
      refine ⟨.inr, fun hor => hor.resolve_left fun hgone => ?_⟩
      have hle := h.bound b.id b.group hgone
      omega

/-- What is enqueued after an import, or given up. -/
lemma Followed.enqueue {gone : ℕ → Group → Prop} (h : Followed c db gone d₀ d)
    (hin : IsInputOf r p d i) (hok : enqueueImported c T now i d = .ok d') :
    Followed c db (fun j g => gone j g ∨ GivesUp c T r db p d₀ j g) d₀ d' := by
  obtain ⟨s, hs⟩ := hin.inputs
  have hsame := SameHistory.enqueueImported hok
  have hneeds : NeedsBuild T r p d₀ ↔ getCurrentRebuildStatus T d i ≠ .good :=
    h.history.needsBuild.symm.trans (needsBuild_iff h.unique hin)
  have hu' : Unique d' := h.unique.congr (congrArg (·.rows.map SourcePackage.uniqueKey) hsame.sources)
    hsame.inputs
  have hbound (j : ℕ) (g : Group) (hj : gone j g ∨ GivesUp c T r db p d₀ j g) :
      j ≤ d₀.buildInputs.seq := by
    rcases hj with hj | hj
    · exact h.bound j g hj
    · obtain ⟨s, g', hj⟩ := hj.there
      obtain ⟨b, hb, rfl, -⟩ := mem_inputs.mp hj
      exact d₀.buildInputs.bound b hb
  have hkept (hq : ∀ q ∈ d.queue.rows, q ∈ d'.queue.rows) (g : Group) (hg : GroupQueued db g) :
      GroupQueued d' g := by
    obtain ⟨q, hmem, s, hs⟩ := h.kept g hg
    exact ⟨q, hq q hmem, s, hsame.inputs ▸ hs⟩
  -- Unless the group is given up now, the next retries are as before.
  have hnext {b b₀ : BuildInput} (hb : b ∈ d.buildInputs.rows) (hb₀ : b₀ ∈ d₀.buildInputs.rows)
      (hid : b₀.id = b.id) (hnot : ¬ GivesUp c T r db p d₀ b.id b.group) : b.nextRetry = none ↔
        (gone b.id b.group ∨ GivesUp c T r db p d₀ b.id b.group) ∨ b₀.nextRetry = none :=
    (h.next b hb b₀ hb₀ hid).trans (or_congr_left (or_iff_left hnot).symm)
  cases enqueued_of_ok hs hok with
  | rests rest same =>
    subst same
    refine ⟨h.unique, h.history, h.nonneg, h.hasInput, h.kept, h.jobs, hbound,
      fun b hb b₀ hb₀ hid => hnext hb hb₀ hid fun hgives => ?_⟩
    rcases rest with hgood | hqueued
    · exact hneeds.mp hgives.need hgood
    · rcases h.jobs _ hqueued with hold | hunused
      · exact hgives.free (hgives.group ▸ hold)
      · exact hunused (h.history.usedUp.mpr (hgives.group ▸ hgives.used))
  | givenUp need free used queue inputs =>
    refine ⟨hu', h.history.trans hsame, hsame.tries ▸ h.nonneg, fun q hq => ?_,
      hkept fun q hq => queue ▸ hq, fun g hg => ?_, hbound, fun b' hb' b₀ hb₀ hid => ?_⟩
    · exact hsame.hasInput.mpr (h.hasInput q (queue ▸ hq))
    · rw [hsame.usedUp]
      obtain ⟨q, hq, s, hs⟩ := hg
      exact h.jobs g ⟨q, queue ▸ hq, s, hsame.inputs ▸ hs⟩
    · rw [inputs] at hb'
      obtain ⟨b, hb, rfl⟩ := List.mem_map.mp hb'
      by_cases hg : b.group = reportedGroup r p
      · rw [if_pos hg] at hid ⊢
        refine iff_of_true rfl (.inl (.inr ⟨fun hq => free (h.kept _ (hg ▸ hq)), hg.symm,
          hneeds.mpr need, h.history.usedUp.mp (hg.symm ▸ used), ?_⟩))
        exact ⟨b₀.sourcePackageId, b₀.group, mem_inputs.mpr ⟨b₀, hb₀, hid, rfl, rfl⟩⟩
      · rw [if_neg hg] at hid ⊢
        exact hnext hb hb₀ hid fun hgives => hg hgives.group.symm
  | queued need free unused inputs priority queue =>
    refine ⟨hu', h.history.trans hsame, hsame.tries ▸ h.nonneg, fun q hq => ?_, hkept fun q hq => ?_,
      fun g hg => ?_, hbound, fun b hb b₀ hb₀ hid => hnext (inputs ▸ hb) hb₀ hid fun hgives => ?_⟩
    · rw [queue] at hq
      rcases List.mem_append.mp hq with hq | hq
      · exact hsame.hasInput.mpr (h.hasInput q hq)
      · rw [List.mem_singleton.mp hq]
        exact ⟨s, _, hsame.inputs ▸ hs⟩
    · rw [queue]
      exact List.mem_append_left _ hq
    · rw [hsame.usedUp]
      obtain ⟨q, hq, s', hs'⟩ := hg
      rw [queue] at hq
      rw [hsame.inputs] at hs'
      rcases List.mem_append.mp hq with hq | hq
      · exact h.jobs g ⟨q, hq, s', hs'⟩
      · rw [List.mem_singleton.mp hq] at hs'
        exact .inr ((inputs_inj hs hs').2 ▸ unused)
    · exact unused (h.history.usedUp.mpr (hgives.group ▸ hgives.used))

lemma not_gaveUp_nil : ¬ GaveUp c T now r db [] i g := by
  rintro ⟨done, q, hpre, -⟩
  simp at hpre

/-- Importing some packages of a report. -/
lemma followed_imports (hu : Unique db) (hnonneg : ∀ x ∈ db.tries, 0 ≤ x.2)
    (hq : ∀ q ∈ db.queue.rows, HasInput q.buildInputId db)
    (hf : ps.foldlM (importPackage c T now r) (markScopedPackagesUnseen r db) = .ok d) :
    Followed c db (GaveUp c T now r db ps) (imported c now r ps db) d := by
  refine foldlM_ok (I := fun ps d => Followed c db (GaveUp c T now r db ps) (imported c now r ps db) d)
    hf ⟨unique_mark hu r, .refl _, hnonneg, hq, fun _ h => h, fun _ h => .inl h,
      fun i g h => absurd h not_gaveUp_nil, fun b hb b₀ hb₀ hid => ?_⟩ fun done p d d' _ hd hok => ?_
  · rw [Table.eq_of_key hb₀ hb hid, or_iff_right not_gaveUp_nil]
  · obtain ⟨first, hfirst, henq⟩ := importPackage_ok hok
    obtain rfl := firstTryOf_eq hfirst
    have hin := (importWithHistory_imported now (firstTryOf c now) r p d).isInputOf
    have h := (hd.importWithHistory now (firstTryOf c now) r p).enqueue hin henq
    rw [← imported_append] at h
    have hgone : (fun j g => GaveUp c T now r db done j g ∨
        GivesUp c T r db p (imported c now r (done ++ [p]) db) j g) =
          GaveUp c T now r db (done ++ [p]) := by
      funext j g
      exact propext gaveUp_append.symm
    rwa [hgone] at h

/-! ### After a report -/

/-- **What a report leaves at rest**: the groups of all its packages, exactly if none was skipped
for a job that was dropped, or got a member after it was given up. -/
lemma atRest_iff (hu : Unique db) (hnonneg : ∀ x ∈ db.tries, 0 ≤ x.2)
    (hq : ∀ q ∈ db.queue.rows, HasInput q.buildInputId db)
    (hok : commitPackageReport c T now r db = .ok d') :
    (∀ p ∈ r.packages, AtRest c T r d' p) ↔ LeavesAtRest c T now r db := by
  obtain ⟨d, hfold, rfl⟩ := commitPackageReport_ok hok
  have hprog := progress_imports hu hq hfold
  have hfollowed := followed_imports hu hnonneg hq hfold
  let final := imported c now r r.packages db
  have hhist : SameHistory final d := hfollowed.history
  have hneeds {p : SourcePackageReport} {i : ℕ} (hi : IsInputOf r p d i) :
      NeedsBuild T r p final ↔ getCurrentRebuildStatus T d i ≠ .good :=
    hhist.needsBuild.symm.trans (needsBuild_iff hfollowed.unique hi)
  -- What is queued in the end was queued before, and its group was not doomed.
  have hold {g : Group} (harch : g.architecture = r.architecture)
      (hg : GroupQueued (dropUnseenScopedJobs r d) g) : GroupQueued d g ∧ ¬ Doomed r db g := by
    obtain ⟨q, hmem, s, hs⟩ := hg
    refine ⟨⟨q, (mem_dropUnseen.mp hmem).1, s, hs⟩, fun hdoom => ?_⟩
    exact not_queued_of_doomed hprog hq harch hdoom q hmem s hs
  constructor
  · intro hrest
    have hkey {p : SourcePackageReport} (hp : p ∈ r.packages) (hneed : NeedsBuild T r p final) :
        (GroupQueued d (reportedGroup r p) ∧ ¬ Doomed r db (reportedGroup r p)) ∨
          (UsedUp c final (reportedGroup r p) ∧
            ∀ b ∈ members (reportedGroup r p) d, b.nextRetry = none) := by
      obtain ⟨i, hi, hor⟩ := hrest p hp
      refine (hor.resolve_left ((hneeds hi).mp hneed)).imp (hold rfl) fun hidle => ?_
      exact ⟨hhist.usedUp.mp hidle.1, hidle.2⟩
    refine ⟨fun p hp hneed hdoom => ?_, fun p hp hneed hor hused b hb hnext => ?_⟩
    · exact ((hkey hp hneed).resolve_left fun h => h.2 hdoom).1
    · rcases hkey hp hneed with ⟨hqueued, hdoom⟩ | ⟨-, hnone⟩
      · refine absurd (hhist.usedUp.mpr hused) ?_
        exact (hfollowed.jobs _ hqueued).resolve_left (hor.resolve_left hdoom)
      · obtain ⟨hmem, hg⟩ := mem_members.mp hb
        have hin : (b.id, b.sourcePackageId, reportedGroup r p) ∈ d.inputs :=
          hhist.inputs ▸ mem_inputs.mpr ⟨b, hmem, rfl, rfl, hg⟩
        obtain ⟨b', hb', hid, -, hg'⟩ := mem_inputs.mp hin
        have hcleared := (hfollowed.next b' hb' b hmem hid.symm).mp
          (hnone b' (mem_members.mpr ⟨hb', hg'⟩))
        rw [hid, hg'] at hcleared
        exact hcleared.resolve_right hnext
  · intro hleaves p hp
    obtain ⟨i, hi, hsettled⟩ := hprog.settled p hp
    obtain ⟨s, hs⟩ := hi.inputs
    refine ⟨i, hi, or_iff_not_imp_left.mpr fun hbad => ?_⟩
    have hneed : NeedsBuild T r p final := (hneeds hi).mpr hbad
    have hcleared (hor : Doomed r db (reportedGroup r p) ∨ ¬ GroupQueued db (reportedGroup r p))
        (hused : UsedUp c final (reportedGroup r p)) :
        ∀ b ∈ members (reportedGroup r p) d, b.nextRetry = none := by
      intro b hb
      obtain ⟨hmem, hg⟩ := mem_members.mp hb
      have hin : (b.id, b.sourcePackageId, reportedGroup r p) ∈ final.inputs :=
        hhist.inputs ▸ mem_inputs.mpr ⟨b, hmem, rfl, rfl, hg⟩
      obtain ⟨b₀, hb₀, hid, -, hg₀⟩ := mem_inputs.mp hin
      rw [hfollowed.next b hmem b₀ hb₀ hid, hg, ← hid, or_iff_not_imp_right]
      exact hleaves.last p hp hneed hor hused b₀ (mem_members.mpr ⟨hb₀, hg₀⟩)
    by_cases hdoom : Doomed r db (reportedGroup r p)
    · have hused := hleaves.doomed p hp hneed hdoom
      exact .inr ⟨hhist.usedUp.mpr hused, hcleared (.inl hdoom) hused⟩
    · by_cases hqueued : GroupQueued d (reportedGroup r p)
      · exact .inl (queued_of_not_doomed hprog hq hdoom hqueued)
      · rcases hsettled with (hgood | hused) | hfriend
        · exact absurd hgood hbad
        · have hused := (usedUp_iff hs).mp hused
          refine .inr ⟨hused, hcleared (.inr fun h => hqueued (hfollowed.kept _ h)) ?_⟩
          exact hhist.usedUp.mp hused
        · exact absurd ((groupQueued_iff hs).mp hfriend) hqueued

end

end Rebuilderd.Daemon
