import Rebuilderd.Daemon.Histories

/-!
Whether a package report forgets one of its packages.

A package is not enqueued if a friend of it is queued. The end of the same report drops the
unclaimed jobs of packages that are not listed any more, that friend's among them.
-/

namespace Rebuilderd.Daemon

open Rebuilderd.Lib Rebuilderd.Common

/-! ### What a listed package needs -/

/-- `i` is a build input of the listed package `p`, with its architecture and its url. -/
def IsInputOf (r : PackageReport) (p : SourcePackageReport) (db : Db) (i : ℕ) : Prop :=
  ∃ s ∈ db.sourcePackages.rows, s.name = p.name ∧ s.version = p.version ∧ s.inOriginOf r = true ∧
    (i, s.id, reportedGroup r p) ∈ db.inputs

/-- The largest number of retries among the friends is at least the configured maximum. -/
def retriesUsedUp (c : ScheduleConfig) (db : Db) (i : ℕ) : Bool :=
  match getLargestRetryCountAmongFriends db i with
  | .ok n => c.retriesExhausted n
  | .error _ => false

/-- The build input does not have to be built any more. -/
def NeedsNoJob (c : ScheduleConfig) (T : Ties) (db : Db) (i : ℕ) : Prop :=
  getCurrentRebuildStatus T db i = .good ∨ retriesUsedUp c db i = true

/-- Every listed package has one build input, which needs no job or has a friend in the queue. -/
def ForgetsNone (c : ScheduleConfig) (T : Ties) (r : PackageReport) (db : Db) : Prop :=
  ∀ p ∈ r.packages, ∃ i, IsInputOf r p db i ∧ (∀ j, IsInputOf r p db j → j = i) ∧
    (NeedsNoJob c T db i ∨ hasQueuedFriend db i = true)

/-- The group is queued, but only with unclaimed jobs of packages in the origin of the report
that the report does not list. -/
def Doomed (r : PackageReport) (db : Db) (g : Group) : Prop :=
  (∃ q ∈ db.queue.rows, ∃ s, (q.buildInputId, s, g) ∈ db.inputs) ∧
    ∀ q ∈ db.queue.rows, ∀ i, (q.buildInputId, i, g) ∈ db.inputs → q.worker = none ∧
      ∃ s ∈ db.sourcePackages.rows, s.id = i ∧ s.inOriginOf r = true ∧ ¬ Listed r s

/-- The database with the packages of the report and their histories, but with nothing enqueued. -/
def importAll (now : Time) (r : PackageReport) (db : Db) : Db :=
  r.packages.foldl (fun db p => (importWithHistory now none r p db).2) (markScopedPackagesUnseen r db)

lemma isInputOf_unique {r : PackageReport} {p : SourcePackageReport} {db : Db} (h : Unique db)
    {i j : ℕ} (hi : IsInputOf r p db i) (hj : IsInputOf r p db j) : j = i := by
  obtain ⟨s, hs, hname, hversion, horigin, hi⟩ := hi
  obtain ⟨s', hs', hname', hversion', horigin', hj⟩ := hj
  have hkey : s.uniqueKey = s'.uniqueKey := by
    rw [uniqueKey_of_origin horigin, uniqueKey_of_origin horigin', hname, hname', hversion, hversion']
  obtain rfl := h.source_eq hs hs' hkey
  exact h.input_eq hj hi

lemma IsInputOf.inputs {r : PackageReport} {p : SourcePackageReport} {db : Db} {i : ℕ}
    (h : IsInputOf r p db i) : ∃ s, (i, s, reportedGroup r p) ∈ db.inputs := by
  obtain ⟨s, -, -, -, -, hin⟩ := h
  exact ⟨s.id, hin⟩

/-- The build input of a listed package stays its build input when another package is imported. -/
lemma IsInputOf.imported {r : PackageReport} {p p' : SourcePackageReport} {db db' : Db} {i : ℕ}
    {input : BuildInput} (h : IsInputOf r p db i) (himp : Imported r p' db input db') :
    IsInputOf r p db' i := by
  obtain ⟨s, hs, hname, hversion, horigin, hin⟩ := h
  obtain ⟨s', hs', hid, hname', hversion', hor⟩ := himp.sources.kept s hs
  refine ⟨s', hs', hname'.trans hname, hversion'.trans hversion, ?_, hid ▸ himp.keeps_inputs hin⟩
  rcases hor with rfl | hfrom
  · exact horigin
  · exact hfrom.origin

lemma Imported.isInputOf {r : PackageReport} {p : SourcePackageReport} {db db' : Db}
    {input : BuildInput} (h : Imported r p db input db') : IsInputOf r p db' input.id := by
  obtain ⟨s, hs, hid, hfrom⟩ := h.source
  exact ⟨s, hs, hfrom.name, hfrom.version, hfrom.origin,
    mem_inputs.mpr ⟨input, h.stored, rfl, hid.symm, h.group⟩⟩

/-! ### Retries -/

lemma retriesExhausted_mono {c : ScheduleConfig} {m n : ℤ} (h : c.retriesExhausted m = true)
    (hmn : m ≤ n) : c.retriesExhausted n = true := by
  unfold ScheduleConfig.retriesExhausted at *
  rcases hmax : c.maxRetries with _ | max <;> rw [hmax] at h
  · cases h
  · have hm : max ≤ m := by simpa using h
    simpa using hm.trans hmn

/-- The retries of a group are used up if those of one member are. -/
lemma retriesUsedUp_iff {c : ScheduleConfig} {db : Db} {i s : ℕ} {g : Group}
    (h : (i, s, g) ∈ db.inputs) : retriesUsedUp c db i = true ↔
      ∃ x ∈ db.tries, x.1.2.2 = g ∧ c.retriesExhausted x.2 = true := by
  have hmem (n : ℤ) : n ∈ (db.buildInputs.rows.filter fun b =>
      (buildInputFriends db i).contains b.id).map (·.retries) ↔ ∃ x ∈ db.tries, x.1.2.2 = g ∧ x.2 = n := by
    simp only [List.mem_map, List.mem_filter, List.contains_iff_mem, mem_buildInputFriends_iff h,
      Db.tries]
    constructor
    · rintro ⟨b, ⟨hb, s', hs'⟩, rfl⟩
      obtain ⟨b', hb', hid, -, hg⟩ := mem_inputs.mp hs'
      rw [Table.eq_of_key hb' hb hid] at hg
      exact ⟨_, ⟨b, hb, rfl⟩, hg, rfl⟩
    · rintro ⟨_, ⟨b, hb, rfl⟩, rfl, rfl⟩
      exact ⟨b, ⟨hb, _, mem_inputs.mpr ⟨b, hb, rfl, rfl, rfl⟩⟩, rfl⟩
  unfold retriesUsedUp getLargestRetryCountAmongFriends maxRetriesOf
  generalize (db.buildInputs.rows.filter fun b =>
    (buildInputFriends db i).contains b.id).map (·.retries) = l at hmem
  rcases hmax : l.max? with _ | n
  · obtain rfl : l = [] := by simpa using hmax
    simp only [Bool.false_eq_true, false_iff, not_exists, not_and]
    intro x hx hg hex
    exact absurd ((hmem x.2).mpr ⟨x, hx, hg, rfl⟩) (by simp)
  · obtain ⟨hn, hle⟩ := List.max?_eq_some_iff.mp hmax
    constructor
    · intro hex
      obtain ⟨x, hx, hg, rfl⟩ := (hmem n).mp hn
      exact ⟨x, hx, hg, hex⟩
    · rintro ⟨x, hx, hg, hex⟩
      exact retriesExhausted_mono hex (hle _ ((hmem x.2).mpr ⟨x, hx, hg, rfl⟩))

namespace SameHistory

variable {db db' : Db}

lemma isInputOf (h : SameHistory db db') {r : PackageReport} {p : SourcePackageReport} {i : ℕ} :
    IsInputOf r p db' i ↔ IsInputOf r p db i := by
  unfold IsInputOf
  rw [h.sources, h.inputs]

lemma needsNoJob (h : SameHistory db db') {c : ScheduleConfig} {T : Ties} {i s : ℕ} {g : Group}
    (hi : (i, s, g) ∈ db.inputs) : NeedsNoJob c T db' i ↔ NeedsNoJob c T db i := by
  have hi' : (i, s, g) ∈ db'.inputs := h.inputs ▸ hi
  unfold NeedsNoJob
  rw [h.status, retriesUsedUp_iff hi, retriesUsedUp_iff hi', h.tries]

end SameHistory

/-! ### A report, package by package -/

section
variable {c : ScheduleConfig} {T : Ties} {now : Time} {r : PackageReport} {p : SourcePackageReport}
  {db₀ db db₁ db' : Db} {input : BuildInput}

/-- The build input of a package of the report keeps its rebuilds while others are imported: they
are copied for new packages only. -/
lemma rebuilds_importWithHistory {first : Option Time} {p₀ : SourcePackageReport} {i : ℕ}
    (h : IsInputOf r p₀ db i) :
    (importWithHistory now first r p db).2.rebuilds.rows.filter (·.buildInputId == i) =
      db.rebuilds.rows.filter (·.buildInputId == i) := by
  have himp := importWithHistory_imported now first r p db
  have hrows := (importRows_frame now first r p db).2.1
  have hnew (hid : i = (importWithHistory now first r p db).1.id) : isNewPackage r p db = false := by
    obtain ⟨s, hs, -, -, horigin, hi⟩ := h
    obtain ⟨s', hs', hsid', hname, hversion, -⟩ := himp.sources.kept s hs
    obtain ⟨s₂, hs₂, hsid₂, hfrom⟩ := himp.source
    have hi' : (i, s.id, reportedGroup r p₀) ∈ (importWithHistory now first r p db).2.inputs :=
      himp.keeps_inputs hi
    obtain ⟨b, hb, hbid, hbs, -⟩ := mem_inputs.mp hi'
    obtain rfl := Table.eq_of_key hb himp.stored (hbid.trans hid)
    obtain rfl : s' = s₂ := Table.eq_of_key hs' hs₂ (hsid'.trans (hbs.symm.trans hsid₂.symm))
    have hsame : (s.name == p.name && s.version == p.version && s.inOriginOf r) = true := by
      simp [← hfrom.name, ← hfrom.version, hname, hversion, horigin]
    simpa [isNewPackage] using ⟨s, hs, by simpa using hsame⟩
  unfold importWithHistory at hnew ⊢
  dsimp only at hnew ⊢
  split
  · rename_i hn
    rw [copyExistingRebuilds_rebuilds_of_ne fun hid => ?_, hrows]
    rw [hnew hid] at hn
    cases hn
  · rw [hrows]

/-- The state of a sync after the packages `done`: those are seen and need no job or have one, and
no job was added where there had been one before. -/
structure Progress (c : ScheduleConfig) (T : Ties) (now : Time) (r : PackageReport) (db₀ : Db)
    (done : List SourcePackageReport) (db : Db) : Prop where
  sync : Syncing r db₀ db
  unique : Unique db
  queueInputs : ∀ q ∈ db.queue.rows, HasInput q.buildInputId db
  history : SameHistory (done.foldl (fun d p => (importWithHistory now none r p d).2)
    (markScopedPackagesUnseen r db₀)) db
  seen : ∀ p ∈ done, ∀ s ∈ db.sourcePackages.rows, s.name = p.name → s.version = p.version →
    s.inOriginOf r = true → s.seenInLastSync = true
  settled : ∀ p ∈ done, ∃ i, IsInputOf r p db i ∧
    (NeedsNoJob c T db i ∨ hasQueuedFriend db i = true)
  quiet : ∀ g, (∃ q ∈ db₀.queue.rows, ∃ s, (q.buildInputId, s, g) ∈ db₀.inputs) →
    ∀ q ∈ db.queue.rows, ∀ s, (q.buildInputId, s, g) ∈ db.inputs → q ∈ db₀.queue.rows

/-- A build input that is settled stays so when another package is imported. -/
lemma settled_import {p₀ : SourcePackageReport}
    (h : ∃ i, IsInputOf r p₀ db i ∧ (NeedsNoJob c T db i ∨ hasQueuedFriend db i = true))
    (hok : importPackage c T now r db p = .ok db')
    (hqueue : ∀ q ∈ db.queue.rows, q ∈ db'.queue.rows) :
    ∃ i, IsInputOf r p₀ db' i ∧ (NeedsNoJob c T db' i ∨ hasQueuedFriend db' i = true) := by
  obtain ⟨first, -, henq⟩ := importPackage_ok hok
  have hsame := SameHistory.enqueueImported henq
  have himp := importWithHistory_imported now first r p db
  obtain ⟨i, hi, hneed⟩ := h
  have hrebuilds : (importWithHistory now first r p db).2.rebuilds.rows.filter (·.buildInputId == i) =
      db.rebuilds.rows.filter (·.buildInputId == i) := rebuilds_importWithHistory hi
  have hstatus := getCurrentRebuildStatus_congr T hrebuilds
  obtain ⟨s, hin⟩ := hi.inputs
  refine ⟨i, hsame.isInputOf.mpr (hi.imported himp), ?_⟩
  rcases hneed with hneed | hqueued
  · left
    rw [hsame.needsNoJob (himp.keeps_inputs hin)]
    refine hneed.imp (fun hgood => hstatus.trans hgood) fun hused => ?_
    rw [retriesUsedUp_iff (himp.keeps_inputs hin)]
    obtain ⟨x, hx, hg, hex⟩ := (retriesUsedUp_iff hin).mp hused
    obtain ⟨new, htries, -⟩ := tries_importWithHistory now first r p db
    exact ⟨x, htries ▸ List.mem_append_left _ hx, hg, hex⟩
  · right
    obtain ⟨q, hq, s', hqs⟩ := (hasQueuedFriend_iff hin).mp hqueued
    exact (hasQueuedFriend_iff (hsame.inputs ▸ himp.keeps_inputs hin)).mpr
      ⟨q, hqueue q hq, s', hsame.inputs ▸ himp.keeps_inputs hqs⟩

/-- A package that was just imported is settled. -/
lemma settled_self (hok : importPackage c T now r db p = .ok db') :
    ∃ i, IsInputOf r p db' i ∧ (NeedsNoJob c T db' i ∨ hasQueuedFriend db' i = true) := by
  obtain ⟨first, -, henq⟩ := importPackage_ok hok
  have hsame := SameHistory.enqueueImported henq
  have himp := importWithHistory_imported now first r p db
  generalize importWithHistory now first r p db = out at himp henq hsame
  obtain ⟨input, db₁⟩ := out
  dsimp only at himp henq hsame
  have hin : (input.id, input.sourcePackageId, input.group) ∈ db₁.inputs :=
    mem_inputs.mpr ⟨input, himp.stored, rfl, rfl, rfl⟩
  refine ⟨input.id, hsame.isInputOf.mpr himp.isInputOf, ?_⟩
  rcases enqueueImported_cases henq with ⟨hor, rfl⟩ | ⟨-, hq, n, hn, ⟨hex, -⟩ | ⟨-, priority, rfl⟩⟩
  · exact hor.imp .inl id
  · left
    rw [hsame.needsNoJob hin]
    exact .inr (by simp only [retriesUsedUp, hn, hex])
  · right
    have hrow : NewQueued.row ⟨input.id, priority, now⟩ (db₁.queue.seq + 1) ∈
        (NewQueued.upsert ⟨input.id, priority, now⟩ db₁).queue.rows := by
      rw [upsertQueued_of_none_queued hin hq]
      exact List.mem_append_right _ (List.mem_singleton_self _)
    have hin' : (input.id, input.sourcePackageId, input.group) ∈
      (NewQueued.upsert ⟨input.id, priority, now⟩ db₁).inputs := hin
    exact (hasQueuedFriend_iff hin').mpr ⟨_, hrow, input.sourcePackageId, hin⟩

/-- A build input that was there keeps its package and its group. -/
lemma mem_inputs_of_hasInput {i s : ℕ} {g : Group} (h : HasInput i db)
    (hsub : ∀ x ∈ db.inputs, x ∈ db'.inputs) (hi : (i, s, g) ∈ db'.inputs) : (i, s, g) ∈ db.inputs := by
  obtain ⟨s', g', hs'⟩ := h
  obtain ⟨rfl, rfl⟩ := inputs_inj hi (hsub _ hs')
  exact hs'

/-- What an import does to the queue: nothing, or one new row for its build input, of which no
friend was queued. -/
lemma queue_import (hok : importPackage c T now r db p = .ok db') :
    db'.queue = db.queue ∨ ∃ id s priority, (id, s, reportedGroup r p) ∈ db'.inputs ∧
      (∀ q ∈ db.queue.rows, ∀ s', (q.buildInputId, s', reportedGroup r p) ∉ db.inputs) ∧
        db'.queue = db.queue.insert (NewQueued.row ⟨id, priority, now⟩) := by
  obtain ⟨first, -, henq⟩ := importPackage_ok hok
  have himp := importWithHistory_imported now first r p db
  have hqueue := (importWithHistory_frame now first r p db).queue
  generalize importWithHistory now first r p db = out at himp hqueue henq
  obtain ⟨input, db₁⟩ := out
  dsimp only at himp hqueue henq
  have hgroup : input.group = reportedGroup r p := himp.group
  have hin : (input.id, input.sourcePackageId, reportedGroup r p) ∈ db₁.inputs :=
    mem_inputs.mpr ⟨input, himp.stored, rfl, rfl, hgroup⟩
  rcases enqueueImported_cases henq with ⟨-, rfl⟩ | ⟨-, hq, n, -, ⟨-, rfl⟩ | ⟨-, priority, rfl⟩⟩
  · exact .inl hqueue
  · exact .inl ((markNonRetriable_of_none_queued hq).1.trans hqueue)
  · right
    refine ⟨input.id, input.sourcePackageId, priority, hin, fun q hq' s' hs' => ?_, ?_⟩
    · have hfriend : hasQueuedFriend db₁ input.id = true := by
        exact (hasQueuedFriend_iff hin).mpr ⟨q, hqueue ▸ hq', s', himp.keeps_inputs hs'⟩
      rw [hq] at hfriend
      cases hfriend
    · rw [upsertQueued_of_none_queued hin hq]
      simp only [hqueue]

/-- Importing one package keeps the progress and adds the package. -/
lemma progress_import {done : List SourcePackageReport} (hp : p ∈ r.packages)
    (h : Progress c T now r db₀ done db) (hok : importPackage c T now r db p = .ok db') :
    Progress c T now r db₀ (done ++ [p]) db' := by
  have hsync := syncing_import hp h.sync hok
  have hunique := unique_import h.unique hok
  have hself := settled_self hok
  have hqueue := queue_import hok
  have hkept : ∀ q ∈ db.queue.rows, q ∈ db'.queue.rows := by
    intro q hq
    rcases hqueue with hqueue | ⟨_, _, _, -, -, hqueue⟩ <;> rw [hqueue]
    · exact hq
    · exact List.mem_append_left _ hq
  have hsettled : ∀ p₀ ∈ done, _ := fun p₀ hp₀ => settled_import (h.settled p₀ hp₀) hok hkept
  obtain ⟨first, -, henq⟩ := importPackage_ok hok
  have hsame := SameHistory.enqueueImported henq
  have himp := importWithHistory_imported now first r p db
  have hinputs : ∀ x ∈ db.inputs, x ∈ db'.inputs := by
    intro x hx
    rw [hsame.inputs]
    exact himp.keeps_inputs hx
  have hhas {i : ℕ} (hi : HasInput i db) : HasInput i db' :=
    hi.imp fun _ => .imp fun _ => hinputs _
  refine ⟨hsync, hunique, fun q hq => ?_, ?_, fun p₀ hp₀ s hs hname hversion horigin => ?_,
    fun p₀ hp₀ => ?_, fun g hg q hq s hs => ?_⟩
  · rcases hqueue with hqueue | ⟨id, s, _, hid, -, hqueue⟩ <;> rw [hqueue] at hq
    · exact hhas (h.queueInputs q hq)
    · rcases List.mem_append.mp hq with hq | hq
      · exact hhas (h.queueInputs q hq)
      · rw [List.mem_singleton.mp hq]
        exact ⟨s, _, hid⟩
  · rw [List.foldl_append]
    have hu := h.unique.congr (congrArg (·.rows.map SourcePackage.uniqueKey) h.history.sources.symm)
      h.history.inputs.symm
    exact (h.history.importWithHistory hu now none first r p).trans hsame
  · rw [hsame.sources] at hs
    rcases himp.sources.from_ s hs with hs₀ | hfrom
    · rcases List.mem_append.mp hp₀ with hp₀ | hp₀
      · exact h.seen p₀ hp₀ s hs₀ hname hversion horigin
      · obtain rfl := List.mem_singleton.mp hp₀
        obtain ⟨s₂, hs₂, -, hfrom⟩ := himp.source
        have hkey : s.uniqueKey = s₂.uniqueKey := by
          rw [uniqueKey_of_origin horigin, uniqueKey_of_origin hfrom.origin, hname, hfrom.name,
            hversion, hfrom.version]
        rw [(unique_importWithHistory h.unique now first r p₀).source_eq hs hs₂ hkey]
        exact hfrom.seen
    · exact hfrom.seen
  · rcases List.mem_append.mp hp₀ with hp₀ | hp₀
    · exact hsettled p₀ hp₀
    · rw [List.mem_singleton.mp hp₀]
      exact hself
  · -- A row that was there has the group it had; a new one is of a group that was not queued.
    have hold (hq : q ∈ db.queue.rows) : q ∈ db₀.queue.rows :=
      h.quiet g hg q hq s (mem_inputs_of_hasInput (h.queueInputs q hq) hinputs hs)
    rcases hqueue with hqueue | ⟨id, s', _, hid, hnone, hqueue⟩ <;> rw [hqueue] at hq
    · exact hold hq
    · rcases List.mem_append.mp hq with hq | hq
      · exact hold hq
      · exfalso
        rw [List.mem_singleton.mp hq] at hs
        obtain ⟨-, rfl⟩ := inputs_inj hs hid
        obtain ⟨q₀, hq₀, s₀, hs₀⟩ := hg
        exact hnone q₀ (h.sync.kept q₀ hq₀) s₀ (h.sync.inputs _ hs₀)

lemma progress_mark (c : ScheduleConfig) (T : Ties) (now : Time) (r : PackageReport)
    (hu : Unique db) (hq : ∀ q ∈ db.queue.rows, HasInput q.buildInputId db) :
    Progress c T now r db [] (markScopedPackagesUnseen r db) :=
  ⟨syncing_mark r db, unique_mark hu r, hq, .refl _, by simp, by simp, fun _ _ q hq _ _ => hq⟩

/-- The progress of a whole report, before jobs are dropped. -/
lemma progress_imports (hu : Unique db) (hq : ∀ q ∈ db.queue.rows, HasInput q.buildInputId db)
    (hf : r.packages.foldlM (importPackage c T now r) (markScopedPackagesUnseen r db) = .ok db') :
    Progress c T now r db r.packages db' :=
  foldlM_ok (I := fun done d => Progress c T now r db done d) hf (progress_mark c T now r hu hq)
    fun _ _ _ _ hp hd hstep => progress_import hp hd hstep

end

/-! ### The end of a report -/

section
variable {r : PackageReport} {db₀ db : Db} {g : Group}

lemma sameHistory_dropUnseen (r : PackageReport) (db : Db) :
    SameHistory db (dropUnseenScopedJobs r db) := ⟨rfl, rfl, rfl, rfl⟩

/-- A job of a doomed group is dropped. -/
lemma not_queued_of_doomed {c : ScheduleConfig} {T : Ties} {now : Time}
    (h : Progress c T now r db₀ r.packages db) (hq₀ : ∀ q ∈ db₀.queue.rows, HasInput q.buildInputId db₀)
    (harch : g.architecture = r.architecture) (hdoom : Doomed r db₀ g) :
    ∀ q ∈ (dropUnseenScopedJobs r db).queue.rows, ∀ s, (q.buildInputId, s, g) ∉ db.inputs := by
  intro q hq s hs
  obtain ⟨hqueue, hkeep⟩ := mem_dropUnseen.mp hq
  have hold := h.quiet g hdoom.1 q hqueue s hs
  -- The row is an old one, so its build input is one of the group, of an unlisted package.
  obtain ⟨hw, s₀, hs₀, rfl, horigin, hnot⟩ := hdoom.2 q hold s
    (mem_inputs_of_hasInput (hq₀ q hold) h.sync.inputs hs)
  obtain ⟨b, hb, hbid, hbs, hbg⟩ := mem_inputs.mp hs
  obtain ⟨s₁, hs₁, hid, hname, hversion, hor⟩ := h.sync.sources s₀ hs₀
  refine hkeep ⟨hw, b, hb, hbid, (congrArg Group.architecture hbg).trans harch, s₁, hs₁,
    hid.trans hbs.symm, hor horigin, ?_⟩
  by_contra hseen
  rw [Bool.not_eq_false] at hseen
  obtain ⟨p, hp, hpname, hpversion⟩ :=
    h.sync.seen q.buildInputId g s₁ hs₁ (hid ▸ hs) (hor horigin) harch hseen
  exact hnot ⟨p, hp, hname.symm.trans hpname, hversion.symm.trans hpversion⟩

/-- In a group that is not doomed, a job is left. -/
lemma queued_of_not_doomed {c : ScheduleConfig} {T : Ties} {now : Time}
    (h : Progress c T now r db₀ r.packages db) (hq₀ : ∀ q ∈ db₀.queue.rows, HasInput q.buildInputId db₀)
    (hdoom : ¬ Doomed r db₀ g)
    (hqueued : ∃ q ∈ db.queue.rows, ∃ s, (q.buildInputId, s, g) ∈ db.inputs) :
    ∃ q ∈ (dropUnseenScopedJobs r db).queue.rows, ∃ s, (q.buildInputId, s, g) ∈ db.inputs := by
  have hlisted (s : SourcePackage) (hs : s ∈ db.sourcePackages.rows) (horigin : s.inOriginOf r = true)
      (hl : Listed r s) : s.seenInLastSync = true := by
    obtain ⟨p, hp, hname, hversion⟩ := hl
    exact h.seen p hp s hs hname hversion horigin
  by_cases hold : ∃ q ∈ db₀.queue.rows, ∃ s, (q.buildInputId, s, g) ∈ db₀.inputs
  · -- One of the old jobs is claimed, of another origin or of a listed package.
    obtain ⟨q, hq, i, hi, hsafe⟩ : ∃ q ∈ db₀.queue.rows, ∃ i, (q.buildInputId, i, g) ∈ db₀.inputs ∧
        (q.worker = none → ∀ s ∈ db₀.sourcePackages.rows, s.id = i → s.inOriginOf r = true →
          Listed r s) := by
      by_contra hnone
      push Not at hnone
      refine hdoom ⟨hold, fun q hq i hi => ?_⟩
      obtain ⟨hw, s, hs, hid, horigin, hnot⟩ := hnone q hq i hi
      exact ⟨hw, s, hs, hid, horigin, hnot⟩
    refine ⟨q, mem_dropUnseen.mpr ⟨h.sync.kept q hq, ?_⟩, i, h.sync.inputs _ hi⟩
    rintro ⟨hw, b, hb, hbid, -, s, hs, hsid, horigin, hunseen⟩
    obtain ⟨b', hb', hbid', hbs', -⟩ := mem_inputs.mp (h.sync.inputs _ hi)
    obtain rfl := Table.eq_of_key hb hb' (hbid.trans hbid'.symm)
    obtain ⟨-, s₀, hs₀, hs₀id, hname, hversion, hor⟩ := h.sync.unseen b.id b.group s hs
      (mem_inputs.mpr ⟨b, hb, rfl, hsid.symm, rfl⟩) hunseen
    obtain ⟨p, hp, hpname, hpversion⟩ :=
      hsafe hw s₀ hs₀ (hs₀id.trans (hsid.trans hbs')) (hor.trans horigin)
    rw [hlisted s hs horigin ⟨p, hp, hname.symm.trans hpname, hversion.symm.trans hpversion⟩] at hunseen
    cases hunseen
  · -- The job is new, hence of a listed package.
    obtain ⟨q, hq, s, hs⟩ := hqueued
    refine ⟨q, mem_dropUnseen.mpr ⟨hq, ?_⟩, s, hs⟩
    rintro ⟨hw, b, hb, hbid, -, s₁, hs₁, hsid₁, horigin, hunseen⟩
    rcases h.sync.rows q hq with hq₀' | ⟨-, -, p, hp, b', hb', s', hs', hbid', hsid', -, hname, hversion, -⟩
    · exact hold ⟨q, hq₀', s, mem_inputs_of_hasInput (hq₀ q hq₀') h.sync.inputs hs⟩
    · obtain rfl := Table.eq_of_key hb hb' (hbid.trans hbid'.symm)
      obtain rfl := Table.eq_of_key hs₁ hs' (hsid₁.trans hsid'.symm)
      rw [hlisted s₁ hs₁ horigin ⟨p, hp, hname, hversion⟩] at hunseen
      cases hunseen

end

/-- **A report forgets a package exactly if the package's group was queued only with unclaimed jobs
of packages the report drops**, and the package still needs to be built. -/
theorem forgetsNone_iff (env : Env) (now : Time) (r : PackageReport) (db db' : Db)
    (h : Reachable env db)
    (hok : commitPackageReport env.config.schedule env.ties now r db = .ok db') :
    ForgetsNone env.config.schedule env.ties r db' ↔
      ∀ p ∈ r.packages, Doomed r db (reportedGroup r p) → ∃ i, IsInputOf r p (importAll now r db) i ∧
        NeedsNoJob env.config.schedule env.ties (importAll now r db) i := by
  have hq := reachable_queueInput h
  obtain ⟨db₁, hfold, rfl⟩ := commitPackageReport_ok hok
  have hprog := progress_imports (reachable_unique h) hq hfold
  have hsame : SameHistory (importAll now r db) (dropUnseenScopedJobs r db₁) :=
    hprog.history.trans (sameHistory_dropUnseen r db₁)
  have hunique : Unique (dropUnseenScopedJobs r db₁) :=
    unique_commit (reachable_unique h) hok
  have hneeds {p : SourcePackageReport} {i : ℕ} (hi : IsInputOf r p (importAll now r db) i) :=
    let ⟨_, _, _, _, _, hin⟩ := hi
    hsame.needsNoJob (c := env.config.schedule) (T := env.ties) hin
  refine forall₂_congr fun p hp => ⟨fun hforget hdoom => ?_, fun hneed => ?_⟩
  · obtain ⟨i, hi, -, hneed⟩ := hforget
    have hi' := hsame.isInputOf.mp hi
    refine ⟨i, hi', (hneeds hi').mp (hneed.resolve_right fun hqueued => ?_)⟩
    obtain ⟨s, -, -, -, -, hin⟩ := hi
    obtain ⟨q, hq', s', hs'⟩ := (hasQueuedFriend_iff hin).mp hqueued
    exact not_queued_of_doomed hprog hq rfl hdoom q hq' s' hs'
  · obtain ⟨i, hi, hsettled⟩ := hprog.settled p hp
    have hi' : IsInputOf r p (dropUnseenScopedJobs r db₁) i := hi
    by_cases hdoom : Doomed r db (reportedGroup r p)
    · obtain ⟨j, hj, hneed⟩ := hneed hdoom
      have hj' := hsame.isInputOf.mpr hj
      exact ⟨j, hj', fun _ => isInputOf_unique hunique hj', .inl ((hneeds hj).mpr hneed)⟩
    · refine ⟨i, hi', fun _ => isInputOf_unique hunique hi', ?_⟩
      obtain ⟨s, -, -, -, -, hin⟩ := hi
      refine hsettled.imp ((sameHistory_dropUnseen r db₁).needsNoJob hin).mpr fun hqueued => ?_
      have hin' : (i, s.id, reportedGroup r p) ∈ (dropUnseenScopedJobs r db₁).inputs := hin
      exact (hasQueuedFriend_iff hin').mpr
        (queued_of_not_doomed hprog hq hdoom ((hasQueuedFriend_iff hin).mp hqueued))

/-- A package is reported again after its job was claimed. -/
theorem forgetsNone_claimed : ∃ db', commitPackageReport (openDaemon none).config.schedule .inOrder 0
      (debianReport [package "hello" "https://hello"]) (runPool (openDaemon none) handedOut).state =
        .ok db' ∧
    ForgetsNone (openDaemon none).config.schedule .inOrder
      (debianReport [package "hello" "https://hello"]) db' := by
  obtain ⟨db', hok, -⟩ := exists_ok (P := fun _ => true)
    (x := commitPackageReport (openDaemon none).config.schedule .inOrder 0
      (debianReport [package "hello" "https://hello"]) (runPool (openDaemon none) handedOut).state)
    (by decide +kernel)
  refine ⟨db', hok, (forgetsNone_iff (openDaemon none) 0 _ _ _ ⟨handedOut, rfl⟩ hok).mpr
    fun p hp hdoom => ?_⟩
  have hclaimed : (runPool (openDaemon none) handedOut).state.queue.rows.all (·.worker.isSome) =
    true := by decide +kernel
  obtain ⟨⟨q, hq, s, hs⟩, hfree⟩ := hdoom
  have := List.all_eq_true.mp hclaimed q hq
  rw [(hfree q hq s hs).1] at this
  cases this

/-- The package `old` is imported. -/
def oldImported : Schedule :=
  serveAt 0 (.submitPackageReport adminHeaders (debianReport [package "old" "https://shared"])) 0

/-- **A package is forgotten**: `new` replaces `old` and is built from the same url; it is not
enqueued because of the job of `old`, which is then dropped. -/
theorem replacedPackage_forgotten : ¬ ∀ env now r db db', Reachable env db →
    commitPackageReport env.config.schedule env.ties now r db = .ok db' →
      ForgetsNone env.config.schedule env.ties r db' := by
  intro h
  obtain ⟨db', hok, hnone⟩ := exists_ok
    (P := fun db => db.queue.rows.isEmpty && db.rebuilds.rows.isEmpty)
    (x := commitPackageReport (openDaemon none).config.schedule .inOrder 0
      (debianReport [package "new" "https://shared"]) (runPool (openDaemon none) oldImported).state)
    (by decide +kernel)
  obtain ⟨i, -, -, hneed⟩ := h (openDaemon none) 0 _ _ db' ⟨oldImported, rfl⟩ hok _
    (List.mem_singleton_self _)
  rw [Bool.and_eq_true, List.isEmpty_iff, List.isEmpty_iff] at hnone
  rcases hneed with (hgood | hused) | hqueued
  · simp [getCurrentRebuildStatus, newestBuilt, rebuildsOf, hnone.2, Ties.firstBy, Ties.least] at hgood
  · unfold retriesUsedUp at hused
    split at hused <;> cases hused
  · simp [hasQueuedFriend, hnone.1] at hqueued

end Rebuilderd.Daemon
