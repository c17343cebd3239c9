import Rebuilderd.Daemon.Listed

/-!
The dashboard and the statistics, which count the build inputs of seen source packages by the status
of their latest rebuild.

Both use the joins of the listing of the source packages, each with its own condition for rebuilds
whose status is unknown.
-/

namespace Rebuilderd.Daemon

open Rebuilderd.Lib Rebuilderd.Common

/-! ### The dashboard -/

structure DashboardRebuildState where
  good : ℕ
  bad : ℕ
  fail : ℕ
  unknown : ℕ

structure DashboardJobState where
  running : ℕ
  available : ℕ
  pending : ℕ

structure DashboardState where
  rebuilds : DashboardRebuildState
  jobs : DashboardJobState

/-- The build inputs the dashboard counts. -/
def countedBy (o : OriginFilter) (s : SourcePackage) (b : BuildInput) : Bool :=
  OriginFilter.accepts o s b.architecture && s.seenInLastSync

def dashboardRows (o : OriginFilter) (db : Db) : List (SourcePackage × BuildInput × Option Rebuild) :=
  (sourcePackagesRows db).filter fun (s, b, _) => countedBy o s b

/-- `SUM(CASE WHEN … THEN 1 ELSE 0 END)`, which is NULL without rows. -/
def sumCase {α : Type} (p : α → Bool) (rows : List α) : Option ℕ :=
  if rows.isEmpty then none else some (rows.countP p)

/-- `status = …`, which is not true of NULL. -/
def statusIs (status : BuildStatus) (row : SourcePackage × BuildInput × Option Rebuild) : Bool :=
  row.2.2.bind (·.status) == some status

def statusIsNull (row : SourcePackage × BuildInput × Option Rebuild) : Bool :=
  (row.2.2.bind (·.status)).isNone

/-- `queue_count_base`, with the filter of the request. -/
def queueCountBase (o : OriginFilter) (db : Db) : List (Queued × BuildInput × SourcePackage) :=
  (queueBase db).filter fun (_, b, s) => countedBy o s b

/-- The four sums the dashboard and the statistics select. -/
def rebuildSums (rows : List (SourcePackage × BuildInput × Option Rebuild)) :
    DashboardRebuildState where
  good := (sumCase (statusIs .good) rows).getD 0
  bad := (sumCase (statusIs .bad) rows).getD 0
  fail := (sumCase (statusIs .fail) rows).getD 0
  unknown := (sumCase (fun row => statusIs .unknown row || statusIsNull row) rows).getD 0

def getDashboard (now : Time) (o : OriginFilter) (db : Db) : DashboardState where
  rebuilds := rebuildSums (dashboardRows o db)
  jobs := {
    running := (queueCountBase o db).countP fun (q, _, _) => q.worker.isSome
    available := (queueCountBase o db).countP fun (q, b, _) =>
      q.worker.isNone && (b.nextRetry.isNone || b.nextRetry.any (· ≤ now))
    pending := (queueCountBase o db).countP fun (q, b, _) =>
      q.worker.isNone && (b.nextRetry.isSome && b.nextRetry.any (now < ·)) }

/-! ### The statistics -/

/-- The counts of a snapshot, which are 32-bit integers. -/
structure StatsSnapshot where
  good : ℤ
  bad : ℤ
  fail : ℤ
  unknown : ℤ

def collectedBy (distribution release architecture : Option String) (s : SourcePackage)
    (b : BuildInput) : Bool :=
  s.seenInLastSync && distribution.all (s.distribution == ·) && release.all (s.release == some ·) &&
    architecture.all (b.architecture == ·)

def collectedRows (distribution release architecture : Option String) (db : Db) :
    List (SourcePackage × BuildInput × Option Rebuild) :=
  (sourcePackagesRows db).filter fun (s, b, _) => collectedBy distribution release architecture s b

/-- The counts `collect_one` stores. -/
def collectOne (distribution release architecture : Option String) (db : Db) : StatsSnapshot :=
  let sums := rebuildSums (collectedRows distribution release architecture db)
  { good := wrap 32 sums.good
    bad := wrap 32 sums.bad
    fail := wrap 32 sums.fail
    unknown := wrap 32 sums.unknown }

def DashboardRebuildState.count (d : DashboardRebuildState) : BuildStatus → ℕ
  | .good => d.good
  | .bad => d.bad
  | .fail => d.fail
  | .unknown => d.unknown

def StatsSnapshot.count (d : StatsSnapshot) : BuildStatus → ℤ
  | .good => d.good
  | .bad => d.bad
  | .fail => d.fail
  | .unknown => d.unknown

/-! ### Each build input once, with its latest rebuild -/

/-- The rows are of the build inputs `inputs`, each once, with its latest rebuild. -/
structure ListsLatest (db : Db) (inputs : List BuildInput)
    (rows : List (SourcePackage × BuildInput × Option Rebuild)) : Prop where
  once : (rows.map fun row => row.2.1).Perm inputs
  latest : ∀ row ∈ rows, IsLatest db row.2.1.id row.2.2

/-- The build inputs a query selects. -/
def selectedInputs (p : SourcePackage → BuildInput → Bool) (db : Db) : List BuildInput :=
  db.buildInputs.rows.filter fun b =>
    db.sourcePackages.rows.any fun s => b.sourcePackageId == s.id && p s b

section
variable {db : Db}

lemma mem_sourcePackagesRows {s : SourcePackage} {b : BuildInput} {o : Option Rebuild} :
    (s, b, o) ∈ sourcePackagesRows db ↔ s ∈ db.sourcePackages.rows ∧
      (b ∈ db.buildInputs.rows ∧ b.sourcePackageId = s.id) ∧ o ∈ unsupersededRebuilds db b.id := by
  simp only [sourcePackagesRows, List.bind_eq_flatMap, List.pure_def, List.mem_flatMap,
    List.mem_singleton, List.mem_filter, beq_iff_eq, Prod.mk.injEq]
  constructor
  · rintro ⟨s', hs, b', hb, o', ho, rfl, rfl, rfl⟩
    exact ⟨hs, hb, ho⟩
  · rintro ⟨hs, hb, ho⟩
    exact ⟨s, hs, b, hb, o, ho, rfl, rfl, rfl⟩

lemma sourcePackagesRows_latest (h : TimesKnown db) : sourcePackagesRows db =
    db.sourcePackages.rows.flatMap fun s =>
      (db.buildInputs.rows.filter fun b => b.sourcePackageId == s.id).map fun b =>
        (s, b, latestRebuild db b.id) := by
  simp only [sourcePackagesRows, unsupersededRebuilds_latest h, List.bind_eq_flatMap, List.pure_def,
    List.flatMap_singleton, List.map_eq_flatMap]

/-- The joins with a filter list each build input it selects once, with its latest rebuild. -/
lemma listsLatest_filter (h : TimesKnown db) (p : SourcePackage → BuildInput → Bool) :
    ListsLatest db (selectedInputs p db) ((sourcePackagesRows db).filter fun row => p row.1 row.2.1) := by
  constructor
  · have hrows : ((sourcePackagesRows db).filter fun row => p row.1 row.2.1).map (fun row => row.2.1) =
        db.sourcePackages.rows.flatMap fun s =>
          db.buildInputs.rows.filter fun b => b.sourcePackageId == s.id && p s b := by
      rw [sourcePackagesRows_latest h, List.filter_flatMap, List.map_flatMap]
      refine List.flatMap_congr fun s _ => ?_
      rw [List.filter_map, List.map_map, List.filter_filter]
      exact (List.map_id _).trans (List.filter_congr fun b _ => Bool.and_comm _ _)
    rw [hrows]
    exact flatMap_key_perm (Table.nodup_keys db.sourcePackages)
  · rintro ⟨s, b, o⟩ hrow
    obtain ⟨-, -, ho⟩ := mem_sourcePackagesRows.mp (List.mem_filter.mp hrow).1
    rw [unsupersededRebuilds_latest h, List.mem_singleton] at ho
    exact ho ▸ isLatest_latestRebuild db b.id

lemma selectedInputs_all (h : SourcesExist db) : selectedInputs (fun _ _ => true) db =
    db.buildInputs.rows := by
  refine List.filter_eq_self.mpr fun b hb => ?_
  obtain ⟨s, hs, hid⟩ := h b.identity (List.mem_map.mpr ⟨b, hb, rfl⟩)
  exact List.any_eq_true.mpr ⟨s, hs, (Bool.and_true _).trans (beq_iff_eq.mpr hid.symm)⟩

/-- **The listing, the dashboard and the statistics show each build input once, with its latest
rebuild**, the dashboard and the statistics those their filters select. -/
theorem latestListed (db : Db) (htimes : TimesKnown db) (hsources : SourcesExist db)
    (o : OriginFilter) (distribution release architecture : Option String) :
    ListsLatest db db.buildInputs.rows (sourcePackagesRows db) ∧
      ListsLatest db (selectedInputs (countedBy o) db) (dashboardRows o db) ∧
      ListsLatest db (selectedInputs (collectedBy distribution release architecture) db)
        (collectedRows distribution release architecture db) := by
  have hall := listsLatest_filter htimes fun _ _ => true
  rw [selectedInputs_all hsources, List.filter_true] at hall
  exact ⟨hall, listsLatest_filter htimes (countedBy o), listsLatest_filter htimes _⟩

end

/-- Every build input has its source package, in every reachable database. -/
lemma reachable_sourcesExist {env : Env} {db : Db} (h : Reachable env db) : SourcesExist db := by
  obtain ⟨as, rfl⟩ := h
  have hstart : SourcesExist env.start := by simp [SourcesExist, Db.inputs, Env.start, Db.empty]
  exact Pool.run_inv (exec_sourcesExist env) hstart as

/-- Two rebuilds of one time, of which the second has the larger id. -/
theorem latestListed_rebuiltTwice :
    let db := (runPool (openDaemon none) (rebuiltTwice 15 15)).state
    ListsLatest db db.buildInputs.rows (sourcePackagesRows db) ∧
      ListsLatest db (selectedInputs (countedBy ⟨none, none, none, none⟩) db)
        (dashboardRows ⟨none, none, none, none⟩ db) ∧
      ListsLatest db (selectedInputs (collectedBy (some "debian") none none) db)
        (collectedRows (some "debian") none none db) :=
  latestListed (runPool (openDaemon none) (rebuiltTwice 15 15)).state
    (reachable_timesKnown ⟨_, rfl⟩) (reachable_sourcesExist ⟨_, rfl⟩) ⟨none, none, none, none⟩
    (some "debian") none none

/-- The second of them is listed. -/
example : (sourcePackagesRows (runPool (openDaemon none) (rebuiltTwice 15 15)).state).map
    (fun row => row.2.2.map (·.id)) = [some 2] := by decide +kernel

/-! ### Do they add up? -/

/-- A rebuild without a status, or none, counts as unknown. -/
def shownStatus (r1 : Option Rebuild) : BuildStatus := (r1.bind (·.status)).getD .unknown

/-- The build inputs the dashboard counts for a status. -/
noncomputable def inputsWith (o : OriginFilter) (status : BuildStatus) (db : Db) : List BuildInput :=
  (selectedInputs (countedBy o) db).filter fun b => shownStatus (latestRebuild db b.id) == status

/-- The queue rows of the build inputs the dashboard counts. -/
def jobsOf (o : OriginFilter) (db : Db) : List Queued :=
  db.queue.rows.filter fun q => (selectedInputs (countedBy o) db).any (·.id == q.buildInputId)

def withStatus (o : OriginFilter) (status : BuildStatus) : SourceFilters :=
  ⟨o, ⟨none, .exact, none⟩, ⟨none⟩, ⟨some [statusText status]⟩⟩

/-- The dashboard, a snapshot and the listing agree, and count everything once. -/
structure AddsUp (now : Time) (o : OriginFilter) (db : Db) : Prop where
  snapshot : o.component = none → ∀ status,
    (collectOne o.distribution o.release o.architecture db).count status =
      (getDashboard now o db).rebuilds.count status
  listing : ∀ status,
    (getDashboard now o db).rebuilds.count status = sourceTotal (withStatus o status) db
  statuses : (getDashboard now o db).rebuilds.good + (getDashboard now o db).rebuilds.bad +
    (getDashboard now o db).rebuilds.fail + (getDashboard now o db).rebuilds.unknown =
      (selectedInputs (countedBy o) db).length
  jobs : (getDashboard now o db).jobs.running + (getDashboard now o db).jobs.available +
    (getDashboard now o db).jobs.pending = (jobsOf o db).length

/-- No build input that is counted has a latest rebuild that was reported as unknown. -/
def NoneReportedUnknown (o : OriginFilter) (db : Db) : Prop :=
  ∀ b ∈ selectedInputs (countedBy o) db, ∀ r, IsLatest db b.id (some r) → r.status ≠ some .unknown

section
variable {db : Db} {o : OriginFilter}

lemma sumCase_getD {α : Type} (p : α → Bool) (rows : List α) :
    (sumCase p rows).getD 0 = rows.countP p := by
  cases rows <;> rfl

/-- Counting rows is counting build inputs by their latest rebuild. -/
lemma countP_rows (h : TimesKnown db) (p : SourcePackage → BuildInput → Bool)
    (c : Option Rebuild → Bool) :
    ((sourcePackagesRows db).filter fun row => p row.1 row.2.1).countP (fun row => c row.2.2) =
      (selectedInputs p db).countP fun b => c (latestRebuild db b.id) := by
  have hlists := listsLatest_filter h p
  rw [← hlists.once.countP_eq, List.countP_map]
  refine List.countP_congr fun row hrow => ?_
  rw [Function.comp, (hlists.latest row hrow).eq]

/-- The dashboard counts a build input for the status it shows. -/
lemma dashboard_count (h : TimesKnown db) (now : Time) (status : BuildStatus) :
    (getDashboard now o db).rebuilds.count status = (inputsWith o status db).length := by
  have hcount (c : Option Rebuild → Bool)
      (hc : ∀ r1, c r1 = true ↔ (shownStatus r1 == status) = true) :
      (sumCase (fun row => c row.2.2) (dashboardRows o db)).getD 0 = (inputsWith o status db).length := by
    rw [sumCase_getD, inputsWith, ← List.countP_eq_length_filter]
    exact (countP_rows h (countedBy o) c).trans (List.countP_congr fun b _ => hc _)
  cases status with
  | unknown =>
    refine hcount (fun r1 => r1.bind (·.status) == some .unknown || (r1.bind (·.status)).isNone)
      fun r1 => ?_
    unfold shownStatus
    rcases r1.bind (·.status) with _ | s <;> simp
  | _ =>
    refine hcount (fun r1 => r1.bind (·.status) == some _) fun r1 => ?_
    unfold shownStatus
    rcases r1.bind (·.status) with _ | s <;> simp

/-- `status=…` selects by the text of the status, and `UNKWN` what has none. -/
lemma accepts_statusText (status : BuildStatus) (shown : Option BuildStatus) :
    StatusFilter.accepts ⟨some [statusText status]⟩ shown =
      if status = .unknown then shown.isNone else shown == some status := by
  rcases shown with _ | s
  · cases status <;> decide +kernel
  · cases status <;> cases s <;> decide +kernel

lemma sourceTotal_withStatus (h : TimesKnown db) (status : BuildStatus) :
    sourceTotal (withStatus o status) db = (selectedInputs (countedBy o) db).countP fun b =>
      StatusFilter.accepts ⟨some [statusText status]⟩ ((latestRebuild db b.id).bind (·.status)) := by
  rw [sourceTotal, sourceRecords, List.length_map,
    ← countP_rows h (countedBy o) fun r1 =>
      StatusFilter.accepts ⟨some [statusText status]⟩ (r1.bind (·.status)),
    List.countP_eq_length_filter, List.filter_filter]
  congr 1
  refine List.filter_congr fun row _ => ?_
  simp [withStatus, SourceIdentityFilter.accepts, FreshnessFilter.accepts, countedBy, Bool.and_comm,
    Bool.and_assoc]

/-- What counts as unknown has no status, or that of a rebuild reported as unknown. -/
lemma countP_unknown {α : Type} (f : α → Option BuildStatus) (l : List α) :
    (l.countP fun a => (f a).getD .unknown == .unknown) =
      l.countP (fun a => (f a).isNone) + l.countP fun a => f a == some .unknown := by
  induction l with
  | nil => rfl
  | cons a l ih =>
    simp only [List.countP_cons, ih]
    rcases f a with _ | s
    · simp
      omega
    · cases s <;> simp
      omega

lemma noneReportedUnknown_iff : NoneReportedUnknown o db ↔
    (selectedInputs (countedBy o) db).countP (fun b =>
      (latestRebuild db b.id).bind (·.status) == some .unknown) = 0 := by
  rw [List.countP_eq_zero]
  refine forall₂_congr fun b _ => ?_
  rcases hl : latestRebuild db b.id with _ | r
  · refine ⟨fun _ => by simp, fun _ r hr => ?_⟩
    cases hr.eq.trans hl
  · refine ⟨fun h => by simpa using h r (hl ▸ isLatest_latestRebuild db b.id), fun h r' hr' => ?_⟩
    obtain rfl := Option.some.inj (hr'.eq.trans hl)
    simpa using h

/-- The listing finds as many as the dashboard counts, if none was reported as unknown. -/
lemma listing_iff (h : TimesKnown db) (now : Time) :
    (∀ status, (getDashboard now o db).rebuilds.count status = sourceTotal (withStatus o status) db) ↔
      NoneReportedUnknown o db := by
  have hsplit : (inputsWith o .unknown db).length = sourceTotal (withStatus o .unknown) db +
      (selectedInputs (countedBy o) db).countP fun b =>
        (latestRebuild db b.id).bind (·.status) == some .unknown := by
    simp only [sourceTotal_withStatus h, inputsWith, ← List.countP_eq_length_filter,
      accepts_statusText, if_true]
    exact countP_unknown _ _
  rw [noneReportedUnknown_iff]
  constructor
  · intro hall
    have hunknown := hall .unknown
    rw [dashboard_count h, hsplit] at hunknown
    omega
  · intro hknown status
    rw [dashboard_count h]
    by_cases hstatus : status = .unknown
    · rw [hstatus, hsplit, hknown, Nat.add_zero]
    · rw [sourceTotal_withStatus h, inputsWith, ← List.countP_eq_length_filter]
      refine List.countP_congr fun b _ => ?_
      rw [accepts_statusText, if_neg hstatus, shownStatus]
      rcases (latestRebuild db b.id).bind (·.status) with _ | s
      · simpa using Ne.symm hstatus
      · simp

/-- The snapshot has the rows of the dashboard, if there is no filter of the component. -/
lemma collectedRows_eq (hcomponent : o.component = none) (hrelease : o.release ≠ some "") :
    collectedRows o.distribution o.release o.architecture db = dashboardRows o db := by
  refine List.filter_congr fun row _ => ?_
  obtain ⟨s, b, r1⟩ := row
  obtain ⟨d, r, c, a⟩ := o
  obtain rfl : c = none := hcomponent
  have hr : ∀ r', r = some r' → r' ≠ "" := fun r' hr' hstart => hrelease (hstart ▸ hr')
  rw [Bool.eq_iff_iff]
  rcases d with _ | d <;> rcases r with _ | r <;> rcases a with _ | a <;>
    simp_all [countedBy, collectedBy, OriginFilter.accepts] <;> tauto

lemma wrap_iff (n : ℕ) : wrap 32 n = n ↔ n < 2 ^ 31 := by
  rw [wrap_eq_iff 31]
  omega

lemma count_mk (f : ℕ → ℤ) (d : DashboardRebuildState) (status : BuildStatus) :
    StatsSnapshot.count ⟨f d.good, f d.bad, f d.fail, f d.unknown⟩ status = f (d.count status) := by
  cases status <;> rfl

lemma collectOne_count (distribution release architecture : Option String) (status : BuildStatus) :
    (collectOne distribution release architecture db).count status =
      wrap 32 ((rebuildSums (collectedRows distribution release architecture db)).count status) :=
  count_mk (fun n => wrap 32 n) _ status

/-- Every status is one of four. -/
lemma sum_statuses {α : Type} (status : α → BuildStatus) (l : List α) :
    (l.filter fun a => status a == .good).length + (l.filter fun a => status a == .bad).length +
      (l.filter fun a => status a == .fail).length +
        (l.filter fun a => status a == .unknown).length = l.length := by
  induction l with
  | nil => rfl
  | cons a l ih =>
    simp only [List.filter_cons]
    cases status a <;> simp <;> omega

lemma statuses_sum (h : TimesKnown db) (now : Time) : (getDashboard now o db).rebuilds.good +
    (getDashboard now o db).rebuilds.bad + (getDashboard now o db).rebuilds.fail +
      (getDashboard now o db).rebuilds.unknown = (selectedInputs (countedBy o) db).length := by
  have hcount := dashboard_count (o := o) h now
  rw [show (getDashboard now o db).rebuilds.good = _ from hcount .good,
    show (getDashboard now o db).rebuilds.bad = _ from hcount .bad,
    show (getDashboard now o db).rebuilds.fail = _ from hcount .fail,
    show (getDashboard now o db).rebuilds.unknown = _ from hcount .unknown]
  have hsum := sum_statuses (fun b : BuildInput => shownStatus (latestRebuild db b.id))
    (selectedInputs (countedBy o) db)
  simpa only [inputsWith] using hsum

/-- Each queue row joins with its build input and its source package at most once. -/
lemma queueCountBase_jobs (o : OriginFilter) (db : Db) :
    (queueCountBase o db).map (·.1) = jobsOf o db := by
  have hsources (q : Queued) (b : BuildInput) :
      (((db.sourcePackages.rows.filter (·.id == b.sourcePackageId)).map fun s => (q, b, s)).filter
        fun row => countedBy o row.2.2 row.2.1).map (·.1) =
      if db.sourcePackages.rows.any fun s => s.id == b.sourcePackageId && countedBy o s b then [q]
      else [] := by
    refine Eq.trans ?_ (Table.flatMap_key db.sourcePackages b.sourcePackageId (countedBy o · b) q)
    change _ = (db.sourcePackages.rows.filter (·.id == b.sourcePackageId)).flatMap _
    induction db.sourcePackages.rows.filter (·.id == b.sourcePackageId) with
    | nil => rfl
    | cons s ss ih =>
      rw [List.map_cons, List.filter_cons, List.flatMap_cons, ← ih]
      split <;> rfl
  have hinputs (q : Queued) : (((db.buildInputs.rows.filter (·.id == q.buildInputId)).flatMap fun b =>
      (db.sourcePackages.rows.filter (·.id == b.sourcePackageId)).map fun s => (q, b, s)).filter
        fun row => countedBy o row.2.2 row.2.1).map (·.1) =
      if (selectedInputs (countedBy o) db).any (·.id == q.buildInputId) then [q] else [] := by
    rw [List.filter_flatMap, List.map_flatMap]
    simp only [hsources]
    refine (Table.flatMap_key db.buildInputs q.buildInputId (fun b =>
      db.sourcePackages.rows.any fun s => s.id == b.sourcePackageId && countedBy o s b) q).trans ?_
    rw [selectedInputs, List.any_filter]
    change (if db.buildInputs.rows.any (fun b => b.id == q.buildInputId && _) = true then _ else _) = _
    simp only [Bool.and_comm, Bool.beq_comm]
  rw [queueCountBase, queueBase, jobsOf, List.filter_flatMap, List.map_flatMap]
  induction db.queue.rows with
  | nil => rfl
  | cons q qs ih =>
    rw [List.flatMap_cons, List.filter_cons, ih]
    refine (congrArg (· ++ _) (hinputs q)).trans ?_
    split <;> rfl

/-- A job is running, or it is available, or it is pending. -/
lemma jobs_sum (now : Time) (o : OriginFilter) (db : Db) : (getDashboard now o db).jobs.running +
    (getDashboard now o db).jobs.available + (getDashboard now o db).jobs.pending =
      (jobsOf o db).length := by
  rw [← queueCountBase_jobs, List.length_map]
  simp only [getDashboard]
  induction queueCountBase o db with
  | nil => rfl
  | cons row rows ih =>
    obtain ⟨q, b, s⟩ := row
    simp only [List.countP_cons, List.length_cons, ← ih]
    rcases q.worker with _ | w
    · rcases b.nextRetry with _ | t
      · simp
        omega
      · by_cases hdue : t ≤ now
        · simp [hdue, not_lt.mpr hdue]
          omega
        · simp [hdue, not_le.mp hdue]
          omega
    · simp
      omega

end

/-- No rebuild is inserted that was reported as unknown. -/
def insertsKnown (e : Event) : Bool :=
  match e.stmt with
  | .insertRebuild new => new.status != some .unknown
  | _ => true

/-- Then no rebuild has that status. -/
lemma statusKnown_of_history {env : Env} {tr : List Event}
    (hh : History (exec env) insertsReported env.start tr) (hknown : ∀ e ∈ tr, insertsKnown e = true) :
    ∀ r ∈ (stateAfter (exec env) env.start tr).rebuilds.rows, r.status ≠ some .unknown := by
  induction tr using List.reverseRecOn with
  | nil => simp [Env.start, Db.empty]
  | append_singleton tr e ih =>
    have hbefore := ih hh.of_append fun e he => hknown e (List.mem_append_left _ he)
    rw [← hh.last.1] at hbefore
    rw [stateAfter_snoc, Lib.Event.after]
    intro r' hr'
    rcases exec_rebuildRow env _ _ _ hr' with ⟨new, id, hs, rfl⟩ | ⟨r, hr, -, hstatus | hstatus⟩
    · have hlast := hknown e (by simp)
      rw [insertsKnown, hs] at hlast
      exact bne_iff_ne.mp hlast
    · exact hstatus ▸ hbefore r hr
    · exact hstatus ▸ by simp

/-- **The dashboard, the statistics and the listing add up exactly if no latest rebuild was reported
as unknown**, as long as the counts fit into 32 bits; and so they do in every state of a run without
such reports. -/
theorem addsUp_iff (env : Env) (as : Schedule) (now : Time) (o : OriginFilter)
    (hrelease : o.release ≠ some "") :
    let db := (runPool env as).state
    let Fits := o.component = none → ∀ status, (inputsWith o status db).length < 2 ^ 31
    (AddsUp now o db ↔ NoneReportedUnknown o db ∧ Fits) ∧
      ((trace env as).all insertsKnown = true → Fits → AddsUp now o db) := by
  intro db Fits
  have htimes : TimesKnown db := reachable_timesKnown ⟨as, rfl⟩
  have hiff : AddsUp now o db ↔ NoneReportedUnknown o db ∧ Fits := by
    have hsnapshot (hc : o.component = none) (status : BuildStatus) :
        (collectOne o.distribution o.release o.architecture db).count status =
          (getDashboard now o db).rebuilds.count status ↔ (inputsWith o status db).length < 2 ^ 31 := by
      rw [collectOne_count, collectedRows_eq hc hrelease]
      change wrap 32 ((getDashboard now o db).rebuilds.count status) = _ ↔ _
      rw [dashboard_count htimes]
      exact wrap_iff _
    constructor
    · intro h
      exact ⟨(listing_iff htimes now).mp h.listing, fun hc status =>
        (hsnapshot hc status).mp (h.snapshot hc status)⟩
    · rintro ⟨hknown, hfits⟩
      exact ⟨fun hc status => (hsnapshot hc status).mpr (hfits hc status),
        (listing_iff htimes now).mpr hknown, statuses_sum htimes now, jobs_sum now o db⟩
  refine ⟨hiff, fun hinserts hfits => hiff.mpr ⟨fun b _ r hr => ?_, hfits⟩⟩
  have hknown := statusKnown_of_history (reported_history env as) (List.all_eq_true.mp hinserts)
  rw [← state_runPool] at hknown
  exact hknown r (mem_rebuildsOf.mp hr.1).1

def allOrigins : OriginFilter := ⟨none, none, none, none⟩

theorem addsUp_iff_rebuiltTwice :
    let db := (runPool (openDaemon none) (rebuiltTwice 15 16)).state
    let Fits := allOrigins.component = none → ∀ status,
      (inputsWith allOrigins status db).length < 2 ^ 31
    (AddsUp 0 allOrigins db ↔ NoneReportedUnknown allOrigins db ∧ Fits) ∧
      ((trace (openDaemon none) (rebuiltTwice 15 16)).all insertsKnown = true → Fits →
        AddsUp 0 allOrigins db) :=
  addsUp_iff (openDaemon none) (rebuiltTwice 15 16) 0 allOrigins (by simp [allOrigins])

/-- Neither of the reports is of an unknown status. -/
example : (trace (openDaemon none) (rebuiltTwice 15 16)).all insertsKnown = true := by
  decide +kernel

/-- `alice` reports that she does not know. -/
def reportedUnknown : Schedule :=
  handedOut ++ serveAt 2 (reportBy "alice" .unknown) (20 * second)

/-- **The dashboard counts a rebuild reported as unknown, and the listing does not find it.** -/
theorem reportedUnknown_not_addsUp : ¬ ∀ env as now o, o.release ≠ some "" →
    AddsUp now o (runPool env as).state := by
  intro h
  have hlisting := (h (openDaemon none) reportedUnknown 0 allOrigins (by simp [allOrigins])).listing
    .unknown
  have hdashboard : (getDashboard 0 allOrigins (runPool (openDaemon none) reportedUnknown).state
      ).rebuilds.count .unknown = 1 := by decide +kernel
  have htotal : sourceTotal (withStatus allOrigins .unknown)
      (runPool (openDaemon none) reportedUnknown).state = 0 := by decide +kernel
  rw [hdashboard, htotal] at hlisting
  exact absurd hlisting (by decide)

end Rebuilderd.Daemon
