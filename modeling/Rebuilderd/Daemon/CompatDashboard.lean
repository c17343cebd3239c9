import Rebuilderd.Daemon.Dashboard
import Rebuilderd.Daemon.JobArtifacts

/-!
The v0 dashboard, which counts the rebuilds of each component instead of its build inputs.

A component that is NULL and one that is empty have the same name there; of two suites of one name
the last one stays.
-/

namespace Rebuilderd.Daemon

open Rebuilderd.Lib Rebuilderd.Common

/-! ### The response -/

structure SuiteStats where
  good : ℕ
  unknown : ℕ
  bad : ℕ
  deriving DecidableEq

structure DashboardResponse where
  suites : AList fun _ : String => SuiteStats
  activeBuilds : List QueueItem
  queueLength : ℕ
  now : Time

/-- A build input with its source package and one of its rebuilds. -/
abbrev SuiteRow := SourcePackage × BuildInput × Option Rebuild

def suiteRows (db : Db) : List SuiteRow := do
  let b ← db.buildInputs.rows
  let r ← leftJoin db.rebuilds.rows fun r => r.buildInputId == b.id
  let s ← db.sourcePackages.rows.filter fun s => s.id == b.sourcePackageId
  return (s, b, r)

/-- The groups, in the order they are selected. -/
def components (shuffle : Shuffle (Option String)) (db : Db) : List (Option String) :=
  shuffle.order ((suiteRows db).map fun row => row.1.component).dedup

/-- The sums of a group. -/
def suiteStats (db : Db) (component : Option String) : SuiteStats :=
  let rows := (suiteRows db).filter fun row => row.1.component == component
  { good := (sumCase (statusIs .good) rows).getD 0
    bad := (sumCase (statusIs .bad) rows).getD 0
    unknown := (sumCase (fun row => statusIs .unknown row || statusIsNull row) rows).getD 0 }

/-- `component.unwrap_or_default()`. -/
def suiteName (component : Option String) : String := component.getD ""

def suites (shuffle : Shuffle (Option String)) (db : Db) : AList fun _ : String => SuiteStats :=
  (components shuffle db).foldl (fun map c => map.insert (suiteName c) (suiteStats db c)) ∅

/-- `DashboardState::update`. -/
def updateDashboard (shuffle : Shuffle (Option String)) (now : Time) (db : Db) :
    Except Err DashboardResponse := do
  let queue := db.queue.rows.filter (·.startedAt.isSome)
  let activeBuilds ← (queue.filter (·.startedAt.isSome)).mapM (intoQueueItem · db)
  return {
    suites := suites shuffle db
    activeBuilds := activeBuilds
    queueLength := queue.length
    now := now }

/-! ### What is counted -/

/-- The build inputs of a component. -/
def inputsOf (component : Option String) (db : Db) : List BuildInput :=
  selectedInputs (fun s _ => s.component == component) db

/-- Those whose latest rebuild has the status. -/
noncomputable def latestWith (component : Option String) (status : BuildStatus) (db : Db) :
    List BuildInput :=
  (inputsOf component db).filter fun b => shownStatus (latestRebuild db b.id) == status

/-- The counts are of build inputs of the component. -/
structure CountsInputs (stats : SuiteStats) (component : Option String) (db : Db) : Prop where
  total : stats.good + stats.bad + stats.unknown ≤ (inputsOf component db).length
  good : stats.good ≤ (latestWith component .good db).length
  bad : stats.bad ≤ (latestWith component .bad db).length
  unknown : stats.unknown ≤ (latestWith component .unknown db).length

/-- The suite of the component has counts of its build inputs. -/
def SuiteCounts (d : DashboardResponse) (component : Option String) (db : Db) : Prop :=
  ∃ stats, d.suites.lookup (suiteName component) = some stats ∧ CountsInputs stats component db

/-- All rebuilds of the component but the latest ones have failed. -/
def FailedBefore (component : Option String) (db : Db) : Prop :=
  ∀ b ∈ inputsOf component db, ∀ r ∈ rebuildsOf db b.id, ¬ IsLatest db b.id (some r) →
    r.status = some .fail

/-- The last of the groups of the name. -/
def shownComponent (shuffle : Shuffle (Option String)) (db : Db) (name : String) :
    Option (Option String) :=
  (components shuffle db).reverse.find? (suiteName · == name)

/-- Only latest rebuilds count for the suites, and a group that has replaced another one of its name
has no more of them. -/
def OnlyLatestCounts (shuffle : Shuffle (Option String)) (db : Db) : Prop :=
  ∀ c ∈ components shuffle db, ∀ w, shownComponent shuffle db (suiteName c) = some w →
    FailedBefore w db ∧ ∀ status, status ≠ .fail →
      (latestWith w status db).length ≤ (latestWith c status db).length

section
variable {shuffle : Shuffle (Option String)} {db : Db} {component : Option String}

/-- A suite is that of the last group of its name. -/
lemma lookup_suites (name : String) : (suites shuffle db).lookup name =
    (shownComponent shuffle db name).map (suiteStats db) := by
  have hfold : suites shuffle db = ((components shuffle db).map fun c =>
      (⟨suiteName c, suiteStats db c⟩ : Sigma fun _ : String => SuiteStats)).foldl
        (fun map e => map.insert e.1 e.2) ∅ := by
    rw [suites, List.foldl_map]
  rw [hfold, lookup_foldl_insert, AList.lookup_empty, Option.or_none, ← List.map_reverse,
    shownComponent]
  induction (components shuffle db).reverse with
  | nil => rfl
  | cons c cs ih =>
    rw [List.map_cons, List.find?_cons]
    by_cases hc : suiteName c = name
    · subst hc
      simp
    · rw [List.dlookup_cons_ne _ _ (Ne.symm hc), ih, beq_eq_false_iff_ne.mpr hc]

/-! ### Counting the rebuilds of a component -/

/-- The rebuilds of the build inputs of a component, where one without rebuilds has a NULL. -/
def joinedRebuilds (component : Option String) (db : Db) : List (Option Rebuild) :=
  (inputsOf component db).flatMap fun b =>
    leftJoin db.rebuilds.rows fun r => r.buildInputId == b.id

lemma suiteRows_rebuilds : ((suiteRows db).filter fun row => row.1.component == component).map
    (fun row => row.2.2) = joinedRebuilds component db := by
  rw [suiteRows, joinedRebuilds, inputsOf, selectedInputs]
  simp only [List.bind_eq_flatMap, List.pure_def]
  induction db.buildInputs.rows with
  | nil => rfl
  | cons b bs ih =>
    have hany : (db.sourcePackages.rows.any fun s =>
        b.sourcePackageId == s.id && s.component == component) =
        (db.sourcePackages.rows.filter (·.id == b.sourcePackageId)).any
          (·.component == component) := by
      rw [List.any_filter]
      exact congrArg db.sourcePackages.rows.any (funext fun s => by rw [Bool.beq_comm])
    rw [List.flatMap_cons, List.filter_append, List.map_append, ih, List.filter_cons, hany]
    rcases Table.filter_key_cases db.sourcePackages b.sourcePackageId with hnone | ⟨s, -, hsome⟩
    · have hnone : db.sourcePackages.rows.filter (·.id == b.sourcePackageId) = [] := hnone
      simp [hnone]
    · have hsome : db.sourcePackages.rows.filter (·.id == b.sourcePackageId) = [s] := hsome
      by_cases hs : s.component = component
      · simp [hsome, hs, ← List.map_eq_flatMap, List.filter_map, Function.comp_def]
      · simpa [hsome, hs] using fun a _ _ _ _ ha _ _ => ha ▸ hs

/-- The three counts, by their status. -/
def SuiteStats.count (stats : SuiteStats) : BuildStatus → ℕ
  | .good => stats.good
  | .bad => stats.bad
  | .fail => 0
  | .unknown => stats.unknown

lemma suiteStats_count {status : BuildStatus} (h : status ≠ .fail) :
    (suiteStats db component).count status =
      (joinedRebuilds component db).countP (shownStatus · == status) := by
  have hcount (c : Option Rebuild → Bool) (hc : ∀ o, c o = (shownStatus o == status)) :
      (sumCase (fun row => c row.2.2) ((suiteRows db).filter fun row =>
        row.1.component == component)).getD 0 =
          (joinedRebuilds component db).countP (shownStatus · == status) := by
    rw [sumCase_getD, ← suiteRows_rebuilds, List.countP_map]
    exact List.countP_congr fun row _ => by rw [Function.comp, hc]
  cases status with
  | fail => exact absurd rfl h
  | unknown =>
    refine hcount (fun r1 => r1.bind (·.status) == some .unknown || (r1.bind (·.status)).isNone)
      fun r1 => ?_
    unfold shownStatus
    rcases r1.bind (·.status) with _ | s
    · rfl
    · cases s <;> rfl
  | _ =>
    refine hcount (fun r1 => r1.bind (·.status) == some _) fun r1 => ?_
    unfold shownStatus
    rcases r1.bind (·.status) with _ | s
    · rfl
    · cases s <;> rfl

/-- The latest rebuild is among those that are joined. -/
lemma latestRebuild_mem_leftJoin (db : Db) (i : ℕ) :
    latestRebuild db i ∈ leftJoin db.rebuilds.rows fun r => r.buildInputId == i := by
  rw [mem_leftJoin]
  rcases h : latestRebuild db i with _ | r
  · refine .inr ⟨fun r hr => ?_, rfl⟩
    have hnone : rebuildsOf db i = [] := List.argmax_eq_none.mp h
    simpa using List.filter_eq_nil_iff.mp hnone r hr
  · obtain ⟨hr, hi⟩ := latestRebuild_mem h
    exact .inl ⟨r, hr, beq_iff_eq.mpr hi, rfl⟩

lemma nodup_leftJoin (db : Db) (i : ℕ) :
    (leftJoin db.rebuilds.rows fun r => r.buildInputId == i).Nodup := by
  unfold leftJoin
  split
  · exact ((Table.nodup_keys db.rebuilds).of_map.filter _).map (Option.some_injective _)
  · exact List.nodup_singleton none

/-- No status but `FAIL` has more rebuilds than latest ones exactly if all others failed. -/
lemma counts_le_iff : (∀ status, status ≠ .fail →
    (suiteStats db component).count status ≤ (latestWith component status db).length) ↔
      FailedBefore component db := by
  have hcount (status : BuildStatus) (h : status ≠ .fail) :
      (suiteStats db component).count status ≤ (latestWith component status db).length ↔
        ∀ b ∈ inputsOf component db, ∀ o ∈ leftJoin db.rebuilds.rows fun r => r.buildInputId == b.id,
          o ≠ latestRebuild db b.id → (shownStatus o == status) = false := by
    rw [suiteStats_count h, latestWith, ← List.countP_eq_length_filter]
    exact countP_flatMap_le_iff (p := (shownStatus · == status))
      (fun b _ => nodup_leftJoin db b.id) fun b _ => latestRebuild_mem_leftJoin db b.id
  constructor
  · intro h b hb r hr hlatest
    have hmem := mem_rebuildsOf.mp hr
    have hother (status : BuildStatus) (hfail : status ≠ .fail) :
        (shownStatus (some r) == status) = false :=
      (hcount status hfail).mp (h status hfail) b hb (some r)
        (mem_leftJoin.mpr (.inl ⟨r, hmem.1, beq_iff_eq.mpr hmem.2, rfl⟩))
        fun heq => hlatest (heq ▸ isLatest_latestRebuild db b.id)
    have hgood := hother .good (by decide)
    have hbad := hother .bad (by decide)
    have hunknown := hother .unknown (by decide)
    rcases hs : r.status with _ | s
    · simp [shownStatus, hs] at hunknown
    · cases s <;> simp_all [shownStatus]
  · intro h status hfail
    refine (hcount status hfail).mpr fun b hb o ho hlatest => ?_
    rcases mem_leftJoin.mp ho with ⟨r, hr, hi, rfl⟩ | ⟨hno, rfl⟩
    · have hfailed := h b hb r (mem_rebuildsOf.mpr ⟨hr, beq_iff_eq.mp hi⟩)
        fun hl => hlatest hl.eq
      simp [shownStatus, hfailed, Ne.symm hfail]
    · refine absurd ?_ hlatest
      have hnone : rebuildsOf db b.id = [] :=
        List.filter_eq_nil_iff.mpr fun r hr => by simp [hno r hr]
      exact (List.argmax_eq_none.mpr hnone).symm

lemma latestWith_le_count {status : BuildStatus} (h : status ≠ .fail) :
    (latestWith component status db).length ≤ (suiteStats db component).count status := by
  rw [suiteStats_count h, latestWith, ← List.countP_eq_length_filter]
  exact countP_flatMap_ge (p := (shownStatus · == status)) fun (b : BuildInput) _ =>
    latestRebuild_mem_leftJoin db b.id

/-- A build input has one latest rebuild. -/
lemma latestWith_sum (component : Option String) (db : Db) :
    (latestWith component .good db).length + (latestWith component .bad db).length +
      (latestWith component .unknown db).length ≤ (inputsOf component db).length := by
  have hsum := sum_statuses (fun b => shownStatus (latestRebuild db b.id)) (inputsOf component db)
  unfold latestWith
  omega

lemma countsInputs_iff {stats : SuiteStats} : CountsInputs stats component db ↔
    ∀ status, status ≠ .fail → stats.count status ≤ (latestWith component status db).length := by
  constructor
  · intro h status hfail
    cases status with
    | good => exact h.good
    | bad => exact h.bad
    | fail => exact absurd rfl hfail
    | unknown => exact h.unknown
  · intro h
    have hgood : stats.good ≤ _ := h .good (by decide)
    have hbad : stats.bad ≤ _ := h .bad (by decide)
    have hunknown : stats.unknown ≤ _ := h .unknown (by decide)
    have hsum := latestWith_sum component db
    exact ⟨by omega, hgood, hbad, hunknown⟩

lemma shownComponent_spec {c : Option String} (h : c ∈ components shuffle db) :
    ∃ w ∈ components shuffle db, suiteName w = suiteName c ∧
      shownComponent shuffle db (suiteName c) = some w := by
  rcases hw : shownComponent shuffle db (suiteName c) with _ | w
  · exact absurd (beq_self_eq_true (suiteName c))
      (List.find?_eq_none.mp hw c (List.mem_reverse.mpr h))
  · exact ⟨w, List.mem_reverse.mp (List.mem_of_find?_eq_some hw),
      by simpa using List.find?_some hw, rfl⟩

variable {d : DashboardResponse}

lemma suiteCounts_iff_shown (hd : d.suites = suites shuffle db) {c w : Option String}
    (hw : shownComponent shuffle db (suiteName c) = some w) : SuiteCounts d c db ↔
      ∀ status, status ≠ .fail →
        (suiteStats db w).count status ≤ (latestWith c status db).length := by
  rw [← countsInputs_iff, SuiteCounts, hd, lookup_suites, hw, Option.map_some]
  exact ⟨fun ⟨_, hstats, h⟩ => Option.some.inj hstats ▸ h, fun h => ⟨_, rfl, h⟩⟩

lemma suiteCounts_all_iff (hd : d.suites = suites shuffle db) :
    (∀ c ∈ components shuffle db, SuiteCounts d c db) ↔ OnlyLatestCounts shuffle db := by
  constructor
  · intro h c hc w hw
    obtain ⟨w', hmem, hname, hw'⟩ := shownComponent_spec hc
    obtain rfl := Option.some.inj (hw.symm.trans hw')
    have hself := (suiteCounts_iff_shown hd (hname.symm ▸ hw)).mp (h w hmem)
    refine ⟨counts_le_iff.mp hself, fun status hfail => ?_⟩
    exact (latestWith_le_count hfail).trans ((suiteCounts_iff_shown hd hw).mp (h c hc) status hfail)
  · intro h c hc
    obtain ⟨w, -, -, hw⟩ := shownComponent_spec hc
    obtain ⟨hfailed, hle⟩ := h c hc w hw
    refine (suiteCounts_iff_shown hd hw).mpr fun status hfail => ?_
    exact (counts_le_iff.mpr hfailed status hfail).trans (hle status hfail)

/-- The active builds are all found. -/
lemma updateDashboard_ok (hq : ∀ q ∈ db.queue.rows, HasInput q.buildInputId db)
    (hs : SourcesExist db) (shuffle : Shuffle (Option String)) (now : Time) :
    ∃ d, updateDashboard shuffle now db = .ok d ∧ d.suites = suites shuffle db := by
  have hall : ∀ q ∈ (db.queue.rows.filter (·.startedAt.isSome)).filter (·.startedAt.isSome),
      ∃ item, intoQueueItem q db = .ok item := fun q hmem =>
    intoQueueItem_ok hs (hq q (List.mem_filter.mp (List.mem_filter.mp hmem).1).1)
  obtain ⟨items, hitems, -⟩ := mapM_ok hall
  refine ⟨⟨suites shuffle db, items, (db.queue.rows.filter (·.startedAt.isSome)).length, now⟩,
    ?_, rfl⟩
  unfold updateDashboard
  dsimp only
  rw [hitems]
  rfl

end

/-- **The counts of the v0 dashboard are of the build inputs exactly if no rebuild but the latest
ones has another status than `FAIL`**, and, where a component that is empty shares its suite with the
one that is NULL, the one that is left has no more of any status. -/
theorem suiteCounts_iff (env : Env) (db : Db) (h : Reachable env db)
    (shuffle : Shuffle (Option String)) (now : Time) :
    ∃ d, updateDashboard shuffle now db = .ok d ∧
      (∀ c ∈ components shuffle db, shownComponent shuffle db (suiteName c) = some c →
        (SuiteCounts d c db ↔ FailedBefore c db)) ∧
      ((∀ c ∈ components shuffle db, SuiteCounts d c db) ↔ OnlyLatestCounts shuffle db) := by
  obtain ⟨d, hd, hsuites⟩ :=
    updateDashboard_ok (reachable_queueInput h) (reachable_sourcesExist h) shuffle now
  refine ⟨d, hd, fun c _ hc => ?_, suiteCounts_all_iff hsuites⟩
  exact (suiteCounts_iff_shown hsuites hc).trans counts_le_iff

theorem suiteCounts_iff_rebuiltTwice :
    ∃ d, updateDashboard unshuffled (260020 * Common.second)
        (runPool (openDaemon none) (rebuiltTwice 15 16)).state = .ok d ∧
      (∀ c ∈ components unshuffled (runPool (openDaemon none) (rebuiltTwice 15 16)).state,
        shownComponent unshuffled (runPool (openDaemon none) (rebuiltTwice 15 16)).state
            (suiteName c) = some c →
          (SuiteCounts d c (runPool (openDaemon none) (rebuiltTwice 15 16)).state ↔
            FailedBefore c (runPool (openDaemon none) (rebuiltTwice 15 16)).state)) ∧
      ((∀ c ∈ components unshuffled (runPool (openDaemon none) (rebuiltTwice 15 16)).state,
          SuiteCounts d c (runPool (openDaemon none) (rebuiltTwice 15 16)).state) ↔
        OnlyLatestCounts unshuffled (runPool (openDaemon none) (rebuiltTwice 15 16)).state) :=
  suiteCounts_iff (openDaemon none) _ ⟨_, rfl⟩ unshuffled (260020 * Common.second)

/-- **One package that was rebuilt as bad and then as good is counted twice.** -/
theorem rebuiltTwice_countedTwice :
    ¬ ∀ env db, Reachable env db → ∀ shuffle now d, updateDashboard shuffle now db = .ok d →
      ∀ c ∈ components shuffle db, SuiteCounts d c db := by
  intro h
  have hreach : Reachable (openDaemon none) (runPool (openDaemon none) (rebuiltTwice 15 16)).state :=
    ⟨_, rfl⟩
  obtain ⟨d, hd, hsuites⟩ := updateDashboard_ok (reachable_queueInput hreach)
    (reachable_sourcesExist hreach) unshuffled (260020 * Common.second)
  obtain ⟨stats, hstats, hcounts⟩ := h _ _ hreach _ _ d hd none (by decide +kernel)
  rw [hsuites] at hstats
  have htwo : (suites unshuffled (runPool (openDaemon none) (rebuiltTwice 15 16)).state).lookup
      (suiteName none) = some ⟨1, 0, 1⟩ := by decide +kernel
  have hone : (inputsOf none (runPool (openDaemon none) (rebuiltTwice 15 16)).state).length = 1 := by
    decide +kernel
  obtain rfl := Option.some.inj (htwo.symm.trans hstats)
  have htotal := hone ▸ hcounts.total
  exact absurd htotal (by decide)

end Rebuilderd.Daemon
