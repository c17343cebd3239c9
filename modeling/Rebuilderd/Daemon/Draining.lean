import Rebuilderd.Lib.Potential
import Rebuilderd.Daemon.Tries
import Rebuilderd.Daemon.Visible

/-!
The work that is left in the queue, when retries are limited.

A job can be reported on until the tries of its group are used up, at least once. Nothing but a
package report and a requeue adds to the work that is left, and every report that is accepted takes
away from it.
-/

namespace Rebuilderd.Daemon

open Rebuilderd.Lib Rebuilderd.Common Prog

/-! ### Tries left -/

/-- How many reports on a job of the build input can be accepted, if retries end at `m`. -/
def triesLeft (m : ℤ) (db : Db) (i : ℕ) : ℕ :=
  match getLargestRetryCountAmongFriends db i with
  | .ok n => max 1 (m - n).toNat
  | .error _ => 1

/-- How many reports on the jobs of the queue can be accepted. -/
def workLeft (m : ℤ) (db : Db) : ℕ := db.queue.weight fun q => triesLeft m db q.buildInputId

section
variable {m n : ℤ} {db db' : Db} {i s : ℕ} {g : Group} {q : Queued}

lemma triesLeft_pos (m : ℤ) (db : Db) (i : ℕ) : 1 ≤ triesLeft m db i := by
  unfold triesLeft
  split
  · exact le_max_left _ _
  · exact le_rfl

lemma triesLeft_ok (h : getLargestRetryCountAmongFriends db i = .ok n) :
    triesLeft m db i = max 1 (m - n).toNat := by
  unfold triesLeft
  rw [h]

/-- A job is left as long as the queue is not empty. -/
lemma queue_of_workLeft_eq_zero (h : workLeft m db = 0) : db.queue.rows = [] := by
  rw [workLeft, Table.weight, List.sum_eq_zero_iff] at h
  refine List.eq_nil_iff_forall_not_mem.mpr fun q hq => ?_
  have hzero := h _ (List.mem_map.mpr ⟨q, hq, rfl⟩)
  exact (triesLeft_pos m db q.buildInputId).not_gt (hzero ▸ Nat.one_pos)

lemma largestRetryCount_congr (h : db'.tries = db.tries) (i : ℕ) :
    getLargestRetryCountAmongFriends db' i = getLargestRetryCountAmongFriends db i := by
  have hmax (db : Db) (ids : List ℕ) : (db.buildInputs.rows.filter fun b => ids.contains b.id).map
      (·.retries) = (db.tries.filter fun x => ids.contains x.1.1).map Prod.snd := by
    rw [Db.tries, List.filter_map, List.map_map]
    rfl
  have hinputs : db'.inputs = db.inputs := by rw [inputs_eq_tries, inputs_eq_tries, h]
  unfold getLargestRetryCountAmongFriends maxRetriesOf
  rw [buildInputFriends_of_inputs hinputs, hmax db', hmax db, h]

lemma triesLeft_congr (h : db'.tries = db.tries) (i : ℕ) : triesLeft m db' i = triesLeft m db i := by
  unfold triesLeft
  rw [largestRetryCount_congr h]

/-- To count tries lowers no largest count. -/
lemma maxRetriesOf_incrementRetries {ids ids' : List ℕ}
    (h : maxRetriesOf ids (incrementRetries ids' db) = .ok n) :
    ∃ k ≤ n, maxRetriesOf ids db = .ok k := by
  have hfilter : ((incrementRetries ids' db).buildInputs.rows.filter fun b => ids.contains b.id) =
      (db.buildInputs.rows.filter fun b => ids.contains b.id).map fun b =>
        if ids'.contains b.id then { b with retries := b.retries + 1 } else b := by
    rw [incrementRetries, Table.rows_update, List.filter_map]
    congr 1
    refine List.filter_congr fun b _ => ?_
    simp only [Function.comp]
    split <;> rfl
  unfold maxRetriesOf at h ⊢
  rw [hfilter] at h
  rcases hk : ((db.buildInputs.rows.filter fun b => ids.contains b.id).map (·.retries)).max? with _ | k
  · rw [List.max?_eq_none_iff, List.map_eq_nil_iff] at hk
    rw [hk] at h
    cases h
  · refine ⟨k, ?_, by rw [hk]⟩
    obtain ⟨hmem, -⟩ := List.max?_eq_some_iff.mp hk
    obtain ⟨b, hb, rfl⟩ := List.mem_map.mp hmem
    rw [List.map_map] at h
    split at h
    · rename_i n' hn
      obtain rfl : n' = n := Except.ok.inj h
      refine le_trans ?_ ((List.max?_eq_some_iff.mp hn).2 _ (List.mem_map.mpr ⟨b, hb, rfl⟩))
      simp only [Function.comp]
      split
      · exact Int.le_add_one le_rfl
      · exact le_rfl
    · cases h

lemma triesLeft_incrementRetries (m : ℤ) (ids : List ℕ) (db : Db) (i : ℕ) :
    triesLeft m (incrementRetries ids db) i ≤ triesLeft m db i := by
  rcases hn : getLargestRetryCountAmongFriends (incrementRetries ids db) i with e | n
  · rw [triesLeft, hn]
    exact triesLeft_pos m db i
  · rw [triesLeft_ok hn]
    unfold getLargestRetryCountAmongFriends at hn
    rw [buildInputFriends_of_inputs (incrementRetries_inputs ids db)] at hn
    obtain ⟨k, hle, hk⟩ := maxRetriesOf_incrementRetries hn
    rw [triesLeft_ok (n := k) hk]
    omega

/-- The count that a bad report ends at is larger than before. -/
lemma largestRetryCount_counted (hq : (q.buildInputId, s, g) ∈ db.inputs)
    (h : getLargestRetryCountAmongFriends (counted q db) q.buildInputId = .ok n) :
    ∃ k < n, getLargestRetryCountAmongFriends db q.buildInputId = .ok k := by
  have hin : (q.buildInputId, s, g) ∈ (counted q db).inputs := by rwa [inputs_counted]
  have hn := largestRetryCount_ok hin h
  unfold getLargestRetryCountAmongFriends at h
  rw [buildInputFriends_of_inputs (inputs_counted q db)] at h
  obtain ⟨k, -, hk⟩ := maxRetriesOf_incrementRetries
    (show maxRetriesOf _ (incrementRetries _ (deleteQueued [q.id] db).2) = _ from h)
  refine ⟨k, ?_, hk⟩
  obtain ⟨⟨b, hb, rfl⟩, -⟩ := largestRetryCount_ok hq hk
  refine Int.lt_of_lt_of_le (Int.lt_succ b.retries) (hn.2 { b with retries := b.retries + 1 } ?_)
  rw [members_counted hq, if_pos rfl]
  exact List.mem_map.mpr ⟨b, hb, rfl⟩

/-! ### The work after a request -/

lemma workLeft_of_rows (htries : ∀ i, triesLeft m db' i ≤ triesLeft m db i)
    (hrows : ∀ q' ∈ db'.queue.rows, ∃ q ∈ db.queue.rows, q.id = q'.id ∧
      q.buildInputId = q'.buildInputId) : workLeft m db' ≤ workLeft m db := by
  refine Table.weight_le fun q' hq' => ?_
  obtain ⟨q, hq, hid, hinput⟩ := hrows q' hq'
  exact ⟨q, hq, hid, hinput ▸ htries q'.buildInputId⟩

lemma SameJobs.tries (h : SameJobs db db') : db'.tries = db.tries := by
  unfold Db.tries
  rw [h.buildInputs]

lemma SameJobs.workLeft (h : SameJobs db db') (m : ℤ) : workLeft m db' = workLeft m db := by
  unfold Daemon.workLeft
  simp only [triesLeft_congr h.tries, h.queue]

lemma workLeft_deleteQueued (m : ℤ) (hq : q ∈ db.queue.rows) :
    workLeft m (deleteQueued [q.id] db).2 + triesLeft m db q.buildInputId ≤ workLeft m db :=
  Table.weight_delete hq (by simp) fun q => triesLeft m db q.buildInputId

lemma workLeft_counted (m : ℤ) (hq : q ∈ db.queue.rows) :
    workLeft m (counted q db) + triesLeft m db q.buildInputId ≤ workLeft m db := by
  have hdelete := workLeft_deleteQueued m hq
  have hcount : workLeft m (counted q db) ≤ workLeft m (deleteQueued [q.id] db).2 :=
    workLeft_of_rows (fun i => triesLeft_incrementRetries m _ _ i) fun q' hq' => ⟨q', hq', rfl, rfl⟩
  omega

lemma workLeft_upsert (m : ℤ) (new : NewQueued) (db : Db) :
    workLeft m (new.upsert db) ≤ workLeft m db + triesLeft m db new.buildInputId := by
  have htries : (new.upsert db).tries = db.tries := rfl
  unfold workLeft
  simp only [triesLeft_congr htries]
  rcases new.upsert_cases db with ⟨r, -, -, hqueue⟩ | ⟨-, hqueue⟩ <;> rw [hqueue]
  · rw [Table.weight_skip, Table.weight_update fun q _ hq => by rw [beq_iff_eq.mp hq]]
    exact Nat.le_add_right _ _
  · exact (Table.weight_insert db.queue new.row _ _).le

/-- **A bad report is paid for**: the tries that are left are fewer than those of the job. -/
lemma Retried.workLeft {c : ScheduleConfig} {P : Time → Prop} (hm : c.maxRetries = some m)
    (h : Retried c P q db db') (hq : q ∈ db.queue.rows) (hin : HasInput q.buildInputId db) :
    1 + workLeft m db' ≤ workLeft m db := by
  have hcounted := workLeft_counted m hq
  have hpos := triesLeft_pos m db q.buildInputId
  cases h with
  | givenUp count exhausted jobs =>
    have hgone : Daemon.workLeft m (markBuildInputFriendsAsNonRetriable (counted q db) q.buildInputId) ≤
        Daemon.workLeft m (counted q db) := by
      refine workLeft_of_rows (fun i => (triesLeft_congr (tries_setNextRetry _ _ _) i).le)
        fun q' hq' => ⟨q', ((Table.mem_delete _).mp hq').1, rfl, rfl⟩
    rw [jobs.workLeft]
    omega
  | @scheduled n now next count left time delay jobs =>
    obtain ⟨s, g, hg⟩ := hin
    obtain ⟨k, hk, hbefore⟩ := largestRetryCount_counted hg count
    have hmore : n < m := by simpa [ScheduleConfig.retriesExhausted, hm] using left
    have htries : (setNextRetry (buildInputFriends db q.buildInputId) (some next)
        (counted q db)).tries = (counted q db).tries := tries_setNextRetry _ _ _
    have hafter := workLeft_upsert m ⟨q.buildInputId, Priority.retry, now⟩
      (setNextRetry (buildInputFriends db q.buildInputId) (some next) (counted q db))
    rw [show Daemon.workLeft m (setNextRetry _ _ (counted q db)) = Daemon.workLeft m (counted q db) by
      unfold Daemon.workLeft; simp only [triesLeft_congr htries]; rfl] at hafter
    simp only [triesLeft_congr htries, triesLeft_ok count] at hafter
    rw [triesLeft_ok hbefore] at hcounted
    rw [jobs.workLeft]
    omega

end

/-! ### Reports -/

/-- Whether a request is a rebuild report that is accepted: one, or none. -/
def acceptedReport (env : Env) (db : Db) (c : Request) : ℕ :=
  match c.1 with
  | .submitRebuildReport _ _ =>
    if (serve (exec env) (handler env.config) db c).1.toOption = some .noContent then 1 else 0
  | _ => 0

/-- The requests that enqueue nothing anew: all but package reports and requeues. -/
def Call.bringsNoWork : Call → Bool
  | .submitRebuildReport _ _ => true
  | c => c.keepsRecords

/-- No request but package reports and requeues adds work, and an accepted report takes some away. -/
lemma workLeft_served {env : Env} {m : ℤ} (hm : env.config.schedule.maxRetries = some m) {db : Db}
    (hdb : Reachable env db) {c : Request} (hc : c.1.bringsNoWork = true) :
    acceptedReport env db c + workLeft m (served env db c) ≤ workLeft m db := by
  obtain ⟨c, t⟩ := c
  have hroutine (hkeeps : c.keepsRecords = true) :
      workLeft m (served env db (c, t)) ≤ workLeft m db := by
    have hh := served_harmless env db hkeeps t
    exact workLeft_of_rows (fun i => (triesLeft_congr hh.tries i).le) hh.rows
  cases c with
  | submitPackageReport | requestRebuild => cases hc
  | requestWork | pingJob | dropQueuedJobs | dropQueuedJob =>
    rw [acceptedReport, Nat.zero_add]
    exact hroutine rfl
  | submitRebuildReport h r =>
    obtain ⟨hok, herr⟩ := served_rebuildReport_jobs env db h r (t := t) (P := fun _ => True)
      fun _ => trivial
    have hinput := reachable_queueInput hdb
    unfold acceptedReport served
    rcases hres : (serve (exec env) (handler env.config) db (.submitRebuildReport h r, t)).1 with e | a
    · rcases herr e hres with hsame | ⟨q, hq, -, -, hsame⟩
      · simp [Except.toOption, hsame.workLeft]
      · have hcounted := workLeft_counted m hq
        simp only [Except.toOption, hsame.workLeft, reduceCtorEq, if_false]
        omega
    · rcases hok a hres with ⟨rfl, hsame⟩ | ⟨rfl, q, hq, -, hdone⟩
      · simp [Except.toOption, hsame.workLeft]
      · simp only [Except.toOption, if_true]
        rcases hdone with ⟨-, hsame⟩ | ⟨-, hretried⟩
        · have hdelete := workLeft_deleteQueued m hq
          have hpos := triesLeft_pos m db q.buildInputId
          rw [hsame.workLeft]
          omega
        · exact hretried.workLeft hm hq (hinput q hq)

/-- **Work is finite**: until packages are imported or requeued, no more reports are accepted than
there are tries left for the jobs of the queue. -/
theorem acceptedReports_le (env : Env) (m : ℤ) (db : Db) (cs : List Request)
    (hm : env.config.schedule.maxRetries = some m) (hdb : Reachable env db)
    (hcs : ∀ c ∈ cs, c.1.bringsNoWork = true) :
    total (served env) (acceptedReport env) db cs + workLeft m (cs.foldl (served env) db) ≤
      workLeft m db :=
  total_add_le (I := Reachable env) (fun c : Request => c.1.bringsNoWork = true)
    (fun _ c h _ => h.served c) (fun _ _ h hc => workLeft_served hm h hc) hdb hcs

/-- Three reports about one job. -/
theorem acceptedReports_le_threeReports :
    let env := openDaemon (some 2)
    let db := (atOnce [helloReport "a" "amd64"]).foldl (served env) env.start
    let cs := atOnce [reportBy "alice" .bad, reportBy "bob" .bad, reportBy "carol" .good]
    total (served env) (acceptedReport env) db cs + workLeft 2 (cs.foldl (served env) db) ≤
      workLeft 2 db :=
  acceptedReports_le (openDaemon (some 2)) 2 _ _ rfl
    (reachable_of_runs (Runs.of_forall fun _ _ => trivial)) (by decide)

end Rebuilderd.Daemon
