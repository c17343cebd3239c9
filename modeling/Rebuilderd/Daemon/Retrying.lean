import Rebuilderd.Daemon.Limits

/-!
What a rebuild report does to the build inputs and to the queue.

The job leaves the queue. If its rebuild was not good, a try is counted for every friend, and then
either all of them are given up on, or all wait until the next retry and the job is queued again.
-/

namespace Rebuilderd.Daemon

open Rebuilderd.Lib Rebuilderd.Common Prog

/-- The databases agree on build inputs and queue. -/
structure SameJobs (db db' : Db) : Prop where
  buildInputs : db'.buildInputs = db.buildInputs
  queue : db'.queue = db.queue

namespace SameJobs

variable {db db' db'' : Db}

lemma refl (db : Db) : SameJobs db db := ⟨rfl, rfl⟩

lemma trans (h : SameJobs db db') (h' : SameJobs db' db'') : SameJobs db db'' :=
  ⟨h'.buildInputs.trans h.buildInputs, h'.queue.trans h.queue⟩

lemma inputs (h : SameJobs db db') : db'.inputs = db.inputs := by
  unfold Db.inputs
  rw [h.buildInputs]

lemma buildInputFriends (h : SameJobs db db') (i : ℕ) :
    buildInputFriends db' i = buildInputFriends db i :=
  buildInputFriends_of_inputs h.inputs i

lemma maxRetriesOf (h : SameJobs db db') (ids : List ℕ) :
    maxRetriesOf ids db' = maxRetriesOf ids db := by
  unfold Daemon.maxRetriesOf
  rw [h.buildInputs]

lemma deleteQueued (h : SameJobs db db') (ids : List ℕ) :
    SameJobs (deleteQueued ids db).2 (Daemon.deleteQueued ids db').2 := by
  refine ⟨h.buildInputs, ?_⟩
  unfold Daemon.deleteQueued
  rw [h.queue]

lemma incrementRetries (h : SameJobs db db') (ids : List ℕ) :
    SameJobs (incrementRetries ids db) (Daemon.incrementRetries ids db') := by
  refine ⟨?_, h.queue⟩
  unfold Daemon.incrementRetries
  rw [h.buildInputs]

lemma setNextRetry (h : SameJobs db db') (ids : List ℕ) (next : Option Time) :
    SameJobs (setNextRetry ids next db) (Daemon.setNextRetry ids next db') := by
  refine ⟨?_, h.queue⟩
  unfold Daemon.setNextRetry
  rw [h.buildInputs]

lemma deleteQueuedOf (h : SameJobs db db') (ids : List ℕ) :
    SameJobs (deleteQueuedOf ids db) (Daemon.deleteQueuedOf ids db') := by
  refine ⟨h.buildInputs, ?_⟩
  unfold Daemon.deleteQueuedOf
  rw [h.queue]

lemma upsertQueued (h : SameJobs db db') (n : NewQueued) : SameJobs (n.upsert db) (n.upsert db') := by
  refine ⟨h.buildInputs, ?_⟩
  unfold NewQueued.upsert
  rw [h.queue]

end SameJobs

/-- The statements that write neither build inputs nor the queue. -/
def Stmt.keepsJobs : Stmt → Bool
  | .clearStale _ | .popJob _ _ | .pingQueued _ _ _ | .deleteQueued _ | .upsertQueued _
  | .deleteQueuedOf _ | .incrementRetries _ | .setNextRetry _ _ | .commitPackageReport _ _ => false
  | _ => true

lemma exec_sameJobs (env : Env) (t : Time) {s : Stmt} (hs : s.keepsJobs = true) (db : Db) :
    SameJobs db ((exec env).answer t s db).2 := by
  cases s with
  | clearStale | popJob | pingQueued | deleteQueued | upsertQueued | deleteQueuedOf
  | incrementRetries | setNextRetry | commitPackageReport => cases hs
  | refreshWorker key now =>
    refine Exec.answer_inv (E := exec env) (I := fun d : Db => SameJobs db d) (.refl db)
      fun w db' h => ?_
    simp only [exec, refreshWorker] at h
    split at h <;> cases h
    exact ⟨rfl, rfl⟩
  | findQueued id =>
    refine Exec.answer_inv (I := fun d : Db => SameJobs db d) (.refl db) fun q db' h => ?_
    rw [(exec_findQueued h).2.2]
    exact .refl db
  | maxRetriesOf ids =>
    refine Exec.answer_inv (I := fun d : Db => SameJobs db d) (.refl db) fun n db' h => ?_
    rw [exec_maxRetriesOf h]
    exact .refl db
  | _ => exact ⟨rfl, rfl⟩

/-- The statements that leave the build inputs alone. -/
def Stmt.keepsInputs : Stmt → Bool
  | .incrementRetries _ | .setNextRetry _ _ | .commitPackageReport _ _ => false
  | _ => true

lemma exec_buildInputs (env : Env) (t : Time) {s : Stmt} (hs : s.keepsInputs = true) (db : Db) :
    ((exec env).answer t s db).2.buildInputs = db.buildInputs := by
  cases s with
  | incrementRetries | setNextRetry | commitPackageReport => cases hs
  | refreshWorker key now =>
    refine Exec.answer_inv (E := exec env) (I := fun d : Db => d.buildInputs = db.buildInputs) rfl
      fun w db' h => ?_
    simp only [exec, refreshWorker] at h
    split at h <;> cases h
    rfl
  | popJob w r =>
    change (popJob env.ties w r t db).2.buildInputs = _
    rcases popJob_cases env.ties w r t db with ⟨row, -, h⟩ | h <;> rw [h]
    rfl
  | findQueued id =>
    refine Exec.answer_inv (I := fun d : Db => d.buildInputs = db.buildInputs) rfl fun q db' h => ?_
    rw [(exec_findQueued h).2.2]
  | maxRetriesOf ids =>
    refine Exec.answer_inv (I := fun d : Db => d.buildInputs = db.buildInputs) rfl fun n db' h => ?_
    rw [exec_maxRetriesOf h]
  | _ => rfl

/-- The job `q` is gone, and a try is counted for its friends. -/
def counted (q : Queued) (db : Db) : Db :=
  incrementRetries (buildInputFriends db q.buildInputId) (deleteQueued [q.id] db).2

/-- What follows once the try is counted; `P` holds of the time at which the retry is scheduled. -/
inductive Retried (c : ScheduleConfig) (P : Time → Prop) (q : Queued) (db db' : Db) : Prop
  | givenUp {n : ℤ}
      (count : getLargestRetryCountAmongFriends (counted q db) q.buildInputId = .ok n)
      (exhausted : c.retriesExhausted n = true)
      (jobs : SameJobs (markBuildInputFriendsAsNonRetriable (counted q db) q.buildInputId) db')
  | scheduled {n : ℤ} {now next : Time}
      (count : getLargestRetryCountAmongFriends (counted q db) q.buildInputId = .ok n)
      (left : c.retriesExhausted n = false) (time : P now) (delay : c.retryAt now n = .ok next)
      (jobs : SameJobs (NewQueued.upsert ⟨q.buildInputId, Priority.retry, now⟩
        (setNextRetry (buildInputFriends db q.buildInputId) (some next) (counted q db))) db')

section
variable {env : Env} {P : Time → Prop} {db : Db} {q : Queued}

lemma keepsJobs_of_only {α : Type} {p : Handler α} (hp : Only (fun s => s.keepsJobs = true) p)
    (db₀ : Db) : Keeps ((exec env).rulesIn P) (SameJobs db₀) p := by
  refine hp.keeps fun x i s hs hx => ⟨trivial, fun r y hy => ?_⟩
  have hkeep := exec_sameJobs env i hs x
  rw [show (exec env).answer i s x = (r, y) from hy.2] at hkeep
  exact hx.trans hkeep

/-- What follows once the try is counted, from a database with the jobs of `counted q db`. -/
lemma wp_retry_counted {d : Db} (hd : SameJobs (counted q db) d) :
    wp ((exec env).rulesIn P) (do
        let retryCount ← Handler.getLargestRetryCountAmongFriends q.buildInputId
        if env.config.schedule.retriesExhausted retryCount then
          Handler.markBuildInputFriendsAsNonRetriable q.buildInputId
        else
          let now ← sql .now
          let next ← lift (env.config.schedule.retryAt now retryCount)
          sql (.setNextRetry (buildInputFriends db q.buildInputId) (some next))
          sql (.upsertQueued ⟨q.buildInputId, Priority.retry, now⟩))
      (fun y _ => Retried env.config.schedule P q db y)
      (fun y _ => SameJobs (counted q db) y) d := by
  refine (wp_bind _ _).mpr ((wp_bind _ _).mpr (wp_stmt_in (fun i friends y _ hE => ?_)
    fun i e _ hE => by cases hE))
  cases hE
  refine wp_stmt_in (fun i n y _ hE => ?_) fun i e _ hE => hd
  obtain rfl := exec_maxRetriesOf hE
  have hn : getLargestRetryCountAmongFriends (counted q db) q.buildInputId = .ok n := by
    unfold getLargestRetryCountAmongFriends
    rw [← hd.maxRetriesOf, ← hd.buildInputFriends]
    rcases hm : maxRetriesOf (buildInputFriends y q.buildInputId) y with e | m
    · simp [exec, hm, Except.map] at hE
    · obtain rfl : m = n := by simpa [exec, hm, Except.map] using hE
      rfl
  split
  · rename_i hex
    refine (wp_bind _ _).mpr (wp_stmt_in (fun i friends z _ hE => ?_) fun i e _ hE => by cases hE)
    cases hE
    refine (wp_bind _ _).mpr (wp_stmt_in (fun i u z _ hE => ?_) fun i e _ hE => by cases hE)
    cases hE
    refine wp_stmt_in (fun i u z _ hE => ?_) fun i e _ hE => by cases hE
    cases hE
    refine .givenUp hn hex ?_
    rw [markBuildInputFriendsAsNonRetriable, hd.buildInputFriends]
    exact (hd.setNextRetry _ _).deleteQueuedOf _
  · rename_i hex
    refine (wp_bind _ _).mpr (wp_stmt_in (fun i now z hi hE => ?_) fun i e _ hE => by cases hE)
    cases hE
    refine (wp_bind _ _).mpr ((wp_lift _).mpr ⟨fun next hnext => ?_, fun _ _ => hd⟩)
    refine (wp_bind _ _).mpr (wp_stmt_in (fun j u z _ hE => ?_) fun i e _ hE => by cases hE)
    cases hE
    refine wp_stmt_in (fun j u z _ hE => ?_) fun i e _ hE => by cases hE
    cases hE
    exact .scheduled hn (by simpa using hex) hi hnext ((hd.setNextRetry _ _).upsertQueued _)

/-- What recording a report about the job `q` does, from a database with the jobs of `db`. -/
lemma wp_recordReport_jobs (r : RebuildReport) {d : Db} (hd : SameJobs db d) :
    wp ((exec env).rulesIn P) (Handler.recordReport env.config r q)
      (fun y _ => (r.status = .good ∧ SameJobs (deleteQueued [q.id] db).2 y) ∨
        (r.status ≠ .good ∧ Retried env.config.schedule P q db y))
      (fun y _ => SameJobs db y ∨ (r.status ≠ .good ∧ SameJobs (counted q db) y)) d := by
  refine (wp_bind _ _).mpr (wp_stmt_in (fun i friends y _ hE => ?_) fun i e _ hE => by cases hE)
  cases hE
  rw [hd.buildInputFriends]
  -- Until the job is deleted, neither build inputs nor queue are written.
  have hencode : Only (fun s : Stmt => s.keepsJobs = true) (Handler.encode r.buildLog) :=
    (only_encode r.buildLog).mono fun s hs => by rw [hs]; rfl
  refine (wp_bind _ _).mpr (wp_mono (keepsJobs_of_only hencode db _ hd) (fun y log hy => ?_)
    fun _ _ h => .inl h)
  refine (wp_bind _ _).mpr (wp_stmt_in (fun i log z _ hE => ?_) fun i e _ hE => by cases hE)
  cases hE
  have hrecord (log : ℕ) : Only (fun s : Stmt => s.keepsJobs = true)
      ((buildInputFriends db q.buildInputId).foldlM (Handler.recordRebuild r q log) []) :=
    .foldlM (fun logs friend => (only_recordRebuild r q log logs friend).mono fun s hs => by
      cases s <;> first | rfl | cases hs) []
  refine (wp_bind _ _).mpr (wp_mono (keepsJobs_of_only (hrecord _) db _ (hy.trans ⟨rfl, rfl⟩))
    (fun z _ hz => ?_) fun _ _ h => .inl h)
  refine (wp_bind _ _).mpr (wp_stmt_in (fun i n w _ hE => ?_) fun i e _ hE => by cases hE)
  cases hE
  have hdeleted := hz.deleteQueued [q.id]
  split
  · rename_i hbad
    refine (wp_bind _ _).mpr (wp_stmt_in (fun i u w _ hE => ?_) fun i e _ hE => by cases hE)
    cases hE
    exact wp_mono (wp_retry_counted (hdeleted.incrementRetries _)) (fun _ _ h => .inr ⟨hbad, h⟩)
      fun _ _ h => .inr ⟨hbad, h⟩
  · rename_i hgood
    exact .inl ⟨not_not.mp hgood, hdeleted⟩

end

/-- **What a report does to the jobs.** It is refused; or it ends the job and, if the rebuild was
not good, retries it; or it fails, before the job is deleted or after the try is counted. -/
theorem served_rebuildReport_jobs (env : Env) (db : Db) (h : Headers) (r : RebuildReport)
    {t : ℕ → Time} {P : Time → Prop} (ht : ∀ n, P (t n)) :
    let out := serve (exec env) (handler env.config) db (.submitRebuildReport h r, t)
    (∀ a, out.1 = .ok a → (a = .forbidden ∧ SameJobs db out.2) ∨
      (a = .noContent ∧ ∃ q ∈ db.queue.rows, q.id = r.queueId ∧
        ((r.status = .good ∧ SameJobs (deleteQueued [q.id] db).2 out.2) ∨
          (r.status ≠ .good ∧ Retried env.config.schedule P q db out.2)))) ∧
    ∀ e, out.1 = .error e → SameJobs db out.2 ∨ ∃ q ∈ db.queue.rows, q.id = r.queueId ∧
      r.status ≠ .good ∧ SameJobs (counted q db) out.2 := by
  refine run_of_wp_in (E := exec env) (P := P) (p := Handler.submitRebuildReport env.config h r)
    (Q := fun y a => (a = .forbidden ∧ SameJobs db y) ∨
      (a = .noContent ∧ ∃ q ∈ db.queue.rows, q.id = r.queueId ∧
        ((r.status = .good ∧ SameJobs (deleteQueued [q.id] db).2 y) ∨
          (r.status ≠ .good ∧ Retried env.config.schedule P q db y))))
    (F := fun y _ => SameJobs db y ∨ ∃ q ∈ db.queue.rows, q.id = r.queueId ∧ r.status ≠ .good ∧
      SameJobs (counted q db) y) ?_ ht
  have hworker : Only (fun s : Stmt => s.keepsJobs = true) (Handler.worker env.config h) :=
    (only_worker env.config h).mono fun s hs => by cases s <;> first | rfl | cases hs
  refine (wp_bind _ _).mpr ((wp_attempt _).mpr (wp_mono (keepsJobs_of_only hworker db db (.refl db))
    (fun d w hd => ?_) fun _ _ h => .inl ⟨rfl, h⟩))
  refine (wp_bind _ _).mpr (wp_stmt_in (fun i q y _ hE => ?_) fun i e _ hE => .inl hd)
  obtain ⟨hq, hid, rfl⟩ := exec_findQueued hE
  rw [hd.queue] at hq
  refine (wp_bind _ _).mpr (wp_mono (wp_recordReport_jobs r hd)
    (fun z _ hz => .inr ⟨rfl, q, hq, hid, hz⟩) fun z e hz => ?_)
  rcases hz with hz | ⟨hbad, hz⟩
  · exact .inl hz
  · exact .inr ⟨q, hq, hid, hbad, hz⟩

end Rebuilderd.Daemon
