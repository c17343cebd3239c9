import Rebuilderd.Daemon.Backoff
import Rebuilderd.Daemon.Draining

/-!
A worker that works alone: it asks for work, reports on the job it is handed, and asks again.

As long as it asks late enough for leases to have run out and for the retries to be due, a worker that
supports every job is handed one in every round, so that the queue is empty after as many rounds as
there is work.
-/

namespace Rebuilderd.Daemon

open Rebuilderd.Lib Rebuilderd.Common Prog

/-! ### Workers that are let in -/

/-- Whether the authentication of workers accepts the headers. -/
def Handler.admits (cfg : Config) (h : Headers) (db : Db) : Bool :=
  openToAll cfg || h.workerKey.any fun key =>
    (cfg.worker.authorizedWorkers.isEmpty || cfg.worker.authorizedWorkers.contains key) &&
      keyIsRegistered key db

section
variable {env : Env} {P : Time → Prop} {h : Headers} {db : Db}

lemma keyIsRegistered_iff {key : String} :
    keyIsRegistered key db = true ↔ ∃ id, HasWorker key id db.workers := by
  simp [keyIsRegistered, HasWorker]

/-- A worker that is let in stays let in. -/
lemma admits_served (hadm : Handler.admits env.config h db = true) (c : Request) :
    Handler.admits env.config h (served env db c) = true := by
  have hkey {key : String} (hk : keyIsRegistered key db = true) :
      keyIsRegistered key (served env db c) = true := by
    obtain ⟨id, hid⟩ := keyIsRegistered_iff.mp hk
    refine keyIsRegistered_iff.mpr ⟨id, ?_⟩
    exact run_inv (I := fun d : Db => HasWorker key id d.workers)
      (fun t s d hd => exec_hasWorker env key id t s d hd) _ _ hid
  simp only [Handler.admits, Bool.or_eq_true, Option.any_eq_true, Bool.and_eq_true] at hadm ⊢
  exact hadm.imp id fun ⟨key, hsome, hauth, hk⟩ => ⟨key, hsome, hauth, hkey hk⟩

/-- Authentication of a worker that is let in succeeds, and writes workers only. -/
lemma wp_worker_admitted (hadm : Handler.admits env.config h db = true) :
    wp ((exec env).rulesIn P) (Handler.worker env.config h)
      (fun y _ => ∃ ws, y = { db with workers := ws }) (fun _ _ => False) db := by
  unfold Handler.worker
  split
  · refine (wp_bind _ _).mpr (wp_stmt_in (fun i now y _ hE => ?_) fun i e _ hE => by cases hE)
    cases hE
    refine wp_stmt_in (fun i w y _ hE => ?_) fun i e _ hE => by cases hE
    cases hE
    exact ⟨_, rfl⟩
  · rename_i hclosed
    simp only [Handler.admits, hclosed, Bool.false_or] at hadm
    obtain ⟨key, hsome, hok⟩ := (Option.any_eq_true _ _).mp hadm
    obtain ⟨hauth, hreg⟩ := Bool.and_eq_true_iff.mp hok
    have hallowed : ¬ (env.config.worker.authorizedWorkers ≠ [] ∧
        key ∉ env.config.worker.authorizedWorkers) := by
      rintro ⟨hne, hnot⟩
      simp [hne, hnot] at hauth
    rw [hsome]
    dsimp only
    rw [if_neg hallowed]
    refine (wp_bind _ _).mpr (wp_stmt_in (fun i reg y _ hE => ?_) fun i e _ hE => by cases hE)
    cases hE
    rw [if_pos hreg]
    refine (wp_bind _ _).mpr (wp_stmt_in (fun i now y _ hE => ?_) fun i e _ hE => by cases hE)
    cases hE
    obtain ⟨w, hw⟩ : ∃ w, db.workers.rows.find? (·.key == key) = some w :=
      Option.isSome_iff_exists.mp (List.find?_isSome.mpr (List.any_eq_true.mp hreg))
    refine wp_stmt_in (fun i w' y _ hE => ?_) fun i e _ hE => ?_
    · simp only [exec, refreshWorker, hw] at hE
      cases hE
      exact ⟨_, rfl⟩
    · simp only [exec, refreshWorker, hw] at hE
      cases hE

end

/-! ### Asking for work -/

/-- The worker supports the build input. -/
def supports (r : PopQueuedJobRequest) (b : BuildInput) : Bool :=
  (standardizeArchitectures r.supportedArchitectures).contains b.architecture &&
    r.supportedBackends.contains b.backend

/-- Every job of the queue is free, or its lease has run out by `T`, and the worker supports it and
can be handed it from `T` on. -/
structure Idle (r : PopQueuedJobRequest) (T : Time) (db : Db) : Prop where
  free : ∀ q ∈ db.queue.rows, q.worker = none ∨ ∃ ping ∈ q.lastPing, ping + pingDeadline * second ≤ T
  supported : ∀ q ∈ db.queue.rows, ∀ b ∈ db.buildInputs.rows, b.id = q.buildInputId →
    supports r b = true
  due : ∀ q ∈ db.queue.rows, ∀ b ∈ db.buildInputs.rows, b.id = q.buildInputId →
    ∀ next ∈ b.nextRetry, next ≤ T

instance (r : PopQueuedJobRequest) (T : Time) (db : Db) : Decidable (Idle r T db) :=
  decidable_of_iff ((∀ q ∈ db.queue.rows,
        q.worker = none ∨ ∃ ping ∈ q.lastPing, ping + pingDeadline * second ≤ T) ∧
      (∀ q ∈ db.queue.rows, ∀ b ∈ db.buildInputs.rows, b.id = q.buildInputId → supports r b = true) ∧
      ∀ q ∈ db.queue.rows, ∀ b ∈ db.buildInputs.rows, b.id = q.buildInputId →
        ∀ next ∈ b.nextRetry, next ≤ T)
    ⟨fun h => ⟨h.1, h.2.1, h.2.2⟩, fun h => ⟨h.free, h.supported, h.due⟩⟩

/-- The job `q` was taken from the queue of `db`, and the other jobs are free. -/
structure Taken (q : Queued) (db db' : Db) : Prop where
  inputs : db'.buildInputs = db.buildInputs
  rows : ∀ q' ∈ db'.queue.rows, ∃ q₀ ∈ db.queue.rows, q₀.id = q'.id ∧
    q₀.buildInputId = q'.buildInputId ∧ (q'.id = q.id ∨ q'.worker = none)
  there : ∃ q' ∈ db'.queue.rows, q'.id = q.id

/-- The clock can be put back by the deadline of a ping. -/
lemma cutoff_inRange {t : Time} (h : InYears t) : minUtc ≤ t + -(pingDeadline * second) ∧
    t + -(pingDeadline * second) ≤ maxUtc := by
  have hdeadline : pingDeadline * second = 540 * 1000000000 := by decide
  obtain ⟨hfirst, hlast⟩ := h
  simp only [minUtc, maxUtc, firstYear, lastYear, second, hdeadline] at *
  constructor <;> linarith

section
variable {env : Env} {P : Time → Prop} {h : Headers} {r : PopQueuedJobRequest} {T : Time} {db : Db}

/-- If the queue is not empty, a worker that supports the jobs is handed one of them. -/
lemma wp_requestWork_idle (hdb : Reachable env db) (hadm : Handler.admits env.config h db = true)
    (hidle : Idle r T db) (hq : db.queue.rows ≠ [])
    (hlate : ∀ t, P t → InYears t ∧ T + second ≤ t) :
    wp ((exec env).rulesIn P) (Handler.requestWork env.config h r)
      (fun y a => ∃ q ∈ db.queue.rows, ∃ job, a = .assignment (some job) ∧ job.job.id = q.id ∧
        Taken q db y) (fun _ _ => False) db := by
  refine (wp_bind _ _).mpr ((wp_attempt _).mpr (wp_mono (wp_worker_admitted hadm) ?_
    fun _ _ h => h.elim))
  rintro d w ⟨ws, rfl⟩
  refine (wp_bind _ _).mpr (wp_stmt_in (fun i now y hi hE => ?_) fun i e _ hE => by cases hE)
  cases hE
  refine (wp_bind _ _).mpr ((wp_lift _).mpr ⟨fun cutoff hcut => ?_, fun e he => ?_⟩)
  swap
  · rw [addDuration, if_pos (cutoff_inRange (hlate _ hi).1)] at he
    cases he
  refine (wp_bind _ _).mpr (wp_stmt_in (fun i u y _ hE => ?_) fun i e _ hE => by cases hE)
  cases hE
  refine (wp_bind _ _).mpr (wp_stmt_in (fun t job y ht hE => ?_) fun i e _ hE => by cases hE)
  have hcleared : ∀ q' ∈ (clearStale cutoff { db with workers := ws }).queue.rows,
      ∃ q ∈ db.queue.rows, q.id = q'.id ∧ q.buildInputId = q'.buildInputId ∧ q'.worker = none := by
    intro q' hq'
    obtain ⟨q, hq, rfl⟩ := List.mem_map.mp hq'
    refine ⟨q, hq, ?_⟩
    split
    · exact ⟨rfl, rfl, rfl⟩
    · -- A lease that has run out by `T` is taken back.
      rename_i hstale
      refine ⟨rfl, rfl, (hidle.free q hq).resolve_right ?_⟩
      rintro ⟨ping, hping, hexpired⟩
      rw [addDuration, if_pos (cutoff_inRange (hlate _ hi).1)] at hcut
      cases hcut
      have hpos : 0 < second := by decide
      have hlater := (hlate _ hi).2
      refine hstale ((Option.any_eq_true _ _).mpr ⟨ping, hping, decide_eq_true ?_⟩)
      linarith
  rcases popJob_cases env.ties w r t (clearStale cutoff { db with workers := ws }) with
    ⟨⟨q, b, s⟩, hrow, hpop⟩ | hpop
  · have hout : popJob env.ties w r t _ = (job, y) := Except.ok.inj hE
    rw [hpop] at hout
    cases hout
    obtain ⟨hq', -, -⟩ := mem_availableJobs hrow
    obtain ⟨q₀, hq₀, hid, -⟩ := hcleared q hq'
    refine ⟨q₀, hq₀, _, rfl, hid.symm, ⟨rfl, fun q₁ hq₁ => ?_, ?_⟩⟩
    · obtain ⟨q₂, hq₂, rfl⟩ := List.mem_map.mp hq₁
      obtain ⟨q₃, hq₃, hid₃, hinput, hfree⟩ := hcleared q₂ hq₂
      refine ⟨q₃, hq₃, ?_⟩
      split
      · rename_i hself
        exact ⟨hid₃, hinput, .inl ((beq_iff_eq.mp hself).trans hid.symm)⟩
      · exact ⟨hid₃, hinput, .inr hfree⟩
    · refine ⟨_, List.mem_map.mpr ⟨q, hq', rfl⟩, ?_⟩
      split <;> exact hid.symm
  · exfalso
    -- The job that is first in the queue was available.
    obtain ⟨q, hq⟩ := List.exists_mem_of_ne_nil _ hq
    obtain ⟨s, g, hin⟩ := reachable_queueInput hdb q hq
    obtain ⟨b, hb, hbid, hbs, -⟩ := mem_inputs.mp hin
    obtain ⟨src, hsrc, hsid⟩ := reachable_sourcesExist hdb _ hin
    obtain ⟨q', hq', hqid⟩ : ∃ q' ∈ (clearStale cutoff { db with workers := ws }).queue.rows,
        q'.buildInputId = q.buildInputId := by
      refine ⟨_, List.mem_map.mpr ⟨q, hq, rfl⟩, ?_⟩
      split <;> rfl
    obtain ⟨-, -, -, -, hfree⟩ := hcleared q' hq'
    have havail : (q', b, src) ∈ availableJobs r t (clearStale cutoff { db with workers := ws }) := by
      refine List.mem_filter.mpr ⟨mem_queueBase.mpr ⟨hq', ⟨hb, hbid.trans hqid.symm⟩, hsrc,
        hsid.trans hbs.symm⟩, ?_⟩
      have hsup := hidle.supported q hq b hb hbid
      obtain ⟨harch, hback⟩ := Bool.and_eq_true_iff.mp hsup
      have hdue : b.nextRetry.all (· ≤ currentTimestamp t) = true := by
        refine (Option.all_eq_true _ _).mpr fun next hnext => ?_
        have hle := hidle.due q hq b hb hbid next hnext
        obtain ⟨-, hlate⟩ := hlate t ht
        have hfloor : t - second < t / second * second := by
          have := Int.emod_add_mul_ediv t second
          have := Int.emod_lt_of_pos t (show 0 < second by decide)
          linarith
        exact decide_eq_true (by unfold currentTimestamp; linarith)
      simp only [hfree, hdue, harch, hback, Option.isNone_none, Bool.and_true]
    unfold popJob at hpop
    rcases hfirst : env.ties.firstBy jobOrder
        (availableJobs r t (clearStale cutoff { db with workers := ws })) with _ | row
    · rw [Ties.firstBy_eq_none.mp hfirst] at havail
      cases havail
    · rw [hfirst] at hpop
      cases hpop

end

/-! ### Reporting -/

section
variable {env : Env} {P : Time → Prop} {h : Headers} {r : RebuildReport} {q : Queued} {db : Db}

/-- A report that fails has taken its job from the queue before. -/
lemma wp_recordReport_gone (hf : Fresh db) (hq : q ∈ db.queue.rows) :
    wp ((exec env).rulesIn P) (Handler.recordReport env.config r q) (fun _ _ => True)
      (fun y _ => Gone q.id y) db := by
  have hencode : Only (fun s : Stmt => s.keepsJobs = true) (Handler.encode r.buildLog) :=
    (only_encode r.buildLog).mono fun s hs => by rw [hs]; rfl
  have hrecord (log : ℕ) : Only (fun s : Stmt => s.keepsJobs = true)
      ((buildInputFriends db q.buildInputId).foldlM (Handler.recordRebuild r q log) []) :=
    .foldlM (fun logs friend => (only_recordRebuild r q log logs friend).mono fun s hs => by
      cases s <;> first | rfl | cases hs) []
  have hgone {α : Type} (p : Handler α) : Keeps ((exec env).rulesIn P) (Gone q.id) p :=
    .of_stmts (fun d i s hd => ⟨trivial, fun a y hy => by
      rw [show y = ((exec env).answer i s d).2 from (congrArg Prod.snd hy.2).symm]
      exact exec_gone env q.id i s d hd⟩) p
  refine (wp_bind _ _).mpr (wp_stmt_in (fun i friends y _ hE => ?_) fun i e _ hE => by cases hE)
  cases hE
  refine (wp_bind _ _).mpr (wp_mono (wp_and (wp_in (quiet_encode r.buildLog db db (.refl db)))
    (keepsJobs_of_only hencode db db (.refl db))) (fun d log hd => ?_) fun _ _ h => h.1.elim)
  refine (wp_bind _ _).mpr (wp_stmt_in (fun i log y _ hE => ?_) fun i e _ hE => by cases hE)
  cases hE
  have hlogged : Fresh (insertBuildLog log d).2 := (hd.1.fresh hf).congr rfl rfl le_rfl
  have hle : ∀ i ∈ buildInputFriends db q.buildInputId, i ≤ (insertBuildLog log d).2.buildInputs.seq :=
    fun i hi => (le_of_mem_buildInputFriends hi).trans_eq hd.1.seq.symm
  have hjobs : SameJobs db (insertBuildLog log d).2 := hd.2.trans ⟨rfl, rfl⟩
  refine (wp_bind _ _).mpr (wp_mono (wp_and (wp_in (wp_recordRebuilds hlogged
    (nodup_buildInputFriends db q.buildInputId) hle r q _)) (keepsJobs_of_only (hrecord _) db _ hjobs))
    (fun z _ hz => ?_) fun _ _ h => h.1.elim)
  refine (wp_bind _ _).mpr (wp_stmt_in (fun i n w _ hE => ?_) fun i e _ hE => by cases hE)
  cases hE
  -- From here on the job is gone, whatever fails.
  have hdeleted : Gone q.id (deleteQueued [q.id] z).2 := by
    refine ⟨?_, fun row hrow => ?_⟩
    · exact (db.queue.bound q hq).trans_eq (congrArg Table.seq hz.2.queue).symm
    · simpa using ((Table.mem_delete _).mp hrow).2
  split
  · exact wp_mono (hgone _ _ hdeleted) (fun _ _ _ => trivial) fun _ _ h => h
  · trivial

/-- The report of a worker that is let in on a job of the queue is accepted, or fails once the job is
gone. -/
lemma wp_submitRebuildReport_admitted (hf : Fresh db)
    (hadm : Handler.admits env.config h db = true) (hq : q ∈ db.queue.rows) (hid : q.id = r.queueId) :
    wp ((exec env).rulesIn P) (Handler.submitRebuildReport env.config h r)
      (fun _ a => a = .noContent) (fun y _ => Gone q.id y) db := by
  refine (wp_bind _ _).mpr ((wp_attempt _).mpr (wp_mono (wp_worker_admitted hadm) ?_
    fun _ _ h => h.elim))
  rintro d w ⟨ws, rfl⟩
  have hfind : findQueued r.queueId { db with workers := ws } = .ok q := by
    have hfirst : db.queue.rows.find? (·.id == r.queueId) = some q := hid ▸ Table.find_key hq
    unfold findQueued
    rw [hfirst]
  refine (wp_bind _ _).mpr (wp_stmt_in (fun i q' y _ hE => ?_) fun i e _ hE => ?_)
  · simp only [exec, hfind, Except.map] at hE
    cases hE
    exact (wp_bind _ _).mpr (wp_mono (wp_recordReport_gone (hf.congr rfl rfl le_rfl) hq)
      (fun _ _ _ => rfl) fun _ _ h => h)
  · simp only [exec, hfind, Except.map] at hE
    cases hE

end

/-! ### What a report leaves to do -/

/-- The build inputs of `db'` are those of `db`, and due by `T` if their next retry is new. -/
def DueBy (T : Time) (db db' : Db) : Prop :=
  ∀ b' ∈ db'.buildInputs.rows, ∃ b ∈ db.buildInputs.rows, b.identity = b'.identity ∧
    ∀ next, b'.nextRetry = some next → b.nextRetry = some next ∨ next ≤ T

/-- The job `q` is gone; a retry of it is free, and the other jobs are as they were. -/
structure Settled (q : Queued) (T : Time) (db db' : Db) : Prop where
  rows : ∀ q' ∈ db'.queue.rows, (q'.buildInputId = q.buildInputId ∧ q'.worker = none) ∨
    ∃ q₀ ∈ db.queue.rows, q₀.id ≠ q.id ∧ q₀.buildInputId = q'.buildInputId ∧ q₀.worker = q'.worker
  due : DueBy T db db'

section
variable {c : ScheduleConfig} {P : Time → Prop} {T : Time} {db db' d : Db} {q : Queued}

lemma DueBy.refl (T : Time) (db : Db) : DueBy T db db := fun b hb => ⟨b, hb, rfl, fun _ => .inl⟩

lemma DueBy.trans (h : DueBy T db db') (h' : DueBy T db' d) : DueBy T db d := by
  intro b'' hb''
  obtain ⟨b', hb', hid', hdue'⟩ := h' b'' hb''
  obtain ⟨b, hb, hid, hdue⟩ := h b' hb'
  exact ⟨b, hb, hid.trans hid', fun next hnext => (hdue' next hnext).elim (hdue next) .inr⟩

lemma dueBy_incrementRetries (T : Time) (ids : List ℕ) (db : Db) :
    DueBy T db (incrementRetries ids db) := by
  intro b' hb'
  obtain ⟨b, hb, rfl⟩ := List.mem_map.mp hb'
  refine ⟨b, hb, ?_⟩
  split <;> exact ⟨rfl, fun _ => .inl⟩

lemma dueBy_setNextRetry {next : Option Time} (hnext : ∀ t, next = some t → t ≤ T) (ids : List ℕ)
    (db : Db) : DueBy T db (setNextRetry ids next db) := by
  intro b' hb'
  obtain ⟨b, hb, rfl⟩ := List.mem_map.mp hb'
  refine ⟨b, hb, ?_⟩
  split
  · exact ⟨rfl, fun t ht => .inr (hnext t ht)⟩
  · exact ⟨rfl, fun _ => .inl⟩

lemma Settled.congr (h : Settled q T db db') (hd : SameJobs db' d) : Settled q T db d := by
  obtain ⟨hrows, hdue⟩ := h
  refine ⟨by rwa [hd.queue], ?_⟩
  unfold DueBy
  rwa [hd.buildInputs]

lemma settled_deleted (T : Time) (q : Queued) (db : Db) : Settled q T db (deleteQueued [q.id] db).2 := by
  refine ⟨fun q' hq' => .inr ?_, .refl T db⟩
  obtain ⟨hmem, hne⟩ := (Table.mem_delete _).mp hq'
  exact ⟨q', hmem, by simpa using hne, rfl, rfl⟩

lemma settled_counted (T : Time) (q : Queued) (db : Db) : Settled q T db (counted q db) :=
  ⟨(settled_deleted T q db).rows, dueBy_incrementRetries T _ _⟩

/-- A report that is not good leaves at most a retry, which is due when its delay is over. -/
lemma Retried.settled (h : Retried c P q db db')
    (hdelay : ∀ now n next, P now → getLargestRetryCountAmongFriends (counted q db) q.buildInputId =
      .ok n → c.retriesExhausted n = false → c.retryAt now n = .ok next → next ≤ T) :
    Settled q T db db' := by
  have hcounted := settled_counted T q db
  cases h with
  | givenUp count exhausted jobs =>
    refine Settled.congr ⟨fun q' hq' => ?_, ?_⟩ jobs
    · exact hcounted.rows q' ((Table.mem_delete _).mp hq').1
    · exact hcounted.due.trans (dueBy_setNextRetry (by simp) _ _)
  | @scheduled n now next count left time delay jobs =>
    refine Settled.congr ⟨fun q' hq' => ?_, ?_⟩ jobs
    · rcases NewQueued.upsert_cases ⟨q.buildInputId, Priority.retry, now⟩ (setNextRetry
        (buildInputFriends db q.buildInputId) (some next) (counted q db)) with
        ⟨r, -, -, hqueue⟩ | ⟨-, hqueue⟩ <;> rw [hqueue] at hq'
      · obtain ⟨q₁, hq₁, rfl⟩ := List.mem_map.mp hq'
        rcases hcounted.rows q₁ hq₁ with hnew | ⟨q₀, hq₀, hne, hinput, hworker⟩
        · left
          split <;> exact ⟨by simp [hnew.1], hnew.2⟩
        · right
          refine ⟨q₀, hq₀, hne, ?_⟩
          split
          · rename_i hsame
            exact ⟨hinput.trans (beq_iff_eq.mp hsame), hworker⟩
          · exact ⟨hinput, hworker⟩
      · rcases List.mem_append.mp hq' with hq' | hq'
        · exact hcounted.rows q' hq'
        · rw [List.mem_singleton.mp hq']
          exact .inl ⟨rfl, rfl⟩
    · refine hcounted.due.trans (dueBy_setNextRetry (fun t ht => ?_) _ _)
      rw [← Option.some.inj ht]
      exact hdelay now n next time count left delay

end

/-- The delay of the last retry, without overflow. -/
def longestDelay (c : ScheduleConfig) (m : ℤ) : Time := m * c.retryDelayBaseHours * hour

/-- No delay of a retry overflows. -/
def DelaysFit (c : ScheduleConfig) (m : ℤ) : Prop :=
  0 ≤ c.retryDelayBaseHours ∧ m * c.retryDelayBaseHours < 2 ^ 63 ∧ m < 2 ^ 31

instance (c : ScheduleConfig) (m : ℤ) : Decidable (DelaysFit c m) := inferInstanceAs (Decidable (_ ∧ _))

lemma retryAt_le {c : ScheduleConfig} {m n : ℤ} {now next : Time} (hfit : DelaysFit c m) (hn : 0 ≤ n)
    (hm : n < m) (h : c.retryAt now n = .ok next) : next ≤ now + longestDelay c m := by
  obtain ⟨hbase, hprod, hmax⟩ := hfit
  have hmono : (n + 1) * c.retryDelayBaseHours ≤ m * c.retryDelayBaseHours :=
    mul_le_mul_of_nonneg_right (Int.add_one_le_of_lt hm) hbase
  have hpos : 0 ≤ (n + 1) * c.retryDelayBaseHours := mul_nonneg (by omega) hbase
  have hwrap : wrap 64 (wrap 32 (n + 1) * c.retryDelayBaseHours) =
      (n + 1) * c.retryDelayBaseHours := by
    rw [(wrap_eq_iff 31 _).mpr ⟨by omega, by omega⟩, (wrap_eq_iff 63 _).mpr ⟨by omega, by omega⟩]
  rw [retryAt_of_wrap h hwrap]
  exact Int.add_le_add_left (mul_le_mul_of_nonneg_right hmono (by decide)) _

/-! ### Rounds -/

/-- A round of a worker: when it asks for work, and what it reports on the job it is handed. -/
structure Round where
  ask : ℕ → Time
  report : RebuildReport
  tell : ℕ → Time

def playRound (env : Env) (h : Headers) (r : PopQueuedJobRequest) (db : Db) (x : Round) : Db :=
  let asked := serve (exec env) (handler env.config) db (.requestWork h r, x.ask)
  match asked.1.toOption.bind Response.jobId with
  | some id => served env asked.2 (.submitRebuildReport h { x.report with queueId := id }, x.tell)
  | none => asked.2

/-- The worker asks no earlier than the retries of the jobs it has reported on are due. -/
def Paced (D : Time) : Time → List Round → Prop
  | _, [] => True
  | T, x :: xs => (∀ n, InYears (x.ask n) ∧ T + second ≤ x.ask n) ∧
      ∃ T', T ≤ T' ∧ (∀ n, x.tell n + D ≤ T') ∧ Paced D T' xs

section
variable {env : Env} {h : Headers} {r : PopQueuedJobRequest} {m : ℤ} {T T' : Time} {db : Db} {x : Round}

/-- The jobs are idle again once the one that was taken is settled. -/
lemma Idle.of_settled {q q' : Queued} {d db' : Db} (hidle : Idle r T db) (hle : T ≤ T')
    (htaken : Taken q db d) (hq' : q' ∈ d.queue.rows) (hid : q'.id = q.id)
    (hsettled : Settled q' T' d db') : Idle r T' db' := by
  have hrow : ∀ q' ∈ db'.queue.rows, q'.worker = none ∧
      ∃ q₀ ∈ db.queue.rows, q₀.buildInputId = q'.buildInputId := by
    intro q₂ hq₂
    rcases hsettled.rows q₂ hq₂ with ⟨hinput, hfree⟩ | ⟨q₁, hq₁, hne, hinput, hworker⟩
    · obtain ⟨q₀, hq₀, -, hinput₀, -⟩ := htaken.rows _ hq'
      exact ⟨hfree, q₀, hq₀, hinput₀.trans hinput.symm⟩
    · obtain ⟨q₀, hq₀, -, hinput₀, hself | hfree⟩ := htaken.rows q₁ hq₁
      · exact absurd (hself.trans hid.symm) hne
      · exact ⟨by rw [← hworker, hfree], q₀, hq₀, hinput₀.trans hinput⟩
  refine ⟨fun q' hq' => .inl (hrow q' hq').1, fun q' hq' b' hb' hid => ?_, fun q' hq' b' hb' hid next hnext => ?_⟩
  all_goals
    obtain ⟨q₀, hq₀, hinput⟩ := (hrow q' hq').2
    obtain ⟨b, hb, hsame, hdue⟩ := hsettled.due b' hb'
    rw [htaken.inputs] at hb
    simp only [BuildInput.identity, BuildInput.group, Prod.mk.injEq, Group.mk.injEq] at hsame
    obtain ⟨hid', -, -, hbackend, harch⟩ := hsame
  · have hsup := hidle.supported q₀ hq₀ b hb (hid'.trans (hid.trans hinput.symm))
    unfold supports at hsup ⊢
    rwa [← hbackend, ← harch]
  · rcases hdue next hnext with hold | hnew
    · exact (hidle.due q₀ hq₀ b hb (hid'.trans (hid.trans hinput.symm)) next hold).trans hle
    · exact hnew

/-- The report on a job of the queue settles it, and there is less work left. -/
lemma served_settles {r : RebuildReport} {t : ℕ → Time} {q : Queued}
    (hm : env.config.schedule.maxRetries = some m) (hfit : DelaysFit env.config.schedule m)
    (hdb : Reachable env db) (hadm : Handler.admits env.config h db = true) (hq : q ∈ db.queue.rows)
    (hid : q.id = r.queueId) (ht : ∀ n, t n + longestDelay env.config.schedule m ≤ T) :
    Settled q T db (served env db (.submitRebuildReport h r, t)) ∧
      workLeft m (served env db (.submitRebuildReport h r, t)) + 1 ≤ workLeft m db := by
  obtain ⟨hok, herr⟩ := served_rebuildReport_jobs env db h r
    (P := fun now => now + longestDelay env.config.schedule m ≤ T) ht
  obtain ⟨hok', herr'⟩ := run_of_wp_in (P := fun _ => True) (t := t)
    (wp_submitRebuildReport_admitted (reachable_fresh hdb) hadm hq hid) fun _ => trivial
  have hpos := triesLeft_pos m db q.buildInputId
  unfold served
  rcases hres : (serve (exec env) (handler env.config) db (.submitRebuildReport h r, t)).1 with e | a
  · rcases herr e hres with hsame | ⟨q₂, hq₂, hid₂, -, hsame⟩
    · have hgone := (herr' e hres).2 q (hsame.queue ▸ hq)
      exact absurd rfl hgone
    · obtain rfl := Table.eq_of_key hq₂ hq (hid₂.trans hid.symm)
      have hcounted := workLeft_counted m hq
      rw [hsame.workLeft]
      exact ⟨(settled_counted T q₂ db).congr hsame, by omega⟩
  · rcases hok a hres with ⟨rfl, -⟩ | ⟨-, q₂, hq₂, hid₂, hdone⟩
    · cases hok' _ hres
    · obtain rfl := Table.eq_of_key hq₂ hq (hid₂.trans hid.symm)
      obtain ⟨s, g, hin⟩ := reachable_queueInput hdb q₂ hq
      rcases hdone with ⟨-, hsame⟩ | ⟨-, hretried⟩
      · have hdeleted := workLeft_deleteQueued m hq
        rw [hsame.workLeft]
        exact ⟨(settled_deleted T q₂ db).congr hsame, by omega⟩
      · refine ⟨hretried.settled fun now n next hnow hn hleft hnext => ?_, ?_⟩
        · -- The tries that were counted before are not negative.
          obtain ⟨k, hk, hbefore⟩ := largestRetryCount_counted hin hn
          obtain ⟨⟨b, hb, rfl⟩, -⟩ := largestRetryCount_ok hin hbefore
          have hnonneg : 0 ≤ b.retries := reachable_nonneg hdb (b.identity, b.retries)
            (List.mem_map.mpr ⟨b, (mem_members.mp hb).1, rfl⟩)
          have hmore : n < m := by simpa [ScheduleConfig.retriesExhausted, hm] using hleft
          exact (retryAt_le hfit (hnonneg.trans hk.le) hmore hnext).trans hnow
        · rw [Nat.add_comm]
          exact hretried.workLeft hm hq ⟨s, g, hin⟩

/-- **A round takes work away**: it leaves less in the queue, and again nothing but idle jobs. -/
lemma playRound_lowers (hm : env.config.schedule.maxRetries = some m)
    (hfit : DelaysFit env.config.schedule m) (hdb : Reachable env db)
    (hadm : Handler.admits env.config h db = true) (hidle : Idle r T db)
    (hask : ∀ n, InYears (x.ask n) ∧ T + second ≤ x.ask n) (hle : T ≤ T')
    (htell : ∀ n, x.tell n + longestDelay env.config.schedule m ≤ T') :
    Idle r T' (playRound env h r db x) ∧ workLeft m (playRound env h r db x) ≤ workLeft m db - 1 := by
  have hasked : workLeft m (served env db (.requestWork h r, x.ask)) ≤ workLeft m db :=
    (Nat.zero_add _).symm.trans_le (workLeft_served hm hdb (c := (.requestWork h r, x.ask)) rfl)
  have hreach := hdb.served (.requestWork h r, x.ask)
  by_cases hempty : db.queue.rows = []
  · have hzero : workLeft m db = 0 := by rw [workLeft, Table.weight, hempty]; rfl
    have hrest : workLeft m (playRound env h r db x) ≤ 0 := by
      unfold playRound
      dsimp only
      split
      · exact (Nat.le_add_left _ _).trans ((workLeft_served hm hreach
          (c := (.submitRebuildReport h _, x.tell)) rfl).trans (hasked.trans hzero.le))
      · exact hasked.trans hzero.le
    have hnone := queue_of_workLeft_eq_zero (Nat.le_zero.mp hrest)
    refine ⟨⟨?_, ?_, ?_⟩, hrest.trans (Nat.zero_le _)⟩ <;> rw [hnone] <;> simp
  · obtain ⟨hok, herr⟩ := run_of_wp_in (P := fun t => InYears t ∧ T + second ≤ t)
      (wp_requestWork_idle hdb hadm hidle hempty fun _ h => h) hask
    rcases hres : ((Handler.requestWork env.config h r).run (exec env) x.ask db).1 with e | a
    · exact (herr e hres).elim
    · obtain ⟨q, hq, job, rfl, hid, htaken⟩ := hok a hres
      have hround : playRound env h r db x = served env (served env db (.requestWork h r, x.ask))
          (.submitRebuildReport h { x.report with queueId := job.job.id }, x.tell) := by
        unfold playRound
        dsimp only
        rw [show (serve (exec env) (handler env.config) db (.requestWork h r, x.ask)).1 =
          .ok (.assignment (some job)) from hres]
        rfl
      obtain ⟨q', hq', hid'⟩ := htaken.there
      obtain ⟨hsettled, hless⟩ := served_settles (r := { x.report with queueId := job.job.id })
        hm hfit hreach (admits_served hadm _) hq' (hid'.trans hid.symm) htell
      rw [hround]
      exact ⟨hidle.of_settled hle htaken hq' hid' hsettled, by omega⟩

end

/-- **The queue drains**: a worker that supports every job of the queue, that works alone and asks no
earlier than leases have run out and retries are due, is done after as many rounds as there is work. -/
theorem queue_drains (env : Env) (m : ℤ) (db : Db) (h : Headers) (r : PopQueuedJobRequest) (T : Time)
    (xs : List Round) (hm : env.config.schedule.maxRetries = some m)
    (hfit : DelaysFit env.config.schedule m) (hdb : Reachable env db)
    (hadm : Handler.admits env.config h db = true) (hidle : Idle r T db)
    (hpaced : Paced (longestDelay env.config.schedule m) T xs) (hlen : workLeft m db ≤ xs.length) :
    (xs.foldl (playRound env h r) db).queue.rows = [] := by
  refine queue_of_workLeft_eq_zero (m := m) ?_
  induction xs generalizing db T with
  | nil => exact Nat.le_zero.mp hlen
  | cons x xs ih =>
    obtain ⟨hask, T', hle, htell, hrest⟩ := hpaced
    obtain ⟨hidle', hless⟩ := playRound_lowers (x := x) hm hfit hdb hadm hidle hask hle htell
    rw [List.length_cons] at hlen
    refine ih _ T' ?_ ?_ hidle' hrest (by omega)
    · unfold playRound
      dsimp only
      split
      · exact (hdb.served _).served _
      · exact hdb.served _
    · unfold playRound
      dsimp only
      split
      · exact admits_served (admits_served hadm _) _
      · exact admits_served hadm _

/-- Both tries of the one job fail. -/
def twoBadRounds : List Round :=
  [⟨fun _ => 1000 * second, ⟨0, 0, [], .bad, []⟩, fun _ => 1000 * second⟩,
    ⟨fun _ => 200000 * second, ⟨0, 0, [], .bad, []⟩, fun _ => 200000 * second⟩]

/-- `bob` was handed the job at 100 s and is not heard of again. -/
theorem queue_drains_twoBadRounds :
    (twoBadRounds.foldl (playRound (openDaemon (some 2)) (workerHeaders "alice")
      ⟨["debian"], "amd64", ["amd64"]⟩) ((atOnce [helloReport "a" "amd64"] ++
        [(Call.requestWork (workerHeaders "bob") ⟨["debian"], "amd64", ["amd64"]⟩,
          fun _ => 100 * second)]).foldl
        (served (openDaemon (some 2))) (openDaemon (some 2)).start)).queue.rows = [] := by
  refine queue_drains (openDaemon (some 2)) 2 _ _ _ (640 * second) twoBadRounds rfl (by decide)
    (reachable_of_runs (Runs.of_forall fun _ _ => trivial)) rfl (by decide +kernel) ?_
    (by decide +kernel)
  have hask₁ : InYears (1000 * second) ∧ 640 * second + second ≤ 1000 * second := by decide
  have htell₁ : 1000 * second + longestDelay (openDaemon (some 2)).config.schedule 2 ≤
    173801 * second := by decide
  have hask₂ : InYears (200000 * second) ∧ 173801 * second + second ≤ 200000 * second := by decide
  have htell₂ : 200000 * second + longestDelay (openDaemon (some 2)).config.schedule 2 ≤
    372800 * second := by decide
  exact ⟨fun _ => hask₁, _, by decide, fun _ => htell₁, fun _ => hask₂, _, by decide, fun _ => htell₂,
    trivial⟩

end Rebuilderd.Daemon
