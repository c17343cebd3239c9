import Rebuilderd.Daemon.Waiting

/-!
Back-off: once a retry is scheduled for a group of friends, no job of the group is handed out
before.

A member that is imported after the report has a next retry of its own, or none. If the job of the
group is dropped meanwhile, its import enqueues that member, and it can be handed out at once.
-/

namespace Rebuilderd.Daemon

open Rebuilderd.Lib Rebuilderd.Common Prog

/-! ### Calls for work -/

lemma keepsInputs_of_justified {c : Call} (hc : c.keepsRecords = true) (own : OwnSteps) (i : Time)
    (s : Stmt) (h : justified c own i s) : s.keepsInputs = true := by
  cases s with
  | incrementRetries ids =>
    obtain ⟨q, hd, r, rfl, -⟩ := h
    cases hc
  | setNextRetry ids next =>
    rcases h with ⟨q, hd, r, rfl, -⟩ | ⟨hd, r, rfl⟩ <;> cases hc
  | commitPackageReport now r =>
    obtain ⟨⟨hd, rfl⟩, -⟩ := h
    cases hc
  | _ => rfl

lemma served_buildInputs (env : Env) (db : Db) {c : Call} (hc : c.keepsRecords = true)
    (t : ℕ → Time) : (served env db (c, t)).buildInputs = db.buildInputs :=
  run_of_journal (handler_justified env.config c) (I := fun d : Db => d.buildInputs = db.buildInputs)
    (fun own i s d hs hd =>
      (exec_buildInputs env i (keepsInputs_of_justified hc own i s hs) d).trans hd) t rfl

lemma due_of_available {r : PopQueuedJobRequest} {t due : Time} {db : Db} {q : Queued}
    {b : BuildInput} {s : SourcePackage} (h : (q, b, s) ∈ availableJobs r t db)
    (hdue : b.nextRetry = some due) : due ≤ t := by
  obtain ⟨-, hok⟩ := List.mem_filter.mp h
  simp only [hdue, Option.all_some, Bool.and_eq_true, decide_eq_true_eq] at hok
  exact hok.1.1.2.trans (Int.ediv_mul_le t (by decide))

/-- The job that is handed out is of a build input that is due. -/
lemma wp_requestWork_due {env : Env} {P : Time → Prop} (db : Db) (h : Headers)
    (r : PopQueuedJobRequest) :
    wp ((exec env).rulesIn P) (Handler.requestWork env.config h r)
      (fun _ a => ∀ job, a = .assignment (some job) → ∃ now, P now ∧ ∃ q ∈ db.queue.rows,
        q.id = job.job.id ∧ ∃ b ∈ db.buildInputs.rows, b.id = q.buildInputId ∧
          ∀ due, b.nextRetry = some due → due ≤ now) (fun _ _ => True) db := by
  have hworker : Only (fun s : Stmt => s.keepsJobs = true) (Handler.worker env.config h) :=
    (only_worker env.config h).mono fun s hs => by cases s <;> first | rfl | cases hs
  refine (wp_bind _ _).mpr ((wp_attempt _).mpr (wp_mono (keepsJobs_of_only hworker db db (.refl db))
    (fun d w hd => ?_) fun _ _ _ => nofun))
  refine (wp_bind _ _).mpr (wp_stmt_in (fun i now y _ hE => ?_) fun i e _ hE => trivial)
  cases hE
  refine (wp_bind _ _).mpr ((wp_lift _).mpr ⟨fun cutoff _ => ?_, fun _ _ => trivial⟩)
  refine (wp_bind _ _).mpr (wp_stmt_in (fun i u y _ hE => ?_) fun i e _ hE => trivial)
  cases hE
  refine (wp_bind _ _).mpr (wp_stmt_in (fun i job y hi hE => ?_) fun i e _ hE => trivial)
  rintro job' hjob
  cases hjob
  rcases popJob_cases env.ties w r i (clearStale cutoff d) with ⟨⟨q, b, s⟩, hrow, hpop⟩ | hpop
  · have hout : popJob env.ties w r i (clearStale cutoff d) = (some job', y) := Except.ok.inj hE
    rw [hpop] at hout
    cases hout
    obtain ⟨hq, -, hb, hbid⟩ := mem_availableJobs hrow
    obtain ⟨q₀, hq₀, hid, hinput⟩ := (exec_oldRow env i (s := .clearStale cutoff) rfl d).2 q hq
    rw [hd.queue] at hq₀
    exact ⟨i, hi, q₀, hq₀, hid, b, hd.buildInputs ▸ hb, hbid.trans hinput.symm,
      fun due hdue => due_of_available hrow hdue⟩
  · have hout : popJob env.ties w r i (clearStale cutoff d) = (some job', y) := Except.ok.inj hE
    rw [hpop] at hout
    cases hout

def Response.jobId : Response → Option ℕ
  | .assignment (some job) => some job.job.id
  | _ => none

/-- A call for work hands out a job of the group. -/
def HandsOut (env : Env) (db : Db) (c : Request) (g : Group) : Prop :=
  (∃ h r, c.1 = .requestWork h r) ∧ ∃ q ∈ db.queue.rows,
    (serve (exec env) (handler env.config) db c).1.toOption.bind Response.jobId = some q.id ∧
      ∃ b ∈ members g db, b.id = q.buildInputId

lemma toOption_eq_some {α : Type} {x : Except Err α} {a : α} (h : x.toOption = some a) : x = .ok a := by
  rcases x with e | b
  · cases h
  · exact congrArg _ (Option.some.inj h)

lemma Response.jobId_eq_some {a : Response} {id : ℕ} (h : a.jobId = some id) :
    ∃ job, a = .assignment (some job) ∧ job.job.id = id := by
  unfold Response.jobId at h
  split at h
  · exact ⟨_, rfl, Option.some.inj h⟩
  · cases h

/-! ### Serving requests -/

/-- At `now` the clock is in the years 0 to 9999, and so are the next retry that a rebuild report
schedules and the first try that a package report delays. -/
def datesInYears (c : ScheduleConfig) (db : Db) (call : Call) (now : Time) : Bool :=
  decide (InYears now) && match call with
    | .submitRebuildReport _ r => r.status == .good || db.queue.rows.all fun q => q.id != r.queueId ||
        (getLargestRetryCountAmongFriends (counted q db) q.buildInputId).toOption.all fun n =>
          c.retriesExhausted n || decide (InYears (now + (n + 1) * c.retryDelayBaseHours * hour))
    | .submitPackageReport _ _ => (c.firstTry now).toOption.join.all fun first => decide (InYears first)
    | _ => true

/-- A package report enqueues nothing that is due before the next retry of its group. -/
def enqueuesNothingEarly (env : Env) (db : Db) : Request → Bool
  | (.submitPackageReport h r, t) => !Handler.admin env.config h ||
      (commitPackageReport env.config.schedule env.ties (t 0) r db).toOption.isNone ||
      importsInTime env.config.schedule env.ties (t 0) r (markScopedPackagesUnseen r db) r.packages
  | _ => true

section
variable {env : Env} {g : Group} {start T : Time} {db : Db} {t : ℕ → Time}

lemma Waits.sameJobs {c : ScheduleConfig} {db' : Db} (h : Waits c g start T db)
    (hs : SameJobs db db') : Waits c g start T db' :=
  h.congr (members_congr hs.buildInputs g) fun q hq _ _ _ => ⟨q, hs.queue ▸ hq, rfl⟩

/-- What a report schedules is the delay after the time at which it is served. -/
lemma retryAt_of_datesInYears {c : ScheduleConfig} {h : Headers} {r : RebuildReport} {q : Queued}
    {now next : Time} {n : ℤ} (hdates : datesInYears c db (.submitRebuildReport h r) now = true)
    (hbad : r.status ≠ .good) (hq : q ∈ db.queue.rows) (hid : q.id = r.queueId)
    (hleft : c.retriesExhausted n = false)
    (hn : getLargestRetryCountAmongFriends (counted q db) q.buildInputId = .ok n)
    (hnext : c.retryAt now n = .ok next) : next = now + (n + 1) * c.retryDelayBaseHours * hour := by
  obtain ⟨hnow, hreport⟩ := Bool.and_eq_true_iff.mp hdates
  simp only [Bool.or_eq_true, beq_iff_eq, hbad, false_or, List.all_eq_true] at hreport
  have hyears := hreport q hq
  simp only [hid, bne_self_eq_false, Bool.false_eq_true, hn, Except.toOption, Option.all_some, hleft,
    Bool.false_or, decide_eq_true_eq, false_or] at hyears
  exact retryAt_eq hnext (of_decide_eq_true hnow) hyears

lemma Waits.report (h : Waits env.config.schedule g start T db) (hT : start < T)
    (hl : Limited env.config.schedule db) (ht : ∀ n, start ≤ t n) {hd : Headers} {r : RebuildReport}
    (hdates : ∀ n, datesInYears env.config.schedule db (.submitRebuildReport hd r) (t n) = true) :
    Waits env.config.schedule g start T (served env db (.submitRebuildReport hd r, t)) := by
  obtain ⟨hok, herr⟩ := served_rebuildReport_jobs env db hd r (t := t) (P := fun x => ∃ n, t n = x)
    fun n => ⟨n, rfl⟩
  change Waits _ _ _ _ (serve (exec env) (handler env.config) db (.submitRebuildReport hd r, t)).2
  rcases hres : (serve (exec env) (handler env.config) db (.submitRebuildReport hd r, t)).1 with e | a
  · rcases herr e hres with hsame | ⟨q, hq, hid, hbad, hsame⟩
    · exact h.sameJobs hsame
    · obtain ⟨s, g', hi⟩ := hl.hasInput q hq
      exact (h.count hT hi).sameJobs hsame
  · rcases hok a hres with ⟨-, hsame⟩ | ⟨-, q, hq, hid, ⟨-, hsame⟩ | ⟨hbad, hretried⟩⟩
    · exact h.sameJobs hsame
    · have hdone : Waits env.config.schedule g start T (deleteQueued [q.id] db).2 :=
        h.congr rfl fun q' hq' _ _ _ => ⟨q', ((Table.mem_delete _).mp hq').1, rfl⟩
      exact hdone.sameJobs hsame
    · obtain ⟨s, g', hi⟩ := hl.hasInput q hq
      refine h.retried hT hi hretried ?_
      rintro _ next n ⟨m, rfl⟩ hleft hn hnext
      exact ⟨ht m, retryAt_of_datesInYears (hdates m) hbad hq hid hleft hn hnext⟩

/-- A request that is served before `T` lets the group go on waiting. -/
lemma Waits.served (h : Waits env.config.schedule g start T db) (hT : start < T)
    (hl : Limited env.config.schedule db) {c : Call} (ht : ∀ n, start ≤ t n ∧ t n < T)
    (hc : c.requeuesNothing = true) (hdates : ∀ n, datesInYears env.config.schedule db c (t n) = true)
    (hearly : enqueuesNothingEarly env db (c, t) = true) :
    Waits env.config.schedule g start T (served env db (c, t)) := by
  have hroutine (hkeeps : c.keepsRecords = true) :
      Waits env.config.schedule g start T (Daemon.served env db (c, t)) := by
    refine h.congr (members_congr (served_buildInputs env db hkeeps t) g) fun q' hq' _ _ _ => ?_
    obtain ⟨q, hq, -, hinput⟩ := (served_harmless env db hkeeps t).rows q' hq'
    exact ⟨q, hq, hinput⟩
  cases c with
  | submitPackageReport hd r =>
    rcases served_packageReport env db hd r t with hsame | hok
    · rw [hsame]
      exact h
    · rcases hadmin : Handler.admin env.config hd with _ | _
      · have hsame : Daemon.served env db (.submitPackageReport hd r, t) = db := by
          simp [Daemon.served, serve, handler, Handler.submitPackageReport, hadmin]
        rw [hsame]
        exact h
      · simp only [enqueuesNothingEarly, hadmin, hok, Except.toOption, Bool.not_true, Bool.false_or,
          Option.isNone_some] at hearly
        exact h.commit hl (ht 0).2 hearly hok
  | submitRebuildReport hd r => exact h.report hT hl (fun n => (ht n).1) hdates
  | requestRebuild => cases hc
  | requestWork | pingJob | dropQueuedJobs | dropQueuedJob => exact hroutine rfl

/-- As long as the group waits, no job of it is handed out. -/
lemma Waits.not_handsOut {c : ScheduleConfig} (h : Waits c g start T db) {request : Request}
    (ht : ∀ n, request.2 n < T) : ¬ HandsOut env db request g := by
  rintro ⟨⟨hd, r, hcall⟩, q, hq, hans, b, hb, hinput⟩
  obtain ⟨call, t⟩ := request
  subst hcall
  obtain ⟨a, ha, hid⟩ := Option.bind_eq_some_iff.mp hans
  obtain ⟨job, rfl, hjobId⟩ := Response.jobId_eq_some hid
  have hjob := toOption_eq_some ha
  have hwp := @wp_requestWork_due env (· < T) db hd r
  obtain ⟨now, hnow, q', hq', hid', b', hb', hinput', hdue⟩ := (run_of_wp_in hwp ht).1 _ hjob job rfl
  obtain rfl := Table.eq_of_key hq hq' (hjobId.symm.trans hid'.symm)
  obtain rfl := Table.eq_of_key (mem_members.mp hb).1 hb' (hinput.trans hinput'.symm)
  obtain ⟨due, hnext, hT⟩ := h.rows q hq b hb hinput
  exact absurd (hT.trans (hdue due hnext)) (not_le.mpr hnow)

/-- The report schedules the next retry of the group for `T`. -/
def Schedules (env : Env) (db : Db) (report : Request) (g : Group) (T : Time) : Prop :=
  ∃ h r, report.1 = .submitRebuildReport h r ∧ r.status ≠ .good ∧
    (serve (exec env) (handler env.config) db report).1 = .ok .noContent ∧
    (∃ q ∈ db.queue.rows, q.id = r.queueId ∧ ∃ b ∈ members g db, b.id = q.buildInputId) ∧
    ∃ b ∈ members g (Daemon.served env db report), b.nextRetry = some T

/-- From the time at which it is scheduled, the group waits for its next retry. -/
lemma waits_of_schedules {report : Request} (h : Schedules env db report g T)
    (hl : Limited env.config.schedule db)
    (hdates : ∀ n, datesInYears env.config.schedule db report.1 (report.2 n) = true) :
    ∃ n, Waits env.config.schedule g (report.2 n) T (Daemon.served env db report) := by
  obtain ⟨hd, r, hcall, hbad, hans, ⟨q, hq, hid, b, hb, hinput⟩, b', hb', hnext⟩ := h
  obtain ⟨call, t⟩ := report
  subst hcall
  obtain ⟨hstored, rfl⟩ := mem_members.mp hb
  have hi : (q.buildInputId, b.sourcePackageId, b.group) ∈ db.inputs :=
    mem_inputs.mpr ⟨b, hstored, hinput, rfl, rfl⟩
  have hi' : (q.buildInputId, b.sourcePackageId, b.group) ∈ (counted q db).inputs :=
    (inputs_counted q db).symm ▸ hi
  rcases (served_rebuildReport_jobs env db hd r (t := t) (P := fun x => ∃ n, t n = x)
    fun n => ⟨n, rfl⟩).1 _ hans with ⟨hno, -⟩ | ⟨-, q', hq', hid', ⟨hgood, -⟩ | ⟨-, hretried⟩⟩
  · cases hno
  · exact absurd hgood hbad
  · obtain rfl := Table.eq_of_key hq hq' (hid.trans hid'.symm)
    cases hretried with
    | givenUp count exhausted jobs =>
      have hmembers := (members_congr jobs.buildInputs b.group).trans
        (members_setNextRetry hi' none b.group)
      rw [if_pos rfl] at hmembers
      change b' ∈ members b.group (serve _ _ _ _).2 at hb'
      rw [hmembers] at hb'
      obtain ⟨a, -, rfl⟩ := List.mem_map.mp hb'
      cases hnext
    | @scheduled n now next count left time delay jobs =>
      obtain ⟨m, rfl⟩ := time
      have heq := retryAt_of_datesInYears (hdates m) hbad hq hid left count delay
      have hfriends : buildInputFriends db q.buildInputId =
          buildInputFriends (counted q db) q.buildInputId :=
        (buildInputFriends_of_inputs (inputs_counted q db) _).symm
      have hinputs := jobs.buildInputs
      rw [hfriends] at hinputs
      have hmembers := (members_congr hinputs b.group).trans
        (members_setNextRetry hi' (some next) b.group)
      rw [if_pos rfl] at hmembers
      change b' ∈ members b.group (serve _ _ _ _).2 at hb'
      rw [hmembers] at hb'
      obtain ⟨a, -, rfl⟩ := List.mem_map.mp hb'
      obtain rfl : next = T := Option.some.inj hnext
      -- The try that was just counted makes the largest count positive.
      have hpos : 0 < n := by
        obtain ⟨-, hmax⟩ := largestRetryCount_ok hi' count
        refine lt_of_lt_of_le ?_ (hmax { b with retries := b.retries + 1 } ?_)
        · exact Int.lt_add_one_of_le (hl.nonneg _ (List.mem_map.mpr ⟨b, hstored, rfl⟩))
        · rw [members_counted hi, if_pos rfl]
          exact List.mem_map.mpr ⟨b, hb, rfl⟩
      exact ⟨m, waits_of_schedule hi' count hpos le_rfl heq.le hinputs⟩

/-- Requests that are served before `T` let the group go on waiting. -/
lemma Waits.run {cs : List Request} (h : Waits env.config.schedule g start T db) (hT : start < T)
    (hdb : Runs (Daemon.served env) (fun _ c => c.1.requeuesNothing = true) env.start db)
    (ht : ∀ c ∈ cs, ∀ n, start ≤ c.2 n ∧ c.2 n < T) (hcalls : ∀ c ∈ cs, c.1.requeuesNothing = true)
    (hdates : Along (Daemon.served env) (fun db c =>
      ∀ n, datesInYears env.config.schedule db c.1 (c.2 n) = true) db cs)
    (hearly : Along (Daemon.served env) (fun db c => enqueuesNothingEarly env db c = true) db cs) :
    Waits env.config.schedule g start T (cs.foldl (Daemon.served env) db) := by
  induction cs generalizing db with
  | nil => exact h
  | cons c cs ih =>
    have hc := hcalls c List.mem_cons_self
    exact ih (h.served hT (limited_of_runs hdb) (ht c List.mem_cons_self) hc hdates.1 hearly.1)
      (hdb.next hc) (fun c' h' => ht c' (List.mem_cons_of_mem _ h'))
      (fun c' h' => hcalls c' (List.mem_cons_of_mem _ h')) hdates.2 hearly.2

end

/-! ### Runs -/

/-- No statement executes before one of an earlier request. -/
def ClockForward (rs : List Request) : Prop := rs.Pairwise fun c c' => ∀ n m, c.2 n ≤ c'.2 m

/-- After a report schedules a retry of a group for `T`, no call for work before `T` hands out a job
of the group. -/
def BacksOff (env : Env) (rs : List Request) : Prop :=
  ∀ before report between call after g T, rs = before ++ report :: (between ++ call :: after) →
    Schedules env (before.foldl (served env) env.start) report g T → (∀ n, call.2 n < T) →
      ¬ HandsOut env ((before ++ report :: between).foldl (served env) env.start) call g

/-- **Back-off holds as long as no import enqueues a member of a waiting group that is due
earlier.** -/
theorem backsOff (env : Env) (rs : List Request) (hclock : ClockForward rs)
    (hcalls : ∀ c ∈ rs, c.1.requeuesNothing = true)
    (hdates : Along (served env) (fun db c =>
      ∀ n, datesInYears env.config.schedule db c.1 (c.2 n) = true) env.start rs)
    (hearly : Along (served env) (fun db c => enqueuesNothingEarly env db c = true) env.start rs) :
    BacksOff env rs := by
  rintro before report between call after g T rfl hsched hcall hout
  obtain ⟨-, hdates, hdates'⟩ := Along.append.mp hdates
  obtain ⟨-, -, hearly⟩ := Along.append.mp hearly
  obtain ⟨-, hclock', -⟩ := List.pairwise_append.mp hclock
  obtain ⟨hfirst, hrest⟩ := List.pairwise_cons.mp hclock'
  have hruns {cs : List Request} (h : ∀ c ∈ cs, c ∈ before ++ report :: (between ++ call :: after)) :
      Runs (served env) (fun _ c => c.1.requeuesNothing = true) env.start
        (cs.foldl (served env) env.start) :=
    Runs.of_forall fun c hc => hcalls c (h c hc)
  have hstart := @hruns before fun c hc => List.mem_append_left _ hc
  obtain ⟨n, hwaits⟩ := waits_of_schedules hsched (limited_of_runs hstart) hdates
  have hT : report.2 n < T := (hfirst call (by simp) n 0).trans_lt (hcall 0)
  rw [List.foldl_append, List.foldl_cons] at hout
  refine (hwaits.run hT ?_ (fun c hc m => ⟨hfirst c (by simp [hc]) n m, ?_⟩) (fun c hc => ?_)
    (Along.append.mp hdates').1 (Along.append.mp hearly).1).not_handsOut hcall hout
  · exact hstart.next (hcalls report (by simp))
  · exact ((List.pairwise_append.mp hrest).2.2 c hc call (by simp) m 0).trans_lt (hcall 0)
  · exact hcalls c (by simp [hc])

/-- `hello` fails, its retry is dropped, and it is imported for a second release, whose job is handed
out at once. -/
def retryDropped (second : String) : List Request :=
  atOnce [helloReport "a" "amd64",
    .requestWork (workerHeaders "alice") ⟨["debian"], "amd64", ["amd64"]⟩, reportBy "alice" .bad,
    .dropQueuedJob adminHeaders 2, helloReport second "amd64",
    .requestWork (workerHeaders "alice") ⟨["debian"], "amd64", ["amd64"]⟩]

lemma clockForward_atOnce (cs : List Call) : ClockForward (atOnce cs) :=
  List.pairwise_map.mpr (List.pairwise_of_forall fun _ _ _ _ => le_rfl)

lemma datesInYears_atOnce {env : Env} {cs : List Call} (h : Runs.allowed (served env)
      (fun db c => datesInYears env.config.schedule db c.1 0) env.start (atOnce cs) = true) :
    Along (served env) (fun db c => ∀ n, datesInYears env.config.schedule db c.1 (c.2 n) = true)
      env.start (atOnce cs) := by
  refine Along.of_allowed h fun c hc db hdb n => ?_
  obtain ⟨call, -, rfl⟩ := List.mem_map.mp hc
  exact hdb

theorem backsOff_sameRelease : BacksOff (openDaemon none) (retryDropped "a") :=
  backsOff (openDaemon none) (retryDropped "a") (clockForward_atOnce _) (by decide +kernel)
    (datesInYears_atOnce (by decide +kernel))
    (@Along.of_allowed _ _ _ (enqueuesNothingEarly (openDaemon none)) _ _ _ (by decide +kernel)
      fun _ _ _ h => h)

/-- **A member that is imported later does not wait**, if the job of its group has been dropped. -/
theorem retryDropped_handsOut : ¬ ∀ env rs, ClockForward rs → (∀ c ∈ rs, c.1.requeuesNothing = true) →
    Along (served env) (fun db c =>
      ∀ n, datesInYears env.config.schedule db c.1 (c.2 n) = true) env.start rs → BacksOff env rs := by
  intro h
  refine h (openDaemon none) (retryDropped "b") (clockForward_atOnce _) (by decide +kernel)
    (datesInYears_atOnce (by decide +kernel)) ((retryDropped "b").take 2)
    (reportBy "alice" .bad, fun _ => 0) (((retryDropped "b").drop 3).take 2)
    (.requestWork (workerHeaders "alice") ⟨["debian"], "amd64", ["amd64"]⟩, fun _ => 0) []
    ⟨"https://hello", "debian", "amd64"⟩ (48 * hour) rfl ⟨_, _, rfl, ?_⟩ (fun _ => ?_)
    ⟨⟨_, _, rfl⟩, ?_⟩
  · decide +kernel
  · change (0 : ℤ) < 48 * hour
    decide
  · decide +kernel

end Rebuilderd.Daemon
