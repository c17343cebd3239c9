import Rebuilderd.Daemon.NewRebuilds
import Rebuilderd.Daemon.Waiting

/-!
The arithmetic on the configured delays.

A rebuild report computes the next retry once its job is deleted. A delay that is no duration, or
that leads to no date, ends the request there, and nothing is queued again.
-/

namespace Rebuilderd.Daemon

open Rebuilderd.Lib Rebuilderd.Common Prog

/-! ### Delays that can be computed -/

def IsDate (t : Time) : Prop := minUtc ≤ t ∧ t ≤ maxUtc

/-- So many seconds are a duration, which has the milliseconds of an `i64`. -/
def IsDuration (s : ℤ) : Prop := |s * 1000| ≤ 2 ^ 63 - 1

/-- The tries are those of an `i32`, the delay is a duration, and after it comes a date. -/
structure RetryFits (c : ScheduleConfig) (now : Time) (n : ℤ) : Prop where
  tries : -2 ^ 31 ≤ n + 1 ∧ n + 1 < 2 ^ 31
  delay : IsDuration ((n + 1) * c.retryDelayBaseHours * 3600)
  next : IsDate (now + (n + 1) * c.retryDelayBaseHours * hour)

/-- No operation of the retry delay panics or wraps around. -/
structure RetryExact (c : ScheduleConfig) (now : Time) (n : ℤ) : Prop where
  tries : wrap 32 (n + 1) = n + 1
  hours : wrap 64 ((n + 1) * c.retryDelayBaseHours) = (n + 1) * c.retryDelayBaseHours
  next : c.retryAt now n = .ok (now + (n + 1) * c.retryDelayBaseHours * hour)

def initialDelaySeconds (c : ScheduleConfig) : ℤ := c.initialDelay.getD defaultInitialDelay

/-- The delay is a duration, and after it comes a date unless there is none. -/
structure FirstTryFits (c : ScheduleConfig) (now : Time) : Prop where
  delay : IsDuration (initialDelaySeconds c)
  first : initialDelaySeconds c ≠ 0 → IsDate (now + initialDelaySeconds c * second)

/-- No operation of the initial delay panics. -/
def FirstTryExact (c : ScheduleConfig) (now : Time) : Prop :=
  c.firstTry now = .ok (if initialDelaySeconds c = 0 then none
    else some (now + initialDelaySeconds c * second))

section
variable {c : ScheduleConfig} {now : Time} {n : ℤ}

lemma durationSeconds_ok_iff {s : ℤ} {d : Time} :
    durationSeconds s = .ok d ↔ IsDuration s ∧ d = s * second := by
  unfold durationSeconds IsDuration
  split
  · rename_i h
    exact ⟨fun hok => ⟨h, (Except.ok.inj hok).symm⟩, fun hd => congrArg _ hd.2.symm⟩
  · rename_i h
    exact ⟨fun hok => (by cases hok), fun hd => absurd hd.1 h⟩

lemma addDuration_ok_iff {t d u : Time} : addDuration t d = .ok u ↔ IsDate (t + d) ∧ u = t + d := by
  unfold addDuration IsDate
  split
  · rename_i h
    exact ⟨fun hok => ⟨h, (Except.ok.inj hok).symm⟩, fun hd => congrArg _ hd.2.symm⟩
  · rename_i h
    exact ⟨fun hok => (by cases hok), fun hd => absurd hd.1 h⟩

/-- Without wrapping around, the next retry is computed exactly if delay and date can be. -/
lemma retryAt_ok_iff {next : Time} (hhours : wrap 64 (wrap 32 (n + 1) * c.retryDelayBaseHours) =
    (n + 1) * c.retryDelayBaseHours) : c.retryAt now n = .ok next ↔
      IsDuration ((n + 1) * c.retryDelayBaseHours * 3600) ∧
        IsDate (now + (n + 1) * c.retryDelayBaseHours * hour) ∧
          next = now + (n + 1) * c.retryDelayBaseHours * hour := by
  have hhour : (n + 1) * c.retryDelayBaseHours * 3600 * second =
      (n + 1) * c.retryDelayBaseHours * hour := by rw [hour, mul_assoc _ 3600]
  unfold ScheduleConfig.retryAt durationHours
  rw [hhours, ← hhour]
  rcases hd : durationSeconds ((n + 1) * c.retryDelayBaseHours * 3600) with e | d
  · refine ⟨fun h => (by cases h), fun h => ?_⟩
    rw [durationSeconds_ok_iff.mpr ⟨h.1, rfl⟩] at hd
    cases hd
  · obtain ⟨hdur, rfl⟩ := durationSeconds_ok_iff.mp hd
    exact addDuration_ok_iff.trans (and_iff_right hdur).symm

lemma retryExact_iff : RetryExact c now n ↔ RetryFits c now n := by
  constructor
  · rintro ⟨htries, hhours, hnext⟩
    obtain ⟨hdelay, hdate, -⟩ := (retryAt_ok_iff (by rw [htries, hhours])).mp hnext
    exact ⟨(wrap_eq_iff 31 _).mp htries, hdelay, hdate⟩
  · rintro ⟨htries, hdelay, hdate⟩
    have hwrap := (wrap_eq_iff 31 _).mpr htries
    have hhours : wrap 64 ((n + 1) * c.retryDelayBaseHours) = (n + 1) * c.retryDelayBaseHours := by
      obtain ⟨hlo, hhi⟩ := abs_le.mp hdelay
      refine (wrap_eq_iff 63 _).mpr ⟨?_, ?_⟩ <;> omega
    exact ⟨hwrap, hhours, (retryAt_ok_iff (by rw [hwrap, hhours])).mpr ⟨hdelay, hdate, rfl⟩⟩

lemma retryAt_error {e : Err} (h : c.retryAt now n = .error e) : e = .panic := by
  unfold ScheduleConfig.retryAt durationHours durationSeconds at h
  split at h
  · change addDuration now _ = _ at h
    unfold addDuration at h
    split at h <;> cases h
    rfl
  · cases h
    rfl

lemma firstTry_ok_iff {first : Option Time} : c.firstTry now = .ok first ↔ FirstTryFits c now ∧
    first = if initialDelaySeconds c = 0 then none
      else some (now + initialDelaySeconds c * second) := by
  have hzero (s : ℤ) : s * second = 0 ↔ s = 0 := by simp [second]
  change (durationSeconds (initialDelaySeconds c) >>= fun delay =>
    if delay ≠ 0 then some <$> addDuration now delay else pure none) = .ok first ↔ _
  generalize hs : initialDelaySeconds c = s
  rcases hd : durationSeconds s with e | d
  · refine ⟨fun h => (by cases h), fun h => ?_⟩
    rw [durationSeconds_ok_iff.mpr ⟨hs ▸ h.1.delay, rfl⟩] at hd
    cases hd
  · obtain ⟨hdelay, rfl⟩ := durationSeconds_ok_iff.mp hd
    change (if s * second ≠ 0 then some <$> addDuration now (s * second) else pure none) = _ ↔ _
    by_cases h0 : s = 0
    · rw [if_neg (not_not.mpr ((hzero s).mpr h0)), if_pos h0]
      refine ⟨fun h => ⟨⟨hs ▸ hdelay, fun hne => absurd (hs.trans h0) hne⟩, ?_⟩, fun h => ?_⟩
      · exact (Except.ok.inj h).symm
      · rw [h.2]
        rfl
    · rw [if_pos fun h => h0 ((hzero s).mp h), if_neg h0]
      rcases hnext : addDuration now (s * second) with e | u
      · refine ⟨fun h => (by cases h), fun h => ?_⟩
        have hdate := h.1.first (hs ▸ h0)
        rw [addDuration_ok_iff.mpr ⟨hs ▸ hdate, rfl⟩] at hnext
        cases hnext
      · obtain ⟨hdate, rfl⟩ := addDuration_ok_iff.mp hnext
        refine ⟨fun h => ⟨⟨hs ▸ hdelay, fun _ => hs ▸ hdate⟩, ?_⟩, fun h => ?_⟩
        · exact (Except.ok.inj h).symm
        · rw [h.2]
          rfl

lemma firstTryExact_iff : FirstTryExact c now ↔ FirstTryFits c now :=
  firstTry_ok_iff.trans (and_iff_left rfl)

end

/-! ### Package reports -/

section
variable {env : Env} {db db' : Db}

lemma maxRetriesOf_ok {ids : List ℕ} {b : BuildInput} (hb : b ∈ db.buildInputs.rows)
    (hid : b.id ∈ ids) : ∃ n, maxRetriesOf ids db = .ok n := by
  unfold maxRetriesOf
  rcases hmax : ((db.buildInputs.rows.filter fun b => ids.contains b.id).map (·.retries)).max? with
    _ | n
  · rw [List.max?_eq_none_iff, List.map_eq_nil_iff, List.filter_eq_nil_iff] at hmax
    exact absurd (by simpa using hid) (hmax b hb)
  · rw [hmax]
    exact ⟨n, rfl⟩

/-- A build input that is there has a largest retry count. -/
lemma largestRetryCount_exists {b : BuildInput} (hb : b ∈ db.buildInputs.rows) :
    ∃ n, getLargestRetryCountAmongFriends db b.id = .ok n :=
  maxRetriesOf_ok hb (self_mem_buildInputFriends hb)

/-- An import fails only if the first try cannot be computed. -/
lemma importPackage_exists {c : ScheduleConfig} {T : Ties} {now : Time} {first : Option Time}
    (hfirst : c.firstTry now = .ok first) (r : PackageReport) (p : SourcePackageReport) (db : Db) :
    ∃ db', importPackage c T now r db p = .ok db' := by
  obtain ⟨n, hn⟩ := largestRetryCount_exists (importWithHistory_imported now first r p db).stored
  unfold importPackage
  rw [hfirst]
  change ∃ db', enqueueImported c T now (importWithHistory now first r p db).1.id
    (importWithHistory now first r p db).2 = .ok db'
  unfold enqueueImported
  dsimp only
  split
  · rw [hn]
    change ∃ db', (if c.retriesExhausted n = true then _ else _) = _
    split <;> exact ⟨_, rfl⟩
  · exact ⟨_, rfl⟩

/-- A package report is answered exactly if it has no packages or the first try can be computed. -/
lemma served_packageReport_iff {h : Headers} (hadmin : h.authCookie = some env.config.authCookie)
    (r : PackageReport) (t : ℕ → Time) :
    (serve (exec env) (handler env.config) db (.submitPackageReport h r, t)).1 = .ok .noContent ↔
      r.packages = [] ∨ ∃ first, env.config.schedule.firstTry (t 0) = .ok first := by
  have hadmin : Handler.admin env.config h = true := by simp [Handler.admin, hadmin]
  have hcommit : (serve (exec env) (handler env.config) db (.submitPackageReport h r, t)).1 =
      .ok .noContent ↔
        ∃ db', commitPackageReport env.config.schedule env.ties (t 0) r db = .ok db' := by
    change ((Handler.submitPackageReport env.config h r).run (exec env) t db).1 = _ ↔ _
    unfold Handler.submitPackageReport
    rw [hadmin]
    change ((sql .now >>= fun now => sql (.commitPackageReport now r) >>= fun _ =>
      pure Response.noContent).run (exec env) t db).1 = _ ↔ _
    rw [run_stmt_bind]
    dsimp only [exec]
    rw [run_stmt_bind]
    dsimp only [exec]
    rcases commitPackageReport env.config.schedule env.ties (t 0) r db with e | db'
    · exact ⟨fun h => (by cases h), fun ⟨_, h⟩ => (by cases h)⟩
    · exact ⟨fun _ => ⟨db', rfl⟩, fun _ => rfl⟩
  rw [hcommit]
  constructor
  · rintro ⟨db', hok⟩
    obtain ⟨db₁, hfold, -⟩ := commitPackageReport_ok hok
    rcases hp : r.packages with _ | ⟨p, ps⟩
    · exact .inl rfl
    · rw [hp, List.foldlM_cons] at hfold
      rcases himport : importPackage env.config.schedule env.ties (t 0) r
          (markScopedPackagesUnseen r db) p with e | d
      · rw [himport] at hfold
        cases hfold
      · obtain ⟨first, hfirst, -⟩ := importPackage_ok himport
        exact .inr ⟨first, hfirst⟩
  · intro hor
    have hfold (ps : List SourcePackageReport) (hps : ps = [] ∨
        ∃ first, env.config.schedule.firstTry (t 0) = .ok first) (d : Db) :
        ∃ d', ps.foldlM (importPackage env.config.schedule env.ties (t 0) r) d = .ok d' := by
      induction ps generalizing d with
      | nil => exact ⟨d, rfl⟩
      | cons p ps ih =>
        obtain ⟨first, hfirst⟩ := hps.resolve_left (List.cons_ne_nil p ps)
        obtain ⟨d', hd'⟩ := importPackage_exists hfirst r p d
        obtain ⟨d'', hd''⟩ := ih (.inr ⟨first, hfirst⟩) d'
        exact ⟨d'', by rw [List.foldlM_cons, hd']; exact hd''⟩
    obtain ⟨d, hd⟩ := hfold r.packages hor (markScopedPackagesUnseen r db)
    exact ⟨dropUnseenScopedJobs r d, by unfold commitPackageReport; rw [hd]; rfl⟩

/-! ### Rebuild reports -/

variable (env) in
/-- A part of a report that cannot fail and leaves build inputs and queue alone. -/
lemma run_keepsJobs {α : Type} {p : Handler α} {Q : Db → α → Prop} {d : Db}
    (hp : Only (fun s => s.keepsJobs = true) p)
    (hok : wp (exec env).rules p Q (fun _ _ => False) d) (hd : SameJobs db d) (t : ℕ → Time) :
    ∃ a y, p.run (exec env) t d = (.ok a, y) ∧ Q y a ∧ SameJobs db y := by
  obtain ⟨a, y, hrun, hQ⟩ := run_ok_of_wp hok t
  have hkeep : Keeps ((exec env).rulesIn fun _ => True) (SameJobs db) p := keepsJobs_of_only hp db
  have hkeeps := (run_of_wp_in (hkeep d hd) (t := t) fun _ => trivial).1
  rw [hrun] at hkeeps
  exact ⟨a, y, hrun, hQ, hkeeps a rfl⟩

variable (env) in
/-- Up to the retry, a report that is not good deletes the job. -/
lemma run_recordReport (hf : Fresh db') (hd : SameJobs db db') {q : Queued} {r : RebuildReport}
    (hbad : r.status ≠ .good) (t : ℕ → Time) :
    ∃ m y, SameJobs (deleteQueued [q.id] db).2 y ∧
      (Handler.recordReport env.config r q).run (exec env) t db' =
        (Handler.retry env.config q (buildInputFriends db q.buildInputId)).run (exec env)
          (fun n => t (n + m)) y := by
  have hencode : Only (fun s : Stmt => s.keepsJobs = true) (Handler.encode r.buildLog) :=
    (only_encode r.buildLog).mono fun s hs => by rw [hs]; rfl
  have hrecord (log : ℕ) : Only (fun s : Stmt => s.keepsJobs = true)
      ((buildInputFriends db q.buildInputId).foldlM (Handler.recordRebuild r q log) []) :=
    .foldlM (fun logs friend => (only_recordRebuild r q log logs friend).mono fun s hs => by
      cases s <;> first | rfl | cases hs) []
  unfold Handler.recordReport Handler.storeReport
  rw [run_stmt_bind]
  dsimp only [exec]
  rw [hd.buildInputFriends]
  obtain ⟨log, d, hlog, hsame, hjobs⟩ := run_keepsJobs env hencode
    (quiet_encode r.buildLog db' db' (.refl db')) hd fun n => t (n + 1)
  obtain ⟨m, hrun⟩ := run_bind_ok hlog fun encodedLog => Handler.storeReport env.config r q
    (buildInputFriends db q.buildInputId) encodedLog
  change ∃ m y, _ ∧ (Handler.encode r.buildLog >>= fun encodedLog => Handler.storeReport env.config r
    q (buildInputFriends db q.buildInputId) encodedLog).run _ _ _ = _
  rw [hrun]
  unfold Handler.storeReport
  rw [run_stmt_bind]
  dsimp only [exec]
  have hlogged : Fresh (insertBuildLog log d).2 := (hsame.fresh hf).congr rfl rfl le_rfl
  have hle : ∀ i ∈ buildInputFriends db q.buildInputId,
      i ≤ (insertBuildLog log d).2.buildInputs.seq := fun i hi =>
    (le_of_mem_buildInputFriends hi).trans_eq (congrArg Table.seq hjobs.buildInputs.symm)
  obtain ⟨logs, z, hrecorded, -, hz⟩ := run_keepsJobs env (hrecord (insertBuildLog log d).1)
    (wp_recordRebuilds hlogged (nodup_buildInputFriends db q.buildInputId) hle r q _)
    (hjobs.trans ⟨rfl, rfl⟩) fun n => t (n + 1 + m + 1)
  obtain ⟨m', hrun'⟩ := run_bind_ok hrecorded fun _ => sql (.deleteQueued [q.id]) >>= fun _ =>
    if r.status ≠ .good then
      Handler.retry env.config q (buildInputFriends db q.buildInputId)
    else pure ()
  change ∃ m y, _ ∧ (_ >>= fun _ => sql (.deleteQueued [q.id]) >>= fun _ => _).run _ _ _ = _
  rw [hrun', run_stmt_bind, if_pos hbad]
  exact ⟨1 + m' + 1 + m + 1, _, hz.deleteQueued [q.id], by simp only [Nat.add_assoc]; rfl⟩

/-- What becomes of the report on the job `q`, if the retry is computed at `now` after `n` tries. -/
structure RetryOutcome (c : ScheduleConfig) (q : Queued) (now : Time) (n : ℤ) (db : Db)
    (out : Except Err Response × Db) : Prop where
  answered : out.1 = .ok .noContent ↔
    c.retriesExhausted n = true ∨ ∃ next, c.retryAt now n = .ok next
  scheduled : c.retriesExhausted n = false → ∀ next, c.retryAt now n = .ok next →
    SameJobs (NewQueued.upsert ⟨q.buildInputId, Priority.retry, now⟩
      (setNextRetry (buildInputFriends db q.buildInputId) (some next) (counted q db))) out.2
  lost : out.1 ≠ .ok .noContent → out.1 = .error .panic ∧ SameJobs (counted q db) out.2

variable (env) in
lemma run_retry {q : Queued} {n : ℤ} {y : Db} (hy : SameJobs (deleteQueued [q.id] db).2 y)
    (hn : getLargestRetryCountAmongFriends (counted q db) q.buildInputId = .ok n) (t : ℕ → Time) :
    RetryOutcome env.config.schedule q (t 3) n db
      ((Handler.retry env.config q (buildInputFriends db q.buildInputId) >>= fun _ =>
        pure Response.noContent).run (exec env) t y) := by
  have hz : SameJobs (counted q db) (incrementRetries (buildInputFriends db q.buildInputId) y) :=
    hy.incrementRetries _
  have hcount : maxRetriesOf (buildInputFriends (incrementRetries
      (buildInputFriends db q.buildInputId) y) q.buildInputId)
      (incrementRetries (buildInputFriends db q.buildInputId) y) = .ok n := by
    rw [hz.buildInputFriends, hz.maxRetriesOf]
    exact hn
  unfold Handler.retry Handler.getLargestRetryCountAmongFriends
  simp only [Prog.bind_assoc]
  rw [run_stmt_bind]
  dsimp only [exec]
  generalize incrementRetries (buildInputFriends db q.buildInputId) y = z at hz hcount
  rw [run_stmt_bind]
  dsimp only [exec]
  rw [run_stmt_bind]
  dsimp only [exec]
  rw [hcount]
  dsimp only [Except.map]
  by_cases hex : env.config.schedule.retriesExhausted n = true
  · rw [if_pos hex]
    unfold Handler.markBuildInputFriendsAsNonRetriable
    simp only [Prog.bind_assoc]
    rw [run_stmt_bind]
    dsimp only [exec]
    rw [run_stmt_bind]
    dsimp only [exec]
    rw [run_stmt_bind]
    dsimp only [exec]
    refine ⟨iff_of_true rfl (.inl hex), fun h => ?_, fun h => absurd rfl h⟩
    rw [hex] at h
    cases h
  · rw [if_neg hex]
    simp only [Prog.bind_assoc]
    rw [run_stmt_bind]
    dsimp only [exec]
    rw [show (0 + 1 + 1 + 1 : ℕ) = 3 from rfl]
    rcases hnext : env.config.schedule.retryAt (t 3) n with e | next
    · obtain rfl := retryAt_error hnext
      have hnone (next : Time) : env.config.schedule.retryAt (t 3) n ≠ .ok next := by
        rw [hnext]
        exact fun h => by cases h
      refine ⟨iff_of_false (fun h => by cases h) ?_, fun _ next h => absurd h (hnone next),
        fun _ => ⟨rfl, hz⟩⟩
      rintro (h | ⟨next, h⟩)
      · exact hex h
      · exact hnone next h
    · refine ⟨iff_of_true rfl (.inr ⟨next, hnext⟩), fun _ next' h => ?_, fun h => absurd rfl h⟩
      obtain rfl := Except.ok.inj (hnext.symm.trans h)
      exact (hz.setNextRetry _ _).upsertQueued _

/-- The report of a worker that is accepted, on a job that is queued, for a rebuild that was not
good. -/
structure FailsJob (env : Env) (db : Db) (h : Headers) (r : RebuildReport) (t : ℕ → Time)
    (q : Queued) : Prop where
  accepted : ∃ w, ((Handler.worker env.config h).run (exec env) t db).1 = .ok w
  queued : q ∈ db.queue.rows
  id : q.id = r.queueId
  failed : r.status ≠ .good

/-- A report runs up to the retry, which is computed at one of its times. -/
lemma served_rebuildReport_retry (hdb : Reachable env db) {h : Headers} {r : RebuildReport}
    {t : ℕ → Time} {q : Queued} (hr : FailsJob env db h r t q) :
    ∃ k n, getLargestRetryCountAmongFriends (counted q db) q.buildInputId = .ok n ∧
      RetryOutcome env.config.schedule q (t k) n db
        (serve (exec env) (handler env.config) db (.submitRebuildReport h r, t)) := by
  obtain ⟨w, hw⟩ := hr.accepted
  obtain ⟨n, hn⟩ : ∃ n, getLargestRetryCountAmongFriends (counted q db) q.buildInputId = .ok n := by
    obtain ⟨s, g, hin⟩ := reachable_queueInput hdb q hr.queued
    rw [← inputs_counted q db] at hin
    obtain ⟨b, hb, hid, -⟩ := mem_inputs.mp hin
    exact hid ▸ largestRetryCount_exists hb
  have hworker : Only (fun s : Stmt => s.keepsJobs = true) (Handler.worker env.config h) :=
    (only_worker env.config h).mono fun s hs => by cases s <;> first | rfl | cases hs
  have hkeep : Keeps ((exec env).rulesIn fun _ => True) (SameJobs db) (Handler.worker env.config h) :=
    keepsJobs_of_only hworker db
  have hjobs := (run_of_wp_in (hkeep db (.refl db)) (t := t) fun _ => trivial).1 w hw
  have hfresh : Fresh ((Handler.worker env.config h).run (exec env) t db).2 :=
    ((run_of_wp (keepsRecords_worker env.config h db db ⟨.refl db, rfl⟩) t).1 w hw).1.fresh
      (reachable_fresh hdb)
  change ∃ k n, _ ∧ RetryOutcome _ q (t k) n db
    (((Handler.worker env.config h).attempt >>= _).run (exec env) t db)
  obtain ⟨m, hrun⟩ := run_attempt_bind (E := exec env) (Handler.worker env.config h) _ t db
  rw [hrun, hw]
  dsimp only
  generalize ((Handler.worker env.config h).run (exec env) t db).2 = d at hjobs hfresh
  have hfind : findQueued r.queueId d = .ok q := by
    have hfirst : d.queue.rows.find? (·.id == r.queueId) = some q := by
      rw [hjobs.queue, ← hr.id]
      exact Table.find_key hr.queued
    unfold findQueued
    rw [hfirst]
  rw [run_stmt_bind]
  dsimp only [exec]
  rw [hfind]
  dsimp only [Except.map]
  obtain ⟨m', y, hy, hstored⟩ := run_recordReport env hfresh hjobs (q := q) hr.failed
    fun n => t (n + 1 + m)
  have hretry := run_retry env hy hn fun n => t (n + m' + 1 + m)
  refine ⟨3 + m' + 1 + m, n, hn, ?_⟩
  rw [run_bind_pure, ← hstored, ← run_bind_pure] at hretry
  exact hretry

end

/-- **The delays are computed without panic or wrapping around exactly if they fit**: those of a
package report if it has packages, and that of a rebuild report that is to be retried. Otherwise a
rebuild report that fails does so after its job was deleted and the try was counted. -/
theorem delaysExact_iff (env : Env) (db : Db) (hdb : Reachable env db) :
    (∀ h r t, h.authCookie = some env.config.authCookie →
      ((serve (exec env) (handler env.config) db (.submitPackageReport h r, t)).1 =
            .ok .noContent ∧
          (r.packages ≠ [] → FirstTryExact env.config.schedule (t 0)) ↔
        (r.packages ≠ [] → FirstTryFits env.config.schedule (t 0)))) ∧
    ∀ h r t q, FailsJob env db h r t q → ∃ k n,
      getLargestRetryCountAmongFriends (counted q db) q.buildInputId = .ok n ∧
      RetryOutcome env.config.schedule q (t k) n db
        (serve (exec env) (handler env.config) db (.submitRebuildReport h r, t)) ∧
      ((serve (exec env) (handler env.config) db (.submitRebuildReport h r, t)).1 =
            .ok .noContent ∧
          (env.config.schedule.retriesExhausted n = false →
            RetryExact env.config.schedule (t k) n) ↔
        (env.config.schedule.retriesExhausted n = false →
          RetryFits env.config.schedule (t k) n)) := by
  constructor
  · intro h r t hadmin
    rw [served_packageReport_iff hadmin, firstTryExact_iff]
    refine ⟨fun h => h.2, fun h => ⟨?_, h⟩⟩
    by_cases hp : r.packages = []
    · exact .inl hp
    · exact .inr ⟨_, firstTryExact_iff.mpr (h hp)⟩
  · intro h r t q hr
    obtain ⟨k, n, hn, hout⟩ := served_rebuildReport_retry hdb hr
    refine ⟨k, n, hn, hout, ?_⟩
    rw [hout.answered, retryExact_iff]
    refine ⟨fun h => h.2, fun h => ⟨?_, h⟩⟩
    rcases hex : env.config.schedule.retriesExhausted n with _ | _
    · exact .inr ⟨_, (retryExact_iff.mpr (h hex)).next⟩
    · exact .inl rfl

/-- A daemon that retries after 10¹⁵ hours. -/
def farRetries : Env where
  config := ⟨"cookie", ⟨[], none⟩, ⟨some 1000000000000000, none, none⟩⟩
  workers := .none
  ties := .inOrder
  zstd := id

/-- `alice` was handed the job of its only package. -/
def handedFar : Db := (runPool farRetries handedOut).state

/-- What `alice` reports about the job. -/
def aliceFails : RebuildReport := ⟨1, 15, [], .bad, []⟩

lemma failsJob_handedFar : ∃ q, FailsJob farRetries handedFar (workerHeaders "alice") aliceFails
    (fun _ => 20 * second) q := by
  have haccepted : ((Handler.worker farRetries.config (workerHeaders "alice")).run (exec farRetries)
      (fun _ => 20 * second) handedFar).1.toOption.isSome = true := by decide +kernel
  have hqueued : ∃ q ∈ handedFar.queue.rows, q.id = 1 := by decide +kernel
  obtain ⟨q, hq, hid⟩ := hqueued
  have hworker : ∃ w, ((Handler.worker farRetries.config (workerHeaders "alice")).run
      (exec farRetries) (fun _ => 20 * second) handedFar).1 = .ok w := by
    rcases hw : ((Handler.worker farRetries.config (workerHeaders "alice")).run (exec farRetries)
      (fun _ => 20 * second) handedFar).1 with e | w
    · rw [hw] at haccepted
      cases haccepted
    · exact ⟨w, rfl⟩
  exact ⟨q, hworker, hq, hid, by decide⟩

/-- Another package is reported to this daemon, and the job fails. -/
theorem delaysExact_iff_handedFar :
    ((serve (exec farRetries) (handler farRetries.config) handedFar
            (.submitPackageReport adminHeaders (debianReport [package "world" "https://world"]),
              fun _ => 20 * second)).1 = .ok .noContent ∧
        FirstTryExact farRetries.config.schedule (20 * second) ↔
      FirstTryFits farRetries.config.schedule (20 * second)) ∧
    ∃ q n, FailsJob farRetries handedFar (workerHeaders "alice") aliceFails
        (fun _ => 20 * second) q ∧
      getLargestRetryCountAmongFriends (counted q handedFar) q.buildInputId = .ok n ∧
      RetryOutcome farRetries.config.schedule q (20 * second) n handedFar
        (serve (exec farRetries) (handler farRetries.config) handedFar
          (.submitRebuildReport (workerHeaders "alice") aliceFails, fun _ => 20 * second)) ∧
      ((serve (exec farRetries) (handler farRetries.config) handedFar
              (.submitRebuildReport (workerHeaders "alice") aliceFails,
                fun _ => 20 * second)).1 = .ok .noContent ∧
          (farRetries.config.schedule.retriesExhausted n = false →
            RetryExact farRetries.config.schedule (20 * second) n) ↔
        (farRetries.config.schedule.retriesExhausted n = false →
          RetryFits farRetries.config.schedule (20 * second) n)) := by
  obtain ⟨hpackages, hrebuilds⟩ := delaysExact_iff farRetries handedFar ⟨handedOut, rfl⟩
  obtain ⟨q, hq⟩ := failsJob_handedFar
  obtain ⟨_, n, hn, houtcome, hiff⟩ := hrebuilds _ _ _ q hq
  have hworld := hpackages adminHeaders (debianReport [package "world" "https://world"])
    (fun _ => 20 * second) rfl
  exact ⟨by simpa [debianReport] using hworld, q, n, hq, hn, houtcome, hiff⟩

/-- **Her report panics once the job is deleted.** -/
theorem farRetry_losesJob :
    ¬ ∀ env db, Reachable env db → ∀ h r t q, FailsJob env db h r t q →
      (serve (exec env) (handler env.config) db (.submitRebuildReport h r, t)).1 =
        .ok .noContent := by
  intro h
  have hfails : (serve (exec farRetries) (handler farRetries.config) handedFar
      (.submitRebuildReport (workerHeaders "alice") aliceFails,
        fun _ => 20 * second)).1.toOption.isNone = true := by decide +kernel
  obtain ⟨q, hq⟩ := failsJob_handedFar
  rw [h farRetries handedFar ⟨handedOut, rfl⟩ (workerHeaders "alice") aliceFails
    (fun _ => 20 * second) q hq] at hfails
  cases hfails

end Rebuilderd.Daemon
