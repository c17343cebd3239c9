import Rebuilderd.Daemon.Invariants

/-!
Jobs of workers that died: no row of the queue is stuck.

A reclaim looks at the last ping of a row and a pop at its worker, so a row is available again
after a reclaim because the columns of a lease are set together and cleared together.
-/

namespace Rebuilderd.Daemon

open Rebuilderd.Lib Rebuilderd.Common Prog

/-! ### One row for each build input -/

/-- `queue_unique_idx`. -/
def OneRowEach (db : Db) : Prop :=
  ∀ q ∈ db.queue.rows, ∀ q' ∈ db.queue.rows, q.buildInputId = q'.buildInputId → q = q'

section
variable {db db' : Db}

lemma OneRowEach.of_oldRow (h : OneRowEach db) (hold : ∀ q' ∈ db'.queue.rows,
    ∃ q ∈ db.queue.rows, q.id = q'.id ∧ q.buildInputId = q'.buildInputId) : OneRowEach db' := by
  intro q hq q' hq' heq
  obtain ⟨q₀, hq₀, hid, hb⟩ := hold q hq
  obtain ⟨q₀', hq₀', hid', hb'⟩ := hold q' hq'
  have hsame : q₀ = q₀' := h q₀ hq₀ q₀' hq₀' (hb.trans (heq.trans hb'.symm))
  exact Table.eq_of_key hq hq' (hid.symm.trans (hsame ▸ hid'))

lemma OneRowEach.upsert (h : OneRowEach db) (new : NewQueued) : OneRowEach (new.upsert db) := by
  rcases new.upsert_cases db with ⟨r, -, -, hqueue⟩ | ⟨hnone, hqueue⟩
  · refine h.of_oldRow fun q' hq' => ?_
    rw [hqueue] at hq'
    obtain ⟨q, hq, rfl⟩ := List.mem_map.mp hq'
    refine ⟨q, hq, ?_⟩
    split
    · rename_i hb
      exact ⟨rfl, by simpa using hb⟩
    · exact ⟨rfl, rfl⟩
  · intro q hq q' hq' heq
    rw [hqueue] at hq hq'
    rcases List.mem_append.mp hq with hq | hq <;> rcases List.mem_append.mp hq' with hq' | hq'
    · exact h q hq q' hq' heq
    · rw [List.mem_singleton.mp hq'] at heq
      exact absurd heq (hnone q hq)
    · rw [List.mem_singleton.mp hq] at heq
      exact absurd heq.symm (hnone q' hq')
    · rw [List.mem_singleton.mp hq, List.mem_singleton.mp hq']

lemma OneRowEach.commit (h : OneRowEach db) {c : ScheduleConfig} {T : Ties} {now : Time}
    {r : PackageReport} (hok : commitPackageReport c T now r db = .ok db') : OneRowEach db' := by
  obtain ⟨db₁, hf, rfl⟩ := commitPackageReport_ok hok
  have hsub {d d' : Db} (hd : OneRowEach d) (hrows : ∀ q ∈ d'.queue.rows, q ∈ d.queue.rows) :
      OneRowEach d' :=
    hd.of_oldRow fun q hq => ⟨q, hrows q hq, rfl, rfl⟩
  refine hsub (d := db₁) ?_ fun q hq => ((Table.mem_delete _).mp hq).1
  refine foldlM_ok (I := fun _ d => OneRowEach d) hf h fun _ p d d' _ hd hp => ?_
  obtain ⟨first, -, he⟩ := importPackage_ok hp
  have himport : OneRowEach (importWithHistory now first r p d).2 :=
    hsub hd fun q hq => (importWithHistory_frame now first r p d).queue ▸ hq
  rcases enqueueImported_cases he with ⟨-, rfl⟩ | ⟨-, -, n, -, ⟨-, rfl⟩ | ⟨-, priority, rfl⟩⟩
  · exact himport
  · exact hsub himport fun q hq => ((Table.mem_delete _).mp hq).1
  · exact himport.upsert _

end

lemma exec_oneRowEach (env : Env) (t : Time) (s : Stmt) (db : Db) (h : OneRowEach db) :
    OneRowEach ((exec env).answer t s db).2 := by
  rcases hs : s.enqueues with _ | _
  · exact h.of_oldRow (exec_oldRow env t hs db).2
  · cases s with
    | upsertQueued new => exact h.upsert new
    | commitPackageReport now r => exact Exec.answer_inv h fun u db' hok => h.commit (exec_commit hok)
    | _ => cases hs

/-! ### The columns of a lease -/

/-- The worker, the start and the last ping of a queue row are all set or all NULL. -/
structure Queued.Together (q : Queued) : Prop where
  startedAt : q.startedAt.isSome = q.worker.isSome
  lastPing : q.lastPing.isSome = q.worker.isSome

lemma Queued.Together.congr {q q' : Queued} (h : q.Together) (hs : SameLease q q') : q'.Together :=
  ⟨by rw [hs.startedAt, hs.worker, h.startedAt], by rw [hs.lastPing, hs.worker, h.lastPing]⟩

/-- A statement that grants, renews or clears a lease does so in all columns. -/
lemma exec_together (env : Env) (t : Time) (s : Stmt) (db : Db)
    (h : ∀ q ∈ db.queue.rows, q.Together) :
    ∀ q ∈ ((exec env).answer t s db).2.queue.rows, q.Together := by
  rcases hs : s.touchesLeases with _ | _
  · intro q' hq'
    rcases (exec_leasesKept env t hs db).row q' hq' with ⟨q, hq, hsame⟩ | ⟨-, hstart, hw, hp⟩
    · exact (h q hq).congr hsame
    · exact ⟨by rw [hstart, hw]; rfl, by rw [hp, hw]; rfl⟩
  · cases s with
    | clearStale cutoff =>
      intro q' hq'
      obtain ⟨q, hq, rfl⟩ := List.mem_map.mp hq'
      split
      · exact ⟨rfl, rfl⟩
      · exact h q hq
    | popJob w r =>
      change ∀ q ∈ (popJob env.ties w r t db).2.queue.rows, q.Together
      rcases popJob_cases env.ties w r t db with ⟨row, -, hpop⟩ | hpop <;> rw [hpop]
      · intro q' hq'
        obtain ⟨q, hq, rfl⟩ := List.mem_map.mp hq'
        split
        · exact ⟨rfl, rfl⟩
        · exact h q hq
      · exact h
    | pingQueued now id w =>
      intro q' hq'
      obtain ⟨q, hq, rfl⟩ := List.mem_map.mp hq'
      split
      · rename_i hheld
        obtain ⟨-, hw⟩ : q.id = id ∧ q.worker = some w := by simpa using hheld
        exact ⟨(h q hq).startedAt, by rw [hw]; rfl⟩
      · exact h q hq
    | _ => cases hs

/-! ### The source package of a build input -/

/-- The foreign key of the build inputs. -/
def SourcesExist (db : Db) : Prop :=
  ∀ x ∈ db.inputs, ∃ s ∈ db.sourcePackages.rows, s.id = x.2.1

section
variable {db db' : Db}

lemma SourcesExist.import {c : ScheduleConfig} {T : Ties} {now : Time} {r : PackageReport}
    {p : SourcePackageReport} (h : SourcesExist db)
    (hok : importPackage c T now r db p = .ok db') : SourcesExist db' := by
  obtain ⟨first, -, he⟩ := importPackage_ok hok
  have himp := importWithHistory_imported now first r p db
  obtain ⟨⟨hs, hi⟩, -⟩ := enqueueImported_queue (mem_inputs.mpr ⟨_, himp.stored, rfl, rfl, rfl⟩) he
  have hold : ∀ x ∈ db.inputs, ∃ s ∈ db'.sourcePackages.rows, s.id = x.2.1 := by
    intro x hx
    obtain ⟨s, hsm, hid⟩ := h x hx
    obtain ⟨s', hs', hid', -⟩ := himp.sources.kept s hsm
    exact ⟨s', hs ▸ hs', hid'.trans hid⟩
  intro x hx
  rw [hi] at hx
  rcases himp.inputs with hin | hin <;> rw [hin] at hx
  · exact hold x hx
  · rcases List.mem_append.mp hx with hx | hx
    · exact hold x hx
    · obtain ⟨s, hsm, hid, -⟩ := himp.source
      rw [List.mem_singleton.mp hx]
      exact ⟨s, hs ▸ hsm, hid⟩

lemma SourcesExist.mark (h : SourcesExist db) (r : PackageReport) :
    SourcesExist (markScopedPackagesUnseen r db) := by
  intro x hx
  obtain ⟨s, hs, hid⟩ := h x hx
  refine ⟨_, List.mem_map.mpr ⟨s, hs, rfl⟩, ?_⟩
  split <;> exact hid

lemma SourcesExist.commit {c : ScheduleConfig} {T : Ties} {now : Time} {r : PackageReport}
    (h : SourcesExist db) (hok : commitPackageReport c T now r db = .ok db') : SourcesExist db' := by
  obtain ⟨db₁, hf, rfl⟩ := commitPackageReport_ok hok
  refine show SourcesExist db₁ from
    foldlM_ok (I := fun _ d => SourcesExist d) hf (h.mark r) fun _ p d d' _ hd hp =>
      hd.import hp

end

lemma exec_sourcesExist (env : Env) (t : Time) (s : Stmt) (db : Db) (h : SourcesExist db) :
    SourcesExist ((exec env).answer t s db).2 := by
  rcases exec_identities env t s db with ⟨now, r, rfl⟩ | ⟨hs, hi⟩
  · exact Exec.answer_inv h fun u db' hok => h.commit (exec_commit hok)
  · intro x hx
    rw [hi] at hx
    rw [hs]
    exact h x hx

/-- Every row of the queue appears in the joins of `queue_base`. -/
lemma exists_queueBase {db : Db} (hs : SourcesExist db) {q : Queued} (hq : q ∈ db.queue.rows)
    (hi : HasInput q.buildInputId db) :
    ∃ b s, (q, b, s) ∈ queueBase db := by
  obtain ⟨src, g, hin⟩ := hi
  obtain ⟨s, hsm, hid⟩ := hs _ hin
  obtain ⟨b, hb, hbid, hbs, -⟩ := mem_inputs.mp hin
  exact ⟨b, s, mem_queueBase.mpr ⟨hq, ⟨hb, hbid⟩, hsm, hid.trans hbs.symm⟩⟩

/-! ### Calls for work -/

/-- The architecture is one the worker supports, or a known alias of one. -/
def Supports (r : PopQueuedJobRequest) (architecture : String) : Prop :=
  architecture ∈ r.supportedArchitectures ∨
    ∃ a ∈ r.supportedArchitectures, standardArchitecture a = some architecture

/-- Every unclaimed row has a build input that is not due at `t`, or that the worker that sent
the request cannot build. -/
def NothingFor (r : PopQueuedJobRequest) (t : Time) (db : Db) : Prop :=
  ∀ q ∈ db.queue.rows, q.worker = none → ∃ b ∈ db.buildInputs.rows, b.id = q.buildInputId ∧
    ¬ (b.nextRetry.all (· ≤ t) = true ∧ Supports r b.architecture ∧
      b.backend ∈ r.supportedBackends)

lemma mem_standardizeArchitectures {r : PopQueuedJobRequest} {a : String} :
    a ∈ standardizeArchitectures r.supportedArchitectures ↔ Supports r a := by
  simp only [standardizeArchitectures, List.mem_flatMap, List.mem_append, Option.mem_toList,
    List.mem_singleton, Supports]
  constructor
  · rintro ⟨s, hs, h | rfl⟩
    · exact .inr ⟨s, hs, h⟩
    · exact .inl hs
  · rintro (h | ⟨s, hs, h⟩)
    · exact ⟨a, h, .inr rfl⟩
    · exact ⟨s, hs, .inl h⟩

/-- A pop that hands out nothing has found nothing that is due by the last full second. -/
lemma nothingFor_of_pop {T : Ties} {w : Worker} {r : PopQueuedJobRequest} {t : Time} {db : Db}
    (h : (popJob T w r t db).1 = none) (hs : SourcesExist db)
    (hi : ∀ q ∈ db.queue.rows, HasInput q.buildInputId db) :
    NothingFor r (currentTimestamp t) db := by
  have hnone : availableJobs r t db = [] := by
    unfold popJob at h
    split at h
    · cases h
    · exact Ties.firstBy_eq_none.mp ‹_›
  intro q hq hw
  obtain ⟨b, s, hbase⟩ := exists_queueBase hs hq (hi q hq)
  obtain ⟨-, ⟨hb, hbid⟩, -⟩ := mem_queueBase.mp hbase
  refine ⟨b, hb, hbid, ?_⟩
  rintro ⟨hdue, harch, hbackend⟩
  have hmem : (q, b, s) ∈ availableJobs r t db := by
    refine List.mem_filter.mpr ⟨hbase, ?_⟩
    simp only [hw, Option.isNone_none, hdue, Bool.true_and, Bool.and_eq_true,
      List.contains_iff_mem]
    exact ⟨mem_standardizeArchitectures.mpr harch, hbackend⟩
  rw [hnone] at hmem
  cases hmem

/-- The row `q` as a reclaim leaves it. -/
def Queued.freed (q : Queued) : Queued :=
  { q with worker := none, startedAt := none, lastPing := none }

/-- The properties of a run that keep jobs from being lost; `asOf t` is the time at which a pop at
time `t` looks for jobs that are due. -/
structure NoJobLost (asOf : Time → Time) (env : Env) (as : Schedule) : Prop where
  oneRow : OneRowEach (runPool env as).state
  together : ∀ q ∈ (runPool env as).state.queue.rows, q.Together
  /-- A call for work that is answered has reclaimed and then popped; it has freed every row that
  was last pinged more than the deadline before the call started. -/
  answered : ∀ i h r job, (runPool env as).answerOf i = some (.requestWork h r, .assignment job) →
    ∃ pre reclaim mid pop post, trace env as = pre ++ reclaim :: mid ++ pop :: post ∧
      (reclaim.thread = i ∧ ∃ t cutoff, reclaim.toStep = ⟨t, .clearStale cutoff, .ok ()⟩) ∧
      (pop.thread = i ∧ ∃ t w, pop.toStep = ⟨t, .popJob w r, .ok job⟩) ∧
      (∀ start, (∀ e ∈ trace env as, e.thread = i → start ≤ e.input) →
        ∀ q ∈ reclaim.before.queue.rows, ∀ ping, q.lastPing = some ping →
          ping + pingDeadline * second < start →
            q.freed ∈ (reclaim.after (exec env)).queue.rows) ∧
      (job = none → NothingFor r (asOf pop.input) pop.before)

lemma requestWork_popped (cfg : Config) (c : Call) :
    wp (.journal (justified c)) (handler cfg c)
      (fun own a => ∀ h r, c = .requestWork h r → ∀ job, a = .assignment job → Popped own r job)
      (fun _ _ => True) [] := by
  cases c with
  | requestWork h r =>
    refine wp_mono (wp_requestWork cfg h r) (fun own a hown h' r' hc => ?_) fun _ _ _ => trivial
    cases hc
    exact hown
  | _ =>
    refine wp_mono (handler_justified cfg _) (fun own a _ h r hc => ?_) fun _ _ _ => trivial
    cases hc

/-- **No job is lost to a dead worker**: a build input has one row in the queue at most, the
columns of a lease are set together, a call for work frees every row that was last pinged too
long before it, and it hands out nothing only if no free row is due by the last full second and
fit for the worker. -/
theorem noJobLost (env : Env) (as : Schedule) : NoJobLost currentTimestamp env as := by
  have hone : OneRowEach (runPool env as).state :=
    Pool.run_inv (exec_oneRowEach env) (by simp [OneRowEach, Pool.start, Env.start, Db.empty]) as
  have htogether : ∀ q ∈ (runPool env as).state.queue.rows, q.Together :=
    Pool.run_inv (I := fun db : Db => ∀ q ∈ db.queue.rows, q.Together) (exec_together env)
      (by simp [Pool.start, Env.start, Db.empty]) as
  refine ⟨hone, htogether, fun i h r job hans => ?_⟩
  obtain ⟨own', t₁, cutoff, t₂, w, hown⟩ :=
    (Pool.outcome (requestWork_popped env.config) env.start as hans).1 h r rfl job rfl
  rw [List.append_assoc] at hown
  obtain ⟨pre, reclaim, rest, htr, hi, hreclaim, hpre, hrest⟩ := own_append_cons hown
  change own i rest = [] ++ _ :: _ at hrest
  obtain ⟨mid, pop, post, rfl, hi', hpop, -, -⟩ := own_append_cons hrest
  have hh := trace_history env as
  have htr' : trace env as = pre ++ reclaim :: mid ++ pop :: post := by
    change Pool.trace (exec env) (handler env.config) (Pool.start env.start) as = _
    rw [htr]
    simp
  refine ⟨pre, reclaim, mid, pop, post, htr', ⟨hi, t₁, cutoff, hreclaim⟩, ⟨hi', t₂, w, hpop⟩,
    fun start hstart q hq ping hping hold => ?_, ?_⟩
  · rw [htr', List.append_assoc, List.cons_append] at hh
    obtain ⟨-, -, hjust, -⟩ := hh.event
    obtain ⟨⟨t, s, a⟩, j, c, db⟩ := reclaim
    cases hreclaim
    obtain ⟨-, now, ⟨t, hnow⟩, rfl⟩ := hjust
    -- The reading of the clock is a statement of the same call.
    obtain ⟨e, he, hej, hstep⟩ := mem_own.mp hnow
    obtain ⟨tr, tr', rfl⟩ := List.append_of_mem he
    have hread : start ≤ now := by
      have hans := (by simpa using hh :
        History (exec env) justified env.start (tr ++ e :: (tr' ++ _))).event.2.1
      have hle := hstart e (by rw [htr']; simp) (hej.trans hi)
      obtain ⟨⟨t', s, a⟩, j', c', db'⟩ := e
      cases hstep
      obtain rfl : now = t := Except.ok.inj hans
      exact hle
    refine List.mem_map.mpr ⟨q, hq, if_pos ?_⟩
    simp only [hping, Option.any_some, decide_eq_true_eq]
    linarith
  · rintro rfl
    obtain ⟨hbefore, hans, -, -⟩ := (htr' ▸ hh).event
    have hbeg := (htr' ▸ hh).of_append
    have hsources : SourcesExist pop.before := by
      rw [hbefore]
      rw [← List.nil_append (pre ++ _ :: _)] at hbeg ⊢
      exact History.stable (exec_sourcesExist env) hbeg fun x hx => by cases hx
    have hinputs := (inputs_exist hbeg).queue
    rw [← hbefore] at hinputs
    obtain ⟨⟨t, s, a⟩, j, c, db⟩ := pop
    cases hpop
    exact nothingFor_of_pop (Except.ok.inj hans).symm hsources hinputs

/-- A daemon whose new build inputs have to wait for ten seconds. -/
def delayingDaemon : Env where
  config := ⟨"cookie", ⟨[], none⟩, ⟨none, none, some 10⟩⟩
  workers := .none
  ties := .inOrder
  zstd := id

/-- A package is imported at 0.3 s, so that it is due at 10.3 s; at 10.7 s `alice` asks for work. -/
def dueThisSecond : Schedule :=
  serveAt 0 (.submitPackageReport adminHeaders (debianReport [package "hello" "https://hello"]))
    300000000 ++
  serveAt 1 (.requestWork (workerHeaders "alice") ⟨["debian"], "amd64", ["amd64"]⟩) 10700000000

/-- A call for work finds a free row, and each build input is due by now and fit for it. -/
def popsWhileDue (e : Event) : Bool :=
  match e.stmt with
  | .popJob _ r => e.before.queue.rows.any fun q => q.worker.isNone &&
      e.before.buildInputs.rows.all fun b => b.nextRetry.all (· ≤ e.input) &&
        r.supportedArchitectures.contains b.architecture && r.supportedBackends.contains b.backend
  | _ => true

/-- **A job that came due within the current second is not handed out.** -/
theorem dueThisSecond_not_handedOut : ¬ ∀ env as, NoJobLost id env as := by
  intro h
  obtain ⟨pre, reclaim, mid, pop, post, htr, -, ⟨-, t, w, hpop⟩, -, hnothing⟩ :=
    (h delayingDaemon dueThisSecond).answered 1 (workerHeaders "alice")
      ⟨["debian"], "amd64", ["amd64"]⟩ none (by decide +kernel)
  have hdue : (trace delayingDaemon dueThisSecond).all popsWhileDue = true := by decide +kernel
  have hpopDue := List.all_eq_true.mp hdue pop (by rw [htr]; simp)
  obtain ⟨⟨t', s, a⟩, j, c, db⟩ := pop
  cases hpop
  obtain ⟨q, hq, hqb⟩ := List.any_eq_true.mp hpopDue
  simp only [Bool.and_eq_true, Option.isNone_iff_eq_none, List.all_eq_true,
    List.contains_iff_mem] at hqb
  obtain ⟨b, hb, -, hno⟩ := hnothing rfl q hq hqb.1
  obtain ⟨⟨hretry, harch⟩, hbackend⟩ := hqb.2 b hb
  exact hno ⟨hretry, .inl harch, hbackend⟩

end Rebuilderd.Daemon
