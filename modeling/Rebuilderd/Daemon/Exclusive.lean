import Rebuilderd.Daemon.Reports

/-!
Lease exclusivity: a worker that keeps pinging keeps its job.

A ping writes the time its handler read before, so of two pings in flight the one that is
executed last decides what the queue has as the last ping, even if it was read first.
-/

namespace Rebuilderd.Daemon

open Rebuilderd.Lib Rebuilderd.Common Prog

/-- `request_work` hands the job `q` to the worker with this key. -/
def grants (q : ℕ) (key : String) (e : Event) : Bool :=
  match e.toStep with
  | ⟨_, .popJob _ _, .ok (some job)⟩ => job.job.id == q && e.call.worker == key
  | _ => false

/-- `request_work` hands the job `q` to anyone. -/
def grantsAny (q : ℕ) (e : Event) : Bool := grants q e.call.worker e

/-- How old a lease is taken to be: from the time it was renewed so far, the time the handler
of a successful ping read and the time the ping was executed, the time it is renewed now. -/
abbrev Dating := (renewed read executed : Time) → Time

/-- What the queue stores: the time the ping executed last has read. -/
def lastExecuted : Dating := fun _ read _ => read

/-- Renewed when the ping is executed. -/
def atExecution : Dating := fun _ _ executed => executed

/-- Renewed at the latest time any ping has read. -/
def latestRead : Dating := fun renewed read _ => max renewed read

/-- When the lease of the worker on `q` was last renewed, after one more statement. -/
def renew (d : Dating) (q : ℕ) (key : String) (renewed : Time) (e : Event) : Time :=
  match e.toStep with
  | ⟨t, .pingQueued now id _, .ok affected⟩ =>
    if id = q ∧ 0 < affected ∧ e.call.worker = key then d renewed now t else renewed
  | _ => renewed

/-- Whenever a statement of the trace is executed, the last renewal is recent enough. -/
def keptFresh (d : Dating) (q : ℕ) (key : String) : Time → List Event → Bool
  | _, [] => true
  | renewed, e :: tr =>
    decide (e.input ≤ renewed + pingDeadline * second) && keptFresh d q key (renew d q key renewed e) tr

/-- If the queue row `q` is there, it is assigned to the worker with this key. -/
def heldBy (q : ℕ) (key : String) (db : Db) : Bool :=
  db.queue.rows.all fun row => row.id != q || assignedTo q key db

/-- Each statement was executed no earlier than the ones before it. -/
def NonDecreasing (tr : List Event) : Prop := (tr.map (·.input)).Pairwise (· ≤ ·)

instance (tr : List Event) : Decidable (NonDecreasing tr) :=
  inferInstanceAs (Decidable (List.Pairwise _ _))

section
variable {env : Env} {tr post : List Event} {e : Event} {q : ℕ} {key : String} {renewed : Time}

lemma heldBy_of_lease {db : Db} (h : LeasesAgree tr db) (hl : lease q tr = some (key, renewed)) :
    heldBy q key db = true := by
  simp only [heldBy, List.all_eq_true, Bool.or_eq_true, bne_iff_ne, ne_eq]
  intro row hrow
  by_cases hid : row.id = q
  · right
    have hrowl := h.row row hrow
    rw [hid, hl] at hrowl
    rw [← hid, assignedTo_iff hrow rfl hrowl]
    exact ⟨renewed, rfl⟩
  · exact .inl hid

/-- A handler read the clock before it executes a statement that uses the reading. -/
lemma read_le (hh : History (exec env) justified env.start (tr ++ [e]))
    (hclock : NonDecreasing (tr ++ [e])) {now : Time} (h : Did (own e.thread tr) .now now) :
    now ≤ e.input := by
  obtain ⟨pre, e₀, post, rfl, -, t, he₀⟩ := did_event h
  have hans := (History.event (by simpa using hh : History _ _ _ (pre ++ e₀ :: (post ++ [e])))).2.1
  obtain ⟨⟨t', s', a'⟩, i', c, db⟩ := e₀
  cases he₀
  obtain rfl : now = t := Except.ok.inj hans
  simp only [NonDecreasing, List.map_append, List.map_cons, List.pairwise_append,
    List.pairwise_cons] at hclock
  exact hclock.2.2 now (by simp) e.input (by simp)

/-- While the lease is fresh, no statement takes it away or grants it again. -/
lemma lease_step (hh : History (exec env) justified env.start (tr ++ [e]))
    (hclock : NonDecreasing (tr ++ [e])) (hl : lease q tr = some (key, renewed))
    (hfresh : e.input ≤ renewed + pingDeadline * second) :
    lease q (tr ++ [e]) = some (key, renew lastExecuted q key renewed e) ∧
      grantsAny q e = false := by
  have hagree := leases_agree hh.of_append
  have hbefore := hh.last.1
  rw [← hbefore] at hagree
  rw [lease_snoc, hl]
  obtain ⟨hans, hjust⟩ := hh.last.2.imp_right And.left
  -- The row is not free, and a worker that renews it is its holder.
  have htaken (row : Queued) (hrow : row ∈ e.before.queue.rows) (hid : row.id = q) :
      ∃ id, row.worker = some id ∧ HasWorker key id e.before.workers := by
    have := hagree.row row hrow
    rw [hid, hl] at this
    exact this.1
  have hauthed (k : String) (w : Worker) (h : AuthedAs (own e.thread tr) k w) :
      HasWorker k w.id e.before.workers := hbefore ▸ authed_hasWorker hh.of_append h
  have hread (t : Time) (ht : Did (own e.thread tr) .now t) : t ≤ e.input := read_le hh hclock ht
  obtain ⟨⟨t, s, a⟩, i, c, db⟩ := e
  cases s with
  | clearStale cutoff =>
    obtain rfl : a = .ok () := hans
    obtain ⟨-, now, hnow, rfl⟩ := hjust
    have hcut : now - pingDeadline * second ≤ renewed := by linarith [hread now hnow]
    refine ⟨?_, rfl⟩
    rw [leaseStep_clearStale, Option.filter_some, if_pos (by simpa using hcut)]
    rfl
  | popJob w r =>
    obtain rfl : a = .ok (popJob env.ties w r t db).1 := hans
    rcases popJob_cases env.ties w r t db with ⟨⟨row, b, src⟩, hrow, hpop⟩ | hpop <;> rw [hpop]
    · obtain ⟨hmem, hfree, -⟩ := mem_availableJobs hrow
      have hne : row.id ≠ q := by
        intro hid
        obtain ⟨id, hid', -⟩ := htaken row hmem hid
        rw [hfree] at hid'
        cases hid'
      refine ⟨?_, by simp [grantsAny, grants, queuedJob, hne]⟩
      change (if row.id = q then _ else _) = _
      rw [if_neg hne]
      rfl
    · exact ⟨rfl, rfl⟩
  | pingQueued now id wid =>
    obtain ⟨-, -, w, hauth, rfl⟩ := hjust
    obtain rfl : a = .ok (pingQueued now id w.id db).1 := hans
    refine ⟨?_, rfl⟩
    change (if id = q ∧ 0 < (pingQueued now id w.id db).1 then some (c.worker, now) else _) =
      some (key, if id = q ∧ 0 < (pingQueued now id w.id db).1 ∧ c.worker = key then now else renewed)
    by_cases hp : id = q ∧ 0 < (pingQueued now id w.id db).1
    · have hkey : c.worker = key := by
        obtain ⟨rfl, hpos⟩ := hp
        obtain ⟨row, hrow⟩ := List.length_pos_iff_exists_mem.mp hpos
        obtain ⟨hrow, hheld⟩ := List.mem_filter.mp hrow
        obtain ⟨hid, hw⟩ : row.id = id ∧ row.worker = some w.id := by simpa using hheld
        obtain ⟨wid, hwid, hkey⟩ := htaken row hrow hid
        obtain rfl : w.id = wid := by simpa [hw] using hwid
        exact (hauthed _ _ hauth).key_eq hkey
      rw [if_pos hp, if_pos ⟨hp.1, hp.2, hkey⟩, hkey]
    · rw [if_neg hp, if_neg fun h => hp ⟨h.1, h.2.1⟩]
  | _ => exact ⟨rfl, rfl⟩

/-- A lease that is kept fresh is kept. -/
lemma lease_kept (hh : History (exec env) justified env.start (tr ++ post))
    (hclock : NonDecreasing (tr ++ post)) (hl : lease q tr = some (key, renewed))
    (hfresh : keptFresh lastExecuted q key renewed post = true) :
    (∀ e ∈ post, heldBy q key e.before = true ∧ grantsAny q e = false) ∧
      heldBy q key (stateAfter (exec env) env.start (tr ++ post)) = true := by
  induction post generalizing tr renewed with
  | nil =>
    rw [List.append_nil] at hh ⊢
    exact ⟨by simp, heldBy_of_lease (leases_agree hh) hl⟩
  | cons e post ih =>
    obtain ⟨hnow, hlater⟩ : e.input ≤ renewed + pingDeadline * second ∧
        keptFresh lastExecuted q key (renew lastExecuted q key renewed e) post = true := by
      simpa [keptFresh] using hfresh
    have hassoc : tr ++ e :: post = tr ++ [e] ++ post := by simp
    rw [hassoc] at hh hclock ⊢
    have hclock' : NonDecreasing (tr ++ [e]) := by
      simp only [NonDecreasing, List.map_append] at hclock ⊢
      exact (List.pairwise_append.mp hclock).1
    obtain ⟨hl', hgrant⟩ := lease_step hh.of_append hclock' hl hnow
    obtain ⟨hall, hend⟩ := ih hh hclock hl' hlater
    refine ⟨fun x hx => ?_, hend⟩
    rcases List.mem_cons.mp hx with rfl | hx
    · refine ⟨?_, hgrant⟩
      rw [hh.of_append.last.1]
      exact heldBy_of_lease (leases_agree hh.of_append.of_append) hl
    · exact hall x hx

end

/-- **A worker keeps the job it was granted** for as long as the time the queue stores as its
last ping is recent enough: whenever a statement is executed the row, if it is there, is assigned
to it, and nobody is handed the job again. -/
theorem lease_exclusive (env : Env) (as : Schedule) (q : ℕ) (key : String) (pre post : List Event)
    (g : Event) (htr : trace env as = pre ++ g :: post) (hclock : NonDecreasing (trace env as))
    (hgrant : grants q key g = true)
    (hfresh : keptFresh lastExecuted q key g.input post = true) :
    (∀ e ∈ post, heldBy q key e.before = true ∧ grantsAny q e = false) ∧
      heldBy q key (runPool env as).state = true := by
  have hh := trace_history env as
  rw [state_runPool]
  rw [htr] at hh hclock ⊢
  have hassoc : pre ++ g :: post = pre ++ [g] ++ post := by simp
  rw [hassoc] at hh hclock ⊢
  refine lease_kept hh hclock ?_ hfresh
  rw [lease_snoc]
  obtain ⟨⟨t, s, a⟩, i, c, db⟩ := g
  cases s with
  | popJob w r =>
    rcases a with err | _ | job
    · cases hgrant
    · cases hgrant
    · obtain ⟨hid, hkey⟩ : job.job.id = q ∧ c.worker = key := by simpa [grants] using hgrant
      change (if job.job.id = q then some (c.worker, t) else _) = _
      rw [if_pos hid, hkey]
  | _ => cases hgrant

/-- `alice` pings her job while `bob` asks for work. -/
def pingedJob : Schedule :=
  handedOut ++ serveAt 2 (.pingJob (workerHeaders "alice") 1) (400 * second) ++
  serveAt 3 (.requestWork (workerHeaders "bob") ⟨["debian"], "amd64", ["amd64"]⟩) (900 * second)

theorem lease_exclusive_pingedJob :
    ∃ pre g post, trace (openDaemon none) pingedJob = pre ++ g :: post ∧
      (∀ e ∈ post, heldBy 1 "alice" e.before = true ∧ grantsAny 1 e = false) ∧
        heldBy 1 "alice" (runPool (openDaemon none) pingedJob).state = true := by
  have hgrant : (((trace (openDaemon none) pingedJob)[6]?).map fun g => grants 1 "alice" g &&
      keptFresh lastExecuted 1 "alice" g.input ((trace (openDaemon none) pingedJob).drop 7)) =
        some true := by decide +kernel
  obtain ⟨g, hg, hok⟩ := Option.map_eq_some_iff.mp hgrant
  rw [Bool.and_eq_true] at hok
  exact ⟨_, g, _, eq_take_cons_drop hg, lease_exclusive (openDaemon none) pingedJob 1 "alice" _ _ g
    (eq_take_cons_drop hg) (by decide +kernel) hok.1 hok.2⟩

/-- Two pings of `alice`: the first reads the clock at 100 s, the second at 200 s, and the first
is executed last. At 650 s `bob` asks for work. -/
def overtakenPing : Schedule :=
  handedOut ++ .call (.pingJob (workerHeaders "alice") 1) ::
  List.replicate 3 (.step 2 (100 * second)) ++
  serveAt 3 (.pingJob (workerHeaders "alice") 1) (200 * second) ++ .step 2 (300 * second) ::
  serveAt 4 (.requestWork (workerHeaders "bob") ⟨["debian"], "amd64", ["amd64"]⟩) (650 * second)

/-- The worker keeps its job for as long as its lease is fresh by the given dating. -/
def ExclusiveBy (d : Dating) : Prop :=
  ∀ env as q key pre post g, trace env as = pre ++ g :: post → NonDecreasing (trace env as) →
    grants q key g = true → keptFresh d q key g.input post = true →
      (∀ e ∈ post, heldBy q key e.before = true ∧ grantsAny q e = false) ∧
        heldBy q key (runPool env as).state = true

lemma overtakenPing_not_exclusive {d : Dating} (hd : d ∈ [atExecution, latestRead]) :
    ¬ ExclusiveBy d := by
  intro h
  have hgrant : (((trace (openDaemon none) overtakenPing)[6]?).map fun g =>
      grants 1 "alice" g && [atExecution, latestRead].all fun d =>
        keptFresh d 1 "alice" g.input ((trace (openDaemon none) overtakenPing).drop 7)) =
      some true := by decide +kernel
  obtain ⟨g, hg, hok⟩ := Option.map_eq_some_iff.mp hgrant
  rw [Bool.and_eq_true, List.all_eq_true] at hok
  have hlost : heldBy 1 "alice" (runPool (openDaemon none) overtakenPing).state = false := by
    decide +kernel
  have hkept := (h (openDaemon none) overtakenPing 1 "alice" _ _ g (eq_take_cons_drop hg)
    (by decide +kernel) hok.1 (hok.2 d hd)).2
  rw [hlost] at hkept
  cases hkept

/-- **A worker loses a job it pinged within the deadline**, whether a ping counts from when it was
executed or from the latest time read: the ping that is executed last sets the clock back. -/
theorem overtakenPing_loses_lease : ¬ ExclusiveBy atExecution ∧ ¬ ExclusiveBy latestRead :=
  ⟨overtakenPing_not_exclusive (by simp), overtakenPing_not_exclusive (by simp)⟩

end Rebuilderd.Daemon
