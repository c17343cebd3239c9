import Rebuilderd.Daemon.Runs

/-!
Leases: which worker holds a job, as the history of a run tells it and as the queue has it.

A job is granted by `request_work`, renewed by a ping of its worker, and lost when
`request_work` of any worker finds the last ping too old. The three columns of the queue that
hold the lease agree with that history in every run.
-/

namespace Rebuilderd.Daemon

open Rebuilderd.Lib Rebuilderd.Common Prog

/-! ### What statements do to the leases in the queue -/

/-- The columns a lease consists of, and the two that never change. -/
structure SameLease (q q' : Queued) : Prop where
  id : q'.id = q.id
  buildInputId : q'.buildInputId = q.buildInputId
  startedAt : q'.startedAt = q.startedAt
  worker : q'.worker = q.worker
  lastPing : q'.lastPing = q.lastPing

lemma SameLease.refl (q : Queued) : SameLease q q := ⟨rfl, rfl, rfl, rfl, rfl⟩

lemma SameLease.trans {a b c : Queued} (h : SameLease a b) (h' : SameLease b c) :
    SameLease a c :=
  ⟨h'.1.trans h.1, h'.2.trans h.2, h'.3.trans h.3, h'.4.trans h.4, h'.5.trans h.5⟩

/-- No lease is granted, renewed or lost: jobs may go, and new ones come without a lease. -/
structure LeasesKept (db db' : Db) : Prop where
  seq : db.queue.seq ≤ db'.queue.seq
  row : ∀ q' ∈ db'.queue.rows, (∃ q ∈ db.queue.rows, SameLease q q') ∨
    (db.queue.seq < q'.id ∧ q'.startedAt = none ∧ q'.worker = none ∧ q'.lastPing = none)

namespace LeasesKept

variable {db db' db'' : Db}

lemma of_queue_eq (h : db'.queue = db.queue) : LeasesKept db db' :=
  ⟨by rw [h], fun q hq => .inl ⟨q, h ▸ hq, .refl q⟩⟩

lemma of_subset (hs : db'.queue.seq = db.queue.seq)
    (h : ∀ q ∈ db'.queue.rows, q ∈ db.queue.rows) : LeasesKept db db' :=
  ⟨hs.ge, fun q hq => .inl ⟨q, h q hq, .refl q⟩⟩

lemma trans (h : LeasesKept db db') (h' : LeasesKept db' db'') : LeasesKept db db'' := by
  refine ⟨h.seq.trans h'.seq, fun q hq => ?_⟩
  rcases h'.row q hq with ⟨q₁, hq₁, h₁⟩ | ⟨hlt, hnone⟩
  · rcases h.row q₁ hq₁ with ⟨q₂, hq₂, h₂⟩ | ⟨hlt, hs, hw, hp⟩
    · exact .inl ⟨q₂, hq₂, h₂.trans h₁⟩
    · exact .inr ⟨h₁.id ▸ hlt, h₁.startedAt.trans hs, h₁.worker.trans hw, h₁.lastPing.trans hp⟩
  · exact .inr ⟨lt_of_le_of_lt h.seq hlt, hnone⟩

end LeasesKept

lemma leasesKept_upsertQueued (new : NewQueued) (db : Db) : LeasesKept db (new.upsert db) := by
  rcases new.upsert_cases db with ⟨r, -, -, h⟩ | ⟨-, h⟩
  · refine ⟨by rw [h]; exact Nat.le_succ _, fun q' hq' => .inl ?_⟩
    rw [h, Table.rows_skip] at hq'
    obtain ⟨q, hq, rfl⟩ := (Table.mem_update _).mp hq'
    refine ⟨q, hq, ?_⟩
    split
    · rename_i hb
      exact ⟨rfl, (by simpa using hb : q.buildInputId = new.buildInputId).symm, rfl, rfl, rfl⟩
    · exact .refl q
  · refine ⟨by rw [h]; exact Nat.le_succ _, fun q' hq' => ?_⟩
    rw [h] at hq'
    rcases (Table.mem_insert _).mp hq' with hq | rfl
    · exact .inl ⟨q', hq, .refl q'⟩
    · exact .inr ⟨Nat.lt_succ_self _, rfl, rfl, rfl⟩

lemma leasesKept_deleteQueuedOf (inputs : List ℕ) (db : Db) :
    LeasesKept db (deleteQueuedOf inputs db) :=
  .of_subset rfl fun _ hq => ((Table.mem_delete _).mp hq).1

lemma leasesKept_markNonRetriable (id : ℕ) (db : Db) :
    LeasesKept db (markBuildInputFriendsAsNonRetriable db id) :=
  have hretry : LeasesKept db (setNextRetry (buildInputFriends db id) none db) := .of_queue_eq rfl
  hretry.trans (leasesKept_deleteQueuedOf _ _)

lemma leasesKept_commit {c : ScheduleConfig} {T : Ties} {now : Time} {r : PackageReport}
    {db db' : Db} (h : commitPackageReport c T now r db = .ok db') : LeasesKept db db' := by
  obtain ⟨db₁, hf, rfl⟩ := commitPackageReport_ok h
  have hdrop : LeasesKept db₁ (dropUnseenScopedJobs r db₁) :=
    .of_subset rfl fun _ hq => ((Table.mem_delete _).mp hq).1
  refine LeasesKept.trans ?_ hdrop
  refine foldlM_ok (I := fun _ => LeasesKept db) hf (.of_queue_eq rfl) fun _ p d d' _ hd hp => ?_
  obtain ⟨first, -, he⟩ := importPackage_ok hp
  have himport := (importWithHistory_frame now first r p d).queue
  refine hd.trans (.trans (.of_queue_eq himport) ?_)
  rcases enqueueImported_cases he with ⟨-, rfl⟩ | ⟨-, -, n, -, ⟨-, rfl⟩ | ⟨-, priority, rfl⟩⟩
  · exact .of_queue_eq rfl
  · exact leasesKept_markNonRetriable _ _
  · exact leasesKept_upsertQueued _ _

/-- The statements that grant, renew or take away leases. -/
def Stmt.touchesLeases : Stmt → Bool
  | .clearStale _ | .popJob _ _ | .pingQueued _ _ _ => true
  | _ => false

/-- Every other statement keeps the leases. -/
theorem exec_leasesKept (env : Env) (t : Time) {s : Stmt} (hs : s.touchesLeases = false) (db : Db) :
    LeasesKept db ((exec env).answer t s db).2 := by
  cases s with
  | clearStale cutoff => cases hs
  | popJob w r => cases hs
  | pingQueued now id w => cases hs
  | deleteQueued ids => exact .of_subset rfl fun _ hq => ((Table.mem_delete _).mp hq).1
  | upsertQueued new => exact leasesKept_upsertQueued new db
  | deleteQueuedOf inputs => exact leasesKept_deleteQueuedOf inputs db
  | commitPackageReport now r =>
    refine Exec.answer_inv (I := LeasesKept db) (.of_queue_eq rfl) fun u db' h => ?_
    exact leasesKept_commit (exec_commit h)
  | refreshWorker key now =>
    refine Exec.answer_inv (I := LeasesKept db) (.of_queue_eq rfl) fun u db' h => .of_queue_eq ?_
    simp only [exec, refreshWorker] at h
    split at h <;> cases h
    rfl
  | findQueued id =>
    refine Exec.answer_inv (I := LeasesKept db) (.of_queue_eq rfl) fun q db' h => .of_queue_eq ?_
    rw [(exec_findQueued h).2.2]
  | maxRetriesOf ids =>
    refine Exec.answer_inv (I := LeasesKept db) (.of_queue_eq rfl) fun n db' h => .of_queue_eq ?_
    rw [exec_maxRetriesOf h]
  | _ => exact .of_queue_eq rfl

/-- The statements that can add a queue row. -/
def Stmt.enqueues : Stmt → Bool
  | .upsertQueued _ | .commitPackageReport _ _ => true
  | _ => false

/-- After any other statement, a queue row is one that was there, with its id and build input. -/
lemma exec_oldRow (env : Env) (t : Time) {s : Stmt} (hs : s.enqueues = false) (db : Db) :
    ((exec env).answer t s db).2.queue.seq = db.queue.seq ∧
      ∀ q' ∈ ((exec env).answer t s db).2.queue.rows,
        ∃ q ∈ db.queue.rows, q.id = q'.id ∧ q.buildInputId = q'.buildInputId := by
  have hsame (d : Db) (h : d.queue = db.queue) : d.queue.seq = db.queue.seq ∧
      ∀ q' ∈ d.queue.rows, ∃ q ∈ db.queue.rows, q.id = q'.id ∧ q.buildInputId = q'.buildInputId := by
    rw [h]
    exact ⟨rfl, fun q hq => ⟨q, hq, rfl, rfl⟩⟩
  have hmap (f : Queued → Queued) (hid : ∀ q, (f q).id = q.id)
      (hb : ∀ q, (f q).buildInputId = q.buildInputId) (p : Queued → Bool) :
      ∀ q' ∈ (db.queue.update p f hid).rows,
        ∃ q ∈ db.queue.rows, q.id = q'.id ∧ q.buildInputId = q'.buildInputId := by
    intro q' hq'
    obtain ⟨q, hq, rfl⟩ := List.mem_map.mp hq'
    refine ⟨q, hq, ?_⟩
    split
    · exact ⟨(hid q).symm, (hb q).symm⟩
    · exact ⟨rfl, rfl⟩
  cases s with
  | clearStale cutoff =>
    exact ⟨rfl, hmap (fun q => { q with worker := none, startedAt := none, lastPing := none })
      (fun _ => rfl) (fun _ => rfl) fun q => q.lastPing.any (· < cutoff)⟩
  | popJob w r =>
    change (popJob env.ties w r t db).2.queue.seq = _ ∧
      ∀ q' ∈ (popJob env.ties w r t db).2.queue.rows, _
    rcases popJob_cases env.ties w r t db with ⟨row, -, h⟩ | h <;> rw [h]
    · exact ⟨rfl, hmap (fun q => { q with startedAt := some t, worker := some w.id, lastPing := some t })
        (fun _ => rfl) (fun _ => rfl) fun q => q.id == (queuedJob row).id⟩
    · exact hsame db rfl
  | pingQueued now id w =>
    exact ⟨rfl, hmap (fun q => { q with lastPing := some now }) (fun _ => rfl) (fun _ => rfl)
      fun q => q.id == id && q.worker == some w⟩
  | deleteQueued ids => exact ⟨rfl, fun q hq => ⟨q, ((Table.mem_delete _).mp hq).1, rfl, rfl⟩⟩
  | deleteQueuedOf inputs => exact ⟨rfl, fun q hq => ⟨q, ((Table.mem_delete _).mp hq).1, rfl, rfl⟩⟩
  | upsertQueued new => cases hs
  | commitPackageReport now r => cases hs
  | refreshWorker key now =>
    refine hsame _ (Exec.answer_inv (E := exec env) (I := fun d : Db => d.queue = db.queue) rfl
      fun w db' h => ?_)
    simp only [exec, refreshWorker] at h
    split at h <;> cases h
    rfl
  | findQueued id =>
    refine hsame _ (Exec.answer_inv (I := fun d : Db => d.queue = db.queue) rfl fun q db' h => ?_)
    rw [(exec_findQueued h).2.2]
  | maxRetriesOf ids =>
    refine hsame _ (Exec.answer_inv (I := fun d : Db => d.queue = db.queue) rfl fun n db' h => ?_)
    rw [exec_maxRetriesOf h]
  | _ => exact hsame _ rfl

/-- A queue row keeps its id and its build input; a new one gets an id never used before. -/
theorem exec_queueIds (env : Env) (t : Time) (s : Stmt) (db : Db) :
    db.queue.seq ≤ ((exec env).answer t s db).2.queue.seq ∧
      ∀ q' ∈ ((exec env).answer t s db).2.queue.rows,
        (∃ q ∈ db.queue.rows, q.id = q'.id ∧ q.buildInputId = q'.buildInputId) ∨
          db.queue.seq < q'.id := by
  rcases hs : s.enqueues with _ | _
  · obtain ⟨hseq, hrow⟩ := exec_oldRow env t hs db
    exact ⟨hseq.ge, fun q hq => .inl (hrow q hq)⟩
  · have ht : s.touchesLeases = false := by cases s <;> first | rfl | cases hs
    have hkept := exec_leasesKept env t ht db
    refine ⟨hkept.seq, fun q' hq' => ?_⟩
    rcases hkept.row q' hq' with ⟨q, hq, h⟩ | ⟨hlt, -⟩
    · exact .inl ⟨q, hq, h.id.symm, h.buildInputId.symm⟩
    · exact .inr hlt

/-- The queue row `q` existed and is gone. -/
def Gone (q : ℕ) (db : Db) : Prop :=
  q ≤ db.queue.seq ∧ ∀ row ∈ db.queue.rows, row.id ≠ q

/-- A queue row that is gone does not come back. -/
lemma exec_gone (env : Env) (q : ℕ) (t : Time) (s : Stmt) (db : Db) (h : Gone q db) :
    Gone q ((exec env).answer t s db).2 := by
  obtain ⟨hseq, hrow⟩ := exec_queueIds env t s db
  refine ⟨h.1.trans hseq, fun q' hq' => ?_⟩
  rcases hrow q' hq' with ⟨q₀, hq₀, hid, -⟩ | hlt
  · exact hid ▸ h.2 q₀ hq₀
  · exact (lt_of_le_of_lt h.1 hlt).ne'

/-! ### Workers keep their key and their id -/

def HasWorker (key : String) (id : ℕ) (ws : Table Worker) : Prop :=
  ∃ w ∈ ws.rows, w.key = key ∧ w.id = id

/-- An id belongs to one key. -/
lemma HasWorker.key_eq {key key' : String} {id : ℕ} {ws : Table Worker} (h : HasWorker key id ws)
    (h' : HasWorker key' id ws) : key = key' := by
  obtain ⟨w, hw, rfl, rfl⟩ := h
  obtain ⟨w', hw', rfl, hid⟩ := h'
  rw [Table.eq_of_key hw' hw hid]

lemma HasWorker.update {key : String} {id : ℕ} {ws : Table Worker} (h : HasWorker key id ws)
    {p : Worker → Bool} {f : Worker → Worker} (hid : ∀ w, (f w).id = w.id)
    (hkey : ∀ w, p w = true → (f w).key = w.key) : HasWorker key id (ws.update p f hid) := by
  obtain ⟨w, hw, rfl, rfl⟩ := h
  refine ⟨if p w then f w else w, List.mem_map.mpr ⟨w, hw, rfl⟩, ?_⟩
  split
  · rename_i hp
    exact ⟨hkey w hp, hid w⟩
  · exact ⟨rfl, rfl⟩

lemma upsertWorker_hasWorker (new : NewWorker) (db : Db) :
    HasWorker new.key (new.upsert db).1.id (new.upsert db).2.workers ∧
      ∀ key id, HasWorker key id db.workers → HasWorker key id (new.upsert db).2.workers := by
  unfold NewWorker.upsert
  dsimp only
  rcases Table.upsert_cases db.workers (fun w => w.key == new.key) new.row
    (fun w => new.row w.id) (fun _ => rfl) (fun _ => rfl) with ⟨r, hr, hk, h⟩ | ⟨-, h⟩ <;> rw [h]
  · refine ⟨⟨new.row r.id, List.mem_map.mpr ⟨r, hr, by simp [hk]⟩, rfl, rfl⟩, fun key id hw => ?_⟩
    exact hw.update (p := fun w => w.key == new.key) (f := fun w => new.row w.id) (fun _ => rfl)
      fun w hwk => (by simpa using hwk : w.key = new.key).symm
  · refine ⟨⟨_, List.mem_append_right _ (List.mem_singleton_self _), rfl, rfl⟩, ?_⟩
    rintro key id ⟨w, hw, hwk⟩
    exact ⟨w, List.mem_append_left _ hw, hwk⟩

lemma refreshWorker_ok {key : String} {now : Time} {db db' : Db} {w : Worker}
    (h : refreshWorker key now db = .ok (w, db')) :
    HasWorker key w.id db'.workers ∧
      ∀ k id, HasWorker k id db.workers → HasWorker k id db'.workers := by
  unfold refreshWorker at h
  dsimp only at h
  split at h
  · rename_i r hr
    cases h
    have hk : r.key = key := by simpa using List.find?_some hr
    refine ⟨⟨{ r with lastPing := now, online := true }, List.mem_map.mpr
      ⟨r, List.mem_of_find?_eq_some hr, by simp [hk]⟩, hk, rfl⟩, fun k id hw => ?_⟩
    exact hw.update (p := fun w => w.key == key)
      (f := fun w => { w with lastPing := now, online := true }) (fun _ => rfl) fun _ _ => rfl
  · cases h

/-- No statement removes a worker or changes its key. -/
lemma exec_hasWorker (env : Env) (key : String) (id : ℕ) (t : Time) (s : Stmt) (db : Db)
    (h : HasWorker key id db.workers) :
    HasWorker key id ((exec env).answer t s db).2.workers := by
  cases s with
  | upsertWorker new => exact (upsertWorker_hasWorker new db).2 key id h
  | refreshWorker k now =>
    exact Exec.answer_inv (E := exec env) (I := fun d : Db => HasWorker key id d.workers) h
      fun w db' hok => (refreshWorker_ok hok).2 key id h
  | popJob w r =>
    change HasWorker key id (popJob env.ties w r t db).2.workers
    unfold popJob
    split
    · rename_i row _
      exact h.update (p := fun v => v.id == w.id) (f := fun v =>
        { v with
          online := true
          lastPing := t
          status := some ("working hard on " ++ (queuedJob row).name ++ " " ++
            (queuedJob row).version) }) (fun _ => rfl) fun _ _ => rfl
    · exact h
  | commitPackageReport now r =>
    refine Exec.answer_inv (I := fun d : Db => HasWorker key id d.workers) h fun u db' hok => ?_
    obtain ⟨db₂, hf, rfl⟩ := commitPackageReport_ok (exec_commit hok)
    suffices hw : db₂.workers = db.workers from hw ▸ h
    refine foldlM_ok (I := fun _ d => d.workers = db.workers) hf rfl fun _ p d d' _ hd hp => ?_
    obtain ⟨first, -, he⟩ := importPackage_ok hp
    have himport := (importWithHistory_frame now first r p d).workers.trans hd
    rcases enqueueImported_cases he with ⟨-, rfl⟩ | ⟨-, -, n, -, ⟨-, rfl⟩ | ⟨-, priority, rfl⟩⟩ <;>
      exact himport
  | findQueued id' =>
    refine Exec.answer_inv (I := fun d : Db => HasWorker key id d.workers) h fun q db' hok => ?_
    rw [(exec_findQueued hok).2.2]
    exact h
  | maxRetriesOf ids =>
    refine Exec.answer_inv (I := fun d : Db => HasWorker key id d.workers) h fun n db' hok => ?_
    rw [exec_maxRetriesOf hok]
    exact h
  | _ => exact h

/-! ### The lease in the history of a run -/

/-- The holder of the job `q` and the time of its last ping, after one more statement. -/
def leaseStep (q : ℕ) (l : Option (String × Time)) (e : Event) : Option (String × Time) :=
  match e.toStep with
  | ⟨t, .popJob _ _, .ok (some job)⟩ => if job.job.id = q then some (e.call.worker, t) else l
  | ⟨_, .pingQueued now id _, .ok affected⟩ =>
    if id = q ∧ 0 < affected then some (e.call.worker, now) else l
  | ⟨_, .clearStale cutoff, .ok _⟩ => l.filter fun (_, ping) => decide (cutoff ≤ ping)
  | _ => l

/-- The lease of the job `q` after the trace `tr`. -/
def lease (q : ℕ) (tr : List Event) : Option (String × Time) := tr.foldl (leaseStep q) none

@[simp] lemma lease_nil (q : ℕ) : lease q [] = none := rfl
@[simp] lemma lease_snoc (q : ℕ) (tr : List Event) (e : Event) :
    lease q (tr ++ [e]) = leaseStep q (lease q tr) e := by
  simp [lease]

lemma leaseStep_clearStale (q : ℕ) (l : Option (String × Time)) (t cutoff : Time) (i : ℕ) (c : Call)
    (db : Db) : leaseStep q l ⟨⟨t, .clearStale cutoff, .ok ()⟩, i, c, db⟩ =
      l.filter fun (_, ping) => decide (cutoff ≤ ping) := rfl

lemma leaseStep_of_not_touches {q : ℕ} {l : Option (String × Time)} {e : Event}
    (h : e.stmt.touchesLeases = false) : leaseStep q l e = l := by
  obtain ⟨⟨t, s, a⟩, i, c, db⟩ := e
  cases s <;> first | rfl | cases h

/-- The columns of a queue row say the same as the history. -/
def HasLease (ws : Table Worker) (q : Queued) : Option (String × Time) → Prop
  | none => q.worker = none ∧ q.lastPing = none
  | some (key, ping) => (∃ id, q.worker = some id ∧ HasWorker key id ws) ∧ q.lastPing = some ping

lemma HasLease.of_sameLease {ws ws' : Table Worker} {q q' : Queued} {l : Option (String × Time)}
    (h : HasLease ws q l) (hw : q'.worker = q.worker) (hp : q'.lastPing = q.lastPing)
    (hws : ∀ key id, HasWorker key id ws → HasWorker key id ws') : HasLease ws' q' l := by
  cases l with
  | none => exact ⟨hw.trans h.1, hp.trans h.2⟩
  | some l =>
    obtain ⟨⟨id, hid, hk⟩, hping⟩ := h
    exact ⟨⟨id, hw.trans hid, hws _ _ hk⟩, hp.trans hping⟩

lemma hasLease_clear {ws : Table Worker} {q : Queued} {l : Option (String × Time)} (cutoff : Time)
    (h : HasLease ws q l) :
    HasLease ws (if q.lastPing.any (· < cutoff) then
      { q with worker := none, startedAt := none, lastPing := none } else q)
      (l.filter fun (_, ping) => decide (cutoff ≤ ping)) := by
  rcases l with _ | ⟨key, ping⟩
  · simpa [h.2] using h
  · rcases le_or_gt cutoff ping with hle | hlt
    · rw [if_neg (by simpa [h.2] using hle), Option.filter_some, if_pos (by simpa using hle)]
      exact h
    · rw [if_pos (by simpa [h.2] using hlt), Option.filter_some, if_neg (by simpa using hlt)]
      exact ⟨rfl, rfl⟩

/-- The leases of the queue agree with the history `tr`; no id that is still to come has one. -/
structure LeasesAgree (tr : List Event) (db : Db) : Prop where
  row : ∀ q ∈ db.queue.rows, HasLease db.workers q (lease q.id tr)
  fresh : ∀ id, db.queue.seq < id → lease id tr = none

section
variable {env : Env} {tr : List Event} {i : ℕ} {c : Call} {t : Time} {db : Db}

/-- The row a handler was authenticated with belongs to the key of the request. -/
lemma authed_hasWorker (hh : History (exec env) justified env.start tr) {key : String}
    {w : Worker} (h : AuthedAs (own i tr) key w) :
    HasWorker key w.id (stateAfter (exec env) env.start tr).workers := by
  rcases h with ⟨now, h⟩ | ⟨new, rfl, h⟩
  · exact did_stable (I := fun db => HasWorker key w.id db.workers) (exec_hasWorker env key w.id) hh h
      fun t db db' hok => (refreshWorker_ok hok).1
  · refine did_stable (I := fun db => HasWorker new.key w.id db.workers)
      (exec_hasWorker env new.key w.id) hh h fun t db db' hok => ?_
    have := (upsertWorker_hasWorker new db).1
    rwa [Except.ok.inj hok] at this

lemma leasesAgree_clearStale (ih : LeasesAgree tr db) (cutoff : Time) :
    LeasesAgree (tr ++ [⟨⟨t, .clearStale cutoff, .ok ()⟩, i, c, db⟩]) (clearStale cutoff db) := by
  refine ⟨fun q' hq' => ?_, fun id hid => ?_⟩ <;> rw [lease_snoc]
  · obtain ⟨q, hq, rfl⟩ := List.mem_map.mp hq'
    have hcleared := hasLease_clear cutoff (ih.row q hq)
    split at hcleared <;> rename_i hstale
    · rw [if_pos hstale]
      exact hcleared
    · rw [if_neg hstale]
      exact hcleared
  · rw [ih.fresh id hid]
    rfl

lemma leasesAgree_popJob (ih : LeasesAgree tr db) (T : Ties) {w : Worker}
    (hw : HasWorker c.worker w.id db.workers) (r : PopQueuedJobRequest)
    (hws : ∀ key id, HasWorker key id db.workers →
      HasWorker key id (popJob T w r t db).2.workers) :
    LeasesAgree (tr ++ [⟨⟨t, .popJob w r, .ok (popJob T w r t db).1⟩, i, c, db⟩])
      (popJob T w r t db).2 := by
  rcases popJob_cases T w r t db with ⟨⟨q₀, b, src⟩, hrow, hpop⟩ | hpop <;> rw [hpop] at hws ⊢
  · obtain ⟨hq₀, -⟩ := mem_availableJobs hrow
    refine ⟨fun q' hq' => ?_, fun id hid => ?_⟩ <;> rw [lease_snoc]
    · obtain ⟨q, hq, rfl⟩ := List.mem_map.mp hq'
      rcases eq_or_ne q.id q₀.id with hid | hid
      · rw [if_pos (by simpa [queuedJob] using hid)]
        change HasLease _ _ (if q₀.id = q.id then _ else _)
        rw [if_pos hid.symm]
        exact ⟨⟨w.id, rfl, hws _ _ hw⟩, rfl⟩
      · rw [if_neg (by simpa [queuedJob] using hid)]
        change HasLease _ _ (if q₀.id = q.id then _ else _)
        rw [if_neg hid.symm]
        exact (ih.row q hq).of_sameLease rfl rfl hws
    · have hne : q₀.id ≠ id := (lt_of_le_of_lt (db.queue.bound q₀ hq₀) hid).ne
      change (if q₀.id = id then _ else _) = none
      rw [if_neg hne, ih.fresh id hid]
  · refine ⟨fun q hq => ?_, fun id hid => ?_⟩ <;> rw [lease_snoc]
    · exact ih.row q hq
    · exact ih.fresh id hid

lemma leasesAgree_ping (ih : LeasesAgree tr db) {w : ℕ} (hw : HasWorker c.worker w db.workers)
    (now : Time) (id : ℕ) :
    LeasesAgree (tr ++ [⟨⟨t, .pingQueued now id w, .ok (pingQueued now id w db).1⟩, i, c, db⟩])
      (pingQueued now id w db).2 := by
  have hcount : 0 < (pingQueued now id w db).1 ↔
      ∃ q ∈ db.queue.rows, q.id = id ∧ q.worker = some w := by
    simp [pingQueued, List.length_pos_iff_exists_mem]
  refine ⟨fun q' hq' => ?_, fun id' hid => ?_⟩ <;> rw [lease_snoc]
  · obtain ⟨q, hq, rfl⟩ := List.mem_map.mp hq'
    by_cases hheld : q.id = id ∧ q.worker = some w
    · rw [if_pos (by simpa using hheld)]
      change HasLease _ _ (if id = q.id ∧ 0 < (pingQueued now id w db).1 then _ else _)
      rw [if_pos ⟨hheld.1.symm, hcount.mpr ⟨q, hq, hheld⟩⟩]
      exact ⟨⟨w, hheld.2, hw⟩, rfl⟩
    · rw [if_neg (by simpa using hheld)]
      change HasLease _ _ (if id = q.id ∧ 0 < (pingQueued now id w db).1 then _ else _)
      rw [if_neg]
      · exact ih.row q hq
      · rintro ⟨rfl, hpos⟩
        -- The row the ping renewed has the same id, so it is this one.
        obtain ⟨q₁, hq₁, hid, hwk⟩ := hcount.mp hpos
        rw [Table.eq_of_key hq₁ hq hid] at hwk
        exact hheld ⟨rfl, hwk⟩
  · change (if id = id' ∧ 0 < (pingQueued now id w db).1 then _ else _) = none
    rw [if_neg, ih.fresh id' hid]
    rintro ⟨rfl, hpos⟩
    obtain ⟨q₁, hq₁, rfl, -⟩ := hcount.mp hpos
    exact absurd (db.queue.bound q₁ hq₁) (not_le.mpr hid)

/-- Every statement is seen alike by the queue and by the history. -/
lemma leasesAgree_step {e : Event} (hh : History (exec env) justified env.start (tr ++ [e]))
    (ih : LeasesAgree tr e.before) : LeasesAgree (tr ++ [e]) (e.after (exec env)) := by
  obtain ⟨hbefore, hans, hjust, -⟩ := hh.last
  have hws := fun key id => exec_hasWorker env key id e.input e.stmt e.before
  rcases ht : e.stmt.touchesLeases with _ | _
  · have hkept := exec_leasesKept env e.input ht e.before
    refine ⟨fun q' hq' => ?_, fun id hid => ?_⟩ <;>
      rw [lease_snoc, leaseStep_of_not_touches ht]
    · rcases hkept.row q' hq' with ⟨q, hq, hsame⟩ | ⟨hlt, -, hw, hp⟩
      · rw [hsame.id]
        exact (ih.row q hq).of_sameLease hsame.worker hsame.lastPing hws
      · rw [ih.fresh _ hlt]
        exact ⟨hw, hp⟩
    · exact ih.fresh id (lt_of_le_of_lt hkept.seq hid)
  · have hauthed (key : String) (w : Worker) (h : AuthedAs (own e.thread tr) key w) :
        HasWorker key w.id e.before.workers := hbefore ▸ authed_hasWorker hh.of_append h
    obtain ⟨⟨t, s, a⟩, i, c, db⟩ := e
    cases s with
    | clearStale cutoff =>
      obtain rfl : a = .ok () := hans
      exact leasesAgree_clearStale ih cutoff
    | popJob w r =>
      obtain rfl : a = .ok (popJob env.ties w r t db).1 := hans
      exact leasesAgree_popJob ih env.ties (hauthed _ _ hjust.2) r hws
    | pingQueued now id w =>
      obtain ⟨-, -, w, hauth, rfl⟩ := hjust
      obtain rfl : a = .ok (pingQueued now id w.id db).1 := hans
      exact leasesAgree_ping ih (hauthed _ _ hauth) now id
    | _ => cases ht

/-- **The queue and the history of the run agree on who holds which job.** -/
theorem leases_agree (hh : History (exec env) justified env.start tr) :
    LeasesAgree tr (stateAfter (exec env) env.start tr) :=
  hh.invariant (I := LeasesAgree) ⟨nofun, fun _ _ => rfl⟩ leasesAgree_step

end

end Rebuilderd.Daemon
