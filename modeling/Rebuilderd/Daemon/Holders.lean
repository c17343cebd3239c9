import Rebuilderd.Daemon.SignUps

/-!
Who holds which job, while workers sign up and are removed.

The queue names the holder of a job by the id of its row, and the row can be deleted while the job is
held. A row that is written later never gets that id, even for the same key. So the queue still agrees
with the history of the run, as if all rows that ever were had been kept.
-/

namespace Rebuilderd.Daemon

open Rebuilderd.Lib Rebuilderd.Common Prog

/-- The statement as one of the daemon without sign-ups, if it is executed for one of its requests. -/
def servedEvent (e : AnyEvent) : Option Event :=
  match e.call, e.toStep with
  | .serve c, ⟨t, .inl s, a⟩ => some ⟨⟨t, s, a⟩, e.thread, c, e.before⟩
  | _, _ => none

/-- What is executed for the requests that the daemon serves without sign-ups. -/
def servedOf (tr : List AnyEvent) : List Event := tr.filterMap servedEvent

/-- The row of a worker with this key is answered, and it is `id`. -/
def AnswersWorker (key : String) (id : ℕ) (e : AnyEvent) : Prop :=
  (∃ t now w, e.toStep = Step.inl ⟨t, .refreshWorker key now, .ok w⟩ ∧ w.id = id) ∨
    ∃ t new w, e.toStep = Step.inl ⟨t, .upsertWorker new, .ok w⟩ ∧ new.key = key ∧ w.id = id

/-- `ws` has the workers of `db` and all that there were before them, and with these the queue agrees
with the history. -/
structure Remembered (tr : List AnyEvent) (db : Db) (ws : Table Worker) : Prop where
  seq : ws.seq = db.workers.seq
  row : ∀ key id, HasWorker key id db.workers → HasWorker key id ws
  answered : ∀ e ∈ tr, ∀ key id, AnswersWorker key id e → HasWorker key id ws
  leases : LeasesAgree (servedOf tr) { db with workers := ws }

section
variable {env : Env} {tr : List AnyEvent} {e : AnyEvent} {ws : Table Worker}

lemma servedOf_snoc (tr : List AnyEvent) (e : AnyEvent) :
    servedOf (tr ++ [e]) = servedOf tr ++ (servedEvent e).toList := by
  rw [servedOf, List.filterMap_append]
  rcases h : servedEvent e with _ | e' <;> simp [servedOf, h]

lemma servedEvent_serve {c : Call} {s : Step Stmt Stmt.Answer Err Time} (hcall : e.call = .serve c)
    (hstep : e.toStep = Step.inl s) : servedEvent e = some ⟨s, e.thread, c, e.before⟩ := by
  rw [servedEvent, hcall, hstep]
  rfl

/-- The queue agrees with a history that says the same of the leases, if they are kept. -/
lemma LeasesAgree.kept {tr tr' : List Event} {db db' : Db} (h : LeasesAgree tr db)
    (hlease : ∀ q, lease q tr' = lease q tr) (hkept : LeasesKept db db')
    (hws : ∀ key id, HasWorker key id db.workers → HasWorker key id db'.workers) :
    LeasesAgree tr' db' := by
  refine ⟨fun q' hq' => ?_, fun id hid => ?_⟩ <;> rw [hlease]
  · rcases hkept.row q' hq' with ⟨q, hq, hsame⟩ | ⟨hlt, -, hw, hp⟩
    · rw [hsame.id]
      exact (h.row q hq).of_sameLease hsame.worker hsame.lastPing hws
    · rw [h.fresh _ hlt]
      exact ⟨hw, hp⟩
  · exact h.fresh id (lt_of_le_of_lt hkept.seq hid)

/-- What says nothing of the leases does not change the history of a job. -/
lemma lease_servedOf {s : Stmt} {t : Time} {a : Except Err s.Answer} (hs : s.touchesLeases = false)
    (hstep : e.toStep = Step.inl ⟨t, s, a⟩) (q : ℕ) :
    lease q (servedOf (tr ++ [e])) = lease q (servedOf tr) := by
  rw [servedOf_snoc]
  rcases hcall : e.call with c | r | ⟨h, id⟩
  · rw [servedEvent_serve hcall hstep, Option.toList_some, lease_snoc]
    exact leaseStep_of_not_touches hs
  all_goals
    have hnone : servedEvent e = none := by rw [servedEvent, hcall]
    rw [hnone, Option.toList_none, List.append_nil]

/-- The row a handler was authenticated with is remembered. -/
lemma Remembered.authed {db : Db} (h : Remembered tr db ws) {own₀ : OwnSteps} {i : ℕ}
    (hown : own i tr = own₀.map Step.inl) {key : String} {w : Worker} (hauth : AuthedAs own₀ key w) :
    HasWorker key w.id ws := by
  rcases hauth with ⟨now, hdid⟩ | ⟨new, hkey, hdid⟩ <;>
    obtain ⟨pre, a, post, rfl, -, t, hstep⟩ := did_anyEvent hown hdid
  · exact h.answered a (by simp) key w.id (.inl ⟨t, now, w, hstep, rfl⟩)
  · exact h.answered a (by simp) key w.id (.inr ⟨t, new, w, hstep, hkey, rfl⟩)

/-- A worker is deleted. -/
lemma Remembered.deleted {s : DeleteWorker} (h : Remembered tr e.before ws) (hstmt : e.stmt = .inr s) :
    Remembered (tr ++ [e]) (deleteWorker s.id e.before).2 ws := by
  have hnone : servedEvent e = none := by
    unfold servedEvent
    split
    · rename_i hstep
      cases hstmt.symm.trans (congrArg Step.stmt hstep)
    · rfl
  refine ⟨h.seq, fun key id hw => h.row key id ((WorkersKept.delete _ _).row key id hw),
    fun a ha key id hans => ?_, h.leases.kept (fun q => ?_) (.of_queue_eq rfl) fun _ _ => id⟩
  · rcases List.mem_append.mp ha with ha | ha
    · exact h.answered a ha key id hans
    · rw [List.mem_singleton.mp ha] at hans
      rcases hans with ⟨t, now, w, hstep, -⟩ | ⟨t, new, w, hstep, -⟩ <;>
        cases hstmt.symm.trans (congrArg Step.stmt hstep)
  · rw [servedOf_snoc, hnone, Option.toList_none, List.append_nil]

/-- A worker is written. -/
lemma Remembered.upserted {new : NewWorker} {t : Time} (h : Remembered tr e.before ws)
    (hstep : e.toStep = Step.inl ⟨t, .upsertWorker new, .ok (new.upsert e.before).1⟩) :
    ∃ ws', Remembered (tr ++ [e]) (new.upsert e.before).2 ws' := by
  have hid {key : String} {id : ℕ} (hans : AnswersWorker key id e) :
      new.key = key ∧ (new.upsert e.before).1.id = id := by
    rcases hans with ⟨t', now, w, hstep', -⟩ | ⟨t', new', w, hstep', hkey, hid⟩
    · cases (Step.mk.inj (Step.inl_inj.mp (hstep.symm.trans hstep'))).2.1
    · obtain ⟨-, hnew, hw⟩ := Step.mk.inj (Step.inl_inj.mp (hstep.symm.trans hstep'))
      obtain rfl := Stmt.upsertWorker.inj hnew
      rw [Except.ok.inj (eq_of_heq hw)]
      exact ⟨hkey, hid⟩
  have hleases (ws' : Table Worker) (hws : ∀ key id, HasWorker key id ws → HasWorker key id ws') :
      LeasesAgree (servedOf (tr ++ [e])) { (new.upsert e.before).2 with workers := ws' } :=
    h.leases.kept (lease_servedOf rfl hstep) (.of_queue_eq rfl) hws
  have hanswered (ws' : Table Worker) (hws : ∀ key id, HasWorker key id ws → HasWorker key id ws')
      (hnew : HasWorker new.key (new.upsert e.before).1.id ws') :
      ∀ a ∈ tr ++ [e], ∀ key id, AnswersWorker key id a → HasWorker key id ws' := by
    intro a ha key id hans
    rcases List.mem_append.mp ha with ha | ha
    · exact hws key id (h.answered a ha key id hans)
    · obtain ⟨rfl, rfl⟩ := hid (List.mem_singleton.mp ha ▸ hans)
      exact hnew
  rcases upsertWorker_kept new e.before with ⟨hkept, hhas⟩ | ⟨hinsert, hfresh⟩
  · exact ⟨ws.skip, (congrArg (· + 1) h.seq).trans hkept.seq.symm,
      fun key id hw => h.row key id (hkept.row key id hw),
      hanswered ws.skip (fun _ _ => id) (h.row _ _ hhas), hleases ws.skip fun _ _ => id⟩
  · have hws (key : String) (id : ℕ) (hw : HasWorker key id ws) :
        HasWorker key id (ws.insert new.row) :=
      hw.imp fun w hw => ⟨(Table.mem_insert _).mpr (.inl hw.1), hw.2⟩
    have hnew : HasWorker new.key (e.before.workers.seq + 1) (ws.insert new.row) :=
      ⟨_, (Table.mem_insert _).mpr (.inr rfl), rfl, by rw [← h.seq]; rfl⟩
    refine ⟨ws.insert new.row, ?_, fun key id hw => ?_, hanswered _ hws (hfresh ▸ hnew), hleases _ hws⟩
    · rw [hinsert]
      exact congrArg (· + 1) h.seq
    · rw [hinsert] at hw
      obtain ⟨w, hw, rfl, rfl⟩ := hw
      rcases (Table.mem_insert _).mp hw with hw | rfl
      · exact hws _ _ (h.row _ _ ⟨w, hw, rfl, rfl⟩)
      · exact hnew

/-- Another statement of the daemon keeps the workers, and leaves the leases to be shown. -/
lemma Remembered.other {s : Stmt} {t : Time} (h : Remembered tr e.before ws)
    (hs : ∀ new, s ≠ .upsertWorker new)
    (hstep : e.toStep = Step.inl ⟨t, s, ((exec env).answer t s e.before).1⟩)
    (hleases : LeasesAgree (servedOf (tr ++ [e]))
      { ((exec env).answer t s e.before).2 with workers := ws }) :
    Remembered (tr ++ [e]) ((exec env).answer t s e.before).2 ws := by
  have hkept := exec_workersKept env t hs e.before
  refine ⟨h.seq.trans hkept.seq.symm, fun key id hw => h.row key id (hkept.row key id hw),
    fun a ha key id hans => ?_, hleases⟩
  rcases List.mem_append.mp ha with ha | ha
  · exact h.answered a ha key id hans
  · rw [List.mem_singleton.mp ha] at hans
    rcases hans with ⟨t', now, w, hstep', rfl⟩ | ⟨t', new, w, hstep', -⟩
    · obtain ⟨-, rfl, hw⟩ := Step.mk.inj (Step.inl_inj.mp (hstep.symm.trans hstep'))
      have hok : exec env t (.refreshWorker key now) e.before = .ok (w, _) :=
        Exec.answer_ok.mp (Prod.ext (eq_of_heq hw) rfl)
      exact h.row key w.id (refreshWorker_old hok)
    · obtain ⟨-, rfl, -⟩ := Step.mk.inj (Step.inl_inj.mp (hstep.symm.trans hstep'))
      exact (hs new rfl).elim

/-- A pop finds the same job, whoever the workers are. -/
lemma popJob_withWorkers (T : Ties) (w : Worker) (r : PopQueuedJobRequest) (t : Time) (db : Db)
    (ws : Table Worker) : (popJob T w r t { db with workers := ws }).1 = (popJob T w r t db).1 ∧
      (popJob T w r t { db with workers := ws }).2.queue = (popJob T w r t db).2.queue := by
  have havail : availableJobs r t { db with workers := ws } = availableJobs r t db := rfl
  unfold popJob
  rw [havail]
  rcases T.firstBy jobOrder (availableJobs r t db) with _ | row <;> exact ⟨rfl, rfl⟩

/-- **Every statement keeps what is remembered.** -/
lemma Remembered.step (hh : History (execAny env) (anyPermitted env.config) Db.empty (tr ++ [e]))
    (h : Remembered tr e.before ws) : ∃ ws', Remembered (tr ++ [e]) (e.after (execAny env)) ws' := by
  obtain ⟨-, hans, hperm, -⟩ := hh.last
  rcases execAny_kinds hans with ⟨s, hstep, hafter⟩ | ⟨s, hstmt, hafter⟩ <;> rw [hafter]
  swap
  · exact ⟨ws, h.deleted hstmt⟩
  have hstmt : e.stmt = .inl s := congrArg Step.stmt hstep
  rcases ht : s.touchesLeases with _ | _
  · by_cases hs : ∃ new, s = .upsertWorker new
    · obtain ⟨new, rfl⟩ := hs
      exact h.upserted hstep
    · refine ⟨ws, h.other (fun new hnew => hs ⟨new, hnew⟩) hstep ?_⟩
      have hkept := exec_leasesKept env e.input ht e.before
      exact h.leases.kept (lease_servedOf ht hstep) ⟨hkept.seq, hkept.row⟩ fun _ _ => id
  · -- Only the requests that are served without sign-ups have such a statement.
    obtain ⟨c, own₀, hcall, hown, hjust⟩ : ∃ c, ∃ own₀ : OwnSteps, e.call = .serve c ∧
        own e.thread tr = own₀.map Step.inl ∧ justified c own₀ e.input s := by
      rw [hstmt] at hperm
      rcases hcall : e.call with c | r | ⟨h, id⟩ <;> rw [hcall] at hperm
      · obtain ⟨own₀, hown, hp⟩ := hperm
        exact ⟨c, own₀, rfl, hown, hp.justified⟩
      · cases s with
        | clearStale | popJob | pingQueued => exact hperm.elim
        | _ => cases ht
      · obtain ⟨own₀, -, -, hauth⟩ := hperm
        cases s with
        | clearStale | popJob | pingQueued => cases hauth
        | _ => cases ht
    have hserved := servedEvent_serve hcall hstep
    have hsame {e' : Event} (hstep' : e'.toStep = ⟨e.input, s, ((exec env).answer e.input s e.before).1⟩)
        (hcall' : e'.call = c) (q : ℕ) :
        lease q (servedOf (tr ++ [e])) = lease q (servedOf tr ++ [e']) := by
      rw [servedOf_snoc, hserved, Option.toList_some, lease_snoc, lease_snoc, leaseStep, leaseStep,
        hstep', hcall']
    cases s with
    | clearStale cutoff =>
      refine ⟨ws, h.other (ne_upsertWorker rfl) hstep ?_⟩
      exact (leasesAgree_clearStale (i := e.thread) h.leases cutoff).kept (hsame rfl rfl) (.of_queue_eq rfl)
        fun _ _ => id
    | popJob w r =>
      obtain ⟨hanswer, hqueue⟩ := popJob_withWorkers env.ties w r e.input e.before ws
      have hghost := exec_workersKept env e.input (s := .popJob w r) (ne_upsertWorker rfl)
        { e.before with workers := ws }
      refine ⟨ws, h.other (ne_upsertWorker rfl) hstep ?_⟩
      refine (leasesAgree_popJob (i := e.thread) h.leases env.ties (h.authed hown hjust.2) r fun key id hw =>
        exec_hasWorker env key id e.input (.popJob w r) { e.before with workers := ws } hw).kept
          (hsame (congrArg (fun a => (⟨e.input, .popJob w r, .ok a⟩ : Step Stmt Stmt.Answer Err Time))
            hanswer) rfl) (.of_queue_eq hqueue.symm) hghost.row
    | pingQueued now id w =>
      obtain ⟨-, -, w', hauth, rfl⟩ := hjust
      refine ⟨ws, h.other (ne_upsertWorker rfl) hstep ?_⟩
      exact (leasesAgree_ping (i := e.thread) h.leases (h.authed hown hauth) now id).kept
        (hsame rfl rfl) (.of_queue_eq rfl) fun _ _ hw => hw
    | _ => cases ht

/-- **The queue agrees with the history, whoever signs up and is removed.** -/
theorem exists_remembered (hh : History (execAny env) (anyPermitted env.config) Db.empty tr) :
    ∃ ws, Remembered tr (stateAfter (execAny env) Db.empty tr) ws := by
  have hnone : ∀ q ∈ Db.empty.queue.rows, HasLease .empty q none := by simp [Db.empty]
  refine hh.invariant (I := fun tr db => ∃ ws, Remembered tr db ws)
    ⟨.empty, rfl, fun _ _ => id, by simp, hnone, fun _ _ => rfl⟩ fun hh hbefore => ?_
  obtain ⟨ws, h⟩ := hbefore
  exact h.step hh

end

/-! ### The leases in a run -/

/-- A job that is handed out is not held by anyone, and a ping that is accepted comes from the worker
that holds the job. -/
def respects (held : ℕ → Option (String × Time)) (e : Event) : Prop :=
  match e.toStep with
  | ⟨_, .popJob _ _, .ok (some job)⟩ => held job.job.id = none
  | ⟨_, .pingQueued _ id _, .ok affected⟩ => 0 < affected → ∃ ping, held id = some (e.call.worker, ping)
  | _ => True

lemma servedEvent_eq_some {e : AnyEvent} {e' : Event} (h : servedEvent e = some e') :
    e.call = .serve e'.call ∧ e.toStep = Step.inl e'.toStep := by
  obtain ⟨⟨t, s, a⟩, i, c, db⟩ := e
  rcases s with s | s <;> rcases c with c | r | ⟨hd, id⟩ <;> cases h
  exact ⟨rfl, rfl⟩

/-- **Leases are respected while workers come and go**: by every statement of every run, even after
the row of the worker that holds the job is deleted, or written anew. -/
theorem leases_respected (env : Env) (addrs : Addresses) (as : AnySchedule) (pre post : List Event)
    (e : Event) (htr : servedOf (anyTrace env addrs as) = pre ++ e :: post) :
    respects (fun q => lease q pre) e := by
  obtain ⟨tr, tr', hsplit, rfl, hrest⟩ := List.filterMap_eq_append_iff.mp htr
  obtain ⟨mid, a, tail, rfl, hmid, hserved, -⟩ := List.filterMap_eq_cons_iff.mp hrest
  have hnone : servedOf (tr ++ mid) = servedOf tr := by
    rw [servedOf, List.filterMap_append, List.filterMap_eq_nil_iff.mpr hmid, List.append_nil]
    rfl
  rw [← List.append_assoc] at hsplit
  have hh := anyTrace_history env addrs as
  rw [hsplit] at hh
  obtain ⟨hbefore, hans, hperm, -⟩ := hh.event
  obtain ⟨ws, h⟩ := exists_remembered hh.of_append
  rw [← hbefore] at h
  obtain ⟨hcall, hstep⟩ := servedEvent_eq_some hserved
  have hanswer := answer_of_kind hans hstep
  rw [hcall, show a.stmt = .inl e.stmt from congrArg Step.stmt hstep] at hperm
  obtain ⟨own₀, hown, hp⟩ := hperm
  have hjust := hp.justified
  change respects (fun q => lease q (servedOf tr)) e
  rw [← hnone]
  have hrow := h.leases.row
  obtain ⟨⟨t, s, r⟩, i, c, db⟩ := e
  cases s with
  | popJob w req =>
    obtain rfl : r = .ok (popJob env.ties w req a.input a.before).1 := hanswer.symm
    unfold respects
    rcases popJob_cases env.ties w req a.input a.before with ⟨⟨q, b, src⟩, hjob, hpop⟩ | hpop <;>
      rw [hpop]
    · obtain ⟨hq, hfree, -⟩ := mem_availableJobs hjob
      have hlease := hrow q hq
      change lease q.id (servedOf (tr ++ mid)) = none
      rcases hl : lease q.id (servedOf (tr ++ mid)) with _ | l
      · rfl
      · rw [hl] at hlease
        obtain ⟨⟨id, hid, -⟩, -⟩ := hlease
        rw [hfree] at hid
        cases hid
    · trivial
  | pingQueued now id worker =>
    obtain ⟨-, -, w, hauth, rfl⟩ := hjust
    obtain rfl : r = .ok (pingQueued now id w.id a.before).1 := hanswer.symm
    intro hpos
    obtain ⟨q, hfound⟩ := List.length_pos_iff_exists_mem.mp hpos
    obtain ⟨hq, hheld⟩ := List.mem_filter.mp hfound
    obtain ⟨rfl, hw⟩ : q.id = id ∧ q.worker = some w.id := by simpa using hheld
    have hlease := hrow q hq
    rcases hl : lease q.id (servedOf (tr ++ mid)) with _ | ⟨key, ping⟩ <;> rw [hl] at hlease
    · cases hw.symm.trans hlease.1
    · obtain ⟨⟨id', hid', hkey⟩, -⟩ := hlease
      obtain rfl : w.id = id' := Option.some.inj (hw.symm.trans hid')
      obtain rfl : key = c.worker := hkey.key_eq (h.authed hown hauth)
      exact ⟨ping, hl⟩
  | _ => trivial

/-- `alice` pings her job, is removed, signs up again, and pings the job once more. -/
def removedWhileHolding : AnySchedule :=
  signedUpAndHandedOut ++
  anyServeAt 3 (.serve (.pingJob (workerHeaders "alice") 1)) (100 * second) ++
  anyServeAt 4 (.unregisterWorker (workerHeaders "alice") 1) (200 * second) ++
  anyServeAt 5 (.registerWorker (signupOf "alice")) (200 * second) ++
  anyServeAt 6 (.serve (.pingJob (workerHeaders "alice") 1)) (300 * second)

/-- How many rows a ping has found. -/
def rowsPinged (e : Event) : Option ℕ :=
  match e.toStep with
  | ⟨_, .pingQueued _ _ _, .ok affected⟩ => some affected
  | _ => none

/-- The first ping is accepted; the second one is not, though `alice` has the same key. -/
example : (servedOf (anyTrace secretDaemon noProxy removedWhileHolding)).filterMap rowsPinged = [1, 0] := by
  decide +kernel

theorem leases_respected_removed : ∃ pre e post,
    servedOf (anyTrace secretDaemon noProxy removedWhileHolding) = pre ++ e :: post ∧
      rowsPinged e = some 1 ∧ respects (fun q => lease q pre) e := by
  have hping : ((servedOf (anyTrace secretDaemon noProxy removedWhileHolding))[12]?).map rowsPinged =
      some (some 1) := by decide +kernel
  obtain ⟨e, he, hok⟩ := Option.map_eq_some_iff.mp hping
  exact ⟨_, e, _, eq_take_cons_drop he, hok, leases_respected secretDaemon noProxy removedWhileHolding
    _ _ e (eq_take_cons_drop he)⟩

end Rebuilderd.Daemon
