import Rebuilderd.Daemon.Compat

/-!
What the authentication of a worker does to the workers.

A daemon with an allow-list or a signup secret refreshes the row of the worker. One that is open to
all writes the row anew, with the name and the address of an anonymous worker and without a status.
-/

namespace Rebuilderd.Daemon

open Rebuilderd.Lib Rebuilderd.Common Prog

/-! ### Frames -/

/-- Only the last ping and the online flag have changed, and these only of the worker of the key. -/
structure Refreshed (key : String) (w w' : Worker) : Prop where
  id : w'.id = w.id
  name : w'.name = w.name
  ownKey : w'.key = w.key
  address : w'.address = w.address
  status : w'.status = w.status
  other : w.key ≠ key → w' = w

/-- The workers are refreshed and nothing else is changed; a worker of a new key is added. -/
structure OnlyRefreshes (key : String) (db db' : Db) : Prop where
  rest : { db' with workers := db.workers } = db
  rows : ∃ ws new, db'.workers.rows = ws ++ new ∧ List.Forall₂ (Refreshed key) db.workers.rows ws ∧
    ∀ w ∈ new, w.key = key ∧ keyIsRegistered key db = false

/-- The row is what the open daemon would write, but for its last ping and its flag. -/
def Anonymous (w : Worker) : Prop :=
  w.name = "anonymous" ∧ w.address = "unauthenticated" ∧ w.status = none

/-- The displayed status of the worker of a key. -/
def statusOf (key : String) (db : Db) : Option (Option String) :=
  (db.workers.rows.find? (·.key == key)).map (·.status)

lemma Refreshed.refl (key : String) (w : Worker) : Refreshed key w w :=
  ⟨rfl, rfl, rfl, rfl, rfl, fun _ => rfl⟩

lemma OnlyRefreshes.refl (key : String) (db : Db) : OnlyRefreshes key db db :=
  ⟨rfl, db.workers.rows, [], (List.append_nil _).symm,
    List.forall₂_same.mpr fun w _ => .refl key w, by simp⟩

/-- Rewriting the workers is a refresh if it is one row by row. -/
lemma onlyRefreshes_map {key : String} {db db' : Db} {g : Worker → Worker}
    (hrest : { db' with workers := db.workers } = db)
    (hrows : db'.workers.rows = db.workers.rows.map g) :
    OnlyRefreshes key db db' ↔ ∀ w ∈ db.workers.rows, Refreshed key w (g w) := by
  constructor
  · rintro ⟨-, ws, new, hsplit, hws, -⟩
    have hlen : new.length = 0 := by
      have hsame := congrArg List.length (hrows.symm.trans hsplit)
      rw [List.length_map, List.length_append, ← hws.length_eq] at hsame
      omega
    rw [List.length_eq_zero_iff.mp hlen, List.append_nil, hrows] at hsplit
    rwa [← hsplit, List.forall₂_map_right_iff, List.forall₂_same] at hws
  · intro h
    refine ⟨hrest, _, [], (List.append_nil _).symm, ?_, by simp⟩
    rwa [hrows, List.forall₂_map_right_iff, List.forall₂_same]

/-- The first worker of a key, after the workers are rewritten under their keys. -/
lemma find_map {key : String} {g : Worker → Worker} (hkey : ∀ w, (g w).key = w.key)
    (ws : List Worker) : (ws.map g).find? (·.key == key) = (ws.find? (·.key == key)).map g := by
  have hkeys : (fun w : Worker => w.key == key) ∘ g = (·.key == key) :=
    funext fun w => congrArg (· == key) (hkey w)
  rw [List.find?_map, hkeys]

lemma statusOf_map {key : String} {db db' : Db} {g : Worker → Worker}
    (hrows : db'.workers.rows = db.workers.rows.map g) (hkey : ∀ w, (g w).key = w.key) :
    statusOf key db' = (db.workers.rows.find? (·.key == key)).map fun w => (g w).status := by
  rw [statusOf, hrows, find_map hkey, Option.map_map]
  rfl

/-! ### Authentication -/

/-- The row `get_or_create` writes. -/
def anonymousWorker (key : String) (now : Time) : NewWorker where
  key := key
  name := "anonymous"
  address := "unauthenticated"
  status := none
  lastPing := now
  online := true

section
variable {env : Env} {h : Headers} {t : ℕ → Time} {db : Db}

/-- An open daemon writes the row anew. -/
lemma worker_run_open (hopen : Handler.openToAll env.config = true) :
    (Handler.worker env.config h).run (exec env) t db =
      (.ok ((anonymousWorker h.worker (t 0)).upsert db).1, ((anonymousWorker h.worker (t 0)).upsert db).2) := by
  rw [Handler.worker, if_pos hopen]
  rfl

variable (db) in
/-- Another daemon refreshes the row, or does nothing. -/
lemma worker_run_closed (hopen : Handler.openToAll env.config = false) :
    (∃ e, (Handler.worker env.config h).run (exec env) t db = (.error e, db)) ∨
      ∃ now w db', refreshWorker h.worker now db = .ok (w, db') ∧
        (Handler.worker env.config h).run (exec env) t db = (.ok w, db') := by
  rw [Handler.worker, hopen, if_neg Bool.false_ne_true]
  rcases hkey : h.workerKey with _ | key
  · exact .inl ⟨_, rfl⟩
  · have hworker : h.worker = key := by rw [Headers.worker, hkey, Option.getD_some]
    dsimp only
    split
    · exact .inl ⟨_, rfl⟩
    · rw [run_stmt_bind]
      dsimp only [exec]
      rcases keyIsRegistered key db
      · exact .inl ⟨_, rfl⟩
      · rw [if_pos rfl, Handler.getAndRefresh, run_stmt_bind]
        dsimp only [exec]
        rcases hrefresh : refreshWorker key (t 1) db with e | ⟨w, db'⟩
        · refine .inl ⟨e, ?_⟩
          simp [sql, Prog.stmt, Prog.run, Exec.answer, exec, hrefresh]
        · refine .inr ⟨t 1, w, db', hworker ▸ hrefresh, ?_⟩
          simp [sql, Prog.stmt, Prog.run, Exec.answer, exec, hrefresh]

/-- The row after a refresh. -/
def refreshed (now : Time) (w : Worker) : Worker := { w with lastPing := now, online := true }

lemma refreshWorker_rows {key : String} {now : Time} {db db' : Db} {w : Worker}
    (h : refreshWorker key now db = .ok (w, db')) : { db' with workers := db.workers } = db ∧
      db'.workers.rows = db.workers.rows.map (fun w => if w.key == key then refreshed now w else w) ∧
        ∃ r, db.workers.rows.find? (·.key == key) = some r ∧ w = refreshed now r := by
  unfold refreshWorker at h
  dsimp only at h
  split at h
  · rename_i r hr
    obtain ⟨rfl, rfl⟩ := Prod.mk.inj (Except.ok.inj h)
    exact ⟨rfl, rfl, r, hr, rfl⟩
  · cases h

lemma refreshWorker_onlyRefreshes {key : String} {now : Time} {db db' : Db} {w : Worker}
    (h : refreshWorker key now db = .ok (w, db')) : OnlyRefreshes key db db' := by
  obtain ⟨hrest, hrows, -⟩ := refreshWorker_rows h
  refine (onlyRefreshes_map hrest hrows).mpr fun v _ => ?_
  split
  · rename_i hv
    exact ⟨rfl, rfl, rfl, rfl, rfl, fun hne => absurd (beq_iff_eq.mp hv) hne⟩
  · exact .refl key v

/-- The rows of the key are written anew, or a first one is inserted. -/
lemma upsertWorker_rows (new : NewWorker) (db : Db) :
    (∃ w, db.workers.rows.find? (·.key == new.key) = some w ∧ (new.upsert db).1 = new.row w.id ∧
        (new.upsert db).2.workers.rows =
          db.workers.rows.map fun w => if w.key == new.key then new.row w.id else w) ∨
      ((∀ w ∈ db.workers.rows, w.key ≠ new.key) ∧
        (new.upsert db).1 = new.row (db.workers.seq + 1) ∧ (new.upsert db).2.workers.rows =
          db.workers.rows ++ [new.row (db.workers.seq + 1)]) := by
  unfold NewWorker.upsert Table.upsert
  rcases hfind : db.workers.rows.find? (·.key == new.key) with _ | w
  · refine .inr ⟨fun w hw => by simpa using List.find?_eq_none.mp hfind w hw, ?_, ?_⟩
    · simp only [hfind]
    · simp only [hfind]
      rfl
  · refine .inl ⟨w, hfind, ?_, ?_⟩
    · simp only [hfind]
    · simp only [hfind]
      rfl

lemma anonymousWorker_key (own : String) (now : Time) (w : Worker) :
    (if w.key == (anonymousWorker own now).key then (anonymousWorker own now).row w.id else w).key =
      w.key := by
  split
  · rename_i hw
    exact (beq_iff_eq.mp hw).symm
  · rfl

/-- Writing the row anew refreshes it only if it is that of an anonymous worker. -/
lemma upsert_onlyRefreshes {key : String} {now : Time} {db : Db} :
    OnlyRefreshes key db ((anonymousWorker key now).upsert db).2 ↔
      ∀ w ∈ db.workers.rows, w.key = key → Anonymous w := by
  rcases upsertWorker_rows (anonymousWorker key now) db with ⟨-, -, -, hrows⟩ | ⟨hnone, -, hrows⟩
  · refine (onlyRefreshes_map rfl hrows).trans (forall₂_congr fun w _ => ?_)
    constructor
    · intro hw hwk
      have hwk : (w.key == (anonymousWorker key now).key) = true := beq_iff_eq.mpr hwk
      rw [if_pos hwk] at hw
      exact ⟨hw.name.symm, hw.address.symm, hw.status.symm⟩
    · intro hw
      split
      · rename_i hwk
        have hwk : w.key = key := beq_iff_eq.mp hwk
        obtain ⟨hname, haddress, hstatus⟩ := hw hwk
        exact ⟨rfl, hname.symm, hwk.symm, haddress.symm, hstatus.symm, fun hne => absurd hwk hne⟩
      · exact .refl key w
  · have hnew : keyIsRegistered key db = false :=
      List.any_eq_false.mpr fun w hw hwk => hnone w hw (beq_iff_eq.mp hwk)
    constructor
    · exact fun _ w hw hwk => absurd hwk (hnone w hw)
    · intro _
      refine ⟨rfl, db.workers.rows, _, hrows, List.forall₂_same.mpr fun w _ => .refl key w,
        fun w hw => ?_⟩
      rw [List.mem_singleton.mp hw]
      exact ⟨rfl, hnew⟩

/-- Authentication is a refresh unless an open daemon overwrites a worker that is not anonymous. -/
lemma worker_onlyRefreshes_iff :
    OnlyRefreshes h.worker db ((Handler.worker env.config h).run (exec env) t db).2 ↔
      ¬ (Handler.openToAll env.config = true ∧
        ∃ w ∈ db.workers.rows, w.key = h.worker ∧ ¬ Anonymous w) := by
  cases hopen : Handler.openToAll env.config with
  | false =>
    refine iff_of_true ?_ (by simp)
    obtain ⟨e, hrun⟩ | ⟨now, w, db', hrefresh, hrun⟩ := worker_run_closed db (h := h) (t := t) hopen
    · rw [hrun]
      exact .refl _ db
    · rw [hrun]
      exact refreshWorker_onlyRefreshes hrefresh
  | true =>
    rw [worker_run_open hopen, upsert_onlyRefreshes]
    simp

/-! ### The status of a worker with a job -/

lemma statusOf_refreshWorker (key : String) {own : String} {now : Time} {db' : Db} {w : Worker}
    (h : refreshWorker own now db = .ok (w, db')) : statusOf key db' = statusOf key db := by
  rw [statusOf_map (refreshWorker_rows h).2.1 fun v => by split <;> rfl, statusOf]
  congr 1
  funext v
  split <;> rfl

lemma statusOf_upsert (key own : String) (now : Time) (db : Db) :
    statusOf key ((anonymousWorker own now).upsert db).2 =
      if own = key then some none else statusOf key db := by
  have hown (w : Worker) : (w.key == (anonymousWorker own now).key) = true ↔ w.key = own := beq_iff_eq
  rcases upsertWorker_rows (anonymousWorker own now) db with
    ⟨r, hr, -, hrows⟩ | ⟨hnone, -, hrows⟩
  · rw [statusOf_map hrows (anonymousWorker_key own now)]
    rcases hfind : db.workers.rows.find? (·.key == key) with _ | w
    · have hne : own ≠ key := by
        rintro rfl
        exact Option.some_ne_none r (hr.symm.trans hfind)
      rw [if_neg hne, statusOf, hfind]
      rfl
    · have hw : w.key = key := by simpa using List.find?_some hfind
      rw [hfind, Option.map_some]
      by_cases hk : own = key
      · rw [if_pos hk, if_pos ((hown w).mpr (hw.trans hk.symm))]
        rfl
      · rw [if_neg hk, if_neg fun h => hk (((hown w).mp h).symm.trans hw), statusOf, hfind]
        rfl
  · have hnew : ((anonymousWorker own now).row (db.workers.seq + 1)).key = own := rfl
    rw [statusOf, hrows, List.find?_append, List.find?_singleton, hnew]
    by_cases hk : own = key
    · have hold : db.workers.rows.find? (·.key == key) = none :=
        List.find?_eq_none.mpr fun w hw hwk => hnone w hw ((beq_iff_eq.mp hwk).trans hk.symm)
      rw [if_pos hk, hold, if_pos (beq_iff_eq.mpr hk)]
      rfl
    · rw [if_neg hk, if_neg fun h => hk (beq_iff_eq.mp h), Option.or_none]
      rfl

/-- Only an open daemon changes a status by authentication: it forgets it. -/
lemma statusOf_worker (key : String) :
    statusOf key ((Handler.worker env.config h).run (exec env) t db).2 =
      if Handler.openToAll env.config = true ∧ h.worker = key then some none else statusOf key db := by
  cases hopen : Handler.openToAll env.config with
  | false =>
    rw [if_neg (by simp)]
    obtain ⟨e, hrun⟩ | ⟨now, w, db', hrefresh, hrun⟩ := worker_run_closed db (h := h) (t := t) hopen
    · rw [hrun]
    · rw [hrun]
      exact statusOf_refreshWorker key hrefresh
  | true =>
    rw [worker_run_open hopen, statusOf_upsert]
    simp

/-- The worker that is returned is the first one of the key. -/
lemma worker_run_first {w : Worker}
    (hw : ((Handler.worker env.config h).run (exec env) t db).1 = .ok w) :
    ((Handler.worker env.config h).run (exec env) t db).2.workers.rows.find?
      (·.key == h.worker) = some w := by
  cases hopen : Handler.openToAll env.config with
  | false =>
    obtain ⟨e, hrun⟩ | ⟨now, w', db', hrefresh, hrun⟩ :=
      worker_run_closed db (h := h) (t := t) hopen
    · rw [hrun] at hw
      cases hw
    · rw [hrun] at hw ⊢
      obtain rfl := Except.ok.inj hw
      obtain ⟨-, hrows, r, hr, rfl⟩ := refreshWorker_rows hrefresh
      have hk : r.key = h.worker := by simpa using List.find?_some hr
      rw [hrows, find_map fun v => by split <;> rfl, hr, Option.map_some, if_pos (beq_iff_eq.mpr hk)]
  | true =>
    rw [worker_run_open hopen] at hw ⊢
    obtain rfl := Except.ok.inj hw
    rcases upsertWorker_rows (anonymousWorker h.worker (t 0)) db with
      ⟨r, hr, hfirst, hrows⟩ | ⟨hnone, hfirst, hrows⟩ <;> dsimp only <;> rw [hfirst, hrows]
    · have hr : db.workers.rows.find? (·.key == h.worker) = some r := hr
      have hk : r.key = h.worker := by simpa using List.find?_some hr
      have hown : (r.key == (anonymousWorker h.worker (t 0)).key) = true := beq_iff_eq.mpr hk
      rw [find_map (anonymousWorker_key _ _), hr, Option.map_some, if_pos hown]
    · have hold : db.workers.rows.find? (·.key == h.worker) = none :=
        List.find?_eq_none.mpr fun w hw hwk => hnone w hw (beq_iff_eq.mp hwk)
      rw [List.find?_append, hold, Option.none_or, List.find?_singleton]
      exact if_pos (beq_self_eq_true _)

/-- A ping does to the workers what its authentication does. -/
lemma pingJob_workers (id : ℕ) : (served env db (.pingJob h id, t)).workers =
    ((Handler.worker env.config h).run (exec env) t db).2.workers := by
  change (((Handler.worker env.config h).attempt >>= _).run (exec env) t db).2.workers = _
  obtain ⟨m, hrun⟩ := run_attempt_bind (E := exec env) (Handler.worker env.config h) _ t db
  rw [hrun]
  rcases ((Handler.worker env.config h).run (exec env) t db).1 with e | w
  · rfl
  · dsimp only
    rw [run_stmt_bind]
    dsimp only [exec]
    rw [run_stmt_bind]
    rfl

lemma statusOf_popJob {key : String} {w : Worker} {r : PopQueuedJobRequest} {now : Time}
    {job : QueuedJobWithArtifacts} (hw : db.workers.rows.find? (·.key == key) = some w)
    (hjob : (popJob env.ties w r now db).1 = some job) :
    statusOf key (popJob env.ties w r now db).2 =
      some (some ("working hard on " ++ job.job.name ++ " " ++ job.job.version)) := by
  obtain ⟨row, -, hpop⟩ | hpop := popJob_cases env.ties w r now db <;> rw [hpop] at hjob ⊢
  · obtain rfl := Option.some.inj hjob
    have hrows : (takeJob w (queuedJob row) now db).workers.rows = db.workers.rows.map fun v =>
        if v.id == w.id then { v with
          online := true
          lastPing := now
          status := some ("working hard on " ++ (queuedJob row).name ++ " " ++
            (queuedJob row).version) } else v := rfl
    rw [statusOf_map hrows fun v => by split <;> rfl, hw, Option.map_some, if_pos (beq_self_eq_true w.id)]
  · cases hjob

/-- A job that is handed out is the status of the worker. -/
lemma statusOf_requestWork {r : PopQueuedJobRequest} {job : QueuedJobWithArtifacts}
    (hjob : (serve (exec env) (handler env.config) db (.requestWork h r, t)).1 =
      .ok (.assignment (some job))) :
    statusOf h.worker (served env db (.requestWork h r, t)) =
      some (some ("working hard on " ++ job.job.name ++ " " ++ job.job.version)) := by
  change (((Handler.worker env.config h).attempt >>= _).run (exec env) t db).1 = _ at hjob
  change statusOf h.worker (((Handler.worker env.config h).attempt >>= _).run (exec env) t db).2 = _
  obtain ⟨m, hrun⟩ := run_attempt_bind (E := exec env) (Handler.worker env.config h) _ t db
  rw [hrun] at hjob ⊢
  rcases hworker : ((Handler.worker env.config h).run (exec env) t db).1 with e | w
  · rw [hworker] at hjob
    cases hjob
  · have hfirst := worker_run_first hworker
    rw [hworker] at hjob
    generalize ((Handler.worker env.config h).run (exec env) t db).2 = db₁ at hjob hfirst ⊢
    dsimp only at hjob ⊢
    rw [run_stmt_bind] at hjob ⊢
    dsimp only [exec] at hjob ⊢
    rcases hcutoff : addDuration (t (0 + m)) (-(pingDeadline * second)) with e | cutoff <;>
      rw [hcutoff] at hjob
    · cases hjob
    · change ((sql (.clearStale cutoff) >>= _).run (exec env) _ db₁).1 = _ at hjob
      change statusOf _ ((sql (.clearStale cutoff) >>= _).run (exec env) _ db₁).2 = _
      rw [run_stmt_bind] at hjob ⊢
      dsimp only [exec] at hjob ⊢
      rw [run_stmt_bind] at hjob ⊢
      dsimp only [exec, run_pure] at hjob ⊢
      exact statusOf_popJob hfirst (Response.assignment.inj (Except.ok.inj hjob))

/-- Pings, each with the times of its statements. -/
abbrev Pings := List ((Headers × ℕ) × (ℕ → Time))

/-- The database after the pings were served. -/
def pinged (env : Env) (ps : Pings) (db : Db) : Db :=
  ps.foldl (fun db p => served env db (.pingJob p.1.1 p.1.2, p.2)) db

/-- Pings change a status if one of them is of its worker and the daemon is open. -/
lemma statusOf_pinged (key : String) (ps : Pings) : statusOf key (pinged env ps db) =
    if Handler.openToAll env.config = true ∧ ∃ p ∈ ps, p.1.1.worker = key then some none
    else statusOf key db := by
  induction ps using List.reverseRecOn with
  | nil => simp [pinged]
  | append_singleton ps p ih =>
    have hlast : statusOf key (pinged env (ps ++ [p]) db) =
        if Handler.openToAll env.config = true ∧ p.1.1.worker = key then some none
        else statusOf key (pinged env ps db) := by
      rw [pinged, List.foldl_append, List.foldl_cons, List.foldl_nil, ← pinged, statusOf,
        pingJob_workers, ← statusOf, statusOf_worker]
    have hsnoc : (∃ q ∈ ps ++ [p], q.1.1.worker = key) ↔
        p.1.1.worker = key ∨ ∃ q ∈ ps, q.1.1.worker = key := by
      simp [or_and_right, exists_or, or_comm]
    rw [hlast, ih]
    simp only [hsnoc]
    by_cases hp : p.1.1.worker = key
    · simp only [hp, and_true, true_or]
      split
      · rfl
      · rename_i hclosed
        rw [if_neg fun h => hclosed h.1]
    · simp only [hp, and_false, if_false, false_or]

end

/-- **Authentication only refreshes the worker unless the daemon is open and the worker is not
anonymous.** The pings of a worker that was handed a job leave its status unless the daemon is
open. -/
theorem authentication_frame_iff (env : Env) :
    (∀ h t db, OnlyRefreshes h.worker db ((Handler.worker env.config h).run (exec env) t db).2 ↔
      ¬ (Handler.openToAll env.config = true ∧
        ∃ w ∈ db.workers.rows, w.key = h.worker ∧ ¬ Anonymous w)) ∧
    ∀ h r t db job, (serve (exec env) (handler env.config) db (.requestWork h r, t)).1 =
        .ok (.assignment (some job)) → ∀ ps : Pings,
      (statusOf h.worker (pinged env ps (served env db (.requestWork h r, t))) =
          statusOf h.worker (served env db (.requestWork h r, t)) ↔
        ¬ (Handler.openToAll env.config = true ∧ ∃ p ∈ ps, p.1.1.worker = h.worker)) := by
  refine ⟨fun h t db => worker_onlyRefreshes_iff, fun h r t db job hjob ps => ?_⟩
  rw [statusOf_pinged, statusOf_requestWork hjob]
  split
  · rename_i hforgets
    simp [hforgets]
  · rename_i hkeeps
    exact iff_of_true rfl hkeeps

/-- One package is imported, and `alice` is handed its job. -/
def handedToAlice : List Request :=
  atOnce [.submitPackageReport adminHeaders (debianReport [packageWith "hello" ["hello"]]),
    .requestWork (workerHeaders "alice") ⟨["debian"], "amd64", ["amd64"]⟩]

/-- **A ping to an open daemon takes the worker's status away.** -/
theorem ping_forgetsStatus :
    ¬ ∀ env db, Reachable env db → ∀ h t,
      OnlyRefreshes h.worker db ((Handler.worker env.config h).run (exec env) t db).2 := by
  intro hall
  have hreach : Reachable (openDaemon none)
      (handedToAlice.foldl (served (openDaemon none)) (openDaemon none).start) :=
    reachable_of_runs (Runs.of_forall fun _ _ => trivial)
  have hworks : ∃ w ∈ (handedToAlice.foldl (served (openDaemon none)) (openDaemon none).start).workers.rows,
      w.key = "alice" ∧ w.status ≠ none := by decide +kernel
  obtain ⟨w, hw, hk, hstatus⟩ := hworks
  have hframe := worker_onlyRefreshes_iff.mp
    (hall (openDaemon none) _ hreach (workerHeaders "alice") fun _ => 0)
  exact hframe ⟨rfl, w, hw, hk, fun hanonymous => hstatus hanonymous.2.2⟩

end Rebuilderd.Daemon
