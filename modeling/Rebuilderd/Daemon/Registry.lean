import Rebuilderd.Lib.Extension
import Rebuilderd.Daemon.Authentication

/-!
Workers sign up and are removed, while the daemon serves its other requests.

`register_worker` and `unregister_worker` run next to the handlers, statement by statement. There is
one statement that no other handler has: it deletes a worker.
-/

namespace Rebuilderd.Daemon

open Rebuilderd.Lib Rebuilderd.Common Prog

/-! ### Signing up -/

/-- What `register_worker` reads of a request. -/
structure SignupRequest where
  headers : Headers
  signupSecret : Option String
  /-- Any other header. -/
  header : String → Option String
  peerAddr : Option String
  name : String

/-- What the addresses of workers depend on: `real_ip_header`, and the text of the address that a
text is parsed to. -/
structure Addresses where
  realIpHeader : Option String
  parse : String → Option String

/-- `auth::signup`. -/
def signup (cfg : Config) (r : SignupRequest) : Bool :=
  match r.headers.workerKey with
  | none => false
  | some key =>
    if cfg.worker.authorizedWorkers ≠ [] ∧ key ∉ cfg.worker.authorizedWorkers then false
    else
      match cfg.worker.signupSecret with
      | some expected => r.signupSecret == some expected
      | none => true

/-- The address that a worker signs up from. -/
def Addresses.of (addrs : Addresses) (r : SignupRequest) : Except Err String :=
  match addrs.realIpHeader with
  | some name => ((r.header name).bind addrs.parse).elim (.error .denied) .ok
  | none => r.peerAddr.elim (.error .denied) .ok

def registerWorker (cfg : Config) (addrs : Addresses) (r : SignupRequest) : Handler Response := do
  if !signup cfg r then
    return .forbidden
  let key ← lift (r.headers.workerKey.elim (.error .denied) .ok)
  let ip ← lift (addrs.of r)
  let now ← sql .now
  let _ ← sql (.upsertWorker
    { key := key
      name := r.name
      address := ip
      status := none
      lastPing := now
      online := true })
  return .noContent

/-! ### The rows of the workers -/

/-- The workers keep their ids and their keys; some may have gone. -/
structure WorkersKept (ws ws' : Table Worker) : Prop where
  seq : ws'.seq = ws.seq
  row : ∀ key id, HasWorker key id ws' → HasWorker key id ws

lemma WorkersKept.of_eq {ws ws' : Table Worker} (h : ws' = ws) : WorkersKept ws ws' :=
  h ▸ ⟨rfl, fun _ _ => id⟩

lemma WorkersKept.update {ws : Table Worker} {p : Worker → Bool} {f : Worker → Worker}
    (hid : ∀ w, (f w).id = w.id) (hkey : ∀ w, (f w).key = w.key) :
    WorkersKept ws (ws.update p f hid) := by
  refine ⟨rfl, ?_⟩
  rintro key id ⟨w', hw', rfl, rfl⟩
  obtain ⟨w, hw, rfl⟩ := List.mem_map.mp hw'
  refine ⟨w, hw, ?_⟩
  split
  · exact ⟨(hkey w).symm, (hid w).symm⟩
  · exact ⟨rfl, rfl⟩

lemma WorkersKept.delete (ws : Table Worker) (p : Worker → Bool) : WorkersKept ws (ws.delete p) :=
  ⟨rfl, fun _ _ ⟨w, hw, h⟩ => ⟨w, ((Table.mem_delete _).mp hw).1, h⟩⟩

/-- No statement but the one that writes a worker adds one. -/
lemma exec_workersKept (env : Env) (t : Time) {s : Stmt} (hs : ∀ new, s ≠ .upsertWorker new)
    (db : Db) : WorkersKept db.workers ((exec env).answer t s db).2.workers := by
  have hinv {s : Stmt} (h : ∀ r db', exec env t s db = .ok (r, db') →
      WorkersKept db.workers db'.workers) :
      WorkersKept db.workers ((exec env).answer t s db).2.workers :=
    Exec.answer_inv (I := fun d : Db => WorkersKept db.workers d.workers) (.of_eq rfl) h
  cases s with
  | upsertWorker new => exact (hs new rfl).elim
  | refreshWorker key now =>
    refine hinv fun w db' hok => ?_
    simp only [exec, refreshWorker] at hok
    split at hok <;> cases hok
    exact .update (f := refreshed now) (fun _ => rfl) fun _ => rfl
  | popJob w r =>
    change WorkersKept db.workers (popJob env.ties w r t db).2.workers
    rcases popJob_cases env.ties w r t db with ⟨row, -, h⟩ | h <;> rw [h]
    · exact .update (f := fun v : Worker =>
        { v with
          online := true
          lastPing := t
          status := some ("working hard on " ++ (queuedJob row).name ++ " " ++
            (queuedJob row).version) }) (fun _ => rfl) fun _ => rfl
    · exact .of_eq rfl
  | commitPackageReport now r =>
    refine hinv fun u db' hok => .of_eq ?_
    obtain ⟨db₂, hf, rfl⟩ := commitPackageReport_ok (exec_commit hok)
    change db₂.workers = db.workers
    refine foldlM_ok (I := fun _ d => d.workers = db.workers) hf rfl fun _ p d d' _ hd hp => ?_
    obtain ⟨first, -, he⟩ := importPackage_ok hp
    have himport := (importWithHistory_frame now first r p d).workers.trans hd
    rcases enqueueImported_cases he with ⟨-, rfl⟩ | ⟨-, -, n, -, ⟨-, rfl⟩ | ⟨-, priority, rfl⟩⟩ <;>
      exact himport
  | findQueued id => exact hinv fun q db' hok => .of_eq (by rw [(exec_findQueued hok).2.2])
  | maxRetriesOf ids => exact hinv fun n db' hok => .of_eq (by rw [exec_maxRetriesOf hok])
  | _ => exact .of_eq rfl

/-- The statement that writes a worker keeps the others and uses up an id, which a new worker gets. -/
lemma upsertWorker_kept (new : NewWorker) (db : Db) :
    (WorkersKept db.workers.skip (new.upsert db).2.workers ∧
        HasWorker new.key (new.upsert db).1.id db.workers) ∨
      (new.upsert db).2.workers = db.workers.insert new.row ∧
        (new.upsert db).1.id = db.workers.seq + 1 := by
  unfold NewWorker.upsert
  dsimp only
  rcases Table.upsert_cases db.workers (fun w => w.key == new.key) new.row
    (fun w => new.row w.id) (fun _ => rfl) (fun _ => rfl) with ⟨r, hr, hk, h⟩ | ⟨-, h⟩ <;> rw [h]
  · refine .inl ⟨⟨rfl, ?_⟩, r, hr, beq_iff_eq.mp hk, rfl⟩
    rintro key id ⟨w', hw', rfl, rfl⟩
    obtain ⟨w, hw, rfl⟩ := List.mem_map.mp hw'
    refine ⟨w, hw, ?_⟩
    split
    · rename_i hkey
      exact ⟨beq_iff_eq.mp hkey, rfl⟩
    · exact ⟨rfl, rfl⟩
  · exact .inr ⟨rfl, rfl⟩

lemma refreshWorker_old {key : String} {now : Time} {db db' : Db} {w : Worker}
    (h : refreshWorker key now db = .ok (w, db')) : HasWorker key w.id db.workers := by
  obtain ⟨-, -, r, hr, rfl⟩ := refreshWorker_rows h
  exact ⟨r, List.mem_of_find?_eq_some hr, by simpa using List.find?_some hr, rfl⟩

/-! ### All the requests -/

/-- The statement of `unregister_worker`. -/
structure DeleteWorker where
  id : ℕ
  deriving DecidableEq

abbrev AnyStmt := Stmt ⊕ DeleteWorker

abbrev AnyStmt.Answer : AnyStmt → Type := Sum.elim Stmt.Answer fun _ => ℕ

def deleteWorker (id : ℕ) (db : Db) : ℕ × Db :=
  ((db.workers.rows.filter (·.id == id)).length,
    { db with workers := db.workers.delete (·.id == id) })

def execAny (env : Env) : Exec AnyStmt AnyStmt.Answer Err Time Db :=
  (exec env).sum fun _ s db => .ok (deleteWorker s.id db)

/-- A statement that was executed is one of the daemon's others, or it deletes a worker. -/
lemma execAny_kinds {κ : Type} {env : Env} {e : Lib.Event AnyStmt AnyStmt.Answer Err Time Db κ}
    (h : e.answer = ((execAny env).answer e.input e.stmt e.before).1) :
    (∃ s, e.toStep = Step.inl ⟨e.input, s, ((exec env).answer e.input s e.before).1⟩ ∧
        e.after (execAny env) = ((exec env).answer e.input s e.before).2) ∨
      ∃ s, e.stmt = .inr s ∧ e.after (execAny env) = (deleteWorker s.id e.before).2 := by
  rcases Lib.Event.kinds h with h | ⟨s, hstep, hafter⟩
  · exact .inl h
  · exact .inr ⟨s, congrArg Step.stmt hstep, hafter⟩

inductive AnyCall
  | serve (c : Call)
  | registerWorker (r : SignupRequest)
  | unregisterWorker (h : Headers) (id : ℕ)

/-- Any worker that is authenticated can remove any other. -/
def unregisterWorker (cfg : Config) (h : Headers) (id : ℕ) :
    Prog AnyStmt AnyStmt.Answer Err Response := do
  match ← (Handler.worker cfg h).inl.attempt with
  | .error _ => return .forbidden
  | .ok _ =>
    let count : ℕ ← Prog.stmt (S := AnyStmt) (A := AnyStmt.Answer) (.inr ⟨id⟩)
    return if count < 1 then .notFound else .noContent

def anyHandler (cfg : Config) (addrs : Addresses) : AnyCall → Prog AnyStmt AnyStmt.Answer Err Response
  | .serve c => (handler cfg c).inl
  | .registerWorker r => (registerWorker cfg addrs r).inl
  | .unregisterWorker h id => unregisterWorker cfg h id

abbrev AnySteps := List (Step AnyStmt AnyStmt.Answer Err Time)
abbrev AnyEvent := Lib.Event AnyStmt AnyStmt.Answer Err Time Db AnyCall
abbrev AnySchedule := List (Action AnyCall Time)

/-- A run of the daemon from an empty database, with workers that come and go. -/
def anyTrace (env : Env) (addrs : Addresses) (as : AnySchedule) : List AnyEvent :=
  Pool.trace (execAny env) (anyHandler env.config addrs) (Pool.start Db.empty) as

/-! ### What the handlers execute -/

/-- The requests of workers. -/
def Call.byWorker : Call → Bool
  | .requestWork _ _ | .pingJob _ _ | .submitRebuildReport _ _ => true
  | _ => false

/-- A statement that signs up a worker. -/
def Stmt.signsUp : Stmt → Bool
  | .upsertWorker _ => true
  | _ => false

/-- The worker was authenticated before. -/
def Authenticated (own : OwnSteps) (key : String) : Prop := ∃ w, AuthedAs own key w

/-- What a handler that serves `c` has to know before it executes a statement: the request of a
worker authenticates it first, and unless the daemon is open to all, nobody signs up that way. -/
structure Permitted (cfg : Config) (c : Call) (own : OwnSteps) (t : Time) (s : Stmt) : Prop where
  justified : justified c own t s
  authenticated : c.byWorker = true → s.authenticates = false → Authenticated own c.worker
  closed : Handler.openToAll cfg = false → ∀ new, s ≠ .upsertWorker new

/-- The statements of a worker that signs up. -/
def SigningUp (cfg : Config) (r : SignupRequest) : Stmt → Prop
  | .now => True
  | .upsertWorker new => r.headers.workerKey = some new.key ∧ signup cfg r = true
  | _ => False

/-- What the handler of any request has to know before it executes a statement. -/
def anyPermitted (cfg : Config) : AnyCall → AnySteps → Time → AnyStmt → Prop
  | .serve c, own, t, .inl s => ∃ own₀ : OwnSteps, own = own₀.map Step.inl ∧ Permitted cfg c own₀ t s
  | .registerWorker r, _, _, .inl s => SigningUp cfg r s
  | .unregisterWorker h id, own, t, .inl s => ∃ own₀ : OwnSteps, own = own₀.map Step.inl ∧
      Permitted cfg (.pingJob h id) own₀ t s ∧ s.authenticates = true
  | .unregisterWorker h id, own, _, .inr s => s.id = id ∧
      ∃ own₀ : OwnSteps, own = own₀.map Step.inl ∧ Authenticated own₀ h.worker
  | _, _, _, .inr _ => False

section
variable {cfg : Config}

lemma ne_upsertWorker {s : Stmt} (hs : s.signsUp = false) (new : NewWorker) :
    s ≠ .upsertWorker new := by
  rintro rfl
  cases hs

lemma only_sql {s : Stmt} (hs : s.signsUp = false) :
    Prog.Only (fun s => ∀ new, s ≠ .upsertWorker new) (sql s) :=
  .stmt (ne_upsertWorker hs)

lemma only_recordReport_closed (cfg : Config) (r : RebuildReport) (q : Queued) :
    Prog.Only (fun s => ∀ new, s ≠ .upsertWorker new) (Handler.recordReport cfg r q) := by
  have hartifact (rebuild : ℕ) (logs : Handler.ArtifactLogs) (a : RebuildArtifactReport) :
      Prog.Only (fun s => ∀ new, s ≠ .upsertWorker new) (Handler.recordArtifact rebuild logs a) :=
    (only_recordArtifact rebuild logs a).mono fun s hs new h => by
      subst h
      cases hs
  refine .bind (only_sql rfl) fun friends => .bind ((only_encode _).mono fun s hs => ?_) fun _ =>
    .bind (only_sql rfl) fun log => .bind (.foldlM (fun logs friend => ?_) _) fun _ =>
    .bind (only_sql rfl) fun _ => ?_
  · exact ne_upsertWorker (hs ▸ rfl)
  · exact .bind (only_sql rfl) fun _ => .foldlM (fun logs a => hartifact _ logs a) _
  · split
    · refine (only_retry cfg q friends).mono fun s hs new h => ?_
      subst h
      cases hs
    · exact .pure _

/-- A daemon that is not open to all authenticates those who have signed up. -/
lemma only_worker_closed (hclosed : Handler.openToAll cfg = false) (h : Headers) :
    Prog.Only (fun s => ∀ new, s ≠ .upsertWorker new) (Handler.worker cfg h) := by
  unfold Handler.worker Handler.getAndRefresh
  rw [if_neg (by rw [hclosed]; exact Bool.false_ne_true)]
  split
  · trivial
  · split
    · trivial
    · refine .bind (only_sql rfl) fun _ => ?_
      split
      · exact .bind (only_sql rfl) fun _ => only_sql rfl
      · trivial

lemma only_handler_closed (hclosed : Handler.openToAll cfg = false) (c : Call) :
    Prog.Only (fun s => ∀ new, s ≠ .upsertWorker new) (handler cfg c) := by
  have hworker (h : Headers) := (only_worker_closed hclosed h).attempt
  have hinput (reset : Bool) (now next : Time) (priority : Priority) (id : ℕ) :
      Prog.Only (fun s => ∀ new, s ≠ .upsertWorker new)
        (Handler.requeueInput reset now next priority id) := by
    refine .bind ?_ fun _ => .bind (only_sql rfl) fun _ => only_sql rfl
    split
    · refine .bind (only_sql rfl) fun latest => ?_
      cases latest with
      | none => exact .pure _
      | some rebuild => exact .bind (only_sql rfl) fun _ => only_sql rfl
    · exact .pure _
  cases c with
  | submitPackageReport h r =>
    simp only [handler, Handler.submitPackageReport]
    split
    · exact .pure _
    · exact .bind (only_sql rfl) fun _ => .bind (only_sql rfl) fun _ => .pure _
  | requestWork h r =>
    refine .bind (hworker h) fun w => ?_
    cases w with
    | error e => exact .pure _
    | ok w =>
      exact .bind (only_sql rfl) fun _ => .bind (.lift _) fun _ => .bind (only_sql rfl) fun _ =>
        .bind (only_sql rfl) fun _ => .pure _
  | pingJob h id =>
    refine .bind (hworker h) fun w => ?_
    cases w with
    | error e => exact .pure _
    | ok w => exact .bind (only_sql rfl) fun _ => .bind (only_sql rfl) fun _ => .pure _
  | submitRebuildReport h r =>
    refine .bind (hworker h) fun w => ?_
    cases w with
    | error e => exact .pure _
    | ok w =>
      exact .bind (only_sql rfl) fun q => .bind (only_recordReport_closed cfg r q) fun _ => .pure _
  | requestRebuild h r =>
    simp only [handler, Handler.requestRebuild]
    split
    · exact .pure _
    · exact .bind (only_sql rfl) fun _ => .bind (only_sql rfl) fun _ => .bind (.lift _) fun _ =>
        .bind (.foldlM (fun _ id => hinput _ _ _ _ id) _) fun _ => .pure _
  | dropQueuedJobs h o f =>
    simp only [handler, Handler.dropQueuedJobs]
    split
    · exact .pure _
    · exact .bind (only_sql rfl) fun _ => .bind (only_sql rfl) fun _ => .pure _
  | dropQueuedJob h id =>
    simp only [handler, Handler.dropQueuedJob]
    split
    · exact .pure _
    · exact .bind (only_sql rfl) fun _ => .pure _

/-- The request of a worker starts with its authentication. -/
lemma wp_authenticated (cfg : Config) (c : Call) :
    wp (.journal fun own _ s => c.byWorker = true → s.authenticates = false →
      Authenticated own c.worker) (handler cfg c) (fun _ _ => True) (fun _ _ => True) [] := by
  rcases hc : c.byWorker with _ | _
  · exact wp_true (fun _ _ _ h => by cases h) _
  -- What follows authentication.
  have hrest {α : Type} (p : Handler α) (own : OwnSteps) (h : Authenticated own c.worker) :
      wp (.journal fun own _ s => true = true → s.authenticates = false → Authenticated own c.worker)
        p (fun _ _ => True) (fun _ _ => True) own :=
    wp_mono (Keeps.of_stmts (I := fun own => Authenticated own c.worker)
      (fun own t s hown => ⟨fun _ _ => hown, by
        rintro r own' rfl
        exact hown.imp fun w hw => hw.append _⟩) p own h) (fun _ _ _ => trivial) fun _ _ _ => trivial
  have hfirst {β : Type} (h : Headers) (hh : h.worker = c.worker)
      (f : Except Err Worker → Handler β) (hf : ∀ own e, wp (.journal fun own _ s => true = true →
        s.authenticates = false → Authenticated own c.worker) (f (.error e)) (fun _ _ => True)
          (fun _ _ => True) own) :
      wp (.journal fun own _ s => true = true → s.authenticates = false → Authenticated own c.worker)
        ((Handler.worker cfg h).attempt >>= f) (fun _ _ => True) (fun _ _ => True) [] := by
    refine (wp_bind _ _).mpr ((wp_attempt _).mpr (wp_only (wp_worker cfg hh (fun own w hw => ?_)
      fun own e => hf own e) (only_worker cfg h) fun own t s _ hs _ hnot => ?_))
    · exact hrest _ own ⟨w, hw⟩
    · rw [hs] at hnot
      cases hnot
  cases c with
  | requestWork h r => exact hfirst h rfl _ fun _ _ => trivial
  | pingJob h id => exact hfirst h rfl _ fun _ _ => trivial
  | submitRebuildReport h r => exact hfirst h rfl _ fun _ _ => trivial
  | _ => cases hc

/-- What a handler executes is permitted. -/
lemma handler_permitted (c : Call) :
    wp (.journal (Permitted cfg c)) (handler cfg c) (fun _ _ => True) (fun _ _ => True) [] := by
  have hboth := wp_both (handler_justified cfg c) (wp_authenticated cfg c)
  rcases hopen : Handler.openToAll cfg with _ | _
  · exact wp_only hboth (only_handler_closed hopen c) fun _ _ s h hs => ⟨h.1, h.2, fun _ => hs⟩
  · exact wp_rules hboth (fun _ _ _ h => ⟨h.1, h.2, fun hclosed => by rw [hopen] at hclosed; cases hclosed⟩)
      fun _ _ _ _ _ h => h

/-- The authentication of a worker that removes another one is permitted. -/
lemma worker_permitted (h : Headers) (id : ℕ) :
    wp (.journal fun own t s => Permitted cfg (.pingJob h id) own t s ∧ s.authenticates = true)
      (Handler.worker cfg h) (fun own _ => Authenticated own h.worker) (fun _ _ => True) [] := by
  have hauth : wp (.journal fun own t s => justified (.pingJob h id) own t s ∧ s.authenticates = true)
      (Handler.worker cfg h) (fun own _ => Authenticated own h.worker) (fun _ _ => True) [] :=
    wp_only (wp_worker cfg (c := .pingJob h id) rfl (fun _ w hw => ⟨w, hw⟩) fun _ _ => trivial)
      (only_worker cfg h) fun _ _ _ hs ha => ⟨hs, ha⟩
  have hnot {s : Stmt} (ha : s.authenticates = true) {P : Prop} (hn : s.authenticates = false) : P := by
    rw [ha] at hn
    cases hn
  rcases hopen : Handler.openToAll cfg with _ | _
  · exact wp_only hauth (only_worker_closed hopen h) fun _ _ s hs hnew =>
      ⟨⟨hs.1, fun _ => hnot hs.2, fun _ => hnew⟩, hs.2⟩
  · exact wp_rules hauth (fun _ _ _ hs => ⟨⟨hs.1, fun _ => hnot hs.2, fun hclosed => by
      rw [hopen] at hclosed; cases hclosed⟩, hs.2⟩) fun _ _ _ _ _ h => h

lemma registerWorker_permitted (addrs : Addresses) (r : SignupRequest) :
    wp (.journal fun (_ : OwnSteps) (_ : Time) s => SigningUp cfg r s) (registerWorker cfg addrs r)
      (fun _ _ => True) (fun _ _ => True) [] := by
  unfold registerWorker
  split
  · trivial
  · rename_i hsignup
    refine (wp_bind _ _).mpr ((wp_lift _).mpr ⟨fun key hkey => ?_, fun _ _ => trivial⟩)
    refine (wp_bind _ _).mpr ((wp_lift _).mpr ⟨fun ip _ => ?_, fun _ _ => trivial⟩)
    refine (wp_bind _ _).mpr (wp_sql (fun _ => trivial) (fun t now => ?_) fun _ _ => trivial)
    refine (wp_bind _ _).mpr (wp_sql (fun _ => ⟨?_, by simpa using hsignup⟩) (fun _ _ => trivial)
      fun _ _ => trivial)
    rcases hsome : r.headers.workerKey with _ | key'
    · rw [hsome] at hkey
      cases hkey
    · rw [hsome] at hkey
      exact congrArg some (Except.ok.inj hkey)

/-- What the handler of any request executes is permitted. -/
theorem anyHandler_permitted (addrs : Addresses) (c : AnyCall) :
    wp (.journal (anyPermitted cfg c)) (anyHandler cfg addrs c) (fun _ _ => True) (fun _ _ => True)
      [] := by
  cases c with
  | serve c =>
    exact wp_mono (wp_inl (handler_permitted c) fun own t s hs => ⟨own, rfl, hs⟩)
      (fun _ _ _ => trivial) fun _ _ _ => trivial
  | registerWorker r =>
    exact wp_mono (wp_inl (registerWorker_permitted addrs r) fun own t s hs => hs)
      (fun _ _ _ => trivial) fun _ _ _ => trivial
  | unregisterWorker h id =>
    refine (wp_bind _ _).mpr ((wp_attempt _).mpr (wp_mono (wp_inl (worker_permitted h id)
      fun own t s hs => ⟨own, rfl, hs.1, hs.2⟩) ?_ fun _ _ _ => trivial))
    rintro own w ⟨own₀, rfl, hauth⟩
    refine (wp_bind _ _).mpr ((wp_stmt _).mpr fun t => ⟨⟨rfl, own₀, rfl, hauth⟩, fun r own' _ => ?_⟩)
    exact ⟨fun _ _ => trivial, fun _ _ => trivial⟩

end

/-- **The trace of a run is a history of permitted statements.** -/
theorem anyTrace_history (env : Env) (addrs : Addresses) (as : AnySchedule) :
    History (execAny env) (anyPermitted env.config) Db.empty (anyTrace env addrs as) :=
  (Pool.history (anyHandler_permitted addrs) Db.empty as).1

section
variable {env : Env} {tr : List AnyEvent} {e : AnyEvent}

/-- A statement of the daemon answers as it executes. -/
lemma answer_of_kind {t : Time} {s : Stmt} {a : Except Err s.Answer}
    (hans : e.answer = ((execAny env).answer e.input e.stmt e.before).1)
    (hstep : e.toStep = Step.inl ⟨t, s, a⟩) : ((exec env).answer e.input s e.before).1 = a := by
  rcases execAny_kinds hans with ⟨s', hkind, -⟩ | ⟨s', hkind, -⟩
  · obtain ⟨-, rfl, ha⟩ := Step.mk.inj (Step.inl_inj.mp (hkind.symm.trans hstep))
    exact eq_of_heq ha
  · cases hkind.symm.trans (congrArg Step.stmt hstep)

/-- What a handler knows to be answered is in the trace. -/
lemma did_anyEvent {own₀ : OwnSteps} {i : ℕ} (hown : own i tr = own₀.map Step.inl) {s : Stmt}
    {a : s.Answer} (h : Did own₀ s a) :
    ∃ pre e post, tr = pre ++ e :: post ∧ e.thread = i ∧ ∃ t, e.toStep = Step.inl ⟨t, s, .ok a⟩ := by
  obtain ⟨t, ht⟩ := h
  obtain ⟨e, he, hi, hs⟩ := mem_own.mp (hown ▸ List.mem_map_of_mem ht :
    Step.inl ⟨t, s, .ok a⟩ ∈ own i tr)
  obtain ⟨pre, post, rfl⟩ := List.append_of_mem he
  exact ⟨pre, e, post, rfl, hi, t, hs⟩

end

end Rebuilderd.Daemon
