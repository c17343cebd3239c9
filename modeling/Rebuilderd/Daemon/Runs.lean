import Rebuilderd.Daemon.Handlers

/-!
Runs of the daemon: requests served concurrently, their statements interleaved in any order.

What a handler executes is said once, in `justified`: each statement with what the handler has
to know by then. Everything about runs is derived from that and from the statements.
-/

namespace Rebuilderd.Daemon

open Rebuilderd.Lib Rebuilderd.Common Prog

abbrev OwnSteps := List (Step Stmt Stmt.Answer Err Time)
abbrev Event := Lib.Event Stmt Stmt.Answer Err Time Db Call

/-- A run of the daemon, from a database that has only registered workers: requests arriving and
statements executed. -/
abbrev Schedule := List (Action Call Time)

def runPool (env : Env) (as : Schedule) : Pool Stmt Stmt.Answer Err Response Call Db :=
  Pool.run (exec env) (handler env.config) (Pool.start env.start) as

def trace (env : Env) (as : Schedule) : List Event :=
  Pool.trace (exec env) (handler env.config) (Pool.start env.start) as

/-- The databases the daemon can reach. -/
def Reachable (env : Env) (db : Db) : Prop := ∃ as, (runPool env as).state = db

/-! ### What a handler knows -/

/-- `s` was executed and answered `a`. -/
def Did (own : OwnSteps) (s : Stmt) (a : s.Answer) : Prop :=
  ∃ t, (⟨t, s, .ok a⟩ : Step Stmt Stmt.Answer Err Time) ∈ own

lemma Did.append {own : OwnSteps} {s : Stmt} {a : s.Answer} (h : Did own s a) (own' : OwnSteps) :
    Did (own ++ own') s a :=
  h.imp fun _ ht => List.mem_append_left _ ht

lemma did_last (own : OwnSteps) (t : Time) (s : Stmt) (a : s.Answer) :
    Did (own ++ [⟨t, s, .ok a⟩]) s a :=
  ⟨t, by simp⟩

def Headers.worker (h : Headers) : String := h.workerKey.getD "unauthenticated"

/-- The key of the worker that sends the request. -/
def Call.worker : Call → String
  | .submitPackageReport h _ | .requestWork h _ | .pingJob h _ | .submitRebuildReport h _
  | .requestRebuild h _ | .dropQueuedJobs h _ _ | .dropQueuedJob h _ => h.worker

/-- The row of the worker that was authenticated by its key. -/
def AuthedAs (own : OwnSteps) (key : String) (w : Worker) : Prop :=
  (∃ now, Did own (.refreshWorker key now) w) ∨
    ∃ new : NewWorker, new.key = key ∧ Did own (.upsertWorker new) w

lemma AuthedAs.append {own : OwnSteps} {key : String} {w : Worker} (h : AuthedAs own key w)
    (own' : OwnSteps) : AuthedAs (own ++ own') key w := by
  rcases h with ⟨now, h⟩ | ⟨new, hk, h⟩
  · exact .inl ⟨now, h.append _⟩
  · exact .inr ⟨new, hk, h.append _⟩

/-- The handler of a report has found the queue row. -/
def FoundRow (own : OwnSteps) (c : Call) (q : Queued) : Prop :=
  ∃ h r, c = .submitRebuildReport h r ∧ Did own (.findQueued r.queueId) q

/-- What a handler that serves `c` has to know before it executes a statement. -/
def justified (c : Call) (own : OwnSteps) (_ : Time) : Stmt → Prop
  | .now | .zstdCompress _ => True
  | .keyIsRegistered key | .refreshWorker key _ => key = c.worker
  | .upsertWorker new => new.key = c.worker
  | .clearStale cutoff =>
    (∃ h r, c = .requestWork h r) ∧ ∃ now, Did own .now now ∧ cutoff = now - pingDeadline * second
  | .popJob w r => (∃ h, c = .requestWork h r) ∧ AuthedAs own c.worker w
  | .pingQueued now id worker =>
    (∃ h, c = .pingJob h id) ∧ Did own .now now ∧ ∃ w, AuthedAs own c.worker w ∧ worker = w.id
  | .findQueued id => ∃ h r, c = .submitRebuildReport h r ∧ id = r.queueId
  | .matchingQueued o f => ∃ h, c = .dropQueuedJobs h o f
  | .deleteQueued ids =>
    (∃ q, FoundRow own c q ∧ ids = [q.id]) ∨ (∃ h, ids.length = 1 ∧ c = .dropQueuedJob h ids.head!) ∨
      ∃ h o f, c = .dropQueuedJobs h o f ∧ Did own (.matchingQueued o f) ids
  | .buildInputFriends _ | .maxRetriesOf _ | .incrementRetries _ | .deleteQueuedOf _
  | .insertBuildLog _ | .insertRebuild _ | .insertDiffoscopeLog _ | .insertAttestationLog _
  | .insertRebuildArtifact _ => ∃ q, FoundRow own c q
  | .upsertQueued new =>
    (∃ q, FoundRow own c q ∧ new.buildInputId = q.buildInputId) ∨
      ∃ h r ids, c = .requestRebuild h r ∧ Did own (.matchingBuildInputs r) ids ∧
        new.buildInputId ∈ ids
  | .setNextRetry _ _ => (∃ q, FoundRow own c q) ∨ ∃ h r, c = .requestRebuild h r
  | .matchingBuildInputs r => ∃ h, c = .requestRebuild h r
  | .latestRebuildId _ | .resetRebuild _ | .resetArtifacts _ => ∃ h r, c = .requestRebuild h r
  | .commitPackageReport now r => (∃ h, c = .submitPackageReport h r) ∧ Did own .now now

/-! ### Every handler is justified -/

section
variable {c : Call} {own : OwnSteps} {α : Type}

lemma wp_sql {ok : OwnSteps → Time → Stmt → Prop} {s : Stmt} {Q : OwnSteps → s.Answer → Prop}
    {F : OwnSteps → Err → Prop} (hok : ∀ t, ok own t s) (hQ : ∀ t a, Q (own ++ [⟨t, s, .ok a⟩]) a)
    (hF : ∀ t e, F (own ++ [⟨t, s, .error e⟩]) e) :
    wp (.journal ok) (sql s) Q F own := by
  rw [wp_stmt]
  intro t
  refine ⟨hok t, ?_⟩
  rintro r own' rfl
  constructor
  · rintro a rfl
    exact hQ t a
  · rintro e rfl
    exact hF t e

/-- Authentication ends with the row of the worker, or fails. -/
lemma wp_worker (cfg : Config) {h : Headers} (hc : h.worker = c.worker)
    {Q : OwnSteps → Worker → Prop} {F : OwnSteps → Err → Prop}
    (hQ : ∀ own' w, AuthedAs own' c.worker w → Q own' w) (hF : ∀ own' e, F own' e) :
    wp (.journal (justified c)) (Handler.worker cfg h) Q F own := by
  unfold Handler.worker
  split
  · refine (wp_bind _ _).mpr (wp_sql (fun _ => trivial) (fun t now => ?_) fun _ _ => hF _ _)
    refine wp_sql (fun _ => hc) (fun t w => hQ _ _ ?_) fun _ _ => hF _ _
    exact .inr ⟨_, hc, did_last _ _ _ _⟩
  · split
    · exact hF _ _
    · rename_i key hkey
      have hk : key = c.worker := by rw [← hc, Headers.worker, hkey]; rfl
      split
      · exact hF _ _
      · refine (wp_bind _ _).mpr (wp_sql (fun _ => hk) (fun t reg => ?_) fun _ _ => hF _ _)
        split
        · refine (wp_bind _ _).mpr (wp_sql (fun _ => trivial) (fun t now => ?_) fun _ _ => hF _ _)
          refine wp_sql (fun _ => hk) (fun t w => hQ _ _ (.inl ⟨now, ?_⟩)) fun _ _ => hF _ _
          rw [← hk]
          exact did_last _ _ _ _
        · exact hF _ _

end

/-- A statement that is justified as long as `I` holds keeps `I`. -/
lemma keeps_sql {c : Call} {I : OwnSteps → Prop} (hI : ∀ own a, I own → I (own ++ [a])) {s : Stmt}
    (hs : ∀ own t, I own → justified c own t s) :
    Keeps (.journal (justified c)) I (sql s) := by
  refine Keeps.stmt s fun own t h => ⟨hs own t h, ?_⟩
  rintro r own' rfl
  exact hI _ _ h

section
variable {c : Call} {q : Queued}

lemma foundRow_append (own : OwnSteps) (a) (h : FoundRow own c q) : FoundRow (own ++ [a]) c q := by
  obtain ⟨hd, r, hc, h⟩ := h
  exact ⟨hd, r, hc, h.append _⟩

/-- Once the queue row is found, every statement of the report is justified. -/
lemma keeps_recordReport (cfg : Config) (r : RebuildReport) :
    Keeps (.journal (justified c)) (FoundRow · c q) (Handler.recordReport cfg r q) := by
  have step {s : Stmt} (hs : ∀ own t, FoundRow own c q → justified c own t s) :=
    keeps_sql (fun own a => foundRow_append (q := q) own a) hs
  have any {s : Stmt} (hs : ∀ own t, (∃ q, FoundRow own c q) → justified c own t s) :=
    step fun own t h => hs own t ⟨q, h⟩
  have part {α : Type} {p : Handler α} {ok : Stmt → Bool} (hp : Only (fun s => ok s = true) p)
      (hok : ∀ s own t, ok s = true → FoundRow own c q → justified c own t s) :
      Keeps (.journal (justified c)) (FoundRow · c q) p :=
    hp.keeps fun own t s hs h => ⟨hok s own t hs h, fun r own' h' => h' ▸ foundRow_append own _ h⟩
  have hencode (data : Bytes) :
      Keeps (.journal (justified c)) (FoundRow · c q) (Handler.encode data) :=
    (only_encode data).keeps fun own t s hs h =>
      ⟨hs ▸ trivial, fun r own' h' => h' ▸ foundRow_append own _ h⟩
  have hartifact (rebuild : ℕ) (logs : Handler.ArtifactLogs) (a : RebuildArtifactReport) :
      Keeps (.journal (justified c)) (FoundRow · c q) (Handler.recordArtifact rebuild logs a) := by
    refine part (only_recordArtifact rebuild logs a) fun s own t hs h => ?_
    cases s with
    | zstdCompress => trivial
    | insertDiffoscopeLog | insertAttestationLog | insertRebuildArtifact => exact ⟨q, h⟩
    | _ => cases hs
  have hretry (friends : List ℕ) :
      Keeps (.journal (justified c)) (FoundRow · c q) (Handler.retry cfg q friends) := by
    refine part (only_retry cfg q friends) fun s own t hs h => ?_
    cases s with
    | now => trivial
    | buildInputFriends | maxRetriesOf | incrementRetries | deleteQueuedOf => exact ⟨q, h⟩
    | setNextRetry => exact .inl ⟨q, h⟩
    | upsertQueued new => exact .inl ⟨q, h, beq_iff_eq.mp hs⟩
    | _ => cases hs
  refine .bind (any fun _ _ h => h) fun friends => .bind (hencode _) fun _ =>
    .bind (any fun _ _ h => h) fun log => .bind (.foldlM (fun logs friend _ => ?_) _) fun _ =>
    .bind (step fun _ _ h => .inl ⟨q, h, rfl⟩) fun _ => ?_
  · exact .bind (any fun _ _ h => h) fun _ => .foldlM (fun logs a _ => hartifact _ logs a) _
  · split
    · exact hretry _
    · exact .pure _

/-- Requeueing a build input among those selected is justified. -/
lemma keeps_requeueInput {h : Headers} {r : QueueJobRequest} {ids : List ℕ} {id : ℕ}
    (hid : id ∈ ids) (reset : Bool) (now next : Time) (priority : Priority) :
    Keeps (.journal (justified (.requestRebuild h r))) (Did · (.matchingBuildInputs r) ids)
      (Handler.requeueInput reset now next priority id) := by
  have step {s : Stmt} (hs : ∀ own t, Did own (.matchingBuildInputs r) ids →
      justified (.requestRebuild h r) own t s) :=
    keeps_sql (fun own a (h : Did own (.matchingBuildInputs r) ids) => h.append [a]) hs
  refine .bind ?_ fun _ => .bind (step fun _ _ _ => .inr ⟨h, r, rfl⟩) fun _ =>
    step fun _ _ hown => .inr ⟨h, r, ids, rfl, hown, hid⟩
  split
  · refine .bind (step fun _ _ _ => ⟨h, r, rfl⟩) fun latest => ?_
    cases latest with
    | none => exact .pure _
    | some rebuild =>
      exact .bind (step fun _ _ _ => ⟨h, r, rfl⟩) fun _ => step fun _ _ _ => ⟨h, r, rfl⟩
  · exact .pure _

end

lemma addDuration_eq {t d u : Time} (h : addDuration t d = .ok u) : u = t + d := by
  unfold addDuration at h
  split at h
  · exact (Except.ok.inj h).symm
  · cases h

/-- What a call for work executed last, if it was answered: the reclaim, then the pop. -/
def Popped (own : OwnSteps) (r : PopQueuedJobRequest) (job : Option QueuedJobWithArtifacts) : Prop :=
  ∃ own' t₁ cutoff t₂ w,
    own = own' ++ [⟨t₁, .clearStale cutoff, .ok ()⟩] ++ [⟨t₂, .popJob w r, .ok job⟩]

/-- What a call for work executes is justified, and its answer is that of the pop. -/
lemma wp_requestWork (cfg : Config) (h : Headers) (r : PopQueuedJobRequest) :
    wp (.journal (justified (.requestWork h r))) (Handler.requestWork cfg h r)
      (fun own a => ∀ job, a = .assignment job → Popped own r job) (fun _ _ => True) [] := by
  refine (wp_bind _ _).mpr ((wp_attempt _).mpr
    (wp_worker cfg (c := .requestWork h r) rfl (fun own w hw => ?_) fun _ _ => nofun))
  refine (wp_bind _ _).mpr (wp_sql (fun _ => trivial) (fun t now => ?_) fun _ _ => trivial)
  refine (wp_bind _ _).mpr ((wp_lift _).mpr ⟨fun cutoff hcut => ?_, fun _ _ => trivial⟩)
  refine (wp_bind _ _).mpr (wp_sql (fun _ => ?_) (fun t₁ u => ?_) fun _ _ => trivial)
  · exact ⟨⟨h, r, rfl⟩, now, did_last _ _ _ _, addDuration_eq hcut⟩
  · refine (wp_bind _ _).mpr (wp_sql (fun _ => ?_) (fun t₂ job => ?_) fun _ _ => trivial)
    · exact ⟨⟨h, rfl⟩, (hw.append _).append _⟩
    · rintro job' hjob
      cases hjob
      exact ⟨_, t₁, cutoff, t₂, w, rfl⟩

/-- What a handler executes is justified. -/
theorem handler_justified (cfg : Config) (c : Call) :
    wp (.journal (justified c)) (handler cfg c) (fun _ _ => True) (fun _ _ => True) [] := by
  cases c with
  | submitPackageReport h r =>
    simp only [handler, Handler.submitPackageReport]
    split
    · trivial
    · refine (wp_bind _ _).mpr (wp_sql (fun _ => trivial) (fun t now => ?_) fun _ _ => trivial)
      refine (wp_bind _ _).mpr (wp_sql (fun _ => ?_) (fun _ _ => trivial) fun _ _ => trivial)
      exact ⟨⟨h, rfl⟩, did_last _ _ _ _⟩
  | requestWork h r =>
    exact wp_mono (wp_requestWork cfg h r) (fun _ _ _ => trivial) fun _ _ _ => trivial
  | pingJob h id =>
    refine (wp_bind _ _).mpr ((wp_attempt _).mpr
      (wp_worker cfg (c := .pingJob h id) rfl (fun own w hw => ?_) fun _ _ => trivial))
    refine (wp_bind _ _).mpr (wp_sql (fun _ => trivial) (fun t now => ?_) fun _ _ => trivial)
    refine (wp_bind _ _).mpr (wp_sql (fun _ => ?_) (fun _ _ => trivial) fun _ _ => trivial)
    exact ⟨⟨h, rfl⟩, did_last _ _ _ _, w, hw.append _, rfl⟩
  | submitRebuildReport h r =>
    refine (wp_bind _ _).mpr ((wp_attempt _).mpr
      (wp_worker cfg (c := .submitRebuildReport h r) rfl (fun own w hw => ?_) fun _ _ => trivial))
    refine (wp_bind _ _).mpr (wp_sql (fun _ => ⟨h, r, rfl, rfl⟩) (fun t q => ?_) fun _ _ => trivial)
    refine (wp_bind _ _).mpr (wp_mono (keeps_recordReport cfg r _ ?_) (fun _ _ _ => trivial)
      fun _ _ _ => trivial)
    exact ⟨h, r, rfl, did_last _ _ _ _⟩
  | requestRebuild h r =>
    simp only [handler, Handler.requestRebuild]
    split
    · trivial
    · refine (wp_bind _ _).mpr (wp_sql (fun _ => ⟨h, rfl⟩) (fun t ids => ?_) fun _ _ => trivial)
      have hrest := Keeps.bind (keeps_sql (c := .requestRebuild h r) (s := .now)
        (fun own a (hown : Did own (.matchingBuildInputs r) ids) => hown.append [a])
        fun _ _ _ => trivial) fun now => .bind (.lift (addDuration now (-(60 * second))))
        fun next => .bind (.foldlM (fun (_ : Unit) id (hid : id ∈ ids.eraseDups) =>
          keeps_requeueInput (by simpa using hid) r.reset now next
            (r.priority.getD Priority.manual)) ()) fun _ => .pure (Response.matched ids.length)
      exact wp_mono (hrest _ (did_last [] t _ ids)) (fun _ _ _ => trivial) fun _ _ _ => trivial
  | dropQueuedJobs h o f =>
    simp only [handler, Handler.dropQueuedJobs]
    split
    · trivial
    · refine (wp_bind _ _).mpr (wp_sql (fun _ => ⟨h, rfl⟩) (fun t ids => ?_) fun _ _ => trivial)
      refine (wp_bind _ _).mpr (wp_sql (fun _ => ?_) (fun _ _ => trivial) fun _ _ => trivial)
      exact .inr (.inr ⟨h, o, f, rfl, did_last _ _ _ _⟩)
  | dropQueuedJob h id =>
    simp only [handler, Handler.dropQueuedJob]
    split
    · trivial
    · refine (wp_bind _ _).mpr (wp_sql (fun _ => ?_) (fun _ _ => trivial) fun _ _ => trivial)
      exact .inr (.inl ⟨h, rfl, rfl⟩)

/-! ### The trace of a run -/

/-- **The trace of a run is a history of justified statements.** -/
theorem trace_history (env : Env) (as : Schedule) :
    History (exec env) justified env.start (trace env as) :=
  (Pool.history (handler_justified env.config) env.start as).1

lemma state_runPool (env : Env) (as : Schedule) :
    (runPool env as).state = stateAfter (exec env) env.start (trace env as) :=
  (Pool.history (handler_justified env.config) env.start as).2

/-- What every statement keeps holds whenever a statement is executed. -/
lemma before_inv {env : Env} {as : Schedule} {I : Db → Prop}
    (hI : ∀ t s db, I db → I ((exec env).answer t s db).2) (h : I env.start) {e : Event}
    (he : e ∈ trace env as) : I e.before := by
  have hh := trace_history env as
  obtain ⟨pre, post, htr⟩ := List.append_of_mem he
  rw [htr] at hh
  rw [hh.event.1]
  have hbefore : History (exec env) justified env.start ([] ++ pre) := hh.of_append
  exact hbefore.stable hI h

section
variable {env : Env} {tr : List Event}

/-- A statement a handler has executed is in the trace. -/
lemma did_event {i : ℕ} {s : Stmt} {a : s.Answer} (h : Did (own i tr) s a) :
    ∃ pre e post, tr = pre ++ e :: post ∧ e.thread = i ∧ ∃ t, e.toStep = ⟨t, s, .ok a⟩ := by
  obtain ⟨t, ht⟩ := h
  obtain ⟨e, he, hi, hs⟩ := mem_own.mp ht
  obtain ⟨pre, post, rfl⟩ := List.append_of_mem he
  exact ⟨pre, e, post, rfl, hi, t, hs⟩

/-- What a statement established, and no statement undoes, holds from then on. -/
lemma did_stable {I : Db → Prop} (hI : ∀ t s db, I db → I ((exec env).answer t s db).2)
    {ok : Call → OwnSteps → Time → Stmt → Prop} (hh : History (exec env) ok env.start tr) {i : ℕ}
    {s : Stmt} {a : s.Answer} (h : Did (own i tr) s a) (hs : ∀ t db db', exec env t s db = .ok (a, db') → I db') :
    I (stateAfter (exec env) env.start tr) := by
  obtain ⟨pre, e, post, rfl, -, t, he⟩ := did_event h
  have hans := (History.event hh).2.1
  rw [← List.singleton_append, ← List.append_assoc] at hh ⊢
  refine History.stable hI hh ?_
  rw [stateAfter_snoc, Lib.Event.after]
  obtain ⟨⟨t', s', a'⟩, i', c, db⟩ := e
  cases he
  have : exec env t s db = .ok (a, ((exec env).answer t s db).2) :=
    Exec.answer_ok.mp (Prod.ext hans.symm rfl)
  exact hs t db _ this

end

/-! ### Small runs -/

/-- A daemon without authentication of workers, and with retries after a day. -/
def openDaemon (maxRetries : Option ℤ) : Env where
  config := ⟨"cookie", ⟨[], none⟩, ⟨none, maxRetries, none⟩⟩
  workers := .none
  ties := .inOrder
  zstd := id

def adminHeaders : Headers := ⟨some "cookie", none⟩
def workerHeaders (key : String) : Headers := ⟨none, some key⟩

/-- Request number `i` of the run, served at time `t` with nothing in between. -/
def serveAt (i : ℕ) (c : Call) (t : Time) : Schedule :=
  .call c :: List.replicate 16 (.step i t)

def package (name url : String) : SourcePackageReport := ⟨name, "1.0", url, [], none, none, none⟩

def debianReport (packages : List SourcePackageReport) : PackageReport :=
  ⟨"debian", none, none, "amd64", packages⟩

/-- One package is imported, and `alice` is handed its job. -/
def handedOut : Schedule :=
  serveAt 0 (.submitPackageReport adminHeaders (debianReport [package "hello" "https://hello"])) 0 ++
  serveAt 1 (.requestWork (workerHeaders "alice") ⟨["debian"], "amd64", ["amd64"]⟩) (10 * second)

lemma exists_ok {x : Except Err Db} {P : Db → Bool} (h : x.toOption.any P = true) :
    ∃ db, x = .ok db ∧ P db = true := by
  rcases x with e | db
  · cases h
  · exact ⟨db, rfl, h⟩

def reportBy (key : String) (status : BuildStatus) : Call :=
  .submitRebuildReport (workerHeaders key) ⟨1, 0, [], status, []⟩

end Rebuilderd.Daemon
