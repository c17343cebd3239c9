import Rebuilderd.Lib.Serial
import Rebuilderd.Daemon.Records
import Rebuilderd.Daemon.Runs

/-!
Requests served one at a time, and what each does to packages and histories.

A rebuild report adds the same record to the history of every friend; a package report may copy a
history; the other requests leave packages and histories alone, except that `request_rebuild` may
forget results.
-/

namespace Rebuilderd.Daemon

open Rebuilderd.Lib Rebuilderd.Common Prog

/-- A request, and when its statements execute. -/
abbrev Request := Call × (ℕ → Time)

/-- The database after a request was served. -/
def served (env : Env) (db : Db) (c : Request) : Db :=
  (serve (exec env) (handler env.config) db c).2

/-- Whatever a serial run reaches is reached by the daemon. -/
lemma reachable_of_runs {env : Env} {ok : Db → Request → Prop} {db : Db}
    (h : Runs (served env) ok env.start db) : Reachable env db :=
  Runs.pool h

/-! ### Packages and histories left alone -/

/-- The databases agree on source packages, build inputs and binary packages. -/
structure SamePackages (db db' : Db) : Prop where
  sources : db'.sourcePackages = db.sourcePackages
  inputs : db'.inputs = db.inputs
  seq : db'.buildInputs.seq = db.buildInputs.seq
  binaries : db'.binaryPackages = db.binaryPackages

/-- The databases agree on packages, rebuilds and build logs. -/
structure SameRecords (db db' : Db) : Prop extends SamePackages db db' where
  buildLogs : db'.buildLogs = db.buildLogs
  rebuilds : db'.rebuilds = db.rebuilds
  artifacts : db'.rebuildArtifacts = db.rebuildArtifacts

namespace SamePackages

variable {db db' db'' : Db}

lemma refl (db : Db) : SamePackages db db := ⟨rfl, rfl, rfl, rfl⟩

lemma trans (h : SamePackages db db') (h' : SamePackages db' db'') : SamePackages db db'' :=
  ⟨h'.sources.trans h.sources, h'.inputs.trans h.inputs, h'.seq.trans h.seq,
    h'.binaries.trans h.binaries⟩

end SamePackages

namespace SameRecords

variable {db db' db'' : Db}

lemma refl (db : Db) : SameRecords db db := ⟨.refl db, rfl, rfl, rfl⟩

lemma trans (h : SameRecords db db') (h' : SameRecords db' db'') : SameRecords db db'' :=
  ⟨h.toSamePackages.trans h'.toSamePackages, h'.buildLogs.trans h.buildLogs,
    h'.rebuilds.trans h.rebuilds, h'.artifacts.trans h.artifacts⟩

lemma history (h : SameRecords db db') (i : ℕ) : history db' i = history db i :=
  history_congr h.rebuilds h.artifacts i

lemma fresh (h : SameRecords db db') (hf : Fresh db) : Fresh db' :=
  hf.congr h.rebuilds h.artifacts h.seq.ge

end SameRecords

/-- The statements that write no package, rebuild or build log. -/
def Stmt.keepsRecords : Stmt → Bool
  | .insertBuildLog _ | .insertRebuild _ | .insertRebuildArtifact _ | .resetRebuild _
  | .resetArtifacts _ | .commitPackageReport _ _ => false
  | _ => true

lemma exec_sameRecords (env : Env) (t : Time) {s : Stmt} (hs : s.keepsRecords = true) (db : Db) :
    SameRecords db ((exec env).answer t s db).2 := by
  cases s with
  | insertBuildLog | insertRebuild | insertRebuildArtifact | resetRebuild | resetArtifacts
  | commitPackageReport => cases hs
  | setNextRetry ids next =>
    exact ⟨⟨rfl, setNextRetry_inputs _ _ _, rfl, rfl⟩, rfl, rfl, rfl⟩
  | incrementRetries ids =>
    exact ⟨⟨rfl, incrementRetries_inputs _ _, rfl, rfl⟩, rfl, rfl, rfl⟩
  | refreshWorker key now =>
    refine Exec.answer_inv (E := exec env) (I := fun d : Db => SameRecords db d) (.refl db)
      fun w db' h => ?_
    simp only [exec, refreshWorker] at h
    split at h <;> cases h
    exact ⟨⟨rfl, rfl, rfl, rfl⟩, rfl, rfl, rfl⟩
  | popJob w r =>
    change SameRecords db (popJob env.ties w r t db).2
    rcases popJob_cases env.ties w r t db with ⟨row, -, h⟩ | h <;> rw [h]
    · exact ⟨⟨rfl, rfl, rfl, rfl⟩, rfl, rfl, rfl⟩
    · exact .refl db
  | findQueued id =>
    refine Exec.answer_inv (I := fun d : Db => SameRecords db d) (.refl db) fun q db' h => ?_
    rw [(exec_findQueued h).2.2]
    exact .refl db
  | maxRetriesOf ids =>
    refine Exec.answer_inv (I := fun d : Db => SameRecords db d) (.refl db) fun n db' h => ?_
    rw [exec_maxRetriesOf h]
    exact .refl db
  | _ => exact ⟨⟨rfl, rfl, rfl, rfl⟩, rfl, rfl, rfl⟩

/-- Requests that record and import nothing leave packages and histories alone. -/
lemma served_sameRecords (env : Env) (db : Db) {c : Call} (t : ℕ → Time)
    (hc : ∀ own i s, justified c own i s → s.keepsRecords = true) :
    SameRecords db (served env db (c, t)) :=
  run_of_journal (handler_justified env.config c) (I := fun d : Db => SameRecords db d)
    (fun own i s d hs hd => hd.trans (exec_sameRecords env i (hc own i s hs) d)) t (.refl db)

/-- The requests of workers for work and of admins for dropping jobs. -/
def Call.keepsRecords : Call → Bool
  | .requestWork _ _ | .pingJob _ _ | .dropQueuedJobs _ _ _ | .dropQueuedJob _ _ => true
  | _ => false

lemma keepsRecords_of_justified {c : Call} (hc : c.keepsRecords = true) (own : OwnSteps) (i : Time)
    (s : Stmt) (h : justified c own i s) : s.keepsRecords = true := by
  cases s with
  | insertBuildLog | insertRebuild | insertRebuildArtifact =>
    obtain ⟨q, hd, r, rfl, -⟩ := h
    cases hc
  | resetRebuild | resetArtifacts =>
    obtain ⟨hd, r, rfl⟩ := h
    cases hc
  | commitPackageReport now r =>
    obtain ⟨⟨hd, rfl⟩, -⟩ := h
    cases hc
  | _ => rfl

/-- A package report commits or changes nothing. -/
lemma served_packageReport (env : Env) (db : Db) (h : Headers) (r : PackageReport) (t : ℕ → Time) :
    served env db (.submitPackageReport h r, t) = db ∨
      commitPackageReport env.config.schedule env.ties (t 0) r db =
        .ok (served env db (.submitPackageReport h r, t)) := by
  unfold served serve
  simp only [handler, Handler.submitPackageReport]
  split
  · exact .inl rfl
  · rw [run_stmt_bind]
    simp only [exec]
    rw [run_stmt_bind]
    rcases hc : commitPackageReport env.config.schedule env.ties (t 0) r db with e | db'
    · left
      simp [exec, hc, Except.map]
    · right
      simp [exec, hc, Except.map]

/-! ### Programs that record nothing -/

/-- The statements that cannot fail. -/
def Stmt.total : Stmt → Bool
  | .refreshWorker _ _ | .findQueued _ | .maxRetriesOf _ | .commitPackageReport _ _ => false
  | _ => true

lemma exec_total (env : Env) (t : Time) {s : Stmt} (hs : s.total = true) (db : Db) (e : Err) :
    exec env t s db ≠ .error e := by
  cases s with
  | refreshWorker | findQueued | maxRetriesOf | commitPackageReport => cases hs
  | _ => exact fun h => nomatch h

/-- The program cannot fail, and leaves packages and histories alone. -/
def Quiet {α : Type} (env : Env) (p : Handler α) : Prop :=
  ∀ db₀ db, SameRecords db₀ db →
    wp (exec env).rules p (fun y _ => SameRecords db₀ y) (fun _ _ => False) db

namespace Quiet

variable {env : Env} {α β : Type}

lemma pure (a : α) : Quiet env (pure a : Handler α) := fun _ _ h => h

lemma sql {s : Stmt} (hk : s.keepsRecords = true) (ht : s.total = true) : Quiet env (sql s) := by
  refine fun db₀ db h => wp_stmt_run (fun i a y hE => ?_) fun i e hE => exec_total env i ht db e hE
  have hkeep := exec_sameRecords env i hk db
  rw [Exec.answer_ok.mpr hE] at hkeep
  exact h.trans hkeep

lemma bind {p : Handler α} {f : α → Handler β} (hp : Quiet env p) (hf : ∀ a, Quiet env (f a)) :
    Quiet env (p >>= f) := by
  intro db₀ db h
  rw [wp_bind]
  exact wp_mono (hp db₀ db h) (fun y a hy => hf a db₀ y hy) fun _ _ h => h

lemma map {p : Handler α} (hp : Quiet env p) (f : α → β) : Quiet env (f <$> p) :=
  bind hp fun a => pure (f a)

end Quiet

section
variable {env : Env}

lemma quiet_encode (data : Bytes) : Quiet env (Handler.encode data) := by
  unfold Handler.encode
  split
  · exact .pure _
  · exact .sql rfl rfl

lemma quiet_encodeOptional (data : Option Bytes) : Quiet env (Handler.encodeOptional data) := by
  cases data with
  | none => exact .pure _
  | some data => exact (quiet_encode data).map _

lemma quiet_insertArtifactLogs (a : RebuildArtifactReport) :
    Quiet env (Handler.insertArtifactLogs a) := by
  have hdiffoscope (log : Option Bytes) : Quiet env (Handler.insertDiffoscope log) := by
    cases log with
    | none => exact .pure _
    | some log => exact .map (.sql (s := .insertDiffoscopeLog log) rfl rfl) _
  have hattestation (log : Option Bytes) : Quiet env (Handler.insertAttestation log) := by
    cases log with
    | none => exact .pure _
    | some log => exact .map (.sql (s := .insertAttestationLog log) rfl rfl) _
  exact .bind (quiet_encodeOptional _) fun _ => .bind (quiet_encodeOptional _) fun _ =>
    .bind (hdiffoscope _) fun _ => .bind (hattestation _) fun _ => .pure _

/-- A program of statements that leave packages and histories alone does so. -/
lemma keepsRecords_of_only {α : Type} {p : Handler α}
    (hp : Only (fun s => s.keepsRecords = true) p) (db₀ : Db) :
    Keeps (exec env).rules (SameRecords db₀) p := by
  refine hp.keeps fun x i s hs hx => ⟨trivial, fun r y hy => ?_⟩
  have hkeep := exec_sameRecords env i hs x
  rw [show (exec env).answer i s x = (r, y) from hy] at hkeep
  exact hx.trans hkeep

/-- What follows a rebuild that is not good leaves packages and histories alone. -/
lemma keepsRecords_retry (cfg : Config) (q : Queued) (friends : List ℕ) (db₀ : Db) :
    Keeps (exec env).rules (SameRecords db₀) (Handler.retry cfg q friends) :=
  keepsRecords_of_only ((only_retry cfg q friends).mono fun s hs => by
    cases s <;> first | rfl | cases hs) db₀

/-- Authentication touches the workers only. -/
lemma keepsRecords_worker (cfg : Config) (h : Headers) (db₀ : Db) :
    Keeps (exec env).rules (fun db => SameRecords db₀ db ∧ db.queue = db₀.queue)
      (Handler.worker cfg h) := by
  refine (only_worker cfg h).keeps fun x i s hs hx => ⟨trivial, fun r y hy => ?_⟩
  have hkeep := exec_sameRecords env i (s := s) (by cases s <;> first | rfl | cases hs) x
  have hqueue : ((exec env).answer i s x).2.queue = x.queue := by
    cases s with
    | refreshWorker key now =>
      refine Exec.answer_inv (E := exec env) (I := fun d : Db => d.queue = x.queue) rfl
        fun w db' h => ?_
      simp only [exec, refreshWorker] at h
      split at h <;> cases h
      rfl
    | now | keyIsRegistered | upsertWorker => rfl
    | _ => cases hs
  rw [show (exec env).answer i s x = (r, y) from hy] at hkeep hqueue
  exact ⟨hx.1.trans hkeep, hqueue.trans hx.2⟩

end

/-! ### Recording a report -/

/-- What is recorded of an artifact, with the logs inserted under its name. -/
def content (logs : Handler.ArtifactLogs) (a : RebuildArtifactReport) : ArtifactRecord :=
  let ids := (logs.lookup a.name).getD (none, none)
  ⟨a.name, ids.1, ids.2, some a.status⟩

/-- What a report records of the job `q`. -/
def recordOf (r : RebuildReport) (q : Queued) (log : ℕ) (logs : Handler.ArtifactLogs) : Record :=
  ⟨q.startedAt, some r.builtAt, log, some r.status, r.artifacts.map (content logs)⟩

/-- Every artifact has its logs. -/
def Covers (logs : Handler.ArtifactLogs) (as : List RebuildArtifactReport) : Prop :=
  ∀ a ∈ as, (logs.lookup a.name).isSome = true

/-- The logs inserted so far stay as they are. -/
def Extends (logs logs' : Handler.ArtifactLogs) : Prop :=
  ∀ n, (logs.lookup n).isSome = true → logs'.lookup n = logs.lookup n

lemma Extends.trans {logs logs' logs'' : Handler.ArtifactLogs} (h : Extends logs logs')
    (h' : Extends logs' logs'') : Extends logs logs'' := by
  intro n hn
  rw [h' n (by rw [h n hn]; exact hn), h n hn]

lemma Covers.extends {logs logs' : Handler.ArtifactLogs} {as : List RebuildArtifactReport}
    (h : Covers logs as) (he : Extends logs logs') : Covers logs' as := by
  intro a ha
  rw [he _ (h a ha)]
  exact h a ha

lemma Covers.content_eq {logs logs' : Handler.ArtifactLogs} {as : List RebuildArtifactReport}
    (h : Covers logs as) (he : Extends logs logs') : as.map (content logs') = as.map (content logs) := by
  refine List.map_congr_left fun a ha => ?_
  unfold content
  rw [he _ (h a ha)]

/-- Artifacts were added to one rebuild, and nothing else. -/
structure ArtifactsAdded (rebuild : ℕ) (as : List ArtifactRecord) (db db' : Db) : Prop
    extends SamePackages db db' where
  buildLogs : db'.buildLogs = db.buildLogs
  rebuilds : db'.rebuilds = db.rebuilds
  artifacts : ∀ k, artifactsOf db' k = artifactsOf db k ++ if rebuild = k then as else []
  fresh : Fresh db'

/-- One record was added to the histories of the build inputs `is`, and nothing else. -/
structure RecordAdded (is : List ℕ) (rec : Record) (db db' : Db) : Prop
    extends SamePackages db db' where
  buildLogs : db'.buildLogs = db.buildLogs
  history : ∀ i, history db' i = history db i ++ if i ∈ is then [rec] else []
  fresh : Fresh db'

section
variable {env : Env} {db : Db}

lemma wp_artifactLogs (logs : Handler.ArtifactLogs) (a : RebuildArtifactReport) (db : Db) :
    wp (exec env).rules (Handler.artifactLogs logs a)
      (fun y out => SameRecords db y ∧ Extends logs out.2 ∧ out.2.lookup a.name = some out.1)
      (fun _ _ => False) db := by
  unfold Handler.artifactLogs
  split
  · rename_i ids hids
    exact ⟨.refl db, fun _ _ => rfl, hids⟩
  · rename_i hnone
    refine (wp_bind _ _).mpr (wp_mono (quiet_insertArtifactLogs a db db (.refl db))
      (fun y ids hy => ⟨hy, fun n hn => ?_, by simp⟩) fun _ _ h => h)
    have hne : (n == a.name) = false := by
      rw [beq_eq_false_iff_ne]
      rintro rfl
      rw [hnone] at hn
      cases hn
    rw [List.lookup_cons, hne]

lemma wp_recordArtifact (hf : Fresh db) {rebuild : ℕ} (hr : rebuild ≤ db.rebuilds.seq)
    (logs : Handler.ArtifactLogs) (a : RebuildArtifactReport) :
    wp (exec env).rules (Handler.recordArtifact rebuild logs a)
      (fun y logs' => ArtifactsAdded rebuild [content logs' a] db y ∧ Extends logs logs' ∧
        (logs'.lookup a.name).isSome = true) (fun _ _ => False) db := by
  refine (wp_bind _ _).mpr (wp_mono (wp_artifactLogs logs a db) ?_ fun _ _ h => h)
  rintro d ⟨ids, logs'⟩ ⟨hsame, hext, hids⟩
  refine (wp_bind _ _).mpr (wp_stmt_run (fun i u y hE => ?_) fun i e hE => nomatch hE)
  cases hE
  refine ⟨⟨hsame.toSamePackages.trans ⟨rfl, rfl, rfl, rfl⟩, hsame.buildLogs, hsame.rebuilds,
    fun k => ?_, ?_⟩, hext, by rw [hids]; rfl⟩
  · rw [artifactsOf_insertArtifact]
    have hold : artifactsOf d k = artifactsOf db k := by
      unfold artifactsOf
      rw [hsame.artifacts]
    rw [hold]
    simp only [content, hids, Option.getD_some]
  · exact (hsame.fresh hf).insertArtifact (by rw [hsame.rebuilds]; exact hr)

lemma wp_recordArtifacts (hf : Fresh db) {rebuild : ℕ} (hr : rebuild ≤ db.rebuilds.seq)
    (logs : Handler.ArtifactLogs) (as : List RebuildArtifactReport) :
    wp (exec env).rules (as.foldlM (Handler.recordArtifact rebuild) logs)
      (fun y logs' => ArtifactsAdded rebuild (as.map (content logs')) db y ∧ Extends logs logs' ∧
        Covers logs' as) (fun _ _ => False) db := by
  refine wp_mono (wp_foldlM (fun y logs' rest => ∃ done, done ++ rest = as ∧
    ArtifactsAdded rebuild (done.map (content logs')) db y ∧ Extends logs logs' ∧ Covers logs' done)
    ?_ as logs ?_) ?_ fun _ _ h => h
  · rintro d logs₁ a rest ⟨done, rfl, hadd, hext, hcov⟩
    have hr' : rebuild ≤ d.rebuilds.seq := by
      rw [hadd.rebuilds]
      exact hr
    refine wp_mono (wp_recordArtifact hadd.fresh hr' logs₁ a) ?_ fun _ _ h => h
    rintro y logs₂ ⟨hadd', hext', hname⟩
    refine ⟨done ++ [a], by simp, ⟨hadd.toSamePackages.trans hadd'.toSamePackages,
      hadd'.buildLogs.trans hadd.buildLogs, hadd'.rebuilds.trans hadd.rebuilds, fun k => ?_,
      hadd'.fresh⟩, hext.trans hext', ?_⟩
    · rw [hadd'.artifacts, hadd.artifacts, List.map_append, hcov.content_eq hext']
      by_cases hk : rebuild = k
      · simp [hk]
      · simp [hk]
    · intro b hb
      rcases List.mem_append.mp hb with hb | hb
      · exact hcov.extends hext' b hb
      · rw [List.mem_singleton.mp hb]
        exact hname
  · exact ⟨[], rfl, ⟨.refl db, rfl, rfl, fun k => by simp, hf⟩, fun _ _ => rfl, by simp [Covers]⟩
  · rintro y logs' ⟨done, hdone, h⟩
    rw [List.append_nil] at hdone
    exact hdone ▸ h

lemma wp_recordRebuild (hf : Fresh db) {friend : ℕ} (hfriend : friend ≤ db.buildInputs.seq)
    (r : RebuildReport) (q : Queued) (log : ℕ) (logs : Handler.ArtifactLogs) :
    wp (exec env).rules (Handler.recordRebuild r q log logs friend)
      (fun y logs' => RecordAdded [friend] (recordOf r q log logs') db y ∧ Extends logs logs' ∧
        Covers logs' r.artifacts) (fun _ _ => False) db := by
  refine (wp_bind _ _).mpr (wp_stmt_run (fun i rebuild d hE => ?_) fun i e hE => nomatch hE)
  cases hE
  refine wp_mono (wp_recordArtifacts (hf.insertRebuild hfriend) le_rfl logs r.artifacts) ?_
    fun _ _ h => h
  rintro y logs' ⟨hadd, hext, hcov⟩
  refine ⟨⟨⟨hadd.sources, hadd.inputs, hadd.seq, hadd.binaries⟩, hadd.buildLogs, fun i => ?_,
    hadd.fresh⟩, hext, hcov⟩
  rw [history_added hf hadd.rebuilds hadd.artifacts]
  by_cases hi : friend = i
  · simp [hi, recordOf, NewRebuild.record]
  · simp [hi, Ne.symm hi]

/-- Every friend gets the same record. -/
lemma wp_recordRebuilds (hf : Fresh db) {friends : List ℕ} (hnodup : friends.Nodup)
    (hfriends : ∀ i ∈ friends, i ≤ db.buildInputs.seq) (r : RebuildReport) (q : Queued) (log : ℕ) :
    wp (exec env).rules (friends.foldlM (Handler.recordRebuild r q log) [])
      (fun y _ => ∃ logs, RecordAdded friends (recordOf r q log logs) db y)
      (fun _ _ => False) db := by
  refine wp_mono (wp_foldlM (fun y logs rest => ∃ done, done ++ rest = friends ∧
    RecordAdded done (recordOf r q log logs) db y ∧ (done ≠ [] → Covers logs r.artifacts))
    ?_ friends [] ?_) ?_ fun _ _ h => h
  · rintro d logs friend rest ⟨done, rfl, hadd, hcov⟩
    have hle : friend ≤ d.buildInputs.seq := by
      rw [hadd.seq]
      exact hfriends friend (by simp)
    refine wp_mono (wp_recordRebuild hadd.fresh hle r q log logs) ?_ fun _ _ h => h
    rintro y logs' ⟨hadd', hext, hcov'⟩
    refine ⟨done ++ [friend], by simp, ⟨hadd.toSamePackages.trans hadd'.toSamePackages,
      hadd'.buildLogs.trans hadd.buildLogs, fun i => ?_, hadd'.fresh⟩, fun _ => hcov'⟩
    rw [hadd'.history, hadd.history]
    have hnot : friend ∉ done := by
      have := (List.nodup_append.mp hnodup).2.2
      exact fun hmem => this friend hmem friend (by simp) rfl
    by_cases hi : i ∈ done
    · -- The logs of the artifacts were inserted for the first friend.
      have hne : i ≠ friend := fun h => hnot (h ▸ hi)
      have hsame : recordOf r q log logs' = recordOf r q log logs := by
        unfold recordOf
        rw [(hcov (List.ne_nil_of_mem hi)).content_eq hext]
      simp [hi, hne, hsame]
    · simp [hi]
  · exact ⟨[], rfl, ⟨.refl db, rfl, fun i => by simp, hf⟩, fun h => absurd rfl h⟩
  · rintro y logs ⟨done, hdone, hadd, -⟩
    rw [List.append_nil] at hdone
    exact ⟨logs, hdone ▸ hadd⟩

end

/-- The report `r` about the job `q` was recorded. -/
structure Recorded (r : RebuildReport) (q : Queued) (db db' : Db) : Prop
    extends SamePackages db db' where
  buildLogs : db'.buildLogs.seq = db.buildLogs.seq + 1
  history : ∃ logs, ∀ i, history db' i = history db i ++
    if i ∈ buildInputFriends db q.buildInputId then [recordOf r q (db.buildLogs.seq + 1) logs] else []
  fresh : Fresh db'

lemma Recorded.trans {r : RebuildReport} {q : Queued} {db db' db'' : Db} (h : Recorded r q db db')
    (h' : SameRecords db' db'') : Recorded r q db db'' := by
  obtain ⟨logs, hlogs⟩ := h.history
  exact ⟨h.toSamePackages.trans h'.toSamePackages, by rw [h'.buildLogs, h.buildLogs],
    ⟨logs, fun i => by rw [h'.history, hlogs]⟩, h'.fresh h.fresh⟩

lemma nodup_buildInputFriends (db : Db) (i : ℕ) : (buildInputFriends db i).Nodup := by
  have hrows : (db.buildInputs.rows.map (·.id)).Nodup :=
    List.pairwise_map.mpr (db.buildInputs.sorted.imp fun hlt => hlt.ne)
  exact hrows.sublist (List.filter_sublist.map _)

lemma le_of_mem_buildInputFriends {db : Db} {i j : ℕ} (h : j ∈ buildInputFriends db i) :
    j ≤ db.buildInputs.seq := by
  obtain ⟨b, hb, rfl⟩ := List.mem_map.mp h
  exact db.buildInputs.bound b (List.mem_filter.mp hb).1

lemma wp_submitRebuildReport_recorded (env : Env) {db : Db} (hf : Fresh db) (h : Headers)
    (r : RebuildReport) :
    wp (exec env).rules (Handler.submitRebuildReport env.config h r)
      (fun y a => (a ≠ .noContent ∧ SameRecords db y) ∨
        ∃ q ∈ db.queue.rows, q.id = r.queueId ∧ Recorded r q db y)
      (fun y _ => SameRecords db y ∨ ∃ q ∈ db.queue.rows, q.id = r.queueId ∧ Recorded r q db y)
      db := by
  refine (wp_bind _ _).mpr ((wp_attempt _).mpr (wp_mono
    (keepsRecords_worker env.config h db db ⟨.refl db, rfl⟩) ?_
    fun _ _ h => .inl ⟨by simp, h.1⟩))
  rintro d w ⟨hsame, hqueue⟩
  refine (wp_bind _ _).mpr (wp_stmt_run (fun i q y hE => ?_) fun i e hE => .inl hsame)
  obtain ⟨hq, hid, rfl⟩ := exec_findQueued hE
  rw [hqueue] at hq
  refine (wp_bind _ _).mpr ((wp_bind _ _).mpr (wp_stmt_run (fun i friends y' hE => ?_)
    fun i e hE => nomatch hE))
  cases hE
  refine (wp_bind _ _).mpr (wp_mono (quiet_encode r.buildLog db y hsame) (fun d log hd => ?_)
    fun _ _ => False.elim)
  refine (wp_bind _ _).mpr (wp_stmt_run (fun i logId y' hE => ?_) fun i e hE => nomatch hE)
  cases hE
  rw [buildInputFriends_of_inputs hsame.inputs]
  have hlogged : Fresh (insertBuildLog log d).2 := (hd.fresh hf).congr rfl rfl le_rfl
  refine (wp_bind _ _).mpr (wp_mono (wp_recordRebuilds hlogged
    (nodup_buildInputFriends db q.buildInputId) (fun i hi => ?_) r q _) ?_ fun _ _ => False.elim)
  · exact (le_of_mem_buildInputFriends hi).trans_eq hd.seq.symm
  · rintro y _ ⟨logs, hadd⟩
    have hrec : Recorded r q db y := by
      refine ⟨hd.toSamePackages.trans ⟨hadd.sources, hadd.inputs, hadd.seq, hadd.binaries⟩, ?_,
        ⟨logs, fun i => ?_⟩, hadd.fresh⟩
      · rw [hadd.buildLogs, ← hd.buildLogs]
        rfl
      · rw [hadd.history, ← hd.history i, ← hd.buildLogs]
        rfl
    have hend {z : Db} (hz : SameRecords y z) :
        ∃ q ∈ db.queue.rows, q.id = r.queueId ∧ Recorded r q db z := ⟨q, hq, hid, hrec.trans hz⟩
    refine (wp_bind _ _).mpr (wp_mono (keepsRecords_of_only
      (.stmt (s := .deleteQueued [q.id]) rfl) y y (.refl y))
      (fun z _ hz => ?_) fun z _ hz => .inr (hend hz))
    split
    · exact wp_mono (keepsRecords_retry _ _ _ y z hz) (fun _ _ h => .inr (hend h))
        fun _ _ h => .inr (hend h)
    · exact .inr (hend hz)

/-- **A rebuild report is recorded with every friend, or changes no history.** -/
theorem served_rebuildReport (env : Env) (db : Db) (hf : Fresh db) (h : Headers) (r : RebuildReport)
    (t : ℕ → Time) :
    let db' := served env db (.submitRebuildReport h r, t)
    SameRecords db db' ∨ ∃ q ∈ db.queue.rows, q.id = r.queueId ∧ Recorded r q db db' := by
  obtain ⟨hok, herr⟩ := run_of_wp (wp_submitRebuildReport_recorded env hf h r) t
  rcases hres : ((Handler.submitRebuildReport env.config h r).run (exec env) t db).1 with e | a
  · exact herr e hres
  · exact (hok a hres).imp_left fun h => h.2

/-- A rebuild report that is accepted is recorded. -/
theorem served_accepted {env : Env} {db : Db} (hf : Fresh db) {h : Headers} {r : RebuildReport}
    {t : ℕ → Time}
    (hok : (serve (exec env) (handler env.config) db (.submitRebuildReport h r, t)).1 =
      .ok .noContent) :
    ∃ q ∈ db.queue.rows, q.id = r.queueId ∧
      Recorded r q db (served env db (.submitRebuildReport h r, t)) :=
  ((run_of_wp (wp_submitRebuildReport_recorded env hf h r) t).1 .noContent hok).resolve_left
    fun h => h.1 rfl

end Rebuilderd.Daemon
