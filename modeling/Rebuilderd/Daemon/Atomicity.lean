import Rebuilderd.Daemon.Runs

/-!
What a rebuild report leaves behind when one of its statements fails.

`submit_rebuild_report` runs without a transaction. Up to the insert of the build log it only
reads, apart from refreshing the worker; from then on every statement that fails leaves what was
written before it.
-/

namespace Rebuilderd.Daemon

open Rebuilderd.Lib Rebuilderd.Common Prog

/-- The tables a rebuild report writes have the same rows. -/
structure SameResults (db db' : Db) : Prop where
  buildLogs : db'.buildLogs.rows = db.buildLogs.rows
  diffoscopeLogs : db'.diffoscopeLogs.rows = db.diffoscopeLogs.rows
  attestationLogs : db'.attestationLogs.rows = db.attestationLogs.rows
  rebuilds : db'.rebuilds.rows = db.rebuilds.rows
  rebuildArtifacts : db'.rebuildArtifacts.rows = db.rebuildArtifacts.rows
  buildInputs : db'.buildInputs.rows = db.buildInputs.rows
  queue : db'.queue.rows = db.queue.rows

lemma SameResults.refl (db : Db) : SameResults db db := ⟨rfl, rfl, rfl, rfl, rfl, rfl, rfl⟩

lemma refreshWorker_sameResults {key : String} {now : Time} {db db' : Db} {w : Worker}
    (h : refreshWorker key now db = .ok (w, db')) : SameResults db db' := by
  unfold refreshWorker at h
  dsimp only at h
  split at h <;> cases h
  exact ⟨rfl, rfl, rfl, rfl, rfl, rfl, rfl⟩

/-- Build logs are never deleted. -/
lemma exec_buildLogs (env : Env) (t : Time) (s : Stmt) (db : Db) :
    db.buildLogs.rows.length ≤ ((exec env).answer t s db).2.buildLogs.rows.length := by
  cases s with
  | insertBuildLog log =>
    change _ ≤ (insertBuildLog log db).2.buildLogs.rows.length
    simp [insertBuildLog]
  | popJob w r =>
    change _ ≤ (popJob env.ties w r t db).2.buildLogs.rows.length
    rcases popJob_cases env.ties w r t db with ⟨row, -, h⟩ | h <;> rw [h]
    exact le_rfl
  | refreshWorker key now =>
    refine Exec.answer_inv (E := exec env)
      (I := fun d : Db => db.buildLogs.rows.length ≤ d.buildLogs.rows.length) le_rfl fun w db' h => ?_
    rw [(refreshWorker_sameResults h).buildLogs]
  | commitPackageReport now r =>
    refine Exec.answer_inv
      (I := fun d : Db => db.buildLogs.rows.length ≤ d.buildLogs.rows.length) le_rfl fun u db' h => ?_
    obtain ⟨db₁, hf, rfl⟩ := commitPackageReport_ok (exec_commit h)
    suffices hlogs : db₁.buildLogs = db.buildLogs from (congrArg (·.rows.length) hlogs).ge
    refine foldlM_ok (I := fun _ d => d.buildLogs = db.buildLogs) hf rfl fun _ p d d' _ hd hp => ?_
    obtain ⟨first, -, he⟩ := importPackage_ok hp
    have himport := (importWithHistory_frame now first r p d).buildLogs.trans hd
    rcases enqueueImported_cases he with ⟨-, rfl⟩ | ⟨-, -, n, -, ⟨-, rfl⟩ | ⟨-, priority, rfl⟩⟩ <;>
      exact himport
  | findQueued id =>
    refine Exec.answer_inv
      (I := fun d : Db => db.buildLogs.rows.length ≤ d.buildLogs.rows.length) le_rfl fun q db' h => ?_
    rw [(exec_findQueued h).2.2]
  | maxRetriesOf ids =>
    refine Exec.answer_inv
      (I := fun d : Db => db.buildLogs.rows.length ≤ d.buildLogs.rows.length) le_rfl fun n db' h => ?_
    rw [exec_maxRetriesOf h]
  | _ => exact le_rfl

/-! ### Where the build log is inserted -/

/-- How many statements authenticate a worker. -/
def authStatements (cfg : Config) : ℕ := if Handler.openToAll cfg then 2 else 3

/-- The number of the statement that inserts the build log, counted from 0: after the
authentication, the lookups of the queue row and of the friends, and the compression. -/
def logStatement (cfg : Config) (r : RebuildReport) : ℕ :=
  authStatements cfg + 2 + if Handler.isZstdCompressed r.buildLog then 0 else 1

section
variable {env : Env} {e : Err} {db : Db} {n : ℕ}

lemma wp_worker_fault (cfg : Config) (h : Headers) {Q : Db × Option ℕ → Worker → Prop}
    {F : Db × Option ℕ → Err → Prop}
    (hQ : ∀ m db' w, n = m + authStatements cfg → SameResults db db' → Q (db', some m) w)
    (hF : ∀ c db' e', SameResults db db' → (c = none → n < authStatements cfg) → F (db', c) e') :
    wp ((exec env).faultRules e) (Handler.worker cfg h) Q F (db, some n) := by
  unfold Handler.worker authStatements at *
  split
  · rename_i hopen
    simp only [hopen, if_true] at hQ hF
    refine (wp_bind _ _).mpr (wp_stmt_fault (fun hn => ?_) (fun m i now y hm hE => ?_) fun m e' hm => ?_)
    · exact hF _ _ _ (.refl _) fun _ => by omega
    · cases hE
      refine wp_stmt_fault (fun hn => ?_) (fun m' i w y hm' hE => ?_) fun m' e' hm' => ?_
      · exact hF _ _ _ (.refl _) fun _ => by omega
      · cases hE
        exact hQ _ _ _ (by omega) ⟨rfl, rfl, rfl, rfl, rfl, rfl, rfl⟩
      · exact hF _ _ _ (.refl _) nofun
    · exact hF _ _ _ (.refl _) nofun
  · rename_i hopen
    simp only [hopen, Bool.false_eq_true, if_false] at hQ hF
    split
    · exact hF _ _ _ (.refl _) nofun
    · split
      · exact hF _ _ _ (.refl _) nofun
      · refine (wp_bind _ _).mpr
          (wp_stmt_fault (fun hn => ?_) (fun m i known y hm hE => ?_) fun m e' hm => ?_)
        · exact hF _ _ _ (.refl _) fun _ => by omega
        · cases hE
          split
          · refine (wp_bind _ _).mpr
              (wp_stmt_fault (fun hn => ?_) (fun m' i now y hm' hE => ?_) fun m' e' hm' => ?_)
            · exact hF _ _ _ (.refl _) fun _ => by omega
            · cases hE
              refine wp_stmt_fault (fun hn => ?_) (fun m'' i w y hm'' hE => ?_) fun m'' e' hm'' => ?_
              · exact hF _ _ _ (.refl _) fun _ => by omega
              · exact hQ _ _ _ (by omega) (refreshWorker_sameResults hE)
              · exact hF _ _ _ (.refl _) nofun
            · exact hF _ _ _ (.refl _) nofun
          · exact hF _ _ _ (.refl _) nofun
        · exact hF _ _ _ (.refl _) nofun

/-- Once there is a build log more, there is one at the end. -/
lemma wp_longer {α : Type} (p : Handler α) {x : Db × Option ℕ}
    (hx : db.buildLogs.rows.length < x.1.buildLogs.rows.length) :
    wp ((exec env).faultRules e) p
      (fun y _ => db.buildLogs.rows.length < y.1.buildLogs.rows.length)
      (fun y _ => db.buildLogs.rows.length < y.1.buildLogs.rows.length) x := by
  refine Keeps.of_stmts (I := fun x : Db × Option ℕ =>
    db.buildLogs.rows.length < x.1.buildLogs.rows.length) ?_ p x hx
  rintro ⟨d, c⟩ t s hd
  refine ⟨trivial, fun r y hy => ?_⟩
  have hkept := lt_of_lt_of_le hd (exec_buildLogs env t s d)
  rcases c with _ | _ | c
  · rw [hy.1] at hkept
    exact hkept
  · rw [hy.2]
    exact hd
  · rw [hy.1] at hkept
    exact hkept

/-- A database with more build logs has other results. -/
lemma not_sameResults {db' : Db} (h : db.buildLogs.rows.length < db'.buildLogs.rows.length) :
    ¬ SameResults db db' := fun hs => by
  rw [hs.buildLogs] at h
  exact lt_irrefl _ h

end

/-- **A report that fails leaves no trace exactly if it fails before the build log is stored**: if
statement number `n` of the handler, counting clock readings and compression steps, fails and is
reached, the seven tables keep their rows if and only if `n` is at most the number of the
statement that inserts the build log. -/
theorem failedReport_sameResults_iff (env : Env) (h : Headers) (r : RebuildReport) (db : Db)
    (t : ℕ → Time) (e : Err) (n : ℕ) (res : Except Err Response) (db' : Db)
    (hhit : runFault (exec env) e n (Handler.submitRebuildReport env.config h r) t db =
      .hit res db') :
    SameResults db db' ↔ n ≤ logStatement env.config r := by
  set N := logStatement env.config r with hN
  -- Once the error was hit, the tables are the same exactly if that was early enough.
  let Q : Db × Option ℕ → Prop := fun y => y.2 = none → (SameResults db y.1 ↔ n ≤ N)
  suffices hwp : wp ((exec env).faultRules e) (Handler.submitRebuildReport env.config h r)
      (fun y _ => Q y) (fun y _ => Q y) (db, some n) by
    obtain ⟨hok, herr⟩ := runFault_of_wp hwp t hhit
    rcases res with e' | a
    · exact herr e' rfl rfl
    · exact hok a rfl rfl
  have early {db' : Db} {c : Option ℕ} (hs : SameResults db db') (hn : c = none → n ≤ N) :
      Q (db', c) := fun hc => iff_of_true hs (hn hc)
  unfold logStatement at hN
  refine (wp_bind _ _).mpr ((wp_attempt _).mpr (wp_worker_fault env.config h
    (fun m d w hm hd => ?_) fun c d e' hd hc => early hd fun h => by have := hc h; omega))
  refine (wp_bind _ _).mpr (wp_stmt_fault (fun h0 => early hd fun _ => by omega)
    (fun m₁ i q y hm₁ hE => ?_) fun m₁ e' hm₁ => early hd nofun)
  obtain rfl := (exec_findQueued hE).2.2
  refine (wp_bind _ _).mpr ((wp_bind _ _).mpr (wp_stmt_fault (fun h0 => early hd fun _ => by omega)
    (fun m₂ i friends y hm₂ hE => ?_) fun m₂ e' hm₂ => early hd nofun))
  cases hE
  generalize buildInputFriends y q.buildInputId = friends
  -- What follows the compression: the insert of the log at statement `N`, then everything else.
  have hlog (log : Bytes) (m : ℕ) (hm : n = m + N) :
      wp ((exec env).faultRules e) (Handler.storeReport env.config r q friends log)
        (fun y _ => Q y) (fun y _ => Q y) (y, some m) := by
    refine (wp_bind _ _).mpr (wp_stmt_fault (fun h0 => early hd fun _ => by omega)
      (fun m₃ i log' y' hm₃ hE => ?_) fun m₃ e' hm₃ => early hd nofun)
    have hlonger : db.buildLogs.rows.length < y'.buildLogs.rows.length := by
      cases hE
      simp [hd.buildLogs]
    have hlate {y : Db × Option ℕ} (hy : db.buildLogs.rows.length < y.1.buildLogs.rows.length) :
        Q y := fun _ => iff_of_false (not_sameResults hy) (by omega)
    exact wp_mono (wp_longer _ hlonger) (fun _ _ => hlate) fun _ _ => hlate
  refine (wp_bind _ _).mpr ?_
  unfold Handler.encode
  split
  · rename_i hz
    rw [if_pos hz] at hN
    exact hlog _ _ (by omega)
  · rename_i hz
    rw [if_neg hz] at hN
    refine wp_stmt_fault (fun h0 => early hd fun _ => by omega) (fun m₃ i log y' hm₃ hE => ?_)
      fun m₃ e' hm₃ => early hd nofun
    cases hE
    exact hlog _ _ (by omega)

/-- `alice` reports a failed build, and statement number `n` of the handler fails. -/
def failedReport (n : ℕ) : Faulted Err Response Db :=
  runFault (exec (openDaemon none)) .io n
    (handler (openDaemon none).config (reportBy "alice" .fail)) (fun _ => 20 * second)
    (runPool (openDaemon none) handedOut).state

lemma exists_hit {n : ℕ} {P : Db → Bool} (h : ((failedReport n).hitState.map P) = some true) :
    ∃ res db', failedReport n = .hit res db' ∧ P db' = true := by
  rcases hrun : failedReport n with ⟨res, db'⟩ | ⟨res, db'⟩
  · rw [hrun] at h
    cases h
  · rw [hrun] at h
    exact ⟨res, db', rfl, Option.some.inj h⟩

/-- The lookup of the friends fails: nothing has changed. -/
theorem failedReport_sameResults_early :
    ∃ db', SameResults (runPool (openDaemon none) handedOut).state db' ∧
      (failedReport 3).hitState.isSome = true := by
  obtain ⟨res, db', hrun, -⟩ := exists_hit (n := 3) (P := fun _ => true) (by decide +kernel)
  exact ⟨db', (failedReport_sameResults_iff (openDaemon none) _ _ _ _ _ 3 res db' hrun).mpr
    (by decide +kernel), by rw [hrun]; rfl⟩

/-- **A failed report loses the job**: when incrementing the retries fails, the rebuild has been
recorded and the job removed, and nothing requeues it. -/
theorem failedReport_loses_job :
    (¬ ∀ env h r db t e n res db', runFault (exec env) e n
        (Handler.submitRebuildReport env.config h r) t db = .hit res db' → SameResults db db') ∧
      ((runPool (openDaemon none) handedOut).state.queue.rows.map (·.id) = [1] ∧
        (failedReport 8).hitState.map (fun db => (db.queue.rows, db.rebuilds.rows.length)) =
          some ([], 1)) := by
  refine ⟨fun h => ?_, by decide +kernel, by decide +kernel⟩
  obtain ⟨res, db', hrun, hempty⟩ := exists_hit (n := 8) (P := fun db => db.queue.rows.isEmpty)
    (by decide +kernel)
  have hsame := (h (openDaemon none) _ _ _ _ _ 8 res db' hrun).queue
  rw [List.isEmpty_iff.mp hempty] at hsame
  have hne : (runPool (openDaemon none) handedOut).state.queue.rows.isEmpty = false := by
    decide +kernel
  rw [← hsame] at hne
  cases hne

end Rebuilderd.Daemon
