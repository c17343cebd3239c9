import Rebuilderd.Daemon.LogRoundTrip

/-!
The rows a report adds: with every friend it leaves one rebuild more, with its artifacts.
-/

namespace Rebuilderd.Daemon

open Rebuilderd.Lib Rebuilderd.Common Prog

/-! ### References to rows that are still to come -/

section
variable {env : Env} {db db' : Db}

lemma fresh_resetRebuild (h : Fresh db) (id : ℕ) : Fresh (resetRebuild id db) := by
  refine ⟨h.artifacts, fun r hr => ?_⟩
  obtain ⟨r₀, hr₀, rfl⟩ := List.mem_map.mp hr
  split <;> exact h.rebuilds r₀ hr₀

lemma fresh_resetArtifacts (h : Fresh db) (id : ℕ) : Fresh (resetArtifacts id db) := by
  refine ⟨fun a ha => ?_, h.rebuilds⟩
  obtain ⟨a₀, ha₀, rfl⟩ := List.mem_map.mp ha
  split <;> exact h.artifacts a₀ ha₀

lemma Fresh.commit (h : Fresh db) {c : ScheduleConfig} {T : Ties} {now : Time} {r : PackageReport}
    (hok : commitPackageReport c T now r db = .ok db') : Fresh db' := by
  obtain ⟨db₁, hf, rfl⟩ := commitPackageReport_ok hok
  have hend : Fresh db₁ := by
    refine foldlM_ok (I := fun _ d => Fresh d) hf (h.congr rfl rfl le_rfl) fun _ p d d' _ hd hp => ?_
    obtain ⟨first, -, he⟩ := importPackage_ok hp
    exact (sameRecords_enqueueImported he).fresh (importWithHistory_history now first r p hd).1
  exact hend.congr rfl rfl le_rfl

lemma exec_fresh (t : Time) (s : Stmt) (h : Fresh db)
    (hrebuild : ∀ new, s = .insertRebuild new → new.buildInputId ≤ db.buildInputs.seq)
    (hartifact : ∀ new, s = .insertRebuildArtifact new → new.rebuildId ≤ db.rebuilds.seq) :
    Fresh ((exec env).answer t s db).2 := by
  by_cases hs : s.keepsRecords = true
  · exact (exec_sameRecords env t hs db).fresh h
  · cases s with
    | insertBuildLog log => exact h.congr rfl rfl le_rfl
    | insertRebuild new => exact h.insertRebuild (hrebuild new rfl)
    | insertRebuildArtifact new => exact h.insertArtifact (hartifact new rfl)
    | resetRebuild id => exact fresh_resetRebuild h id
    | resetArtifacts id => exact fresh_resetArtifacts h id
    | commitPackageReport now r =>
      exact Exec.answer_inv (I := Fresh) h fun u db' hok => h.commit (exec_commit hok)
    | _ => exact absurd rfl hs

/-- **No row refers to one still to come, in every reachable database.** -/
theorem reachable_fresh (h : Reachable env db) : Fresh db := by
  obtain ⟨as, rfl⟩ := h
  have hfriends : History (exec env) (fun _ => insertsForFriends) env.start (trace env as) :=
    (Pool.history (fun c => wp_mono (submitRebuildReport_inserted env.config c)
      (fun _ _ _ => trivial) fun _ _ _ => trivial) env.start as).1
  have hfirst : History (exec env) insertsFirst env.start (trace env as) :=
    (Pool.history (handler_insertsFirst env.config) env.start as).1
  rw [state_runPool]
  generalize trace env as = tr at hfriends hfirst ⊢
  induction tr using List.reverseRecOn with
  | nil => exact .empty _
  | append_singleton tr e ih =>
    obtain ⟨hstate, -, hfriend, -⟩ := hfriends.last
    obtain ⟨-, -, hartifact, -⟩ := hfirst.last
    rw [stateAfter_snoc, Lib.Event.after]
    refine exec_fresh e.input e.stmt (hstate ▸ ih hfriends.of_append hfirst.of_append)
      (fun new hs => ?_) fun new hs => ?_
    · rw [hs] at hfriend
      obtain ⟨s, g, hin⟩ := hasInput_of_inserts hfriends.of_append hfriend
      obtain ⟨b, hb, hid, -⟩ := mem_inputs.mp hin
      rw [hstate, ← hid]
      exact Table.bound _ b hb
    · rw [hs] at hartifact
      obtain ⟨names, hwork, -⟩ := hartifact
      obtain ⟨n, hdid⟩ := did_of_recording hwork
      obtain ⟨r, hr, hid, -⟩ := did_insertRebuild hfirst.of_append hdid
      rw [hstate, ← hid]
      exact Table.bound _ r hr

end

/-! ### The new rebuild of a friend -/

/-- The id is that of what the daemon stores of a log of the report. -/
def KeepsLog (env : Env) (logs : List (ℕ × Bytes)) : Option Bytes → Option ℕ → Prop :=
  Option.Rel fun bytes id => (id, storedBytes env bytes) ∈ logs

/-- An artifact has the logs of the first artifact of its name. -/
def HasFirstLogs (env : Env) (r : RebuildReport) (db : Db) (x : RebuildArtifact) : Prop :=
  ∃ a, firstNamed r.artifacts x.name = some a ∧
    KeepsLog env db.diffoscopes a.diffoscope x.diffoscopeLogId ∧
    KeepsLog env db.attestations a.attestation x.attestationLogId

/-- What a report has added to the database `db` so far. -/
structure Adding (env : Env) (r : RebuildReport) (db : Db) (own : OwnSteps) (y : Db) : Prop where
  rebuilds : db.rebuilds.Grown y.rebuilds
  encoded : ∀ data stored, Did own (.zstdCompress data) stored → stored = env.zstd data
  diffoscopes : ∀ log i, Did own (.insertDiffoscopeLog log) i → ⟨i, log⟩ ∈ y.diffoscopeLogs.rows
  attestations : ∀ log i, Did own (.insertAttestationLog log) i → ⟨i, log⟩ ∈ y.attestationLogs.rows
  artifacts : ∀ x ∈ y.rebuildArtifacts.rows, x ∈ db.rebuildArtifacts.rows ∨ HasFirstLogs env r y x

section
variable {env : Env} {r : RebuildReport} {db y : Db} {own : OwnSteps}

lemma did_append_cases {a : Step Stmt Stmt.Answer Err Time} {s : Stmt} {x : s.Answer}
    (h : Did (own ++ [a]) s x) : Did own s x ∨ ∃ t, a = ⟨t, s, .ok x⟩ := by
  obtain ⟨t, ht⟩ := h
  rcases List.mem_append.mp ht with ht | ht
  · exact .inl ⟨t, ht⟩
  · exact .inr ⟨t, (List.mem_singleton.mp ht).symm⟩

lemma KeepsLog.mono {logs logs' : List (ℕ × Bytes)} {data : Option Bytes} {id : Option ℕ}
    (h : KeepsLog env logs data id) (hlogs : ∀ l ∈ logs, l ∈ logs') : KeepsLog env logs' data id := by
  cases h with
  | none => exact .none
  | some h => exact .some (hlogs _ h)

lemma HasFirstLogs.mono {y' : Db} {x : RebuildArtifact} (h : HasFirstLogs env r y x)
    (hd : ∀ l ∈ y.diffoscopeLogs.rows, l ∈ y'.diffoscopeLogs.rows)
    (ha : ∀ l ∈ y.attestationLogs.rows, l ∈ y'.attestationLogs.rows) : HasFirstLogs env r y' x := by
  obtain ⟨a, hfirst, hdiffoscope, hattestation⟩ := h
  refine ⟨a, hfirst, hdiffoscope.mono fun l hl => ?_, hattestation.mono fun l hl => ?_⟩
  · obtain ⟨x, hx, rfl⟩ := List.mem_map.mp hl
    exact List.mem_map.mpr ⟨x, hd x hx, rfl⟩
  · obtain ⟨x, hx, rfl⟩ := List.mem_map.mp hl
    exact List.mem_map.mpr ⟨x, ha x hx, rfl⟩

/-- The logs a handler has inserted for an artifact are kept. -/
lemma Adding.keepsLogs (h : Adding env r db own y) {a : RebuildArtifactReport}
    {ids : Option ℕ × Option ℕ} (hlogs : LogsOf own a ids) :
    KeepsLog env y.diffoscopes a.diffoscope ids.1 ∧ KeepsLog env y.attestations a.attestation ids.2 := by
  have hstored {data stored : Bytes} (henc : Encoded own data stored) :
      stored = storedBytes env data := by
    rw [Encoded] at henc
    rw [storedBytes]
    split at henc <;> rename_i hzstd
    · rw [if_pos hzstd, henc]
    · rw [if_neg hzstd]
      exact h.encoded _ _ henc
  have hkeeps {inserted : Bytes → ℕ → Prop} {logs : List (ℕ × Bytes)} {data : Option Bytes}
      {id : Option ℕ} (hlog : InsertedLog own inserted data id)
      (hin : ∀ log i, inserted log i → (i, log) ∈ logs) : KeepsLog env logs data id := by
    rcases data with _ | bytes
    · rw [hlog.1 rfl]
      exact .none
    · obtain ⟨stored, i, rfl, henc, hi⟩ := hlog.2 bytes rfl
      exact .some (hstored henc ▸ hin stored i hi)
  exact ⟨hkeeps hlogs.diffoscope fun log i hi => List.mem_map.mpr ⟨_, h.diffoscopes log i hi, rfl⟩,
    hkeeps hlogs.attestation fun log i hi => List.mem_map.mpr ⟨_, h.attestations log i hi, rfl⟩⟩

/-- What a statement of a report adds. -/
lemma Adding.step (h : Adding env r db own y) {hd : Headers} {t : Time} {s : Stmt}
    (hs : refersToReported (.submitRebuildReport hd r) own t s) :
    Adding env r db (own ++ [⟨t, s, ((exec env).answer t s y).1⟩]) ((exec env).answer t s y).2 := by
  have hlogs := (exec_logs (P := fun _ => True) (Q := fun _ => True) env t s y).1
  have hkept : ∀ x ∈ y.rebuildArtifacts.rows, x ∈ db.rebuildArtifacts.rows ∨
      HasFirstLogs env r ((exec env).answer t s y).2 x :=
    fun x hx => (h.artifacts x hx).imp_right fun hx => hx.mono hlogs.diffoscope hlogs.attestation
  refine ⟨?_, fun data stored hdid => ?_, fun log i hdid => ?_, fun log i hdid => ?_, ?_⟩
  · by_cases hkeeps : s.keepsRecords = true
    · rw [(exec_sameRecords env t hkeeps y).rebuilds]
      exact h.rebuilds
    · cases s with
      | insertRebuild new => exact h.rebuilds.trans (Table.grown_insert _ _ fun _ => rfl)
      | commitPackageReport | resetRebuild => exact absurd rfl (hs hd r)
      | insertBuildLog | insertRebuildArtifact | resetArtifacts => exact h.rebuilds
      | _ => exact absurd rfl hkeeps
  · rcases did_append_cases hdid with hdid | ⟨t', ha⟩
    · exact h.encoded data stored hdid
    · cases ha
      rfl
  · rcases did_append_cases hdid with hdid | ⟨t', ha⟩
    · exact hlogs.diffoscope _ (h.diffoscopes log i hdid)
    · cases ha
      exact List.mem_append_right _ (List.mem_singleton_self _)
  · rcases did_append_cases hdid with hdid | ⟨t', ha⟩
    · exact hlogs.attestation _ (h.attestations log i hdid)
    · cases ha
      exact List.mem_append_right _ (List.mem_singleton_self _)
  · by_cases hkeeps : s.keepsRecords = true
    · rw [(exec_sameRecords env t hkeeps y).artifacts]
      exact hkept
    · cases s with
      | insertRebuildArtifact new =>
        obtain ⟨hd', r', hc, a, hfirst, hlogsOf⟩ := hs
        cases hc
        intro x hx
        rcases List.mem_append.mp hx with hx | hx
        · exact hkept x hx
        · obtain rfl := List.mem_singleton.mp hx
          exact .inr ⟨a, hfirst, h.keepsLogs hlogsOf⟩
      | commitPackageReport | resetArtifacts => exact absurd rfl (hs hd r)
      | insertBuildLog | insertRebuild | resetRebuild => exact hkept
      | _ => exact absurd rfl hkeeps

lemma served_adding (env : Env) (db : Db) (hd : Headers) (r : RebuildReport) (t : ℕ → Time) :
    ∃ own, Adding env r db own (served env db (.submitRebuildReport hd r, t)) := by
  refine run_of_journal_own (handler_refersToReported env.config (.submitRebuildReport hd r))
    (I := Adding env r db) (fun own t s y hs h => h.step hs) t ?_
  exact ⟨.refl _, by simp [Did], by simp [Did], by simp [Did], fun x hx => .inl hx⟩

end

/-- The artifacts of a rebuild, in order. -/
def artifactRowsOf (db : Db) (rebuild : ℕ) : List RebuildArtifact :=
  db.rebuildArtifacts.rows.filter (·.rebuildId == rebuild)

/-- What a report about the job `q` leaves with a friend. -/
structure NewRebuildOf (env : Env) (r : RebuildReport) (q : Queued) (db db' : Db) (i : ℕ)
    (rb : Rebuild) : Prop where
  last : rebuildsOf db' i = rebuildsOf db i ++ [rb]
  new : db.rebuilds.seq < rb.id
  builtAt : rb.builtAt = some r.builtAt
  status : rb.status = some r.status
  artifacts : (artifactRowsOf db' rb.id).map (fun x => (x.name, x.status)) =
    r.artifacts.map fun a => (a.name, some a.status)
  logs : ∀ x ∈ artifactRowsOf db' rb.id, HasFirstLogs env r db' x

/-- A record that was added is that of a rebuild that was added. -/
lemma exists_newRebuild {db db' : Db} (hg : db.rebuilds.Grown db'.rebuilds) {i : ℕ} {rec : Record}
    (h : history db' i = history db i ++ [rec]) : ∃ rb, rebuildsOf db' i = rebuildsOf db i ++ [rb] ∧
      db.rebuilds.seq < rb.id ∧ rb.record (artifactsOf db' rb.id) = rec := by
  obtain ⟨rows, hrows, hnew⟩ := hg.rows
  have hof : rebuildsOf db' i = rebuildsOf db i ++ rows.filter (·.buildInputId == i) := by
    rw [rebuildsOf, hrows, List.filter_append]
    rfl
  have hrec : (rebuildsOf db i).map (fun r => r.record (artifactsOf db' r.id)) ++
      (rows.filter (·.buildInputId == i)).map (fun r => r.record (artifactsOf db' r.id)) =
        history db i ++ [rec] := by
    rw [← List.map_append, ← hof]
    exact h
  have hlength : ((rebuildsOf db i).map fun r => r.record (artifactsOf db' r.id)).length =
      (history db i).length := by
    rw [List.length_map, history, List.length_map]
    rfl
  obtain ⟨rb, hrb, hrecord⟩ := List.map_eq_singleton_iff.mp (List.append_inj hrec hlength).2
  have hmem : rb ∈ rows := (List.mem_filter.mp (hrb ▸ List.mem_singleton_self rb)).1
  exact ⟨rb, by rw [hof, hrb], hnew rb hmem, hrecord⟩

/-- **What a report adds**: one rebuild for every friend, after those it had. -/
theorem served_newRebuilds {env : Env} {db : Db} (hf : Fresh db) {hd : Headers} {r : RebuildReport}
    {t : ℕ → Time}
    (hok : (serve (exec env) (handler env.config) db (.submitRebuildReport hd r, t)).1 =
      .ok .noContent) :
    ∃ q ∈ db.queue.rows, q.id = r.queueId ∧
      Recorded r q db (served env db (.submitRebuildReport hd r, t)) ∧
      ∀ i ∈ buildInputFriends db q.buildInputId,
        ∃ rb, NewRebuildOf env r q db (served env db (.submitRebuildReport hd r, t)) i rb := by
  obtain ⟨q, hq, hid, hrec⟩ := served_accepted hf hok
  obtain ⟨own, hadding⟩ := served_adding env db hd r t
  refine ⟨q, hq, hid, hrec, fun i hi => ?_⟩
  obtain ⟨logs, hhistory⟩ := hrec.history
  have hi' := hhistory i
  rw [if_pos hi] at hi'
  obtain ⟨rb, hlast, hnew, hrecord⟩ := exists_newRebuild hadding.rebuilds hi'
  simp only [Rebuild.record, recordOf, Record.mk.injEq] at hrecord
  obtain ⟨-, hbuilt, -, hstatus, hartifacts⟩ := hrecord
  refine ⟨rb, hlast, hnew, hbuilt, hstatus, ?_, fun x hx => ?_⟩
  · have hshape := congrArg (List.map fun a : ArtifactRecord => (a.name, a.status)) hartifacts
    rw [artifactsOf, List.map_map, List.map_map] at hshape
    exact hshape
  · obtain ⟨hx, hrebuild⟩ := List.mem_filter.mp hx
    refine (hadding.artifacts x hx).resolve_left fun hold => ?_
    have hle := hf.artifacts x hold
    rw [beq_iff_eq.mp hrebuild] at hle
    omega

end Rebuilderd.Daemon
