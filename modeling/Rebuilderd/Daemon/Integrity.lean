import Rebuilderd.Daemon.NewRebuilds
import Rebuilderd.Daemon.Dashboard
import Rebuilderd.Daemon.StoredLogs

/-!
The constraints of the tables. SQLite would refuse a row that violates one of them; no statement of
the daemon comes to that, however the handlers are interleaved.
-/

namespace Rebuilderd.Daemon

open Rebuilderd.Lib Rebuilderd.Common Prog

def HasRow {ρ : Type} [Row ρ] (t : Table ρ) (id : ℕ) : Prop := ∃ r ∈ t.rows, key r = id

/-- The `REFERENCES` of the tables. -/
structure ForeignKeys (db : Db) : Prop where
  buildInputs : ∀ b ∈ db.buildInputs.rows, HasRow db.sourcePackages b.sourcePackageId
  binaryPackages : ∀ p ∈ db.binaryPackages.rows,
    HasRow db.sourcePackages p.sourcePackageId ∧ HasRow db.buildInputs p.buildInputId
  rebuilds : ∀ r ∈ db.rebuilds.rows,
    HasRow db.buildInputs r.buildInputId ∧ HasRow db.buildLogs r.buildLogId
  rebuildArtifacts : ∀ a ∈ db.rebuildArtifacts.rows, HasRow db.rebuilds a.rebuildId ∧
    (∀ i ∈ a.diffoscopeLogId, HasRow db.diffoscopeLogs i) ∧
    ∀ i ∈ a.attestationLogId, HasRow db.attestationLogs i
  queue : ∀ q ∈ db.queue.rows, HasRow db.buildInputs q.buildInputId

/-- The columns of `build_inputs_unique_idx`. -/
def BuildInput.columns (b : BuildInput) : ℕ × String × String × String :=
  (b.sourcePackageId, b.url, b.backend, b.architecture)

/-- The unique indexes of the tables. -/
structure UniqueIndexes (db : Db) : Prop where
  sourcePackages : (db.sourcePackages.rows.map SourcePackage.uniqueKey).Nodup
  buildInputs : (db.buildInputs.rows.map BuildInput.columns).Nodup
  binaryPackages : (db.binaryPackages.rows.map BinaryPackage.columns).Nodup
  queue : (db.queue.rows.map (·.buildInputId)).Nodup
  workers : (db.workers.rows.map Worker.key).Nodup

/-! ### Rebuilds and artifacts -/

/-- The rebuilds have their build inputs, and the artifacts their rebuilds. -/
structure RebuildsOwned (db : Db) : Prop where
  rebuilds : ∀ r ∈ db.rebuilds.rows, HasInput r.buildInputId db
  artifacts : ∀ a ∈ db.rebuildArtifacts.rows, HasRow db.rebuilds a.rebuildId

section
variable {env : Env} {db db' : Db}

lemma RebuildsOwned.congr (h : RebuildsOwned db) (hr : db'.rebuilds = db.rebuilds)
    (ha : db'.rebuildArtifacts = db.rebuildArtifacts) (hi : ∀ x ∈ db.inputs, x ∈ db'.inputs) :
    RebuildsOwned db' := by
  refine ⟨fun r hrow => ?_, fun a harow => ?_⟩
  · obtain ⟨s, g, hin⟩ := h.rebuilds r (hr ▸ hrow)
    exact ⟨s, g, hi _ hin⟩
  · exact hr ▸ h.artifacts a (ha ▸ harow)

lemma RebuildsOwned.insertRebuild (h : RebuildsOwned db) {new : NewRebuild}
    (hi : HasInput new.buildInputId db) : RebuildsOwned (new.insert db).2 := by
  refine ⟨fun r hr => ?_, fun a ha => ?_⟩
  · rcases List.mem_append.mp hr with hr | hr
    · exact h.rebuilds r hr
    · exact List.mem_singleton.mp hr ▸ hi
  · obtain ⟨r, hr, hid⟩ := h.artifacts a ha
    exact ⟨r, List.mem_append_left _ hr, hid⟩

lemma RebuildsOwned.insertArtifact (h : RebuildsOwned db) {new : NewRebuildArtifact}
    (hr : HasRow db.rebuilds new.rebuildId) : RebuildsOwned (new.insert db) := by
  refine ⟨h.rebuilds, fun a ha => ?_⟩
  rcases List.mem_append.mp ha with ha | ha
  · exact h.artifacts a ha
  · exact List.mem_singleton.mp ha ▸ hr

lemma RebuildsOwned.copyRebuild {id : ℕ} (h : RebuildsOwned db ∧ HasInput id db) (r : Rebuild) :
    RebuildsOwned (copyRebuild id db r) ∧ HasInput id (copyRebuild id db r) := by
  have hartifacts (rebuild : ℕ) (as : List RebuildArtifact) (d : Db)
      (hd : (RebuildsOwned d ∧ HasInput id d) ∧ HasRow d.rebuilds rebuild) :
      RebuildsOwned (as.foldl (fun d a => NewRebuildArtifact.insert
        ⟨rebuild, a.name, a.diffoscopeLogId, a.attestationLogId, a.status⟩ d) d) ∧
      HasInput id (as.foldl (fun d a => NewRebuildArtifact.insert
        ⟨rebuild, a.name, a.diffoscopeLogId, a.attestationLogId, a.status⟩ d) d) := by
    induction as generalizing d with
    | nil => exact hd.1
    | cons a as ih => exact ih _ ⟨⟨hd.1.1.insertArtifact hd.2, hd.1.2⟩, hd.2⟩
  exact hartifacts _ _ _ ⟨⟨h.1.insertRebuild h.2, h.2⟩,
    _, List.mem_append_right _ (List.mem_singleton_self _), rfl⟩

lemma RebuildsOwned.copyExistingRebuilds (h : RebuildsOwned db) {id : ℕ} (hi : HasInput id db) :
    RebuildsOwned (copyExistingRebuilds id db) := by
  have hcopy (rs : List Rebuild) (d : Db) (hd : RebuildsOwned d ∧ HasInput id d) :
      RebuildsOwned (rs.foldl (Daemon.copyRebuild id) d) := by
    induction rs generalizing d with
    | nil => exact hd.1
    | cons r rs ih => exact ih _ (RebuildsOwned.copyRebuild hd r)
  unfold Daemon.copyExistingRebuilds
  split
  · split
    · exact hcopy _ _ ⟨h, hi⟩
    · exact h
  · exact h

lemma RebuildsOwned.import (h : RebuildsOwned db) {c : ScheduleConfig} {T : Ties} {now : Time}
    {r : PackageReport} {p : SourcePackageReport} (hok : importPackage c T now r db p = .ok db') :
    RebuildsOwned db' := by
  obtain ⟨first, -, henq⟩ := importPackage_ok hok
  obtain ⟨-, hr, ha⟩ := importRows_frame now first r p db
  have himp := importRows_imported now first r p db
  have hrows : RebuildsOwned (importRows now first r p db).2 :=
    h.congr hr ha fun _ hx => himp.keeps_inputs hx
  have hstored : HasInput (importRows now first r p db).1.id (importRows now first r p db).2 :=
    ⟨_, _, mem_inputs.mpr ⟨_, himp.stored, rfl, rfl, rfl⟩⟩
  have hhistory : RebuildsOwned (importWithHistory now first r p db).2 := by
    unfold importWithHistory
    dsimp only
    split
    · exact hrows.copyExistingRebuilds hstored
    · exact hrows
  have hsame := sameRecords_enqueueImported henq
  exact hhistory.congr hsame.rebuilds hsame.artifacts fun x hx => hsame.inputs ▸ hx

lemma RebuildsOwned.commit (h : RebuildsOwned db) {c : ScheduleConfig} {T : Ties} {now : Time}
    {r : PackageReport} (hok : commitPackageReport c T now r db = .ok db') : RebuildsOwned db' := by
  obtain ⟨db₁, hf, rfl⟩ := commitPackageReport_ok hok
  have hend : RebuildsOwned db₁ := foldlM_ok (I := fun _ d => RebuildsOwned d) hf
    (h.congr rfl rfl fun _ hx => hx) fun _ p d d' _ hd hp => hd.import hp
  exact hend.congr rfl rfl fun _ hx => hx

lemma exec_rebuildsOwned (t : Time) (s : Stmt) (h : RebuildsOwned db)
    (hrebuild : ∀ new, s = .insertRebuild new → HasInput new.buildInputId db)
    (hartifact : ∀ new, s = .insertRebuildArtifact new → HasRow db.rebuilds new.rebuildId) :
    RebuildsOwned ((exec env).answer t s db).2 := by
  by_cases hs : s.keepsRecords = true
  · have hsame := exec_sameRecords env t hs db
    exact h.congr hsame.rebuilds hsame.artifacts fun x hx => hsame.inputs ▸ hx
  · cases s with
    | insertBuildLog log => exact h.congr rfl rfl fun _ hx => hx
    | insertRebuild new => exact h.insertRebuild (hrebuild new rfl)
    | insertRebuildArtifact new => exact h.insertArtifact (hartifact new rfl)
    | resetRebuild id =>
      refine ⟨fun r hr => ?_, fun a ha => ?_⟩
      · obtain ⟨r₀, hr₀, rfl⟩ := List.mem_map.mp hr
        split <;> exact h.rebuilds r₀ hr₀
      · obtain ⟨r₀, hr₀, hid⟩ := h.artifacts a ha
        refine ⟨_, List.mem_map_of_mem hr₀, ?_⟩
        split <;> exact hid
    | resetArtifacts id =>
      refine ⟨h.rebuilds, fun a ha => ?_⟩
      obtain ⟨a₀, ha₀, rfl⟩ := List.mem_map.mp ha
      split <;> exact h.artifacts a₀ ha₀
    | commitPackageReport now r =>
      exact Exec.answer_inv (I := RebuildsOwned) h fun u db' hok => h.commit (exec_commit hok)
    | _ => exact absurd rfl hs

/-- What a rebuild or an artifact is inserted for is there already. -/
lemma reachable_rebuildsOwned (h : Reachable env db) : RebuildsOwned db := by
  obtain ⟨as, rfl⟩ := h
  have hfriends : History (exec env) (fun _ => insertsForFriends) env.start (trace env as) :=
    (Pool.history (fun c => wp_mono (submitRebuildReport_inserted env.config c)
      (fun _ _ _ => trivial) fun _ _ _ => trivial) env.start as).1
  have hfirst : History (exec env) insertsFirst env.start (trace env as) :=
    (Pool.history (handler_insertsFirst env.config) env.start as).1
  rw [state_runPool]
  generalize trace env as = tr at hfriends hfirst ⊢
  induction tr using List.reverseRecOn with
  | nil => exact ⟨by simp [Env.start, Db.empty], by simp [Env.start, Db.empty]⟩
  | append_singleton tr e ih =>
    obtain ⟨hstate, -, hfriend, -⟩ := hfriends.last
    obtain ⟨-, -, hartifact, -⟩ := hfirst.last
    rw [stateAfter_snoc, Lib.Event.after]
    refine exec_rebuildsOwned e.input e.stmt (hstate ▸ ih hfriends.of_append hfirst.of_append)
      (fun new hs => ?_) fun new hs => ?_
    · rw [hs] at hfriend
      exact hstate ▸ hasInput_of_inserts hfriends.of_append hfriend
    · rw [hs] at hartifact
      obtain ⟨names, hwork, -⟩ := hartifact
      obtain ⟨n, hdid⟩ := did_of_recording hwork
      obtain ⟨r, hr, hid, -⟩ := did_insertRebuild hfirst.of_append hdid
      exact ⟨r, hstate ▸ hr, hid⟩

end

/-! ### Binary packages and workers -/

lemma nodup_update {ρ κ : Type} [Row ρ] {t : Table ρ} {columns : ρ → κ} {p : ρ → Bool} {f : ρ → ρ}
    (hf : ∀ r, key (f r) = key r) (h : (t.rows.map columns).Nodup)
    (hcolumns : ∀ r, p r = true → columns (f r) = columns r) :
    ((t.update p f hf).rows.map columns).Nodup := by
  rw [Table.rows_update, Table.map_rows_update _ fun r _ hpr => hcolumns r hpr]
  exact h

/-- An upsert on the columns of a unique index keeps them apart. -/
lemma nodup_upsert {ρ κ : Type} [Row ρ] {t : Table ρ} {columns : ρ → κ} {p : ρ → Bool} {mk : ℕ → ρ}
    {f : ρ → ρ} {hm hf} (h : (t.rows.map columns).Nodup)
    (hp : ∀ r n, columns r = columns (mk n) → p r = true)
    (hcolumns : ∀ r, p r = true → columns (f r) = columns r) :
    ((t.upsert p mk f hm hf).2.rows.map columns).Nodup := by
  rcases Table.upsert_cases t p mk f hm hf with ⟨r, -, -, heq⟩ | ⟨hnone, heq⟩ <;> rw [heq]
  · exact nodup_update hf h hcolumns
  · rw [Table.rows_insert, List.map_append, List.nodup_append]
    refine ⟨h, by simp, ?_⟩
    rintro _ hx _ hx' rfl
    obtain ⟨r, hr, hrx⟩ := List.mem_map.mp hx
    have hfree := hnone r hr
    rw [hp r _ (hrx.trans (List.mem_singleton.mp hx'))] at hfree
    cases hfree

section
variable {env : Env} {db db' : Db}

lemma nodup_upsertBinary (h : (db.binaryPackages.rows.map BinaryPackage.columns).Nodup)
    (n : NewBinaryPackage) : ((n.upsert db).binaryPackages.rows.map BinaryPackage.columns).Nodup :=
  nodup_upsert h (fun _ _ hb => conflicts_binary_iff.mpr hb) fun _ _ => rfl

lemma nodup_binaries_commit {c : ScheduleConfig} {T : Ties} {now : Time} {r : PackageReport}
    (h : (db.binaryPackages.rows.map BinaryPackage.columns).Nodup)
    (hok : commitPackageReport c T now r db = .ok db') :
    (db'.binaryPackages.rows.map BinaryPackage.columns).Nodup := by
  obtain ⟨db₁, hf, rfl⟩ := commitPackageReport_ok hok
  have hsame : (markScopedPackagesUnseen r db).binaryPackages.rows.map BinaryPackage.columns =
      db.binaryPackages.rows.map BinaryPackage.columns := Table.map_rows_update _ fun _ _ _ => rfl
  have hend : (db₁.binaryPackages.rows.map BinaryPackage.columns).Nodup := by
    refine foldlM_ok (I := fun _ d => (d.binaryPackages.rows.map BinaryPackage.columns).Nodup) hf
      (hsame ▸ h) fun _ p d d' _ hd hp => ?_
    obtain ⟨first, -, -, hb⟩ := importPackage_rows hp
    rw [hb]
    have hinput := upsertInput_binaries
      (newBuildInput first r p ((newSourcePackage now r p).upsert d).1.id)
      ((newSourcePackage now r p).upsert d).2
    unfold importRows
    dsimp only
    refine List.foldlRecOn _ _ (motive := fun d : Db =>
      (d.binaryPackages.rows.map BinaryPackage.columns).Nodup) ?_ fun d hd a _ =>
        nodup_upsertBinary hd _
    rw [hinput]
    exact hd
  exact hend

lemma exec_binariesUnique (env : Env) (t : Time) (s : Stmt) (db : Db)
    (h : (db.binaryPackages.rows.map BinaryPackage.columns).Nodup) :
    (((exec env).answer t s db).2.binaryPackages.rows.map BinaryPackage.columns).Nodup := by
  rcases exec_binaryPackages env t s db with ⟨now, r, rfl⟩ | hb
  · exact Exec.answer_inv (I := fun d : Db => (d.binaryPackages.rows.map BinaryPackage.columns).Nodup)
      h fun u db' hok => nodup_binaries_commit h (exec_commit hok)
  · exact hb ▸ h

/-- Only signing up adds workers, and their keys are never changed. -/
lemma exec_workersUnique (env : Env) (t : Time) (s : Stmt) (db : Db)
    (h : (db.workers.rows.map Worker.key).Nodup) :
    (((exec env).answer t s db).2.workers.rows.map Worker.key).Nodup := by
  cases s with
  | upsertWorker new =>
    refine nodup_upsert h (fun w _ hw => beq_iff_eq.mpr hw) fun w hw => ?_
    exact (beq_iff_eq.mp hw).symm
  | refreshWorker key now =>
    refine Exec.answer_inv (E := exec env) (I := fun d : Db => (d.workers.rows.map Worker.key).Nodup) h
      fun w db' hok => ?_
    simp only [exec, refreshWorker] at hok
    split at hok <;> cases hok
    refine nodup_update ?_ h fun _ _ => ?_
    · exact fun _ => rfl
    · rfl
  | popJob w r =>
    change ((popJob env.ties w r t db).2.workers.rows.map Worker.key).Nodup
    unfold popJob
    split
    · refine nodup_update ?_ h fun _ _ => ?_
      · exact fun _ => rfl
      · rfl
    · exact h
  | commitPackageReport now r =>
    refine Exec.answer_inv (I := fun d : Db => (d.workers.rows.map Worker.key).Nodup) h
      fun u db' hok => ?_
    obtain ⟨db₁, hf, rfl⟩ := commitPackageReport_ok (exec_commit hok)
    suffices hw : db₁.workers = db.workers from hw ▸ h
    refine foldlM_ok (I := fun _ d => d.workers = db.workers) hf rfl fun _ p d d' _ hd hp => ?_
    obtain ⟨first, -, henq⟩ := importPackage_ok hp
    have himport := (importWithHistory_frame now first r p d).workers.trans hd
    rcases enqueueImported_cases henq with ⟨-, rfl⟩ | ⟨-, -, n, -, ⟨-, rfl⟩ | ⟨-, priority, rfl⟩⟩ <;>
      exact himport
  | findQueued id =>
    refine Exec.answer_inv (I := fun d : Db => (d.workers.rows.map Worker.key).Nodup) h
      fun q db' hok => ?_
    rw [(exec_findQueued hok).2.2]
    exact h
  | maxRetriesOf ids =>
    refine Exec.answer_inv (I := fun d : Db => (d.workers.rows.map Worker.key).Nodup) h
      fun n db' hok => ?_
    rw [exec_maxRetriesOf hok]
    exact h
  | _ => exact h

end

/-! ### Every reachable database -/

section
variable {env : Env} {db : Db}

lemma reachable_foreignKeys (h : Reachable env db) : ForeignKeys db := by
  have hinput {i : ℕ} (hi : HasInput i db) : HasRow db.buildInputs i := by
    obtain ⟨s, g, hin⟩ := hi
    obtain ⟨b, hb, hid, -⟩ := mem_inputs.mp hin
    exact ⟨b, hb, hid⟩
  have howned := reachable_rebuildsOwned h
  have hlogs := reachable_logsExist h
  refine ⟨fun b hb => ?_, fun p hp => reachable_binariesLinked h p hp, fun r hr => ?_,
    fun a ha => ?_, fun q hq => hinput (reachable_queueInput h q hq)⟩
  · exact reachable_sourcesExist h _ (mem_inputs.mpr ⟨b, hb, rfl, rfl, rfl⟩)
  · exact ⟨hinput (howned.rebuilds r hr), hlogs.rebuilds r hr⟩
  · exact ⟨howned.artifacts a ha, (hlogs.artifacts a ha).1, (hlogs.artifacts a ha).2⟩

lemma reachable_uniqueIndexes (h : Reachable env db) : UniqueIndexes db := by
  have hunique := reachable_unique h
  have hinputs := hunique.inputs
  rw [Db.inputs, List.map_map] at hinputs
  obtain ⟨as, rfl⟩ := h
  refine ⟨hunique.sources, ?_, ?_, ?_, ?_⟩
  · refine List.Nodup.of_map (fun x => (x.1, (⟨x.2.1, x.2.2.1, x.2.2.2⟩ : Group))) ?_
    rw [List.map_map]
    exact hinputs
  · have hstart : (env.start.binaryPackages.rows.map BinaryPackage.columns).Nodup := List.nodup_nil
    exact Pool.run_inv (I := fun d : Db => (d.binaryPackages.rows.map BinaryPackage.columns).Nodup)
      (exec_binariesUnique env) hstart as
  · have hstart : OneRowEach env.start := by simp [OneRowEach, Env.start, Db.empty]
    have hrows : OneRowEach (runPool env as).state := Pool.run_inv (exec_oneRowEach env) hstart as
    refine List.Nodup.map_on (fun q hq q' hq' heq => hrows q hq q' hq' heq) ?_
    exact List.Nodup.of_map key (List.pairwise_map.mpr ((runPool env as).state.queue.sorted.imp
      fun hlt => hlt.ne))
  · have hstart : (env.start.workers.rows.map Worker.key).Nodup := env.workers.keys
    exact Pool.run_inv (I := fun d : Db => (d.workers.rows.map Worker.key).Nodup)
      (exec_workersUnique env) hstart as

end

/-- What the database insists on. -/
def Legal (db : Db) : Prop := ForeignKeys db ∧ UniqueIndexes db

open Classical in
/-- **Every foreign key refers to a row and no unique index has an entry twice, in every database
that is reached by whatever interleaving of requests**, so that a database that refuses what violates
them refuses nothing. -/
theorem constraints_hold (env : Env) (as : Schedule) (refused : Err) :
    ForeignKeys (runPool env as).state ∧ UniqueIndexes (runPool env as).state ∧
      Pool.run ((exec env).enforce Legal refused) (handler env.config) (Pool.start env.start) as =
        runPool env as := by
  have hlegal (as : Schedule) : Legal (runPool env as).state :=
    ⟨reachable_foreignKeys ⟨as, rfl⟩, reachable_uniqueIndexes ⟨as, rfl⟩⟩
  exact ⟨(hlegal as).1, (hlegal as).2, Pool.run_enforce fun n => hlegal (as.take n)⟩

end Rebuilderd.Daemon
