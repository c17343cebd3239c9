import Rebuilderd.Daemon.Landing
import Rebuilderd.Daemon.LogContents

/-!
Where the logs of rebuilds are: every log that a rebuild or an artifact refers to is stored.

A handler refers only to logs it has inserted, copies refer to the logs of what they copy, and logs
are never deleted.
-/

namespace Rebuilderd.Daemon

open Rebuilderd.Lib Rebuilderd.Common Prog

/-- What the rebuilds and the artifacts refer to. -/
structure Refers (P : ℕ → Prop) (Q : Option ℕ × Option ℕ → Prop) (db : Db) : Prop where
  rebuilds : ∀ r ∈ db.rebuilds.rows, P r.buildLogId
  artifacts : ∀ a ∈ db.rebuildArtifacts.rows, Q (a.diffoscopeLogId, a.attestationLogId)

def HasBuildLog (db : Db) (id : ℕ) : Prop := ∃ l ∈ db.buildLogs.rows, l.id = id

def HasArtifactLogs (db : Db) (ids : Option ℕ × Option ℕ) : Prop :=
  (∀ id, ids.1 = some id → ∃ l ∈ db.diffoscopeLogs.rows, l.id = id) ∧
    ∀ id, ids.2 = some id → ∃ l ∈ db.attestationLogs.rows, l.id = id

/-- The foreign keys to the three tables of logs. -/
def LogsExist (db : Db) : Prop := Refers (HasBuildLog db) (HasArtifactLogs db) db

/-! ### What a report refers to -/

/-- The handler has inserted the logs of an artifact. -/
def InsertedLogs (own : OwnSteps) (ids : Option ℕ × Option ℕ) : Prop :=
  (∀ id, ids.1 = some id → ∃ log, Did own (.insertDiffoscopeLog log) id) ∧
    ∀ id, ids.2 = some id → ∃ log, Did own (.insertAttestationLog log) id

/-- A rebuild or an artifact refers to logs the handler has inserted before. -/
def refersToInserted (own : OwnSteps) (_ : Time) : Stmt → Prop
  | .insertRebuild new => ∃ log, Did own (.insertBuildLog log) new.buildLogId
  | .insertRebuildArtifact new => InsertedLogs own (new.diffoscopeLogId, new.attestationLogId)
  | _ => True

def Stmt.refersToLogs : Stmt → Bool
  | .insertRebuild _ | .insertRebuildArtifact _ => true
  | _ => false

/-- The logs of an artifact are logs the handler has inserted. -/
lemma LogsOf.inserted {own : OwnSteps} {a : RebuildArtifactReport} {ids : Option ℕ × Option ℕ}
    (h : LogsOf own a ids) : InsertedLogs own ids := by
  have hlog {inserted : Bytes → ℕ → Prop} {data : Option Bytes} {o : Option ℕ}
      (h : InsertedLog own inserted data o) (id : ℕ) (hid : o = some id) : ∃ log, inserted log id := by
    rcases data with _ | bytes
    · rw [h.1 rfl] at hid
      cases hid
    · obtain ⟨stored, i, hi, -, hdid⟩ := h.2 bytes rfl
      rw [hi] at hid
      exact ⟨stored, Option.some.inj hid ▸ hdid⟩
  exact ⟨hlog h.diffoscope, hlog h.attestation⟩

/-- **Handlers refer to logs they have inserted.** -/
lemma handler_refersToInserted (cfg : Config) (c : Call) :
    wp (.journal refersToInserted) (handler cfg c) (fun _ _ => True) (fun _ _ => True) [] := by
  refine wp_rules (handler_refersToReported cfg c) (fun own t s hs => ?_) fun _ _ _ _ _ h => h
  cases s with
  | insertRebuild new =>
    obtain ⟨h, r, -, stored, -, hdid⟩ := hs
    exact ⟨stored, hdid⟩
  | insertRebuildArtifact new =>
    obtain ⟨h, r, -, a, -, hlogs⟩ := hs
    exact hlogs.inserted
  | _ => trivial

/-! ### What is stored -/

/-- Logs were added to the three tables, or nothing was. -/
structure LogsKept (db db' : Db) : Prop where
  build : ∀ l ∈ db.buildLogs.rows, l ∈ db'.buildLogs.rows
  diffoscope : ∀ l ∈ db.diffoscopeLogs.rows, l ∈ db'.diffoscopeLogs.rows
  attestation : ∀ l ∈ db.attestationLogs.rows, l ∈ db'.attestationLogs.rows

section
variable {env : Env} {db db' : Db} {P P' : ℕ → Prop} {Q Q' : Option ℕ × Option ℕ → Prop}

lemma LogsKept.refl (db : Db) : LogsKept db db := ⟨fun _ h => h, fun _ h => h, fun _ h => h⟩

lemma LogsKept.hasBuildLog (h : LogsKept db db') {id : ℕ} (hid : HasBuildLog db id) :
    HasBuildLog db' id := by
  obtain ⟨l, hl, hid⟩ := hid
  exact ⟨l, h.build l hl, hid⟩

lemma LogsKept.hasArtifactLogs (h : LogsKept db db') {ids : Option ℕ × Option ℕ}
    (hids : HasArtifactLogs db ids) : HasArtifactLogs db' ids := by
  refine ⟨fun id hid => ?_, fun id hid => ?_⟩
  · obtain ⟨l, hl, hid⟩ := hids.1 id hid
    exact ⟨l, h.diffoscope l hl, hid⟩
  · obtain ⟨l, hl, hid⟩ := hids.2 id hid
    exact ⟨l, h.attestation l hl, hid⟩

lemma Refers.mono (h : Refers P Q db) (hP : ∀ id, P id → P' id) (hQ : ∀ ids, Q ids → Q' ids) :
    Refers P' Q' db :=
  ⟨fun r hr => hP _ (h.rebuilds r hr), fun a ha => hQ _ (h.artifacts a ha)⟩

/-- Copies refer to the logs of what they copy. -/
lemma Refers.copyExistingRebuilds (h : Refers P Q db) (id : ℕ) :
    Refers P Q (copyExistingRebuilds id db) := by
  have hartifacts (rebuild : ℕ) (as : List RebuildArtifact) (d : Db) (hd : Refers P Q d)
      (has : ∀ a ∈ as, Q (a.diffoscopeLogId, a.attestationLogId)) :
      Refers P Q (as.foldl (fun d a => NewRebuildArtifact.insert
        ⟨rebuild, a.name, a.diffoscopeLogId, a.attestationLogId, a.status⟩ d) d) := by
    induction as generalizing d with
    | nil => exact hd
    | cons a as ih =>
      obtain ⟨ha, has⟩ := List.forall_mem_cons.mp has
      refine ih _ ⟨hd.rebuilds, fun b hb => ?_⟩ has
      rw [NewRebuildArtifact.rows_insert] at hb
      rcases List.mem_append.mp hb with hb | hb
      · exact hd.artifacts b hb
      · rw [List.mem_singleton.mp hb]
        exact ha
  have hcopy (rs : List Rebuild) (d : Db) (hd : Refers P Q d) (hrs : ∀ r ∈ rs, P r.buildLogId) :
      Refers P Q (rs.foldl (copyRebuild id) d) := by
    induction rs generalizing d with
    | nil => exact hd
    | cons r rs ih =>
      obtain ⟨hr, hrs⟩ := List.forall_mem_cons.mp hrs
      refine ih _ (hartifacts _ _ _ ⟨fun x hx => ?_, hd.artifacts⟩
        fun a ha => hd.artifacts a (List.mem_filter.mp ha).1) hrs
      rw [NewRebuild.rows_insert] at hx
      rcases List.mem_append.mp hx with hx | hx
      · exact hd.rebuilds x hx
      · rw [List.mem_singleton.mp hx]
        exact hr
  unfold Daemon.copyExistingRebuilds
  split
  · split
    · exact hcopy _ _ h fun r hr => h.rebuilds r (List.mem_filter.mp hr).1
    · exact h
  · exact h

lemma Refers.import (h : Refers P Q db) (now : Time) (first : Option Time) (r : PackageReport)
    (p : SourcePackageReport) : Refers P Q (importWithHistory now first r p db).2 := by
  obtain ⟨-, hr, ha⟩ := importRows_frame now first r p db
  have hrows : Refers P Q (importRows now first r p db).2 :=
    ⟨by rw [hr]; exact h.rebuilds, by rw [ha]; exact h.artifacts⟩
  unfold importWithHistory
  dsimp only
  split
  · exact hrows.copyExistingRebuilds _
  · exact hrows

/-- What an import refers to was referred to before, and it writes no logs. -/
lemma logs_commit {c : ScheduleConfig} {T : Ties} {now : Time} {r : PackageReport}
    (hok : commitPackageReport c T now r db = .ok db') :
    LogsKept db db' ∧ (Refers P Q db → Refers P Q db') := by
  obtain ⟨db₁, hfold, rfl⟩ := commitPackageReport_ok hok
  have hend : LogsKept db db₁ ∧ (Refers P Q db → Refers P Q db₁) := by
    refine foldlM_ok (I := fun _ d => LogsKept db d ∧ (Refers P Q db → Refers P Q d)) hfold
      ⟨⟨fun _ h => h, fun _ h => h, fun _ h => h⟩, fun h => ⟨h.rebuilds, h.artifacts⟩⟩
      fun _ p d d' _ hd hp => ?_
    obtain ⟨first, -, henq⟩ := importPackage_ok hp
    have hframe := importWithHistory_frame now first r p d
    have hsame : d'.rebuilds = (importWithHistory now first r p d).2.rebuilds ∧
        d'.rebuildArtifacts = (importWithHistory now first r p d).2.rebuildArtifacts ∧
        d'.buildLogs = d.buildLogs ∧ d'.diffoscopeLogs = d.diffoscopeLogs ∧
        d'.attestationLogs = d.attestationLogs := by
      rcases enqueueImported_cases henq with ⟨-, rfl⟩ | ⟨-, -, n, -, ⟨-, rfl⟩ | ⟨-, priority, rfl⟩⟩ <;>
        exact ⟨rfl, rfl, hframe.buildLogs, hframe.diffoscopeLogs, hframe.attestationLogs⟩
    obtain ⟨hr, ha, hb, hdiff, hatt⟩ := hsame
    refine ⟨⟨?_, ?_, ?_⟩, fun h => ?_⟩
    · rw [hb]
      exact hd.1.build
    · rw [hdiff]
      exact hd.1.diffoscope
    · rw [hatt]
      exact hd.1.attestation
    · have himp := (hd.2 h).import now first r p
      exact ⟨by rw [hr]; exact himp.rebuilds, by rw [ha]; exact himp.artifacts⟩
  exact ⟨⟨hend.1.build, hend.1.diffoscope, hend.1.attestation⟩,
    fun h => ⟨(hend.2 h).rebuilds, (hend.2 h).artifacts⟩⟩

/-- A statement keeps the logs; unless it inserts a rebuild or an artifact, what is referred to
was referred to before. -/
lemma exec_logs (env : Env) (t : Time) (s : Stmt) (db : Db) :
    LogsKept db ((exec env).answer t s db).2 ∧
      (s.refersToLogs = false → Refers P Q db → Refers P Q ((exec env).answer t s db).2) := by
  cases s with
  | commitPackageReport now r =>
    exact Exec.answer_inv (I := fun d => LogsKept db d ∧ (_ → Refers P Q db → Refers P Q d))
      ⟨.refl db, fun _ h => h⟩ fun u db' h => by
        obtain ⟨hkept, hrefers⟩ := logs_commit (P := P) (Q := Q) (exec_commit h)
        exact ⟨hkept, fun _ => hrefers⟩
  | insertBuildLog log =>
    exact ⟨⟨fun l hl => List.mem_append_left _ hl, fun _ h => h, fun _ h => h⟩,
      fun _ h => ⟨h.rebuilds, h.artifacts⟩⟩
  | insertDiffoscopeLog log =>
    exact ⟨⟨fun _ h => h, fun l hl => List.mem_append_left _ hl, fun _ h => h⟩,
      fun _ h => ⟨h.rebuilds, h.artifacts⟩⟩
  | insertAttestationLog log =>
    exact ⟨⟨fun _ h => h, fun _ h => h, fun l hl => List.mem_append_left _ hl⟩,
      fun _ h => ⟨h.rebuilds, h.artifacts⟩⟩
  | insertRebuild new => exact ⟨⟨fun _ h => h, fun _ h => h, fun _ h => h⟩, nofun⟩
  | insertRebuildArtifact new => exact ⟨⟨fun _ h => h, fun _ h => h, fun _ h => h⟩, nofun⟩
  | resetRebuild id =>
    refine ⟨⟨fun _ h => h, fun _ h => h, fun _ h => h⟩, fun _ h => ⟨fun r hr => ?_, h.artifacts⟩⟩
    obtain ⟨r', hr', rfl⟩ := List.mem_map.mp hr
    split <;> exact h.rebuilds r' hr'
  | resetArtifacts id =>
    refine ⟨⟨fun _ h => h, fun _ h => h, fun _ h => h⟩, fun _ h => ⟨h.rebuilds, fun a ha => ?_⟩⟩
    obtain ⟨a', ha', rfl⟩ := List.mem_map.mp ha
    split <;> exact h.artifacts a' ha'
  | refreshWorker key now =>
    refine Exec.answer_inv (E := exec env)
      (I := fun d : Db => LogsKept db d ∧ (_ → Refers P Q db → Refers P Q d))
      ⟨.refl db, fun _ h => h⟩ fun w db' h => ?_
    simp only [exec, refreshWorker] at h
    split at h <;> cases h
    exact ⟨⟨fun _ h => h, fun _ h => h, fun _ h => h⟩, fun _ h => ⟨h.rebuilds, h.artifacts⟩⟩
  | popJob w r =>
    change LogsKept db (popJob env.ties w r t db).2 ∧
      (_ → Refers P Q db → Refers P Q (popJob env.ties w r t db).2)
    rcases popJob_cases env.ties w r t db with ⟨row, -, h⟩ | h <;> rw [h] <;>
      exact ⟨⟨fun _ h => h, fun _ h => h, fun _ h => h⟩, fun _ h => ⟨h.rebuilds, h.artifacts⟩⟩
  | findQueued id =>
    refine Exec.answer_inv (I := fun d : Db => LogsKept db d ∧ (_ → Refers P Q db → Refers P Q d))
      ⟨.refl db, fun _ h => h⟩ fun q db' h => ?_
    rw [(exec_findQueued h).2.2]
    exact ⟨.refl db, fun _ h => h⟩
  | maxRetriesOf ids =>
    refine Exec.answer_inv (I := fun d : Db => LogsKept db d ∧ (_ → Refers P Q db → Refers P Q d))
      ⟨.refl db, fun _ h => h⟩ fun n db' h => ?_
    rw [exec_maxRetriesOf h]
    exact ⟨.refl db, fun _ h => h⟩
  | _ => exact ⟨⟨fun _ h => h, fun _ h => h, fun _ h => h⟩, fun _ h => ⟨h.rebuilds, h.artifacts⟩⟩

section
variable {tr : List Event}

lemma hasBuildLog_of_did (hh : History (exec env) (fun _ => refersToInserted) env.start tr) {i id : ℕ}
    {log : Bytes} (h : Did (own i tr) (.insertBuildLog log) id) :
    HasBuildLog (stateAfter (exec env) env.start tr) id := by
  refine did_stable (I := fun db => HasBuildLog db id)
    (fun t s db h => (exec_logs (P := fun _ => True) (Q := fun _ => True) env t s db).1.hasBuildLog h)
    hh h fun t db db' hok => ?_
  cases hok
  exact ⟨_, List.mem_append_right _ (List.mem_singleton_self _), rfl⟩

lemma hasArtifactLogs_of_inserted
    (hh : History (exec env) (fun _ => refersToInserted) env.start tr) {i : ℕ}
    {ids : Option ℕ × Option ℕ} (h : InsertedLogs (own i tr) ids) :
    HasArtifactLogs (stateAfter (exec env) env.start tr) ids := by
  refine ⟨fun id hid => ?_, fun id hid => ?_⟩
  · obtain ⟨log, hdid⟩ := h.1 id hid
    refine did_stable (I := fun db => ∃ l ∈ db.diffoscopeLogs.rows, l.id = id) (fun t s db h => ?_)
      hh hdid fun t db db' hok => ?_
    · obtain ⟨l, hl, hlid⟩ := h
      exact ⟨l, (exec_logs (P := fun _ => True) (Q := fun _ => True) env t s db).1.diffoscope l hl, hlid⟩
    · cases hok
      exact ⟨_, List.mem_append_right _ (List.mem_singleton_self _), rfl⟩
  · obtain ⟨log, hdid⟩ := h.2 id hid
    refine did_stable (I := fun db => ∃ l ∈ db.attestationLogs.rows, l.id = id) (fun t s db h => ?_)
      hh hdid fun t db db' hok => ?_
    · obtain ⟨l, hl, hlid⟩ := h
      exact ⟨l, (exec_logs (P := fun _ => True) (Q := fun _ => True) env t s db).1.attestation l hl, hlid⟩
    · cases hok
      exact ⟨_, List.mem_append_right _ (List.mem_singleton_self _), rfl⟩

lemma logsExist_of_history (hh : History (exec env) (fun _ => refersToInserted) env.start tr) :
    LogsExist (stateAfter (exec env) env.start tr) := by
  refine hh.invariant (I := fun _ => LogsExist) ⟨by simp [Env.start, Db.empty], by simp [Env.start, Db.empty]⟩
    fun {tr e} hh hbefore => ?_
  obtain ⟨hstate, -, hallowed, -⟩ := hh.last
  have hbuild {id : ℕ} {log : Bytes} (h : Did (own e.thread tr) (.insertBuildLog log) id) :
      HasBuildLog e.before id := hstate ▸ hasBuildLog_of_did hh.of_append h
  have hartifact {ids : Option ℕ × Option ℕ} (h : InsertedLogs (own e.thread tr) ids) :
      HasArtifactLogs e.before ids := hstate ▸ hasArtifactLogs_of_inserted hh.of_append h
  rw [Lib.Event.after]
  obtain ⟨⟨t, s, a⟩, i, c, db⟩ := e
  dsimp only at hallowed hbuild hartifact hbefore ⊢
  obtain ⟨hkept, hrefers⟩ := exec_logs (P := HasBuildLog db) (Q := HasArtifactLogs db) env t s db
  have hstored : Refers (HasBuildLog db) (HasArtifactLogs db) ((exec env).answer t s db).2 := by
    rcases hs : s.refersToLogs with _ | _
    · exact hrefers hs hbefore
    · cases s with
      | insertRebuild new =>
        obtain ⟨log, hdid⟩ := hallowed
        refine ⟨fun r hr => ?_, hbefore.artifacts⟩
        rcases List.mem_append.mp hr with hr | hr
        · exact hbefore.rebuilds r hr
        · rw [List.mem_singleton.mp hr]
          exact hbuild hdid
      | insertRebuildArtifact new =>
        refine ⟨hbefore.rebuilds, fun x hx => ?_⟩
        rcases List.mem_append.mp hx with hx | hx
        · exact hbefore.artifacts x hx
        · rw [List.mem_singleton.mp hx]
          exact hartifact hallowed
      | _ => cases hs
  exact hstored.mono (fun _ => hkept.hasBuildLog) fun _ => hkept.hasArtifactLogs

end

/-- **Every log that is referred to is stored, in every reachable database.** -/
theorem reachable_logsExist {env : Env} {db : Db} (h : Reachable env db) : LogsExist db := by
  obtain ⟨as, rfl⟩ := h
  have hhistory : History (exec env) (fun _ => refersToInserted) env.start (trace env as) :=
    (Pool.history (handler_refersToInserted env.config) env.start as).1
  rw [state_runPool]
  exact logsExist_of_history hhistory

end

end Rebuilderd.Daemon
