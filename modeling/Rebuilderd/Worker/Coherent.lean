import Rebuilderd.Daemon.Provenance
import Rebuilderd.Worker.Verified

/-!
Whether the status of a rebuild agrees with the statuses of its artifacts: from the verdicts of the
worker, over the records of its report, to copies and resets of these records.
-/

namespace Rebuilderd.Worker

open Rebuilderd.Common Rebuilderd.Lib Rebuilderd.Daemon

/-- The status of a rebuild and those of its artifacts. -/
def Agrees : Option BuildStatus → List (Option ArtifactStatus) → Prop
  | some .good, as => ∀ a ∈ as, a = some .good
  | some .bad, as => ∃ a ∈ as, a ≠ some .good
  | some .fail, as => as = []
  | some .unknown, _ => True
  | none, as => ∀ a ∈ as, a = none

/-- The status of each stored rebuild agrees with those of its artifacts. -/
def Coherent (db : Db) : Prop :=
  ∀ r ∈ db.rebuilds.rows,
    Agrees r.status ((db.rebuildArtifacts.rows.filter (·.rebuildId == r.id)).map (·.status))

/-- A report, if it is one, is what the worker has made of some job. -/
def official (c : Call) : Prop :=
  ∀ h r, c = .submitRebuildReport h r → ∃ W config now job, runJob W config now job = .ok r

/-! ### The report -/

section
variable {W : World} {config : Config} {now : Time} {job : QueuedJobWithArtifacts}
  {report : RebuildReport}

lemma agrees_overall (result : Except Err (List RebuildArtifactReport) × Bytes) :
    Agrees (some (overall W result).1) ((overall W result).2.1.map fun a => some a.status) := by
  rcases result with ⟨e | results, log⟩
  · exact rfl
  · dsimp only [overall]
    split_ifs with hall
    · simpa [Agrees] using hall
    · simpa [Agrees] using hall

lemma agrees_report (h : runJob W config now job = .ok report) :
    Agrees (some report.status) (report.artifacts.map fun a => some a.status) := by
  obtain ⟨backend, -, hstatus, hartifacts⟩ := runJob_ok h
  rw [hstatus, hartifacts]
  exact agrees_overall _

end

/-! ### Records -/

/-- The statuses of a record agree. -/
def RecordAgrees (rec : Record) : Prop := Agrees rec.status (rec.artifacts.map (·.status))

/-- The statuses of all records agree. -/
structure Coheres (db : Db) : Prop where
  fresh : Fresh db
  records : ∀ i, ∀ rec ∈ history db i, RecordAgrees rec

section
variable {env : Env} {db db' : Db}

lemma recordAgrees_recordOf {r : RebuildReport} (q : Queued) (log : ℕ) (logs : Handler.ArtifactLogs)
    (h : Agrees (some r.status) (r.artifacts.map fun a => some a.status)) :
    RecordAgrees (recordOf r q log logs) := by
  unfold RecordAgrees recordOf
  rw [List.map_map]
  exact h

lemma recordAgrees_forget (rec : Record) : RecordAgrees rec.forget := by
  simp [RecordAgrees, Record.forget, Agrees]

lemma Coheres.coherent (h : Coheres db) : Coherent db := by
  intro r hr
  have hrec : r.record (artifactsOf db r.id) ∈ history db r.buildInputId :=
    List.mem_map.mpr ⟨r, List.mem_filter.mpr ⟨hr, by simp⟩, rfl⟩
  have hagrees := h.records r.buildInputId _ hrec
  unfold RecordAgrees Rebuild.record artifactsOf at hagrees
  rw [List.map_map] at hagrees
  exact hagrees

lemma Coheres.of_sameRecords (h : Coheres db) (hs : SameRecords db db') : Coheres db' := by
  refine ⟨hs.fresh h.fresh, fun i rec hrec => ?_⟩
  rw [hs.history] at hrec
  exact h.records i rec hrec

/-- A package report copies records, and makes no new ones. -/
lemma Coheres.commit {c : ScheduleConfig} {T : Ties} {now : Time} {r : PackageReport}
    (h : Coheres db) (hok : commitPackageReport c T now r db = .ok db') : Coheres db' := by
  obtain ⟨db₁, hfold, rfl⟩ := commitPackageReport_ok hok
  have hmark : Coheres (markScopedPackagesUnseen r db) :=
    ⟨h.fresh.congr rfl rfl le_rfl, h.records⟩
  have hend : Coheres db₁ := by
    refine foldlM_ok (I := fun _ d => Coheres d) hfold hmark fun _ p d d' _ hd hp => ?_
    obtain ⟨first, -, henq⟩ := importPackage_ok hp
    refine Coheres.of_sameRecords ⟨(importWithHistory_history now first r p hd.fresh).1,
      fun i rec hrec => ?_⟩ (sameRecords_enqueueImported henq)
    rw [history_importWithHistory hd.fresh] at hrec
    split at hrec
    · obtain ⟨j, hj⟩ := mem_importedHistory hrec
      exact hd.records j rec hj
    · exact hd.records i rec hrec
  exact ⟨hend.fresh.congr rfl rfl le_rfl, hend.records⟩

lemma Coheres.of_recorded {r : RebuildReport} {q : Queued} (h : Coheres db)
    (hrec : Recorded r q db db')
    (hagrees : Agrees (some r.status) (r.artifacts.map fun a => some a.status)) : Coheres db' := by
  obtain ⟨logs, hlogs⟩ := hrec.history
  refine ⟨hrec.fresh, fun i rec hmem => ?_⟩
  rw [hlogs] at hmem
  rcases List.mem_append.mp hmem with hmem | hmem
  · exact h.records i rec hmem
  · split at hmem
    · rw [List.mem_singleton.mp hmem]
      exact recordAgrees_recordOf q _ logs hagrees
    · cases hmem

lemma Coheres.of_faded (h : Coheres db) (hf : Faded db db') : Coheres db' := by
  refine ⟨hf.fresh h.fresh, fun i rec hmem => ?_⟩
  obtain ⟨j, hj, rfl⟩ := List.mem_iff_getElem.mp hmem
  have hj' : j < (history db i).length := (hf.history i).length_eq ▸ hj
  have hfades := (hf.history i).get hj' hj
  simp only [List.get_eq_getElem] at hfades
  rcases hfades with hsame | hforgot
  · rw [hsame]
    exact h.records i _ (List.getElem_mem hj')
  · rw [hforgot]
    exact recordAgrees_forget _

/-- **What one request keeps.** -/
lemma Coheres.next {c : Request} (h : Coheres db) (hc : official c.1) : Coheres (served env db c) := by
  obtain ⟨c, t⟩ := c
  cases c with
  | submitPackageReport hd r =>
    rcases served_packageReport env db hd r t with hsame | hok
    · rw [hsame]
      exact h
    · exact h.commit hok
  | submitRebuildReport hd r =>
    rcases served_rebuildReport env db h.fresh hd r t with hsame | ⟨q, -, -, hrec⟩
    · exact h.of_sameRecords hsame
    · obtain ⟨W, config, now, job, hrun⟩ := hc hd r rfl
      exact h.of_recorded hrec (agrees_report hrun)
  | requestRebuild hd r => exact h.of_faded (served_requestRebuild env db hd r t)
  | requestWork | pingJob | dropQueuedJobs | dropQueuedJob =>
    exact h.of_sameRecords (served_sameRecords env db t (keepsRecords_of_justified rfl))

end

/-- **Rebuilds agree with their artifacts**, in every run in which all reports are from the official
worker. -/
theorem rebuildsCoherent (env : Env) (db : Db)
    (h : Runs (served env) (fun _ c => official c.1) env.start db) : Coherent db := by
  have hstart : Coheres env.start := ⟨.empty _, by simp [history, Env.start, Db.empty]⟩
  exact (h.inv hstart fun db c _ hdb hc => hdb.next hc).coherent

/-! ### A run with a report, a copy and a reset -/

def helloRebuildable (release : String) : Call :=
  .submitPackageReport adminHeaders ⟨"debian", some release, none, "amd64",
    [{ package "hello" "https://hello.buildinfo" with artifacts := [helloDeb] }]⟩

/-- `hello` is rebuilt in one release, copied to a second one and reset in the first. -/
def copiedAndReset : List Request :=
  atOnce [helloRebuildable "a",
    .requestWork (workerHeaders "alice") ⟨["debian"], "amd64", ["amd64"]⟩,
    .submitRebuildReport (workerHeaders "alice") ⟨1, 0, [], .good, [helloGood]⟩,
    helloRebuildable "b",
    .requestRebuild adminHeaders ⟨none, some "a", none, none, none, none, none, none, true⟩]

theorem rebuildsCoherent_copiedAndReset :
    Coherent (copiedAndReset.foldl (served (openDaemon none)) (openDaemon none).start) ∧
      (copiedAndReset.foldl (served (openDaemon none)) (openDaemon none).start).rebuilds.rows.map (·.status) =
        [none, some .good] := by
  refine ⟨rebuildsCoherent (openDaemon none) _ ?_, by decide +kernel⟩
  have hreport : runJob (workerWith twoPools rebuiltFirst) debianWorker 0
      (builtJob [⟨"hello", "1.0", "amd64", "https://main/hello.deb"⟩]) =
        .ok ⟨1, 0, [], .good, [helloGood]⟩ := by decide +kernel
  have hother {c : Call} (hc : ∀ h r, c ≠ .submitRebuildReport h r) : official c :=
    fun h r heq => absurd heq (hc h r)
  have hall : ∀ c ∈ copiedAndReset, official c.1 := by
    simp only [copiedAndReset, atOnce, helloRebuildable, List.map_cons, List.map_nil,
      List.forall_mem_cons]
    refine ⟨hother (by simp), hother (by simp), fun h r heq => ?_, hother (by simp),
      hother (by simp), by simp⟩
    cases heq
    exact ⟨_, _, _, _, hreport⟩
  exact Runs.of_forall hall

end Rebuilderd.Worker
