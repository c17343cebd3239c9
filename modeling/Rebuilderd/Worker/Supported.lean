import Rebuilderd.Daemon.Landing
import Rebuilderd.Daemon.Invariants
import Rebuilderd.Worker.Rebuild

/-!
Whether a worker can run what it is handed.

The daemon selects jobs by the backend of the build input, a worker looks its backend up by the
distribution of the source package. The two are the same text in every reachable database.
-/

namespace Rebuilderd.Worker

open Rebuilderd.Common Rebuilderd.Lib Rebuilderd.Daemon

/-- Every build input has its source package, and is for the backend of its distribution. -/
def BackendsMatch (db : Db) : Prop :=
  ∀ b ∈ db.buildInputs.rows, ∃ s ∈ db.sourcePackages.rows,
    s.id = b.sourcePackageId ∧ b.backend = s.distribution

/-- The architectures a worker asks for: those configured, or its own. -/
def supportedArchitectures (native : String) (configured : List String) : List String :=
  if configured.isEmpty then [native] else configured

/-- What a worker on this architecture asks for. -/
def workRequest (native : String) (configured : List String) (config : Config) :
    PopQueuedJobRequest where
  supportedBackends := config.backends.map (·.1)
  architecture := native
  supportedArchitectures := supportedArchitectures native configured

/-! ### Backends and distributions -/

/-- The distributions of the source packages. -/
def distributions (db : Db) : List (ℕ × String) :=
  db.sourcePackages.rows.map fun s => (s.id, s.distribution)

/-- `BackendsMatch`, on the columns that never change. -/
def InputsMatch (db : Db) : Prop := ∀ x ∈ db.inputs, (x.2.1, x.2.2.backend) ∈ distributions db

section
variable {env : Env} {db db' : Db}

lemma InputsMatch.backends (h : InputsMatch db) : BackendsMatch db := by
  intro b hb
  obtain ⟨s, hs, heq⟩ := List.mem_map.mp (h b.identity (List.mem_map.mpr ⟨b, hb, rfl⟩))
  obtain ⟨hid, hdistribution⟩ := Prod.mk.inj heq
  exact ⟨s, hs, hid, hdistribution.symm⟩

lemma InputsMatch.congr (h : InputsMatch db) (hd : distributions db' = distributions db)
    (hi : db'.inputs = db.inputs) : InputsMatch db' := by
  unfold InputsMatch
  rw [hd, hi]
  exact h

/-- An upsert of a source package leaves the distributions of the others alone. -/
lemma distributions_upsert (n : NewSourcePackage) (db : Db) :
    (∀ x ∈ distributions db, x ∈ distributions (n.upsert db).2) ∧
      ((n.upsert db).1.id, n.distribution) ∈ distributions (n.upsert db).2 := by
  rcases n.upsert_cases db with ⟨s, hs, hc, heq⟩ | ⟨-, heq⟩ <;> rw [heq]
  · have hkept : distributions { db with
        sourcePackages := (db.sourcePackages.update n.conflicts fun s => n.row s.id).skip } =
          distributions db := by
      refine Table.map_rows_update _ fun s _ hc => ?_
      simp only [NewSourcePackage.conflicts, Bool.and_eq_true, beq_iff_eq] at hc
      rw [hc.1.1.2]
      rfl
    rw [hkept]
    refine ⟨fun _ h => h, List.mem_map.mpr ⟨s, hs, ?_⟩⟩
    simp only [NewSourcePackage.conflicts, Bool.and_eq_true, beq_iff_eq] at hc
    rw [hc.1.1.2]
    rfl
  · have hadded : distributions { db with sourcePackages := db.sourcePackages.insert n.row } =
        distributions db ++ [(db.sourcePackages.seq + 1, n.distribution)] := List.map_append
    rw [hadded]
    exact ⟨fun x hx => List.mem_append_left _ hx, List.mem_append_right _ (List.mem_singleton_self _)⟩

/-- The build input of a package is for the backend of the distribution that is reported. -/
lemma InputsMatch.importRows (h : InputsMatch db) (now : Time) (first : Option Time)
    (r : PackageReport) (p : SourcePackageReport) : InputsMatch (importRows now first r p db).2 := by
  obtain ⟨hkept, hown⟩ := distributions_upsert (newSourcePackage now r p) db
  have hinputs : ((newSourcePackage now r p).upsert db).2.inputs = db.inputs :=
    congrArg (fun t : Table BuildInput => t.rows.map BuildInput.identity) (upsertSource_spec now r p db).1
  have hs := importRows_other (g := Db.sourcePackages) (fun _ _ => rfl) now first r p db
  have hb := importRows_other (g := Db.inputs) (fun _ _ => rfl) now first r p db
  dsimp only at hs hb
  generalize (newSourcePackage now r p).upsert db = source at *
  obtain ⟨hsources, -, hid, hgroup, hnew⟩ := upsertInput_spec first r p source.1.id source.2
  have hdistributions : distributions (Daemon.importRows now first r p db).2 =
      distributions source.2 := by
    unfold distributions
    rw [hs, hsources]
  intro x hx
  rw [hdistributions]
  rw [hb] at hx
  have hold : x ∈ source.2.inputs → (x.2.1, x.2.2.backend) ∈ distributions source.2 :=
    fun hx => hkept _ (h x (hinputs ▸ hx))
  rcases hnew with heq | heq <;> rw [heq] at hx
  · exact hold hx
  · rcases List.mem_append.mp hx with hx | hx
    · exact hold hx
    · rw [List.mem_singleton.mp hx, BuildInput.identity, hid, hgroup]
      exact hown

lemma InputsMatch.import (h : InputsMatch db) (now : Time) (first : Option Time)
    (r : PackageReport) (p : SourcePackageReport) :
    InputsMatch (importWithHistory now first r p db).2 := by
  have hrows := h.importRows now first r p
  unfold importWithHistory
  dsimp only
  split
  · exact hrows.congr (copyExistingRebuilds_frame (fun _ _ => rfl) (fun _ _ => rfl) _ _)
      (copyExistingRebuilds_frame (fun _ _ => rfl) (fun _ _ => rfl) _ _)
  · exact hrows

lemma InputsMatch.commit {c : ScheduleConfig} {T : Ties} {now : Time} {r : PackageReport}
    (h : InputsMatch db) (hok : commitPackageReport c T now r db = .ok db') : InputsMatch db' := by
  obtain ⟨db₁, hfold, rfl⟩ := commitPackageReport_ok hok
  have hmark : InputsMatch (markScopedPackagesUnseen r db) :=
    h.congr (Table.map_rows_update _ fun _ _ _ => rfl) rfl
  have hend : InputsMatch db₁ := by
    refine foldlM_ok (I := fun _ d => InputsMatch d) hfold hmark fun _ p d d' _ hd hp => ?_
    obtain ⟨first, -, henq⟩ := importPackage_ok hp
    have himp := importWithHistory_imported now first r p d
    obtain ⟨⟨hs, hi⟩, -⟩ :=
      enqueueImported_queue (mem_inputs.mpr ⟨_, himp.stored, rfl, rfl, rfl⟩) henq
    exact (hd.import now first r p).congr (by rw [distributions, hs]; rfl) hi
  exact hend.congr rfl rfl

lemma exec_inputsMatch (env : Env) (t : Time) (s : Stmt) (db : Db) (h : InputsMatch db) :
    InputsMatch ((exec env).answer t s db).2 := by
  rcases exec_identities env t s db with ⟨now, r, rfl⟩ | ⟨hs, hi⟩
  · exact Exec.answer_inv h fun u db' hok => h.commit (exec_commit hok)
  · exact h.congr (by rw [distributions, hs]; rfl) hi

lemma inputsMatch_start (env : Env) : InputsMatch env.start := by
  simp [InputsMatch, Db.inputs, Env.start, Db.empty]

end

/-! ### Jobs -/

lemma mem_standardizeArchitectures {as : List String} {a : String} :
    a ∈ standardizeArchitectures as ↔ ∃ b ∈ as, a = b ∨ standardArchitecture b = some a := by
  simp only [standardizeArchitectures, List.mem_flatMap, List.mem_append, Option.mem_toList,
    List.mem_singleton]
  exact exists_congr fun b => and_congr_right fun _ => or_comm

lemma lookup_isSome {α : Type} {l : List (String × α)} {k : String} (h : k ∈ l.map (·.1)) :
    ∃ a, l.lookup k = some a := by
  induction l with
  | nil => cases h
  | cons x l ih =>
    rw [List.lookup_cons]
    rcases hk : k == x.1 with _ | _
    · rw [beq_eq_false_iff_ne] at hk
      exact ih ((List.mem_cons.mp h).resolve_left hk)
    · exact ⟨x.2, rfl⟩

/-- **A worker can run what it is handed**: it has a backend for the distribution of the job, whose
architecture is one it supports or an alias of one. -/
theorem handedJob_supported (env : Env) :
    (∀ db, Reachable env db → BackendsMatch db) ∧
      ∀ (as : Schedule) (i : ℕ) (h : Headers) (native : String) (configured : List String)
        (config : Config) (job : QueuedJobWithArtifacts),
        (runPool env as).answerOf i =
            some (.requestWork h (workRequest native configured config), .assignment (some job)) →
          (∃ backend, config.backends.lookup job.job.distribution = some backend) ∧
            ∃ a ∈ supportedArchitectures native configured,
              job.job.architecture = a ∨ standardArchitecture a = some job.job.architecture := by
  refine ⟨?_, fun as i h native configured config job hjob => ?_⟩
  · rintro db ⟨as, rfl⟩
    exact (Pool.run_inv (exec_inputsMatch env) (inputsMatch_start env) as).backends
  · obtain ⟨pop, hpop, -, t, w, -, ⟨q, b, s⟩, hrow, rfl⟩ := exists_available hjob
    have hmatch : BackendsMatch pop.before :=
      (before_inv (exec_inputsMatch env) (inputsMatch_start env) hpop).backends
    obtain ⟨hmem, hok⟩ := List.mem_filter.mp hrow
    obtain ⟨-, ⟨hb, -⟩, hs, hsid⟩ := mem_queueBase.mp hmem
    obtain ⟨s', hs', hsid', hbackend⟩ := hmatch b hb
    obtain rfl := Table.eq_of_key hs hs' (hsid.trans hsid'.symm)
    simp only [Bool.and_eq_true, List.contains_iff_mem] at hok
    refine ⟨lookup_isSome ?_, mem_standardizeArchitectures.mp hok.1.2⟩
    change s.distribution ∈ config.backends.map (·.1)
    rw [← hbackend]
    exact hok.2

theorem handedJob_supported_hello :
    (∃ backend, [("debian", (⟨"/usr/libexec/rebuilder-debian.sh", none⟩ : Backend))].lookup
        helloJob.job.distribution = some backend) ∧
      ∃ a ∈ supportedArchitectures "x86_64" [],
        helloJob.job.architecture = a ∨ standardArchitecture a = some helloJob.job.architecture :=
  (handedJob_supported (openDaemon none)).2
    (serveAt 0 (.submitPackageReport adminHeaders (debianReport [package "hello" "https://hello"])) 0 ++
      serveAt 1 (.requestWork (workerHeaders "alice") (workRequest "x86_64" []
        ⟨[("debian", ⟨"/usr/libexec/rebuilder-debian.sh", none⟩)], false⟩)) (10 * second))
    1 (workerHeaders "alice") "x86_64" []
    ⟨[("debian", ⟨"/usr/libexec/rebuilder-debian.sh", none⟩)], false⟩ helloJob (by decide +kernel)

end Rebuilderd.Worker
