import Rebuilderd.Daemon.LatestRebuild
import Rebuilderd.Worker.Verdict

/-!
What a good report has verified: from the artifacts of a build input, over the job that is handed
out with them, to the verdicts of the worker and its report.

The verdict about a job is good if all its artifacts are, so also if it has none.
-/

namespace Rebuilderd.Worker

open Rebuilderd.Common Rebuilderd.Lib Rebuilderd.Daemon

variable {W : World} {config : Config} {backend : Backend} {ctx : Context} {now : Time}
  {job : QueuedJobWithArtifacts} {report : RebuildReport}

/-- The job had artifacts, and each was compared and found identical. -/
def Verified (W : World) (ctx : Context) : Prop :=
  ctx.artifacts ≠ [] ∧ ∃ b log, build W ctx [] = (.ok b, log) ∧
    b.artifacts.map (·.1) = ctx.artifacts ∧ ∀ x ∈ b.artifacts, FoundIdentical W ctx b x.2

/-- The directories cannot be set up, the build input cannot be downloaded or the backend cannot be
run on it. -/
def inputFails (W : World) (backend : Backend) (url : String) : Bool :=
  !W.createDirs.isOk ||
    match download W url ∅ with
    | .error _ => true
    | .ok (input, dir) => !(W.runBackend backend.path input dir).1.isOk

/-! ### From the verdicts to the report -/

lemma overall_good {result : Except Err (List RebuildArtifactReport) × Bytes} :
    (overall W result).1 = .good ↔
      ∃ results log, result = (.ok results, log) ∧ ∀ r ∈ results, r.status = .good := by
  rcases result with ⟨e | results, log⟩
  · simp [overall]
  · dsimp only [overall]
    split_ifs with hall
    · simpa using hall
    · simpa using hall

/-- A report has the statuses of a rebuild. -/
lemma runJob_ok (h : runJob W config now job = .ok report) :
    ∃ backend, config.backends.lookup job.job.distribution = some backend ∧
      report.status = (overall W (rebuildWithHeartbeat W (contextOf config backend job))).1 ∧
      report.artifacts = (overall W (rebuildWithHeartbeat W (contextOf config backend job))).2.1 := by
  unfold runJob at h
  split at h
  · cases h
  · rename_i backend hbackend
    refine ⟨backend, hbackend, ?_⟩
    dsimp only at h
    rcases hlog : W.zstdCompress (W.sanitize
      (overall W (rebuildWithHeartbeat W (contextOf config backend job))).2.2) with e | bytes
    · simp [hlog, bind, Except.bind] at h
    · simp only [hlog, bind, Except.bind, pure, Except.pure, Except.ok.injEq] at h
      rw [← h]
      exact ⟨rfl, rfl⟩

lemma runJob_status (hbackend : config.backends.lookup job.job.distribution = some backend)
    (h : runJob W config now job = .ok report) :
    report.status = (overall W (rebuildWithHeartbeat W (contextOf config backend job))).1 := by
  obtain ⟨backend', hbackend', hstatus, -⟩ := runJob_ok h
  rw [hbackend] at hbackend'
  cases hbackend'
  exact hstatus

/-- All of one list satisfy a predicate if all of the other one satisfy the related one. -/
lemma forall_mem_congr {α β : Type} {P : α → Prop} {Q : β → Prop} {as : List α} {bs : List β}
    (h : List.Forall₂ (fun a b => Q b ↔ P a) as bs) : (∀ b ∈ bs, Q b) ↔ ∀ a ∈ as, P a := by
  induction h with
  | nil => simp
  | cons hab _ ih => rw [List.forall_mem_cons, List.forall_mem_cons, hab, ih]

/-- The verdicts of a rebuild are good if each file was found identical. -/
lemma rebuild_good {results : List RebuildArtifactReport} {log log' : Bytes}
    (h : rebuild W ctx log = (.ok results, log')) : ∃ b log₁, build W ctx log = (.ok b, log₁) ∧
      ((∀ r ∈ results, r.status = .good) ↔ ∀ x ∈ b.artifacts, FoundIdentical W ctx b x.2) := by
  obtain ⟨b, log₁, hbuild, hresults⟩ := bind_ok.mp h
  refine ⟨b, log₁, hbuild, forall_mem_congr ((mapM_ok hresults).imp ?_)⟩
  rintro x r ⟨log₂, log₃, hr⟩
  exact compareArtifact_good hr

/-- What a good report about a job with artifacts has verified. -/
lemma verified_of_good (hbackend : config.backends.lookup job.job.distribution = some backend)
    (hreport : runJob W config now job = .ok report) (hgood : report.status = .good)
    (hne : job.artifacts ≠ []) : Verified W (contextOf config backend job) := by
  rw [runJob_status hbackend hreport, overall_good] at hgood
  obtain ⟨results, log, hrebuild, hall⟩ := hgood
  obtain ⟨b, log₁, hbuild, hiff⟩ := rebuild_good hrebuild
  exact ⟨hne, b, log₁, hbuild, (build_ok hbuild).1, hiff.mp hall⟩

/-! ### A job without artifacts -/

/-- Without artifacts a rebuild succeeds as soon as the backend has run, and has no verdicts. -/
lemma rebuild_of_nil {url : String} (hnone : ctx.artifacts = []) (hurl : ctx.inputUrl = some url) :
    (∃ results log, rebuildWithHeartbeat W ctx = (.ok results, log) ∧
      ∀ r ∈ results, r.status = .good) ↔ inputFails W ctx.backend url = false := by
  have hdownloads : downloadArtifacts W ctx.artifacts = .ok ([], ∅) := by rw [hnone]; rfl
  have hinput : downloadInput W ctx [] ∅ = download W url ∅ := by unfold downloadInput; rw [hurl]
  unfold rebuildWithHeartbeat inputFails
  constructor
  · rintro ⟨results, log, h, -⟩
    obtain ⟨b, _, hbuild, -⟩ := bind_ok.mp h
    obtain ⟨_, _, hdirs, h⟩ := bind_ok.mp hbuild
    obtain ⟨⟨artifacts, dir⟩, _, hartifacts, h⟩ := bind_ok.mp h
    obtain ⟨⟨input, dir'⟩, _, hdown, h⟩ := bind_ok.mp h
    obtain ⟨_, _, -, h⟩ := bind_ok.mp h
    obtain ⟨outputs, _, hrun, -⟩ := bind_ok.mp h
    replace hartifacts := (orFail_ok.mp hartifacts).1
    rw [hdownloads] at hartifacts
    cases hartifacts
    replace hdown := (orFail_ok.mp hdown).1
    rw [hinput] at hdown
    simp [(orFail_ok.mp hdirs).1, hdown, (orFail_ok.mp hrun).1, Except.isOk, Except.toBool]
  · intro h
    obtain ⟨hdirs, hrun⟩ := Bool.or_eq_false_iff.mp h
    rcases hcreate : W.createDirs with e | ⟨⟩
    · simp [hcreate, Except.isOk, Except.toBool] at hdirs
    rcases hdown : download W url ∅ with e | ⟨input, dir⟩ <;> rw [hdown] at hrun
    · cases hrun
    rcases hout : (W.runBackend ctx.backend.path input dir).1 with e | outputs
    · simp [hout, Except.isOk, Except.toBool] at hrun
    have hbuild : build W ctx [] =
        (.ok ⟨[], dir, outputs⟩, [] ++ (W.runBackend ctx.backend.path input dir).2) :=
      bind_ok.mpr ⟨(), _, orFail_ok.mpr ⟨hcreate, rfl⟩,
        bind_ok.mpr ⟨([], ∅), _, orFail_ok.mpr ⟨hdownloads, rfl⟩,
          bind_ok.mpr ⟨(input, dir), _, orFail_ok.mpr ⟨hinput.trans hdown, rfl⟩,
            bind_ok.mpr ⟨(), _, rfl,
              bind_ok.mpr ⟨outputs, _, orFail_ok.mpr ⟨hout, rfl⟩, pure_ok.mpr ⟨rfl, rfl⟩⟩⟩⟩⟩⟩
    exact ⟨[], _, bind_ok.mpr ⟨_, _, hbuild, rfl⟩, by simp⟩

/-- A good report has verified something, unless it is about a job without artifacts. -/
lemma good_verified_iff (hbackend : config.backends.lookup job.job.distribution = some backend)
    (hreport : runJob W config now job = .ok report) :
    (report.status = .good → Verified W (contextOf config backend job)) ↔
      job.artifacts ≠ [] ∨ inputFails W backend job.job.url = true := by
  by_cases hnone : job.artifacts = []
  · have hunverified : ¬ Verified W (contextOf config backend job) := fun h => h.1 hnone
    have hartifacts : (contextOf config backend job).artifacts = [] := hnone
    have hnil := rebuild_of_nil (W := W) hartifacts rfl
    rw [← overall_good, ← runJob_status hbackend hreport] at hnil
    change _ ↔ inputFails W backend job.job.url = false at hnil
    rw [hnil]
    simp [hnone, hunverified]
  · exact iff_of_true (fun hgood => verified_of_good hbackend hreport hgood hnone) (.inl hnone)

/-! ### The artifacts of a build input -/

lemma jobArtifacts_ne_nil {q : Queued} {db : Db} :
    jobArtifacts q db ≠ [] ↔ ∃ p ∈ db.binaryPackages.rows, p.buildInputId = q.buildInputId := by
  simp [jobArtifacts, List.filter_eq_nil_iff]

/-- **A good report of the official worker has verified something exactly if the build input had
binary packages** when its job was handed out, or the build input cannot be built. -/
theorem goodIsVerified_iff (env : Env) (as : Schedule) (i : ℕ) (h : Headers)
    (r : PopQueuedJobRequest) (job : QueuedJobWithArtifacts) (W : World) (config : Config)
    (backend : Backend) (now : Time) (report : RebuildReport)
    (hjob : (runPool env as).answerOf i = some (.requestWork h r, .assignment (some job)))
    (hbackend : config.backends.lookup job.job.distribution = some backend)
    (hreport : runJob W config now job = .ok report) :
    ∃ pop ∈ trace env as, pop.thread = i ∧
      (∃ t w r', pop.toStep = ⟨t, .popJob w r', .ok (some job)⟩) ∧
      ∃ q ∈ pop.before.queue.rows, q.id = job.job.id ∧
        ((report.status = .good → Verified W (contextOf config backend job)) ↔
          (∃ p ∈ pop.before.binaryPackages.rows, p.buildInputId = q.buildInputId) ∨
            inputFails W backend job.job.url = true) := by
  obtain ⟨pop, hpop, hi, hstep, q, hq, b, -, -, s, hpopped⟩ := exists_pop hjob
  refine ⟨pop, hpop, hi, hstep, q, hq, by rw [hpopped]; rfl, ?_⟩
  have hartifacts : job.artifacts = jobArtifacts q pop.before := by rw [hpopped]
  rw [good_verified_iff hbackend hreport, hartifacts, jobArtifacts_ne_nil]

/-! ### One package with an artifact, and one without -/

/-- A package with these artifacts is imported, `alice` is handed its job and sends `report`. -/
def packageBuilt (artifacts : List BinaryPackageReport) (report : RebuildReport) : Schedule :=
  serveAt 0 (.submitPackageReport adminHeaders
    (debianReport [{ package "hello" "https://hello.buildinfo" with artifacts }])) 0 ++
  serveAt 1 (.requestWork (workerHeaders "alice") ⟨["debian"], "amd64", ["amd64"]⟩) (10 * second) ++
  serveAt 2 (.submitRebuildReport (workerHeaders "alice") report) (20 * second)

def builtJob (artifacts : List QueuedJobArtifact) : QueuedJobWithArtifacts where
  job := { helloJob.job with url := "https://hello.buildinfo" }
  artifacts := artifacts

def debianWorker : Config := ⟨[("debian", ⟨"/usr/libexec/rebuilder-debian.sh", none⟩)], false⟩

/-- The backend leaves what the first of the two pools has. -/
def rebuiltFirst : Outputs := fun name => if name = "hello.deb" then some (.file [1]) else none

def goodReport (artifacts : List RebuildArtifactReport) : RebuildReport :=
  ⟨1, 15 * second, [], .good, artifacts⟩

def helloDeb : BinaryPackageReport := ⟨"hello", "1.0", "amd64", "https://main/hello.deb"⟩
def helloGood : RebuildArtifactReport := ⟨"hello", none, none, .good⟩

theorem goodIsVerified_oneArtifact :
    ∃ pop ∈ trace (openDaemon none) (packageBuilt [helloDeb] (goodReport [helloGood])),
      pop.thread = 1 ∧
      (∃ t w r', pop.toStep = ⟨t, .popJob w r',
        .ok (some (builtJob [⟨"hello", "1.0", "amd64", "https://main/hello.deb"⟩]))⟩) ∧
      ∃ q ∈ pop.before.queue.rows, q.id = 1 ∧
        (((goodReport [helloGood]).status = .good →
            Verified (workerWith twoPools rebuiltFirst) (contextOf debianWorker
              ⟨"/usr/libexec/rebuilder-debian.sh", none⟩
              (builtJob [⟨"hello", "1.0", "amd64", "https://main/hello.deb"⟩]))) ↔
          (∃ p ∈ pop.before.binaryPackages.rows, p.buildInputId = q.buildInputId) ∨
            inputFails (workerWith twoPools rebuiltFirst) ⟨"/usr/libexec/rebuilder-debian.sh", none⟩
              "https://hello.buildinfo" = true) :=
  goodIsVerified_iff (openDaemon none) _ 1 (workerHeaders "alice")
    ⟨["debian"], "amd64", ["amd64"]⟩ _ (workerWith twoPools rebuiltFirst) debianWorker
    ⟨"/usr/libexec/rebuilder-debian.sh", none⟩ (15 * second) _ (by decide +kernel) rfl
    (by decide +kernel)

/-- **A package without artifacts becomes good** as soon as a worker has built it. -/
theorem emptyJob_good :
    (¬ ∀ (env : Env) (as : Schedule) (i : ℕ) (h : Headers) (r : PopQueuedJobRequest)
      (job : QueuedJobWithArtifacts) (W : World) (config : Config) (backend : Backend) (now : Time)
      (report : RebuildReport),
      (runPool env as).answerOf i = some (.requestWork h r, .assignment (some job)) →
        config.backends.lookup job.job.distribution = some backend →
          runJob W config now job = .ok report → report.status = .good →
            Verified W (contextOf config backend job)) ∧
      (sourcePackagesBase (runPool (openDaemon none) (packageBuilt [] (goodReport []))).state).map
        (fun s => (s.name, s.status)) = [("hello", some .good)] := by
  refine ⟨fun h => ?_, by decide +kernel⟩
  refine (h (openDaemon none) (packageBuilt [] (goodReport [])) 1 (workerHeaders "alice")
    ⟨["debian"], "amd64", ["amd64"]⟩ (builtJob []) (workerWith twoPools rebuiltFirst) debianWorker
    ⟨"/usr/libexec/rebuilder-debian.sh", none⟩ (15 * second) (goodReport []) (by decide +kernel) rfl
    (by decide +kernel) rfl).1 rfl

end Rebuilderd.Worker
