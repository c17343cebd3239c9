import Rebuilderd.Daemon.Offers
import Rebuilderd.Worker.Verified

/-!
What it means that the daemon calls an artifact good, from the package report that lists it, over
the job that is handed out, the rebuild and its report, to the verdict that is stored and copied.
-/

namespace Rebuilderd.Worker

open Rebuilderd.Common Rebuilderd.Lib Rebuilderd.Daemon

/-- A rebuild of a worker: where it ran and how it was configured, when and about which job. -/
structure WorkerRun where
  world : World
  config : Config
  now : Time
  job : QueuedJobWithArtifacts

/-- Each report is what a worker has made of a job that it was handed; `runs` is that rebuild for
the call that submits the report. -/
def MadeByWorkers (env : Env) (as : Schedule) (runs : ℕ → WorkerRun) : Prop :=
  ∀ e ∈ trace env as, ∀ h r, e.call = .submitRebuildReport h r →
    runJob (runs e.thread).world (runs e.thread).config (runs e.thread).now (runs e.thread).job =
      .ok r ∧
    ∃ i h' r', (runPool env as).answerOf i =
      some (.requestWork h' r', .assignment (some (runs e.thread).job))

/-- The backend was run on the build input of the job, and what it left under the file name of the
artifact was found identical to what was downloaded there last. -/
def Reproduced (x : WorkerRun) (a : QueuedJobArtifact) : Prop :=
  ∃ backend b log f, x.config.backends.lookup x.job.job.distribution = some backend ∧
    build x.world (contextOf x.config backend x.job) [] = (.ok b, log) ∧
    filenameOf x.world a.url = .ok f ∧
    b.inputs.lookup f = lastServed x.world (contextOf x.config backend x.job).urls f ∧
    FoundIdentical x.world (contextOf x.config backend x.job) b f

/-- The rebuild was about a job of the group, and has reproduced an artifact of this name that a
committed package report lists. -/
structure Vouches (tr : List Event) (x : WorkerRun) (g : Group) (name : String) : Prop where
  group : g = ⟨x.job.job.url, x.job.job.backend, x.job.job.architecture⟩
  reproduced : ∃ a ∈ x.job.artifacts, a.name = name ∧ Reproduced x a ∧
    ∃ p ∈ committed tr, Offers p g a.name a.version a.url

/-! ### The verdicts of a report -/

section
variable {W : World} {config : Config} {ctx : Context} {now : Time} {job : QueuedJobWithArtifacts}
  {report : RebuildReport}

lemma runJob_queueId (h : runJob W config now job = .ok report) : report.queueId = job.job.id := by
  unfold runJob at h
  split at h
  · cases h
  · rename_i backend _
    dsimp only at h
    rcases hlog : W.zstdCompress (W.sanitize
      (overall W (rebuildWithHeartbeat W (contextOf config backend job))).2.2) with e | bytes
    · simp [hlog, bind, Except.bind] at h
    · simp only [hlog, bind, Except.bind, pure, Except.pure, Except.ok.injEq] at h
      rw [← h]

/-- A verdict has the name of its artifact. -/
lemma compareArtifact_name {b : Build} {x : QueuedJobArtifact × String} {r : RebuildArtifactReport}
    {log log' : Bytes} (h : compareArtifact W ctx b x log = (.ok r, log')) : r.name = x.1.name := by
  obtain ⟨verdict, log₁, -, h⟩ := bind_ok.mp h
  rcases verdict with _ | _ | _
  · obtain ⟨rfl, -⟩ := pure_ok.mp h
    rfl
  · obtain ⟨diff, log₂, -, h⟩ := bind_ok.mp h
    obtain ⟨rfl, -⟩ := pure_ok.mp h
    rfl
  · obtain ⟨link, log₂, -, h⟩ := bind_ok.mp h
    obtain ⟨rfl, -⟩ := pure_ok.mp h
    rfl

/-- What is reported as good was reproduced. -/
lemma reproduced_of_good {x : WorkerRun}
    (h : runJob x.world x.config x.now x.job = .ok report) {r : RebuildArtifactReport}
    (hr : r ∈ report.artifacts) (hgood : r.status = .good) :
    ∃ a ∈ x.job.artifacts, a.name = r.name ∧ Reproduced x a := by
  obtain ⟨backend, hbackend, -, hartifacts⟩ := runJob_ok h
  rw [hartifacts] at hr
  rcases hresult : rebuildWithHeartbeat x.world (contextOf x.config backend x.job) with
    ⟨e | results, log⟩ <;> rw [hresult] at hr
  · simp [overall] at hr
  · replace hr : r ∈ results := by simpa [overall] using hr
    obtain ⟨b, log₁, hbuild, hresults⟩ := bind_ok.mp hresult
    obtain ⟨hmap, hdone, hinputs⟩ := build_ok hbuild
    obtain ⟨y, hy, log₂, log₃, hcompare⟩ := exists_of_forall₂ (mapM_ok hresults).flip hr
    refine ⟨y.1, ?_, (compareArtifact_name hcompare).symm, backend, b, log₁, y.2, hbackend, hbuild,
      (hdone y hy).1, hinputs _, (compareArtifact_good hcompare).mp hgood⟩
    have hlisted : y.1 ∈ b.artifacts.map (·.1) := List.mem_map_of_mem hy
    rw [hmap] at hlisted
    exact hlisted

end

/-! ### Runs -/

lemma mem_committed_append {tr tr' : List Event} {r : PackageReport} (h : r ∈ committed tr) :
    r ∈ committed (tr ++ tr') := by
  unfold committed at h ⊢
  rw [List.mem_reverse] at h ⊢
  rw [List.filterMap_append]
  exact List.mem_append_left _ h

section
variable {env : Env} {as : Schedule} {i : ℕ} {h : Headers} {r : PopQueuedJobRequest}
  {job : QueuedJobWithArtifacts}

/-- What a job that was handed out is about: a queue row, its build input, and artifacts that
committed reports list for it. -/
lemma exists_handed
    (hjob : (runPool env as).answerOf i = some (.requestWork h r, .assignment (some job))) :
    ∃ pop ∈ trace env as, ∃ q ∈ pop.before.queue.rows, q.id = job.job.id ∧
      ∃ s g, (q.buildInputId, s, g) ∈ pop.before.inputs ∧
        g = ⟨job.job.url, job.job.backend, job.job.architecture⟩ ∧
        ∀ a ∈ job.artifacts, ∃ p ∈ committed (trace env as), Offers p g a.name a.version a.url := by
  obtain ⟨pop, hpop, -, -, q, hq, b, hb, hid, s, rfl⟩ := exists_pop hjob
  have hin : (q.buildInputId, b.sourcePackageId, b.group) ∈ pop.before.inputs :=
    mem_inputs.mpr ⟨b, hb, hid, rfl, rfl⟩
  refine ⟨pop, hpop, q, hq, rfl, _, _, hin, rfl, fun a ha => ?_⟩
  obtain ⟨p, hp, rfl⟩ := List.mem_map.mp ha
  obtain ⟨hp, hinput⟩ := List.mem_filter.mp hp
  obtain ⟨pre, post, htr⟩ := List.append_of_mem hpop
  have hh := trace_history env as
  rw [htr] at hh ⊢
  have hbinary : HasBinary pop.before b.group p.name p.version p.artifactUrl :=
    ⟨p, hp, rfl, rfl, rfl, _, (beq_iff_eq.mp hinput).symm ▸ hin⟩
  rw [hh.event.1] at hbinary
  obtain ⟨report, hreport, hoffers⟩ := offers_of_hasBinary hh.of_append hbinary
  exact ⟨report, mem_committed_append hreport, hoffers⟩

end

/-- **Good means reproduced**: in every run in which all reports are made by workers, each good
artifact of a build input comes from the report of a worker about a job with the url, the backend
and the architecture of this build input. The worker was handed this job, has run its backend on it,
and found what was left identical to an artifact of that name, as a committed package report has
listed it. -/
theorem good_reproduced (env : Env) (as : Schedule) (runs : ℕ → WorkerRun)
    (h : MadeByWorkers env as runs) :
    let db := (runPool env as).state
    ∀ b ∈ db.buildInputs.rows, ∀ r ∈ db.rebuilds.rows, r.buildInputId = b.id →
      ∀ a ∈ db.rebuildArtifacts.rows, a.rebuildId = r.id → a.status = some .good →
        ∃ e ∈ trace env as, (∃ hd report, e.call = .submitRebuildReport hd report ∧
          ∃ x ∈ report.artifacts, x.name = a.name ∧ x.status = .good) ∧
            Vouches (trace env as) (runs e.thread) b.group a.name := by
  intro db b hb r hr hinput a ha hrebuild hgood
  have hgoodFor : GoodFor (runPool env as).state b.group a.name :=
    ⟨a, ha, rfl, hgood, r, hr, hrebuild.symm, _, mem_inputs.mpr ⟨b, hb, hinput.symm, rfl, rfl⟩⟩
  obtain ⟨e, he, hd, report, hc, ⟨x, hx, hname, hstatus⟩, found, hfound, q, hq, hqid, s, hin⟩ :=
    judged_of_good hgoodFor
  obtain ⟨hrun, i, h', r', hjob⟩ := h e he hd report hc
  obtain ⟨pop, hpop, q', hq', hqid', s', g, hin', hg, hoffered⟩ := exists_handed hjob
  -- The report is about the job that was handed out, so it is about its build input.
  have hsame : q.buildInputId = q'.buildInputId :=
    queueId_agree (trace_history env as) hfound hpop hq hq'
      (hqid.trans ((runJob_queueId hrun).trans hqid'.symm))
  rw [← hsame] at hin'
  obtain rfl : b.group = g := group_agree (trace_history env as) hfound hpop hin hin'
  obtain ⟨y, hy, hyname, hreproduced⟩ := reproduced_of_good hrun hx hstatus
  exact ⟨e, he, ⟨hd, report, hc, x, hx, hname, hstatus⟩, hg, y, hy, hyname.trans hname, hreproduced,
    hoffered y hy⟩

/-- `alice` rebuilds `hello` from the first of the two pools. -/
def helloRun : WorkerRun :=
  ⟨workerWith twoPools rebuiltFirst, debianWorker, 15 * second,
    builtJob [⟨"hello", "1.0", "amd64", "https://main/hello.deb"⟩]⟩

def helloBuilt : Schedule := packageBuilt [helloDeb] (goodReport [helloGood])

/-- The event is of a request that is no report, or of this one. -/
def reportsOnly (report : RebuildReport) (e : Event) : Bool :=
  match e.call with
  | .submitRebuildReport _ r => r == report
  | _ => true

lemma helloBuilt_madeByWorkers : MadeByWorkers (openDaemon none) helloBuilt fun _ => helloRun := by
  have hall : (trace (openDaemon none) helloBuilt).all (reportsOnly (goodReport [helloGood])) = true := by
    decide +kernel
  have hrun : runJob helloRun.world helloRun.config helloRun.now helloRun.job =
      .ok (goodReport [helloGood]) := by decide +kernel
  have hjob : (runPool (openDaemon none) helloBuilt).answerOf 1 =
      some (.requestWork (workerHeaders "alice") ⟨["debian"], "amd64", ["amd64"]⟩,
        .assignment (some helloRun.job)) := by decide +kernel
  intro e he h r hc
  have honly := List.all_eq_true.mp hall e he
  rw [reportsOnly, hc] at honly
  rw [beq_iff_eq.mp honly]
  exact ⟨hrun, 1, _, _, hjob⟩

theorem good_reproduced_helloBuilt :
    let db := (runPool (openDaemon none) helloBuilt).state
    db.rebuildArtifacts.rows.map (fun a => (a.name, a.status)) = [("hello", some .good)] ∧
      ∀ b ∈ db.buildInputs.rows, ∀ r ∈ db.rebuilds.rows, r.buildInputId = b.id →
        ∀ a ∈ db.rebuildArtifacts.rows, a.rebuildId = r.id → a.status = some .good →
          ∃ e ∈ trace (openDaemon none) helloBuilt, (∃ hd report,
            e.call = .submitRebuildReport hd report ∧
              ∃ x ∈ report.artifacts, x.name = a.name ∧ x.status = .good) ∧
                Vouches (trace (openDaemon none) helloBuilt) helloRun b.group a.name :=
  ⟨by decide +kernel, good_reproduced (openDaemon none) helloBuilt (fun _ => helloRun)
    helloBuilt_madeByWorkers⟩

end Rebuilderd.Worker
