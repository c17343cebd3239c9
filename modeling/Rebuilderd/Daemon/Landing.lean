import Rebuilderd.Daemon.Reclaim

/-!
Where a report lands: on the build input that was handed out, and on its friends.

A queue id denotes one build input over the whole run, whatever is dropped and enqueued again,
and a build input keeps its url, its backend and its architecture.
-/

namespace Rebuilderd.Daemon

open Rebuilderd.Lib Rebuilderd.Common Prog

/-! ### What never changes -/

/-- The queue id `q` has been used, and every row that has it is of the build input `i`. -/
def Denotes (q i : ℕ) (db : Db) : Prop :=
  q ≤ db.queue.seq ∧ ∀ row ∈ db.queue.rows, row.id = q → row.buildInputId = i

lemma denotes_of_mem {db : Db} {row : Queued} (h : row ∈ db.queue.rows) :
    Denotes row.id row.buildInputId db :=
  ⟨db.queue.bound row h, fun row' h' hid => by rw [Table.eq_of_key h' h hid]⟩

lemma exec_denotes (env : Env) (q i : ℕ) (t : Time) (s : Stmt) (db : Db) (h : Denotes q i db) :
    Denotes q i ((exec env).answer t s db).2 := by
  obtain ⟨hseq, hrow⟩ := exec_queueIds env t s db
  refine ⟨h.1.trans hseq, fun row' hrow' hid => ?_⟩
  rcases hrow row' hrow' with ⟨row, hmem, hid', hb⟩ | hlt
  · exact hb ▸ h.2 row hmem (hid'.trans hid)
  · exact absurd hid (lt_of_le_of_lt h.1 hlt).ne'

section
variable {env : Env} {tr : List Event} {e e' : Event}

/-- Rows with one id are of one build input, whenever they are seen. -/
lemma queueId_agree (hh : History (exec env) justified env.start tr) (he : e ∈ tr) (he' : e' ∈ tr)
    {row row' : Queued} (hrow : row ∈ e.before.queue.rows) (hrow' : row' ∈ e'.before.queue.rows)
    (hid : row.id = row'.id) : row.buildInputId = row'.buildInputId := by
  rcases mem_order he he' with rfl | ⟨pre, mid, post, rfl⟩ | ⟨pre, mid, post, rfl⟩
  · rw [Table.eq_of_key hrow hrow' hid]
  · exact ((hh.between (exec_denotes env _ _) (denotes_of_mem hrow)).2 row' hrow' hid.symm).symm
  · exact (hh.between (exec_denotes env _ _) (denotes_of_mem hrow')).2 row hrow hid

/-- A build input is of one group, whenever it is seen. -/
lemma group_agree (hh : History (exec env) justified env.start tr) (he : e ∈ tr) (he' : e' ∈ tr)
    {i s s' : ℕ} {g g' : Group} (hi : (i, s, g) ∈ e.before.inputs)
    (hi' : (i, s', g') ∈ e'.before.inputs) : g = g' := by
  rcases mem_order he he' with rfl | ⟨pre, mid, post, rfl⟩ | ⟨pre, mid, post, rfl⟩
  · exact (inputs_inj hi hi').2
  · exact (inputs_inj (hh.between (I := fun db : Db => (i, s, g) ∈ db.inputs)
      (fun t s' db h => exec_inputs env t s' db _ h) hi) hi').2
  · exact (inputs_inj hi (hh.between (I := fun db : Db => (i, s', g') ∈ db.inputs)
      (fun t s' db h => exec_inputs env t s' db _ h) hi')).2

end

/-! ### The rebuilds a report inserts -/

/-- The build input a step has inserted a rebuild for. -/
def rebuiltInput : Step Stmt Stmt.Answer Err Time → Option ℕ
  | ⟨_, .insertRebuild new, .ok _⟩ => some new.buildInputId
  | _ => none

/-- The build inputs a handler has inserted rebuilds for, in order. -/
def rebuiltInputs (own : OwnSteps) : List ℕ := own.filterMap rebuiltInput

def Stmt.insertsRebuild : Stmt → Bool
  | .insertRebuild _ => true
  | _ => false

lemma rebuiltInputs_append_other {own : OwnSteps} {a : Step Stmt Stmt.Answer Err Time}
    (h : a.stmt.insertsRebuild = false) : rebuiltInputs (own ++ [a]) = rebuiltInputs own := by
  have hnone : rebuiltInput a = none := by
    obtain ⟨t, s, r⟩ := a
    cases s <;> first | rfl | cases h
  simp [rebuiltInputs, hnone]

/-- A rebuild is inserted only for a build input the handler has looked up as a friend. -/
def insertsForFriends (own : OwnSteps) (_ : Time) : Stmt → Prop
  | .insertRebuild new => ∃ i friends, Did own (.buildInputFriends i) friends ∧
      new.buildInputId ∈ friends
  | _ => True

lemma insertsForFriends_of_other (own : OwnSteps) (t : Time) {s : Stmt}
    (h : s.insertsRebuild = false) : insertsForFriends own t s := by
  cases s <;> trivial

/-- The handler found the row `q`, then looked up its friends, and has inserted rebuilds for
`done` since. -/
structure Inserting (r : RebuildReport) (q : Queued) (friends done : List ℕ) (own : OwnSteps) :
    Prop where
  looked : ∃ own₁ own₂ t, own = own₁ ++ ⟨t, .buildInputFriends q.buildInputId, .ok friends⟩ :: own₂ ∧
    Did own₁ (.findQueued r.queueId) q
  inserted : rebuiltInputs own = done

section
variable {r : RebuildReport} {q : Queued} {friends done : List ℕ} {own : OwnSteps}

lemma Inserting.append (h : Inserting r q friends done own) (a : Step Stmt Stmt.Answer Err Time) :
    Inserting r q friends (rebuiltInputs (own ++ [a])) (own ++ [a]) := by
  obtain ⟨own₁, own₂, t, rfl, hfound⟩ := h.looked
  exact ⟨⟨own₁, own₂ ++ [a], t, by simp, hfound⟩, rfl⟩

/-- A program that inserts no rebuild leaves the inserted ones as they are. -/
lemma keeps_inserting {α : Type} {p : Handler α} {ok : Stmt → Prop} (hp : Only ok p)
    (hok : ∀ s, ok s → s.insertsRebuild = false) :
    Keeps (.journal insertsForFriends) (Inserting r q friends done) p := by
  refine hp.keeps fun own t s hs h => ⟨insertsForFriends_of_other own t (hok s hs), ?_⟩
  rintro a own' rfl
  have happend := h.append ⟨t, s, a⟩
  rwa [rebuiltInputs_append_other (hok s hs), h.inserted] at happend

/-- One friend after the other gets its rebuild. -/
lemma wp_recordFriends (log : ℕ) (h : Inserting r q friends [] own) :
    wp (.journal insertsForFriends) (friends.foldlM (Handler.recordRebuild r q log) [])
      (fun own' _ => Inserting r q friends friends own') (fun _ _ => True) own := by
  have hloop := wp_foldlM (L := .journal insertsForFriends) (F := fun _ _ => True)
    (f := Handler.recordRebuild r q log)
    (fun own' (_ : Handler.ArtifactLogs) rest =>
      ∃ done, done ++ rest = friends ∧ Inserting r q friends done own')
    (fun own' logs friend rest => ?_) friends [] ⟨[], rfl, h⟩
  · refine wp_mono hloop (fun own' _ hown => ?_) fun _ _ _ => trivial
    obtain ⟨done, hdone, hown⟩ := hown
    rw [List.append_nil] at hdone
    exact hdone ▸ hown
  · rintro ⟨done, hdone, hown⟩
    refine (wp_bind _ _).mpr (wp_sql (fun _ => ?_) (fun t rebuild => ?_) fun _ _ => trivial)
    · obtain ⟨own₁, own₂, t, rfl, -⟩ := hown.looked
      refine ⟨q.buildInputId, friends, ⟨t, by simp⟩, ?_⟩
      rw [← hdone]
      simp
    have happend := hown.append ⟨t, .insertRebuild
      ⟨friend, q.startedAt, some r.builtAt, log, some r.status⟩, .ok rebuild⟩
    have hinserted : rebuiltInputs (own' ++ [⟨t, .insertRebuild
        ⟨friend, q.startedAt, some r.builtAt, log, some r.status⟩, .ok rebuild⟩]) =
          done ++ [friend] := by
      rw [rebuiltInputs, List.filterMap_append, ← rebuiltInputs, hown.inserted]
      rfl
    rw [hinserted] at happend
    refine wp_mono (keeps_inserting (.foldlM (only_recordArtifact rebuild) logs)
      (fun s hs => by cases s <;> first | rfl | cases hs) _ happend) (fun own'' _ h'' => ?_)
      fun _ _ _ => trivial
    exact ⟨done ++ [friend], by simpa using hdone, h''⟩

end

/-- A report that is accepted has inserted one rebuild for each of the friends it looked up. -/
lemma wp_submitRebuildReport (cfg : Config) (h : Headers) (r : RebuildReport) :
    wp (.journal insertsForFriends) (Handler.submitRebuildReport cfg h r)
      (fun own a => a = .noContent → ∃ q friends, Inserting r q friends friends own)
      (fun _ _ => True) [] := by
  have hauth : Keeps (.journal insertsForFriends) (fun own : OwnSteps => rebuiltInputs own = [])
      (Handler.worker cfg h) := by
    refine (only_worker cfg h).keeps fun own t s hs hown => ?_
    have hother : s.insertsRebuild = false := by cases s <;> first | rfl | cases hs
    refine ⟨insertsForFriends_of_other own t hother, ?_⟩
    rintro a own' rfl
    rw [rebuiltInputs_append_other hother, hown]
  refine (wp_bind _ _).mpr ((wp_attempt _).mpr (wp_mono (hauth [] rfl) (fun own w hown => ?_)
    fun _ _ _ => nofun))
  refine (wp_bind _ _).mpr (wp_sql (fun _ => trivial) (fun t q => ?_) fun _ _ => trivial)
  refine (wp_bind _ _).mpr ((wp_bind _ _).mpr (wp_sql (fun _ => trivial) (fun t' friends => ?_)
    fun _ _ => trivial))
  have hlooked : Inserting r q friends [] (own ++ [⟨t, .findQueued r.queueId, .ok q⟩] ++
      [⟨t', .buildInputFriends q.buildInputId, .ok friends⟩]) := by
    refine ⟨⟨_, [], t', rfl, did_last _ _ _ _⟩, ?_⟩
    rw [rebuiltInputs_append_other rfl, rebuiltInputs_append_other rfl, hown]
  have hencode := keeps_inserting
    (only_encode r.buildLog) (fun s hs => hs ▸ rfl) _ hlooked
  refine (wp_bind _ _).mpr (wp_mono hencode (fun own₁ encoded h₁ => ?_) fun _ _ _ => trivial)
  refine (wp_bind _ _).mpr (wp_sql (fun _ => trivial) (fun t log => ?_) fun _ _ => trivial)
  have h₂ := h₁.append ⟨t, .insertBuildLog encoded, .ok log⟩
  rw [rebuiltInputs_append_other rfl, h₁.inserted] at h₂
  refine (wp_bind _ _).mpr (wp_mono (wp_recordFriends log h₂) (fun own₂ _ h₃ => ?_)
    fun _ _ _ => trivial)
  have hdelete : Only (fun s : Stmt => s.insertsRebuild = false) (do
      let _ ← sql (.deleteQueued [q.id])
      if r.status ≠ .good then Handler.retry cfg q friends) := by
    refine .bind (.stmt rfl) fun _ => ?_
    split
    · exact (only_retry cfg q friends).mono fun s hs => by cases s <;> first | rfl | cases hs
    · exact .pure _
  exact wp_mono (keeps_inserting hdelete (fun s hs => hs) _ h₃) (fun own₃ _ h₄ _ => ⟨q, friends, h₄⟩)
    fun _ _ _ => trivial

lemma submitRebuildReport_inserted (cfg : Config) (c : Call) :
    wp (.journal insertsForFriends) (handler cfg c)
      (fun own a => ∀ h r, c = .submitRebuildReport h r → a = .noContent →
        ∃ q friends, Inserting r q friends friends own)
      (fun _ _ => True) [] := by
  cases c with
  | submitRebuildReport h r =>
    refine wp_mono (wp_submitRebuildReport cfg h r) (fun own a hown h' r' hc => ?_) fun _ _ _ => trivial
    cases hc
    exact hown
  | _ =>
    refine wp_mono (wp_rules (handler_justified cfg _) (fun own t s hs => ?_) fun _ _ _ _ _ h => h)
      (fun own a _ h r hc => nomatch hc) fun _ _ _ => trivial
    refine insertsForFriends_of_other own t ?_
    cases s with
    | insertRebuild new =>
      obtain ⟨q, h, r, hc, -⟩ := hs
      cases hc
    | _ => rfl

/-! ### The build input of a job -/

/-- Call `i` was handed the job of the queue row of `b`. -/
def HandedOut (env : Env) (as : Schedule) (i : ℕ) (job : QueuedJobWithArtifacts) (b : BuildInput) :
    Prop :=
  ∃ pop ∈ trace env as, pop.thread = i ∧
    (∃ t w r, pop.toStep = ⟨t, .popJob w r, .ok (some job)⟩) ∧
    (∃ row ∈ pop.before.queue.rows, row.id = job.job.id ∧ row.buildInputId = b.id) ∧
    b ∈ pop.before.buildInputs.rows ∧ b.group = ⟨job.job.url, job.job.backend, job.job.architecture⟩

/-- A job that a call was handed was available to it when it was popped. -/
lemma exists_available {env : Env} {as : Schedule} {i : ℕ} {h : Headers} {r : PopQueuedJobRequest}
    {job : QueuedJobWithArtifacts}
    (hjob : (runPool env as).answerOf i = some (.requestWork h r, .assignment (some job))) :
    ∃ pop ∈ trace env as, pop.thread = i ∧ ∃ t w, pop.toStep = ⟨t, .popJob w r, .ok (some job)⟩ ∧
      ∃ row ∈ availableJobs r t pop.before,
        job = ⟨queuedJob row, jobArtifacts row.1 pop.before⟩ := by
  obtain ⟨own', t₁, cutoff, t₂, w, hown⟩ :=
    (Pool.outcome (requestWork_popped env.config) env.start as hjob).1 h r rfl _ rfl
  obtain ⟨pre, pop, post, htr, hi, hpop, -, -⟩ := own_append_cons hown
  have hh := trace_history env as
  change trace env as = _ at htr
  have hmem : pop ∈ trace env as := by rw [htr]; simp
  rw [htr] at hh
  obtain ⟨-, hans, -, -⟩ := hh.event
  refine ⟨pop, hmem, hi, t₂, w, hpop, ?_⟩
  obtain ⟨⟨t, s, a⟩, j, c, db⟩ := pop
  cases hpop
  have hjob' : (popJob env.ties w r t₂ db).1 = some job := (Except.ok.inj hans).symm
  rcases popJob_cases env.ties w r t₂ db with ⟨row, hrow, h⟩ | h <;> rw [h] at hjob'
  · cases hjob'
    exact ⟨row, hrow, rfl⟩
  · cases hjob'

/-- A job that a call was handed is that of a queue row, with the artifacts its build input has. -/
lemma exists_pop {env : Env} {as : Schedule} {i : ℕ} {h : Headers} {r : PopQueuedJobRequest}
    {job : QueuedJobWithArtifacts}
    (hjob : (runPool env as).answerOf i = some (.requestWork h r, .assignment (some job))) :
    ∃ pop ∈ trace env as, pop.thread = i ∧
      (∃ t w r, pop.toStep = ⟨t, .popJob w r, .ok (some job)⟩) ∧
      ∃ q ∈ pop.before.queue.rows, ∃ b ∈ pop.before.buildInputs.rows, b.id = q.buildInputId ∧
        ∃ s, job = ⟨queuedJob (q, b, s), jobArtifacts q pop.before⟩ := by
  obtain ⟨pop, hmem, hi, t, w, hpop, ⟨q, b, s⟩, hrow, hjob⟩ := exists_available hjob
  obtain ⟨hq, -, hb, hid⟩ := mem_availableJobs hrow
  exact ⟨pop, hmem, hi, ⟨t, w, r, hpop⟩, q, hq, b, hb, hid, s, hjob⟩

lemma exists_handedOut {env : Env} {as : Schedule} {i : ℕ} {h : Headers} {r : PopQueuedJobRequest}
    {job : QueuedJobWithArtifacts}
    (hjob : (runPool env as).answerOf i = some (.requestWork h r, .assignment (some job))) :
    ∃ b, HandedOut env as i job b := by
  obtain ⟨pop, hpop, hi, hstep, q, hq, b, hb, hid, s, rfl⟩ := exists_pop hjob
  exact ⟨b, pop, hpop, hi, hstep, ⟨q, hq, rfl, hid.symm⟩, hb, rfl⟩

/-- **A report lands on what was handed out**: the rebuilds an accepted report about a job inserts
are one for each build input that has the url, the backend and the architecture of the job when
the handler looks its friends up; the build input that was handed out is one of them. -/
theorem reportLands (env : Env) (as : Schedule) (i k : ℕ) (h h' : Headers)
    (r : PopQueuedJobRequest) (job : QueuedJobWithArtifacts) (report : RebuildReport)
    (hjob : (runPool env as).answerOf i = some (.requestWork h r, .assignment (some job)))
    (hreport : (runPool env as).answerOf k = some (.submitRebuildReport h' report, .noContent))
    (hid : report.queueId = job.job.id) :
    ∃ b, HandedOut env as i job b ∧
      ∃ lookup ∈ trace env as, lookup.thread = k ∧ lookup.stmt = .buildInputFriends b.id ∧
        rebuiltInputs (own k (trace env as)) = (lookup.before.buildInputs.rows.filter fun c =>
          c.group == ⟨job.job.url, job.job.backend, job.job.architecture⟩).map (·.id) ∧
        b.id ∈ rebuiltInputs (own k (trace env as)) := by
  obtain ⟨b, hhanded⟩ := exists_handedOut hjob
  refine ⟨b, hhanded, ?_⟩
  obtain ⟨pop, hpop, -, -, ⟨row, hrow, hrowid, hrowb⟩, hb, hgroup⟩ := hhanded
  obtain ⟨q, friends, ⟨own₁, own₂, t, hown, hfound⟩, hinserted⟩ :=
    (Pool.outcome (submitRebuildReport_inserted env.config) env.start as hreport).1 h' report rfl rfl
  change own k (trace env as) = _ at hown
  change rebuiltInputs (own k (trace env as)) = _ at hinserted
  have hh := trace_history env as
  obtain ⟨pre, lookup, post, htr, hk, hlookup, hpre, -⟩ := own_append_cons hown
  have hmem : lookup ∈ trace env as := by rw [htr]; simp
  -- The handler found a row of the build input that was handed out.
  rw [← hpre] at hfound
  obtain ⟨pre', found, mid, hpre', -, t', hfstep⟩ := did_event hfound
  have hfmem : found ∈ trace env as := by rw [htr, hpre']; simp
  have hfans : found.answer = ((exec env).answer found.input found.stmt found.before).1 := by
    rw [htr, hpre', List.append_assoc] at hh
    exact hh.event.2.1
  have hq : q ∈ found.before.queue.rows ∧ q.id = report.queueId := by
    obtain ⟨⟨t₀, s, a⟩, j, c, db⟩ := found
    cases hfstep
    obtain ⟨hq, hqid, -⟩ := exec_findQueued (Exec.answer_ok.mp (Prod.ext hfans.symm rfl))
    exact ⟨hq, hqid⟩
  have hinput : q.buildInputId = b.id := by
    rw [← hrowb]
    exact queueId_agree hh hfmem hpop hq.1 hrow (hq.2.trans (hid.trans hrowid.symm))
  -- That build input is there when its friends are looked up, in the same group.
  have hbeg : History (exec env) justified env.start (pre ++ lookup :: post) := htr ▸ hh
  obtain ⟨hbefore, hans, -, -⟩ := hbeg.event
  obtain ⟨s, g, hin⟩ : HasInput b.id lookup.before := by
    rw [hbefore, ← hinput]
    exact (inputs_exist hbeg.of_append).found found (by rw [hpre']; simp) t' _ q hfstep
  have hg : g = ⟨job.job.url, job.job.backend, job.job.architecture⟩ := by
    rw [← hgroup]
    exact group_agree hh hmem hpop hin (mem_inputs.mpr ⟨b, hb, rfl, rfl, rfl⟩)
  subst hg
  obtain ⟨b', hb', hb'id, -, hb'g⟩ := mem_inputs.mp hin
  have hfriends : friends = buildInputFriends lookup.before b.id := by
    obtain ⟨⟨t₀, s, a⟩, j, c, db⟩ := lookup
    cases hlookup
    rw [← hinput]
    exact Except.ok.inj hans
  refine ⟨lookup, hmem, hk, ?_, ?_, ?_⟩
  · rw [← hinput]
    obtain ⟨⟨t₀, s, a⟩, j, c, db⟩ := lookup
    cases hlookup
    rfl
  · rw [hinserted, hfriends, ← hb'id, buildInputFriends_eq hb', hb'g]
  · rw [hinserted, hfriends, ← hb'id]
    exact self_mem_buildInputFriends hb'

/-- `alice` is handed a job, the package is imported for another release, and `alice` reports. -/
def friendImported : Schedule :=
  handedOut ++
  serveAt 2 (.submitPackageReport adminHeaders { debianReport [package "hello" "https://hello"] with
    release := some "sid" }) (15 * second) ++
  serveAt 3 (reportBy "alice" .good) (20 * second)

def helloJob : QueuedJobWithArtifacts where
  job :=
    { id := 1
      name := "hello"
      version := "1.0"
      distribution := "debian"
      release := none
      component := none
      architecture := "amd64"
      backend := "debian"
      url := "https://hello"
      nextRetry := none
      priority := Priority.default
      queuedAt := 0
      startedAt := none }
  artifacts := []

theorem reportLands_friendImported :
    ∃ b, HandedOut (openDaemon none) friendImported 1 helloJob b ∧
      ∃ lookup ∈ trace (openDaemon none) friendImported, lookup.thread = 3 ∧
        lookup.stmt = .buildInputFriends b.id ∧
        rebuiltInputs (own 3 (trace (openDaemon none) friendImported)) =
          (lookup.before.buildInputs.rows.filter fun c =>
            c.group == ⟨"https://hello", "debian", "amd64"⟩).map (·.id) ∧
        b.id ∈ rebuiltInputs (own 3 (trace (openDaemon none) friendImported)) :=
  reportLands (openDaemon none) friendImported 1 3 (workerHeaders "alice") (workerHeaders "alice")
    ⟨["debian"], "amd64", ["amd64"]⟩ helloJob ⟨1, 0, [], .good, []⟩ (by decide +kernel)
    (by decide +kernel) rfl

/-- Both releases get the rebuild. -/
example : rebuiltInputs (own 3 (trace (openDaemon none) friendImported)) = [1, 2] := by
  decide +kernel

end Rebuilderd.Daemon
