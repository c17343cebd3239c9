import Rebuilderd.Daemon.Leases

/-!
What a report is recorded after, and how often.

`submit_rebuild_report` looks for a queue row of that id, whoever sends the report, and then
records it statement by statement. So it is recorded by every handler that looked before another
one deleted the row.
-/

namespace Rebuilderd.Daemon

open Rebuilderd.Lib Rebuilderd.Common Prog

/-! ### What a report reads and writes -/

/-- The statements that record a report. -/
def Stmt.records : Stmt → Bool
  | .insertBuildLog _ | .insertRebuild _ | .insertDiffoscopeLog _ | .insertAttestationLog _
  | .insertRebuildArtifact _ | .deleteQueued _ | .incrementRetries _ | .setNextRetry _ _
  | .deleteQueuedOf _ | .upsertQueued _ => true
  | _ => false

/-- The statement looks up the queue row `q` and finds it. -/
def findsRow (q : ℕ) (e : Event) : Bool :=
  match e.toStep with
  | ⟨_, .findQueued id, .ok _⟩ => id == q
  | _ => false

/-- The queue row `q` is assigned to the worker with this key. -/
def assignedTo (q : ℕ) (key : String) (db : Db) : Bool :=
  db.queue.rows.any fun row => row.id == q &&
    db.workers.rows.any fun w => w.key == key && row.worker == some w.id

lemma findsRow_of_did {q : ℕ} {e : Event} {t : Time} {a : Queued}
    (h : e.toStep = ⟨t, .findQueued q, .ok a⟩) : findsRow q e = true := by
  simp [findsRow, h]

section
variable {env : Env} {tr pre post : List Event} {e : Event}

lemma findsRow_iff {q : ℕ} : findsRow q e = true ↔ ∃ t a, e.toStep = ⟨t, .findQueued q, .ok a⟩ := by
  constructor
  · intro h
    obtain ⟨⟨t, s, a⟩, i, c, db⟩ := e
    cases s with
    | findQueued id =>
      rcases a with err | a
      · cases h
      · obtain rfl : id = q := by simpa [findsRow] using h
        exact ⟨t, a, rfl⟩
    | _ => cases h
  · rintro ⟨t, a, h⟩
    exact findsRow_of_did h

/-- A lookup that finds a row has found one that is there. -/
lemma mem_of_findsRow {q : ℕ} (hans : e.answer = ((exec env).answer e.input e.stmt e.before).1)
    (h : findsRow q e = true) : ∃ row ∈ e.before.queue.rows, row.id = q := by
  obtain ⟨t, a, he⟩ := findsRow_iff.mp h
  obtain ⟨⟨t, s, a⟩, i, c, db⟩ := e
  cases he
  obtain ⟨ha, hid, -⟩ := exec_findQueued (Exec.answer_ok.mp (Prod.ext hans.symm rfl))
  exact ⟨a, ha, hid⟩

/-- A report is recorded only after its handler has found the queue row. -/
lemma finds_of_records (hh : History (exec env) justified env.start (pre ++ e :: post))
    {h : Headers} {r : RebuildReport} (hc : e.call = .submitRebuildReport h r)
    (hs : e.stmt.records = true) :
    ∃ pre' l post', pre = pre' ++ l :: post' ∧ l.thread = e.thread ∧ findsRow r.queueId l = true := by
  obtain ⟨-, -, hjust, -⟩ := hh.event
  suffices ∃ q, FoundRow (own e.thread pre) e.call q by
    obtain ⟨q, h', r', hc', hdid⟩ := this
    obtain ⟨rfl, rfl⟩ : h = h' ∧ r = r' := by simpa [hc] using hc'
    obtain ⟨pre', l, post', rfl, hl, t, hstep⟩ := did_event hdid
    exact ⟨pre', l, post', rfl, hl, findsRow_of_did hstep⟩
  rw [hc] at hjust ⊢
  generalize e.stmt = s at hs hjust
  cases s with
  | deleteQueued ids =>
    rcases hjust with ⟨q, hq, -⟩ | ⟨_, -, hd⟩ | ⟨_, _, _, hd, -⟩
    · exact ⟨q, hq⟩
    · cases hd
    · cases hd
  | upsertQueued new =>
    rcases hjust with ⟨q, hq, -⟩ | ⟨_, _, _, hd, -⟩
    · exact ⟨q, hq⟩
    · cases hd
  | setNextRetry ids t =>
    rcases hjust with hq | ⟨_, _, hd⟩
    · exact hq
    · cases hd
  | insertBuildLog | insertRebuild | insertDiffoscopeLog | insertAttestationLog
  | insertRebuildArtifact | incrementRetries | deleteQueuedOf => exact hjust
  | _ => cases hs

end

/-! ### Whom a row is assigned to -/

/-- A row is assigned through the row of the worker, which is found by its key. -/
lemma assignedTo_iff_row {q : ℕ} {key : String} {db : Db} : assignedTo q key db = true ↔
    ∃ row ∈ db.queue.rows, row.id = q ∧ ∃ id, row.worker = some id ∧ HasWorker key id db.workers := by
  simp only [assignedTo, List.any_eq_true, Bool.and_eq_true, beq_iff_eq, HasWorker]
  constructor
  · rintro ⟨row, hrow, hid, w, hw, hkey, hwork⟩
    exact ⟨row, hrow, hid, w.id, hwork, w, hw, hkey, rfl⟩
  · rintro ⟨row, hrow, hid, _, hwork, w, hw, hkey, rfl⟩
    exact ⟨row, hrow, hid, w, hw, hkey, hwork⟩

lemma assignedTo_iff {ws : Table Worker} {db : Db} {row : Queued} (hrow : row ∈ db.queue.rows)
    (hws : db.workers = ws) {key : String} {l : Option (String × Time)} (hl : HasLease ws row l) :
    assignedTo row.id key db = true ↔ ∃ ping, l = some (key, ping) := by
  subst hws
  have hassigned : assignedTo row.id key db = true ↔
      ∃ id, row.worker = some id ∧ HasWorker key id db.workers := by
    rw [assignedTo_iff_row]
    constructor
    · rintro ⟨row', hrow', hid, h⟩
      rwa [Table.eq_of_key hrow' hrow hid] at h
    · exact fun h => ⟨row, hrow, rfl, h⟩
  rw [hassigned]
  rcases l with _ | ⟨key', ping⟩
  · simp [hl.1]
  · obtain ⟨⟨id, hid, hkey'⟩, -⟩ := hl
    constructor
    · rintro ⟨id', hid', hkey⟩
      obtain rfl : id = id' := by simpa [hid] using hid'
      exact ⟨ping, by rw [hkey.key_eq hkey']⟩
    · rintro ⟨_, h⟩
      obtain ⟨rfl, -⟩ : key' = key ∧ _ := by simpa using h
      exact ⟨id, hid, hkey'⟩

/-! ### A result is recorded once -/

/-- The statement inserts a rebuild or increments retries, for a report about the job `q`. -/
def recordsResult (q : ℕ) (e : Event) : Bool :=
  match e.call, e.stmt with
  | .submitRebuildReport _ r, .insertRebuild _ => r.queueId == q
  | .submitRebuildReport _ r, .incrementRetries _ => r.queueId == q
  | _, _ => false

/-- One handler at most records a result of the job `q`. -/
def RecordedOnce (q : ℕ) (tr : List Event) : Prop :=
  ∀ e ∈ tr, ∀ e' ∈ tr, recordsResult q e = true → recordsResult q e' = true →
    e.thread = e'.thread

def deletesRow (q : ℕ) (e : Event) : Bool :=
  match e.stmt with
  | .deleteQueued ids => ids.contains q
  | _ => false

/-- When a handler finds the queue row `q`, every handler that found it before has deleted it. -/
def DeletedBeforeFound (q : ℕ) (tr : List Event) : Prop :=
  ∀ pre l mid l' post, tr = pre ++ l :: mid ++ l' :: post → findsRow q l = true →
    findsRow q l' = true → l.thread ≠ l'.thread →
      ∃ d ∈ mid, d.thread = l.thread ∧ deletesRow q d = true

section
variable {env : Env} {tr pre post : List Event} {e : Event}

lemma finds_of_recordsResult (hh : History (exec env) justified env.start tr) {q : ℕ}
    (he : e ∈ tr) (hrec : recordsResult q e = true) :
    ∃ l ∈ tr, l.thread = e.thread ∧ findsRow q l = true := by
  obtain ⟨pre, post, rfl⟩ := List.append_of_mem he
  obtain ⟨h, r, hc, hs, rfl⟩ : ∃ h r, e.call = .submitRebuildReport h r ∧
      e.stmt.records = true ∧ r.queueId = q := by
    unfold recordsResult at hrec
    split at hrec
    · rename_i h r new hc hs
      exact ⟨h, r, hc, by rw [hs]; rfl, by simpa using hrec⟩
    · rename_i h r ids hc hs
      exact ⟨h, r, hc, by rw [hs]; rfl, by simpa using hrec⟩
    · cases hrec
  obtain ⟨pre', l, post', rfl, hl, hfinds⟩ := finds_of_records hh hc hs
  exact ⟨l, by simp, hl, hfinds⟩

/-- A row that was found and then deleted is not found again. -/
lemma not_found_after_delete (hh : History (exec env) justified env.start (pre ++ e :: post))
    {q : ℕ} {l d : Event} {mid mid' : List Event} (hpre : pre = mid ++ l :: mid')
    (hl : findsRow q l = true) (hd : d ∈ mid') (hdel : deletesRow q d = true) :
    findsRow q e = false := by
  obtain ⟨m, m', rfl⟩ := List.append_of_mem hd
  subst hpre
  have hat (a b : List Event) (x : Event) (h : mid ++ l :: (m ++ d :: m') ++ e :: post = a ++ x :: b) :
      x.before = stateAfter (exec env) env.start a ∧
        x.answer = ((exec env).answer x.input x.stmt x.before).1 :=
    ⟨(h ▸ hh).event.1, (h ▸ hh).event.2.1⟩
  obtain ⟨hlb, hla⟩ := hat mid (m ++ d :: m' ++ e :: post) l (by simp)
  obtain ⟨hdb, -⟩ := hat (mid ++ l :: m) (m' ++ e :: post) d (by simp)
  obtain ⟨heb, hea⟩ := hat (mid ++ l :: (m ++ d :: m')) post e rfl
  have hstable {I : Db → Prop} (hI : ∀ t s db, I db → I ((exec env).answer t s db).2)
      (a b c : List Event) (h : mid ++ l :: (m ++ d :: m') ++ e :: post = a ++ b ++ c)
      (ha : I (stateAfter (exec env) env.start a)) : I (stateAfter (exec env) env.start (a ++ b)) :=
    History.stable hI ((h ▸ hh).of_append) ha
  -- The id has been used, and stays so.
  have hused : q ≤ d.before.queue.seq := by
    obtain ⟨row, hrow, rfl⟩ := mem_of_findsRow hla hl
    rw [hdb]
    refine hstable (I := fun db => row.id ≤ db.queue.seq)
      (fun t s db h => h.trans (exec_queueIds env t s db).1) (mid ++ [l]) m (d :: m' ++ e :: post)
      (by simp) ?_ |>.trans_eq (by simp)
    rw [stateAfter_snoc]
    exact (l.before.queue.bound row hrow).trans (exec_queueIds env _ _ _).1
  have hgone : Gone q (stateAfter (exec env) env.start (mid ++ l :: (m ++ d :: m'))) := by
    have hd' : Gone q (d.after (exec env)) := by
      obtain ⟨⟨t, s, a⟩, i, c, db⟩ := d
      cases s with
      | deleteQueued ids =>
        refine ⟨hused, fun row hrow hid => ?_⟩
        have := ((Table.mem_delete db.queue).mp hrow).2
        simp_all [deletesRow]
      | _ => cases hdel
    refine (by simp : mid ++ l :: (m ++ d :: m') = mid ++ l :: m ++ [d] ++ m') ▸
      hstable (exec_gone env q) (mid ++ l :: m ++ [d]) m' (e :: post) (by simp) ?_
    rwa [stateAfter_snoc]
  by_contra hfind
  obtain ⟨row, hrow, hid⟩ := mem_of_findsRow hea (by simpa using hfind)
  exact hgone.2 row (heb ▸ hrow) hid

end

/-- **The result of a job is recorded once in every run in which no handler finds the queue row
while another one that found it has yet to delete it.** -/
theorem recordedOnce (env : Env) (as : Schedule) (q : ℕ)
    (h : DeletedBeforeFound q (trace env as)) : RecordedOnce q (trace env as) := by
  have hh := trace_history env as
  generalize trace env as = tr at h hh
  -- Two handlers that found the row: the later one looked after the earlier had deleted it.
  have hone (pre mid post : List Event) (l l' : Event) (htr : tr = pre ++ l :: mid ++ l' :: post)
      (hl : findsRow q l = true) (hl' : findsRow q l' = true) : l.thread = l'.thread := by
    by_contra hne
    obtain ⟨d, hd, -, hdel⟩ := h pre l mid l' post htr hl hl' hne
    have := not_found_after_delete (htr ▸ hh) rfl hl hd hdel
    rw [hl'] at this
    cases this
  intro e he e' he' hrec hrec'
  obtain ⟨l, hl, hthread, hfinds⟩ := finds_of_recordsResult hh he hrec
  obtain ⟨l', hl', hthread', hfinds'⟩ := finds_of_recordsResult hh he' hrec'
  rw [← hthread, ← hthread']
  obtain ⟨pre, post, htr⟩ := List.append_of_mem hl
  rw [htr] at hl'
  rcases List.mem_append.mp hl' with hmem | hmem
  · obtain ⟨a, b, rfl⟩ := List.append_of_mem hmem
    exact (hone a b post l' l (by simpa using htr) hfinds' hfinds).symm
  · rcases List.mem_cons.mp hmem with rfl | hmem
    · rfl
    · obtain ⟨a, b, rfl⟩ := List.append_of_mem hmem
      exact hone pre a b l l' (by simpa using htr) hfinds hfinds'

lemma deletedBeforeFound_of_one {q i : ℕ} {tr : List Event}
    (h : (tr.all fun e => !findsRow q e || e.thread == i) = true) : DeletedBeforeFound q tr := by
  rintro pre l mid l' post rfl hl hl' hne
  have hall := List.all_eq_true.mp h
  have hli := hall l (by simp)
  have hli' := hall l' (by simp)
  simp only [hl, hl', Bool.not_true, Bool.false_or, beq_iff_eq] at hli hli'
  exact absurd (hli.trans hli'.symm) hne

/-- `alice` sends her report twice, the second time after the first was recorded. -/
def repeatedReport : Schedule :=
  handedOut ++ serveAt 2 (reportBy "alice" .bad) (20 * second) ++
  serveAt 3 (reportBy "alice" .bad) (30 * second)

theorem recordedOnce_repeatedReport :
    RecordedOnce 1 (trace (openDaemon none) repeatedReport) :=
  recordedOnce (openDaemon none) repeatedReport 1 (deletedBeforeFound_of_one (i := 2)
    (by decide +kernel))

/-- `alice` sends her report twice at the same time: both handlers look before one records. -/
def doubleReport : Schedule :=
  handedOut ++ .call (reportBy "alice" .bad) :: .call (reportBy "alice" .bad) ::
  (List.replicate 3 (.step 2 (20 * second)) ++ List.replicate 3 (.step 3 (20 * second)) ++
  List.replicate 16 (.step 2 (20 * second)) ++ List.replicate 16 (.step 3 (20 * second)))

/-- **Two handlers record the same result**: each inserts a rebuild and increments the retries. -/
theorem doubleReport_recorded_twice :
    (¬ ∀ env as q, RecordedOnce q (trace env as)) ∧
      (((runPool (openDaemon none) doubleReport).state.rebuilds.rows.map (·.buildInputId)) = [1, 1] ∧
        ((runPool (openDaemon none) doubleReport).state.buildInputs.rows.map (·.retries)) = [2]) := by
  refine ⟨fun h => ?_, by decide +kernel, by decide +kernel⟩
  have hone := h (openDaemon none) doubleReport 1
  have htwo : (((trace (openDaemon none) doubleReport).filter (recordsResult 1)).map (·.thread)) =
      [2, 2, 3, 3] := by decide +kernel
  have hmem (i : ℕ) (hi : i ∈ [2, 2, 3, 3]) : ∃ e ∈ trace (openDaemon none) doubleReport,
      recordsResult 1 e = true ∧ e.thread = i := by
    rw [← htwo] at hi
    obtain ⟨e, he, hei⟩ := List.mem_map.mp hi
    exact ⟨e, (List.mem_filter.mp he).1, (List.mem_filter.mp he).2, hei⟩
  obtain ⟨e, he, hrec, hi⟩ := hmem 2 (by simp)
  obtain ⟨e', he', hrec', hi'⟩ := hmem 3 (by simp)
  have := hone e he e' he' hrec hrec'
  omega

end Rebuilderd.Daemon
