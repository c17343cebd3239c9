import Rebuilderd.Daemon.Reports
import Rebuilderd.Daemon.Retrying

/-!
Whose reports are recorded.

`ping_job` compares the worker of the queue row with its own, `submit_rebuild_report` does not. And
it compares nothing later on: between the lookup of the row and the statements that record the
report the row can be taken from its worker.
-/

namespace Rebuilderd.Daemon

open Rebuilderd.Lib Rebuilderd.Common Prog

/-! ### Reports of the assignee -/

/-- What is recorded of a report is recorded while its row is assigned to the worker that sends it,
or after the report has deleted the row while it was. Nothing else a report executes changes
rebuilds, retries or the queue. -/
structure RecordedByAssignee (env : Env) (tr : List Event) : Prop where
  recorded : ∀ pre e post h r, tr = pre ++ e :: post → e.call = .submitRebuildReport h r →
    e.stmt.records = true → assignedTo r.queueId h.worker e.before = true ∨
      ∃ d ∈ pre, d.thread = e.thread ∧ deletesRow r.queueId d = true ∧
        assignedTo r.queueId h.worker d.before = true
  unchanged : ∀ e ∈ tr, ∀ h r, e.call = .submitRebuildReport h r → e.stmt.records = false →
    SameRecords e.before (e.after (exec env)) ∧ SameJobs e.before (e.after (exec env))

/-- The statement takes the queue row `q` from its worker: its last ping is too old, or the row
itself goes. -/
def takesAway (env : Env) (q : ℕ) (e : Event) : Bool :=
  match e.stmt with
  | .clearStale cutoff =>
    e.before.queue.rows.any fun row => row.id == q && row.lastPing.any (· < cutoff)
  | _ => e.before.queue.rows.any (·.id == q) && (e.after (exec env)).queue.rows.all (·.id != q)

/-- Whenever a report that records anything looks its row up, its sender is the worker the job was
handed to last; and no other request takes the row away before the report has deleted it. -/
def HeldWhileReported (env : Env) (tr : List Event) : Prop :=
  ∀ pre l mid y post h r, tr = pre ++ l :: mid ++ y :: post → l.call = .submitRebuildReport h r →
    findsRow r.queueId l = true → y.thread = l.thread → y.stmt.records = true →
      (∃ ping, lease r.queueId pre = some (h.worker, ping)) ∧
        ∀ a x b, mid = a ++ x :: b → x.thread ≠ l.thread → takesAway env r.queueId x = true →
          ∃ d ∈ a, d.thread = l.thread ∧ deletesRow r.queueId d = true

/-! ### What takes a row away -/

section
variable {env : Env} {e : Event} {q : ℕ} {key : String}

lemma touchesLeases_of_keepsJobs {s : Stmt} (h : s.keepsJobs = true) : s.touchesLeases = false := by
  cases s <;> first | rfl | cases h

lemma touchesLeases_of_records {s : Stmt} (h : s.records = true) : s.touchesLeases = false := by
  cases s <;> first | rfl | cases h

/-- If the queue rows stay as they are, none is taken away. -/
lemma takesAway_of_rows (hs : e.stmt.touchesLeases = false)
    (hrows : ∀ row ∈ e.before.queue.rows, ∃ row' ∈ (e.after (exec env)).queue.rows, row'.id = row.id) :
    takesAway env q e = false := by
  unfold takesAway
  split
  · rename_i cutoff hcut
    rw [hcut] at hs
    cases hs
  · rw [Bool.and_eq_false_iff, or_iff_not_imp_left]
    intro hany
    obtain ⟨row, hrow, hid⟩ := List.any_eq_true.mp (Bool.of_not_eq_false hany)
    obtain ⟨row', hrow', hid'⟩ := hrows row hrow
    rw [List.all_eq_false]
    exact ⟨row', hrow', by simpa using hid'.trans (by simpa using hid)⟩

/-- A row that is not taken away stays assigned to its worker. -/
lemma assignedTo_kept (h : assignedTo q key e.before = true) (ht : takesAway env q e = false) :
    assignedTo q key (e.after (exec env)) = true := by
  rw [assignedTo_iff_row] at h ⊢
  obtain ⟨row, hrow, rfl, id, hw, hkey⟩ := h
  -- The worker is still there; what is to be found is the row.
  suffices ∃ row' ∈ (e.after (exec env)).queue.rows, row'.id = row.id ∧ row'.worker = some id by
    obtain ⟨row', hrow', hid, hw'⟩ := this
    exact ⟨row', hrow', hid, id, hw', exec_hasWorker env key id _ _ _ hkey⟩
  obtain ⟨⟨t, s, a⟩, i, c, db⟩ := e
  cases htouch : s.touchesLeases with
  | false =>
    have hkept := exec_leasesKept env t htouch db
    have hstays : ∃ row' ∈ ((exec env).answer t s db).2.queue.rows, row'.id = row.id := by
      have hany : db.queue.rows.any (·.id == row.id) = true :=
        List.any_eq_true.mpr ⟨row, hrow, by simp⟩
      have hcut : takesAway env row.id ⟨⟨t, s, a⟩, i, c, db⟩ =
          (db.queue.rows.any (·.id == row.id) &&
            ((exec env).answer t s db).2.queue.rows.all (·.id != row.id)) := by
        cases s <;> first | rfl | cases htouch
      rw [hcut, hany, Bool.true_and, List.all_eq_false] at ht
      obtain ⟨row', hrow', hid⟩ := ht
      exact ⟨row', hrow', by simpa using hid⟩
    obtain ⟨row', hrow', hid⟩ := hstays
    refine ⟨row', hrow', hid, ?_⟩
    rcases hkept.row row' hrow' with ⟨row₀, hrow₀, hsame⟩ | ⟨hlt, -⟩
    · rw [hsame.worker, Table.eq_of_key hrow₀ hrow (hsame.id.symm.trans hid), hw]
    · exact absurd (hid ▸ db.queue.bound row hrow : row'.id ≤ db.queue.seq) (not_le.mpr hlt)
  | true =>
    cases s with
    | clearStale cutoff =>
      have hfresh : ¬ row.lastPing.any (· < cutoff) = true := by
        intro hstale
        have hall := List.any_eq_false.mp ht row hrow
        simp [hstale] at hall
      refine ⟨row, List.mem_map.mpr ⟨row, hrow, if_neg hfresh⟩, rfl, hw⟩
    | popJob w r =>
      change ∃ row' ∈ (popJob env.ties w r t db).2.queue.rows, _
      rcases popJob_cases env.ties w r t db with ⟨⟨q₀, b, src⟩, hpopped, hpop⟩ | hpop <;> rw [hpop]
      · -- A job that is handed out was free.
        obtain ⟨hq₀, hfree, -⟩ := mem_availableJobs hpopped
        have hne : ¬ (row.id == q₀.id) = true := by
          intro hid
          rw [Table.eq_of_key hrow hq₀ (beq_iff_eq.mp hid), hfree] at hw
          cases hw
        exact ⟨row, List.mem_map.mpr ⟨row, hrow, if_neg hne⟩, rfl, hw⟩
      · exact ⟨row, hrow, rfl, hw⟩
    | pingQueued now id' w =>
      refine ⟨_, List.mem_map.mpr ⟨row, hrow, rfl⟩, ?_⟩
      split <;> exact ⟨rfl, hw⟩
    | _ => cases htouch

end

/-! ### A report deletes its row before those of its friends -/

/-- The handler of a report has found its queue row and has deleted it. -/
structure DeletedOwn (own : OwnSteps) (c : Call) (q : Queued) : Prop where
  found : FoundRow own c q
  deleted : ∃ n, Did own (.deleteQueued [q.id]) n

lemma deletedOwn_append {c : Call} {q : Queued} (own : OwnSteps) (a) (h : DeletedOwn own c q) :
    DeletedOwn (own ++ [a]) c q :=
  ⟨foundRow_append own a h.found, h.deleted.imp fun _ hn => hn.append _⟩

/-- The queue rows of the friends are deleted after the row of the report itself. -/
def deletesOwnFirst (c : Call) (own : OwnSteps) (_ : Time) : Stmt → Prop
  | .deleteQueuedOf _ => ∃ q, DeletedOwn own c q
  | _ => True

lemma wp_report_deletesOwnFirst (cfg : Config) {c : Call} (h : Headers) (r : RebuildReport)
    (hc : c = .submitRebuildReport h r) :
    wp (.journal (deletesOwnFirst c)) (Handler.submitRebuildReport cfg h r) (fun _ _ => True)
      (fun _ _ => True) [] := by
  have part {I : OwnSteps → Prop} (hI : ∀ own a, I own → I (own ++ [a])) {α : Type} {p : Handler α}
      (hp : Only (fun s => ∀ own t, deletesOwnFirst c own t s) p) :
      Keeps (.journal (deletesOwnFirst c)) I p :=
    hp.keeps fun own t s hs h => ⟨hs own t, fun r own' h' => h' ▸ hI own _ h⟩
  have hworker : Keeps (.journal (deletesOwnFirst c)) (fun _ => True) (Handler.worker cfg h) :=
    part (fun _ _ _ => trivial) ((only_worker cfg h).mono fun s _ _ _ => by cases s <;> trivial)
  refine (wp_bind _ _).mpr ((wp_attempt _).mpr (wp_mono (hworker [] trivial) (fun own w _ => ?_)
    fun _ _ _ => trivial))
  refine (wp_bind _ _).mpr (wp_sql (fun _ => trivial) (fun t q => ?_) fun _ _ => trivial)
  have hfound : FoundRow (own ++ [⟨t, .findQueued r.queueId, .ok q⟩]) c q :=
    ⟨h, r, hc, did_last _ _ _ _⟩
  have hstep {α : Type} {p : Handler α} (hp : Only (fun s => ∀ own t, deletesOwnFirst c own t s) p) :
      Keeps (.journal (deletesOwnFirst c)) (FoundRow · c q) p :=
    part (fun own a => foundRow_append own a) hp
  refine (wp_bind _ _).mpr ((wp_bind _ _).mpr ?_)
  refine wp_mono (hstep (p := sql (.buildInputFriends _)) (.stmt fun _ _ => trivial) _ hfound)
    (fun own friends hown => ?_) fun _ _ _ => trivial
  refine (wp_bind _ _).mpr (wp_mono (hstep ((only_encode _).mono fun s hs own t => by
    rw [hs]; trivial) _ hown) (fun own log hown => ?_) fun _ _ _ => trivial)
  refine (wp_bind _ _).mpr (wp_mono (hstep (p := sql (.insertBuildLog log))
    (.stmt fun _ _ => trivial) _ hown) (fun own log hown => ?_) fun _ _ _ => trivial)
  refine (wp_bind _ _).mpr (wp_mono (hstep (.foldlM (fun logs friend =>
    (only_recordRebuild r q log logs friend).mono fun s hs own t => by
      cases s <;> trivial) []) _ hown) (fun own _ hown => ?_) fun _ _ _ => trivial)
  refine (wp_bind _ _).mpr (wp_sql (fun _ => trivial) (fun t n => ?_) fun _ _ => trivial)
  have hdeleted : DeletedOwn (own ++ [⟨t, .deleteQueued [q.id], .ok n⟩]) c q :=
    ⟨foundRow_append _ _ hown, n, did_last _ _ _ _⟩
  split
  · -- The row is deleted, whatever the retry executes.
    have hretry : Keeps (.journal (deletesOwnFirst c)) (DeletedOwn · c q)
        (Handler.retry cfg q friends) := by
      refine (only_retry cfg q friends).keeps fun own t s hs hown => ⟨?_, ?_⟩
      · cases s <;> first | trivial | exact ⟨q, hown⟩
      · rintro a own' rfl
        exact deletedOwn_append _ _ hown
    exact wp_mono (hretry _ hdeleted) (fun _ _ _ => trivial) fun _ _ _ => trivial
  · trivial

lemma handler_deletesOwnFirst (cfg : Config) (c : Call) :
    wp (.journal (deletesOwnFirst c)) (handler cfg c) (fun _ _ => True) (fun _ _ => True) [] := by
  cases c with
  | submitRebuildReport h r => exact wp_report_deletesOwnFirst cfg h r rfl
  | _ =>
    refine wp_rules (handler_justified cfg _) (fun own t s hs => ?_) fun _ _ _ _ _ h => h
    cases s with
    | deleteQueuedOf ids =>
      obtain ⟨q, h, r, hc, -⟩ := hs
      cases hc
    | _ => trivial

/-! ### Runs -/

section
variable {env : Env} {tr pre mid post : List Event} {e l : Event} {h : Headers} {r : RebuildReport}

/-- The row a report works on is the one it was asked for. -/
lemma found_id (hh : History (exec env) justified env.start tr) {i : ℕ} {q : Queued}
    (hf : FoundRow (own i tr) (.submitRebuildReport h r) q) : q.id = r.queueId := by
  obtain ⟨h', r', hc, hdid⟩ := hf
  cases hc
  obtain ⟨pre, ⟨⟨t', s', a'⟩, i', c, db⟩, post, rfl, -, t, he⟩ := did_event hdid
  cases he
  exact (exec_findQueued (Exec.answer_ok.mp (Prod.ext hh.event.2.1.symm rfl))).2.1

/-- What a report executes besides recording changes neither records nor jobs. -/
lemma unchanged_of_justified {own : OwnSteps} {t : Time} {s : Stmt}
    (hjust : justified (.submitRebuildReport h r) own t s) (hs : s.records = false) :
    s.keepsRecords = true ∧ s.keepsJobs = true := by
  cases s with
  | clearStale cutoff =>
    obtain ⟨⟨_, _, hcall⟩, -⟩ := hjust
    cases hcall
  | popJob | pingQueued | commitPackageReport =>
    obtain ⟨⟨_, hcall⟩, -⟩ := hjust
    cases hcall
  | resetRebuild | resetArtifacts =>
    obtain ⟨_, _, hcall⟩ := hjust
    cases hcall
  | _ => first | exact ⟨rfl, rfl⟩ | cases hs

/-- Until a report deletes its row, it takes the row from nobody. -/
lemma not_takesAway_of_report (hh : History (exec env) justified env.start (pre ++ e :: post))
    (hfirst : History (exec env) deletesOwnFirst env.start (pre ++ e :: post))
    (hc : e.call = .submitRebuildReport h r)
    (hnone : ∀ d ∈ pre ++ [e], d.thread = e.thread → deletesRow r.queueId d = false) :
    takesAway env r.queueId e = false := by
  obtain ⟨-, -, hjust, -⟩ := hh.event
  obtain ⟨-, -, hdeleted, -⟩ := hfirst.event
  have hpre : History (exec env) justified env.start pre := hh.of_append
  have hself := hnone e (by simp) rfl
  rw [hc] at hjust hdeleted
  have htouch : e.stmt.touchesLeases = false := by
    cases hrec : e.stmt.records with
    | true => exact touchesLeases_of_records hrec
    | false => exact touchesLeases_of_keepsJobs (unchanged_of_justified hjust hrec).2
  refine takesAway_of_rows htouch fun row hrow => ?_
  cases hkeeps : e.stmt.keepsJobs with
  | true => exact ⟨row, (exec_sameJobs env e.input hkeeps e.before).queue ▸ hrow, rfl⟩
  | false =>
    obtain ⟨⟨t, s, a⟩, i, c, db⟩ := e
    cases s with
    | deleteQueued ids =>
      rcases hjust with ⟨q, hq, rfl⟩ | ⟨_, -, hcall⟩ | ⟨_, _, _, hcall, -⟩
      · simp [deletesRow, found_id hpre hq] at hself
      · cases hcall
      · cases hcall
    | deleteQueuedOf ids =>
      -- The report has deleted its own row before.
      obtain ⟨q, hq, n, hdid⟩ := hdeleted
      obtain ⟨a', d, b, hab, hthread, t', hstep⟩ := did_event hdid
      have hd := hnone d (by simp [hab]) hthread
      obtain ⟨⟨t'', s'', a''⟩, i', c', db'⟩ := d
      cases hstep
      simp [deletesRow, found_id hpre hq] at hd
    | upsertQueued new =>
      change ∃ row' ∈ (new.upsert db).queue.rows, _
      rcases new.upsert_cases db with ⟨_, -, -, hup⟩ | ⟨-, hup⟩ <;> rw [hup]
      · refine ⟨_, List.mem_map.mpr ⟨row, hrow, rfl⟩, ?_⟩
        split <;> rfl
      · exact ⟨row, List.mem_append_left _ hrow, rfl⟩
    | incrementRetries | setNextRetry => exact ⟨row, hrow, rfl⟩
    | clearStale | popJob | pingQueued => cases htouch
    | commitPackageReport =>
      obtain ⟨⟨_, hcall⟩, -⟩ := hjust
      cases hcall
    | _ => cases hkeeps

/-- From the lookup of its holder on, until the report deletes the row, the row stays assigned. -/
lemma assigned_until (hh : History (exec env) justified env.start (pre ++ l :: mid))
    (hfirst : History (exec env) deletesOwnFirst env.start (pre ++ l :: mid))
    (hc : l.call = .submitRebuildReport h r) (hfind : findsRow r.queueId l = true)
    (hlease : ∃ ping, lease r.queueId pre = some (h.worker, ping))
    (hnone : ∀ d ∈ pre ++ l :: mid, d.thread = l.thread → deletesRow r.queueId d = false)
    (hkept : ∀ x ∈ mid, x.thread ≠ l.thread → takesAway env r.queueId x = false) :
    assignedTo r.queueId h.worker (stateAfter (exec env) env.start (pre ++ l :: mid)) = true := by
  induction mid using List.reverseRecOn with
  | nil =>
    obtain ⟨hbefore, hans, -, -⟩ := hh.event
    obtain ⟨row, hrow, hid⟩ := mem_of_findsRow hans hfind
    have hagree := (leases_agree hh.of_append).row row (hbefore ▸ hrow)
    rw [← hbefore, hid] at hagree
    have hassigned := (assignedTo_iff hrow rfl hagree).mpr hlease
    rw [hid] at hassigned
    rw [stateAfter_snoc]
    exact assignedTo_kept hassigned (not_takesAway_of_report hh hfirst hc hnone)
  | append_singleton mid x ih =>
    rw [← List.cons_append, ← List.append_assoc] at hh hfirst hnone ⊢
    have hassigned := ih hh.of_append hfirst.of_append
      (fun d hd => hnone d (List.mem_append_left _ hd)) fun y hy => hkept y (List.mem_append_left _ hy)
    rw [← hh.last.1] at hassigned
    rw [stateAfter_snoc]
    refine assignedTo_kept hassigned ?_
    by_cases hx : x.thread = l.thread
    · have hcall : l.call = x.call := hh.last.2.2.2 l (by simp) hx.symm
      exact not_takesAway_of_report hh hfirst (hcall ▸ hc) fun d hd hdx => hnone d hd (hdx.trans hx)
    · exact hkept x (by simp) hx

/-- Whatever a report records until it has deleted its row, it records while the row is assigned to
its sender. -/
lemma assigned_of_records (hh : History (exec env) justified env.start (pre ++ e :: post))
    (hfirst : History (exec env) deletesOwnFirst env.start (pre ++ e :: post))
    (hheld : HeldWhileReported env (pre ++ e :: post)) (hc : e.call = .submitRebuildReport h r)
    (hs : e.stmt.records = true)
    (hnone : ∀ d ∈ pre, d.thread = e.thread → deletesRow r.queueId d = false) :
    assignedTo r.queueId h.worker e.before = true := by
  obtain ⟨pre', l, mid, rfl, hthread, hfind⟩ := finds_of_records hh hc hs
  have hcall : l.call = e.call := hh.event.2.2.2 l (by simp) hthread
  obtain ⟨hlease, hkept⟩ :=
    hheld pre' l mid e post h r (by simp) (hcall.trans hc) hfind hthread.symm hs
  rw [hh.event.1]
  refine assigned_until hh.of_append hfirst.of_append (hcall.trans hc) hfind hlease
    (fun d hd hdl => hnone d hd (hdl.trans hthread)) fun x hx hxl => ?_
  obtain ⟨a, b, rfl⟩ := List.append_of_mem hx
  by_contra htakes
  obtain ⟨d, hd, hdl, hdel⟩ := hkept a x b rfl hxl (Bool.of_not_eq_false htakes)
  have := hnone d (by simp [hd]) (hdl.trans hthread)
  rw [hdel] at this
  cases this

end

/-- **Only the assignee's reports are recorded** in every run in which a report is sent by the worker
that holds its job, and the job is not taken from it while the report is recorded. -/
theorem recordedByAssignee (env : Env) (as : Schedule) (h : HeldWhileReported env (trace env as)) :
    RecordedByAssignee env (trace env as) := by
  have hh := trace_history env as
  have hfirst : History (exec env) deletesOwnFirst env.start (trace env as) :=
    (Pool.history (handler_deletesOwnFirst env.config) env.start as).1
  generalize trace env as = tr at h hh hfirst
  refine ⟨?_, ?_⟩
  · rintro pre e post hd r rfl hc hs
    by_cases hdel : ∃ d ∈ pre, d.thread = e.thread ∧ deletesRow r.queueId d = true
    · -- The first statement that deletes the row records something as well.
      right
      obtain ⟨d, hfind⟩ : ∃ d, pre.find? (fun d => d.thread == e.thread && deletesRow r.queueId d) =
          some d := by
        rw [← Option.isSome_iff_exists, List.find?_isSome]
        simpa using hdel
      obtain ⟨hd', a, b, rfl, hnone⟩ := List.find?_eq_some_iff_append.mp hfind
      obtain ⟨hthread, hdeletes⟩ : d.thread = e.thread ∧ deletesRow r.queueId d = true := by
        simpa using hd'
      have hcall : d.call = e.call := hh.event.2.2.2 d (by simp) hthread
      have hrec : d.stmt.records = true := by
        unfold deletesRow at hdeletes
        split at hdeletes
        · rename_i ids hstmt
          rw [hstmt]
          rfl
        · cases hdeletes
      have htr : a ++ d :: b ++ e :: post = a ++ d :: (b ++ e :: post) := by simp
      rw [htr] at hh hfirst h
      refine ⟨d, by simp, hthread, hdeletes, assigned_of_records hh hfirst h (hcall.trans hc) hrec ?_⟩
      intro x hx hxd
      simpa [hxd, hthread] using hnone x hx
    · left
      exact assigned_of_records hh hfirst h hc hs fun d hd' hde =>
        Bool.of_not_eq_true fun hdeletes => hdel ⟨d, hd', hde, hdeletes⟩
  · intro e he hd r hc hs
    obtain ⟨pre, post, rfl⟩ := List.append_of_mem he
    obtain ⟨-, -, hjust, -⟩ := hh.event
    rw [hc] at hjust
    obtain ⟨hrecords, hjobs⟩ := unchanged_of_justified hjust hs
    exact ⟨exec_sameRecords env _ hrecords _, exec_sameJobs env _ hjobs _⟩

/-! ### Reports in time, and late -/

/-- Every report that finds its row is sent by its holder, and no other request takes it away. -/
def holdersReport (env : Env) (tr : List Event) : Bool :=
  tr.zipIdx.all fun (l, n) =>
    match l.call with
    | .submitRebuildReport h r => !findsRow r.queueId l ||
      ((lease r.queueId (tr.take n)).any (·.1 == h.worker) &&
        tr.all fun x => x.thread == l.thread || !takesAway env r.queueId x)
    | _ => true

lemma heldWhileReported_of_holders {env : Env} {tr : List Event} (hh : holdersReport env tr = true) :
    HeldWhileReported env tr := by
  rintro pre l mid y post h r rfl hc hfind - -
  have hl := List.all_eq_true.mp hh (l, pre.length) (by
    rw [List.mem_zipIdx_iff_getElem?]
    simp)
  simp only [hc, hfind, Bool.not_true, Bool.false_or, Bool.and_eq_true, List.all_eq_true,
    Bool.or_eq_true, beq_iff_eq, Bool.not_eq_true'] at hl
  obtain ⟨hlease, hkept⟩ := hl
  refine ⟨?_, ?_⟩
  · simp only [List.append_assoc, List.cons_append, List.take_left'] at hlease
    obtain ⟨⟨key, ping⟩, hsome, hkey⟩ := (Option.any_eq_true _ _).mp hlease
    obtain rfl : key = h.worker := beq_iff_eq.mp hkey
    exact ⟨ping, hsome⟩
  · rintro a x b rfl hx htakes
    have := (hkept x (by simp)).resolve_left hx
    rw [htakes] at this
    cases this

/-- While `alice` reports in time, `bob` asks for work. -/
def heldReport : Schedule :=
  handedOut ++ .call (reportBy "alice" .bad) :: List.replicate 6 (.step 2 (15 * second)) ++
  serveAt 3 (.requestWork (workerHeaders "bob") ⟨["debian"], "amd64", ["amd64"]⟩) (16 * second) ++
  List.replicate 10 (.step 2 (20 * second))

theorem recordedByAssignee_heldReport :
    RecordedByAssignee (openDaemon none) (trace (openDaemon none) heldReport) ∧
      (runPool (openDaemon none) heldReport).state.rebuilds.rows.length = 1 :=
  ⟨recordedByAssignee (openDaemon none) heldReport (heldWhileReported_of_holders (by decide +kernel)),
    by decide +kernel⟩

/-- `alice` falls silent; ten minutes later `bob` is handed the job, and then `alice` reports. -/
def lateReport : Schedule :=
  handedOut ++
  serveAt 2 (.requestWork (workerHeaders "bob") ⟨["debian"], "amd64", ["amd64"]⟩) (610 * second) ++
  serveAt 3 (reportBy "alice" .good) (620 * second)

/-- **A report is recorded although its job was handed to another worker.** -/
theorem lateReport_recorded : ¬ ∀ env as, RecordedByAssignee env (trace env as) := by
  intro h
  set tr := trace (openDaemon none) lateReport with htr
  -- The first statement that records: the row is assigned to `bob`, and not yet deleted.
  have hcall : (tr[17]?).map (fun e => (e.thread, e.call, e.stmt.records,
      assignedTo 1 "alice" e.before)) = some (3, reportBy "alice" .good, true, false) := by
    decide +kernel
  obtain ⟨e, he, hec⟩ := Option.map_eq_some_iff.mp hcall
  obtain ⟨hthread, hec, hrec, hfalse⟩ : e.thread = 3 ∧ e.call = _ ∧ e.stmt.records = true ∧
      assignedTo 1 "alice" e.before = false := by
    simpa using hec
  rcases (h (openDaemon none) lateReport).recorded (tr.take 17) e (tr.drop 18) _ _
    (eq_take_cons_drop he) hec hrec with hassigned | ⟨d, hd, hdt, hdel, -⟩
  · simp_all [workerHeaders, Headers.worker]
  · have hnone : (tr.take 17).any (fun d => d.thread == 3 && deletesRow 1 d) = false := by
      decide +kernel
    have := List.any_eq_false.mp hnone d hd
    simp_all

end Rebuilderd.Daemon
