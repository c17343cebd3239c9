import Rebuilderd.Daemon.Forgotten
import Rebuilderd.Daemon.SharedHistory

/-!
Limits on the work done for a group of friends: one queue row at a time, and no more tries than
configured.

Both hold as long as requests are served one at a time and no admin requeues anything by hand. The
retries of a group are the largest of its members'; a member that is imported later starts at zero.
-/

namespace Rebuilderd.Daemon

open Rebuilderd.Lib Rebuilderd.Common Prog

/-- The build input of the queue row is a member of the group. -/
def InGroup (db : Db) (q : Queued) (g : Group) : Prop := ∃ s, (q.buildInputId, s, g) ∈ db.inputs

/-- The build logs of the rebuilds of a group that were not good, one for each report. -/
def failedLogs (db : Db) (g : Group) : Finset ℕ :=
  ((db.inputs.filter (·.2.2 == g)).flatMap fun x =>
    ((history db x.1).filter (·.status ≠ some .good)).map (·.buildLogId)).toFinset

/-! ### The invariant -/

/-- What holds of the queue, the retries and the histories of every group. -/
structure Limited (c : ScheduleConfig) (db : Db) : Prop where
  fresh : Fresh db
  unique : Unique db
  hasInput : ∀ q ∈ db.queue.rows, HasInput q.buildInputId db
  one : ∀ q ∈ db.queue.rows, ∀ q' ∈ db.queue.rows, ∀ g, InGroup db q g → InGroup db q' g → q.id = q'.id
  nonneg : ∀ x ∈ db.tries, 0 ≤ x.2
  below : ∀ q ∈ db.queue.rows, ∀ g, InGroup db q g → ∀ x ∈ db.tries, x.1.2.2 = g →
    c.retriesExhausted x.2 = false
  bounded : ∀ m, c.maxRetries = some m → ∀ x ∈ db.tries, x.2 ≤ max m 0
  counted : ∀ g, failedLogs db g = ∅ ∨ ∃ x ∈ db.tries, x.1.2.2 = g ∧ ((failedLogs db g).card : ℤ) ≤ x.2

/-- Queue rows may have gone, and nothing else that the limits are about has changed. -/
structure Harmless (db db' : Db) : Prop where
  records : SameRecords db db'
  tries : db'.tries = db.tries
  rows : ∀ q' ∈ db'.queue.rows, ∃ q ∈ db.queue.rows, q.id = q'.id ∧ q.buildInputId = q'.buildInputId

namespace Harmless

variable {db db' db'' : Db}

lemma refl (db : Db) : Harmless db db := ⟨.refl db, rfl, fun q hq => ⟨q, hq, rfl, rfl⟩⟩

lemma trans (h : Harmless db db') (h' : Harmless db' db'') : Harmless db db'' := by
  refine ⟨h.records.trans h'.records, h'.tries.trans h.tries, fun q'' hq'' => ?_⟩
  obtain ⟨q', hq', hid', hb'⟩ := h'.rows q'' hq''
  obtain ⟨q, hq, hid, hb⟩ := h.rows q' hq'
  exact ⟨q, hq, hid.trans hid', hb.trans hb'⟩

lemma failedLogs (h : Harmless db db') (g : Group) : failedLogs db' g = failedLogs db g := by
  unfold Daemon.failedLogs
  simp only [h.records.inputs, h.records.history]

end Harmless

section
variable {c : ScheduleConfig} {db db' : Db}

/-- The invariant does not depend on how many rows of the queue there are. -/
lemma Limited.harmless (hl : Limited c db) (h : Harmless db db') : Limited c db' := by
  have hin {q q' : Queued} {g : Group} (hb : q.buildInputId = q'.buildInputId) :
      InGroup db' q' g → InGroup db q g := by
    rintro ⟨s, hs⟩
    exact ⟨s, by rw [hb, ← h.records.inputs]; exact hs⟩
  refine ⟨h.records.fresh hl.fresh, hl.unique.congr (by rw [h.records.sources]) h.records.inputs,
    fun q' hq' => ?_, fun q₁ hq₁ q₂ hq₂ g hg₁ hg₂ => ?_, h.tries ▸ hl.nonneg,
    fun q' hq' g hg => ?_, h.tries ▸ hl.bounded, fun g => ?_⟩
  · obtain ⟨q, hq, -, hb⟩ := h.rows q' hq'
    obtain ⟨s, g, hs⟩ := hl.hasInput q hq
    exact ⟨s, g, by rw [← hb, h.records.inputs]; exact hs⟩
  · obtain ⟨q₁', hq₁', hid₁, hb₁⟩ := h.rows q₁ hq₁
    obtain ⟨q₂', hq₂', hid₂, hb₂⟩ := h.rows q₂ hq₂
    rw [← hid₁, ← hid₂]
    exact hl.one q₁' hq₁' q₂' hq₂' g (hin hb₁ hg₁) (hin hb₂ hg₂)
  · obtain ⟨q, hq, -, hb⟩ := h.rows q' hq'
    rw [h.tries]
    exact hl.below q hq g (hin hb hg)
  · rw [h.failedLogs, h.tries]
    exact hl.counted g

lemma Limited.start (env : Env) (c : ScheduleConfig) : Limited c env.start := by
  refine ⟨.empty _, ⟨List.nodup_nil, List.nodup_nil⟩, ?_, ?_, ?_, ?_, ?_, fun g => .inl ?_⟩ <;>
    simp [Env.start, Db.empty, Db.tries, failedLogs, Db.inputs]

/-- The statements that neither enqueue a job nor count a try nor write a rebuild. -/
def Stmt.harmless : Stmt → Bool
  | .incrementRetries _ => false
  | s => s.keepsRecords && !s.enqueues

lemma exec_harmless (env : Env) (t : Time) {s : Stmt} (hs : s.harmless = true) (db : Db) :
    Harmless db ((exec env).answer t s db).2 := by
  have hboth : s.keepsRecords = true ∧ s.enqueues = false := by
    cases s <;> first | exact ⟨rfl, rfl⟩ | cases hs
  refine ⟨exec_sameRecords env t hboth.1 db, ?_, (exec_oldRow env t hboth.2 db).2⟩
  cases s with
  | incrementRetries | commitPackageReport => cases hs
  | setNextRetry ids next =>
    change (db.buildInputs.rows.map _).map _ = db.tries
    exact Table.map_rows_update _ fun _ _ _ => rfl
  | refreshWorker key now =>
    refine Exec.answer_inv (E := exec env) (I := fun d : Db => d.tries = db.tries) rfl fun w db' h => ?_
    simp only [exec, refreshWorker] at h
    split at h <;> cases h
    rfl
  | popJob w r =>
    change (popJob env.ties w r t db).2.tries = _
    rcases popJob_cases env.ties w r t db with ⟨row, -, h⟩ | h <;> rw [h]
    rfl
  | findQueued id =>
    refine Exec.answer_inv (I := fun d : Db => d.tries = db.tries) rfl fun q db' h => ?_
    rw [(exec_findQueued h).2.2]
  | maxRetriesOf ids =>
    refine Exec.answer_inv (I := fun d : Db => d.tries = db.tries) rfl fun n db' h => ?_
    rw [exec_maxRetriesOf h]
  | _ => rfl

/-- The requests that only hand out, ping or drop jobs execute harmless statements. -/
lemma harmless_of_justified {c : Call} (hc : c.keepsRecords = true) (own : OwnSteps) (i : Time)
    (s : Stmt) (h : justified c own i s) : s.harmless = true := by
  have hkeeps := keepsRecords_of_justified hc own i s h
  cases s with
  | incrementRetries ids =>
    obtain ⟨q, hd, r, rfl, -⟩ := h
    cases hc
  | upsertQueued new =>
    rcases h with ⟨q, ⟨hd, r, rfl, -⟩, -⟩ | ⟨hd, r, ids, rfl, -⟩ <;> cases hc
  | commitPackageReport | insertBuildLog | insertRebuild | insertRebuildArtifact | resetRebuild
  | resetArtifacts => cases hkeeps
  | _ => rfl

lemma served_harmless (env : Env) (db : Db) {c : Call} (hc : c.keepsRecords = true) (t : ℕ → Time) :
    Harmless db (served env db (c, t)) :=
  run_of_journal (handler_justified env.config c) (I := fun d : Db => Harmless db d)
    (fun own i s d hs hd => hd.trans (exec_harmless env i (harmless_of_justified hc own i s hs) d)) t
    (.refl db)

/-! ### Package reports -/

lemma mem_failedLogs {db : Db} {g : Group} {l : ℕ} : l ∈ failedLogs db g ↔
    ∃ i s, (i, s, g) ∈ db.inputs ∧ ∃ rec ∈ history db i, rec.status ≠ some .good ∧ rec.buildLogId = l := by
  simp only [failedLogs, List.mem_toFinset, List.mem_flatMap, List.mem_filter, List.mem_map,
    beq_iff_eq, decide_eq_true_eq]
  constructor
  · rintro ⟨⟨i, s, g'⟩, ⟨hi, rfl⟩, rec, ⟨hrec, hbad⟩, hl⟩
    exact ⟨i, s, hi, rec, hrec, hbad, hl⟩
  · rintro ⟨i, s, hi, rec, hrec, hbad, hl⟩
    exact ⟨(i, s, g), ⟨hi, rfl⟩, rec, ⟨hrec, hbad⟩, hl⟩

/-- Every build input has its retries. -/
lemma exists_tries {db : Db} {x : ℕ × ℕ × Group} (h : x ∈ db.inputs) : ∃ n, (x, n) ∈ db.tries := by
  obtain ⟨b, hb, rfl⟩ := List.mem_map.mp h
  exact ⟨b.retries, List.mem_map.mpr ⟨b, hb, rfl⟩⟩

variable {T : Ties} {now : Time} {r : PackageReport} {p : SourcePackageReport}

/-- A member whose history is not empty was there before the import. -/
lemma mem_inputs_of_history (h : Fresh db) {first : Option Time} {i s : ℕ} {g : Group} {rec : Record}
    (hi : (i, s, g) ∈ (importRows now first r p db).2.inputs) (hrec : rec ∈ history db i) :
    (i, s, g) ∈ db.inputs := by
  rcases importRows_inputs now first r p db with ⟨-, hin⟩ | ⟨-, hid, hin⟩ <;> rw [hin] at hi
  · exact hi
  · rcases List.mem_append.mp hi with hi | hi
    · exact hi
    · have hlt : db.buildInputs.seq < i := by
        have heq : i = (importRows now first r p db).1.id :=
          congrArg Prod.fst (List.mem_singleton.mp hi)
        omega
      rw [history_eq_nil h hlt] at hrec
      cases hrec

/-- An import copies what friends have recorded, and adds nothing to it. -/
lemma failedLogs_import (h : Fresh db) (now : Time) (first : Option Time) (r : PackageReport)
    (p : SourcePackageReport) (g : Group) :
    failedLogs (importWithHistory now first r p db).2 g ⊆ failedLogs db g := by
  have hinputs : (importWithHistory now first r p db).2.inputs = (importRows now first r p db).2.inputs := by
    unfold importWithHistory
    dsimp only
    split
    · exact copyExistingRebuilds_frame (g := Db.inputs) (fun _ _ => rfl) (fun _ _ => rfl) _ _
    · rfl
  intro l hl
  obtain ⟨i, s, hi, rec, hrec, hbad, rfl⟩ := mem_failedLogs.mp hl
  rw [hinputs] at hi
  rw [(importWithHistory_history now first r p h).2 i] at hrec
  rcases List.mem_append.mp hrec with hrec | hrec
  · exact mem_failedLogs.mpr ⟨i, s, mem_inputs_of_history h hi hrec, rec, hrec, hbad, rfl⟩
  · split at hrec
    · rcases friendHistory_cases hi with ⟨e, s', -, he, hhist⟩ | ⟨-, hnil⟩
      · rw [hhist, importRows_history] at hrec
        exact mem_failedLogs.mpr ⟨e, s', mem_inputs_of_history h he hrec, rec, hrec, hbad, rfl⟩
      · rw [hnil] at hrec
        cases hrec
    · cases hrec

lemma Limited.importWithHistory (hl : Limited c db) (now : Time) (first : Option Time)
    (r : PackageReport) (p : SourcePackageReport) : Limited c (importWithHistory now first r p db).2 := by
  have hqueue := (importWithHistory_frame now first r p db).queue
  have himp := importWithHistory_imported now first r p db
  have hsub : ∀ x ∈ db.inputs, x ∈ (Daemon.importWithHistory now first r p db).2.inputs :=
    fun _ => himp.keeps_inputs
  have hgroup {q : Queued} (hq : q ∈ db.queue.rows) {g : Group} :
      InGroup (Daemon.importWithHistory now first r p db).2 q g → InGroup db q g :=
    fun ⟨s, hs⟩ => ⟨s, mem_inputs_of_hasInput (hl.hasInput q hq) hsub hs⟩
  obtain ⟨new, htries, hnew⟩ := tries_importWithHistory now first r p db
  have hcases {x : (ℕ × ℕ × Group) × ℤ} (hx : x ∈ (Daemon.importWithHistory now first r p db).2.tries) :
      x ∈ db.tries ∨ x.2 = 0 := by
    rw [htries] at hx
    exact (List.mem_append.mp hx).imp id (hnew x)
  refine ⟨(importWithHistory_history now first r p hl.fresh).1,
    unique_importWithHistory hl.unique now first r p, fun q hq => ?_, fun q₁ hq₁ q₂ hq₂ g hg₁ hg₂ => ?_,
    fun x hx => ?_, fun q hq g hg x hx hxg => ?_, fun m hm x hx => ?_, fun g => ?_⟩
  · rw [hqueue] at hq
    obtain ⟨s, g, hs⟩ := hl.hasInput q hq
    exact ⟨s, g, hsub _ hs⟩
  · rw [hqueue] at hq₁ hq₂
    exact hl.one q₁ hq₁ q₂ hq₂ g (hgroup hq₁ hg₁) (hgroup hq₂ hg₂)
  · rcases hcases hx with hold | hzero
    · exact hl.nonneg x hold
    · exact hzero.ge
  · rw [hqueue] at hq
    rcases hcases hx with hold | hzero
    · exact hl.below q hq g (hgroup hq hg) x hold hxg
    · -- The queued member has at least as many retries, and they are not used up.
      obtain ⟨s, hs⟩ := hgroup hq hg
      obtain ⟨n, hn⟩ := exists_tries hs
      have hbelow := hl.below q hq g ⟨s, hs⟩ _ hn rfl
      by_contra hex
      rw [retriesExhausted_mono (by simpa using hex) (hzero.le.trans (hl.nonneg _ hn))] at hbelow
      cases hbelow
  · rcases hcases hx with hold | hzero
    · exact hl.bounded m hm x hold
    · rw [hzero]
      exact le_max_right _ _
  · have hlogs := failedLogs_import hl.fresh now first r p g
    rcases hl.counted g with hnone | ⟨x, hx, hxg, hle⟩
    · exact .inl (Finset.subset_empty.mp (hnone ▸ hlogs))
    · refine .inr ⟨x, htries ▸ List.mem_append_left _ hx, hxg, ?_⟩
      exact (Int.ofNat_le.mpr (Finset.card_le_card hlogs)).trans hle

/-- A job is enqueued for a group of which none is queued and whose retries are not used up. -/
lemma Limited.enqueue (hl : Limited c db) {id s : ℕ} {g : Group} (hid : (id, s, g) ∈ db.inputs)
    (hnone : ∀ q ∈ db.queue.rows, ¬ InGroup db q g)
    (hbelow : ∀ x ∈ db.tries, x.1.2.2 = g → c.retriesExhausted x.2 = false) (priority : Priority)
    (now : Time) : Limited c (NewQueued.upsert ⟨id, priority, now⟩ db) := by
  have hfriend : hasQueuedFriend db id = false := by
    rw [← Bool.not_eq_true, hasQueuedFriend_iff hid]
    rintro ⟨q, hq, hg⟩
    exact hnone q hq hg
  have hqueue := upsertQueued_of_none_queued hid hfriend priority now
  have hmem {q : Queued} (hq : q ∈ (NewQueued.upsert ⟨id, priority, now⟩ db).queue.rows) :
      q ∈ db.queue.rows ∨ q = NewQueued.row ⟨id, priority, now⟩ (db.queue.seq + 1) := by
    rw [hqueue] at hq
    exact (Table.mem_insert _).mp hq
  have hgroup {g' : Group} (h : InGroup db (NewQueued.row ⟨id, priority, now⟩ (db.queue.seq + 1)) g') :
      g' = g := by
    obtain ⟨s', hs'⟩ := h
    exact (inputs_inj hs' hid).2
  refine ⟨hl.fresh.congr rfl rfl le_rfl, hl.unique.congr rfl rfl, fun q hq => ?_,
    fun q₁ hq₁ q₂ hq₂ g' hg₁ hg₂ => ?_, hl.nonneg, fun q hq g' hg' => ?_, hl.bounded, hl.counted⟩
  · rcases hmem hq with hq | rfl
    · exact hl.hasInput q hq
    · exact ⟨s, g, hid⟩
  · rcases hmem hq₁ with hq₁ | rfl <;> rcases hmem hq₂ with hq₂ | rfl
    · exact hl.one q₁ hq₁ q₂ hq₂ g' hg₁ hg₂
    · exact absurd (hgroup hg₂ ▸ hg₁) (hnone q₁ hq₁)
    · exact absurd (hgroup hg₁ ▸ hg₂) (hnone q₂ hq₂)
    · rfl
  · rcases hmem hq with hq | rfl
    · exact hl.below q hq g' hg'
    · rw [hgroup hg']
      exact hbelow

lemma Limited.import (hl : Limited c db) (hok : importPackage c T now r db p = .ok db') :
    Limited c db' := by
  obtain ⟨first, -, henq⟩ := importPackage_ok hok
  have hl₁ := hl.importWithHistory now first r p
  have himp := importWithHistory_imported now first r p db
  have hid : (_, _, _) ∈ (Daemon.importWithHistory now first r p db).2.inputs :=
    mem_inputs.mpr ⟨_, himp.stored, rfl, rfl, rfl⟩
  generalize Daemon.importWithHistory now first r p db = out at hl₁ henq hid
  obtain ⟨input, db₁⟩ := out
  dsimp only at hl₁ henq hid
  rcases enqueueImported_cases henq with ⟨-, rfl⟩ | ⟨-, hq, n, hn, ⟨-, rfl⟩ | ⟨hex, priority, rfl⟩⟩
  · exact hl₁
  · refine hl₁.harmless ⟨⟨⟨rfl, setNextRetry_inputs _ _ _, rfl, rfl⟩, rfl, rfl, rfl⟩, ?_, fun q hq => ?_⟩
    · change (db₁.buildInputs.rows.map _).map _ = db₁.tries
      exact Table.map_rows_update _ fun _ _ _ => rfl
    · exact ⟨q, ((Table.mem_delete _).mp hq).1, rfl, rfl⟩
  · refine hl₁.enqueue hid (fun q hq' hg => ?_) (fun x hx hxg => ?_) priority now
    · rw [(hasQueuedFriend_iff hid).mpr ⟨q, hq', hg⟩] at hq
      cases hq
    · by_contra hxex
      have hused := (retriesUsedUp_iff (c := c) hid).mpr ⟨x, hx, hxg, by simpa using hxex⟩
      simp only [retriesUsedUp, hn] at hused
      rw [hex] at hused
      cases hused

lemma Limited.mark (hl : Limited c db) (r : PackageReport) :
    Limited c (markScopedPackagesUnseen r db) :=
  ⟨hl.fresh.congr rfl rfl le_rfl, unique_mark hl.unique r, hl.hasInput, hl.one, hl.nonneg, hl.below,
    hl.bounded, hl.counted⟩

lemma Limited.commit (hl : Limited c db) (hok : commitPackageReport c T now r db = .ok db') :
    Limited c db' := by
  obtain ⟨db₁, hf, rfl⟩ := commitPackageReport_ok hok
  have hl₁ : Limited c db₁ :=
    foldlM_ok (I := fun _ d => Limited c d) hf (hl.mark r) fun _ p d d' _ hd hok => hd.import hok
  refine hl₁.harmless ⟨⟨⟨rfl, rfl, rfl, rfl⟩, rfl, rfl, rfl⟩, rfl, fun q hq => ?_⟩
  exact ⟨q, ((Table.mem_delete _).mp hq).1, rfl, rfl⟩

end

/-! ### Rebuild reports -/

/-- The report about the job `q` was recorded with every friend, and the job is gone. -/
structure Reported (q : Queued) (rec : Record) (db db' : Db) : Prop where
  sources : db'.sourcePackages = db.sourcePackages
  inputs : db'.inputs = db.inputs
  tries : db'.tries = db.tries
  rows : ∀ q' ∈ db'.queue.rows, q' ∈ db.queue.rows ∧ q'.id ≠ q.id
  history : ∀ i, history db' i =
    history db i ++ if i ∈ buildInputFriends db q.buildInputId then [rec] else []
  fresh : Fresh db'

/-- No job of the group is in the queue. -/
structure Cleared (c : ScheduleConfig) (g : Group) (db : Db) : Prop extends Limited c db where
  none : ∀ q ∈ db.queue.rows, ¬ InGroup db q g

section
variable {c : ScheduleConfig} {db db' : Db} {q : Queued} {rec : Record} {s : ℕ} {g : Group}

lemma Cleared.harmless (h : Cleared c g db) (hh : Harmless db db') : Cleared c g db' := by
  refine ⟨h.toLimited.harmless hh, fun q' hq' ⟨s, hs⟩ => ?_⟩
  obtain ⟨q, hq, -, hb⟩ := hh.rows q' hq'
  exact h.none q hq ⟨s, by rw [hb, ← hh.records.inputs]; exact hs⟩

lemma keeps_cleared {env : Env} {s : Stmt} (hs : s.harmless = true) :
    Keeps (exec env).rules (Cleared c g) (sql s) := by
  refine Keeps.stmt s fun x i hx => ⟨trivial, fun r y hy => ?_⟩
  have hh := exec_harmless env i hs x
  rw [show (exec env).answer i s x = (r, y) from hy] at hh
  exact hx.harmless hh

/-- A good rebuild ends the work on the job. -/
lemma Reported.good (h : Reported q rec db db') (hl : Limited c db) (hrec : rec.status = some .good) :
    Limited c db' := by
  have hgroup {q' : Queued} {g : Group} (hg : InGroup db' q' g) : InGroup db q' g := by
    obtain ⟨s, hs⟩ := hg
    exact ⟨s, h.inputs ▸ hs⟩
  refine ⟨h.fresh, hl.unique.congr (by rw [h.sources]) h.inputs, fun q' hq' => ?_,
    fun q₁ hq₁ q₂ hq₂ g hg₁ hg₂ => hl.one q₁ (h.rows q₁ hq₁).1 q₂ (h.rows q₂ hq₂).1 g (hgroup hg₁)
      (hgroup hg₂), h.tries ▸ hl.nonneg, fun q' hq' g hg => ?_, h.tries ▸ hl.bounded, fun g => ?_⟩
  · obtain ⟨s, g, hs⟩ := hl.hasInput q' (h.rows q' hq').1
    exact ⟨s, g, h.inputs.symm ▸ hs⟩
  · rw [h.tries]
    exact hl.below q' (h.rows q' hq').1 g (hgroup hg)
  · have hlogs : failedLogs db' g ⊆ failedLogs db g := by
      intro l hmem
      obtain ⟨i, s, hi, rec', hrec', hbad, rfl⟩ := mem_failedLogs.mp hmem
      rw [h.history i] at hrec'
      rcases List.mem_append.mp hrec' with hrec' | hrec'
      · exact mem_failedLogs.mpr ⟨i, s, h.inputs ▸ hi, rec', hrec', hbad, rfl⟩
      · split at hrec'
        · rw [List.mem_singleton.mp hrec'] at hbad
          exact absurd hrec hbad
        · cases hrec'
    rw [h.tries]
    refine (hl.counted g).imp (fun hstart : failedLogs db g = ∅ =>
      Finset.subset_empty.mp (hstart ▸ hlogs)) ?_
    rintro ⟨x, hx, hxg, hle⟩
    exact ⟨x, hx, hxg, (Int.ofNat_le.mpr (Finset.card_le_card hlogs)).trans hle⟩

/-- Counting a try of the friends. -/
lemma tries_incrementRetries (ids : List ℕ) (db : Db) : (incrementRetries ids db).tries =
    db.tries.map fun x => if ids.contains x.1.1 then (x.1, x.2 + 1) else x := by
  simp only [incrementRetries, Db.tries, Table.rows_update, List.map_map]
  refine List.map_congr_left fun b _ => ?_
  by_cases hb : b.id ∈ ids
  · simp [BuildInput.identity, BuildInput.group, hb]
  · simp [BuildInput.identity, hb]

/-- A rebuild that is not good counts as a try of every friend. -/
lemma Reported.retried (h : Reported q rec db db') (hl : Limited c db) (hq : q ∈ db.queue.rows)
    (hg : (q.buildInputId, s, g) ∈ db.inputs) :
    Cleared c g (incrementRetries (buildInputFriends db q.buildInputId) db') := by
  set friends := buildInputFriends db q.buildInputId with hfriends
  have hinputs : (incrementRetries friends db').inputs = db.inputs :=
    (incrementRetries_inputs _ _).trans h.inputs
  have hgroup {q' : Queued} {g : Group} (hg : InGroup (incrementRetries friends db') q' g) :
      InGroup db q' g := by
    obtain ⟨s, hs⟩ := hg
    exact ⟨s, hinputs ▸ hs⟩
  -- The friends are the members of the group.
  have hmember {x : (ℕ × ℕ × Group) × ℤ} (hx : x ∈ db.tries) : x.1.1 ∈ friends ↔ x.1.2.2 = g := by
    rw [hfriends, mem_buildInputFriends_iff hg]
    constructor
    · rintro ⟨s', hs'⟩
      exact (inputs_inj (mem_inputs_of_tries hx) hs').2
    · rintro rfl
      exact ⟨x.1.2.1, mem_inputs_of_tries hx⟩
  have htries {x : (ℕ × ℕ × Group) × ℤ} : x ∈ (incrementRetries friends db').tries ↔
      ∃ y ∈ db.tries, x = if y.1.2.2 = g then (y.1, y.2 + 1) else y := by
    rw [tries_incrementRetries, h.tries, List.mem_map]
    refine exists_congr fun y => and_congr_right fun hy => ?_
    rw [eq_comm]
    simp only [List.contains_iff_mem, hmember hy]
  have hnone : ∀ q' ∈ (incrementRetries friends db').queue.rows,
      ¬ InGroup (incrementRetries friends db') q' g := by
    intro q' hq' hg'
    obtain ⟨hold, hne⟩ := h.rows q' hq'
    exact hne (hl.one q' hold q hq g (hgroup hg') ⟨s, hg⟩)
  refine ⟨⟨h.fresh.congr rfl rfl le_rfl, hl.unique.congr (by rw [← h.sources]; rfl) hinputs,
    fun q' hq' => ?_, fun q₁ hq₁ q₂ hq₂ g hg₁ hg₂ => hl.one q₁ (h.rows q₁ hq₁).1 q₂
      (h.rows q₂ hq₂).1 g (hgroup hg₁) (hgroup hg₂), fun x hx => ?_, fun q' hq' g' hg' x hx hxg => ?_,
    fun m hm x hx => ?_, fun g' => ?_⟩, hnone⟩
  · obtain ⟨s', g', hs'⟩ := hl.hasInput q' (h.rows q' hq').1
    exact ⟨s', g', hinputs.symm ▸ hs'⟩
  · obtain ⟨y, hy, rfl⟩ := htries.mp hx
    have := hl.nonneg y hy
    split
    · exact Int.add_nonneg this Int.one_nonneg
    · exact this
  · obtain ⟨y, hy, rfl⟩ := htries.mp hx
    split at hxg
    · rename_i hyg
      have hgg : g' = g := hxg.symm.trans hyg
      exact absurd (hgg ▸ hg') (hnone q' hq')
    · rename_i hyg
      rw [if_neg hyg]
      exact hl.below q' (h.rows q' hq').1 g' (hgroup hg') y hy hxg
  · obtain ⟨y, hy, rfl⟩ := htries.mp hx
    split
    · rename_i hyg
      have hbelow := hl.below q hq g ⟨s, hg⟩ y hy hyg
      simp only [ScheduleConfig.retriesExhausted, hm, Option.any_some, decide_eq_false_iff_not,
        not_le] at hbelow
      exact le_max_of_le_left (Int.add_one_le_iff.mpr hbelow)
    · exact hl.bounded m hm y hy
  · have hlogs : failedLogs (incrementRetries friends db') g' ⊆
        if g' = g then insert rec.buildLogId (failedLogs db g') else failedLogs db g' := by
      intro l hmem
      obtain ⟨i, s', hi, rec', hrec', hbad, rfl⟩ := mem_failedLogs.mp hmem
      rw [hinputs] at hi
      rw [show Daemon.history (incrementRetries friends db') i = Daemon.history db' i from
        history_congr rfl rfl i, h.history i] at hrec'
      rcases List.mem_append.mp hrec' with hrec' | hrec'
      · have hold := mem_failedLogs.mpr ⟨i, s', hi, rec', hrec', hbad, rfl⟩
        split
        · exact Finset.mem_insert_of_mem hold
        · exact hold
      · split at hrec'
        · rename_i hfriend
          obtain ⟨n, hn⟩ := exists_tries hi
          rw [if_pos ((hmember hn).mp hfriend), List.mem_singleton.mp hrec']
          exact Finset.mem_insert_self _ _
        · cases hrec'
    by_cases hgg : g' = g
    · subst hgg
      rw [if_pos rfl] at hlogs
      have hcard := (Finset.card_le_card hlogs).trans (Finset.card_insert_le _ _)
      right
      rcases hl.counted g' with hstart | ⟨x, hx, hxg, hle⟩
      · -- The first failure of the group: the try just counted is its own.
        obtain ⟨n, hn⟩ := exists_tries hg
        refine ⟨_, htries.mpr ⟨_, hn, rfl⟩, ?_, ?_⟩
        · rw [if_pos rfl]
        · rw [hstart, Finset.card_empty] at hcard
          have := hl.nonneg _ hn
          simp only [if_true] at this ⊢
          omega
      · refine ⟨_, htries.mpr ⟨x, hx, rfl⟩, ?_, ?_⟩
        · rw [if_pos hxg]
          exact hxg
        · rw [if_pos hxg]
          simp only
          omega
    · rw [if_neg hgg] at hlogs
      refine (hl.counted g').imp (fun hstart : failedLogs db g' = ∅ =>
        Finset.subset_empty.mp (hstart ▸ hlogs)) ?_
      rintro ⟨x, hx, hxg, hle⟩
      refine ⟨x, htries.mpr ⟨x, hx, ?_⟩, hxg, (Int.ofNat_le.mpr (Finset.card_le_card hlogs)).trans hle⟩
      rw [if_neg fun h => hgg (hxg.symm.trans h)]

end

/-- The statements that store a rebuild and its artifacts. -/
def Stmt.stores : Stmt → Bool
  | .zstdCompress _ | .insertRebuild _ | .insertDiffoscopeLog _ | .insertAttestationLog _
  | .insertRebuildArtifact _ => true
  | _ => false

lemma only_recordRebuild (r : RebuildReport) (q : Queued) (log : ℕ) (logs : Handler.ArtifactLogs)
    (friend : ℕ) : Only (fun s => s.stores = true) (Handler.recordRebuild r q log logs friend) :=
  .bind (.stmt rfl) fun rebuild => .foldlM (fun logs a =>
    (only_recordArtifact rebuild logs a).mono fun s hs => by cases s <;> first | rfl | cases hs) _

lemma exec_stores {s : Stmt} (hs : s.stores = true) (env : Env) (t : Time) (db : Db) :
    ((exec env).answer t s db).2.queue = db.queue ∧
      ((exec env).answer t s db).2.buildInputs = db.buildInputs := by
  cases s <;> first | exact ⟨rfl, rfl⟩ | cases hs

section
variable {env : Env} {db : Db} {q : Queued} {s : ℕ} {g : Group}

/-- What follows a rebuild that is not good enqueues the job again, or gives up on it. -/
lemma wp_retry_rest (h : Cleared env.config.schedule g db) (hg : (q.buildInputId, s, g) ∈ db.inputs)
    (friends : List ℕ) :
    wp (exec env).rules (do
        let retryCount ← Handler.getLargestRetryCountAmongFriends q.buildInputId
        if env.config.schedule.retriesExhausted retryCount then
          Handler.markBuildInputFriendsAsNonRetriable q.buildInputId
        else
          let now ← sql .now
          let next ← lift (env.config.schedule.retryAt now retryCount)
          sql (.setNextRetry friends (some next))
          sql (.upsertQueued ⟨q.buildInputId, Priority.retry, now⟩))
      (fun y _ => Limited env.config.schedule y) (fun y _ => Limited env.config.schedule y) db := by
  refine (wp_bind _ _).mpr ((wp_bind _ _).mpr (wp_stmt_run (fun i friends' y hE => ?_)
    fun i e hE => by cases hE))
  cases hE
  refine wp_stmt_run (fun i n y hE => ?_) fun i e hE => h.toLimited
  obtain rfl := exec_maxRetriesOf hE
  have hn : getLargestRetryCountAmongFriends y q.buildInputId = .ok n := by
    rcases hm : maxRetriesOf (buildInputFriends y q.buildInputId) y with e | m
    · simp [exec, hm, Except.map] at hE
    · obtain rfl : m = n := by simpa [exec, hm, Except.map] using hE
      exact hm
  split
  · have hmark : Keeps (exec env).rules (Cleared env.config.schedule g)
        (Handler.markBuildInputFriendsAsNonRetriable q.buildInputId) :=
      .bind (keeps_cleared rfl) fun _ => .bind (keeps_cleared rfl) fun _ => keeps_cleared rfl
    exact wp_mono (hmark y h) (fun _ _ hy => hy.toLimited) fun _ _ hy => hy.toLimited
  · rename_i hex
    have hbelow : ∀ x ∈ y.tries, x.1.2.2 = g →
        env.config.schedule.retriesExhausted x.2 = false := by
      intro x hx hxg
      by_contra hxex
      have hused := (retriesUsedUp_iff hg).mpr ⟨x, hx, hxg, by simpa using hxex⟩
      simp only [retriesUsedUp, hn] at hused
      exact hex hused
    refine (wp_bind _ _).mpr (wp_stmt_run (fun i now z hE => ?_) fun i e hE => by cases hE)
    cases hE
    refine (wp_bind _ _).mpr ((wp_lift _).mpr ⟨fun next _ => ?_, fun _ _ => h.toLimited⟩)
    refine (wp_bind _ _).mpr (wp_stmt_run (fun i u z hE => ?_) fun i e hE => by cases hE)
    have hh := exec_harmless env i (s := .setNextRetry friends (some next)) rfl y
    rw [Exec.answer_ok.mpr hE] at hh
    refine wp_stmt_run (fun i u w hE => ?_) fun i e hE => by cases hE
    cases hE
    refine (h.harmless hh).toLimited.enqueue (hh.records.inputs.symm ▸ hg) (h.harmless hh).none ?_ _ _
    rw [hh.tries]
    exact hbelow

/-- Recording a report about a job of the queue keeps the limits, also if it fails on the way. -/
lemma wp_recordReport (hl : Limited env.config.schedule db) (hq : q ∈ db.queue.rows)
    (r : RebuildReport) :
    wp (exec env).rules (Handler.recordReport env.config r q)
      (fun y _ => Limited env.config.schedule y) (fun y _ => Limited env.config.schedule y) db := by
  obtain ⟨s, g, hg⟩ := hl.hasInput q hq
  refine (wp_bind _ _).mpr (wp_stmt_run (fun i friends y hE => ?_) fun i e hE => nomatch hE)
  cases hE
  have hencode : Only (fun s : Stmt => s.harmless = true ∧ s.stores = true)
      (Handler.encode r.buildLog) := by
    unfold Handler.encode
    split
    · exact .pure _
    · exact .stmt ⟨rfl, rfl⟩
  -- Encoding the log changes neither the queue nor the build inputs.
  have hkeep : Keeps (exec env).rules (fun d : Db => Harmless db d ∧ d.queue = db.queue)
      (Handler.encode r.buildLog) := by
    refine hencode.keeps fun x i s hs hx => ⟨trivial, fun a y hy => ?_⟩
    have hh := exec_harmless env i hs.1 x
    have hstores := (exec_stores hs.2 env i x).1
    rw [show (exec env).answer i s x = (a, y) from hy] at hh hstores
    exact ⟨hx.1.trans hh, hstores.trans hx.2⟩
  refine (wp_bind _ _).mpr (wp_mono (hkeep db ⟨.refl db, rfl⟩) ?_ fun y e hy => hl.harmless hy.1)
  rintro y log ⟨hh, hqueue⟩
  refine (wp_bind _ _).mpr (wp_stmt_run (fun i logId z hE => ?_) fun i e hE => nomatch hE)
  cases hE
  have hlogged : Fresh (insertBuildLog log y).2 := (hh.records.fresh hl.fresh).congr rfl rfl le_rfl
  have hstored : Keeps (exec env).rules
      (fun d : Db => d.queue = db.queue ∧ d.buildInputs = y.buildInputs)
      ((buildInputFriends db q.buildInputId).foldlM
        (Handler.recordRebuild r q (y.buildLogs.seq + 1)) []) := by
    refine (Only.foldlM (fun logs friend => only_recordRebuild r q _ logs friend) []).keeps
      fun x i s hs hx => ⟨trivial, fun a z hz => ?_⟩
    have hstores := exec_stores hs env i x
    rw [show (exec env).answer i s x = (a, z) from hz] at hstores
    exact ⟨hstores.1.trans hx.1, hstores.2.trans hx.2⟩
  refine (wp_bind _ _).mpr (wp_mono (wp_and (wp_recordRebuilds hlogged
    (nodup_buildInputFriends db q.buildInputId) (fun i hi => ?_) r q _) (hstored _ ⟨hqueue, rfl⟩)) ?_
    fun _ _ h => h.1.elim)
  · exact (le_of_mem_buildInputFriends hi).trans_eq hh.records.seq.symm
  rintro d _ ⟨⟨logs, hadd⟩, hdqueue, hdinputs⟩
  refine (wp_bind _ _).mpr (wp_stmt_run (fun i n w hE => ?_) fun i e hE => nomatch hE)
  cases hE
  have hrec : Reported q (recordOf r q (y.buildLogs.seq + 1) logs) db (deleteQueued [q.id] d).2 := by
    refine ⟨hadd.sources.trans hh.records.sources, hadd.inputs.trans hh.records.inputs, ?_,
      fun q' hq' => ?_, fun i => ?_, hadd.fresh.congr rfl rfl le_rfl⟩
    · rw [← hh.tries]
      change d.buildInputs.rows.map _ = _
      rw [hdinputs]
      rfl
    · obtain ⟨hmem, hne⟩ := (Table.mem_delete _).mp hq'
      rw [hdqueue] at hmem
      exact ⟨hmem, by simpa using hne⟩
    · rw [show history (deleteQueued [q.id] d).2 i = history d i from history_congr rfl rfl i,
        hadd.history, ← hh.records.history i]
      rfl
  split
  · refine (wp_bind _ _).mpr (wp_stmt_run (fun i u z hE => ?_) fun i e hE => nomatch hE)
    cases hE
    refine wp_retry_rest (s := s) (hrec.retried hl hq hg) ?_ _
    rw [incrementRetries_inputs, hrec.inputs]
    exact hg
  · rename_i hgood
    exact hrec.good hl (congrArg some (not_not.mp hgood))

lemma Limited.submitRebuildReport (hl : Limited env.config.schedule db) (h : Headers)
    (r : RebuildReport) (t : ℕ → Time) :
    Limited env.config.schedule (served env db (.submitRebuildReport h r, t)) := by
  have hworker : Keeps (exec env).rules (Limited env.config.schedule)
      (Handler.worker env.config h) := by
    refine (only_worker env.config h).keeps fun x i s hs hx => ⟨trivial, fun a y hy => ?_⟩
    have hh := exec_harmless env i (s := s) (by cases s <;> first | rfl | cases hs) x
    rw [show (exec env).answer i s x = (a, y) from hy] at hh
    exact hx.harmless hh
  have hwp : wp (exec env).rules (Handler.submitRebuildReport env.config h r)
      (fun y _ => Limited env.config.schedule y) (fun y _ => Limited env.config.schedule y) db := by
    refine (wp_bind _ _).mpr ((wp_attempt _).mpr (wp_mono (hworker db hl) ?_ fun _ _ h => h))
    rintro d w hd
    refine (wp_bind _ _).mpr (wp_stmt_run (fun i q y hE => ?_) fun i e hE => hd)
    obtain ⟨hq, -, rfl⟩ := exec_findQueued hE
    exact (wp_bind _ _).mpr (wp_mono (wp_recordReport hd hq r) (fun _ _ hy => hy) fun _ _ hy => hy)
  obtain ⟨hok, herr⟩ := run_of_wp hwp t
  change Limited _ ((Handler.submitRebuildReport env.config h r).run (exec env) t db).2
  rcases hres : ((Handler.submitRebuildReport env.config h r).run (exec env) t db).1 with e | a
  · exact herr e hres
  · exact hok a hres

end

/-- Every request but those of admins to build packages again. -/
def Call.requeuesNothing : Call → Bool
  | .requestRebuild _ _ => false
  | _ => true

/-- The limits hold in every run in which no admin requeues packages. -/
lemma limited_of_runs {env : Env} {db : Db}
    (h : Runs (served env) (fun _ c => c.1.requeuesNothing = true) env.start db) :
    Limited env.config.schedule db := by
  refine h.inv (Limited.start env _) fun db c _ hdb hc => ?_
  obtain ⟨c, t⟩ := c
  cases c with
  | submitPackageReport hd r =>
    rcases served_packageReport env db hd r t with hsame | hok
    · rw [hsame]
      exact hdb
    · exact hdb.commit hok
  | submitRebuildReport hd r => exact hdb.submitRebuildReport hd r t
  | requestRebuild => cases hc
  | requestWork | pingJob | dropQueuedJobs | dropQueuedJob =>
    exact hdb.harmless (served_harmless env db rfl t)

/-- **No duplicate work among friends**: a group has at most one row in the queue. -/
theorem oneJobPerGroup (env : Env) (db : Db)
    (h : Runs (served env) (fun _ c => c.1.requeuesNothing = true) env.start db) :
    ∀ q ∈ db.queue.rows, ∀ q' ∈ db.queue.rows, ∀ b ∈ db.buildInputs.rows,
      ∀ b' ∈ db.buildInputs.rows, b.id = q.buildInputId → b'.id = q'.buildInputId →
        b.group = b'.group → q = q' := by
  intro q hq q' hq' b hb b' hb' hid hid' hgroup
  refine Table.eq_of_key hq hq' ((limited_of_runs h).one q hq q' hq' b.group ?_ ?_)
  · exact ⟨_, mem_inputs.mpr ⟨b, hb, hid, rfl, rfl⟩⟩
  · exact ⟨_, mem_inputs.mpr ⟨b', hb', hid', rfl, hgroup.symm⟩⟩

/-- A package of two releases fails once. -/
def failedOnce : List Request :=
  atOnce [helloReport "a" "amd64", helloReport "b" "amd64",
    .requestWork (workerHeaders "alice") ⟨["debian"], "amd64", ["amd64"]⟩, reportBy "alice" .bad]

theorem oneJobPerGroup_failedOnce :
    let db := failedOnce.foldl (served (openDaemon (some 2))) (openDaemon (some 2)).start
    ∀ q ∈ db.queue.rows, ∀ q' ∈ db.queue.rows, ∀ b ∈ db.buildInputs.rows,
      ∀ b' ∈ db.buildInputs.rows, b.id = q.buildInputId → b'.id = q'.buildInputId →
        b.group = b'.group → q = q' :=
  oneJobPerGroup (openDaemon (some 2)) _ (Runs.of_allowed (by decide +kernel))

/-- **The retry limit**: the retries of a group in the queue are below the configured maximum, and
no more reports than that are recorded that are not good. -/
theorem retryLimit (env : Env) (m : ℤ) (db : Db) (hm : env.config.schedule.maxRetries = some m)
    (h : Runs (served env) (fun _ c => c.1.requeuesNothing = true) env.start db) :
    (∀ q ∈ db.queue.rows, ∀ b ∈ db.buildInputs.rows, b.id = q.buildInputId →
      ∀ b' ∈ db.buildInputs.rows, b'.group = b.group → b'.retries < m) ∧
    ∀ g, ((failedLogs db g).card : ℤ) ≤ max m 0 := by
  have hl := limited_of_runs h
  refine ⟨fun q hq b hb hid b' hb' hgroup => ?_, fun g => ?_⟩
  · have hbelow := hl.below q hq b.group ⟨_, mem_inputs.mpr ⟨b, hb, hid, rfl, rfl⟩⟩
      (b'.identity, b'.retries) (List.mem_map.mpr ⟨b', hb', rfl⟩) hgroup
    simpa [ScheduleConfig.retriesExhausted, hm] using hbelow
  · rcases hl.counted g with hstart | ⟨x, hx, -, hle⟩
    · rw [hstart]
      exact le_max_right _ _
    · exact hle.trans (hl.bounded m hm x hx)

theorem retryLimit_failedOnce :
    let db := failedOnce.foldl (served (openDaemon (some 2))) (openDaemon (some 2)).start
    (∀ q ∈ db.queue.rows, ∀ b ∈ db.buildInputs.rows, b.id = q.buildInputId →
      ∀ b' ∈ db.buildInputs.rows, b'.group = b.group → b'.retries < 2) ∧
    ∀ g, ((failedLogs db g).card : ℤ) ≤ max 2 0 :=
  retryLimit (openDaemon (some 2)) 2 _ rfl (Runs.of_allowed (by decide +kernel))

end Rebuilderd.Daemon
