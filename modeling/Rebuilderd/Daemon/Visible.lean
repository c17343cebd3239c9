import Rebuilderd.Daemon.Dashboard
import Rebuilderd.Daemon.NewRebuilds

/-!
Whether a report is visible once it has been processed.

The listing shows the rebuild that was built last, by the clocks of the workers, and not the one
that was reported last.
-/

namespace Rebuilderd.Daemon

open Rebuilderd.Lib Rebuilderd.Common Prog

/-- The listing has the build input, with this status and this rebuild only. -/
def ShownAs (db : Db) (i : ℕ) (status : BuildStatus) (build : ℕ) : Prop :=
  (∃ row ∈ sourcePackagesRows db, row.2.1.id = i) ∧
    ∀ row ∈ sourcePackagesRows db, row.2.1.id = i →
      (sourcePackageRecord row).status = some status ∧ (sourcePackageRecord row).buildId = some build

/-- The report has left one rebuild more with each friend, and the listing shows it. -/
def ReportVisible (r : RebuildReport) (db db' : Db) : Prop :=
  ∀ q ∈ db.queue.rows, q.id = r.queueId → ∀ i ∈ buildInputFriends db q.buildInputId,
    ∃ rb, rebuildsOf db' i = rebuildsOf db i ++ [rb] ∧ ShownAs db' i r.status rb.id

/-- No friend has a rebuild that was built after the one reported. -/
def builtLast (r : RebuildReport) (db : Db) : Bool :=
  db.queue.rows.all fun q => q.id != r.queueId ||
    (buildInputFriends db q.buildInputId).all fun i =>
      (rebuildsOf db i).all fun x => !sqlLt (some (stored r.builtAt)) x.builtText

section
variable {env : Env} {db db' : Db} {r : RebuildReport} {q : Queued} {i : ℕ} {rb : Rebuild}

lemma builtLast_iff (hq : q ∈ db.queue.rows) (hid : q.id = r.queueId) : builtLast r db = true ↔
    ∀ i ∈ buildInputFriends db q.buildInputId, ∀ x ∈ rebuildsOf db i,
      sqlLt (some (stored r.builtAt)) x.builtText = false := by
  simp only [builtLast, List.all_eq_true, Bool.or_eq_true, bne_iff_ne, Bool.not_eq_true']
  constructor
  · exact fun h => (h q hq).resolve_left (not_not.mpr hid)
  · intro h q' hq'
    refine or_iff_not_imp_left.mpr fun hid' => ?_
    rwa [Table.eq_of_key hq' hq ((not_not.mp hid').trans hid.symm)]

/-- What a served request reaches is reachable. -/
lemma Reachable.served (h : Reachable env db) (c : Request) : Reachable env (served env db c) := by
  obtain ⟨as, rfl⟩ := h
  obtain ⟨bs, hbs⟩ := run_eq_pool (E := exec env) (handler env.config) c.1
    (runPool env as).threads.length (handler env.config c.1) c.2
    (Pool.next (exec env) (handler env.config) (runPool env as) (.call c.1)) (by simp [Pool.next])
  exact ⟨as ++ .call c.1 :: bs, by rw [runPool, Pool.run_append, Pool.run_cons]; exact hbs⟩

/-- The listing shows the rebuild that is the greatest in its order. -/
lemma shownAs_iff (htimes : TimesKnown db) (hsources : SourcesExist db) {b : BuildInput}
    (hb : b ∈ db.buildInputs.rows) {status : BuildStatus} {build : ℕ} : ShownAs db b.id status build ↔
      ∃ rb, latestRebuild db b.id = some rb ∧ rb.status = some status ∧ rb.id = build := by
  have hrow {s : SourcePackage} {b' : BuildInput} {o : Option Rebuild}
      (h : (s, b', o) ∈ sourcePackagesRows db) : o = latestRebuild db b'.id := by
    obtain ⟨-, -, ho⟩ := mem_sourcePackagesRows.mp h
    rwa [unsupersededRebuilds_latest htimes, List.mem_singleton] at ho
  obtain ⟨s, hs, hsid⟩ := hsources b.identity (List.mem_map.mpr ⟨b, hb, rfl⟩)
  have hlisted : (s, b, latestRebuild db b.id) ∈ sourcePackagesRows db :=
    mem_sourcePackagesRows.mpr ⟨hs, ⟨hb, hsid.symm⟩,
      by rw [unsupersededRebuilds_latest htimes]; exact List.mem_singleton_self _⟩
  constructor
  · rintro ⟨-, hall⟩
    obtain ⟨hstatus, hbuild⟩ := hall _ hlisted rfl
    obtain ⟨rb, hlatest, hid⟩ := Option.map_eq_some_iff.mp hbuild
    refine ⟨rb, hlatest, ?_, hid⟩
    simpa [sourcePackageRecord, hlatest] using hstatus
  · rintro ⟨rb, hlatest, hstatus, hid⟩
    refine ⟨⟨_, hlisted, rfl⟩, ?_⟩
    rintro ⟨s', b', o⟩ h hb'
    obtain rfl := hrow h
    have hsame : latestRebuild db b'.id = some rb := by rw [show b'.id = b.id from hb', hlatest]
    simp [sourcePackageRecord, hsame, hstatus, hid]

/-- The rebuild just added is the one shown if and only if none was built later. -/
lemma latestRebuild_new (hlast : rebuildsOf db' i = rebuildsOf db i ++ [rb])
    (hnew : db.rebuilds.seq < rb.id) (hbuilt : rb.builtAt = some r.builtAt)
    (htimes : TimesKnown db) : latestRebuild db' i = some rb ↔
      ∀ x ∈ rebuildsOf db i, sqlLt (some (stored r.builtAt)) x.builtText = false := by
  have horder (x : Rebuild) (hx : x ∈ rebuildsOf db i) :
      x.order ≤ rb.order ↔ sqlLt (some (stored r.builtAt)) x.builtText = false := by
    obtain ⟨hmem, -⟩ := mem_rebuildsOf.mp hx
    have hid : x.id ≤ rb.id := (db.rebuilds.bound x hmem).trans hnew.le
    rw [order_le_iff (htimes x hmem) (by rw [hbuilt]; simp) hid, Rebuild.builtText, hbuilt, Option.map_some]
  have hself : IsLatest db' i (some rb) ↔ ∀ x ∈ rebuildsOf db i, x.order ≤ rb.order := by
    simp [IsLatest, hlast, or_imp, forall_and]
  constructor
  · intro h x hx
    have hlatest := isLatest_latestRebuild db' i
    rw [h] at hlatest
    exact (horder x hx).mp (hself.mp hlatest x hx)
  · intro h
    exact (hself.mpr fun x hx => (horder x hx).mpr (h x hx)).eq.symm

/-- The report is visible with a friend if and only if it was built last there. -/
lemma shownAs_new (hdb : Reachable env db) (hdb' : Reachable env db')
    (hrb : NewRebuildOf env r q db db' i rb) (hi : ∃ b ∈ db'.buildInputs.rows, b.id = i) :
    ShownAs db' i r.status rb.id ↔ ∀ x ∈ rebuildsOf db i, sqlLt (some (stored r.builtAt)) x.builtText = false := by
  obtain ⟨b, hb, rfl⟩ := hi
  rw [shownAs_iff (reachable_timesKnown hdb') (reachable_sourcesExist hdb') hb,
    ← latestRebuild_new hrb.last hrb.new hrb.builtAt (reachable_timesKnown hdb)]
  constructor
  · rintro ⟨x, hlatest, -, hid⟩
    have hmem : rb ∈ db'.rebuilds.rows :=
      (mem_rebuildsOf.mp (hrb.last ▸ List.mem_append_right _ (List.mem_singleton_self _))).1
    rwa [Table.eq_of_key (latestRebuild_mem hlatest).1 hmem hid] at hlatest
  · exact fun h => ⟨rb, h, hrb.status, rfl⟩

/-- Friends stay when a report is recorded. -/
lemma Recorded.friend (h : Recorded r q db db') (hi : i ∈ buildInputFriends db q.buildInputId) :
    ∃ b ∈ db'.buildInputs.rows, b.id = i := by
  obtain ⟨b, hb, rfl⟩ := List.mem_map.mp hi
  have hin := mem_inputs.mpr ⟨b, (List.mem_filter.mp hb).1, rfl, rfl, rfl⟩
  rw [← h.inputs] at hin
  obtain ⟨b', hb', hid, -⟩ := mem_inputs.mp hin
  exact ⟨b', hb', hid⟩

/-- A report that is visible was built last. -/
lemma ReportVisible.builtLast (hdb : Reachable env db) {h : Headers} {t : ℕ → Time}
    (hok : (serve (exec env) (handler env.config) db (.submitRebuildReport h r, t)).1 =
      .ok .noContent)
    (hvisible : ReportVisible r db (Daemon.served env db (.submitRebuildReport h r, t))) :
    Daemon.builtLast r db = true := by
  obtain ⟨q, hq, hid, hrec, hnew⟩ := served_newRebuilds (reachable_fresh hdb) hok
  refine (builtLast_iff hq hid).mpr fun i hi => ?_
  obtain ⟨rb, hlast, hshown⟩ := hvisible q hq hid i hi
  obtain ⟨rb', hrb'⟩ := hnew i hi
  obtain rfl : rb = rb' := by simpa using hlast.symm.trans hrb'.last
  exact (shownAs_new hdb (hdb.served _) hrb' (hrec.friend hi)).mp hshown

end

/-- **When a report is visible**, for every report that is accepted in a reachable database: exactly
if no friend has a rebuild that was built later. -/
theorem reportVisible_iff (env : Env) (db : Db) (hdb : Reachable env db) (h : Headers)
    (r : RebuildReport) (t : ℕ → Time)
    (hok : (serve (exec env) (handler env.config) db (.submitRebuildReport h r, t)).1 =
      .ok .noContent) :
    ReportVisible r db (served env db (.submitRebuildReport h r, t)) ↔ builtLast r db = true := by
  refine ⟨fun hvisible => hvisible.builtLast hdb hok, fun hbuilt q hq hid i hi => ?_⟩
  obtain ⟨q', hq', hid', hrec, hnew⟩ := served_newRebuilds (reachable_fresh hdb) hok
  obtain rfl := Table.eq_of_key hq hq' (hid.trans hid'.symm)
  obtain ⟨rb, hrb⟩ := hnew i hi
  exact ⟨rb, hrb.last, (shownAs_new hdb (hdb.served _) hrb (hrec.friend hi)).mpr
    ((builtLast_iff hq hid).mp hbuilt i hi)⟩

/-- The database once `alice` has reported a bad rebuild, built at `first`, and was handed the job
again. -/
def handedOutAgain (first : Time) : Db :=
  (runPool (openDaemon none) ((rebuiltTwice first 0).take 68)).state

/-- The second report of `alice`. -/
def goodReport (builtAt : Time) : RebuildReport := ⟨2, builtAt, [], .good, []⟩

theorem reportVisible_iff_rebuiltTwice :
    ReportVisible (goodReport 16) (handedOutAgain 15) (served (openDaemon none) (handedOutAgain 15)
        (.submitRebuildReport (workerHeaders "alice") (goodReport 16), fun _ => 260010 * second)) ↔
      builtLast (goodReport 16) (handedOutAgain 15) = true :=
  reportVisible_iff (openDaemon none) (handedOutAgain 15) ⟨_, rfl⟩ (workerHeaders "alice")
    (goodReport 16) (fun _ => 260010 * second) (by decide +kernel)

/-- **A report that is dated back stays invisible.** -/
theorem datedBack_not_visible :
    let report : Request :=
      (.submitRebuildReport (workerHeaders "alice") (goodReport 15), fun _ => 260010 * second)
    (serve (exec (openDaemon none)) (handler (openDaemon none).config) (handedOutAgain 16) report).1 =
        .ok .noContent ∧
      ¬ ReportVisible (goodReport 15) (handedOutAgain 16)
        (served (openDaemon none) (handedOutAgain 16) report) := by
  have haccepted : (serve (exec (openDaemon none)) (handler (openDaemon none).config)
      (handedOutAgain 16) (.submitRebuildReport (workerHeaders "alice") (goodReport 15),
        fun _ => 260010 * second)).1 = .ok .noContent := by
    decide +kernel
  have hearlier : builtLast (goodReport 15) (handedOutAgain 16) = false := by decide +kernel
  refine ⟨haccepted, fun hvisible => ?_⟩
  have hlast : builtLast (goodReport 15) (handedOutAgain 16) = true :=
    hvisible.builtLast ⟨_, rfl⟩ haccepted
  exact Bool.false_ne_true (hearlier.symm.trans hlast)

end Rebuilderd.Daemon
