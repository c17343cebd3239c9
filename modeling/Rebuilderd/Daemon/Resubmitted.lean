import Rebuilderd.Daemon.GivingUp
import Rebuilderd.Daemon.Rewritten
import Rebuilderd.Daemon.Visible

/-!
Whether a report that is submitted again changes anything.

The second time, the rows of its packages are there. Groups that the first time has left at rest are
left alone; the others are enqueued now, or given up.
-/

namespace Rebuilderd.Daemon

open Rebuilderd.Lib Rebuilderd.Common

/-- The tables agree but for the times when source packages were last seen. -/
structure SameExceptLastSeen (db db' : Db) : Prop where
  sources : db'.sourcePackages.rows.map SourcePackage.exceptLastSeen =
    db.sourcePackages.rows.map SourcePackage.exceptLastSeen
  inputs : db'.buildInputs.rows = db.buildInputs.rows
  binaries : db'.binaryPackages.rows = db.binaryPackages.rows
  rebuilds : db'.rebuilds.rows = db.rebuilds.rows
  artifacts : db'.rebuildArtifacts.rows = db.rebuildArtifacts.rows
  queue : db'.queue.rows = db.queue.rows

/-- The report leaves nothing to do for the second time. -/
structure Repeatable (c : ScheduleConfig) (T : Ties) (now : Time) (r : PackageReport) (db : Db) : Prop
    extends LeavesAtRest c T now r db where
  takenOver : ListsTakenOver r db

section
variable {c : ScheduleConfig} {T : Ties} {now now' : Time} {r : PackageReport}
  {p q : SourcePackageReport} {db d d₀ d' : Db} {i s : ℕ} {g : Group}

/-! ### Packages that are there already -/

/-- A package that is there is not imported again. -/
lemma importWithHistory_again (hu : Unique d) (h : IsInputOf r p d i) (now : Time)
    (first : Option Time) :
    (importWithHistory now first r p d).1.id = i ∧
      (importWithHistory now first r p d).2.buildInputs.rows = d.buildInputs.rows ∧
      (importWithHistory now first r p d).2.rebuilds = d.rebuilds ∧
      (importWithHistory now first r p d).2.rebuildArtifacts = d.rebuildArtifacts := by
  have himp := importWithHistory_imported now first r p d
  have hid : (importWithHistory now first r p d).1.id = i :=
    isInputOf_unique (unique_importWithHistory hu now first r p) (h.imported himp) himp.isInputOf
  have hold : isNewPackage r p d = false := by
    obtain ⟨s, hs, hname, hversion, horigin, -⟩ := h
    rw [isNewPackage, Bool.not_eq_false']
    exact List.any_eq_true.mpr ⟨s, hs, by simp [hname, hversion, horigin]⟩
  refine ⟨hid, ?_, ?_⟩
  · rcases buildInputs_import_cases now first r p d with hsame | ⟨source, hinsert⟩
    · rw [hsame, Table.rows_skip]
    · -- The row of the package would be the new one.
      exfalso
      obtain ⟨s, hs⟩ := h.inputs
      obtain ⟨b, hb, rfl, -⟩ := mem_inputs.mp hs
      have hle : b.id ≤ d.buildInputs.seq := d.buildInputs.bound b hb
      have hlast : (importWithHistory now first r p d).2.inputs =
          d.inputs ++ [((newBuildInput first r p source).row (d.buildInputs.seq + 1)).identity] := by
        rw [Db.inputs, hinsert]
        exact List.map_append
      rcases himp.inputs with heq | heq <;> rw [hlast] at heq
      · simp at heq
      · have hrow := congrArg Prod.fst (List.append_inj_right' heq rfl |> List.singleton_inj.mp)
        change d.buildInputs.seq + 1 = _ at hrow
        rw [show (importWithHistory now first r p d).1.identity.1 = _ from hid] at hrow
        omega
  · obtain ⟨-, hrebuilds, hartifacts⟩ := importRows_frame now first r p d
    unfold importWithHistory
    dsimp only
    rw [if_neg (by simp [hold])]
    exact ⟨hrebuilds, hartifacts⟩

/-! ### Groups at rest -/

lemma groupQueued_of (hi : d'.inputs = d.inputs) (hq : ∀ q ∈ d.queue.rows, q ∈ d'.queue.rows)
    (h : GroupQueued d g) : GroupQueued d' g := by
  obtain ⟨q, hmem, s, hs⟩ := h
  exact ⟨q, hq q hmem, s, hi ▸ hs⟩

lemma inputs_of_rows (h : d'.buildInputs.rows = d.buildInputs.rows) : d'.inputs = d.inputs := by
  rw [Db.inputs, h]
  rfl

/-- Whether a package is at rest is seen from its build input, the rebuilds and the queue. -/
lemma AtRest.congr (h : AtRest c T r d q) (hids : ∀ i, IsInputOf r q d i → IsInputOf r q d' i)
    (hi : d'.buildInputs.rows = d.buildInputs.rows) (hr : d'.rebuilds.rows = d.rebuilds.rows)
    (hq : d'.queue.rows = d.queue.rows) : AtRest c T r d' q := by
  obtain ⟨i, hin, hor⟩ := h
  have hstatus : getCurrentRebuildStatus T d' i = getCurrentRebuildStatus T d i :=
    getCurrentRebuildStatus_congr T (by rw [hr])
  refine ⟨i, hids i hin, hor.imp hstatus.trans (.imp (fun hqueued => ?_) fun hidle => ?_)⟩
  · exact groupQueued_of (inputs_of_rows hi) (fun q hq' => hq ▸ hq') hqueued
  · rw [UsedUp, Db.tries, members, hi]
    exact hidle

/-- A package that was just enqueued, given up or left alone is at rest. -/
lemma Enqueued.atRest (hin : IsInputOf r p d i) (hsame : SameHistory d d')
    (h : Enqueued c T now d i (reportedGroup r p) d') : AtRest c T r d' p := by
  refine ⟨i, hsame.isInputOf.mpr hin, ?_⟩
  obtain ⟨s, hs⟩ := hin.inputs
  cases h with
  | rests rest same =>
    subst same
    exact rest.imp_right .inl
  | givenUp need free used queue inputs =>
    refine .inr (.inr ⟨hsame.usedUp.mpr used, fun b' hb' => ?_⟩)
    obtain ⟨hmem, hg⟩ := mem_members.mp hb'
    rw [inputs] at hmem
    obtain ⟨b, hb, rfl⟩ := List.mem_map.mp hmem
    split at hg
    · rename_i hgroup
      rw [if_pos hgroup]
    · rename_i hgroup
      exact absurd hg hgroup
  | queued need free unused inputs priority queue =>
    refine .inr (.inl ⟨NewQueued.row ⟨i, priority, now⟩ (d.queue.seq + 1), ?_, s, hsame.inputs ▸ hs⟩)
    rw [queue]
    exact List.mem_append_right _ (List.mem_singleton_self _)

/-- What is at rest stays so when something else is enqueued. -/
lemma Enqueued.keeps_atRest (hsame : SameHistory d d') (h : Enqueued c T now d i g d')
    (hq : AtRest c T r d q) : AtRest c T r d' q := by
  have hkept : ∀ x ∈ d.queue.rows, x ∈ d'.queue.rows := by
    cases h with
    | rests rest same => exact fun x hx => same ▸ hx
    | givenUp need free used queue inputs => exact fun x hx => queue ▸ hx
    | queued need free unused inputs priority queue =>
      exact fun x hx => queue ▸ List.mem_append_left _ hx
  have hnext : ∀ b' ∈ d'.buildInputs.rows, ∃ b ∈ d.buildInputs.rows, b'.group = b.group ∧
      (b.nextRetry = none → b'.nextRetry = none) := by
    cases h with
    | rests rest same => exact fun b hb => ⟨b, same ▸ hb, rfl, id⟩
    | givenUp need free used queue inputs =>
      intro b' hb'
      rw [inputs] at hb'
      obtain ⟨b, hb, rfl⟩ := List.mem_map.mp hb'
      refine ⟨b, hb, ?_⟩
      split
      · exact ⟨rfl, fun _ => rfl⟩
      · exact ⟨rfl, id⟩
    | queued need free unused inputs priority queue => exact fun b hb => ⟨b, inputs ▸ hb, rfl, id⟩
  obtain ⟨j, hj, hor⟩ := hq
  refine ⟨j, hsame.isInputOf.mpr hj, ?_⟩
  rcases hor with hgood | hqueued | ⟨hused, hnone⟩
  · exact .inl ((hsame.status T j).trans hgood)
  · exact .inr (.inl (groupQueued_of hsame.inputs hkept hqueued))
  · refine .inr (.inr ⟨hsame.usedUp.mpr hused, fun b' hb' => ?_⟩)
    obtain ⟨hmem, hg⟩ := mem_members.mp hb'
    obtain ⟨b, hb, hgroup, hclear⟩ := hnext b' hmem
    exact hclear (hnone b (mem_members.mpr ⟨hb, hgroup.symm.trans hg⟩))

/-- A package at rest is left alone. -/
lemma Enqueued.same (hu : Unique d) (hin : IsInputOf r p d i) (hrest : AtRest c T r d p)
    (h : Enqueued c T now d i (reportedGroup r p) d') :
    d'.buildInputs.rows = d.buildInputs.rows ∧ d'.queue.rows = d.queue.rows := by
  obtain ⟨j, hj, hor⟩ := hrest
  obtain rfl := isInputOf_unique hu hin hj
  cases h with
  | rests rest same => rw [same]; exact ⟨rfl, rfl⟩
  | givenUp need free used queue inputs =>
    obtain ⟨-, hnone⟩ := (hor.resolve_left need).resolve_left free
    refine ⟨?_, by rw [queue]⟩
    rw [inputs]
    refine (List.map_congr_left fun b hb => ?_).trans (List.map_id _)
    split
    · rename_i hg
      rw [← hnone b (mem_members.mpr ⟨hb, hg⟩)]
      rfl
    · rfl
  | queued need free unused inputs priority queue =>
    obtain ⟨hused, -⟩ := (hor.resolve_left need).resolve_left free
    exact absurd hused unused

/-! ### The second time -/

/-- The database `d` after the packages `done` were imported again, from `db`. -/
structure Again (c : ScheduleConfig) (T : Ties) (r : PackageReport) (db : Db)
    (done : List SourcePackageReport) (d : Db) : Prop where
  unique : Unique d
  ids : ∀ p ∈ r.packages, ∀ i, IsInputOf r p db i → IsInputOf r p d i
  rebuilds : d.rebuilds = db.rebuilds
  artifacts : d.rebuildArtifacts = db.rebuildArtifacts
  atRest : ∀ p ∈ done, AtRest c T r d p
  still : (∀ p ∈ r.packages, AtRest c T r db p) →
    d.buildInputs.rows = db.buildInputs.rows ∧ d.queue.rows = db.queue.rows

lemma isInputOf_mark (h : IsInputOf r p db i) : IsInputOf r p (markScopedPackagesUnseen r db) i := by
  obtain ⟨s, hs, hname, hversion, horigin, hin⟩ := h
  have hmem : markedSource r db s ∈ (markScopedPackagesUnseen r db).sourcePackages.rows := by
    rw [sources_mark]
    exact List.mem_map.mpr ⟨s, hs, rfl⟩
  refine ⟨_, hmem, ?_⟩
  unfold markedSource
  split <;> exact ⟨hname, hversion, horigin, hin⟩

lemma Again.import {done : List SourcePackageReport} (h : Again c T r db done d) (hp : p ∈ r.packages)
    (hthere : ∃ i, IsInputOf r p db i) (hok : importPackage c T now r d p = .ok d') :
    Again c T r db (done ++ [p]) d' := by
  obtain ⟨first, -, henq⟩ := importPackage_ok hok
  obtain ⟨i, hi⟩ := hthere
  have hi := h.ids p hp i hi
  obtain ⟨-, hinputs, hrebuilds, hartifacts⟩ := importWithHistory_again h.unique hi now first
  have hu₁ := unique_importWithHistory h.unique now first r p
  have himp := importWithHistory_imported now first r p d
  have hin := himp.isInputOf
  have hqueue := (importWithHistory_frame now first r p d).queue
  have hids (q : SourcePackageReport) (j : ℕ) (hj : IsInputOf r q d j) :
      IsInputOf r q (importWithHistory now first r p d).2 j := hj.imported himp
  generalize importWithHistory now first r p d = out
    at hinputs hrebuilds hartifacts hu₁ hin hqueue hids henq
  obtain ⟨input, d₁⟩ := out
  dsimp only at hinputs hrebuilds hartifacts hu₁ hin hqueue hids henq
  obtain ⟨s, hs⟩ := hin.inputs
  have henqueued := enqueued_of_ok hs henq
  have hsame := SameHistory.enqueueImported henq
  have hrows : d₁.buildInputs.rows = d.buildInputs.rows := by rw [hinputs]
  have hjobs : d₁.queue.rows = d.queue.rows := by rw [hqueue]
  refine ⟨unique_import h.unique hok, fun q hq j hj => hsame.isInputOf.mpr (hids q j (h.ids q hq j hj)),
    hsame.rebuilds.trans (hrebuilds.trans h.rebuilds),
    (sameRecords_enqueueImported henq).artifacts.trans (hartifacts.trans h.artifacts), fun q hq => ?_,
    fun hrest => ?_⟩
  · rcases List.mem_append.mp hq with hq | hq
    · refine henqueued.keeps_atRest hsame ((h.atRest q hq).congr (hids q) hrows ?_ hjobs)
      rw [hrebuilds]
    · rw [List.mem_singleton.mp hq]
      exact henqueued.atRest hin hsame
  · obtain ⟨hsameInputs, hsameQueue⟩ := h.still hrest
    have hrest₁ : AtRest c T r d₁ p := (hrest p hp).congr (fun j hj => hids p j (h.ids p hp j hj))
      (hrows.trans hsameInputs) (by rw [hrebuilds, h.rebuilds]) (hjobs.trans hsameQueue)
    obtain ⟨hkeptInputs, hkeptQueue⟩ := henqueued.same hu₁ hin hrest₁
    exact ⟨(hkeptInputs.trans hrows).trans hsameInputs, (hkeptQueue.trans hjobs).trans hsameQueue⟩

/-- The second time, no job is dropped: the first time has left none of a package that is not listed. -/
lemma queue_dropAgain (hu : Unique d₀) (hq : ∀ q ∈ d₀.queue.rows, HasInput q.buildInputId d₀)
    (hok : commitPackageReport c T now r db = .ok d₀)
    (hf : r.packages.foldlM (importPackage c T now' r) (markScopedPackagesUnseen r d₀) = .ok d) :
    (dropUnseenScopedJobs r d).queue.rows = d.queue.rows := by
  have hprog := progress_imports hu hq hf
  have hlisted {s : SourcePackage} (hs : s ∈ d.sourcePackages.rows) (horigin : s.inOriginOf r = true)
      (hunseen : s.seenInLastSync = false) : ¬ Listed r s := by
    rintro ⟨p, hp, hname, hversion⟩
    rw [hprog.seen p hp s hs hname hversion horigin] at hunseen
    cases hunseen
  refine List.filter_eq_self.mpr fun q hmem => ?_
  by_contra hdrop
  have hgone : q ∉ (dropUnseenScopedJobs r d).queue.rows := fun h => hdrop (List.mem_filter.mp h).2
  rw [mem_dropUnseen, not_and, not_not] at hgone
  obtain ⟨hw, b, hb, hbid, harch, s, hs, hsid, horigin, hunseen⟩ := hgone hmem
  rcases hprog.sync.rows q hmem with hold |
    ⟨-, -, p, hp, b', hb', s', hs', hbid', hsid', -, hname, hversion, -⟩
  · obtain ⟨hi, s₀, hs₀, hid₀, hname, hversion, horigin₀⟩ := hprog.sync.unseen b.id b.group s hs
      (mem_inputs.mpr ⟨b, hb, rfl, hsid.symm, rfl⟩) hunseen
    obtain ⟨b₀, hb₀, hbid₀, hbs₀, hbg₀⟩ := mem_inputs.mp hi
    have harch₀ : b₀.architecture = r.architecture := (congrArg Group.architecture hbg₀).trans harch
    obtain ⟨p, hp, hpname, hpversion⟩ := unclaimed_listed hok hold hw hb₀ (hbid₀.trans hbid) harch₀
      hs₀ (hid₀.trans hbs₀.symm) (horigin₀.trans horigin)
    exact hlisted hs horigin hunseen ⟨p, hp, hname.symm.trans hpname, hversion.symm.trans hpversion⟩
  · obtain rfl := Table.eq_of_key hb hb' (hbid.trans hbid'.symm)
    obtain rfl := Table.eq_of_key hs hs' (hsid.trans hsid'.symm)
    exact hlisted hs horigin hunseen ⟨p, hp, hname, hversion⟩

/-- **What the second report changes**, after the first one has been committed. -/
lemma sameExceptLastSeen_iff (hu : Unique db) (hnonneg : ∀ x ∈ db.tries, 0 ≤ x.2)
    (hq : ∀ q ∈ db.queue.rows, HasInput q.buildInputId db)
    (hq' : ∀ q ∈ d.queue.rows, HasInput q.buildInputId d) (hlinked : BinariesLinked db)
    (howned : BinariesOwned db) (hok : commitPackageReport c T now r db = .ok d)
    (hok' : commitPackageReport c T now' r d = .ok d') :
    SameExceptLastSeen d d' ↔ Repeatable c T now r db := by
  have hu' := unique_commit hu hok
  have hrest := atRest_iff hu hnonneg hq hok
  have hbinaries := binaries_again hu hlinked howned hok hok'
  have hsources := sources_again hu hok hok'
  obtain ⟨d₁, hfold₁, rfl⟩ := commitPackageReport_ok hok
  have hthere : ∀ p ∈ r.packages, ∃ i, IsInputOf r p (dropUnseenScopedJobs r d₁) i := by
    intro p hp
    obtain ⟨i, hi, -⟩ := (progress_imports hu hq hfold₁).settled p hp
    exact ⟨i, hi⟩
  obtain ⟨d₂, hfold, rfl⟩ := commitPackageReport_ok hok'
  have hagain : Again c T r (dropUnseenScopedJobs r d₁) r.packages d₂ :=
    foldlM_ok (I := fun done d => Again c T r (dropUnseenScopedJobs r d₁) done d) hfold
      ⟨unique_mark hu' r, fun p hp i hi => isInputOf_mark hi, rfl, rfl, by simp, fun _ => ⟨rfl, rfl⟩⟩
      fun _ p d d' hp hd hstep => hd.import hp (hthere p hp) hstep
  have hdrop := queue_dropAgain hu' hq' hok hfold
  constructor
  · intro hsame
    refine ⟨hrest.mp fun p hp => ?_, hbinaries.mp hsame.binaries⟩
    refine (hagain.atRest p hp).congr (fun i hi => ?_) hsame.inputs.symm ?_ ?_
    · obtain ⟨j, hj⟩ := hthere p hp
      rw [← isInputOf_unique hagain.unique hi (hagain.ids p hp j hj)]
      exact hj
    · exact congrArg Table.rows hagain.rebuilds.symm
    · exact hsame.queue.symm.trans hdrop
  · intro h
    obtain ⟨hinputs, hqueue⟩ := hagain.still (hrest.mpr h.toLeavesAtRest)
    exact ⟨hsources, hinputs, hbinaries.mpr h.takenOver, congrArg Table.rows hagain.rebuilds,
      congrArg Table.rows hagain.artifacts, hdrop.trans hqueue⟩

end

/-! ### Requests -/

/-- The daemon accepts the report: it is the admin's, and the first try of its packages, if there are
any, is a date. -/
def Admits (env : Env) (h : Headers) (r : PackageReport) (t : ℕ → Time) : Prop :=
  h.authCookie = some env.config.authCookie ∧
    (r.packages = [] ∨ FirstTryFits env.config.schedule (t 0))

section
variable {env : Env} {db : Db} {h : Headers} {r : PackageReport} {t : ℕ → Time}

lemma accepted_iff_answer : accepted env db ((h, r), t) = true ↔
    (serve (exec env) (handler env.config) db (.submitPackageReport h r, t)).1 = .ok .noContent := by
  unfold accepted
  dsimp only
  split
  · rename_i heq
    exact iff_of_true rfl heq
  · rename_i hne
    exact iff_of_false Bool.false_ne_true hne

lemma accepted_iff : accepted env db ((h, r), t) = true ↔ Admits env h r t := by
  have hfits : (∃ first, env.config.schedule.firstTry (t 0) = .ok first) ↔
      FirstTryFits env.config.schedule (t 0) := by
    refine ⟨?_, fun hfits => ⟨_, firstTryExact_iff.mpr hfits⟩⟩
    rintro ⟨first, hfirst⟩
    exact (firstTry_ok_iff.mp hfirst).1
  rw [accepted_iff_answer, Admits, ← hfits]
  by_cases hadmin : h.authCookie = some env.config.authCookie
  · rw [served_packageReport_iff hadmin, and_iff_right hadmin]
  · refine iff_of_false ?_ fun h => hadmin h.1
    have hforeign : Handler.admin env.config h = false := by simpa [Handler.admin] using hadmin
    simp [serve, handler, Handler.submitPackageReport, hforeign]

lemma commit_of_admits (ha : Admits env h r t) :
    commitPackageReport env.config.schedule env.ties (t 0) r db =
      .ok (served env db (.submitPackageReport h r, t)) := by
  rcases submit_cases env ⟨db, []⟩ ((h, r), t) with ⟨hno, -⟩ | ⟨-, db', hsubmit, hok⟩
  · rw [accepted_iff.mpr ha] at hno
    cases hno
  · rw [hok]
    exact congrArg (fun x => Except.ok x.db) hsubmit.symm

lemma served_of_not_admits (ha : ¬ Admits env h r t) :
    served env db (.submitPackageReport h r, t) = db := by
  rcases submit_cases env ⟨db, []⟩ ((h, r), t) with ⟨-, hsubmit⟩ | ⟨hyes, -⟩
  · exact congrArg Syncs.db hsubmit
  · exact absurd (accepted_iff.mp hyes) ha

end

/-- **When submitting a report again changes nothing**: after it was accepted in a reachable database,
the second one is refused or the first one has left nothing to do. -/
theorem resubmission_iff (env : Env) (db : Db) (hdb : Reachable env db) (h h' : Headers)
    (r : PackageReport) (t t' : ℕ → Time) (hok : accepted env db ((h, r), t) = true) :
    let once := served env db (.submitPackageReport h r, t)
    SameExceptLastSeen once (served env once (.submitPackageReport h' r, t')) ↔
      (Admits env h' r t' → Repeatable env.config.schedule env.ties (t 0) r db) := by
  intro once
  have hcommit : commitPackageReport env.config.schedule env.ties (t 0) r db = .ok once :=
    commit_of_admits (accepted_iff.mp hok)
  by_cases ha : Admits env h' r t'
  · rw [sameExceptLastSeen_iff (reachable_unique hdb) (reachable_nonneg hdb) (reachable_queueInput hdb)
      (reachable_queueInput (hdb.served _)) (reachable_binariesLinked hdb)
      (reachable_binariesOwned hdb) hcommit (commit_of_admits ha)]
    exact (imp_iff_right ha).symm
  · rw [served_of_not_admits ha]
    exact iff_of_true ⟨rfl, rfl, rfl, rfl, rfl, rfl⟩ fun h => absurd h ha

/-- Two packages with their binary packages. -/
def helloAndWorld : PackageReport := debianReport
  [{ package "hello" "https://hello" with
      artifacts := [⟨"hello", "1.0", "amd64", "https://pool/hello.deb"⟩,
        ⟨"hello-doc", "1.0", "amd64", "https://pool/hello-doc.deb"⟩] },
    { package "world" "https://world" with
      artifacts := [⟨"world", "1.0", "amd64", "https://pool/world.deb"⟩] }]

/-- They are imported, and `alice` is handed the job of one of them. -/
def handedOne : Schedule :=
  serveAt 0 (.submitPackageReport adminHeaders helloAndWorld) 0 ++
  serveAt 1 (.requestWork (workerHeaders "alice") ⟨["debian"], "amd64", ["amd64"]⟩) (10 * second)

/-- They are reported two more times while the job is claimed. -/
theorem resubmission_claimed :
    let once := served (openDaemon none) (runPool (openDaemon none) handedOne).state
      (.submitPackageReport adminHeaders helloAndWorld, fun _ => 20 * second)
    SameExceptLastSeen once (served (openDaemon none) once
      (.submitPackageReport adminHeaders helloAndWorld, fun _ => 30 * second)) := by
  refine (resubmission_iff (openDaemon none) (runPool (openDaemon none) handedOne).state
    ⟨handedOne, rfl⟩ adminHeaders adminHeaders helloAndWorld
    (fun _ => 20 * second) (fun _ => 30 * second) (by decide +kernel)).mpr fun _ => ?_
  have horigin : (runPool (openDaemon none) handedOne).state.sourcePackages.rows.all
      (·.inOriginOf helloAndWorld) = true := by decide +kernel
  refine ⟨⟨fun p hp hneed hdoom => ?_, fun p hp hneed hor hused => ?_⟩, fun b hb hseen htaken => ?_⟩
  · -- No package of the report's origin is missing from it.
    obtain ⟨⟨q, hq, s, hs⟩, hfree⟩ := hdoom
    obtain ⟨-, s', hs', -, -, hmissing⟩ := hfree q hq s hs
    have hlisted : (runPool (openDaemon none) handedOne).state.sourcePackages.rows.all fun s =>
        helloAndWorld.packages.any fun p => s.name = p.name ∧ s.version = p.version := by
      decide +kernel
    have hs'_listed : Listed helloAndWorld s' := by
      simpa [Listed] using List.all_eq_true.mp hlisted s' hs'
    exact absurd hs'_listed hmissing
  · obtain ⟨x, -, -, hex⟩ := hused
    cases hex
  · obtain ⟨-, s, hs, -, hout, -⟩ := htaken
    exact absurd (List.all_eq_true.mp horigin s hs) (by simp [hout])

/-- **A report that is submitted again enqueues a job**: `new` replaces `old` and is built from the
same url; the first time it is not enqueued because of the job of `old`, which is then dropped. -/
theorem replacedPackage_resubmitted : ¬ ∀ env db, Reachable env db → ∀ h h' r t t',
    accepted env db ((h, r), t) = true →
      SameExceptLastSeen (served env db (.submitPackageReport h r, t))
        (served env (served env db (.submitPackageReport h r, t)) (.submitPackageReport h' r, t')) := by
  intro h
  have hqueue := (h (openDaemon none) (runPool (openDaemon none) oldImported).state ⟨oldImported, rfl⟩
    adminHeaders adminHeaders (debianReport [package "new" "https://shared"]) (fun _ => 0) (fun _ => 0)
    (by decide +kernel)).queue
  revert hqueue
  decide +kernel

end Rebuilderd.Daemon
