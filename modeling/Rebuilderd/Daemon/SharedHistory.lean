import Rebuilderd.Daemon.Recording

/-!
Whether friends share one history.

A report is recorded with every friend there is. A build input that comes later gets the history
of its oldest friend, but only together with a new source package: a known package that gets
another build input, for a second architecture or from another url, starts without a history.
-/

namespace Rebuilderd.Daemon

open Rebuilderd.Lib Rebuilderd.Common

/-- Build inputs with the same url, backend and architecture have the same history. -/
def HistoriesShared (db : Db) : Prop :=
  ∀ b ∈ db.buildInputs.rows, ∀ b' ∈ db.buildInputs.rows, b.group = b'.group →
    history db b.id = history db b'.id

/-! ### When a package gets the history of its friends -/

/-- The package has this build input already. -/
def hasBuildInput (now : Time) (r : PackageReport) (p : SourcePackageReport) (db : Db) : Bool :=
  let source := (newSourcePackage now r p).upsert db
  source.2.buildInputs.rows.any (newBuildInput none r p source.1.id).conflicts

/-- Another build input of the package's group has been rebuilt: there is a history to copy. -/
def friendHasHistory (now : Time) (r : PackageReport) (p : SourcePackageReport) (db : Db) : Bool :=
  let input := (importRows now none r p db).1
  db.buildInputs.rows.any fun b => b.group == reportedGroup r p && b.id != input.id &&
    db.rebuilds.rows.any (·.buildInputId == b.id)

/-- If there is a history to copy, the source package is new exactly if the build input is. -/
def copiesAsCreated (now : Time) (r : PackageReport) (p : SourcePackageReport) (db : Db) : Bool :=
  !friendHasHistory now r p db || isNewPackage r p db == !hasBuildInput now r p db

/-- That is so for each package of a report, in the database it is imported into. -/
def allCopied (c : ScheduleConfig) (T : Ties) (now : Time) (r : PackageReport) :
    List SourcePackageReport → Db → Bool
  | [], _ => true
  | p :: ps, db => copiesAsCreated now r p db &&
    match importPackage c T now r db p with
    | .ok db' => allCopied c T now r ps db'
    | .error _ => true

/-- The condition on a request; `request_rebuild` forgets the results of one friend only. -/
def copiesHistories (env : Env) (db : Db) : Request → Bool
  | (.submitPackageReport _ r, t) => allCopied env.config.schedule env.ties (t 0) r r.packages
      (markScopedPackagesUnseen r db)
  | (.requestRebuild _ _, _) => false
  | _ => true

/-! ### The invariant -/

/-- Friends share their history, and no row refers to what is still to come. -/
structure Shared (db : Db) : Prop where
  fresh : Fresh db
  same : ∀ i s j s' g, (i, s, g) ∈ db.inputs → (j, s', g) ∈ db.inputs → history db i = history db j

section
variable {env : Env} {db db' : Db}

lemma Shared.of_sameRecords (h : Shared db) (hs : SameRecords db db') : Shared db' := by
  refine ⟨hs.fresh h.fresh, fun i s j s' g hi hj => ?_⟩
  rw [hs.history, hs.history]
  rw [hs.inputs] at hi hj
  exact h.same i s j s' g hi hj

/-- Of two build inputs of one group, both are friends of a third or neither is. -/
lemma mem_friends_congr {i s j s' k : ℕ} {g : Group} (hi : (i, s, g) ∈ db.inputs)
    (hj : (j, s', g) ∈ db.inputs) : i ∈ buildInputFriends db k ↔ j ∈ buildInputFriends db k := by
  have half {i s j s' : ℕ} (hi : (i, s, g) ∈ db.inputs) (hj : (j, s', g) ∈ db.inputs)
      (h : i ∈ buildInputFriends db k) : j ∈ buildInputFriends db k := by
    obtain ⟨b, hb, hbid, -, hbg⟩ := mem_inputs.mp hi
    obtain ⟨b', hb', hbid', -, hbg'⟩ := mem_inputs.mp hj
    obtain ⟨b₁, hb₁, hid⟩ := List.mem_map.mp h
    obtain ⟨hmem, hsel⟩ := List.mem_filter.mp hb₁
    obtain rfl := Table.eq_of_key hb hmem (hbid.trans hid.symm)
    refine List.mem_map.mpr ⟨b', List.mem_filter.mpr ⟨hb', ?_⟩, hbid'⟩
    have heq : b'.group = b.group := hbg'.trans hbg.symm
    simp only [BuildInput.group, Group.mk.injEq] at heq
    rw [heq.1, heq.2.1, heq.2.2]
    exact hsel
  exact ⟨half hi hj, half hj hi⟩

lemma Shared.of_recorded (h : Shared db) {r : RebuildReport} {q : Queued} (hr : Recorded r q db db') :
    Shared db' := by
  obtain ⟨logs, hlogs⟩ := hr.history
  refine ⟨hr.fresh, fun i s j s' g hi hj => ?_⟩
  rw [hr.inputs] at hi hj
  rw [hlogs, hlogs, h.same i s j s' g hi hj]
  simp only [mem_friends_congr hi hj]

/-! ### Package reports -/

/-- The id of the imported build input does not depend on the time of its first try. -/
lemma importRows_id (now : Time) (first first' : Option Time) (r : PackageReport)
    (p : SourcePackageReport) (db : Db) :
    (importRows now first r p db).1.id = (importRows now first' r p db).1.id := by
  simp only [importRows, NewBuildInput.upsert, Table.upsert]
  have hconf (source : ℕ) :
    (newBuildInput first r p source).conflicts = (newBuildInput first' r p source).conflicts := rfl
  rw [hconf]
  split <;> rfl

lemma friendHasHistory_eq_false {now : Time} {r : PackageReport} {p : SourcePackageReport}
    (h : friendHasHistory now r p db = false) {first : Option Time} {i s : ℕ}
    (hi : (i, s, reportedGroup r p) ∈ db.inputs) (hne : i ≠ (importRows now first r p db).1.id) :
    history db i = [] := by
  obtain ⟨b, hb, rfl, -, hg⟩ := mem_inputs.mp hi
  rw [importRows_id now first none] at hne
  have hnone := List.any_eq_false.mp h b hb
  simp only [hg, beq_self_eq_true, Bool.true_and, bne_iff_ne.mpr hne, Bool.not_eq_true,
    List.any_eq_false, beq_iff_eq] at hnone
  unfold history
  rw [List.map_eq_nil_iff, List.filter_eq_nil_iff]
  exact fun r hr => by simpa using hnone r hr

/-- An import finds its build input, or creates it with the next id. -/
lemma importRows_inputs (now : Time) (first : Option Time) (r : PackageReport)
    (p : SourcePackageReport) (db : Db) :
    (hasBuildInput now r p db = true ∧ (importRows now first r p db).2.inputs = db.inputs) ∨
      (hasBuildInput now r p db = false ∧
        (importRows now first r p db).1.id = db.buildInputs.seq + 1 ∧
        (importRows now first r p db).2.inputs =
          db.inputs ++ [(importRows now first r p db).1.identity]) := by
  have hother := importRows_other (g := Db.inputs) (fun _ _ => rfl) now first r p db
  have hinput : (importRows now first r p db).1 = ((newBuildInput first r p
      ((newSourcePackage now r p).upsert db).1.id).upsert ((newSourcePackage now r p).upsert db).2).1 := rfl
  dsimp only at hother
  rw [hother, hinput]
  rcases NewBuildInput.upsert_cases (newBuildInput first r p ((newSourcePackage now r p).upsert db).1.id)
    ((newSourcePackage now r p).upsert db).2 with ⟨b, hb, hc, h⟩ | ⟨hc, h⟩ <;> rw [h]
  · exact .inl ⟨List.any_eq_true.mpr ⟨b, hb, hc⟩, rfl⟩
  · refine .inr ⟨List.any_eq_false.mpr fun b hb => ?_, rfl, List.map_append⟩
    rw [Bool.not_eq_true]
    exact hc b hb

/-- The history of the oldest other friend is that of a friend, unless there is none. -/
lemma friendHistory_cases {i s : ℕ} {g : Group} (hi : (i, s, g) ∈ db.inputs) :
    (∃ e s', e ≠ i ∧ (e, s', g) ∈ db.inputs ∧ friendHistory db i = history db e) ∨
      ((∀ e s', (e, s', g) ∈ db.inputs → e = i) ∧ friendHistory db i = []) := by
  unfold friendHistory
  rcases hmin : ((buildInputFriends db i).filter (· ≠ i)).min? with _ | e
  · right
    refine ⟨fun e s' he => ?_, rfl⟩
    by_contra hne
    have hmem : e ∈ (buildInputFriends db i).filter (· ≠ i) :=
      List.mem_filter.mpr ⟨(mem_buildInputFriends_iff hi).mpr ⟨s', he⟩, by simpa using hne⟩
    rw [List.min?_eq_none_iff.mp hmin] at hmem
    cases hmem
  · left
    obtain ⟨hmem, -⟩ := List.min?_eq_some_iff.mp hmin
    obtain ⟨hfriend, hne⟩ := List.mem_filter.mp hmem
    obtain ⟨s', hs'⟩ := (mem_buildInputFriends_iff hi).mp hfriend
    exact ⟨e, s', by simpa using hne, hs', rfl⟩

/-- Importing one package keeps the histories shared, if it copies what it creates. -/
lemma Shared.import {now : Time} {first : Option Time} {r : PackageReport} {p : SourcePackageReport}
    (h : Shared db) (hc : copiesAsCreated now r p db = true) :
    Shared (importWithHistory now first r p db).2 := by
  obtain ⟨hfresh, hhist⟩ := importWithHistory_history now first r p h.fresh
  have himp := importRows_imported now first r p db
  have hrows : ∀ i, history (importRows now first r p db).2 i = history db i :=
    fun i => importRows_history now first r p i
  have hinputs : (importWithHistory now first r p db).2.inputs = (importRows now first r p db).2.inputs := by
    unfold importWithHistory
    dsimp only
    split
    · exact copyExistingRebuilds_frame (g := Db.inputs) (fun _ _ => rfl) (fun _ _ => rfl) _ _
    · rfl
  have hid : (importWithHistory now first r p db).1 = (importRows now first r p db).1 := rfl
  have hin : ((importRows now first r p db).1.id, (importRows now first r p db).1.sourcePackageId,
      reportedGroup r p) ∈ (importRows now first r p db).2.inputs :=
    mem_inputs.mpr ⟨_, himp.stored, rfl, rfl, himp.group⟩
  rw [hid] at hhist
  refine ⟨hfresh, ?_⟩
  rw [hinputs]
  rcases importRows_inputs now first r p db with ⟨hfound, hdb⟩ | ⟨hcreated, hnext, hdb⟩
  · -- The build input is known, so nothing is copied.
    have hsame (i : ℕ) : history (importWithHistory now first r p db).2 i = history db i := by
      rw [hhist]
      split
      · rename_i hcopy
        obtain ⟨rfl, hnew⟩ := hcopy
        have hnone : friendHasHistory now r p db = false := by
          simpa [copiesAsCreated, hnew, hfound] using hc
        rcases friendHistory_cases hin with ⟨e, s', hne, he, hf⟩ | ⟨-, hf⟩ <;> rw [hf]
        · rw [hdb] at he
          rw [hrows, friendHasHistory_eq_false hnone he hne, List.append_nil]
        · rw [List.append_nil]
      · rw [List.append_nil]
    intro i s j s' g hi hj
    rw [hdb] at hi hj
    rw [hsame, hsame]
    exact h.same i s j s' g hi hj
  · have hother {i s : ℕ} {g : Group} (hi : (i, s, g) ∈ db.inputs) :
        i ≠ (importRows now first r p db).1.id := by
      obtain ⟨b, hb, rfl, -, -⟩ := mem_inputs.mp hi
      rw [hnext]
      exact Table.key_ne_next hb
    have hold {i s : ℕ} {g : Group} (hi : (i, s, g) ∈ db.inputs) :
        history (importWithHistory now first r p db).2 i = history db i := by
      rw [hhist, if_neg fun hcopy => hother hi hcopy.1.symm, List.append_nil]
    -- The new build input has what its friends have.
    have hnew {j s' : ℕ} (hj : (j, s', reportedGroup r p) ∈ db.inputs) :
        history (importWithHistory now first r p db).2 (importRows now first r p db).1.id =
          history db j := by
      rw [hhist, history_eq_nil h.fresh (by omega), List.nil_append]
      split
      · rcases friendHistory_cases hin with ⟨e, s, hne, he, hf⟩ | ⟨hnone, -⟩
        · rw [hf, hrows]
          rw [hdb] at he
          rcases List.mem_append.mp he with he | he
          · exact h.same e s j s' _ he hj
          · exact absurd (congrArg Prod.fst (List.mem_singleton.mp he)) hne
        · exact absurd (hnone j s' (hdb ▸ List.mem_append_left _ hj)) (hother hj)
      · rename_i hcopy
        have hknown : isNewPackage r p db = false := by simpa using hcopy
        have hnone : friendHasHistory now r p db = false := by
          simpa [copiesAsCreated, hknown, hcreated] using hc
        exact (friendHasHistory_eq_false hnone hj (hother hj)).symm
    have hself {i s : ℕ} {g : Group} (hi : (i, s, g) ∈ [(importRows now first r p db).1.identity]) :
        i = (importRows now first r p db).1.id ∧ g = reportedGroup r p := by
      have heq := List.mem_singleton.mp hi
      simp only [BuildInput.identity, Prod.mk.injEq] at heq
      exact ⟨heq.1, heq.2.2.trans himp.group⟩
    intro i s j s' g hi hj
    rw [hdb] at hi hj
    rcases List.mem_append.mp hi with hi | hi <;> rcases List.mem_append.mp hj with hj | hj
    · rw [hold hi, hold hj]
      exact h.same i s j s' g hi hj
    · obtain ⟨rfl, rfl⟩ := hself hj
      rw [hold hi, hnew hi]
    · obtain ⟨rfl, rfl⟩ := hself hi
      rw [hold hj, hnew hj]
    · rw [(hself hi).1, (hself hj).1]

/-- Enqueueing leaves packages and histories alone. -/
lemma sameRecords_enqueueImported {c : ScheduleConfig} {T : Ties} {now : Time} {id : ℕ}
    (hok : enqueueImported c T now id db = .ok db') : SameRecords db db' := by
  rcases enqueueImported_cases hok with ⟨-, rfl⟩ | ⟨-, -, n, -, ⟨-, rfl⟩ | ⟨-, priority, rfl⟩⟩
  · exact .refl _
  · have hs : SamePackages db (markBuildInputFriendsAsNonRetriable db id) :=
      ⟨rfl, setNextRetry_inputs _ _ _, rfl, rfl⟩
    exact ⟨hs, rfl, rfl, rfl⟩
  · exact ⟨⟨rfl, rfl, rfl, rfl⟩, rfl, rfl, rfl⟩

lemma shared_packages {c : ScheduleConfig} {T : Ties} {now : Time} {r : PackageReport}
    {ps : List SourcePackageReport} (h : Shared db) (hc : allCopied c T now r ps db = true)
    (hok : ps.foldlM (importPackage c T now r) db = .ok db') : Shared db' := by
  induction ps generalizing db with
  | nil =>
    cases hok
    exact h
  | cons p ps ih =>
    rw [List.foldlM_cons] at hok
    obtain ⟨hp, hrest⟩ := Bool.and_eq_true_iff.mp hc
    rcases himp : importPackage c T now r db p with e | db₁
    · simp [himp, bind, Except.bind] at hok
    · obtain ⟨first, -, henq⟩ := importPackage_ok himp
      rw [himp] at hrest hok
      exact ih ((h.import hp).of_sameRecords (sameRecords_enqueueImported henq)) hrest hok

lemma Shared.commit {c : ScheduleConfig} {T : Ties} {now : Time} {r : PackageReport} (h : Shared db)
    (hc : allCopied c T now r r.packages (markScopedPackagesUnseen r db) = true)
    (hok : commitPackageReport c T now r db = .ok db') : Shared db' := by
  obtain ⟨db₁, hfold, rfl⟩ := commitPackageReport_ok hok
  have hmark : Shared (markScopedPackagesUnseen r db) := ⟨h.fresh.congr rfl rfl le_rfl, h.same⟩
  have hend := shared_packages hmark hc hfold
  exact ⟨hend.fresh.congr rfl rfl le_rfl, hend.same⟩

end

/-- **Friends share one history**, in every run in which a package report that finds a history to
copy creates build inputs together with their source packages only. -/
theorem historiesShared (env : Env) (db : Db)
    (h : Runs (served env) (fun db c => copiesHistories env db c = true) env.start db) :
    HistoriesShared db := by
  have hstart : Shared env.start := ⟨.empty _, by simp [Db.inputs, Env.start, Db.empty]⟩
  have hshared : Shared db := by
    refine h.inv hstart fun db c _ hdb hc => ?_
    obtain ⟨c, t⟩ := c
    cases c with
    | submitPackageReport hd r =>
      rcases served_packageReport env db hd r t with hsame | hok
      · rw [hsame]
        exact hdb
      · exact hdb.commit hc hok
    | submitRebuildReport hd r =>
      rcases served_rebuildReport env db hdb.fresh hd r t with hsame | ⟨q, -, -, hrec⟩
      · exact hdb.of_sameRecords hsame
      · exact hdb.of_recorded hrec
    | requestRebuild => cases hc
    | requestWork | pingJob | dropQueuedJobs | dropQueuedJob =>
      exact hdb.of_sameRecords (served_sameRecords env db t (keepsRecords_of_justified rfl))
  intro b hb b' hb' hg
  exact hshared.same _ _ _ _ b.group (mem_inputs.mpr ⟨b, hb, rfl, rfl, rfl⟩)
    (mem_inputs.mpr ⟨b', hb', rfl, rfl, hg.symm⟩)

instance (db : Db) : Decidable (HistoriesShared db) :=
  inferInstanceAs (Decidable (∀ b ∈ db.buildInputs.rows, ∀ b' ∈ db.buildInputs.rows, _))

/-- The requests of a run, each served at time 0. -/
def atOnce (cs : List Call) : List Request := cs.map fun c => (c, fun _ => 0)

/-- `hello` of a release and an architecture. -/
def helloReport (release architecture : String) : Call :=
  .submitPackageReport adminHeaders
    ⟨"debian", some release, none, architecture, [package "hello" "https://hello"]⟩

/-- `hello` is imported and rebuilt. -/
def helloRebuilt (release architecture : String) : List Call :=
  [helloReport release architecture,
    .requestWork (workerHeaders "alice") ⟨["debian"], architecture, [architecture]⟩,
    reportBy "alice" .good]

/-- A second release has the rebuilt package as well. -/
def copiedRelease : List Request :=
  atOnce (helloRebuilt "a" "amd64" ++ [helloReport "b" "amd64"])

theorem historiesShared_copiedRelease :
    HistoriesShared (copiedRelease.foldl (served (openDaemon none)) (openDaemon none).start) ∧
      (history (copiedRelease.foldl (served (openDaemon none)) (openDaemon none).start) 2).length = 1 :=
  ⟨historiesShared (openDaemon none) _ (Runs.of_allowed (by decide +kernel)), by decide +kernel⟩

/-- A second release has the package rebuilt for `arm64`, but it is reported for `amd64` first. -/
def secondArchitecture : List Request :=
  atOnce (helloRebuilt "a" "arm64" ++ [helloReport "b" "amd64", helloReport "b" "arm64"])

/-- Requests other than those of admins to requeue or drop jobs. -/
def Call.isRoutine : Call → Bool
  | .submitPackageReport _ _ | .requestWork _ _ | .pingJob _ _ | .submitRebuildReport _ _ => true
  | _ => false

/-- **The second architecture of a copied package has no history**: the source package is known by
then, so nothing is copied to its build input. -/
theorem secondArchitecture_not_shared : ¬ ∀ env db,
    Runs (served env) (fun _ c => c.1.isRoutine = true) env.start db → HistoriesShared db := by
  intro h
  have hrun : Runs.allowed (served (openDaemon none)) (fun _ c => c.1.isRoutine) (openDaemon none).start
    secondArchitecture = true := by decide +kernel
  have hshared := h (openDaemon none) _ (Runs.of_allowed hrun)
  have hnot : ¬ HistoriesShared (secondArchitecture.foldl (served (openDaemon none)) (openDaemon none).start) := by
    decide +kernel
  exact hnot hshared

end Rebuilderd.Daemon
