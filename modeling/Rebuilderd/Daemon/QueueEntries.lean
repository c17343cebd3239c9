import Rebuilderd.Daemon.QueueListing

/-!
The rows of the queue, as they are listed, got and dropped.

A job is dropped by the id of its queue row, but got by the id of its source package, which is
another one as soon as a package is queued twice or for two architectures.
-/

namespace Rebuilderd.Daemon

open Rebuilderd.Lib Rebuilderd.Common

/-! ### The endpoints -/

/-- The rows come in an order that is not determined; the first one is the answer. -/
def getQueuedJob (shuffle : Shuffle QueuedJob) (id : ℕ) (db : Db) : Option QueuedJob :=
  (shuffle.order (((queueBase db).filter fun (_, _, s) => s.id == id).map queuedJob)).head?

/-- Request `k` of a client that lists the queue page by page. -/
def queuedPage (shuffle : ℕ → Shuffle QueuedJob) (origin : OriginFilter)
    (identity : SourceIdentityFilter) (filter : QueueFilter) (limit : ℤ) (sort : Option String)
    (db : Db) (k : ℕ) (cursor : Option ℤ) : Option (List QueuedJob) :=
  (getQueuedJobs (shuffle k)
    { limit := some limit, before := none, after := cursor, sort := sort, direction := none }
    origin identity filter db).toOption.map (·.records)

/-- A field that is never NULL, by which pages can be sorted without losing a row. -/
def NeverNull (sort : Option String) : Prop :=
  ∀ s ∈ sort, validSortField s = true ∧
    ∃ field, queueColumn s = some field ∧ ∀ j, (field j).isSome = true

/-- The rows of these ids have left the queue, and nothing else has changed. -/
structure Removes (ids : List ℕ) (db db' : Db) : Prop where
  queue : ∀ q, q ∈ db'.queue.rows ↔ q ∈ db.queue.rows ∧ q.id ∉ ids
  others : { db' with queue := db.queue } = db

/-- A request of an administrator. -/
abbrev adminCall (env : Env) (db : Db) (c : Call) (t : ℕ → Time) : Except Err Response × Db :=
  serve (exec env) (handler env.config) db (c, t)

/-- The rows that are dropped are those the filters list. -/
def DropsListed (env : Env) (h : Headers) (origin : OriginFilter) (identity : SourceIdentityFilter)
    (filter : QueueFilter) (db : Db) : Prop :=
  ∀ shuffle limit sort t, 1 ≤ limit → NeverNull sort → ∃ listed,
    Yields (queuedPage shuffle origin identity filter limit sort db) jobId listed ∧
      (adminCall env db (.dropQueuedJobs h origin identity) t).1 = .ok (.dropped listed.length) ∧
      Removes (listed.map (·.id)) db (adminCall env db (.dropQueuedJobs h origin identity) t).2

/-- Dropping addresses the rows of the queue. -/
structure DropsRows (env : Env) (h : Headers) (db : Db) : Prop where
  listed : ∀ shuffle page origin identity filter result,
    getQueuedJobs shuffle page origin identity filter db = .ok result → ∀ j ∈ result.records, ∀ t,
      (adminCall env db (.dropQueuedJob h j.id) t).1 = .ok .noContent ∧
        Removes [j.id] db (adminCall env db (.dropQueuedJob h j.id) t).2
  unknown : ∀ id, (∀ q ∈ db.queue.rows, q.id ≠ id) → ∀ t,
    adminCall env db (.dropQueuedJob h id) t = (.ok .notFound, db)
  filtered : ∀ origin identity, DropsListed env h origin identity ⟨none⟩ db

/-- Getting addresses the rows of the queue. -/
structure GetsRows (db : Db) : Prop where
  listed : ∀ shuffle page origin identity filter result,
    getQueuedJobs shuffle page origin identity filter db = .ok result → ∀ j ∈ result.records,
      ∀ shuffle', getQueuedJob shuffle' j.id db = some j
  unknown : ∀ id, (∀ q ∈ db.queue.rows, q.id ≠ id) → ∀ shuffle, getQueuedJob shuffle id db = none

/-- Every row of the queue has the id of its source package. -/
def OwnSourceId (db : Db) : Prop := ∀ q b s, (q, b, s) ∈ queueBase db → s.id = q.id

section
variable {env : Env} {h : Headers} {db : Db} {origin : OriginFilter}
  {identity : SourceIdentityFilter} {filter : QueueFilter}

/-! ### Listing -/

lemma mem_limitRows {ρ : Type} {limit : Option ℤ} {l : List ρ} {r : ρ} (hr : r ∈ limitRows limit l) :
    r ∈ l := by
  unfold limitRows at hr
  dsimp only at hr
  split at hr
  · exact hr
  · exact List.mem_of_mem_take hr

/-- A page shows rows of the base query. -/
lemma mem_paginate {ρ α : Type} [LinearOrder α] {id : ρ → ℤ} {column : String → Option (ρ → Option α)}
    {page : Page} {base records : List ρ} (hok : paginate id column page base = .ok records) {r : ρ}
    (hr : r ∈ records) : r ∈ base := by
  obtain ⟨limit, before, after, sort, direction⟩ := page
  have hselected {κ : Type} [LinearOrder κ] {key : ρ → κ} {p : ρ → Bool}
      (hr : r ∈ limitRows limit (orderBy key (base.filter p))) : r ∈ base :=
    (List.mem_filter.mp (mem_orderBy.mp (mem_limitRows hr))).1
  unfold paginate at hok
  rcases sort with _ | sort
  · obtain rfl := Except.ok.inj hok
    split at hr <;> exact hselected hr
  · dsimp only at hok
    by_cases hsort : validSortField sort = true
    · rcases hcolumn : column sort with _ | field
      · simp [hsort, hcolumn, throw, throwThe, MonadExceptOf.throw] at hok
      · simp only [hsort, hcolumn, Bool.not_true, Bool.false_eq_true, if_false] at hok
        obtain rfl := Except.ok.inj hok
        split at hr <;> exact hselected hr
    · simp [hsort, throw, throwThe, MonadExceptOf.throw, bind, Except.bind] at hok

lemma mem_getQueuedJobs {shuffle : Shuffle QueuedJob} {page : Page} {result : ResultPage QueuedJob}
    (hok : getQueuedJobs shuffle page origin identity filter db = .ok result) {j : QueuedJob}
    (hj : j ∈ result.records) : j ∈ queuedJobs origin identity filter db := by
  unfold getQueuedJobs at hok
  rcases hpage : paginate jobId queueColumn page
      (shuffle.order (queuedJobs origin identity filter db)) with e | records
  · rw [hpage] at hok
    cases hok
  · rw [hpage] at hok
    obtain rfl := Except.ok.inj hok
    exact (shuffle.perm _).mem_iff.mp (mem_paginate hpage hj)

/-- Every row can be listed: without filters, on one page. -/
lemma listed_alone (shuffle : Shuffle QueuedJob) (db : Db) : ∃ result,
    getQueuedJobs shuffle ⟨some (-1), none, none, none, none⟩ anyOrigin anyIdentity ⟨none⟩ db =
        .ok result ∧
      ∀ row ∈ queueBase db, queuedJob row ∈ result.records := by
  refine ⟨_, rfl, fun row hrow => ?_⟩
  change queuedJob row ∈ orderBy jobId (List.filter (fun _ => true) _)
  rw [List.filter_true, mem_orderBy, (shuffle.perm _).mem_iff]
  obtain ⟨q, b, s⟩ := row
  refine mem_queuedJobs.mpr ⟨q, b, s, hrow, ?_, rfl⟩
  simp [OriginFilter.accepts, SourceIdentityFilter.accepts, anyOrigin, anyIdentity]

lemma queuedPage_eq (shuffle : ℕ → Shuffle QueuedJob) (limit : ℤ) (sort : Option String) :
    queuedPage shuffle origin identity filter limit sort db =
      pageAfter jobId queueColumn (fun k => (shuffle k).order (queuedJobs origin identity filter db))
        limit sort none := by
  funext k cursor
  unfold queuedPage getQueuedJobs pageAfter
  generalize paginate jobId queueColumn _ _ = records
  rcases records with e | records <;> rfl

lemma neverNull_none : NeverNull none := fun _ hs => by cases hs

variable (db origin identity filter) in
/-- Sorted by what is never NULL, all pages list what the filters select. -/
lemma queuedPages_complete (shuffle : ℕ → Shuffle QueuedJob) {limit : ℤ} (hlimit : 1 ≤ limit)
    {sort : Option String} (hsort : NeverNull sort) :
    ∃ listed, Yields (queuedPage shuffle origin identity filter limit sort db) jobId listed ∧
      listed.Perm (queuedJobs origin identity filter db) := by
  have hbase : ∀ k, ((shuffle k).order (queuedJobs origin identity filter db)).Perm
      (queuedJobs origin identity filter db) := fun k => (shuffle k).perm _
  rw [queuedPage_eq]
  rcases sort with _ | s
  · have hpages : Complete (pageAfter jobId queueColumn
        (fun k => (shuffle k).order (queuedJobs origin identity filter db)) limit none none) jobId
        (pageKey jobId queueColumn none) (queuedJobs origin identity filter db) :=
      (pages_complete hlimit rfl hbase (nodup_jobId db)).1
    obtain ⟨listed, hyields, hperm, -⟩ := hpages
    exact ⟨listed, hyields, hperm⟩
  · obtain ⟨hs, field, hfield, hsome⟩ := hsort s rfl
    have hnull : nullRows queueColumn (some s) (queuedJobs origin identity filter db) = [] := by
      rw [nullRows, sortValue_some hfield, List.filter_eq_nil_iff]
      exact fun j _ => by simp [Option.isNone_iff_eq_none, Option.isSome_iff_ne_none.mp (hsome j)]
    obtain ⟨listed, hyields, hperm, -⟩ :=
      (pageAfter_complete hs hfield hlimit (rfl : Option.getD none SortDirection.ascending = _) hbase
        (nodup_jobId db)).mpr
        (.inl (by rw [hnull, List.length_nil]; omega))
    exact ⟨listed, hyields, hperm⟩

/-! ### Dropping -/

lemma answered_dropQueuedJob (hadmin : h.authCookie = some env.config.authCookie) (id : ℕ)
    (t : ℕ → Time) : adminCall env db (.dropQueuedJob h id) t =
      (.ok (if (deleteQueued [id] db).1 < 1 then .notFound else .noContent),
        (deleteQueued [id] db).2) := by
  have hadmin : Handler.admin env.config h = true := by simp [Handler.admin, hadmin]
  change (Handler.dropQueuedJob env.config h id).run (exec env) t db = _
  unfold Handler.dropQueuedJob
  rw [hadmin]
  rfl

lemma answered_dropQueuedJobs (hadmin : h.authCookie = some env.config.authCookie)
    (t : ℕ → Time) : adminCall env db (.dropQueuedJobs h origin identity) t =
      (.ok (.dropped (matchingQueued origin identity db).length),
        (deleteQueued (matchingQueued origin identity db) db).2) := by
  have hadmin : Handler.admin env.config h = true := by simp [Handler.admin, hadmin]
  change (Handler.dropQueuedJobs env.config h origin identity).run (exec env) t db = _
  unfold Handler.dropQueuedJobs
  rw [hadmin]
  rfl

lemma removes_deleteQueued {ids ids' : List ℕ} (hids : ∀ id, id ∈ ids ↔ id ∈ ids') :
    Removes ids db (deleteQueued ids' db).2 := by
  refine ⟨fun q => ?_, rfl⟩
  change q ∈ db.queue.rows.filter _ ↔ _
  simp [hids]

/-- The ids that are dropped are those of the jobs that are listed. -/
lemma matchingQueued_eq : matchingQueued origin identity db =
    (queuedJobs origin identity ⟨none⟩ db).map (·.id) := by
  rw [matchingQueued, queuedJobs, List.map_map]
  simp only [show ((none : Option Bool) != some true) = true from rfl, Bool.true_or,
    Bool.and_true]
  rfl

/-- The jobs of the queue differ in their rows. -/
lemma row_eq {x y : Queued × BuildInput × SourcePackage} (hx : x ∈ queueBase db)
    (hy : y ∈ queueBase db) (hid : x.1.id = y.1.id) : x = y := by
  have hnodup : ((queueBase db).map fun row => row.1.id).Nodup :=
    List.pairwise_map.mpr ((queueBase_sorted db).imp fun hlt => hlt.ne)
  exact List.inj_on_of_nodup_map hnodup hx hy hid

lemma job_started {j : QueuedJob} (hj : j ∈ queuedJobs origin identity filter db)
    (hstarted : filter.started = some true) : j.startedAt.isSome = true := by
  obtain ⟨q, b, s, -, haccepts, rfl⟩ := mem_queuedJobs.mp hj
  have hq : q.startedAt.isSome = true := by
    simpa [hstarted] using (Bool.and_eq_true_iff.mp haccepts).2
  exact hq

lemma queuedJobs_started (hall : filter.started = some true →
    ∀ j ∈ queuedJobs origin identity ⟨none⟩ db, j.startedAt.isSome = true) :
    queuedJobs origin identity filter db = queuedJobs origin identity ⟨none⟩ db := by
  unfold queuedJobs
  refine congrArg (List.map queuedJob) (List.filter_congr fun row hrow => ?_)
  obtain ⟨q, b, s⟩ := row
  dsimp only
  rcases haccepts : OriginFilter.accepts origin s b.architecture &&
      SourceIdentityFilter.accepts identity s with _ | _
  · rfl
  · by_cases hstarted : filter.started = some true
    · have hq : q.startedAt.isSome = true := hall hstarted _
        (mem_queuedJobs.mpr ⟨q, b, s, hrow, by simpa using haccepts, rfl⟩)
      simp [hq]
    · simp [bne_iff_ne.mpr hstarted]

/-- Dropping knows nothing of the filter by whether a job was started. -/
lemma dropsListed_iff (hadmin : h.authCookie = some env.config.authCookie) :
    DropsListed env h origin identity filter db ↔ (filter.started = some true →
      ∀ j ∈ queuedJobs origin identity ⟨none⟩ db, j.startedAt.isSome = true) := by
  constructor
  · intro hdrops hstarted j hj
    obtain ⟨listed, hyields, -, hremoves⟩ :=
      hdrops (fun _ => unshuffled) 1 none (fun _ => 0) le_rfl neverNull_none
    obtain ⟨listed', hyields', hperm⟩ := queuedPages_complete db origin identity filter
      (fun _ => unshuffled) le_rfl neverNull_none
    obtain rfl := hyields.unique hyields'
    rw [answered_dropQueuedJobs hadmin] at hremoves
    obtain ⟨q, b, s, hrow, haccepts, rfl⟩ := mem_queuedJobs.mp hj
    have hgone : q ∉ (deleteQueued (matchingQueued origin identity db) db).2.queue.rows := by
      have hmatch : q.id ∈ matchingQueued origin identity db := by
        rw [matchingQueued_eq]
        exact List.mem_map.mpr ⟨_, hj, rfl⟩
      exact fun hmem => ((removes_deleteQueued fun _ => Iff.rfl).queue q).mp hmem |>.2 hmatch
    have hlisted : q.id ∈ listed.map (·.id) := by
      by_contra hnot
      exact hgone ((hremoves.queue q).mpr ⟨(mem_queueBase.mp hrow).1, hnot⟩)
    obtain ⟨j', hj', hid'⟩ := List.mem_map.mp hlisted
    have hmem := hperm.mem_iff.mp hj'
    obtain ⟨q', b', s', hrow', -, rfl⟩ := mem_queuedJobs.mp hmem
    have heq := row_eq hrow' hrow hid'
    exact heq ▸ job_started hmem hstarted
  · intro hall shuffle limit sort t hlimit hsort
    obtain ⟨listed, hyields, hperm⟩ := queuedPages_complete db origin identity filter
      shuffle hlimit hsort
    rw [queuedJobs_started hall] at hperm
    refine ⟨listed, hyields, ?_, ?_⟩
    · rw [answered_dropQueuedJobs hadmin, matchingQueued_eq, List.length_map, hperm.length_eq]
    · rw [answered_dropQueuedJobs hadmin, matchingQueued_eq]
      exact removes_deleteQueued fun id => (hperm.map _).mem_iff

lemma dropsRows (hadmin : h.authCookie = some env.config.authCookie) : DropsRows env h db := by
  constructor
  · intro shuffle page origin identity filter result hok j hj t
    obtain ⟨q, b, s, hrow, -, rfl⟩ := mem_queuedJobs.mp (mem_getQueuedJobs hok hj)
    have hq := (mem_queueBase.mp hrow).1
    have hone : 0 < (deleteQueued [(queuedJob (q, b, s)).id] db).1 :=
      List.length_pos_of_mem (List.mem_filter.mpr ⟨hq, by simp [queuedJob]⟩)
    rw [answered_dropQueuedJob hadmin, if_neg (by omega)]
    exact ⟨rfl, removes_deleteQueued fun _ => Iff.rfl⟩
  · intro id hid t
    have hnone : db.queue.rows.filter (fun q => [id].contains q.id) = [] :=
      List.filter_eq_nil_iff.mpr fun q hq => by simpa using hid q hq
    have hsame : db.queue.delete (fun q => [id].contains q.id) = db.queue :=
      Table.ext (List.filter_eq_self.mpr fun q hq => by simpa using hid q hq) rfl
    rw [answered_dropQueuedJob hadmin, deleteQueued, hnone, hsame]
    rfl
  · exact fun origin identity => (dropsListed_iff hadmin).mpr fun hstarted => by cases hstarted

/-! ### Getting -/

/-- Among the rows of the queue, the one of an id. -/
lemma filter_row {row : Queued × BuildInput × SourcePackage} (hrow : row ∈ queueBase db) :
    (queueBase db).filter (fun x => x.1.id == row.1.id) = [row] := by
  have hnodup : (queueBase db).Nodup := (queueBase_sorted db).imp fun hlt heq => by
    rw [heq] at hlt
    exact hlt.false
  rw [← List.perm_singleton]
  refine (List.perm_ext_iff_of_nodup (hnodup.filter _) (List.nodup_singleton row)).mpr fun x => ?_
  rw [List.mem_filter, List.mem_singleton, beq_iff_eq]
  constructor
  · exact fun hx => row_eq hx.1 hrow hx.2
  · rintro rfl
    exact ⟨hrow, rfl⟩

lemma getQueuedJob_own (hown : OwnSourceId db) (shuffle : Shuffle QueuedJob) (id : ℕ) :
    getQueuedJob shuffle id db =
      (shuffle.order (((queueBase db).filter fun x => x.1.id == id).map queuedJob)).head? := by
  unfold getQueuedJob
  have hsame : (queueBase db).filter (fun x => x.2.2.id == id) =
      (queueBase db).filter fun x => x.1.id == id :=
    List.filter_congr fun x hx => by rw [hown x.1 x.2.1 x.2.2 hx]
  exact congrArg (fun rows => (shuffle.order (rows.map queuedJob)).head?) hsame

lemma getsRows_iff : GetsRows db ↔ OwnSourceId db := by
  constructor
  · intro hgets q b s hrow
    obtain ⟨result, hok, hall⟩ := listed_alone unshuffled db
    have hget := hgets.listed _ _ _ _ _ _ hok _ (hall _ hrow) unshuffled
    obtain ⟨row, hfound, hjob⟩ := List.mem_map.mp (List.mem_of_head? hget)
    obtain ⟨hmem, hsource⟩ := List.mem_filter.mp hfound
    have hid : row.1.id = q.id := congrArg QueuedJob.id hjob
    obtain rfl := row_eq hmem hrow hid
    simpa [queuedJob] using hsource
  · intro hown
    constructor
    · intro shuffle page origin identity filter result hok j hj shuffle'
      obtain ⟨q, b, s, hrow, -, rfl⟩ := mem_queuedJobs.mp (mem_getQueuedJobs hok hj)
      rw [getQueuedJob_own hown, show (queuedJob (q, b, s)).id = q.id from rfl, filter_row hrow,
        List.map_singleton, List.perm_singleton.mp (shuffle'.perm [queuedJob (q, b, s)]),
        List.head?_cons]
    · intro id hid shuffle
      have hnone : (queueBase db).filter (fun x => x.1.id == id) = [] :=
        List.filter_eq_nil_iff.mpr fun x hx => by simpa using hid x.1 (mem_queueBase.mp hx).1
      rw [getQueuedJob_own hown, hnone, List.map_nil, (shuffle.perm []).eq_nil, List.head?_nil]

end

/-- **Jobs are dropped by the id they are listed with, and are got by it exactly if every row of the
queue has the id of its source package.** What is dropped is what the same filters list, unless they
list only what was started. -/
theorem addressesJobs_iff (env : Env) (db : Db) (h : Headers)
    (hadmin : h.authCookie = some env.config.authCookie) :
    (DropsRows env h db ∧ GetsRows db ↔ OwnSourceId db) ∧ DropsRows env h db ∧
      ∀ origin identity filter, DropsListed env h origin identity filter db ↔
        (filter.started = some true →
          ∀ j ∈ queuedJobs origin identity ⟨none⟩ db, j.startedAt.isSome = true) :=
  ⟨(and_iff_right (dropsRows hadmin)).trans getsRows_iff, dropsRows hadmin,
    fun _ _ _ => dropsListed_iff hadmin⟩

/-- `hello` is queued for two architectures. -/
def queuedTwice : List Request := atOnce [helloReport "sid" "amd64", helloReport "sid" "arm64"]

theorem addressesJobs_iff_queuedTwice :
    (DropsRows (openDaemon none) adminHeaders
          (queuedTwice.foldl (served (openDaemon none)) (openDaemon none).start) ∧
        GetsRows (queuedTwice.foldl (served (openDaemon none)) (openDaemon none).start) ↔
      OwnSourceId (queuedTwice.foldl (served (openDaemon none)) (openDaemon none).start)) ∧
    DropsRows (openDaemon none) adminHeaders
        (queuedTwice.foldl (served (openDaemon none)) (openDaemon none).start) ∧
      ∀ origin identity filter, DropsListed (openDaemon none) adminHeaders origin identity filter
          (queuedTwice.foldl (served (openDaemon none)) (openDaemon none).start) ↔
        (filter.started = some true → ∀ j ∈ queuedJobs origin identity ⟨none⟩
          (queuedTwice.foldl (served (openDaemon none)) (openDaemon none).start), j.startedAt.isSome = true) :=
  addressesJobs_iff (openDaemon none) _ adminHeaders rfl

/-- **The second job is not found by its id**, since there is one source package. -/
theorem secondArchitecture_notFound :
    ¬ ∀ env db, Reachable env db → ∀ h, h.authCookie = some env.config.authCookie →
      DropsRows env h db ∧ GetsRows db := by
  intro h
  have hreach : Reachable (openDaemon none)
      (queuedTwice.foldl (served (openDaemon none)) (openDaemon none).start) :=
    reachable_of_runs (Runs.of_forall fun _ _ => trivial)
  have hgets := getsRows_iff.mp (h _ _ hreach adminHeaders rfl).2
  have hsecond : ∃ row ∈ queueBase (queuedTwice.foldl (served (openDaemon none)) (openDaemon none).start),
      row.2.2.id ≠ row.1.id := by decide +kernel
  obtain ⟨row, hrow, hne⟩ := hsecond
  exact hne (hgets row.1 row.2.1 row.2.2 hrow)

end Rebuilderd.Daemon
