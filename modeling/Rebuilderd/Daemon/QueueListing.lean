import Rebuilderd.Daemon.Pagination
import Rebuilderd.Daemon.SharedHistory

/-!
The listing of the queue, walked by priority while jobs finish or are dropped.

The cursor is a row of the queue. Once it is deleted its priority is no longer found, and the walk
ends as if nothing were left.
-/

namespace Rebuilderd.Daemon

open Rebuilderd.Lib Rebuilderd.Common

structure QueueFilter where
  started : Option Bool

/-- The jobs the filters select. -/
def queuedJobs (origin : OriginFilter) (identity : SourceIdentityFilter) (filter : QueueFilter)
    (db : Db) : List QueuedJob :=
  ((queueBase db).filter fun (q, b, s) =>
    OriginFilter.accepts origin s b.architecture && SourceIdentityFilter.accepts identity s &&
      (filter.started != some true || q.startedAt.isSome)).map queuedJob

def jobId (j : QueuedJob) : ℤ := j.id

/-- The columns of `queue_base`. -/
def queueColumn : String → Option (QueuedJob → Option SqlValue)
  | "id" => some fun j => some (Sum.inlₗ j.id)
  | "name" => some fun j => some (Sum.inrₗ j.name)
  | "version" => some fun j => some (Sum.inrₗ j.version)
  | "distribution" => some fun j => some (Sum.inrₗ j.distribution)
  | "release" => some fun j => j.release.map Sum.inrₗ
  | "component" => some fun j => j.component.map Sum.inrₗ
  | "architecture" => some fun j => some (Sum.inrₗ j.architecture)
  | "backend" => some fun j => some (Sum.inrₗ j.backend)
  | "url" => some fun j => some (Sum.inrₗ j.url)
  | "next_retry" => some fun j => j.nextRetry.map fun t => Sum.inrₗ (String.ofList (stored t))
  | "priority" => some fun j => some (Sum.inlₗ j.priority)
  | "queued_at" => some fun j => some (Sum.inrₗ (String.ofList (stored j.queuedAt)))
  | "started_at" => some fun j => j.startedAt.map fun t => Sum.inrₗ (String.ofList (stored t))
  | _ => none

/-- The base query is ordered by priority and day, and then at random; the page sorts it again. -/
def getQueuedJobs (shuffle : Shuffle QueuedJob) (page : Page) (origin : OriginFilter)
    (identity : SourceIdentityFilter) (filter : QueueFilter) (db : Db) :
    Except QueryError (ResultPage QueuedJob) := do
  let records ← paginate jobId queueColumn page (shuffle.order (queuedJobs origin identity filter db))
  return ⟨(queuedJobs origin identity filter db).length, records⟩

/-- Request `k` of `queue ls`, answered from `db k`. -/
def queuePage (shuffle : ℕ → Shuffle QueuedJob) (origin : OriginFilter) (identity : SourceIdentityFilter)
    (filter : QueueFilter) (limit : ℤ) (db : ℕ → Db) (k : ℕ) (cursor : Option ℤ) :
    Option (List QueuedJob) :=
  (getQueuedJobs (shuffle k)
    { limit := some limit, before := none, after := cursor, sort := some "priority",
      direction := none }
    origin identity filter (db k)).toOption.map (·.records)

/-- Between any two requests nothing happens but that some jobs leave the queue. -/
def JobsLeave (db : ℕ → Db) : Prop :=
  ∀ k, ∃ gone : Queued → Bool, db (k + 1) = { db k with queue := (db k).queue.delete gone }

/-- The order of the listing: by priority, then by id. -/
def byPriority : QueuedJob → WithBot SqlValue ×ₗ ℤ := pageKey jobId queueColumn (some "priority")

variable {origin : OriginFilter} {identity : SourceIdentityFilter} {filter : QueueFilter} {db : ℕ → Db}

lemma mem_queuedJobs {db : Db} {j : QueuedJob} :
    j ∈ queuedJobs origin identity filter db ↔ ∃ q b s, (q, b, s) ∈ queueBase db ∧
      (OriginFilter.accepts origin s b.architecture && SourceIdentityFilter.accepts identity s &&
        (filter.started != some true || q.startedAt.isSome)) = true ∧ queuedJob (q, b, s) = j := by
  simp [queuedJobs, and_assoc]

/-- A row of the queue is listed once. -/
lemma queueBase_sorted (db : Db) : (queueBase db).Pairwise fun x y => x.1.id < y.1.id := by
  refine List.pairwise_flatMap.mpr ⟨fun q _ => ?_, db.queue.sorted.imp fun {q q'} hlt x hx y hy => ?_⟩
  · rcases db.buildInputs.filter_key_cases q.buildInputId with hnone | ⟨b, -, hb⟩
    · have hnone : db.buildInputs.rows.filter (·.id == q.buildInputId) = [] := hnone
      simp [hnone]
    · have hb : db.buildInputs.rows.filter (·.id == q.buildInputId) = [b] := hb
      rcases db.sourcePackages.filter_key_cases b.sourcePackageId with hnone | ⟨s, -, hs⟩
      · have hnone : db.sourcePackages.rows.filter (·.id == b.sourcePackageId) = [] := hnone
        simp [hb, hnone]
      · have hs : db.sourcePackages.rows.filter (·.id == b.sourcePackageId) = [s] := hs
        simp [hb, hs]
  · simp only [List.mem_flatMap, List.mem_map] at hx hy
    obtain ⟨b, -, s, -, rfl⟩ := hx
    obtain ⟨b', -, s', -, rfl⟩ := hy
    exact hlt

lemma nodup_jobId (db : Db) : ((queuedJobs origin identity filter db).map jobId).Nodup := by
  rw [queuedJobs, List.map_map, List.nodup_iff_pairwise_ne, List.pairwise_map]
  refine ((queueBase_sorted db).filter _).imp fun {x y} hlt heq => ?_
  have hid : x.1.id = y.1.id := by simpa [jobId, queuedJob] using heq
  omega

/-- Jobs that leave the queue leave the listing, which otherwise stays as it is. -/
lemma queuedJobs_subset (h : JobsLeave db) (k : ℕ) :
    queuedJobs origin identity filter (db (k + 1)) ⊆ queuedJobs origin identity filter (db k) := by
  intro j hj
  obtain ⟨gone, hgone⟩ := h k
  obtain ⟨q, b, s, hmem, haccepts, rfl⟩ := mem_queuedJobs.mp hj
  refine mem_queuedJobs.mpr ⟨q, b, s, ?_, haccepts, rfl⟩
  rw [hgone, mem_queueBase] at hmem
  rw [mem_queueBase]
  exact ⟨(List.mem_filter.mp hmem.1).1, hmem.2⟩

lemma queuePage_eq (shuffle : ℕ → Shuffle QueuedJob) (limit : ℤ) (k : ℕ) (cursor : Option ℤ) :
    queuePage shuffle origin identity filter limit db k cursor =
      pageAfter jobId queueColumn
        (fun k => (shuffle k).order (queuedJobs origin identity filter (db k))) limit
        (some "priority") none k cursor := by
  unfold queuePage getQueuedJobs pageAfter
  generalize paginate jobId queueColumn _ _ = records
  rcases records with e | records <;> rfl

/-- What is asked for with a cursor that is in the queue. -/
lemma queuePage_live {base : ℕ → List QueuedJob} {limit : ℤ} (hlimit : 1 ≤ limit) {k : ℕ}
    (hids : ((base k).map jobId).Nodup) {cursor : Option QueuedJob}
    (hcursor : ∀ last ∈ cursor, last ∈ base k) :
    ∃ shown : List QueuedJob,
      pageAfter jobId queueColumn base limit (some "priority") none k (cursor.map jobId) =
        some (shown.take limit.toNat) ∧
      shown.Pairwise (fun a b => byPriority a < byPriority b) ∧
      ∀ r, r ∈ shown ↔ r ∈ base k ∧ follows byPriority cursor r = true := by
  have hvalid : validSortField "priority" = true := by decide +kernel
  have hkeys : ((base k).map byPriority).Nodup := nodup_pageKey hids
  rcases cursor with _ | last
  · refine ⟨_, pageAfter_first hvalid rfl hlimit k rfl, orderBy_strict hkeys, fun r => ?_⟩
    simp [follows, byPriority]
  · refine ⟨_, pageAfter_next hvalid rfl hlimit k rfl hids (hcursor last rfl),
      orderBy_strict (hkeys.sublist (List.filter_sublist.map _)), fun r => ?_⟩
    rw [mem_orderBy, List.mem_filter, sqlRowLt_iff, follows_some]
    exact and_congr_right fun _ => and_iff_right ⟨rfl, rfl⟩

/-- **When a walk over the queue shows every job that stays**: exactly if, whenever the job that is
the cursor has left the queue, no job of the queue comes after it. -/
theorem queueWalk_iff (shuffle : ℕ → Shuffle QueuedJob) {limit : ℤ} (hlimit : 1 ≤ limit) (h : JobsLeave db) :
    ∃ pages, Walks (queuePage shuffle origin identity filter limit db) jobId pages ∧
      ((∀ j, (∀ k < pages.length, j ∈ queuedJobs origin identity filter (db k)) →
          pages.flatten.count j = 1) ↔
        ∀ k last, pages[k]?.bind List.getLast? = some last →
          Usable byPriority (queuedJobs origin identity filter (db (k + 1))) (some last)) := by
  set rows := fun k => queuedJobs origin identity filter (db k) with hrows
  set base := fun k => (shuffle k).order (rows k) with hbase
  have hsub : ∀ k, rows (k + 1) ⊆ rows k := queuedJobs_subset h
  have hstart : ∀ k, rows k ⊆ rows 0 := by
    intro k
    induction k with
    | zero => exact List.Subset.refl _
    | succ k ih => exact fun j hj => ih (hsub k hj)
  have hperm : ∀ k, (base k).Perm (rows k) := fun k => (shuffle k).perm _
  have hids : ∀ k, ((base k).map jobId).Nodup :=
    fun k => ((hperm k).map jobId).nodup_iff.mpr (nodup_jobId _)
  have hask : queuePage shuffle origin identity filter limit db =
      pageAfter jobId queueColumn base limit (some "priority") none := by
    funext k cursor
    exact queuePage_eq shuffle limit k cursor
  have hlive : ∀ k cursor, (∀ last ∈ cursor, last ∈ rows k) → ∃ shown : List QueuedJob,
      queuePage shuffle origin identity filter limit db k (cursor.map jobId) =
        some (shown.take limit.toNat) ∧
      shown.Pairwise (fun a b => byPriority a < byPriority b) ∧
      ∀ r, r ∈ shown ↔ r ∈ rows k ∧ follows byPriority cursor r = true := by
    intro k cursor hcursor
    rw [hask]
    simp only [← (hperm k).mem_iff] at hcursor ⊢
    exact queuePage_live hlimit (hids k) hcursor
  have hgone : ∀ k, ∀ last ∈ rows 0, last ∉ rows k →
      queuePage shuffle origin identity filter limit db k (some (jobId last)) = some [] := by
    intro k last hlast hnot
    rw [hask]
    refine pageAfter_gone (by decide +kernel) rfl hlimit k fun j hj hid => hnot ?_
    have hj : j ∈ rows k := (hperm k).mem_iff.mp hj
    rwa [← List.inj_on_of_nodup_map (nodup_jobId _) (hstart k hj) hlast hid]
  have hfuel : ((rows 0).filter (follows byPriority none)).length < (rows 0).length + 1 :=
    Nat.lt_succ_of_le (List.length_filter_le _ _)
  have hcursor : ∀ last ∈ (none : Option QueuedJob), last ∈ rows 0 := by simp
  obtain ⟨pages, hwalk, hne, hsorted, -, hiff⟩ :=
    walk_shrinking (by omega) hsub hlive hgone hcursor hfuel
  refine ⟨pages, ⟨_, hwalk⟩, ?_⟩
  have hnodup : pages.flatten.Nodup := hsorted.imp fun hlt heq => (heq ▸ hlt).false
  have hall : (∀ j, (∀ k < pages.length, j ∈ rows k) → pages.flatten.count j = 1) ↔
      ReceivesAll byPriority rows 0 none pages := by
    refine forall_congr' fun j => ?_
    have hcount : pages.flatten.count j = 1 ↔ j ∈ pages.flatten :=
      ⟨fun h => List.count_pos_iff.mp (by omega), fun h => List.count_eq_one_of_mem hnodup h⟩
    simp only [hcount, Nat.zero_add, follows, Option.all_none, true_implies]
  have hfirst : Usable byPriority (rows 0) none := by
    intro last hlast
    cases hlast
  rw [hall, hiff, and_iff_right hfirst]
  simp only [CursorsUsable, Nat.zero_add, hrows]

/-! ### Two jobs -/

def anyOrigin : OriginFilter := ⟨none, none, none, none⟩
def anyIdentity : SourceIdentityFilter := ⟨none, .exact, none⟩

/-- Two jobs are queued. -/
def twoQueued : Db :=
  served (openDaemon none) (openDaemon none).start (.submitPackageReport adminHeaders
    (debianReport [package "hello" "https://hello", package "world" "https://world"]), fun _ => 0)

/-- The first job has finished before the second request. -/
def firstLeaves : ℕ → Db
  | 0 => twoQueued
  | _ + 1 => { twoQueued with queue := twoQueued.queue.delete (·.id == 1) }

def queuedAs (id : ℕ) (name : String) : QueuedJob where
  id := id
  name := name
  version := "1.0"
  distribution := "debian"
  release := none
  component := none
  architecture := "amd64"
  backend := "debian"
  url := "https://" ++ name
  nextRetry := none
  priority := 1
  queuedAt := 0
  startedAt := none

lemma jobsLeave_firstLeaves : JobsLeave firstLeaves := by
  intro k
  rcases k with _ | k
  · exact ⟨(·.id == 1), rfl⟩
  · refine ⟨fun _ => false, ?_⟩
    have hsame : (firstLeaves (k + 1)).queue.delete (fun _ => false) =
        (firstLeaves (k + 1)).queue := Table.ext (by simp) rfl
    rw [hsame]
    rfl

theorem queueWalk_iff_firstLeaves :
    ∃ pages, Walks (queuePage (fun _ => unshuffled) anyOrigin anyIdentity ⟨none⟩ 1000 firstLeaves)
        jobId pages ∧
      ((∀ j, (∀ k < pages.length, j ∈ queuedJobs anyOrigin anyIdentity ⟨none⟩ (firstLeaves k)) →
          pages.flatten.count j = 1) ↔
        ∀ k last, pages[k]?.bind List.getLast? = some last →
          Usable byPriority (queuedJobs anyOrigin anyIdentity ⟨none⟩ (firstLeaves (k + 1)))
            (some last)) :=
  queueWalk_iff (fun _ => unshuffled) (by decide) jobsLeave_firstLeaves

/-- **In pages of one, the second job is never shown**: the first was the cursor. -/
theorem deletedCursor_endsWalk : ¬ ∀ db, JobsLeave db →
    ∃ pages, Walks (queuePage (fun _ => unshuffled) anyOrigin anyIdentity ⟨none⟩ 1 db) jobId pages ∧
      ∀ j, (∀ k < pages.length, j ∈ queuedJobs anyOrigin anyIdentity ⟨none⟩ (db k)) →
        pages.flatten.count j = 1 := by
  intro hall
  obtain ⟨pages, hwalks, hreceived⟩ := hall firstLeaves jobsLeave_firstLeaves
  have hpages : Walks (queuePage (fun _ => unshuffled) anyOrigin anyIdentity ⟨none⟩ 1 firstLeaves)
      jobId [[queuedAs 1 "hello"], []] := ⟨2, by decide +kernel⟩
  rw [hwalks.unique hpages] at hreceived
  have hworld : ∀ k < 2,
      queuedAs 2 "world" ∈ queuedJobs anyOrigin anyIdentity ⟨none⟩ (firstLeaves k) := by
    decide +kernel
  exact absurd (hreceived (queuedAs 2 "world") hworld) (by decide)

end Rebuilderd.Daemon
