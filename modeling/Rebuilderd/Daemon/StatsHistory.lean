import Rebuilderd.Daemon.Pagination
import Rebuilderd.Daemon.Stats

/-!
The history of the statistics: what a collection stores, and what of it is shown.

Each collection of a distribution, a release and an architecture stores a snapshot with its counts by
category. The history has the last snapshot of each day for them.
-/

namespace Rebuilderd.Daemon.Stats

open Rebuilderd.Lib Rebuilderd.Common

/-! ### Tables -/

/-- A row of `stats`. -/
structure SnapshotRow where
  id : ℕ
  capturedAt : Time
  distribution : Option String
  release : Option String
  architecture : Option String
  counts : StatsSnapshot

/-- A row of `stats_categories`. -/
structure CategoryRow where
  id : ℕ
  statsId : ℕ
  category : String
  count : ℤ

instance : Row SnapshotRow := ⟨SnapshotRow.id⟩
instance : Row CategoryRow := ⟨CategoryRow.id⟩

structure Tables where
  stats : Table SnapshotRow
  categories : Table CategoryRow

def Tables.empty : Tables := ⟨.empty, .empty⟩

structure StatsCategoryCount where
  category : String
  count : ℤ

/-- A snapshot as it is returned. -/
structure Snapshot where
  row : SnapshotRow
  categories : List StatsCategoryCount

/-! ### Collecting -/

/-- The arguments of `collect_one`, and the database it reads. -/
structure Collect where
  cfg : StatsConfigFile
  db : Db
  distribution : Option String
  release : Option String
  architecture : Option String
  backend : Option String
  now : Time

def Collect.row (c : Collect) (id : ℕ) : SnapshotRow where
  id := id
  capturedAt := c.now
  distribution := c.distribution
  release := c.release
  architecture := c.architecture
  counts := Daemon.collectOne c.distribution c.release c.architecture c.db

/-- `NewStatsCategory::insert_batch` -/
def insertBatch (statsId : ℕ) (counts : List (String × ℤ)) (t : Table CategoryRow) :
    Table CategoryRow :=
  counts.foldl (fun t x => t.insert fun id => ⟨id, statsId, x.1, x.2⟩) t

/-- Without a backend there are no categories. -/
def categoryCounts (env : Env) (c : Collect) : Except Err (List (String × ℤ)) :=
  match c.backend with
  | some backend => categorizeBadPackages env c.db c.distribution c.release c.architecture
      (c.cfg.categoriesFor backend)
  | none => .ok []

def collectOne (env : Env) (c : Collect) (t : Tables) : Except Err (Snapshot × Tables) := do
  let counts ← categoryCounts env c
  let id := t.stats.seq + 1
  return (⟨c.row id, counts.map fun x => ⟨x.1, x.2⟩⟩,
    ⟨t.stats.insert c.row, insertBatch id counts t.categories⟩)

/-- What a collection stores; one that fails stores nothing. -/
def store (env : Env) (t : Tables) (c : Collect) : Tables :=
  ((collectOne env c t).toOption.map (·.2)).getD t

/-- What is stored after collections, in the order in which they store. -/
def stored (env : Env) (cs : List Collect) : Tables := cs.foldl (store env) .empty

/-- The releases and architectures of a backend. -/
def queryCombosForBackend (db : Db) (distribution : String) : List (Option String × String) :=
  (db.sourcePackages.rows.filter fun s =>
    s.distribution == distribution && s.seenInLastSync).flatMap (fun s =>
      (db.buildInputs.rows.filter (·.sourcePackageId == s.id)).map fun b =>
        (s.release, b.architecture)) |>.dedup

structure StatsCollectRequest where
  backend : Option String
  distribution : Option String
  release : Option String
  architecture : Option String

/-- The collections of a request, which reads the clock once. -/
def collectsOf (cfg : StatsConfigFile) (db : Db) (body : StatsCollectRequest) (now : Time) :
    List Collect :=
  if body.distribution.isNone && body.release.isNone && body.architecture.isNone then
    (cfg.backends.keys.filter (· ≠ "all")).flatMap fun backend =>
      (queryCombosForBackend db backend).map fun (release, architecture) =>
        ⟨cfg, db, some backend, release, some architecture, some backend, now⟩
  else
    [⟨cfg, db, body.distribution, body.release, body.architecture,
      body.backend.or body.distribution, now⟩]

/-- `collect_stats` stops at the first collection that fails. -/
def collectStats (env : Env) : List Collect → Tables → Except Err (List Snapshot) × Tables
  | [], t => (.ok [], t)
  | c :: cs, t =>
    match collectOne env c t with
    | .error e => (.error e, t)
    | .ok (s, t) =>
      let (result, t) := collectStats env cs t
      (result.map (s :: ·), t)

/-! ### Showing -/

structure StatsQuery where
  distribution : Option String
  release : Option String
  architecture : Option String
  since : Option Time
  limit : Option ℤ

/-- A client may ask for any time, which is compared as text. -/
def StatsQuery.selects (q : StatsQuery) (r : SnapshotRow) : Bool :=
  q.distribution.all (r.distribution == some ·) && q.release.all (r.release == some ·) &&
    q.architecture.all (r.architecture == some ·) &&
      q.since.all fun since => decide (Common.stored since ≤ Common.stored r.capturedAt)

/-- The limit that is asked for. -/
def StatsQuery.asked (q : StatsQuery) : ℤ := q.limit.getD 100

/-- The columns a day's snapshots are grouped by. -/
abbrev Group := ℤ × Option String × Option String × Option String

def SnapshotRow.group (r : SnapshotRow) : Group :=
  (date r.capturedAt, r.distribution, r.release, r.architecture)

/-- `SELECT MAX(id) FROM stats GROUP BY …` -/
def latestIds (rows : List SnapshotRow) : List ℕ :=
  (rows.map (·.group)).dedup.filterMap fun g => ((rows.filter (·.group == g)).map (·.id)).max?

/-- The categories of each snapshot. -/
def catsBySnapshot (rows : List CategoryRow) : AList fun _ : ℕ => List StatsCategoryCount :=
  rows.foldl (fun cats r => cats.insert r.statsId
    ((cats.lookup r.statsId).getD [] ++ [⟨r.category, r.count⟩])) ∅

/-- Each snapshot takes its categories out of the map. -/
def attach : AList (fun _ : ℕ => List StatsCategoryCount) → List SnapshotRow → List Snapshot
  | _, [] => []
  | cats, r :: rs => ⟨r, (cats.lookup r.id).getD []⟩ :: attach (cats.erase r.id) rs

/-- `rows` is the order of snapshots of the same time, and `categories` that of the categories. -/
def getStats (rows : Shuffle SnapshotRow) (categories : Shuffle CategoryRow) (q : StatsQuery)
    (t : Tables) : List Snapshot :=
  let ids := latestIds t.stats.rows
  let selected := t.stats.rows.filter fun r => q.selects r && ids.contains r.id
  let page := limitRows (some (min q.asked 10000)) (orderBy (·.capturedAt) (rows.order selected))
  let cats := categories.order
    (t.categories.rows.filter fun r => (page.map (·.id)).contains r.statsId)
  attach (catsBySnapshot cats) page

/-! ### Daily snapshots -/

/-- The snapshot `r` was captured before `r'`: earlier, or at the same time and stored before. -/
def CapturedBefore (r r' : SnapshotRow) : Prop :=
  r.capturedAt < r'.capturedAt ∨ r.capturedAt = r'.capturedAt ∧ r.id < r'.id

/-- The answer to a query is daily and bounded. -/
structure Daily (q : StatsQuery) (t : Tables) (result : List Snapshot) : Prop where
  bounded : (result.length : ℤ) ≤ min (max q.asked 0) 10000
  onePerGroup : (result.map fun s => s.row.group).Nodup
  last : ∀ s ∈ result, s.row ∈ t.stats.rows ∧ ∀ r ∈ t.stats.rows, r.group = s.row.group →
    r = s.row ∨ CapturedBefore r s.row
  ascending : result.Pairwise fun s s' => s.row.capturedAt ≤ s'.row.capturedAt
  ownCategories : ∀ s ∈ result, s.categories.Perm
    ((t.categories.rows.filter (·.statsId == s.row.id)).map fun r => ⟨r.category, r.count⟩)

/-- No collection stores a snapshot after one that has read the clock later, for the same day,
distribution, release and architecture. -/
def InOrder (cs : List Collect) : Prop :=
  cs.Pairwise fun c c' => (c.row 0).group = (c'.row 0).group → c.now ≤ c'.now

/-! ### What is stored -/

section
variable {env : Env} {t : Tables} {c : Collect} {cs : List Collect}

lemma stored_concat : stored env (cs ++ [c]) = store env (stored env cs) c := by
  rw [stored, List.foldl_append]
  rfl

/-- A collection stores its snapshot, or nothing. -/
lemma stats_store (env : Env) (t : Tables) (c : Collect) :
    (store env t c).stats.rows = t.stats.rows ∨
      (store env t c).stats.rows = t.stats.rows ++ [c.row (t.stats.seq + 1)] := by
  unfold store collectOne
  rcases categoryCounts env c with e | counts
  · exact .inl rfl
  · exact .inr rfl

/-- The snapshots are those of collections. -/
lemma exists_collect {r : SnapshotRow} (hr : r ∈ (stored env cs).stats.rows) :
    ∃ c ∈ cs, ∃ id, r = c.row id := by
  induction cs using List.reverseRecOn with
  | nil => exact absurd hr List.not_mem_nil
  | append_singleton cs c ih =>
    rw [stored_concat] at hr
    rcases stats_store env (stored env cs) c with h | h
    · obtain ⟨c', hc', hrow⟩ := ih (h ▸ hr)
      exact ⟨c', List.mem_append_left _ hc', hrow⟩
    · rw [h] at hr
      rcases List.mem_append.mp hr with hr | hr
      · obtain ⟨c', hc', hrow⟩ := ih hr
        exact ⟨c', List.mem_append_left _ hc', hrow⟩
      · exact ⟨c, by simp, _, List.mem_singleton.mp hr⟩

/-- The snapshots of a group are stored in the order in which they were captured. -/
lemma stored_ordered (h : InOrder cs) : (stored env cs).stats.rows.Pairwise fun r r' =>
    r.group = r'.group → r.capturedAt ≤ r'.capturedAt := by
  induction cs using List.reverseRecOn with
  | nil => exact .nil
  | append_singleton cs c ih =>
    obtain ⟨hcs, -, hlast⟩ := List.pairwise_append.mp h
    rw [stored_concat]
    rcases stats_store env (stored env cs) c with hs | hs
    · rw [hs]
      exact ih hcs
    · rw [hs]
      refine List.pairwise_append.mpr ⟨ih hcs, List.pairwise_singleton _ _, fun r hr r' hr' hgroup => ?_⟩
      rw [List.mem_singleton.mp hr'] at hgroup ⊢
      obtain ⟨c', hc', id, rfl⟩ := exists_collect hr
      exact hlast c' hc' c List.mem_cons_self hgroup

/-- A request stores what its first collections store, up to one that fails. -/
lemma exists_prefix (env : Env) (cs : List Collect) (t : Tables) :
    ∃ done, done <+: cs ∧ (collectStats env cs t).2 = done.foldl (store env) t := by
  induction cs generalizing t with
  | nil => exact ⟨[], List.nil_prefix, rfl⟩
  | cons c cs ih =>
    rcases hc : collectOne env c t with e | ⟨s, t'⟩
    · refine ⟨[], List.nil_prefix, ?_⟩
      rw [collectStats, hc]
      rfl
    · obtain ⟨done, hbegins, hrest⟩ := ih t'
      refine ⟨c :: done, List.cons_prefix_cons.mpr ⟨rfl, hbegins⟩, ?_⟩
      have hstore : store env t c = t' := by
        rw [store, hc]
        rfl
      rw [collectStats, hc, List.foldl_cons, hstore]
      exact hrest

/-- The tables after requests that are served one after the other. -/
def served (env : Env) (cfg : StatsConfigFile) (requests : List (Db × StatsCollectRequest × Time)) :
    Tables :=
  requests.foldl (fun t (db, body, now) => (collectStats env (collectsOf cfg db body now) t).2) .empty

lemma now_of_mem_collectsOf {cfg : StatsConfigFile} {db : Db} {body : StatsCollectRequest} {now : Time}
    (hc : c ∈ collectsOf cfg db body now) : c.now = now := by
  unfold collectsOf at hc
  split at hc
  · obtain ⟨backend, -, hcombo⟩ := List.mem_flatMap.mp hc
    obtain ⟨combo, -, rfl⟩ := List.mem_map.mp hcombo
    rfl
  · rw [List.mem_singleton.mp hc]

/-- Requests that are served one after the other, under a clock that does not go back, store in
order. -/
lemma served_inOrder (env : Env) (cfg : StatsConfigFile)
    {requests : List (Db × StatsCollectRequest × Time)}
    (h : requests.Pairwise fun x y => x.2.2 ≤ y.2.2) :
    ∃ cs, InOrder cs ∧ served env cfg requests = stored env cs := by
  suffices ∃ cs : List Collect, cs.Pairwise (fun c c' => c.now ≤ c'.now) ∧
      (∀ c ∈ cs, ∃ x ∈ requests, c.now = x.2.2) ∧ served env cfg requests = stored env cs by
    obtain ⟨cs, hsorted, -, hserved⟩ := this
    refine ⟨cs, hsorted.imp ?_, hserved⟩
    intro c c' hle _
    exact hle
  induction requests using List.reverseRecOn with
  | nil => exact ⟨[], .nil, by simp, rfl⟩
  | append_singleton requests x ih =>
    obtain ⟨hrequests, -, hlast⟩ := List.pairwise_append.mp h
    obtain ⟨cs, hsorted, hfrom, hserved⟩ := ih hrequests
    obtain ⟨done, hbegins, hdone⟩ :=
      exists_prefix env (collectsOf cfg x.1 x.2.1 x.2.2) (served env cfg requests)
    have hnow (c : Collect) (hc : c ∈ done) : c.now = x.2.2 :=
      now_of_mem_collectsOf (hbegins.subset hc)
    refine ⟨cs ++ done, List.pairwise_append.mpr ⟨hsorted, ?_, fun c hc c' hc' => ?_⟩,
      fun c hc => ?_, ?_⟩
    · exact List.pairwise_of_forall_mem_list fun c hc c' hc' => by rw [hnow c hc, hnow c' hc']
    · obtain ⟨y, hy, hcy⟩ := hfrom c hc
      rw [hcy, hnow c' hc']
      exact hlast y hy x List.mem_cons_self
    · rcases List.mem_append.mp hc with hc | hc
      · obtain ⟨y, hy, hcy⟩ := hfrom c hc
        exact ⟨y, List.mem_append_left _ hy, hcy⟩
      · exact ⟨x, by simp, hnow c hc⟩
    · rw [served, List.foldl_append, stored, List.foldl_append, ← stored, ← hserved]
      exact hdone

end

/-! ### The last of each group -/

section
variable {t : Tables} {r r' : SnapshotRow}

lemma mem_latestIds {rows : List SnapshotRow} {id : ℕ} : id ∈ latestIds rows ↔
    ∃ r ∈ rows, r.id = id ∧ ∀ r' ∈ rows, r'.group = r.group → r'.id ≤ r.id := by
  simp only [latestIds, List.mem_filterMap, List.mem_dedup, List.mem_map, List.max?_eq_some_iff,
    List.mem_filter, beq_iff_eq]
  constructor
  · rintro ⟨g, -, ⟨r, ⟨hr, rfl⟩, rfl⟩, hmax⟩
    exact ⟨r, hr, rfl, fun r' hr' hgroup => hmax _ ⟨r', ⟨hr', hgroup⟩, rfl⟩⟩
  · rintro ⟨r, hr, rfl, hmax⟩
    refine ⟨r.group, ⟨r, hr, rfl⟩, ⟨r, ⟨hr, rfl⟩, rfl⟩, ?_⟩
    rintro id ⟨r', ⟨hr', hgroup⟩, rfl⟩
    exact hmax r' hr' hgroup

/-- The snapshots that are not followed by one of their group. -/
def IsLatest (t : Tables) (r : SnapshotRow) : Prop :=
  r ∈ t.stats.rows ∧ ∀ r' ∈ t.stats.rows, r'.group = r.group → r'.id ≤ r.id

lemma id_mem_latestIds (hr : r ∈ t.stats.rows) :
    r.id ∈ latestIds t.stats.rows ↔ IsLatest t r := by
  rw [mem_latestIds]
  constructor
  · rintro ⟨r', hr', hid, hmax⟩
    obtain rfl := Table.eq_of_key hr' hr hid
    exact ⟨hr', hmax⟩
  · rintro ⟨-, hmax⟩
    exact ⟨r, hr, rfl, hmax⟩

lemma IsLatest.eq (h : IsLatest t r) (h' : IsLatest t r') (hgroup : r.group = r'.group) : r = r' :=
  Table.eq_of_key h.1 h'.1 ((h'.2 r h.1 hgroup).antisymm (h.2 r' h'.1 hgroup.symm))

/-- Each snapshot has a latest one of its group. -/
lemma exists_isLatest (hr : r ∈ t.stats.rows) :
    ∃ r', IsLatest t r' ∧ r'.group = r.group := by
  have hne : t.stats.rows.filter (·.group == r.group) ≠ [] :=
    List.ne_nil_of_mem (List.mem_filter.mpr ⟨hr, beq_self_eq_true _⟩)
  obtain ⟨r', hr', hmax⟩ := Multiset.exists_max_image SnapshotRow.id
    (s := (t.stats.rows.filter (·.group == r.group) : Multiset SnapshotRow)) (by simpa using hne)
  obtain ⟨hmem, hgroup⟩ := List.mem_filter.mp (Multiset.mem_coe.mp hr')
  refine ⟨r', ⟨hmem, fun r'' hr'' hsame => ?_⟩, beq_iff_eq.mp hgroup⟩
  refine hmax r'' (Multiset.mem_coe.mpr (List.mem_filter.mpr ⟨hr'', ?_⟩))
  exact beq_iff_eq.mpr (hsame.trans (beq_iff_eq.mp hgroup))

/-- What holds of rows in the order of the table holds of rows in the order of their keys. -/
lemma rel_of_key_lt {ρ : Type} [Row ρ] {t : Table ρ} {R : ρ → ρ → Prop} (h : t.rows.Pairwise R)
    {a b : ρ} (ha : a ∈ t.rows) (hb : b ∈ t.rows) (hlt : key a < key b) : R a b := by
  obtain ⟨i, hi, rfl⟩ := List.mem_iff_getElem.mp ha
  obtain ⟨j, hj, rfl⟩ := List.mem_iff_getElem.mp hb
  have hsorted := List.pairwise_iff_getElem.mp t.sorted
  rcases lt_trichotomy i j with hij | rfl | hij
  · exact List.pairwise_iff_getElem.mp h i j hi hj hij
  · exact absurd hlt (lt_irrefl _)
  · exact absurd hlt (hsorted j i hj hi hij).asymm

/-- The latest snapshot was captured last, if they were stored in order. -/
lemma IsLatest.capturedBefore (hordered : t.stats.rows.Pairwise fun r r' =>
      r.group = r'.group → r.capturedAt ≤ r'.capturedAt) (h : IsLatest t r)
    (hr' : r' ∈ t.stats.rows) (hgroup : r'.group = r.group) : r' = r ∨ CapturedBefore r' r := by
  rcases (h.2 r' hr' hgroup).eq_or_lt with hid | hid
  · exact .inl (Table.eq_of_key hr' h.1 hid)
  · have hle := rel_of_key_lt hordered hr' h.1 hid hgroup
    exact .inr (hle.lt_or_eq.imp_right fun heq => ⟨heq, hid⟩)

/-- If the latest snapshot of a group is not selected, the others are not either. -/
lemma selects_mono {q : StatsQuery} (hordered : t.stats.rows.Pairwise fun r r' =>
      r.group = r'.group → r.capturedAt ≤ r'.capturedAt) (h : IsLatest t r) (hr' : r' ∈ t.stats.rows)
    (hgroup : r'.group = r.group) (hnot : q.selects r = false) : q.selects r' = false := by
  have hle : r'.capturedAt ≤ r.capturedAt := by
    rcases h.capturedBefore hordered hr' hgroup with rfl | hlt | ⟨heq, -⟩
    · exact le_rfl
    · exact hlt.le
    · exact heq.le
  obtain ⟨hday, hdistribution, hrelease, harchitecture⟩ :=
    Prod.mk.inj hgroup |>.imp_right fun hrest => (Prod.mk.inj hrest).imp_right Prod.mk.inj
  -- Both are of one day, in which the texts are ordered as the times are.
  have htext : Common.stored r'.capturedAt ≤ Common.stored r.capturedAt :=
    dateTimeText_le_of_sameDay hle hday
  rw [Bool.eq_false_iff] at hnot ⊢
  refine fun hselects => hnot ?_
  unfold StatsQuery.selects at hselects ⊢
  rw [← hdistribution, ← hrelease, ← harchitecture]
  simp only [Bool.and_eq_true] at hselects ⊢
  refine ⟨hselects.1, ?_⟩
  rcases hsince : q.since with _ | since
  · rfl
  · rw [hsince] at hselects
    exact decide_eq_true ((of_decide_eq_true hselects.2).trans htext)

end

/-! ### Categories -/

lemma lookup_catsBySnapshot (rows : List CategoryRow) (id : ℕ) :
    ((catsBySnapshot rows).lookup id).getD [] =
      (rows.filter (·.statsId == id)).map fun r => ⟨r.category, r.count⟩ := by
  induction rows using List.reverseRecOn with
  | nil => rfl
  | append_singleton rows r ih =>
    rw [catsBySnapshot, List.foldl_append, List.foldl_cons, List.foldl_nil, List.filter_append,
      List.map_append, ← ih]
    by_cases hid : id = r.statsId
    · subst hid
      rw [AList.lookup_insert, List.filter_cons_of_pos (by simp)]
      rfl
    · rw [AList.lookup_insert_ne hid, List.filter_cons_of_neg (by simpa using Ne.symm hid)]
      simp [catsBySnapshot]

/-- Each snapshot finds its categories, since its id comes once. -/
lemma attach_eq {page : List SnapshotRow} (h : (page.map (·.id)).Nodup)
    (cats : AList fun _ : ℕ => List StatsCategoryCount) :
    attach cats page = page.map fun r => ⟨r, (cats.lookup r.id).getD []⟩ := by
  induction page generalizing cats with
  | nil => rfl
  | cons r rs ih =>
    obtain ⟨hnew, hrs⟩ := List.nodup_cons.mp h
    rw [attach, ih hrs, List.map_cons]
    refine congrArg _ (List.map_congr_left fun r' hr' => ?_)
    have hne : r'.id ≠ r.id := fun heq => hnew (List.mem_map.mpr ⟨r', hr', heq⟩)
    rw [AList.lookup_erase_ne hne]

/-! ### The answer -/

section
variable (rows : Shuffle SnapshotRow) (categories : Shuffle CategoryRow) (q : StatsQuery) (t : Tables)

/-- The snapshots that are shown, in their order. -/
def page : List SnapshotRow :=
  limitRows (some (min q.asked 10000)) (orderBy (·.capturedAt) (rows.order
    (t.stats.rows.filter fun r => q.selects r && (latestIds t.stats.rows).contains r.id)))

/-- The snapshots before the limit. -/
lemma mem_selected {r : SnapshotRow} : r ∈ orderBy (·.capturedAt) (rows.order
    (t.stats.rows.filter fun r => q.selects r && (latestIds t.stats.rows).contains r.id)) ↔
      IsLatest t r ∧ q.selects r = true := by
  rw [mem_orderBy, (rows.perm _).mem_iff, List.mem_filter, Bool.and_eq_true, List.contains_iff_mem]
  constructor
  · rintro ⟨hr, hselects, hlatest⟩
    exact ⟨(id_mem_latestIds hr).mp hlatest, hselects⟩
  · rintro ⟨hlatest, hselects⟩
    exact ⟨hlatest.1, hselects, (id_mem_latestIds hlatest.1).mpr hlatest⟩

lemma page_sublist : (page rows q t).Sublist (orderBy (·.capturedAt) (rows.order
    (t.stats.rows.filter fun r => q.selects r && (latestIds t.stats.rows).contains r.id))) := by
  unfold page limitRows
  dsimp only
  split
  · exact .refl _
  · exact List.take_sublist _ _

lemma mem_page {r : SnapshotRow} (h : r ∈ page rows q t) : IsLatest t r ∧ q.selects r = true :=
  (mem_selected rows q t).mp ((page_sublist rows q t).subset h)

lemma page_nodup : ((page rows q t).map (·.id)).Nodup := by
  refine ((page_sublist rows q t).map _).nodup ?_
  refine (((orderBy_perm _ _).trans (rows.perm _)).map _).nodup_iff.mpr ?_
  exact (Table.nodup_keys t.stats).sublist (List.filter_sublist.map _)

lemma getStats_eq : getStats rows categories q t = (page rows q t).map fun r =>
    ⟨r, ((catsBySnapshot (categories.order (t.categories.rows.filter fun c =>
      ((page rows q t).map (·.id)).contains c.statsId))).lookup r.id).getD []⟩ :=
  attach_eq (page_nodup rows q t) _

/-- The categories that are loaded for a page, and of these the ones of one of its snapshots. -/
lemma ownCategories_perm {id : ℕ} {ids : List ℕ} (hid : id ∈ ids) :
    (((categories.order (t.categories.rows.filter fun c => ids.contains c.statsId)).filter
      (·.statsId == id)).map fun c => (⟨c.category, c.count⟩ : StatsCategoryCount)).Perm
        ((t.categories.rows.filter (·.statsId == id)).map fun c => ⟨c.category, c.count⟩) := by
  have hown : (t.categories.rows.filter fun c => ids.contains c.statsId).filter (·.statsId == id) =
      t.categories.rows.filter (·.statsId == id) := by
    rw [List.filter_filter]
    refine List.filter_congr fun c _ => ?_
    by_cases hc : c.statsId = id
    · simp [hc, hid]
    · simp [hc]
  rw [← hown]
  exact ((categories.perm _).filter _).map _

/-- The limit holds exactly if it is not negative or nothing is selected. -/
lemma length_page_iff : ((page rows q t).length : ℤ) ≤ min (max q.asked 0) 10000 ↔
    0 ≤ q.asked ∨ ∀ r, IsLatest t r → q.selects r = false := by
  unfold page limitRows
  dsimp only [Option.getD_some]
  split
  · rename_i hneg
    -- A negative limit is none, so that everything that is selected is shown.
    have hbound : min (max q.asked 0) 10000 = 0 := by omega
    rw [hbound, Int.natCast_le_zero, List.length_eq_zero_iff, List.eq_nil_iff_forall_not_mem]
    simp only [mem_selected, not_and, Bool.not_eq_true]
    have hasked : ¬ 0 ≤ q.asked := by omega
    exact (or_iff_right hasked).symm
  · rename_i hlimit
    refine iff_of_true ?_ (.inl (by omega))
    rw [List.length_take]
    omega

end

/-- **The history is daily and bounded exactly if the limit is not negative**, or nothing is selected. -/
theorem history_daily_iff (env : Env) (cs : List Collect) (rows : Shuffle SnapshotRow)
    (categories : Shuffle CategoryRow) (q : StatsQuery) (h : InOrder cs) :
    Daily q (stored env cs) (getStats rows categories q (stored env cs)) ↔
      0 ≤ q.asked ∨ ∀ r ∈ (stored env cs).stats.rows, q.selects r = false := by
  have hlimit : (0 ≤ q.asked ∨ ∀ r, IsLatest (stored env cs) r → q.selects r = false) ↔
      (0 ≤ q.asked ∨ ∀ r ∈ (stored env cs).stats.rows, q.selects r = false) := by
    refine or_congr_right ⟨fun hnone r hr => ?_, fun hnone r hr => hnone r hr.1⟩
    obtain ⟨r', hlatest, hgroup⟩ := exists_isLatest hr
    exact selects_mono (stored_ordered h) hlatest hr hgroup.symm (hnone r' hlatest)
  rw [← hlimit, ← length_page_iff rows q, getStats_eq]
  refine ⟨fun hdaily => by simpa using hdaily.bounded, fun hbounded => ?_⟩
  exact {
    bounded := by simpa using hbounded
    onePerGroup := by
      rw [List.map_map]
      refine (List.Nodup.of_map _ (page_nodup rows q _)).map_on fun r hr r' hr' hgroup => ?_
      exact (mem_page rows q _ hr).1.eq (mem_page rows q _ hr').1 hgroup
    last := by
      intro s hs
      obtain ⟨r, hr, rfl⟩ := List.mem_map.mp hs
      have hlatest := (mem_page rows q _ hr).1
      exact ⟨hlatest.1, fun r' hr' hgroup => hlatest.capturedBefore (stored_ordered h) hr' hgroup⟩
    ascending := by
      rw [List.pairwise_map]
      exact (orderBy_sorted _ _).sublist (page_sublist rows q _)
    ownCategories := by
      intro s hs
      obtain ⟨r, hr, rfl⟩ := List.mem_map.mp hs
      rw [lookup_catsBySnapshot]
      exact ownCategories_perm categories _ (List.mem_map.mpr ⟨r, hr, rfl⟩) }

/-- A collection of everything, without categories. -/
def collectAt (now : Time) : Collect := ⟨⟨∅⟩, failedOnce, none, none, none, none, now⟩

/-- A query without filters. -/
def everything (limit : Option ℤ) : StatsQuery := ⟨none, none, none, none, limit⟩

theorem history_daily_twoDays :
    let t := stored plainEnv [collectAt 0, collectAt (86400 * second)]
    Daily (everything none) t (getStats unshuffled unshuffled (everything none) t) ↔
      0 ≤ (everything none).asked ∨ ∀ r ∈ t.stats.rows, (everything none).selects r = false :=
  history_daily_iff plainEnv [collectAt 0, collectAt (86400 * second)] unshuffled unshuffled
    (everything none) (by unfold InOrder; decide +kernel)

/-- **A negative limit is no limit.** -/
theorem negativeLimit_unbounded : ¬ ∀ (env : Env) (cs : List Collect) (rows : Shuffle SnapshotRow)
    (categories : Shuffle CategoryRow) (q : StatsQuery), InOrder cs →
      Daily q (stored env cs) (getStats rows categories q (stored env cs)) := by
  intro h
  have hbounded := (h plainEnv [collectAt 0] unshuffled unshuffled (everything (some (-1)))
    (by unfold InOrder; decide +kernel)).bounded
  revert hbounded
  decide +kernel

end Rebuilderd.Daemon.Stats
