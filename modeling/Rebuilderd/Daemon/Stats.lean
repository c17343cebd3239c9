import Rebuilderd.Daemon.Dashboard
import Rebuilderd.Daemon.StatsConfig
import Rebuilderd.Daemon.StoredLogs
import Rebuilderd.Lib.Tally

/-!
How the statistics count failures by category.

Each bad artifact and each failed rebuild among the latest rebuilds counts for the first category that
matches its logs. The counts are kept by the name of the category, and are read back for each category
of the configuration.
-/

namespace Rebuilderd.Daemon.Stats

open Rebuilderd.Lib Rebuilderd.Common

/-! ### Failures -/

/-- A bad artifact, with its diffoscope log, or a failed rebuild. -/
structure Item where
  rebuildId : ℕ
  diffoscope : Option Bytes

def badArtifacts (db : Db) (latestIds : List ℕ) : List Item := do
  let a ← db.rebuildArtifacts.rows
  let l ← leftJoin db.diffoscopeLogs.rows fun l => a.diffoscopeLogId == some l.id
  if latestIds.contains a.rebuildId && a.status == some .bad then
    return ⟨a.rebuildId, l.map (·.diffoscopeLog)⟩
  else []

def failRebuilds (db : Db) (latestIds : List ℕ) : List Item :=
  (db.rebuilds.rows.filter fun r => latestIds.contains r.id && r.status == some .fail).map fun r =>
    ⟨r.id, none⟩

def itemsOf (db : Db) (latestIds : List ℕ) : List Item :=
  badArtifacts db latestIds ++ failRebuilds db latestIds

/-- The build log of a rebuild in `build_log_map`. -/
def buildLogOf (db : Db) (rebuildId : ℕ) : Option Bytes := do
  let r ← db.rebuilds.rows.find? (·.id == rebuildId)
  let l ← db.buildLogs.rows.find? (·.id == r.buildLogId)
  return l.buildLog

/-! ### Counting -/

/-- The counts by name, and the build logs that have been decompressed. -/
structure Counts where
  counts : AList fun _ : String => ℤ
  logs : AList fun _ : ℕ => Text

section
variable (env : Env) (db : Db) (architecture : Option String)

/-- The cache with the log of the rebuild, unless it has none. -/
def decompressed (logs : AList fun _ : ℕ => Text) (rebuildId : ℕ) : Option (AList fun _ : ℕ => Text) :=
  if rebuildId ∈ logs then some logs
  else (buildLogOf db rebuildId).map fun log => logs.insert rebuildId (env.logText log)

/-- A category whose matcher fails is passed over. -/
def firstMatch (compiled : List CompiledCategory) (log diff : Text) : Option CompiledCategory :=
  compiled.find? fun cat => decide (cat.matches log diff architecture = .ok true)

def Item.diff (item : Item) : Text := (item.diffoscope.map env.logText).getD []

/-- A round of the loop over the items. -/
def countItem (compiled : List CompiledCategory) (s : Counts) (item : Item) : Counts :=
  match decompressed env db s.logs item.rebuildId with
  | none => s
  | some logs =>
    let log := (logs.lookup item.rebuildId).getD []
    match firstMatch architecture compiled log (item.diff env) with
    | some cat =>
      let count := (s.counts.lookup cat.inner.name).getD 0
      ⟨s.counts.insert cat.inner.name (wrap 32 (count + 1)), logs⟩
    | none => ⟨s.counts, logs⟩

end

def categorizeBadPackages (env : Env) (db : Db) (distribution release architecture : Option String)
    (categories : List ErrorCategory) : Except Err (List (String × ℤ)) := do
  let latestIds := categorizedRebuilds distribution release architecture db
  if latestIds.isEmpty then return []
  let items := itemsOf db latestIds
  if items.isEmpty then return []
  let compiled ← categories.mapM (·.compile env)
  let s := items.foldl (countItem env db architecture compiled) ⟨∅, ∅⟩
  return categories.filterMap fun cat => (s.counts.lookup cat.name).map fun c => (cat.name, c)

/-! ### What is to be counted -/

/-- The items of a request. -/
def items (db : Db) (distribution release architecture : Option String) : List Item :=
  itemsOf db (categorizedRebuilds distribution release architecture db)

/-- The category matches the logs. -/
def ErrorCategory.matchesLogs (env : Env) (architecture : Option String) (log diff : Text)
    (cat : ErrorCategory) : Bool :=
  decide ((cat.compile env >>= fun c => c.matches log diff architecture) = .ok true)

lemma ErrorCategory.MatchesAll.matchesLogs {cat : ErrorCategory} (h : cat.MatchesAll) (env : Env)
    (architecture : Option String) (log diff : Text) :
    cat.matchesLogs env architecture log diff = true := by
  rw [ErrorCategory.matchesLogs, h.compile env]
  exact decide_eq_true (h.matches log diff architecture)

/-- The first category that matches an item; without a build log none does. -/
def categoryOf (env : Env) (db : Db) (architecture : Option String) (categories : List ErrorCategory)
    (item : Item) : Option ErrorCategory :=
  (buildLogOf db item.rebuildId).bind fun log =>
    categories.find? (·.matchesLogs env architecture (env.logText log) (item.diff env))

/-- The last category matches everything. -/
def CatchAllLast (categories : List ErrorCategory) : Prop :=
  ∃ init last, categories = init ++ [last] ∧ last.MatchesAll

/-- The counts add up to the items that some category matches, and with a category for all at the end,
to all items. -/
structure Conserved (env : Env) (db : Db) (distribution release architecture : Option String)
    (categories : List ErrorCategory) (counts : List (String × ℤ)) : Prop where
  matched : (counts.map (·.2)).sum = ((items db distribution release architecture).countP fun item =>
    (categoryOf env db architecture categories item).isSome : ℕ)
  all : CatchAllLast categories →
    (counts.map (·.2)).sum = ((items db distribution release architecture).length : ℕ)

/-- No name that an item counts for is that of two categories, and with a category for all, every item
has a build log. -/
structure NamedOnce (env : Env) (db : Db) (distribution release architecture : Option String)
    (categories : List ErrorCategory) : Prop where
  once : ∀ item ∈ items db distribution release architecture, ∀ cat,
    categoryOf env db architecture categories item = some cat →
      (categories.map (·.name)).count cat.name = 1
  logs : CatchAllLast categories → ∀ item ∈ items db distribution release architecture,
    (buildLogOf db item.rebuildId).isSome = true

/-! ### The loop -/

section
variable {env : Env} {db : Db} {architecture : Option String} {categories : List ErrorCategory}
  {compiled : List CompiledCategory} {item : Item} {s : Counts}

/-- Compiling the categories does not change which one matches first. -/
lemma firstMatch_inner (h : categories.mapM (·.compile env) = .ok compiled) (log diff : Text) :
    (firstMatch architecture compiled log diff).map (·.inner) =
      categories.find? (·.matchesLogs env architecture log diff) := by
  induction categories generalizing compiled with
  | nil =>
    cases h
    rfl
  | cons cat categories ih =>
    rw [List.mapM_cons] at h
    rcases hc : cat.compile env with e | c
    · rw [hc] at h
      cases h
    · rcases hcs : categories.mapM (·.compile env) with e | cs
      · rw [hc, hcs] at h
        cases h
      · rw [hc, hcs] at h
        cases h
        have hmatches : cat.matchesLogs env architecture log diff =
            decide (c.matches log diff architecture = .ok true) := by
          rw [ErrorCategory.matchesLogs, hc]
          rfl
        unfold firstMatch at ih ⊢
        rw [List.find?_cons, List.find?_cons, hmatches, ← ih hcs]
        split
        · exact congrArg some (ErrorCategory.compile_inner hc)
        · rfl

/-- The name an item counts for. -/
def nameOf (env : Env) (db : Db) (architecture : Option String) (categories : List ErrorCategory)
    (item : Item) : Option String :=
  (categoryOf env db architecture categories item).map (·.name)

/-- The cache has the logs of the rebuilds, and the counts are those of the items so far. -/
structure CountsOf (env : Env) (db : Db) (architecture : Option String)
    (categories : List ErrorCategory) (done : List Item) (s : Counts) : Prop where
  logs : ∀ id text, s.logs.lookup id = some text →
    ∃ log, buildLogOf db id = some log ∧ text = env.logText log
  counts : ∀ name, s.counts.lookup name =
    if tally (nameOf env db architecture categories) done name = 0 then none
    else some (wrap 32 (tally (nameOf env db architecture categories) done name : ℕ))

lemma wrap_zero : wrap 32 0 = 0 := Int.zero_bmod

lemma wrap_succ (n : ℕ) : wrap 32 (wrap 32 n + 1) = wrap 32 ((n + 1 : ℕ) : ℤ) := by
  unfold wrap
  rw [Nat.cast_add, Nat.cast_one, Int.bmod_add_bmod]

lemma decompressed_eq {done : List Item} (h : CountsOf env db architecture categories done s)
    (id : ℕ) : (decompressed env db s.logs id = none ∧ buildLogOf db id = none) ∨
      ∃ logs log, decompressed env db s.logs id = some logs ∧ buildLogOf db id = some log ∧
        logs.lookup id = some (env.logText log) ∧ ∀ id' text, logs.lookup id' = some text →
          ∃ log, buildLogOf db id' = some log ∧ text = env.logText log := by
  unfold decompressed
  split
  · rename_i hmem
    obtain ⟨text, htext⟩ := Option.isSome_iff_exists.mp (AList.lookup_isSome.mpr hmem)
    obtain ⟨log, hlog, rfl⟩ := h.logs id text htext
    exact .inr ⟨s.logs, log, rfl, hlog, htext, h.logs⟩
  · rcases hlog : buildLogOf db id with _ | log
    · exact .inl ⟨rfl, rfl⟩
    · refine .inr ⟨_, log, rfl, rfl, AList.lookup_insert _, fun id' text htext => ?_⟩
      by_cases hid : id' = id
      · subst hid
        rw [AList.lookup_insert] at htext
        exact ⟨log, hlog, (Option.some.inj htext).symm⟩
      · rw [AList.lookup_insert_ne hid] at htext
        exact h.logs id' text htext

/-- A round counts the item for the first category that matches it. -/
lemma CountsOf.countItem {done : List Item} (h : CountsOf env db architecture categories done s)
    (hc : categories.mapM (·.compile env) = .ok compiled) :
    CountsOf env db architecture categories (done ++ [item])
      (countItem env db architecture compiled s item) := by
  unfold Stats.countItem
  rcases decompressed_eq h item.rebuildId with ⟨hnone, hlog⟩ | ⟨logs, log, hsome, hlog, htext, hlogs⟩
  · have hname : nameOf env db architecture categories item = none := by
      rw [nameOf, categoryOf, hlog]
      rfl
    rw [hnone]
    refine ⟨h.logs, fun name => ?_⟩
    rw [tally_concat, hname]
    exact h.counts name
  · have hfirst : (firstMatch architecture compiled (env.logText log) (item.diff env)).map (·.inner) =
        categories.find? (·.matchesLogs env architecture (env.logText log) (item.diff env)) :=
      firstMatch_inner hc _ _
    have hcategory : categoryOf env db architecture categories item =
        (firstMatch architecture compiled (env.logText log) (item.diff env)).map (·.inner) := by
      rw [hfirst, categoryOf, hlog]
      rfl
    rw [hsome]
    dsimp only
    rw [htext, Option.getD_some]
    rcases hmatch : firstMatch architecture compiled (env.logText log) (item.diff env) with _ | cat
    · have hname : nameOf env db architecture categories item = none := by
        rw [nameOf, hcategory, hmatch]
        rfl
      refine ⟨hlogs, fun name => ?_⟩
      rw [tally_concat, hname]
      exact h.counts name
    · have hname : nameOf env db architecture categories item = some cat.inner.name := by
        rw [nameOf, hcategory, hmatch]
        rfl
      refine ⟨hlogs, fun name => ?_⟩
      rw [tally_concat, hname]
      by_cases hn : name = cat.inner.name
      · subst hn
        rw [AList.lookup_insert, h.counts, if_pos rfl, if_neg (Nat.succ_ne_zero _), ← wrap_succ]
        split
        · rename_i hzero
          rw [hzero, Nat.cast_zero, wrap_zero, Option.getD_none]
        · rw [Option.getD_some]
      · rw [AList.lookup_insert_ne hn, h.counts, if_neg fun heq => hn (Option.some.inj heq).symm,
          Nat.add_zero]

lemma countsOf_items (items : List Item) (hc : categories.mapM (·.compile env) = .ok compiled) :
    CountsOf env db architecture categories items
      (items.foldl (Stats.countItem env db architecture compiled) ⟨∅, ∅⟩) := by
  induction items using List.reverseRecOn with
  | nil => exact ⟨by simp, by simp⟩
  | append_singleton items item ih =>
    rw [List.foldl_append, List.foldl_cons, List.foldl_nil]
    exact ih.countItem hc

/-- What is read back adds up to the counts of the names of all categories. -/
lemma CountsOf.sum_read {done : List Item} (h : CountsOf env db architecture categories done s)
    (cats : List ErrorCategory) :
    ((cats.filterMap fun cat => (s.counts.lookup cat.name).map fun c => (cat.name, c)).map (·.2)).sum =
      ((cats.map (·.name)).map fun name =>
        wrap 32 (tally (nameOf env db architecture categories) done name : ℕ)).sum := by
  induction cats with
  | nil => rfl
  | cons cat cats ih =>
    rw [List.filterMap_cons, List.map_cons, List.map_cons, List.sum_cons, ← ih, h.counts]
    split
    · rename_i hnone
      split at hnone
      · rename_i hzero
        rw [hzero, Nat.cast_zero, wrap_zero, zero_add]
      · cases hnone
    · rename_i hsome
      split at hsome
      · cases hsome
      · cases hsome
        rw [List.map_cons, List.sum_cons]

end

/-! ### Conservation -/

section
variable {env : Env} {db : Db} {distribution release architecture : Option String}
  {categories : List ErrorCategory} {counts : List (String × ℤ)}

lemma categorize_ok
    (h : categorizeBadPackages env db distribution release architecture categories = .ok counts) :
    items db distribution release architecture = [] ∧ counts = [] ∨
      ∃ s, CountsOf env db architecture categories (items db distribution release architecture) s ∧
        counts = categories.filterMap fun cat =>
          (s.counts.lookup cat.name).map fun c => (cat.name, c) := by
  unfold categorizeBadPackages at h
  dsimp only at h
  split at h
  · rename_i hlatest
    cases h
    refine .inl ⟨?_, rfl⟩
    rw [items, List.isEmpty_iff.mp hlatest]
    simp [itemsOf, badArtifacts, failRebuilds]
  · split at h
    · rename_i hitems
      cases h
      exact .inl ⟨List.isEmpty_iff.mp hitems, rfl⟩
    · rcases hc : categories.mapM (·.compile env) with e | compiled
      · rw [hc] at h
        cases h
      · rw [hc] at h
        cases h
        exact .inr ⟨_, countsOf_items _ hc, rfl⟩

/-- The counts add up to those of the names of all categories. -/
lemma sum_counts (hsmall : (items db distribution release architecture).length < 2 ^ 31)
    (h : categorizeBadPackages env db distribution release architecture categories = .ok counts) :
    (counts.map (·.2)).sum = (((categories.map (·.name)).map fun name =>
      tally (nameOf env db architecture categories) (items db distribution release architecture)
        name).sum : ℕ) := by
  rcases categorize_ok h with ⟨hitems, rfl⟩ | ⟨s, hs, rfl⟩
  · simp [hitems, Function.comp_def]
  · rw [hs.sum_read]
    induction categories.map (·.name) with
    | nil => rfl
    | cons name names ih =>
      have hname : wrap 32 (tally (nameOf env db architecture categories)
          (items db distribution release architecture) name : ℕ) =
            (tally (nameOf env db architecture categories)
              (items db distribution release architecture) name : ℕ) :=
        (wrap_iff _).mpr (lt_of_le_of_lt tally_le hsmall)
      rw [List.map_cons, List.map_cons, List.sum_cons, List.sum_cons, Nat.cast_add, ← ih, hname]

end

/-- **The counts are conserved exactly if no name that an item counts for is that of two categories**,
and, with a category for all at the end, every item has a build log. -/
theorem countsConserved_iff (env : Env) (db : Db) (cfg : StatsConfigFile) (backend : String)
    (distribution release architecture : Option String) (counts : List (String × ℤ))
    (h : categorizeBadPackages env db distribution release architecture
      (cfg.categoriesFor backend) = .ok counts)
    (hsmall : (items db distribution release architecture).length < 2 ^ 31) :
    Conserved env db distribution release architecture (cfg.categoriesFor backend) counts ↔
      NamedOnce env db distribution release architecture (cfg.categoriesFor backend) := by
  have hsum := sum_counts hsmall h
  have hnames : ∀ item ∈ items db distribution release architecture, ∀ name,
      nameOf env db architecture (cfg.categoriesFor backend) item = some name →
        name ∈ (cfg.categoriesFor backend).map (·.name) := by
    intro item _ name hname
    obtain ⟨cat, hcat, rfl⟩ := Option.map_eq_some_iff.mp hname
    obtain ⟨log, -, hfind⟩ := Option.bind_eq_some_iff.mp hcat
    exact List.mem_map.mpr ⟨cat, List.mem_of_find?_eq_some hfind, rfl⟩
  have hcategory (item : Item) :
      (nameOf env db architecture (cfg.categoriesFor backend) item).isSome =
        (categoryOf env db architecture (cfg.categoriesFor backend) item).isSome :=
    Option.isSome_map
  have honce := sum_tally_eq_iff hnames
  simp only [hcategory] at honce
  constructor
  · rintro ⟨hmatched, hall⟩
    have hcount := honce.mp (Nat.cast_injective (hsum.symm.trans hmatched))
    refine ⟨fun item hitem cat hcat => hcount item hitem cat.name ?_, fun hlast item hitem => ?_⟩
    · rw [nameOf, hcat]
      rfl
    · have hlength := Nat.cast_injective (hmatched.symm.trans (hall hlast))
      have hsome := List.countP_eq_length.mp hlength item hitem
      obtain ⟨cat, hcat⟩ := Option.isSome_iff_exists.mp hsome
      obtain ⟨log, hlog, -⟩ := Option.bind_eq_some_iff.mp hcat
      rw [hlog]
      rfl
  · rintro ⟨hname, hlogs⟩
    have hcount : _ = _ := honce.mpr fun item hitem name hitemName => by
      obtain ⟨cat, hcat, rfl⟩ := Option.map_eq_some_iff.mp hitemName
      exact hname item hitem cat hcat
    refine ⟨hsum.trans (congrArg _ hcount), fun hlast => hsum.trans (congrArg _ (hcount.trans ?_))⟩
    refine List.countP_eq_length.mpr fun item hitem => ?_
    obtain ⟨log, hlog⟩ := Option.isSome_iff_exists.mp (hlogs hlast item hitem)
    obtain ⟨init, last, hcategories, hmatches⟩ := hlast
    rw [categoryOf, hlog, Option.bind_some, List.find?_isSome, hcategories]
    exact ⟨last, by simp, hmatches.matchesLogs env architecture _ _⟩

/-! ### The backend `all` -/

/-- A database with one package, whose rebuild failed. -/
def failedOnce : Db where
  sourcePackages := Table.empty.insert
    (NewSourcePackage.row ⟨"hello", "1.0", "debian", none, none, 0, true, none, none, none⟩)
  buildInputs := Table.empty.insert
    (NewBuildInput.row ⟨1, "https://hello.buildinfo", "debian", "amd64", 0, none⟩)
  binaryPackages := .empty
  buildLogs := Table.empty.insert fun id => ⟨id, [0x21]⟩
  diffoscopeLogs := .empty
  attestationLogs := .empty
  rebuilds := Table.empty.insert (NewRebuild.row ⟨1, some 0, some second, 1, some .fail⟩)
  rebuildArtifacts := .empty
  queue := .empty
  workers := .empty

/-- Logs are stored as they are, and no pattern is valid. -/
def plainEnv : Env := ⟨fun _ => .error .io, some⟩

def otherCategory : ErrorCategory :=
  ⟨"other", none, none, none, none, none, none, none, false, true, []⟩

/-- A configuration with a universal category for everything. -/
def universalConfig : StatsConfigFile :=
  ⟨(∅ : AList fun _ : String => BackendStats).insert "all" ⟨[otherCategory]⟩⟩

theorem countsConserved_failedOnce :
    Conserved plainEnv failedOnce (some "debian") none none (universalConfig.categoriesFor "debian")
        [("other", 1)] ↔
      NamedOnce plainEnv failedOnce (some "debian") none none
        (universalConfig.categoriesFor "debian") :=
  countsConserved_iff plainEnv failedOnce universalConfig "debian" (some "debian") none none
    [("other", 1)] (by decide +kernel) (by decide +kernel)

/-- **The backend `all` has its categories twice**, so that each failure is counted twice. -/
theorem allBackend_countsTwice : ¬ ∀ (env : Env) (db : Db) (cfg : StatsConfigFile) (backend : String)
    (distribution release architecture : Option String) (counts : List (String × ℤ)),
    categorizeBadPackages env db distribution release architecture (cfg.categoriesFor backend) =
      .ok counts →
    Conserved env db distribution release architecture (cfg.categoriesFor backend) counts := by
  intro h
  have htwice := (h plainEnv failedOnce universalConfig "all" (some "debian") none none
    [("other", 1), ("other", 1)] (by decide +kernel)).matched
  revert htwice
  decide +kernel

end Rebuilderd.Daemon.Stats
