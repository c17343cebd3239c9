import Rebuilderd.Daemon.Dashboard
import Rebuilderd.Daemon.BinaryListing

/-!
What a bulk requeue selects, against what the listing shows.

The query of `request_rebuild` joins the binary packages of a source package, so that a build input
is selected once for each of them, and not at all if there are none.
-/

namespace Rebuilderd.Daemon

open Rebuilderd.Lib Rebuilderd.Common Prog

/-! ### What is queued -/

/-- The build input a step has inserted or updated the queue row of. -/
def requeuedInput : Step Stmt Stmt.Answer Err Time → Option ℕ
  | ⟨_, .upsertQueued new, .ok _⟩ => some new.buildInputId
  | _ => none

/-- The build inputs a handler has inserted or updated queue rows of, in order. -/
def requeuedInputs (own : OwnSteps) : List ℕ := own.filterMap requeuedInput

def Stmt.requeues : Stmt → Bool
  | .upsertQueued _ | .matchingBuildInputs _ => true
  | _ => false

/-- The handler has selected `ids`, and queued `done` since. -/
structure Requeueing (r : QueueJobRequest) (ids done : List ℕ) (own : OwnSteps) : Prop where
  selected : ∃ t rest, own = ⟨t, .matchingBuildInputs r, .ok ids⟩ :: rest ∧
    ∀ a ∈ rest, ∀ r', a.stmt ≠ .matchingBuildInputs r'
  requeued : requeuedInputs own = done

section
variable {r : QueueJobRequest} {ids done : List ℕ} {own : OwnSteps}

lemma Requeueing.append (h : Requeueing r ids done own) {a : Step Stmt Stmt.Answer Err Time}
    (ha : ∀ r', a.stmt ≠ .matchingBuildInputs r') :
    Requeueing r ids (requeuedInputs (own ++ [a])) (own ++ [a]) := by
  obtain ⟨t, rest, rfl, hrest⟩ := h.selected
  refine ⟨⟨t, rest ++ [a], by simp, fun b hb => ?_⟩, rfl⟩
  rcases List.mem_append.mp hb with hb | hb
  · exact hrest b hb
  · rw [List.mem_singleton.mp hb]
    exact ha

lemma requeuedInputs_append_other {a : Step Stmt Stmt.Answer Err Time} (h : a.stmt.requeues = false) :
    requeuedInputs (own ++ [a]) = requeuedInputs own := by
  have hnone : requeuedInput a = none := by
    obtain ⟨t, s, x⟩ := a
    cases s <;> first | rfl | cases h
  simp [requeuedInputs, hnone]

/-- A program that selects and queues nothing leaves what was queued as it is. -/
lemma keeps_requeueing {α : Type} {p : Handler α} (hp : Only (fun s : Stmt => s.requeues = false) p) :
    Keeps (.journal fun _ _ _ => True) (Requeueing r ids done) p := by
  refine hp.keeps fun own t s hs h => ⟨trivial, ?_⟩
  rintro a own' rfl
  have happend := h.append (a := ⟨t, s, a⟩) fun r' heq => by
    change s = _ at heq
    rw [heq] at hs
    cases hs
  rwa [requeuedInputs_append_other hs, h.requeued] at happend

lemma only_resetLatestRebuild (id : ℕ) :
    Only (fun s : Stmt => s.requeues = false) (Handler.resetLatestRebuild id) := by
  refine .bind (.stmt rfl) fun latest => ?_
  cases latest with
  | none => exact .pure _
  | some rebuild => exact .bind (.stmt rfl) fun _ => .stmt rfl

lemma wp_requeueInput (reset : Bool) (now next : Time) (priority : Priority) (id : ℕ)
    (h : Requeueing r ids done own) :
    wp (.journal fun _ _ _ => True) (Handler.requeueInput reset now next priority id)
      (fun own' _ => Requeueing r ids (done ++ [id]) own') (fun _ _ => True) own := by
  have hfirst : Only (fun s : Stmt => s.requeues = false)
      (if reset then Handler.resetLatestRebuild id else pure ()) := by
    split
    · exact only_resetLatestRebuild id
    · exact .pure _
  refine (wp_bind _ _).mpr (wp_mono (keeps_requeueing hfirst own h) (fun own₁ _ h₁ => ?_)
    fun _ _ _ => trivial)
  have hnext : Only (fun s : Stmt => s.requeues = false) (sql (.setNextRetry [id] (some next))) :=
    .stmt rfl
  refine (wp_bind _ _).mpr (wp_mono (keeps_requeueing hnext own₁ h₁) (fun own₂ _ h₂ => ?_)
    fun _ _ _ => trivial)
  refine wp_sql (fun _ => trivial) (fun t a => ?_) fun _ _ => trivial
  have happend := h₂.append (a := ⟨t, .upsertQueued ⟨id, priority, now⟩, .ok a⟩) fun _ heq => by cases heq
  have hqueued : requeuedInputs (own₂ ++ [⟨t, .upsertQueued ⟨id, priority, now⟩, .ok a⟩]) =
      done ++ [id] := by
    rw [requeuedInputs, List.filterMap_append, ← requeuedInputs, h₂.requeued]
    rfl
  rwa [hqueued] at happend

/-- What a bulk requeue has queued when it answers: each build input it has selected, once. -/
lemma wp_requestRebuild (cfg : Config) (h : Headers) (r : QueueJobRequest) :
    wp (.journal fun _ _ _ => True) (Handler.requestRebuild cfg h r)
      (fun own a => ∀ n, a = .matched n →
        ∃ ids, Requeueing r ids ids.eraseDups own ∧ n = ids.length)
      (fun _ _ => True) [] := by
  unfold Handler.requestRebuild
  split
  · exact fun n hn => by cases hn
  · refine (wp_bind _ _).mpr (wp_sql (fun _ => trivial) (fun t ids => ?_) fun _ _ => trivial)
    have hstart : Requeueing r ids [] ([] ++ [⟨t, .matchingBuildInputs r, .ok ids⟩]) :=
      ⟨⟨t, [], rfl, by simp⟩, rfl⟩
    have hnow : Only (fun s : Stmt => s.requeues = false) (sql .now) := .stmt rfl
    refine (wp_bind _ _).mpr (wp_mono (keeps_requeueing hnow _ hstart) (fun own₁ now h₁ => ?_)
      fun _ _ _ => trivial)
    refine (wp_bind _ _).mpr ((wp_lift _).mpr ⟨fun next _ => ?_, fun _ _ => trivial⟩)
    refine (wp_bind _ _).mpr (wp_mono (wp_foldlM (F := fun _ _ => True)
      (fun own' (_ : Unit) rest => ∃ done, done ++ rest = ids.eraseDups ∧ Requeueing r ids done own')
      (fun own' _ id rest => ?_) ids.eraseDups () ⟨[], rfl, h₁⟩) (fun own₂ _ h₂ => ?_)
      fun _ _ _ => trivial)
    · rintro ⟨done, hdone, hown⟩
      refine wp_mono (wp_requeueInput r.reset now next (r.priority.getD Priority.manual) id hown)
        (fun own'' _ h'' => ?_) fun _ _ _ => trivial
      exact ⟨done ++ [id], by simpa using hdone, h''⟩
    · obtain ⟨done, hdone, hown⟩ := h₂
      rw [List.append_nil] at hdone
      rintro n ⟨⟩
      exact ⟨ids, hdone ▸ hown, rfl⟩

end

lemma handler_requeues (cfg : Config) (c : Call) :
    wp (.journal fun _ _ _ => True) (handler cfg c)
      (fun own a => ∀ h r n, c = .requestRebuild h r → a = .matched n →
        ∃ ids, Requeueing r ids ids.eraseDups own ∧ n = ids.length)
      (fun _ _ => True) [] := by
  cases c with
  | requestRebuild h r =>
    refine wp_mono (wp_requestRebuild cfg h r) (fun own a hown h' r' n hc => ?_) fun _ _ _ => trivial
    cases hc
    exact hown n
  | _ =>
    refine wp_mono (wp_true (fun _ _ _ => trivial) _) (fun own a _ h r n hc => ?_) fun _ _ _ => trivial
    cases hc

/-! ### What is listed -/

def SourceFilters.accepts (f : SourceFilters) (row : SourcePackage × BuildInput × Option Rebuild) :
    Bool :=
  OriginFilter.accepts f.origin row.1 row.2.1.architecture &&
    SourceIdentityFilter.accepts f.identity row.1 && f.freshness.accepts row.1 &&
    f.status.accepts (row.2.2.bind (·.status))

/-- The rows of the records the filters select. -/
def listedRows (f : SourceFilters) (db : Db) : List (SourcePackage × BuildInput × Option Rebuild) :=
  (sourcePackagesRows db).filter f.accepts

/-- The build inputs of the records the filters select. -/
def listedInputs (f : SourceFilters) (db : Db) : List ℕ := (listedRows f db).map (·.2.1.id)

/-- The filters of a request, as filters of the listing of what was seen. -/
def requeueFilters (r : QueueJobRequest) : SourceFilters where
  origin := ⟨r.distribution, r.release, r.component, r.architecture⟩
  identity := ⟨r.name, .exact, r.version⟩
  freshness := ⟨some true⟩
  status := ⟨r.status.map fun s => [statusText s]⟩

/-- A bulk requeue has queued the build inputs listed, and answered how many there are. -/
structure RequeuesListed (f : SourceFilters) (db : Db) (requeued : List ℕ) (n : ℕ) : Prop where
  inputs : ∀ i, i ∈ requeued ↔ i ∈ listedInputs f db
  count : n = (listedInputs f db).toFinset.card

/-- The rebuild with the largest id of each build input is also one with the largest time. -/
def latestById (db : Db) : Bool :=
  db.buildInputs.rows.all fun b => (rebuildsOf db b.id).all fun r =>
    some r.id != maxRebuildId db b.id || (rebuildsOf db b.id).all fun x => !sqlLt r.builtText x.builtText

def binariesOf (db : Db) (source : ℕ) : List BinaryPackage :=
  db.binaryPackages.rows.filter (·.sourcePackageId == source)

/-- Every source package the filters select has one binary package. -/
def oneBinaryEach (f : SourceFilters) (db : Db) : Bool :=
  (listedRows f db).all fun row => (binariesOf db row.1.id).length == 1

section
variable {db : Db} {f : SourceFilters} {r : QueueJobRequest}

/-- If ids and times agree, a requeue goes by the rebuild the listing shows. -/
lemma latestRebuildHas_latest (ht : TimesKnown db) (hl : latestById db = true) {b : BuildInput}
    (hb : b ∈ db.buildInputs.rows) (p : Option BuildStatus → Bool) :
    latestRebuildHas p b.id db = (latestRebuild db b.id).any (p ·.status) := by
  rcases List.eq_nil_or_concat' (rebuildsOf db b.id) with hnil | ⟨pre, last, hrs⟩
  · have hnone : none = latestRebuild db b.id := IsLatest.eq (o := none) hnil
    rw [latestRebuildHas_eq, hnil, ← hnone]
    rfl
  · have hmem : last ∈ rebuildsOf db b.id := by simp [hrs]
    have hlatest : IsLatest db b.id (some last) := by
      refine ⟨hmem, fun x hx => ?_⟩
      have hid : x.id ≤ last.id :=
        (List.max?_eq_some_iff.mp (maxRebuildId_concat hrs)).2 x.id (List.mem_map.mpr ⟨x, hx, rfl⟩)
      have hlast := List.all_eq_true.mp (List.all_eq_true.mp hl b hb) last hmem
      rw [maxRebuildId_concat hrs, bne_self_eq_false, Bool.false_or] at hlast
      rw [order_le_iff (ht x (mem_rebuildsOf.mp hx).1) (ht last (mem_rebuildsOf.mp hmem).1) hid]
      simpa using List.all_eq_true.mp hlast x hx
    rw [latestRebuildHas_concat hrs, ← hlatest.eq]
    rfl

/-- A query without a name selects what the listing shows, once for each binary package, if it goes
by the same status. -/
lemma selects_listed (ht : TimesKnown db) (hname : r.name = none) (selects : BuildInput → Bool)
    (hselects : ∀ b ∈ db.buildInputs.rows, selects b =
      (requeueFilters r).status.accepts ((latestRebuild db b.id).bind (·.status))) :
    (db.sourcePackages.rows.flatMap fun s =>
      (db.buildInputs.rows.filter fun b => b.sourcePackageId == s.id).flatMap fun b =>
        (db.binaryPackages.rows.filter fun p => p.sourcePackageId == s.id &&
          OriginFilter.accepts ⟨r.distribution, r.release, r.component, r.architecture⟩ s
            b.architecture &&
          SourceIdentityFilter.accepts ⟨r.name, .exact, r.version⟩ s &&
          (r.name.isSome || s.seenInLastSync) && selects b).map fun _ => b.id) =
      (listedRows (requeueFilters r) db).flatMap fun row =>
        List.replicate (binariesOf db row.1.id).length row.2.1.id := by
  rw [listedRows, sourcePackagesRows_latest ht, List.filter_flatMap, List.flatMap_assoc]
  refine List.flatMap_congr fun s _ => ?_
  rw [List.filter_map, List.flatMap_map]
  have hrow (b : BuildInput) (hb : b ∈ db.buildInputs.rows) :
      ((db.binaryPackages.rows.filter fun p => p.sourcePackageId == s.id &&
        OriginFilter.accepts ⟨r.distribution, r.release, r.component, r.architecture⟩ s
          b.architecture &&
        SourceIdentityFilter.accepts ⟨r.name, .exact, r.version⟩ s &&
        (r.name.isSome || s.seenInLastSync) && selects b).map fun _ => b.id) =
      if (requeueFilters r).accepts (s, b, latestRebuild db b.id) then
        List.replicate (binariesOf db s.id).length b.id else [] := by
    have hseen : (requeueFilters r).freshness.accepts s = (r.name.isSome || s.seenInLastSync) := by
      simp [requeueFilters, FreshnessFilter.accepts, hname]
    have haccepts : (requeueFilters r).accepts (s, b, latestRebuild db b.id) =
        (OriginFilter.accepts ⟨r.distribution, r.release, r.component, r.architecture⟩ s
          b.architecture && SourceIdentityFilter.accepts ⟨r.name, .exact, r.version⟩ s &&
            (r.name.isSome || s.seenInLastSync) && selects b) := by
      rw [SourceFilters.accepts, hseen, hselects b hb]
      rfl
    rw [haccepts]
    simp only [Bool.and_assoc]
    split <;> rename_i hcond
    · simp only [hcond, Bool.and_true, List.map_const']
      rfl
    · simp [Bool.not_eq_true _ ▸ hcond]
  generalize hinputs : db.buildInputs.rows.filter (fun b => b.sourcePackageId == s.id) = inputs
  have hmem : ∀ b ∈ inputs, b ∈ db.buildInputs.rows := fun b hb =>
    (List.mem_filter.mp (hinputs ▸ hb)).1
  clear hinputs
  induction inputs with
  | nil => rfl
  | cons b inputs ih =>
    obtain ⟨hb, hinputs⟩ := List.forall_mem_cons.mp hmem
    rw [List.flatMap_cons, hrow b hb, ih hinputs, List.filter_cons]
    simp only [Function.comp]
    split <;> simp

/-- If ids and times agree, that is what the query of a requeue selects. -/
lemma matchingBuildInputs_eq (ht : TimesKnown db) (hl : latestById db = true) (hname : r.name = none) :
    matchingBuildInputs r db = (listedRows (requeueFilters r) db).flatMap fun row =>
      List.replicate (binariesOf db row.1.id).length row.2.1.id := by
  have hstatus {s : BuildStatus} (hs : r.status = some s) (b : BuildInput) :
      (requeueFilters r).status.accepts ((latestRebuild db b.id).bind (·.status)) =
        if s = .unknown then ((latestRebuild db b.id).bind (·.status)).isNone
        else (latestRebuild db b.id).bind (·.status) == some s := by
    rw [← accepts_statusText, requeueFilters, hs]
    rfl
  rw [matchingBuildInputs]
  rcases hs : r.status with _ | s
  · refine selects_listed ht hname (fun _ => true) fun b _ => ?_
    rw [requeueFilters, hs]
    rfl
  -- Neither of them finds a rebuild that was reported as unknown.
  cases s with
  | unknown =>
    refine selects_listed ht hname (fun b => !latestRebuildHas Option.isSome b.id db) fun b hb => ?_
    rw [hstatus hs, latestRebuildHas_latest ht hl hb, if_pos rfl]
    rcases latestRebuild db b.id with _ | x
    · rfl
    · rcases h : x.status with _ | s <;> simp [h]
  | good | bad | fail =>
    refine selects_listed ht hname (fun b => latestRebuildHas (· == some _) b.id db) fun b hb => ?_
    rw [hstatus hs, latestRebuildHas_latest ht hl hb]
    rcases latestRebuild db b.id with _ | x <;> simp

/-- The listing has each build input once. -/
lemma nodup_listedInputs (ht : TimesKnown db) : (listedInputs f db).Nodup := by
  have hall := (listsLatest_filter ht fun _ _ => true).once.map BuildInput.id
  rw [List.filter_true, List.map_map] at hall
  have hselected : ((selectedInputs (fun _ _ => true) db).map BuildInput.id).Nodup :=
    (Table.nodup_keys db.buildInputs).sublist (List.filter_sublist.map _)
  exact (hall.nodup_iff.mpr hselected).sublist (List.filter_sublist.map _)

/-- The rows of a join with many, against the rows joined: they are the same, and as many, exactly if
each is joined with one. -/
lemma flatMap_replicate_iff {α : Type} {l : List α} {key : α → ℕ} (n : α → ℕ)
    (h : (l.map key).Nodup) :
    ((∀ i, i ∈ (l.flatMap fun a => List.replicate (n a) (key a)) ↔ i ∈ l.map key) ∧
      (l.flatMap fun a => List.replicate (n a) (key a)).length = l.length) ↔
        ∀ a ∈ l, n a = 1 := by
  have hlength (n : α → ℕ) : (l.flatMap fun a => List.replicate (n a) (key a)).length =
      (l.map n).sum := by
    simp [List.length_flatMap]
  constructor
  · rintro ⟨hmem, hsame⟩
    have hpos : ∀ a ∈ l, 1 ≤ n a := by
      intro a ha
      obtain ⟨b, hb, hin⟩ := List.mem_flatMap.mp ((hmem (key a)).mpr (List.mem_map.mpr ⟨a, ha, rfl⟩))
      obtain ⟨hne, hkey⟩ := List.mem_replicate.mp hin
      rw [List.inj_on_of_nodup_map h ha hb hkey]
      omega
    have hmax : (l.flatMap fun a => List.replicate (max 1 (n a)) a).length = l.length := by
      rw [← hsame, hlength, List.length_flatMap]
      congr 1
      refine List.map_congr_left fun a ha => ?_
      rw [List.length_replicate, max_eq_right (hpos a ha)]
    exact fun a ha => le_antisymm ((length_replicates l n).mp hmax a ha) (hpos a ha)
  · intro hone
    have hsame : (l.flatMap fun a => List.replicate (n a) (key a)) = l.map key := by
      rw [List.map_eq_flatMap]
      exact List.flatMap_congr fun a ha => by rw [hone a ha]; rfl
    rw [hsame]
    exact ⟨fun _ => .rfl, List.length_map _⟩

/-- What is queued and counted is what is listed exactly if each source package has one binary
package. -/
lemma requeuesListed_iff (ht : TimesKnown db) (hl : latestById db = true) (hname : r.name = none) :
    RequeuesListed (requeueFilters r) db (matchingBuildInputs r db).eraseDups
        (matchingBuildInputs r db).length ↔
      oneBinaryEach (requeueFilters r) db = true := by
  have hnodup := nodup_listedInputs (f := requeueFilters r) ht
  have hjoined := flatMap_replicate_iff (fun row => (binariesOf db row.1.id).length) hnodup
  rw [← matchingBuildInputs_eq ht hl hname] at hjoined
  have hcount : (listedInputs (requeueFilters r) db).toFinset.card =
      (listedRows (requeueFilters r) db).length := by
    rw [List.toFinset_card_of_nodup hnodup, listedInputs, List.length_map]
  rw [oneBinaryEach, List.all_eq_true]
  simp only [beq_iff_eq]
  rw [← hjoined]
  constructor
  · rintro ⟨hinputs, hn⟩
    exact ⟨fun i => List.mem_eraseDups.symm.trans (hinputs i), hn.trans hcount⟩
  · rintro ⟨hinputs, hn⟩
    exact ⟨fun i => List.mem_eraseDups.trans (hinputs i), hn.trans hcount.symm⟩

end

/-! ### Runs -/

section
variable {env : Env} {as : Schedule} {k : ℕ} {h : Headers} {r : QueueJobRequest} {n : ℕ}

/-- What a bulk requeue that was answered has queued is what it selected. -/
lemma requeued_of_answer
    (hans : (runPool env as).answerOf k = some (.requestRebuild h r, .matched n)) {lookup : Event}
    (hlookup : lookup ∈ trace env as) (hk : lookup.thread = k)
    (hs : lookup.stmt = .matchingBuildInputs r) :
    requeuedInputs (own k (trace env as)) = (matchingBuildInputs r lookup.before).eraseDups ∧
      n = (matchingBuildInputs r lookup.before).length := by
  obtain ⟨ids, ⟨⟨t, rest, hown, hrest⟩, hrequeued⟩, hn⟩ :=
    (Pool.outcome (handler_requeues env.config) env.start as hans).1 h r n rfl rfl
  change own k (trace env as) = _ at hown
  have hmem : lookup.toStep ∈ own k (trace env as) := mem_own.mpr ⟨lookup, hlookup, hk, rfl⟩
  rw [hown] at hmem
  -- The query is the first statement, and the only one of its kind.
  have hfirst : lookup.toStep = ⟨t, .matchingBuildInputs r, .ok ids⟩ :=
    (List.mem_cons.mp hmem).resolve_right fun hlater => hrest _ hlater r hs
  obtain ⟨pre, post, htr⟩ := List.append_of_mem hlookup
  have hanswer := (htr ▸ trace_history env as).event.2.1
  obtain ⟨⟨t', s, a⟩, j, c, db⟩ := lookup
  cases hfirst
  obtain rfl : ids = matchingBuildInputs r db := Except.ok.inj hanswer
  exact ⟨hrequeued, hn⟩

lemma timesKnown_before {e : Event} (he : e ∈ trace env as) : TimesKnown e.before := by
  obtain ⟨pre, post, htr⟩ := List.append_of_mem he
  have hh := reported_history env as
  rw [htr] at hh
  rw [hh.event.1]
  exact timesKnown_of_history hh.of_append

end

/-- **When a bulk requeue matches the listing**, in every run: if the database it finds has the
latest rebuilds last, exactly if every source package that is listed has one binary package. -/
theorem bulkRequeue_iff (env : Env) (as : Schedule) (k : ℕ) (h : Headers) (r : QueueJobRequest) (n : ℕ)
    (hans : (runPool env as).answerOf k = some (.requestRebuild h r, .matched n))
    (hname : r.name = none) (lookup : Event) (hlookup : lookup ∈ trace env as)
    (hk : lookup.thread = k) (hs : lookup.stmt = .matchingBuildInputs r)
    (hlatest : latestById lookup.before = true) :
    RequeuesListed (requeueFilters r) lookup.before (requeuedInputs (own k (trace env as))) n ↔
      oneBinaryEach (requeueFilters r) lookup.before = true := by
  obtain ⟨hrequeued, hn⟩ := requeued_of_answer hans hlookup hk hs
  rw [hrequeued, hn]
  exact requeuesListed_iff (timesKnown_before hlookup) hlatest hname

/-- All that was seen is requeued. -/
def everything : QueueJobRequest := ⟨none, none, none, none, none, none, none, none, false⟩

/-- A package with these binary packages is imported, and everything is requeued. -/
def importedAndRequeued (binaries : List String) : Schedule :=
  serveAt 0 (.submitPackageReport adminHeaders (debianReport [⟨"hello", "1.0", "https://hello",
    binaries.map fun name => ⟨name, "1.0", "amd64", name⟩, none, none, none⟩])) 0 ++
  serveAt 1 (.requestRebuild adminHeaders everything) (10 * second)

def Stmt.selects (r : QueueJobRequest) : Stmt → Bool
  | .matchingBuildInputs r' => r' == r
  | _ => false

lemma eq_of_selects {s : Stmt} {r : QueueJobRequest} (h : s.selects r = true) :
    s = .matchingBuildInputs r := by
  cases s with
  | matchingBuildInputs r' => rw [beq_iff_eq.mp h]
  | _ => cases h

theorem bulkRequeue_iff_oneBinary :
    ∃ lookup ∈ trace (openDaemon none) (importedAndRequeued ["hello"]),
      RequeuesListed (requeueFilters everything) lookup.before
          (requeuedInputs (own 1 (trace (openDaemon none) (importedAndRequeued ["hello"])))) 1 ↔
        oneBinaryEach (requeueFilters everything) lookup.before = true := by
  have hfind : ((trace (openDaemon none) (importedAndRequeued ["hello"])).any fun e =>
      e.thread == 1 && e.stmt.selects everything && latestById e.before) = true := by
    decide +kernel
  obtain ⟨lookup, hlookup, hfound⟩ := List.any_eq_true.mp hfind
  rw [Bool.and_eq_true, Bool.and_eq_true, beq_iff_eq] at hfound
  exact ⟨lookup, hlookup, bulkRequeue_iff (openDaemon none) (importedAndRequeued ["hello"]) 1
    adminHeaders everything 1 (by decide +kernel) rfl lookup hlookup hfound.1.1
    (eq_of_selects hfound.1.2) hfound.2⟩

/-- **A package with two binary packages is counted twice**, and one without any is left out. -/
theorem bulkRequeue_miscounts :
    ¬ ∀ env as k h r n, (runPool env as).answerOf k = some (.requestRebuild h r, .matched n) →
      r.name = none → ∀ lookup ∈ trace env as, lookup.thread = k →
        lookup.stmt = .matchingBuildInputs r → latestById lookup.before = true →
          RequeuesListed (requeueFilters r) lookup.before (requeuedInputs (own k (trace env as))) n := by
  intro h
  have hfind : ((trace (openDaemon none) (importedAndRequeued ["hello", "world"])).any fun e =>
      e.thread == 1 && e.stmt.selects everything && latestById e.before &&
        !oneBinaryEach (requeueFilters everything) e.before) = true := by
    decide +kernel
  have hans : (runPool (openDaemon none) (importedAndRequeued ["hello", "world"])).answerOf 1 =
      some (.requestRebuild adminHeaders everything, .matched 2) := by
    decide +kernel
  obtain ⟨lookup, hlookup, hfound⟩ := List.any_eq_true.mp hfind
  rw [Bool.and_eq_true, Bool.and_eq_true, Bool.and_eq_true, beq_iff_eq, Bool.not_eq_true'] at hfound
  obtain ⟨⟨⟨hk, hselects⟩, hlatest⟩, hmany⟩ := hfound
  have hs := eq_of_selects hselects
  have hlisted := h (openDaemon none) (importedAndRequeued ["hello", "world"]) 1 adminHeaders everything 2
    hans rfl lookup hlookup hk hs hlatest
  obtain ⟨hrequeued, hn⟩ := requeued_of_answer hans hlookup hk hs
  rw [hrequeued, hn, requeuesListed_iff (timesKnown_before hlookup) hlatest rfl, hmany] at hlisted
  cases hlisted

end Rebuilderd.Daemon
