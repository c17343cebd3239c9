import Rebuilderd.Lib.Joins
import Rebuilderd.Daemon.SourceListing

/-!
The rebuild the listings show for a build input.

They join the rebuilds with themselves and keep those that no other one supersedes. If every rebuild
has a time, this is the one with the latest time, and of those the one with the largest id.
-/

namespace Rebuilderd.Daemon

open Rebuilderd.Lib Rebuilderd.Common Prog

/-- The order of the listings. -/
def Rebuild.order (r : Rebuild) : WithBot TimeText ×ₗ ℕ := toLex (nullsFirst r.builtText, r.id)

/-- The rebuild the listings show. -/
noncomputable def latestRebuild (db : Db) (i : ℕ) : Option Rebuild := (rebuildsOf db i).argmax Rebuild.order

/-- `o` is the greatest rebuild of the build input `i`, or there is none. -/
def IsLatest (db : Db) (i : ℕ) : Option Rebuild → Prop
  | none => rebuildsOf db i = []
  | some r => r ∈ rebuildsOf db i ∧ ∀ r' ∈ rebuildsOf db i, r'.order ≤ r.order

/-- `built_at` is never NULL. -/
def TimesKnown (db : Db) : Prop := ∀ r ∈ db.rebuilds.rows, r.builtAt ≠ none

section
variable {db : Db} {i : ℕ}

lemma isLatest_latestRebuild (db : Db) (i : ℕ) : IsLatest db i (latestRebuild db i) := by
  rcases h : latestRebuild db i with _ | r
  · exact List.argmax_eq_none.mp h
  · exact ⟨List.argmax_mem h, fun r' hr' => List.le_of_mem_argmax hr' h⟩

lemma IsLatest.eq {o : Option Rebuild} (h : IsLatest db i o) : o = latestRebuild db i := by
  have h' := isLatest_latestRebuild db i
  rcases o with _ | r <;> rcases hl : latestRebuild db i with _ | r' <;> rw [hl] at h'
  · have hmem : r' ∈ rebuildsOf db i := h'.1
    rw [show rebuildsOf db i = [] from h] at hmem
    exact absurd hmem List.not_mem_nil
  · have hmem : r ∈ rebuildsOf db i := h.1
    rw [show rebuildsOf db i = [] from h'] at hmem
    exact absurd hmem List.not_mem_nil
  · have hsame := congrArg (fun k => (ofLex k).2) (le_antisymm (h'.2 r h.1) (h.2 r' h'.1))
    rw [Table.eq_of_key (mem_rebuildsOf.mp h.1).1 (mem_rebuildsOf.mp h'.1).1 hsame]

lemma latestRebuild_mem {r : Rebuild} (h : latestRebuild db i = some r) :
    r ∈ db.rebuilds.rows ∧ r.buildInputId = i :=
  mem_rebuildsOf.mp (List.argmax_mem h)

/-- Rebuilds of one build input differ in the order of the listings. -/
lemma nodup_order (db : Db) (i : ℕ) : ((rebuildsOf db i).map Rebuild.order).Nodup := by
  refine List.Nodup.of_map (fun k => (ofLex k).2) ?_
  rw [List.map_map]
  exact List.Pairwise.map _ (fun a b hab => hab.ne) rebuildsOf_sorted

lemma supersedes_eq {r r' : Rebuild} (h : r.builtAt ≠ none) (h' : r'.builtAt ≠ none) :
    r'.supersedes r = decide (r.order < r'.order) := by
  obtain ⟨t, ht⟩ := Option.ne_none_iff_exists'.mp h
  obtain ⟨t', ht'⟩ := Option.ne_none_iff_exists'.mp h'
  rw [Bool.eq_iff_iff, decide_eq_true_iff, Rebuild.order, Rebuild.order, Prod.Lex.toLex_lt_toLex]
  simp [Rebuild.supersedes, Rebuild.builtText, ht, ht', sqlLt, sqlEq, nullsFirst]

/-- Of two rebuilds, the one with the larger id is as great, unless the other was built later. -/
lemma order_le_iff {r r' : Rebuild} (h : r.builtAt ≠ none) (h' : r'.builtAt ≠ none)
    (hid : r.id ≤ r'.id) : r.order ≤ r'.order ↔ sqlLt r'.builtText r.builtText = false := by
  obtain ⟨t, ht⟩ := Option.ne_none_iff_exists'.mp h
  obtain ⟨t', ht'⟩ := Option.ne_none_iff_exists'.mp h'
  rw [Rebuild.order, Rebuild.order, Prod.Lex.toLex_le_toLex, Rebuild.builtText, Rebuild.builtText, ht, ht']
  simp only [Option.map_some, nullsFirst, sqlLt, decide_eq_false_iff_not, not_lt]
  constructor
  · rintro (hlt | ⟨heq, -⟩)
    · exact (WithBot.coe_lt_coe.mp hlt).le
    · exact (WithBot.coe_inj.mp heq).le
  · intro hle
    rcases hle.lt_or_eq with hlt | heq
    · exact .inl (WithBot.coe_lt_coe.mpr hlt)
    · exact .inr ⟨congrArg _ heq, hid⟩

/-- If every rebuild has a time, the joins give the latest rebuild. -/
lemma unsupersededRebuilds_latest (h : TimesKnown db) (i : ℕ) :
    unsupersededRebuilds db i = [latestRebuild db i] := by
  rw [unsupersededRebuilds_eq]
  refine (List.filter_congr fun o ho => ?_).trans (leftJoin_greatest (nodup_order db i))
  rcases o with _ | r
  · rfl
  · obtain ⟨r₀, hr₀, -, heq⟩ | ⟨-, heq⟩ := mem_leftJoin.mp ho
    · obtain rfl := Option.some.inj heq
      rw [Bool.eq_iff_iff, Bool.not_eq_true', Bool.not_eq_true', List.any_eq_false, List.any_eq_false]
      refine forall₂_congr fun r' hr' => ?_
      rw [Option.any_some, Option.any_some,
        supersedes_eq (h r hr₀) (h r' (mem_rebuildsOf.mp hr').1)]
    · cases heq

/-- The joins of the listings of binary packages: the latest rebuild with its artifacts, as long as
nothing is selected by another rebuild. -/
lemma latest_join {α : Type} (h : TimesKnown db) (i : ℕ) (on : Option Rebuild → RebuildArtifact → Bool)
    (c : Option Rebuild → Bool) (g : Option Rebuild → Option RebuildArtifact → α) :
    ((leftJoin db.rebuilds.rows fun r => r.buildInputId == i).flatMap fun r1 =>
      (leftJoin db.rebuildArtifacts.rows (on r1)).flatMap fun a =>
        (leftJoin db.rebuilds.rows fun r => r.buildInputId == i && r1.any r.supersedes).flatMap
          fun r2 => if r2.isNone && c r1 then [g r1 a] else []) =
      if c (latestRebuild db i) then
        (leftJoin db.rebuildArtifacts.rows (on (latestRebuild db i))).map (g (latestRebuild db i))
      else [] := by
  -- The last join decides about a rebuild before its artifacts are looked up.
  have hmove (r1 : Option Rebuild) (as : List (Option RebuildArtifact)) :
      (as.flatMap fun a => (leftJoin db.rebuilds.rows fun r =>
        r.buildInputId == i && r1.any r.supersedes).flatMap fun r2 =>
          if r2.isNone && c r1 then [g r1 a] else []) =
      if (rebuildsOf db i).any fun r => r1.any r.supersedes then [] else
        if c r1 then as.map (g r1) else [] := by
    cases hc : c r1
    · simp
    · simp only [Bool.and_true, antiJoin]
      rw [rebuildsOf, List.any_filter]
      split <;> simp [List.map_eq_flatMap]
  simp only [hmove]
  have hlatest := unsupersededRebuilds_latest h i
  rw [unsupersededRebuilds_eq] at hlatest
  have hkept (l : List (Option Rebuild)) (c : Option Rebuild → Bool) (f : Option Rebuild → List α) :
      (l.flatMap fun r1 => if c r1 then [] else f r1) = (l.filter fun r1 => !c r1).flatMap f := by
    induction l with
    | nil => rfl
    | cons r1 l ih =>
      rw [List.flatMap_cons, List.filter_cons, ih]
      cases c r1 <;> rfl
  rw [hkept, hlatest, List.flatMap_singleton]

lemma mem_copyRebuilds {id : ℕ} {rs : List Rebuild} {r' : Rebuild}
    (h : r' ∈ (rs.foldl (copyRebuild id) db).rebuilds.rows) :
    r' ∈ db.rebuilds.rows ∨ ∃ r ∈ rs, r'.builtAt = r.builtAt ∧ r'.status = r.status := by
  induction rs generalizing db with
  | nil => exact .inl h
  | cons r rs ih =>
    rcases ih h with h | ⟨r₀, hr₀, hsame⟩
    · rw [copyRebuild_rebuilds] at h
      rcases List.mem_append.mp (show r' ∈ db.rebuilds.rows ++ [_] from h) with h | h
      · exact .inl h
      · rw [List.mem_singleton.mp h]
        exact .inr ⟨r, by simp, rfl, rfl⟩
    · exact .inr ⟨r₀, by simp [hr₀], hsame⟩

/-- The rebuilds after a package report have the time and the status of rebuilds before. -/
lemma mem_rebuilds_commit {c : ScheduleConfig} {T : Ties} {now : Time} {r : PackageReport}
    {db' : Db} (hok : commitPackageReport c T now r db = .ok db') :
    ∀ r' ∈ db'.rebuilds.rows, ∃ r ∈ db.rebuilds.rows, r'.builtAt = r.builtAt ∧
      r'.status = r.status := by
  obtain ⟨db₁, hf, rfl⟩ := commitPackageReport_ok hok
  refine foldlM_ok (I := fun _ d => ∀ r' ∈ d.rebuilds.rows, ∃ r ∈ db.rebuilds.rows,
    r'.builtAt = r.builtAt ∧ r'.status = r.status) hf (fun r' hr' => ⟨r', hr', rfl, rfl⟩)
    fun _ p d d' _ hd hp r' hr' => ?_
  obtain ⟨first, -, he⟩ := importPackage_ok hp
  have himported : (importRows now first r p d).2.rebuilds = d.rebuilds :=
    (importRows_frame now first r p d).2.1
  rw [(SameHistory.enqueueImported he).rebuilds] at hr'
  unfold importWithHistory copyExistingRebuilds at hr'
  dsimp only at hr'
  split at hr'
  · split at hr'
    · split at hr'
      · rcases mem_copyRebuilds hr' with hr' | ⟨r₀, hr₀, hbuilt, hstatus⟩
        · exact hd r' (himported ▸ hr')
        · obtain ⟨r₁, hr₁, hbuilt₁, hstatus₁⟩ := hd r₀ (himported ▸ (List.mem_filter.mp hr₀).1)
          exact ⟨r₁, hr₁, hbuilt.trans hbuilt₁, hstatus.trans hstatus₁⟩
      · exact hd r' (himported ▸ hr')
    · exact hd r' (himported ▸ hr')
  · exact hd r' (himported ▸ hr')

/-- A rebuild after a statement is one it inserts, or has the time and, unless it was reset, the
status of one before. -/
lemma exec_rebuildRow (env : Env) (t : Time) (s : Stmt) (db : Db) {r' : Rebuild}
    (h : r' ∈ ((exec env).answer t s db).2.rebuilds.rows) :
    (∃ new id, s = .insertRebuild new ∧ r' = new.row id) ∨
      ∃ r ∈ db.rebuilds.rows, r'.builtAt = r.builtAt ∧ (r'.status = r.status ∨ r'.status = none) := by
  have hkept : r' ∈ db.rebuilds.rows → ∃ r ∈ db.rebuilds.rows, r'.builtAt = r.builtAt ∧
      (r'.status = r.status ∨ r'.status = none) := fun h => ⟨r', h, rfl, .inl rfl⟩
  cases s with
  | insertRebuild new =>
    rcases List.mem_append.mp (show r' ∈ db.rebuilds.rows ++ [_] from h) with h | h
    · exact .inr (hkept h)
    · exact .inl ⟨new, _, rfl, List.mem_singleton.mp h⟩
  | resetRebuild id =>
    obtain ⟨r, hr, rfl⟩ := List.mem_map.mp h
    refine .inr ⟨r, hr, ?_⟩
    split
    · exact ⟨rfl, .inr rfl⟩
    · exact ⟨rfl, .inl rfl⟩
  | commitPackageReport now r =>
    right
    refine Exec.answer_inv (E := exec env) (I := fun d : Db => ∀ r' ∈ d.rebuilds.rows,
      ∃ r ∈ db.rebuilds.rows, r'.builtAt = r.builtAt ∧ (r'.status = r.status ∨ r'.status = none))
      (fun r' hr' => ⟨r', hr', rfl, .inl rfl⟩) (fun u db' hok r' hr' => ?_) r' h
    obtain ⟨r₀, hr₀, hbuilt, hstatus⟩ := mem_rebuilds_commit (exec_commit hok) r' hr'
    exact ⟨r₀, hr₀, hbuilt, .inl hstatus⟩
  | refreshWorker key now =>
    refine .inr (hkept ?_)
    have hsame : ((exec env).answer t (.refreshWorker key now) db).2.rebuilds = db.rebuilds := by
      refine Exec.answer_inv (E := exec env) (I := fun d : Db => d.rebuilds = db.rebuilds) rfl
        fun w db' h => ?_
      simp only [exec, refreshWorker] at h
      split at h <;> cases h
      rfl
    exact hsame ▸ h
  | popJob w r =>
    refine .inr (hkept ?_)
    change r' ∈ (popJob env.ties w r t db).2.rebuilds.rows at h
    rcases popJob_cases env.ties w r t db with ⟨row, -, hpop⟩ | hpop <;> rw [hpop] at h <;> exact h
  | findQueued id =>
    refine .inr (hkept ?_)
    have hsame : ((exec env).answer t (.findQueued id) db).2 = db :=
      Exec.answer_inv (E := exec env) (I := fun d : Db => d = db) rfl
        fun q db' h => (exec_findQueued h).2.2
    exact hsame ▸ h
  | maxRetriesOf ids =>
    refine .inr (hkept ?_)
    have hsame : ((exec env).answer t (.maxRetriesOf ids) db).2 = db :=
      Exec.answer_inv (E := exec env) (I := fun d : Db => d = db) rfl fun n db' h => exec_maxRetriesOf h
    exact hsame ▸ h
  | _ => exact .inr (hkept h)

end

/-! ### What handlers insert -/

/-- A handler that serves `c` inserts the rebuilds and artifacts `c` reports. -/
def insertsReported (c : Call) (_ : OwnSteps) (_ : Time) : Stmt → Prop
  | .insertRebuild new => ∃ h r, c = .submitRebuildReport h r ∧ new.builtAt = some r.builtAt ∧
      new.status = some r.status
  | .insertRebuildArtifact new => ∃ h r, c = .submitRebuildReport h r ∧
      ∃ a ∈ r.artifacts, new.name = a.name ∧ new.status = some a.status
  | _ => True

lemma handler_insertsReported (cfg : Config) (c : Call) :
    wp (.journal (insertsReported c)) (handler cfg c) (fun _ _ => True) (fun _ _ => True) [] := by
  cases c with
  | submitRebuildReport h r =>
    have any {s : Stmt} (hs : ∀ own t, insertsReported (.submitRebuildReport h r) own t s) :
        Keeps (.journal (insertsReported (.submitRebuildReport h r))) (fun _ => True) (sql s) :=
      .stmt s fun own t _ => ⟨hs own t, fun _ _ _ => trivial⟩
    have part {α : Type} {p : Handler α} {ok : Stmt → Prop} (hp : Only ok p)
        (hok : ∀ s, ok s → ∀ own t, insertsReported (.submitRebuildReport h r) own t s) :
        Keeps (.journal (insertsReported (.submitRebuildReport h r))) (fun _ => True) p :=
      hp.keeps fun own t s hs _ => ⟨hok s hs own t, fun _ _ _ => trivial⟩
    have hartifact (rebuild : ℕ) (logs : Handler.ArtifactLogs) (a : RebuildArtifactReport)
        (ha : a ∈ r.artifacts) :
        Keeps (.journal (insertsReported (.submitRebuildReport h r))) (fun _ => True)
          (Handler.recordArtifact rebuild logs a) := by
      refine .bind (part (only_artifactLogs logs a) fun s hs _ _ => ?_) fun ids =>
        .bind (any fun _ _ => ⟨h, r, rfl, a, ha, rfl, rfl⟩) fun _ => .pure _
      cases s with
      | insertRebuild | insertRebuildArtifact => cases hs
      | _ => trivial
    have hworker := part (only_worker cfg h) fun s hs _ _ => by cases s <;> trivial
    have hretry (q : Queued) (friends : List ℕ) :=
      part (only_retry cfg q friends) fun s hs _ _ => by cases s <;> trivial
    have hreport (q : Queued) :
        Keeps (.journal (insertsReported (.submitRebuildReport h r))) (fun _ => True)
          (Handler.recordReport cfg r q) := by
      refine .bind (any fun _ _ => trivial) fun friends => .bind (part (only_encode _) ?_) fun _ =>
        .bind (any fun _ _ => trivial) fun log => .bind (.foldlM (fun logs friend _ => ?_) _) fun _ =>
        .bind (any fun _ _ => trivial) fun _ => ?_
      · rintro s rfl _ _
        trivial
      · exact .bind (any fun _ _ => ⟨h, r, rfl, rfl, rfl⟩) fun _ =>
          .foldlM (fun logs a ha => hartifact _ logs a ha) _
      · split
        · exact hretry q friends
        · exact .pure _
    refine (wp_bind _ _).mpr ((wp_attempt _).mpr (wp_mono (hworker [] trivial) (fun own w _ => ?_)
      fun _ _ _ => trivial))
    exact wp_mono (Keeps.bind (any (s := .findQueued r.queueId) fun _ _ => trivial) (fun q =>
      .bind (hreport q) fun _ => .pure Response.noContent) own trivial) (fun _ _ _ => trivial)
      fun _ _ _ => trivial
  | _ =>
    refine wp_rules (handler_justified cfg _) (fun own t s hs => ?_) fun _ _ _ _ _ h => h
    cases s with
    | insertRebuild new =>
      obtain ⟨q, h, r, hc, -⟩ := hs
      cases hc
    | insertRebuildArtifact new =>
      obtain ⟨q, h, r, hc, -⟩ := hs
      cases hc
    | _ => trivial

lemma reported_history (env : Env) (as : Schedule) :
    History (exec env) insertsReported env.start (trace env as) :=
  (Pool.history (handler_insertsReported env.config) env.start as).1

lemma timesKnown_of_history {env : Env} {tr : List Event}
    (hh : History (exec env) insertsReported env.start tr) :
    TimesKnown (stateAfter (exec env) env.start tr) := by
  refine hh.invariant (I := fun _ => TimesKnown) (by simp [TimesKnown, Env.start, Db.empty])
    fun hh hbefore r' hr' => ?_
  obtain ⟨-, -, hreported, -⟩ := hh.last
  rcases exec_rebuildRow env _ _ _ hr' with ⟨new, id, hs, rfl⟩ | ⟨r, hr, hbuilt, -⟩
  · rw [hs] at hreported
    obtain ⟨h, r, -, hbuilt, -⟩ := hreported
    exact (show (new.row id).builtAt = _ from hbuilt).symm ▸ Option.some_ne_none _
  · exact hbuilt ▸ hbefore r hr

/-- **Every rebuild has a time, in every reachable database.** -/
theorem reachable_timesKnown {env : Env} {db : Db} (h : Reachable env db) : TimesKnown db := by
  obtain ⟨as, rfl⟩ := h
  rw [state_runPool]
  exact timesKnown_of_history (reported_history env as)

end Rebuilderd.Daemon
