import Rebuilderd.Daemon.Committed
import Rebuilderd.Daemon.Integrity
import Rebuilderd.Daemon.Limits
import Rebuilderd.Daemon.Tries

/-!
Where good artifacts and their names come from, whatever is interleaved.

An artifact becomes good by a report about a job of its group that found it good. Imports copy
rebuilds within a group, and requeueing takes verdicts away, but neither makes one.
-/

namespace Rebuilderd.Daemon

open Rebuilderd.Lib Rebuilderd.Common Prog

/-! ### Good artifacts of a group -/

/-- A build input of the group `g` has a rebuild with a good artifact of this name. -/
def GoodFor (db : Db) (g : Group) (name : String) : Prop :=
  ∃ a ∈ db.rebuildArtifacts.rows, a.name = name ∧ a.status = some .good ∧
    ∃ r ∈ db.rebuilds.rows, r.id = a.rebuildId ∧ ∃ s, (r.buildInputId, s, g) ∈ db.inputs

section
variable {env : Env} {db db' : Db} {g : Group} {name : String}

lemma goodFor_iff_history : GoodFor db g name ↔ ∃ i s, (i, s, g) ∈ db.inputs ∧
    ∃ rec ∈ history db i, ∃ a ∈ rec.artifacts, a.name = name ∧ a.status = some .good := by
  constructor
  · rintro ⟨a, ha, hname, hgood, r, hr, hid, s, hin⟩
    refine ⟨r.buildInputId, s, hin, _, List.mem_map.mpr ⟨r, List.mem_filter.mpr ⟨hr, by simp⟩, rfl⟩,
      a.content, List.mem_map.mpr ⟨a, List.mem_filter.mpr ⟨ha, by simp [hid]⟩, rfl⟩, hname, hgood⟩
  · rintro ⟨i, s, hin, rec, hrec, c, hc, hname, hgood⟩
    obtain ⟨r, hr, rfl⟩ := List.mem_map.mp hrec
    obtain ⟨a, ha, rfl⟩ := List.mem_map.mp hc
    obtain ⟨hr, hi⟩ := List.mem_filter.mp hr
    obtain ⟨ha, hid⟩ := List.mem_filter.mp ha
    rw [beq_iff_eq] at hi hid
    exact ⟨a, ha, hname, hgood, r, hr, hid.symm, s, hi ▸ hin⟩

lemma GoodFor.congr (hi : db'.inputs = db.inputs) (hh : ∀ i, history db' i = history db i)
    (h : GoodFor db' g name) : GoodFor db g name := by
  obtain ⟨i, s, hin, rec, hrec, hgood⟩ := goodFor_iff_history.mp h
  rw [hi] at hin
  rw [hh] at hrec
  exact goodFor_iff_history.mpr ⟨i, s, hin, rec, hrec, hgood⟩

/-- An import copies good artifacts within their group only. -/
lemma goodFor_import (hf : Fresh db) {now : Time} {first : Option Time} {r : PackageReport}
    {p : SourcePackageReport} (h : GoodFor (importWithHistory now first r p db).2 g name) :
    GoodFor db g name := by
  have hinputs : (importWithHistory now first r p db).2.inputs = (importRows now first r p db).2.inputs := by
    unfold importWithHistory
    dsimp only
    split
    · exact copyExistingRebuilds_frame (g := Db.inputs) (fun _ _ => rfl) (fun _ _ => rfl) _ _
    · rfl
  obtain ⟨i, s, hin, rec, hrec, hgood⟩ := goodFor_iff_history.mp h
  rw [hinputs] at hin
  rw [(importWithHistory_history now first r p hf).2 i] at hrec
  rcases List.mem_append.mp hrec with hrec | hrec
  · exact goodFor_iff_history.mpr ⟨i, s, mem_inputs_of_history hf hin hrec, rec, hrec, hgood⟩
  · split at hrec
    · rcases friendHistory_cases hin with ⟨e, s', -, he, hhist⟩ | ⟨-, hnil⟩
      · rw [hhist, importRows_history] at hrec
        exact goodFor_iff_history.mpr ⟨e, s', mem_inputs_of_history hf he hrec, rec, hrec, hgood⟩
      · rw [hnil] at hrec
        cases hrec
    · cases hrec

lemma goodFor_commit (hf : Fresh db) {c : ScheduleConfig} {T : Ties} {now : Time}
    {r : PackageReport} (hok : commitPackageReport c T now r db = .ok db') (h : GoodFor db' g name) :
    GoodFor db g name := by
  obtain ⟨db₁, hfold, rfl⟩ := commitPackageReport_ok hok
  have hend : Fresh db₁ ∧ (GoodFor db₁ g name → GoodFor db g name) := by
    refine foldlM_ok (I := fun _ d => Fresh d ∧ (GoodFor d g name → GoodFor db g name)) hfold
      ⟨hf.congr rfl rfl le_rfl, GoodFor.congr rfl fun _ => rfl⟩ fun _ p d d' _ hd hp => ?_
    obtain ⟨first, -, henq⟩ := importPackage_ok hp
    have hsame := sameRecords_enqueueImported henq
    refine ⟨hsame.fresh (importWithHistory_history now first r p hd.1).1, fun hgood => ?_⟩
    exact hd.2 (goodFor_import hd.1 (hgood.congr hsame.inputs hsame.history))
  exact hend.2 (h.congr rfl fun _ => rfl)

/-- A good artifact was there before, or the statement has just inserted it. -/
lemma goodFor_exec (hf : Fresh db) (t : Time) (s : Stmt)
    (h : GoodFor ((exec env).answer t s db).2 g name) : GoodFor db g name ∨
      ∃ new, s = .insertRebuildArtifact new ∧ new.name = name ∧ new.status = some .good ∧
        ∃ r ∈ db.rebuilds.rows, r.id = new.rebuildId ∧ ∃ s, (r.buildInputId, s, g) ∈ db.inputs := by
  by_cases hs : s.keepsRecords = true
  · have hsame := exec_sameRecords env t hs db
    exact .inl (h.congr hsame.inputs hsame.history)
  · cases s with
    | insertBuildLog => exact .inl (h.congr rfl fun _ => rfl)
    | insertRebuild new =>
      obtain ⟨a, ha, hname, hgood, r, hr, hid, hin⟩ := h
      rcases List.mem_append.mp hr with hr | hr
      · exact .inl ⟨a, ha, hname, hgood, r, hr, hid, hin⟩
      · -- The new rebuild has no artifacts yet.
        have hle := hf.artifacts a ha
        have hnew : r.id = db.rebuilds.seq + 1 := by rw [List.mem_singleton.mp hr]; rfl
        omega
    | insertRebuildArtifact new =>
      obtain ⟨a, ha, hname, hgood, hr⟩ := h
      rcases List.mem_append.mp ha with ha | ha
      · exact .inl ⟨a, ha, hname, hgood, hr⟩
      · rw [List.mem_singleton.mp ha] at hname hgood hr
        exact .inr ⟨new, rfl, hname, hgood, hr⟩
    | resetRebuild id =>
      obtain ⟨a, ha, hname, hgood, r', hr', hid, hin⟩ := h
      obtain ⟨r, hr, rfl⟩ := List.mem_map.mp hr'
      refine .inl ⟨a, ha, hname, hgood, r, hr, ?_, ?_⟩
      · rw [← hid]
        split <;> rfl
      · split at hin <;> exact hin
    | resetArtifacts id =>
      obtain ⟨a', ha', hname, hgood, hr⟩ := h
      obtain ⟨a, ha, rfl⟩ := List.mem_map.mp ha'
      split at hgood
      · cases hgood
      · rename_i hother
        rw [if_neg hother] at hname hr
        exact .inl ⟨a, ha, hname, hgood, hr⟩
    | commitPackageReport now r =>
      exact .inl (Exec.answer_inv (I := fun d => GoodFor d g name → GoodFor db g name) id
        (fun u db' hok => goodFor_commit hf (exec_commit hok)) h)
    | _ => exact absurd rfl hs

end

/-! ### What a handler knows when it inserts an artifact -/

/-- The handler has found the row of the report `r`, and has looked up its friends. -/
structure Looked (r : RebuildReport) (q : Queued) (friends : List ℕ) (own : OwnSteps) : Prop where
  found : Did own (.findQueued r.queueId) q
  friends : Did own (.buildInputFriends q.buildInputId) friends

/-- A handler inserts the artifacts that its report lists, for a rebuild it has inserted for a
friend of the build input of its row. -/
def judges (c : Call) (own : OwnSteps) (_ : Time) : Stmt → Prop
  | .insertRebuildArtifact new => ∃ h r q friends rebuild, c = .submitRebuildReport h r ∧
      (∃ a ∈ r.artifacts, new.name = a.name ∧ new.status = some a.status) ∧
      Looked r q friends own ∧ Did own (.insertRebuild rebuild) new.rebuildId ∧
      rebuild.buildInputId ∈ friends
  | _ => True

section
variable {h : Headers} {r : RebuildReport} {q : Queued} {friends : List ℕ}

lemma Looked.append {own : OwnSteps} (hl : Looked r q friends own) (own' : OwnSteps) :
    Looked r q friends (own ++ own') :=
  ⟨hl.found.append own', hl.friends.append own'⟩

/-- Statements that insert no artifact keep what the handler knows. -/
lemma keeps_judges {c : Call} {I : OwnSteps → Prop} {α : Type} {p : Handler α} {ok : Stmt → Prop}
    (hp : Only ok p) (hok : ∀ s, ok s → ∀ own t, judges c own t s)
    (hI : ∀ own a, I own → I (own ++ [a])) : Keeps (.journal (judges c)) I p :=
  hp.keeps fun own t s hs hown => ⟨hok s hs own t, fun _ _ heq => heq ▸ hI own _ hown⟩

/-- The rebuild of one friend, with its artifacts. -/
lemma keeps_recordRebuild (log : ℕ) (logs : Handler.ArtifactLogs) {friend : ℕ}
    (hfriend : friend ∈ friends) :
    Keeps (.journal (judges (.submitRebuildReport h r))) (Looked r q friends)
      (Handler.recordRebuild r q log logs friend) := by
  intro own hown
  let new : NewRebuild := ⟨friend, q.startedAt, some r.builtAt, log, some r.status⟩
  refine (wp_bind _ _).mpr (wp_sql (s := .insertRebuild new) (fun _ => trivial) (fun t id => ?_)
    fun _ _ => hown.append _)
  have hstep (own : OwnSteps) (a) (hI : Looked r q friends own ∧ Did own (.insertRebuild new) id) :
      Looked r q friends (own ++ [a]) ∧ Did (own ++ [a]) (.insertRebuild new) id :=
    ⟨hI.1.append [a], hI.2.append [a]⟩
  have hartifact (logs : Handler.ArtifactLogs) (a : RebuildArtifactReport) (ha : a ∈ r.artifacts) :
      Keeps (.journal (judges (.submitRebuildReport h r)))
        (fun own => Looked r q friends own ∧ Did own (.insertRebuild new) id)
        (Handler.recordArtifact id logs a) := by
    refine .bind (keeps_judges (only_artifactLogs logs a) (fun s hs _ _ => ?_) hstep) fun ids =>
      .bind (.stmt _ fun own t hI => ⟨?_, fun _ _ heq => heq ▸ hstep own _ hI⟩) fun _ => .pure _
    · cases s with
      | insertRebuildArtifact => cases hs
      | _ => trivial
    · exact ⟨h, r, q, friends, new, rfl, ⟨a, ha, rfl, rfl⟩, hI.1, hI.2, hfriend⟩
  refine wp_mono (Keeps.foldlM (fun logs a ha => hartifact logs a ha) logs _
    ⟨hown.append _, did_last _ _ _ _⟩) (fun _ _ hI => hI.1) fun _ _ hI => hI.1

lemma handler_judges (cfg : Config) (c : Call) :
    wp (.journal (judges c)) (handler cfg c) (fun _ _ => True) (fun _ _ => True) [] := by
  cases c with
  | submitRebuildReport h r =>
    have hworker : Keeps (.journal (judges (.submitRebuildReport h r))) (fun _ => True)
        (Handler.worker cfg h) :=
      keeps_judges (only_worker cfg h) (fun s hs _ _ => by cases s <;> trivial)
        fun _ _ _ => trivial
    refine (wp_bind _ _).mpr ((wp_attempt _).mpr (wp_mono (hworker [] trivial) (fun own w _ => ?_)
      fun _ _ _ => trivial))
    refine (wp_bind _ _).mpr (wp_sql (fun _ => trivial) (fun t q => ?_) fun _ _ => trivial)
    refine (wp_bind _ _).mpr ((wp_bind _ _).mpr (wp_sql (fun _ => trivial) (fun t' friends => ?_)
      fun _ _ => trivial))
    have hlooked : Looked r q friends (own ++ [⟨t, .findQueued r.queueId, .ok q⟩] ++
        [⟨t', .buildInputFriends q.buildInputId, .ok friends⟩]) :=
      ⟨(did_last _ _ _ _).append _, did_last _ _ _ _⟩
    have any {s : Stmt} (hs : ∀ own t, judges (.submitRebuildReport h r) own t s) :
        Keeps (.journal (judges (.submitRebuildReport h r))) (Looked r q friends) (sql s) :=
      .stmt s fun own t hown => ⟨hs own t, fun _ _ heq => heq ▸ hown.append _⟩
    have hrest : Keeps (.journal (judges (.submitRebuildReport h r))) (Looked r q friends) (do
        let encodedLog ← Handler.encode r.buildLog
        Handler.storeReport cfg r q friends encodedLog) := by
      refine .bind (keeps_judges (only_encode _) (fun s hs _ _ => hs ▸ trivial)
        fun _ a hown => hown.append [a]) fun _ => .bind (any fun _ _ => trivial) fun log =>
        .bind (.foldlM (fun logs friend hfriend => keeps_recordRebuild log logs hfriend) _) fun _ =>
        .bind (any fun _ _ => trivial) fun _ => ?_
      split
      · exact keeps_judges (only_retry cfg q friends)
          (fun s hs _ _ => by cases s <;> trivial) fun _ a hown => hown.append [a]
      · exact .pure _
    exact wp_mono (hrest _ hlooked) (fun _ _ _ => trivial) fun _ _ _ => trivial
  | _ =>
    refine wp_rules (handler_justified cfg _) (fun own t s hs => ?_) fun _ _ _ _ _ h => h
    cases s with
    | insertRebuildArtifact new =>
      obtain ⟨q, h, r, hc, -⟩ := hs
      cases hc
    | _ => trivial

end

/-! ### What stays -/

/-- The rebuild `id` is of the build input `i`. -/
def RebuildOf (id i : ℕ) (db : Db) : Prop := ∃ r ∈ db.rebuilds.rows, r.id = id ∧ r.buildInputId = i

section
variable {env : Env} {db db' : Db} {id i : ℕ}

lemma RebuildOf.of_subset (h : RebuildOf id i db)
    (hr : ∀ r ∈ db.rebuilds.rows, r ∈ db'.rebuilds.rows) : RebuildOf id i db' :=
  h.imp fun r hrow => ⟨hr r hrow.1, hrow.2⟩

lemma RebuildOf.copyExistingRebuilds (h : RebuildOf id i db) (new : ℕ) :
    RebuildOf id i (copyExistingRebuilds new db) := by
  have hcopy (rs : List Rebuild) (d : Db) (hd : RebuildOf id i d) :
      RebuildOf id i (rs.foldl (copyRebuild new) d) := by
    induction rs generalizing d with
    | nil => exact hd
    | cons r rs ih =>
      refine ih _ (hd.of_subset fun r' hr' => ?_)
      rw [copyRebuild_rebuilds]
      exact List.mem_append_left _ hr'
  unfold Daemon.copyExistingRebuilds
  split
  · split
    · exact hcopy _ _ h
    · exact h
  · exact h

lemma RebuildOf.commit (h : RebuildOf id i db) {c : ScheduleConfig} {T : Ties} {now : Time}
    {r : PackageReport} (hok : commitPackageReport c T now r db = .ok db') : RebuildOf id i db' := by
  obtain ⟨db₁, hf, rfl⟩ := commitPackageReport_ok hok
  have hend : RebuildOf id i db₁ := by
    refine foldlM_ok (I := fun _ d => RebuildOf id i d) hf h fun _ p d d' _ hd hp => ?_
    obtain ⟨first, -, henq⟩ := importPackage_ok hp
    have hrows : RebuildOf id i (importRows now first r p d).2 :=
      hd.of_subset fun r' hr' => (importRows_frame now first r p d).2.1 ▸ hr'
    have himport : RebuildOf id i (importWithHistory now first r p d).2 := by
      unfold importWithHistory
      dsimp only
      split
      · exact hrows.copyExistingRebuilds _
      · exact hrows
    exact himport.of_subset fun r' hr' => (sameRecords_enqueueImported henq).rebuilds ▸ hr'
  exact hend

lemma exec_rebuildOf (env : Env) (t : Time) (s : Stmt) (db : Db) (h : RebuildOf id i db) :
    RebuildOf id i ((exec env).answer t s db).2 := by
  by_cases hs : s.keepsRecords = true
  · exact h.of_subset fun r hr => (exec_sameRecords env t hs db).rebuilds ▸ hr
  · cases s with
    | insertBuildLog | insertRebuildArtifact | resetArtifacts => exact h
    | insertRebuild => exact h.of_subset fun _ hr => List.mem_append_left _ hr
    | resetRebuild =>
      obtain ⟨r, hr, hid, hi⟩ := h
      refine ⟨_, List.mem_map_of_mem hr, ?_⟩
      split <;> exact ⟨hid, hi⟩
    | commitPackageReport now r =>
      exact Exec.answer_inv (I := RebuildOf id i) h fun u db' hok => h.commit (exec_commit hok)
    | _ => exact absurd rfl hs

/-- Only a stored build input has friends. -/
lemma hasInput_of_friend {j : ℕ} (h : j ∈ buildInputFriends db i) : HasInput i db := by
  obtain ⟨c, hc, -⟩ := List.mem_map.mp h
  obtain ⟨-, hsame⟩ := List.mem_filter.mp hc
  simp only [Bool.and_eq_true, List.contains_iff_mem, List.mem_map, List.mem_filter,
    beq_iff_eq] at hsame
  obtain ⟨⟨⟨b, ⟨hb, hid⟩, -⟩, -⟩, -⟩ := hsame
  exact ⟨_, _, mem_inputs.mpr ⟨b, hb, hid, rfl, rfl⟩⟩

end

/-! ### Runs -/

/-- A report about a job of the group `g` has found the artifact `name` good. -/
def Judged (tr : List Event) (g : Group) (name : String) : Prop :=
  ∃ e ∈ tr, ∃ h r, e.call = .submitRebuildReport h r ∧
    (∃ a ∈ r.artifacts, a.name = name ∧ a.status = .good) ∧
    ∃ found ∈ tr, ∃ q ∈ found.before.queue.rows, q.id = r.queueId ∧
      ∃ s, (q.buildInputId, s, g) ∈ found.before.inputs

section
variable {env : Env} {tr : List Event} {g : Group} {name : String}

/-- A row that a handler has found was in the queue, and its build input was stored. -/
lemma exists_found (hh : History (exec env) justified env.start tr) {k id : ℕ} {q : Queued}
    (h : Did (own k tr) (.findQueued id) q) :
    ∃ e ∈ tr, q ∈ e.before.queue.rows ∧ q.id = id ∧ HasInput q.buildInputId e.before := by
  obtain ⟨pre, e, post, rfl, -, t, hstep⟩ := did_event h
  obtain ⟨hbefore, hans, -⟩ := hh.event
  obtain ⟨hq, hid, -⟩ : q ∈ e.before.queue.rows ∧ q.id = id ∧ True := by
    obtain ⟨⟨t', s, a⟩, n, c, db⟩ := e
    cases hstep
    obtain ⟨hq, hid, -⟩ := exec_findQueued (Exec.answer_ok.mp (Prod.ext hans.symm rfl))
    exact ⟨hq, hid, trivial⟩
  refine ⟨e, by simp, hq, hid, ?_⟩
  rw [hbefore]
  exact (inputs_exist hh.of_append).queue q (hbefore ▸ hq)

/-- The friends that a handler has looked up. -/
lemma friends_of_did (hh : History (exec env) justified env.start tr) {k i : ℕ} {friends : List ℕ}
    (h : Did (own k tr) (.buildInputFriends i) friends) :
    ∃ e ∈ tr, friends = buildInputFriends e.before i := by
  obtain ⟨pre, e, post, rfl, -, t, hstep⟩ := did_event h
  exact ⟨e, by simp, answer_buildInputFriends hh (by simp) hstep⟩

/-- The rebuild that a handler has inserted is still of the same build input. -/
lemma rebuildOf_of_did (hh : History (exec env) justified env.start tr) {k id : ℕ} {new : NewRebuild}
    (h : Did (own k tr) (.insertRebuild new) id) :
    RebuildOf id new.buildInputId (stateAfter (exec env) env.start tr) := by
  refine did_stable (I := RebuildOf id new.buildInputId) (fun t s db => exec_rebuildOf env t s db)
    hh h fun t db db' hok => ?_
  cases hok
  exact ⟨_, List.mem_append_right _ (List.mem_singleton_self _), rfl, rfl⟩

/-- The group of a build input that is known at the end is that of the job a handler works on. -/
lemma group_of_looked (hh : History (exec env) justified env.start tr) {k j s : ℕ}
    {r : RebuildReport} {q : Queued} {friends : List ℕ} (hl : Looked r q friends (own k tr))
    (hj : j ∈ friends) (hin : (j, s, g) ∈ (stateAfter (exec env) env.start tr).inputs) :
    ∃ found ∈ tr, q ∈ found.before.queue.rows ∧ q.id = r.queueId ∧
      ∃ s', (q.buildInputId, s', g) ∈ found.before.inputs := by
  obtain ⟨found, hfound, hq, hid, s₁, g₁, hin₁⟩ := exists_found hh hl.found
  obtain ⟨lookup, hlookup, rfl⟩ := friends_of_did hh hl.friends
  obtain ⟨s₂, g₂, hin₂⟩ := hasInput_of_friend hj
  obtain rfl : g₁ = g₂ := group_agree hh hfound hlookup hin₁ hin₂
  obtain ⟨s₃, hin₃⟩ := (mem_buildInputFriends_iff hin₂).mp hj
  have hlater : (j, s₃, g₁) ∈ (stateAfter (exec env) env.start tr).inputs :=
    inputs_of_event hh hlookup hin₃
  obtain rfl : g₁ = g := (inputs_inj hlater hin).2
  exact ⟨found, hfound, hq, hid, s₁, hin₁⟩

/-- Whatever is good for a group was judged for it. -/
lemma judged_of_history (hh : History (exec env) justified env.start tr)
    (hj : History (exec env) judges env.start tr) (hfresh : ∀ e ∈ tr, Fresh e.before)
    (h : GoodFor (stateAfter (exec env) env.start tr) g name) : Judged tr g name := by
  obtain ⟨pre, e, post, rfl, hnot, hgood⟩ :=
    hh.origin (P := fun db => GoodFor db g name) (by simp [GoodFor, Env.start, Db.empty]) h
  obtain ⟨new, hs, hname, hstatus, r', hr', hid, s, hin⟩ :=
    (goodFor_exec (hfresh e (by simp)) e.input e.stmt hgood).resolve_left hnot
  obtain ⟨hbefore, -, hjudges, -⟩ := hj.event
  rw [hs] at hjudges
  obtain ⟨hd, r, q, friends, rebuild, hc, ⟨a, ha, haname, hastatus⟩, hlooked, hdid, hfriend⟩ :=
    hjudges
  -- The rebuild is still of the friend that the handler has inserted it for.
  have hpre : History (exec env) justified env.start pre := hh.of_append
  obtain ⟨r'', hr'', hid'', hinput⟩ := rebuildOf_of_did hpre hdid
  obtain rfl := Table.eq_of_key hr' (hbefore ▸ hr'') (hid.trans hid''.symm)
  rw [hinput, hbefore] at hin
  obtain ⟨found, hfound, hq, hqid, hin'⟩ := group_of_looked hpre hlooked hfriend hin
  rw [hastatus] at hstatus
  exact ⟨e, by simp, hd, r, hc, ⟨a, ha, haname.symm.trans hname, Option.some.inj hstatus⟩, found,
    List.mem_append_left _ hfound, q, hq, hqid, hin'⟩

end

lemma judges_history (env : Env) (as : Schedule) :
    History (exec env) judges env.start (trace env as) :=
  (Pool.history (handler_judges env.config) env.start as).1

/-- **What is good was found good by a report** about a job of the same group. -/
lemma judged_of_good {env : Env} {as : Schedule} {g : Group} {name : String}
    (h : GoodFor (runPool env as).state g name) : Judged (trace env as) g name := by
  rw [state_runPool] at h
  refine judged_of_history (trace_history env as) (judges_history env as) (fun e he => ?_) h
  obtain ⟨bs, hbs⟩ := Pool.exists_before he
  exact reachable_fresh ⟨bs, hbs⟩

end Rebuilderd.Daemon
