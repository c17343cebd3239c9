import Rebuilderd.Daemon.Sync
import Rebuilderd.Daemon.Leases

/-!
Invariants of every reachable database: what the unique indexes and the foreign keys say.
-/

namespace Rebuilderd.Daemon

open Rebuilderd.Lib Rebuilderd.Common Prog

/-! ### Unique indexes -/

/-- The columns of `source_packages_unique_idx`. -/
def SourcePackage.uniqueKey (s : SourcePackage) : String × String × String × String × String :=
  (s.name, s.version, s.distribution, s.release.getD "PLACEHOLDER", s.component.getD "PLACEHOLDER")

lemma uniqueKey_of_origin {s : SourcePackage} {r : PackageReport} (h : s.inOriginOf r = true) :
    s.uniqueKey = (s.name, s.version, r.distribution, r.release.getD "PLACEHOLDER",
      r.component.getD "PLACEHOLDER") := by
  obtain ⟨hd, hr, hc⟩ := inOriginOf_iff_columns.mp h
  rw [SourcePackage.uniqueKey, hd, hr, hc]

/-- The unique indexes of the source packages and of the build inputs. -/
structure Unique (db : Db) : Prop where
  sources : (db.sourcePackages.rows.map SourcePackage.uniqueKey).Nodup
  inputs : (db.inputs.map (·.2)).Nodup

section
variable {db db' : Db}

lemma Unique.source_eq (h : Unique db) {s s' : SourcePackage} (hs : s ∈ db.sourcePackages.rows)
    (hs' : s' ∈ db.sourcePackages.rows) (heq : s.uniqueKey = s'.uniqueKey) : s = s' :=
  List.inj_on_of_nodup_map h.sources hs hs' heq

lemma Unique.input_eq (h : Unique db) {i i' s : ℕ} {g : Group} (hi : (i, s, g) ∈ db.inputs)
    (hi' : (i', s, g) ∈ db.inputs) : i = i' :=
  congrArg Prod.fst (List.inj_on_of_nodup_map h.inputs hi hi' rfl)

lemma Unique.congr (h : Unique db) (hs : db'.sourcePackages.rows.map SourcePackage.uniqueKey =
    db.sourcePackages.rows.map SourcePackage.uniqueKey) (hi : db'.inputs = db.inputs) :
    Unique db' :=
  ⟨hs ▸ h.sources, hi ▸ h.inputs⟩

lemma conflicts_iff {n : NewSourcePackage} {s : SourcePackage} :
    n.conflicts s = true ↔ s.uniqueKey = (n.row s.id).uniqueKey := by
  simp [NewSourcePackage.conflicts, SourcePackage.uniqueKey, NewSourcePackage.row, and_assoc]

lemma conflicts_input_iff {n : NewBuildInput} {b : BuildInput} :
    n.conflicts b = true ↔ b.identity.2 = (n.row b.id).identity.2 := by
  simp [NewBuildInput.conflicts, BuildInput.identity, BuildInput.group, NewBuildInput.row, and_assoc]

lemma unique_upsertSource (h : Unique db) (n : NewSourcePackage) : Unique (n.upsert db).2 := by
  rcases n.upsert_cases db with ⟨s, -, -, heq⟩ | ⟨hnone, heq⟩ <;> rw [heq]
  · refine h.congr (Table.map_rows_update _ fun s _ hc => ?_) rfl
    exact (conflicts_iff.mp hc).symm
  · refine ⟨?_, h.inputs⟩
    change ((db.sourcePackages.rows ++ [n.row _]).map SourcePackage.uniqueKey).Nodup
    rw [List.map_append, List.nodup_append]
    refine ⟨h.sources, by simp, ?_⟩
    rintro _ hk _ hk' rfl
    obtain ⟨s, hs, hsk⟩ := List.mem_map.mp hk
    have := hnone s hs
    rw [conflicts_iff.mpr (hsk.trans (List.mem_singleton.mp hk'))] at this
    cases this

lemma unique_upsertInput (h : Unique db) (n : NewBuildInput) : Unique (n.upsert db).2 := by
  rcases n.upsert_cases db with ⟨b, -, -, heq⟩ | ⟨hnone, heq⟩ <;> rw [heq]
  · exact h.congr rfl rfl
  · refine ⟨h.sources, ?_⟩
    change (((db.buildInputs.rows ++ [n.row _]).map BuildInput.identity).map (·.2)).Nodup
    rw [List.map_append, List.map_append, List.nodup_append]
    refine ⟨h.inputs, by simp, ?_⟩
    rintro _ hk _ hk' rfl
    obtain ⟨_, hi, hik⟩ := List.mem_map.mp hk
    obtain ⟨b, hb, rfl⟩ := List.mem_map.mp hi
    have := hnone b hb
    rw [conflicts_input_iff.mpr (hik.trans (List.mem_singleton.mp hk'))] at this
    cases this

lemma unique_importWithHistory (h : Unique db) (now : Time) (first : Option Time)
    (r : PackageReport) (p : SourcePackageReport) : Unique (importWithHistory now first r p db).2 := by
  have hrows : Unique (importRows now first r p db).2 := by
    have hup := unique_upsertInput (unique_upsertSource h (newSourcePackage now r p))
      (newBuildInput first r p ((newSourcePackage now r p).upsert db).1.id)
    have hs := importRows_other (g := Db.sourcePackages) (fun _ _ => rfl) now first r p db
    have hb := importRows_other (g := Db.inputs) (fun _ _ => rfl) now first r p db
    exact hup.congr (by rw [hs]) hb
  unfold importWithHistory
  dsimp only
  split
  · have hs := copyExistingRebuilds_frame (g := Db.sourcePackages) (fun _ _ => rfl) (fun _ _ => rfl)
      (importRows now first r p db).1.id (importRows now first r p db).2
    have hb := copyExistingRebuilds_frame (g := Db.inputs) (fun _ _ => rfl) (fun _ _ => rfl)
      (importRows now first r p db).1.id (importRows now first r p db).2
    exact hrows.congr (by rw [hs]) hb
  · exact hrows

lemma unique_import {c : ScheduleConfig} {T : Ties} {now : Time} {r : PackageReport}
    {p : SourcePackageReport} (h : Unique db) (hok : importPackage c T now r db p = .ok db') :
    Unique db' := by
  obtain ⟨first, -, he⟩ := importPackage_ok hok
  have himp := importWithHistory_imported now first r p db
  obtain ⟨⟨hs, hi⟩, -⟩ := enqueueImported_queue (mem_inputs.mpr ⟨_, himp.stored, rfl, rfl, rfl⟩) he
  exact (unique_importWithHistory h now first r p).congr (by rw [hs]) hi

lemma unique_mark (h : Unique db) (r : PackageReport) : Unique (markScopedPackagesUnseen r db) :=
  h.congr (Table.map_rows_update _ fun _ _ _ => rfl) rfl

lemma unique_commit {c : ScheduleConfig} {T : Ties} {now : Time} {r : PackageReport}
    (h : Unique db) (hok : commitPackageReport c T now r db = .ok db') : Unique db' := by
  obtain ⟨db₁, hf, rfl⟩ := commitPackageReport_ok hok
  have h₁ : Unique db₁ := foldlM_ok (I := fun _ d => Unique d) hf (unique_mark h r)
    fun _ p d d' _ hd hp => unique_import hd hp
  exact h₁.congr rfl rfl

end

/-- The statements other than a package report keep the identity of packages and inputs. -/
lemma exec_identities (env : Env) (t : Time) (s : Stmt) (db : Db) :
    (∃ now r, s = .commitPackageReport now r) ∨
      ((((exec env).answer t s db).2.sourcePackages = db.sourcePackages) ∧
        ((exec env).answer t s db).2.inputs = db.inputs) := by
  cases s with
  | commitPackageReport now r => exact .inl ⟨now, r, rfl⟩
  | setNextRetry ids t => exact .inr ⟨rfl, setNextRetry_inputs _ _ _⟩
  | incrementRetries ids => exact .inr ⟨rfl, incrementRetries_inputs _ _⟩
  | refreshWorker key now =>
    refine .inr (Exec.answer_inv (E := exec env) (I := fun d : Db =>
      d.sourcePackages = db.sourcePackages ∧ d.inputs = db.inputs) ⟨rfl, rfl⟩ fun w db' h => ?_)
    simp only [exec, refreshWorker] at h
    split at h <;> cases h
    exact ⟨rfl, rfl⟩
  | popJob w r =>
    right
    change (popJob env.ties w r t db).2.sourcePackages = _ ∧ (popJob env.ties w r t db).2.inputs = _
    rcases popJob_cases env.ties w r t db with ⟨row, -, h⟩ | h <;> rw [h] <;> exact ⟨rfl, rfl⟩
  | findQueued id =>
    refine .inr (Exec.answer_inv (I := fun d : Db =>
      d.sourcePackages = db.sourcePackages ∧ d.inputs = db.inputs) ⟨rfl, rfl⟩ fun q db' h => ?_)
    rw [(exec_findQueued h).2.2]
    exact ⟨rfl, rfl⟩
  | maxRetriesOf ids =>
    refine .inr (Exec.answer_inv (I := fun d : Db =>
      d.sourcePackages = db.sourcePackages ∧ d.inputs = db.inputs) ⟨rfl, rfl⟩ fun n db' h => ?_)
    rw [exec_maxRetriesOf h]
    exact ⟨rfl, rfl⟩
  | _ => exact .inr ⟨rfl, rfl⟩

lemma exec_unique (env : Env) (t : Time) (s : Stmt) (db : Db) (h : Unique db) :
    Unique ((exec env).answer t s db).2 := by
  rcases exec_identities env t s db with ⟨now, r, rfl⟩ | ⟨hs, hi⟩
  · exact Exec.answer_inv h fun u db' hok => unique_commit h (exec_commit hok)
  · exact h.congr (by rw [hs]) hi

/-- **The unique indexes hold in every reachable database.** -/
theorem reachable_unique {env : Env} {db : Db} (h : Reachable env db) : Unique db := by
  obtain ⟨as, rfl⟩ := h
  have hstart : Unique env.start := ⟨List.nodup_nil, List.nodup_nil⟩
  exact Pool.run_inv (exec_unique env) hstart as

/-! ### The build input of a queue row -/

def HasInput (i : ℕ) (db : Db) : Prop := ∃ s g, (i, s, g) ∈ db.inputs

/-- A package report adds build inputs only. -/
lemma inputs_commit {c : ScheduleConfig} {T : Ties} {now : Time} {r : PackageReport} {db db' : Db}
    (hok : commitPackageReport c T now r db = .ok db') : ∀ x ∈ db.inputs, x ∈ db'.inputs := by
  obtain ⟨db₁, hsync, rfl⟩ := syncing_of_commit hok
  exact hsync.inputs

/-- Build inputs are never deleted, and keep what makes their group. -/
lemma exec_inputs (env : Env) (t : Time) (s : Stmt) (db : Db) (x : ℕ × ℕ × Group)
    (hx : x ∈ db.inputs) : x ∈ ((exec env).answer t s db).2.inputs := by
  rcases exec_identities env t s db with ⟨now, r, rfl⟩ | ⟨-, hi⟩
  · exact Exec.answer_inv (I := fun d : Db => x ∈ d.inputs) hx fun u db' hok =>
      inputs_commit (exec_commit hok) x hx
  · rwa [hi]

lemma exec_hasInput (env : Env) (i : ℕ) (t : Time) (s : Stmt) (db : Db) (h : HasInput i db) :
    HasInput i ((exec env).answer t s db).2 := by
  obtain ⟨s', g, h⟩ := h
  exact ⟨s', g, exec_inputs env t s db _ h⟩

/-- The build inputs of the queue, and those a handler has read from it or selected, exist. -/
structure InputsExist (tr : List Event) (db : Db) : Prop where
  queue : ∀ q ∈ db.queue.rows, HasInput q.buildInputId db
  found : ∀ e ∈ tr, ∀ t id q, e.toStep = ⟨t, .findQueued id, .ok q⟩ → HasInput q.buildInputId db
  matched : ∀ e ∈ tr, ∀ t r ids, e.toStep = ⟨t, .matchingBuildInputs r, .ok ids⟩ →
    ∀ i ∈ ids, HasInput i db

/-- A queue row after a statement has the build input of a row before it, or the one the
statement enqueues. -/
lemma exec_queueInput (env : Env) (t : Time) (s : Stmt) (db : Db)
    (h : ∀ q ∈ db.queue.rows, HasInput q.buildInputId db)
    (hup : ∀ new, s = .upsertQueued new → HasInput new.buildInputId db) :
    ∀ q ∈ ((exec env).answer t s db).2.queue.rows,
      HasInput q.buildInputId ((exec env).answer t s db).2 := by
  have hold := fun i => exec_hasInput env i t s db
  rcases hs : s.enqueues with _ | _
  · intro q hq
    obtain ⟨q₀, hq₀, -, hb⟩ := (exec_oldRow env t hs db).2 q hq
    exact hb ▸ hold _ (h q₀ hq₀)
  · cases s with
    | commitPackageReport now r =>
      refine Exec.answer_inv (I := fun d : Db => ∀ q ∈ d.queue.rows, HasInput q.buildInputId d) h
        fun u db' hok q hq => ?_
      obtain ⟨db₁, hsync, rfl⟩ := syncing_of_commit (exec_commit hok)
      rcases hsync.rows q (mem_dropUnseen.mp hq).1 with hq | ⟨-, -, p, -, b, hb, s, -, hid, -⟩
      · obtain ⟨s, g, hi⟩ := h q hq
        exact ⟨s, g, inputs_commit (exec_commit hok) _ hi⟩
      · exact ⟨_, _, mem_inputs.mpr ⟨b, hb, hid, rfl, rfl⟩⟩
    | upsertQueued new =>
      intro q hq
      have hnew := hold _ (hup new rfl)
      change q ∈ (new.upsert db).queue.rows at hq
      rcases new.upsert_cases db with ⟨r, -, -, hqueue⟩ | ⟨-, hqueue⟩ <;> rw [hqueue] at hq
      · obtain ⟨q₀, hq₀, rfl⟩ := List.mem_map.mp hq
        split
        · exact hnew
        · exact hold _ (h q₀ hq₀)
      · rcases List.mem_append.mp hq with hq | hq
        · exact hold _ (h q hq)
        · rw [List.mem_singleton.mp hq]
          exact hnew
    | _ => cases hs

lemma mem_matchingBuildInputs {r : QueueJobRequest} {db : Db} {i : ℕ}
    (h : i ∈ matchingBuildInputs r db) : HasInput i db := by
  simp only [matchingBuildInputs, List.mem_flatMap, List.mem_map, List.mem_filter] at h
  obtain ⟨s, -, b, ⟨hb, -⟩, p, -, rfl⟩ := h
  exact ⟨_, _, mem_inputs.mpr ⟨b, hb, rfl, rfl, rfl⟩⟩

/-- A known build input is known after the next statement as well. -/
lemma inputsExist_step {env : Env} {tr : List Event} {e : Event}
    (hh : History (exec env) justified env.start (tr ++ [e])) (ih : InputsExist tr e.before) :
    InputsExist (tr ++ [e]) (e.after (exec env)) := by
  obtain ⟨-, hans, hjust, -⟩ := hh.last
  have hold := fun i => exec_hasInput env i e.input e.stmt e.before
  refine ⟨exec_queueInput env e.input e.stmt e.before ih.queue fun new hs => ?_,
    fun x hx t id q hstep => hold _ ?_, fun x hx t r ids hstep i hi => hold _ ?_⟩
  · rw [hs] at hjust
    rcases hjust with ⟨q, ⟨hd, r, -, hfound⟩, hnew⟩ | ⟨hd, r, ids, -, hmatched, hnew⟩
    · obtain ⟨pre, x, post, rfl, -, t, hstep⟩ := did_event hfound
      exact hnew ▸ ih.found x (by simp) t _ q hstep
    · obtain ⟨pre, x, post, rfl, -, t, hstep⟩ := did_event hmatched
      exact ih.matched x (by simp) t r ids hstep _ hnew
  · rcases List.mem_append.mp hx with hx | hx
    · exact ih.found x hx t id q hstep
    · obtain rfl := List.mem_singleton.mp hx
      obtain ⟨⟨t', s, a⟩, i, c, db⟩ := x
      cases hstep
      exact ih.queue q (exec_findQueued (Exec.answer_ok.mp (Prod.ext hans.symm rfl))).1
  · rcases List.mem_append.mp hx with hx | hx
    · exact ih.matched x hx t r ids hstep i hi
    · obtain rfl := List.mem_singleton.mp hx
      obtain ⟨⟨t', s, a⟩, i, c, db⟩ := x
      cases hstep
      obtain rfl : ids = matchingBuildInputs r db := Except.ok.inj hans
      exact mem_matchingBuildInputs hi

lemma inputs_exist {env : Env} {tr : List Event}
    (hh : History (exec env) justified env.start tr) :
    InputsExist tr (stateAfter (exec env) env.start tr) :=
  hh.invariant (I := InputsExist) ⟨by simp [Env.start, Db.empty], by simp, by simp⟩ inputsExist_step

/-- **Every queue row has its build input, in every reachable database.** -/
theorem reachable_queueInput {env : Env} {db : Db} (h : Reachable env db) :
    ∀ q ∈ db.queue.rows, HasInput q.buildInputId db := by
  obtain ⟨as, rfl⟩ := h
  rw [state_runPool]
  exact (inputs_exist (trace_history env as)).queue

end Rebuilderd.Daemon
