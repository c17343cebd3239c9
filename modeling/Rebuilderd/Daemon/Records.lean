import Rebuilderd.Daemon.Package

/-!
The history of a build input: what its rebuilds have recorded, in the order of their ids.

A history forgets the ids of rebuilds and artifacts, so it is what the copies of a rebuild have in
common.
-/

namespace Rebuilderd.Daemon

open Rebuilderd.Lib Rebuilderd.Common

structure ArtifactRecord where
  name : String
  diffoscopeLogId : Option ℕ
  attestationLogId : Option ℕ
  status : Option ArtifactStatus
  deriving DecidableEq

structure Record where
  startedAt : Option Time
  builtAt : Option Time
  buildLogId : ℕ
  status : Option BuildStatus
  artifacts : List ArtifactRecord
  deriving DecidableEq

def Record.builtText (r : Record) : Option TimeText := r.builtAt.map stored

def RebuildArtifact.content (a : RebuildArtifact) : ArtifactRecord :=
  ⟨a.name, a.diffoscopeLogId, a.attestationLogId, a.status⟩

def Rebuild.record (r : Rebuild) (artifacts : List ArtifactRecord) : Record :=
  ⟨r.startedAt, r.builtAt, r.buildLogId, r.status, artifacts⟩

def NewRebuild.record (n : NewRebuild) (artifacts : List ArtifactRecord) : Record :=
  ⟨n.startedAt, n.builtAt, n.buildLogId, n.status, artifacts⟩

/-- The artifacts of a rebuild. -/
def artifactsOf (db : Db) (rebuild : ℕ) : List ArtifactRecord :=
  (db.rebuildArtifacts.rows.filter (·.rebuildId == rebuild)).map RebuildArtifact.content

/-- The history of a build input. -/
def history (db : Db) (i : ℕ) : List Record :=
  (db.rebuilds.rows.filter (·.buildInputId == i)).map fun r => r.record (artifactsOf db r.id)

/-- No row refers to a rebuild or a build input that is still to come. -/
structure Fresh (db : Db) : Prop where
  artifacts : ∀ a ∈ db.rebuildArtifacts.rows, a.rebuildId ≤ db.rebuilds.seq
  rebuilds : ∀ r ∈ db.rebuilds.rows, r.buildInputId ≤ db.buildInputs.seq

section
variable {db db' : Db} {i k : ℕ}

lemma history_congr (hr : db'.rebuilds = db.rebuilds)
    (ha : db'.rebuildArtifacts = db.rebuildArtifacts) (i : ℕ) : history db' i = history db i := by
  unfold history artifactsOf
  rw [hr, ha]

lemma Fresh.congr (h : Fresh db) (hr : db'.rebuilds = db.rebuilds)
    (ha : db'.rebuildArtifacts = db.rebuildArtifacts)
    (hi : db.buildInputs.seq ≤ db'.buildInputs.seq) : Fresh db' := by
  refine ⟨fun a h' => ?_, fun r h' => ?_⟩
  · rw [ha] at h'
    rw [hr]
    exact h.artifacts a h'
  · rw [hr] at h'
    exact (h.rebuilds r h').trans hi

lemma Fresh.empty (ws : Table Worker) : Fresh { Db.empty with workers := ws } :=
  ⟨by simp [Db.empty], by simp [Db.empty]⟩

lemma artifactsOf_eq_nil (h : Fresh db) (hk : db.rebuilds.seq < k) : artifactsOf db k = [] := by
  unfold artifactsOf
  rw [List.map_eq_nil_iff, List.filter_eq_nil_iff]
  intro a ha hak
  have := h.artifacts a ha
  simp only [beq_iff_eq] at hak
  omega

lemma history_eq_nil (h : Fresh db) (hi : db.buildInputs.seq < i) : history db i = [] := by
  unfold history
  rw [List.map_eq_nil_iff, List.filter_eq_nil_iff]
  intro r hr hri
  have := h.rebuilds r hr
  simp only [beq_iff_eq] at hri
  omega

/-! ### Adding a rebuild -/

lemma artifactsOf_insertRebuild (n : NewRebuild) (db : Db) (k : ℕ) :
    artifactsOf (n.insert db).2 k = artifactsOf db k := rfl

lemma artifactsOf_insertArtifact (n : NewRebuildArtifact) (db : Db) (k : ℕ) :
    artifactsOf (n.insert db) k = artifactsOf db k ++
      if n.rebuildId = k then [⟨n.name, n.diffoscopeLogId, n.attestationLogId, n.status⟩] else [] := by
  unfold artifactsOf
  rw [NewRebuildArtifact.rows_insert, List.filter_append, List.map_append]
  by_cases h : n.rebuildId = k
  · simp [h, NewRebuildArtifact.row, RebuildArtifact.content]
  · simp [h, NewRebuildArtifact.row]

/-- A new rebuild whose artifacts are `as`: its build input has one record more. -/
lemma history_added (h : Fresh db) {n : NewRebuild} {as : List ArtifactRecord}
    (hr : db'.rebuilds = (n.insert db).2.rebuilds)
    (ha : ∀ k, artifactsOf db' k = artifactsOf db k ++ if db.rebuilds.seq + 1 = k then as else [])
    (i : ℕ) : history db' i = history db i ++ if n.buildInputId = i then [n.record as] else [] := by
  have hold : (db.rebuilds.rows.filter (·.buildInputId == i)).map
      (fun r => r.record (artifactsOf db' r.id)) = history db i := by
    refine List.map_congr_left fun r hmem => ?_
    have hle := db.rebuilds.bound r (List.mem_filter.mp hmem).1
    have hne : db.rebuilds.seq + 1 ≠ r.id := by
      have : r.id ≤ db.rebuilds.seq := hle
      omega
    rw [ha, if_neg hne, List.append_nil]
  have hnew : artifactsOf db' (db.rebuilds.seq + 1) = as := by
    rw [ha, artifactsOf_eq_nil h (Nat.lt_succ_self _), if_pos rfl, List.nil_append]
  unfold history at hold ⊢
  rw [hr, NewRebuild.rows_insert, List.filter_append, List.map_append, hold]
  by_cases hi : n.buildInputId = i
  · simp [hi, NewRebuild.row, Rebuild.record, NewRebuild.record, hnew]
  · simp [hi, NewRebuild.row]

end

/-- Insert a rebuild with the artifacts `as`. -/
def addRebuild (n : NewRebuild) (as : List ArtifactRecord) (db : Db) : Db :=
  as.foldl (fun d a => NewRebuildArtifact.insert
    ⟨(n.insert db).1, a.name, a.diffoscopeLogId, a.attestationLogId, a.status⟩ d) (n.insert db).2

section
variable {db db' : Db} {i k : ℕ}

lemma addRebuild_rebuilds (n : NewRebuild) (as : List ArtifactRecord) (db : Db) :
    (addRebuild n as db).rebuilds = (n.insert db).2.rebuilds := by
  unfold addRebuild
  refine foldl_frame (g := Db.rebuilds) ?_ _ _
  exact fun db a => rfl

lemma addRebuild_inputs (n : NewRebuild) (as : List ArtifactRecord) (db : Db) :
    (addRebuild n as db).buildInputs = db.buildInputs := by
  unfold addRebuild
  refine foldl_frame (g := Db.buildInputs) ?_ _ _
  exact fun db a => rfl

lemma artifactsOf_addRebuild (n : NewRebuild) (as : List ArtifactRecord) (db : Db) (k : ℕ) :
    artifactsOf (addRebuild n as db) k =
      artifactsOf db k ++ if db.rebuilds.seq + 1 = k then as else [] := by
  unfold addRebuild
  rw [← artifactsOf_insertRebuild n db k]
  generalize (n.insert db).2 = d
  induction as generalizing d with
  | nil => simp
  | cons a as ih =>
    rw [List.foldl_cons, ih, artifactsOf_insertArtifact]
    by_cases hk : db.rebuilds.seq + 1 = k
    · simp [hk, NewRebuild.insert]
    · simp [hk, NewRebuild.insert]

lemma history_addRebuild (h : Fresh db) (n : NewRebuild) (as : List ArtifactRecord) (i : ℕ) :
    history (addRebuild n as db) i =
      history db i ++ if n.buildInputId = i then [n.record as] else [] :=
  history_added h (addRebuild_rebuilds n as db) (artifactsOf_addRebuild n as db) i

lemma Fresh.insertRebuild (h : Fresh db) {n : NewRebuild} (hn : n.buildInputId ≤ db.buildInputs.seq) :
    Fresh (n.insert db).2 := by
  refine ⟨fun a ha => (h.artifacts a ha).trans (Nat.le_succ _), fun r hr => ?_⟩
  rw [NewRebuild.rows_insert] at hr
  rcases List.mem_append.mp hr with hr | hr
  · exact h.rebuilds r hr
  · rw [List.mem_singleton.mp hr]
    exact hn

lemma Fresh.insertArtifact (h : Fresh db) {n : NewRebuildArtifact} (hn : n.rebuildId ≤ db.rebuilds.seq) :
    Fresh (n.insert db) := by
  refine ⟨fun a ha => ?_, h.rebuilds⟩
  rw [NewRebuildArtifact.rows_insert] at ha
  rcases List.mem_append.mp ha with ha | ha
  · exact h.artifacts a ha
  · rw [List.mem_singleton.mp ha]
    exact hn

lemma Fresh.addRebuild (h : Fresh db) {n : NewRebuild} (hn : n.buildInputId ≤ db.buildInputs.seq)
    (as : List ArtifactRecord) : Fresh (addRebuild n as db) := by
  have hstart : Fresh (n.insert db).2 ∧ (n.insert db).1 ≤ (n.insert db).2.rebuilds.seq :=
    ⟨h.insertRebuild hn, le_rfl⟩
  unfold Daemon.addRebuild
  generalize (n.insert db).1 = id at *
  generalize (n.insert db).2 = d at *
  induction as generalizing d with
  | nil => exact hstart.1
  | cons a as ih => exact ih _ ⟨hstart.1.insertArtifact hstart.2, hstart.2⟩

/-! ### Copying rebuilds -/

lemma copyRebuild_eq (id : ℕ) (db : Db) (r : Rebuild) : copyRebuild id db r =
    addRebuild ⟨id, r.startedAt, r.builtAt, r.buildLogId, r.status⟩ (artifactsOf db r.id) db := by
  unfold copyRebuild addRebuild artifactsOf
  rw [List.foldl_map]
  rfl

/-- The histories after the rebuilds `rs` were copied to the build input `id`. -/
structure Copied (id : ℕ) (rs : List Rebuild) (db db' : Db) : Prop where
  fresh : Fresh db'
  inputs : db'.buildInputs = db.buildInputs
  seq : db.rebuilds.seq ≤ db'.rebuilds.seq
  artifacts : ∀ k ≤ db.rebuilds.seq, artifactsOf db' k = artifactsOf db k
  history : ∀ i, history db' i = history db i ++
    if id = i then rs.map fun r => r.record (artifactsOf db r.id) else []

lemma copied_foldl (h : Fresh db) {id : ℕ} (hid : id ≤ db.buildInputs.seq) (rs : List Rebuild)
    (hrs : ∀ r ∈ rs, r.id ≤ db.rebuilds.seq) : Copied id rs db (rs.foldl (copyRebuild id) db) := by
  induction rs using List.reverseRecOn with
  | nil => exact ⟨h, rfl, le_rfl, fun _ _ => rfl, fun i => by simp⟩
  | append_singleton rs r ih =>
    have hc := ih fun r' hr' => hrs r' (List.mem_append_left _ hr')
    have hr : r.id ≤ db.rebuilds.seq := hrs r (by simp)
    rw [List.foldl_append]
    generalize rs.foldl (copyRebuild id) db = d at hc
    simp only [List.foldl_cons, List.foldl_nil, copyRebuild_eq]
    refine ⟨hc.fresh.addRebuild (by rw [hc.inputs]; exact hid) _,
      (addRebuild_inputs _ _ _).trans hc.inputs, ?_, fun k hk => ?_, fun i => ?_⟩
    · rw [addRebuild_rebuilds]
      exact Nat.le_succ_of_le hc.seq
    · have hne : d.rebuilds.seq + 1 ≠ k := by
        have := hc.seq
        omega
      rw [artifactsOf_addRebuild, if_neg hne, List.append_nil, hc.artifacts k hk]
    · rw [history_addRebuild hc.fresh, hc.history, hc.artifacts r.id hr]
      by_cases hi : id = i
      · simp [hi, Rebuild.record, NewRebuild.record]
      · simp [hi]

/-- The history of the oldest other friend. -/
def friendHistory (db : Db) (id : ℕ) : List Record :=
  match ((buildInputFriends db id).filter (· ≠ id)).min? with
  | some existing => history db existing
  | none => []

lemma copied_copyExistingRebuilds (h : Fresh db) {id : ℕ} (hid : id ≤ db.buildInputs.seq) :
    Fresh (copyExistingRebuilds id db) ∧
      (copyExistingRebuilds id db).buildInputs = db.buildInputs ∧
      ∀ i, history (copyExistingRebuilds id db) i =
        history db i ++ if id = i then friendHistory db id else [] := by
  unfold copyExistingRebuilds friendHistory
  rcases ((buildInputFriends db id).filter (· ≠ id)).min? with _ | existing
  · exact ⟨h, rfl, fun i => by simp⟩
  · dsimp only
    split
    · have hc := copied_foldl h hid (db.rebuilds.rows.filter (·.buildInputId == existing))
        fun r hr => db.rebuilds.bound r (List.mem_filter.mp hr).1
      exact ⟨hc.fresh, hc.inputs, hc.history⟩
    · rename_i hnone
      have hempty : history db existing = [] := by
        unfold history
        rw [List.map_eq_nil_iff, List.filter_eq_nil_iff]
        intro r hr hri
        exact hnone (List.any_eq_true.mpr ⟨r, hr, hri⟩)
      exact ⟨h, rfl, fun i => by simp [hempty]⟩

end

/-! ### Importing a package -/

section
variable {db : Db} (now : Time) (first : Option Time) (r : PackageReport) (p : SourcePackageReport)

lemma importRows_history (i : ℕ) : history (importRows now first r p db).2 i = history db i :=
  history_congr (importRows_frame now first r p db).2.1 (importRows_frame now first r p db).2.2 i

lemma importRows_seq (db : Db) :
    db.buildInputs.seq ≤ (importRows now first r p db).2.buildInputs.seq := by
  have hother := importRows_other (g := (·.buildInputs.seq)) (fun _ _ => rfl) now first r p db
  dsimp only at hother
  rw [hother]
  exact Table.seq_le_upsert _ _ _ _ _ _

/-- What an import does to histories: a new package's input gets that of its oldest friend. -/
lemma importWithHistory_history (h : Fresh db) :
    Fresh (importWithHistory now first r p db).2 ∧
      ∀ i, history (importWithHistory now first r p db).2 i = history db i ++
        if (importWithHistory now first r p db).1.id = i ∧ isNewPackage r p db = true then
          friendHistory (importRows now first r p db).2 i else [] := by
  have hrows : Fresh (importRows now first r p db).2 :=
    h.congr (importRows_frame now first r p db).2.1 (importRows_frame now first r p db).2.2
      (importRows_seq now first r p db)
  have hbound : (importRows now first r p db).1.id ≤ (importRows now first r p db).2.buildInputs.seq :=
    Table.bound _ _ (importRows_imported now first r p db).stored
  unfold importWithHistory
  dsimp only
  split
  · rename_i hnew
    obtain ⟨hfresh, -, hhist⟩ := copied_copyExistingRebuilds hrows hbound
    refine ⟨hfresh, fun i => ?_⟩
    rw [hhist, importRows_history]
    by_cases hi : (importRows now first r p db).1.id = i
    · subst hi
      simp [hnew]
    · simp [hi]
  · rename_i hnew
    refine ⟨hrows, fun i => ?_⟩
    rw [importRows_history]
    simp [hnew]

end

end Rebuilderd.Daemon
