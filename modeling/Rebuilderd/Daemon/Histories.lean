import Rebuilderd.Daemon.Invariants

/-!
The part of the database that tells what happened to the packages, apart from the queue: source
packages, build inputs with their retries, and rebuilds. What an import makes of it depends on
nothing else.
-/

namespace Rebuilderd.Daemon

open Rebuilderd.Lib Rebuilderd.Common

/-! ### Retries and rebuilds of a build input -/

/-- The build inputs with their retries. -/
def Db.tries (db : Db) : List ((ℕ × ℕ × Group) × ℤ) :=
  db.buildInputs.rows.map fun b => (b.identity, b.retries)

lemma mem_inputs_of_tries {db : Db} {x : (ℕ × ℕ × Group) × ℤ} (h : x ∈ db.tries) : x.1 ∈ db.inputs := by
  obtain ⟨b, hb, rfl⟩ := List.mem_map.mp h
  exact List.mem_map.mpr ⟨b, hb, rfl⟩

lemma inputs_eq_tries (db : Db) : db.inputs = db.tries.map Prod.fst := by
  simp [Db.inputs, Db.tries, Function.comp_def]

/-- The latest status of an input is that of its rebuilds. -/
lemma getCurrentRebuildStatus_congr (T : Ties) {db db' : Db} {i : ℕ}
    (h : db'.rebuilds.rows.filter (·.buildInputId == i) =
      db.rebuilds.rows.filter (·.buildInputId == i)) :
    getCurrentRebuildStatus T db' i = getCurrentRebuildStatus T db i := by
  unfold getCurrentRebuildStatus newestBuilt rebuildsOf
  rw [h]

lemma copyRebuild_rebuilds (id : ℕ) (db : Db) (r : Rebuild) : (copyRebuild id db r).rebuilds =
    (NewRebuild.insert ⟨id, r.startedAt, r.builtAt, r.buildLogId, r.status⟩ db).2.rebuilds := by
  unfold copyRebuild
  refine foldl_frame (g := Db.rebuilds) ?_ _ _
  exact fun db a => rfl

/-- Copying rebuilds to an input adds none to another. -/
lemma copyExistingRebuilds_rebuilds_of_ne {i id : ℕ} (h : i ≠ id) (db : Db) :
    (copyExistingRebuilds id db).rebuilds.rows.filter (·.buildInputId == i) =
      db.rebuilds.rows.filter (·.buildInputId == i) := by
  have hcopy (db : Db) (r : Rebuild) :
      (copyRebuild id db r).rebuilds.rows.filter (·.buildInputId == i) =
        db.rebuilds.rows.filter (·.buildInputId == i) := by
    rw [copyRebuild_rebuilds, NewRebuild.rows_insert]
    simp [NewRebuild.row, h.symm]
  unfold copyExistingRebuilds
  split
  · split
    · exact foldl_frame (g := fun d => d.rebuilds.rows.filter (·.buildInputId == i)) hcopy _ _
    · rfl
  · rfl

/-! ### Histories without the queue -/

/-- The databases agree on packages, retries and rebuilds. -/
structure SameHistory (db db' : Db) : Prop where
  sources : db'.sourcePackages = db.sourcePackages
  tries : db'.tries = db.tries
  seq : db'.buildInputs.seq = db.buildInputs.seq
  rebuilds : db'.rebuilds = db.rebuilds

namespace SameHistory

variable {db db' db'' : Db}

lemma refl (db : Db) : SameHistory db db := ⟨rfl, rfl, rfl, rfl⟩

lemma trans (h : SameHistory db db') (h' : SameHistory db' db'') : SameHistory db db'' :=
  ⟨h'.sources.trans h.sources, h'.tries.trans h.tries, h'.seq.trans h.seq,
    h'.rebuilds.trans h.rebuilds⟩

lemma inputs (h : SameHistory db db') : db'.inputs = db.inputs := by
  rw [inputs_eq_tries, inputs_eq_tries, h.tries]

lemma status (h : SameHistory db db') (T : Ties) (i : ℕ) :
    getCurrentRebuildStatus T db' i = getCurrentRebuildStatus T db i :=
  getCurrentRebuildStatus_congr T (by rw [h.rebuilds])

/-- Enqueueing changes no history. -/
lemma enqueueImported {c : ScheduleConfig} {T : Ties} {now : Time} {id : ℕ}
    (hok : enqueueImported c T now id db = .ok db') : SameHistory db db' := by
  rcases enqueueImported_cases hok with ⟨-, rfl⟩ | ⟨-, -, n, -, ⟨-, rfl⟩ | ⟨-, priority, rfl⟩⟩
  · exact refl _
  · exact ⟨rfl, Table.map_rows_update _ fun _ _ _ => rfl, rfl, rfl⟩
  · exact ⟨rfl, rfl, rfl, rfl⟩

lemma upsertSource (h : SameHistory db db') (n : NewSourcePackage) :
    (n.upsert db').1 = (n.upsert db).1 ∧ SameHistory (n.upsert db).2 (n.upsert db').2 := by
  unfold NewSourcePackage.upsert
  rw [h.sources]
  exact ⟨rfl, rfl, h.tries, h.seq, h.rebuilds⟩

lemma upsertInput (h : SameHistory db db') (hu : Unique db) (first first' : Option Time)
    (r : PackageReport) (p : SourcePackageReport) (source : ℕ) :
    ((newBuildInput first' r p source).upsert db').1.id =
        ((newBuildInput first r p source).upsert db).1.id ∧
      SameHistory ((newBuildInput first r p source).upsert db).2
        ((newBuildInput first' r p source).upsert db').2 := by
  have hin (b : BuildInput) : b.identity ∈ db'.inputs ↔ b.identity ∈ db.inputs := by rw [h.inputs]
  have hmem {d : Db} {b : BuildInput} (hb : b ∈ d.buildInputs.rows) : b.identity ∈ d.inputs :=
    List.mem_map.mpr ⟨b, hb, rfl⟩
  -- A conflict is one of identities, so it is there in both databases or in none.
  have hconf {b b' : BuildInput} (hb : (newBuildInput first r p source).conflicts b = true)
      (heq : b'.identity.2 = b.identity.2) :
      (newBuildInput first' r p source).conflicts b' = true :=
    conflicts_input_iff.mpr (heq.trans (conflicts_input_iff.mp hb))
  have hconf' {b b' : BuildInput} (hb : (newBuildInput first' r p source).conflicts b = true)
      (heq : b'.identity.2 = b.identity.2) :
      (newBuildInput first r p source).conflicts b' = true :=
    conflicts_input_iff.mpr (heq.trans (conflicts_input_iff.mp hb))
  rcases (newBuildInput first r p source).upsert_cases db with ⟨b, hb, hc, hup⟩ | ⟨hc, hup⟩ <;>
    rcases (newBuildInput first' r p source).upsert_cases db' with
      ⟨b', hb', hc', hup'⟩ | ⟨hc', hup'⟩ <;> rw [hup, hup']
  · refine ⟨?_, h.sources, h.tries, congrArg (· + 1) h.seq, h.rebuilds⟩
    have hsame : b'.identity.2 = b.identity.2 :=
      (conflicts_input_iff.mp hc').trans (conflicts_input_iff.mp hc).symm
    exact congrArg Prod.fst
      (List.inj_on_of_nodup_map hu.inputs ((hin b').mp (hmem hb')) (hmem hb) hsame)
  · obtain ⟨b', hb', hid, hs, hg⟩ := mem_inputs.mp ((hin b).mpr (hmem hb))
    have := hc' b' hb'
    rw [hconf hc (Prod.ext hs hg)] at this
    cases this
  · obtain ⟨b, hb, hid, hs, hg⟩ := mem_inputs.mp ((hin b').mp (hmem hb'))
    have := hc b hb
    rw [hconf' hc' (Prod.ext hs hg)] at this
    cases this
  · refine ⟨congrArg (· + 1) h.seq, h.sources, ?_, congrArg (· + 1) h.seq, h.rebuilds⟩
    change (db'.buildInputs.rows ++ [_]).map _ = (db.buildInputs.rows ++ [_]).map _
    rw [List.map_append, List.map_append, h.seq]
    exact congrArg (· ++ _) h.tries

lemma importRows (h : SameHistory db db') (hu : Unique db) (now : Time) (first first' : Option Time)
    (r : PackageReport) (p : SourcePackageReport) :
    (importRows now first' r p db').1.id = (importRows now first r p db).1.id ∧
      SameHistory (importRows now first r p db).2 (importRows now first' r p db').2 := by
  obtain ⟨hsource, hafter⟩ := h.upsertSource (newSourcePackage now r p)
  have hinput := hafter.upsertInput (unique_upsertSource hu _) first first' r p
    ((newSourcePackage now r p).upsert db).1.id
  have hother {γ : Type} {g : Db → γ} (hg : ∀ db (n : NewBinaryPackage), g (n.upsert db) = g db) :=
    importRows_other hg now first r p db
  have hother' {γ : Type} {g : Db → γ} (hg : ∀ db (n : NewBinaryPackage), g (n.upsert db) = g db) :=
    importRows_other hg now first' r p db'
  dsimp only at hother hother'
  rw [hsource] at hother'
  refine ⟨?_, ?_, ?_, ?_, ?_⟩
  · change ((newBuildInput first' r p ((newSourcePackage now r p).upsert db').1.id).upsert _).1.id = _
    rw [hsource]
    exact hinput.1
  · rw [hother (g := Db.sourcePackages) fun _ _ => rfl, hother' (g := Db.sourcePackages) fun _ _ => rfl]
    exact hinput.2.sources
  · rw [hother (g := Db.tries) fun _ _ => rfl, hother' (g := Db.tries) fun _ _ => rfl]
    exact hinput.2.tries
  · rw [hother (g := (·.buildInputs.seq)) fun _ _ => rfl,
      hother' (g := (·.buildInputs.seq)) fun _ _ => rfl]
    exact hinput.2.seq
  · rw [hother (g := Db.rebuilds) fun _ _ => rfl, hother' (g := Db.rebuilds) fun _ _ => rfl]
    exact hinput.2.rebuilds

lemma copyExistingRebuilds (h : SameHistory db db') (id : ℕ) :
    SameHistory (copyExistingRebuilds id db) (copyExistingRebuilds id db') := by
  have hframe {γ : Type} {g : Db → γ} (hr : ∀ (n : NewRebuild) db, g (n.insert db).2 = g db)
      (ha : ∀ (n : NewRebuildArtifact) db, g (n.insert db) = g db) (db : Db) :
      g (Daemon.copyExistingRebuilds id db) = g db := copyExistingRebuilds_frame hr ha id db
  refine ⟨?_, ?_, ?_, ?_⟩
  · rw [hframe (g := Db.sourcePackages) (fun _ _ => rfl) fun _ _ => rfl,
      hframe (g := Db.sourcePackages) (fun _ _ => rfl) fun _ _ => rfl, h.sources]
  · rw [hframe (g := Db.tries) (fun _ _ => rfl) fun _ _ => rfl,
      hframe (g := Db.tries) (fun _ _ => rfl) fun _ _ => rfl, h.tries]
  · rw [hframe (g := (·.buildInputs.seq)) (fun _ _ => rfl) fun _ _ => rfl,
      hframe (g := (·.buildInputs.seq)) (fun _ _ => rfl) fun _ _ => rfl, h.seq]
  · unfold Daemon.copyExistingRebuilds
    rw [buildInputFriends_of_inputs h.inputs, h.rebuilds]
    split
    · split
      · refine List.foldl_rel (r := fun d d' : Db => d'.rebuilds = d.rebuilds) h.rebuilds
          fun rebuild _ d d' hd => ?_
        rw [copyRebuild_rebuilds, copyRebuild_rebuilds]
        unfold NewRebuild.insert
        rw [hd]
      · exact h.rebuilds
    · exact h.rebuilds

/-- Importing the same package keeps two databases in step, whatever the first try. -/
lemma importWithHistory (h : SameHistory db db') (hu : Unique db) (now : Time)
    (first first' : Option Time) (r : PackageReport) (p : SourcePackageReport) :
    SameHistory (importWithHistory now first r p db).2 (importWithHistory now first' r p db').2 := by
  obtain ⟨hid, hrows⟩ := h.importRows hu now first first' r p
  have hnew : isNewPackage r p db' = isNewPackage r p db := by
    unfold isNewPackage
    rw [h.sources]
  unfold Daemon.importWithHistory
  dsimp only
  rw [hnew, hid]
  split
  · exact hrows.copyExistingRebuilds _
  · exact hrows

end SameHistory

/-- An import leaves the build inputs as they are and uses up an id, or adds one that has the configured
first try. -/
lemma buildInputs_import_cases (now : Time) (first : Option Time) (r : PackageReport)
    (p : SourcePackageReport) (db : Db) :
    (importWithHistory now first r p db).2.buildInputs = db.buildInputs.skip ∨
      ∃ source, (importWithHistory now first r p db).2.buildInputs =
        db.buildInputs.insert (newBuildInput first r p source).row := by
  have hrows : (importWithHistory now first r p db).2.buildInputs =
      (importRows now first r p db).2.buildInputs := by
    unfold importWithHistory
    dsimp only
    split
    · exact copyExistingRebuilds_frame (g := Db.buildInputs) (fun _ _ => rfl) (fun _ _ => rfl) _ _
    · rfl
  have hother := importRows_other (g := Db.buildInputs) (fun _ _ => rfl) now first r p db
  dsimp only at hother
  rw [hrows, hother, ← (upsertSource_spec now r p db).1]
  rcases NewBuildInput.upsert_cases (newBuildInput first r p _)
    ((newSourcePackage now r p).upsert db).2 with ⟨b, -, -, h⟩ | ⟨-, h⟩ <;> rw [h]
  · exact .inl rfl
  · exact .inr ⟨_, rfl⟩

/-- An import leaves the build inputs there are as they are; one that it creates has not been tried. -/
lemma buildInputs_importWithHistory (now : Time) (first : Option Time) (r : PackageReport)
    (p : SourcePackageReport) (db : Db) : ∃ new, (importWithHistory now first r p db).2.buildInputs.rows =
      db.buildInputs.rows ++ new ∧ ∀ b ∈ new, b.retries = 0 := by
  rcases buildInputs_import_cases now first r p db with h | ⟨source, h⟩ <;> rw [h]
  · exact ⟨[], (List.append_nil _).symm, by simp⟩
  · refine ⟨[_], rfl, fun b hb => ?_⟩
    rw [List.mem_singleton.mp hb]
    rfl

lemma tries_importWithHistory (now : Time) (first : Option Time) (r : PackageReport)
    (p : SourcePackageReport) (db : Db) :
    ∃ new, (importWithHistory now first r p db).2.tries = db.tries ++ new ∧ ∀ x ∈ new, x.2 = 0 := by
  obtain ⟨new, hrows, hzero⟩ := buildInputs_importWithHistory now first r p db
  refine ⟨new.map fun b => (b.identity, b.retries), ?_, fun x hx => ?_⟩
  · unfold Db.tries
    rw [hrows, List.map_append]
  · obtain ⟨b, hb, rfl⟩ := List.mem_map.mp hx
    exact hzero b hb

end Rebuilderd.Daemon
