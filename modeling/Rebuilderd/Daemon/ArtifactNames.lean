import Rebuilderd.Daemon.BinaryListing

/-!
The names of the artifacts of a rebuild, in runs whose reports name no artifact twice.

A handler inserts a rebuild for each friend, and the artifacts of the report after it. Between its
statements others may copy a rebuild with the artifacts it has so far.
-/

namespace Rebuilderd.Daemon

open Rebuilderd.Lib Rebuilderd.Common Prog

/-- A rebuild report names each artifact once. -/
def namesOnce : Call → Bool
  | .submitRebuildReport _ r => decide (r.artifacts.map (·.name)).Nodup
  | _ => true

/-! ### Names in the database -/

/-- The rebuild and the name of each artifact. -/
def Db.artifactNames (db : Db) : List (ℕ × String) :=
  db.rebuildArtifacts.rows.map fun a => (a.rebuildId, a.name)

/-- No rebuild has two artifacts of one name, and no artifact is of a rebuild still to come. -/
structure NamesOnce (db : Db) : Prop where
  nodup : db.artifactNames.Nodup
  past : ∀ x ∈ db.artifactNames, x.1 ≤ db.rebuilds.seq

/-- Rebuilds with their artifacts were added, and none got new artifacts. -/
structure AddsRebuilds (db db' : Db) : Prop where
  seq : db.rebuilds.seq ≤ db'.rebuilds.seq
  names : ∀ x ∈ db'.artifactNames, x ∈ db.artifactNames ∨ db.rebuilds.seq < x.1

section
variable {db db' db'' : Db}

lemma AddsRebuilds.of_eq (hs : db'.rebuilds.seq = db.rebuilds.seq)
    (ha : db'.artifactNames = db.artifactNames) : AddsRebuilds db db' :=
  ⟨hs.ge, fun _ hx => .inl (ha ▸ hx)⟩

lemma AddsRebuilds.trans (h : AddsRebuilds db db') (h' : AddsRebuilds db' db'') :
    AddsRebuilds db db'' := by
  refine ⟨h.seq.trans h'.seq, fun x hx => ?_⟩
  rcases h'.names x hx with hx | hx
  · exact h.names x hx
  · exact .inr (h.seq.trans_lt hx)

lemma NamesOnce.congr (h : NamesOnce db) (hs : db'.rebuilds.seq = db.rebuilds.seq)
    (ha : db'.artifactNames = db.artifactNames) : NamesOnce db' :=
  ⟨ha ▸ h.nodup, fun x hx => hs ▸ h.past x (ha ▸ hx)⟩

/-- A new rebuild has no artifacts yet. -/
lemma NamesOnce.insertRebuild (h : NamesOnce db) (n : NewRebuild) : NamesOnce (n.insert db).2 :=
  ⟨h.nodup, fun x hx => (h.past x hx).trans (Nat.le_succ _)⟩

lemma artifactNames_insert (n : NewRebuildArtifact) (db : Db) :
    (n.insert db).artifactNames = db.artifactNames ++ [(n.rebuildId, n.name)] := by
  rw [Db.artifactNames, NewRebuildArtifact.rows_insert, List.map_append]
  rfl

/-- A name that is new in its rebuild may be added. -/
lemma NamesOnce.insertArtifact (h : NamesOnce db) {n : NewRebuildArtifact}
    (hn : n.rebuildId ≤ db.rebuilds.seq) (hnew : (n.rebuildId, n.name) ∉ db.artifactNames) :
    NamesOnce (n.insert db) := by
  have hnames := artifactNames_insert n db
  refine ⟨?_, fun x hx => ?_⟩
  · rw [hnames]
    exact List.nodup_append.mpr ⟨h.nodup, List.nodup_singleton _, fun x hx y hy hxy =>
      hnew (List.mem_singleton.mp hy ▸ hxy ▸ hx)⟩
  · rw [hnames] at hx
    rcases List.mem_append.mp hx with hx | hx
    · exact h.past x hx
    · rw [List.mem_singleton.mp hx]
      exact hn

/-- A copied rebuild has the names of the original. -/
lemma NamesOnce.copyRebuild (h : NamesOnce db) (id : ℕ) (r : Rebuild) :
    NamesOnce (Daemon.copyRebuild id db r) ∧ AddsRebuilds db (Daemon.copyRebuild id db r) := by
  let new := NewRebuild.insert ⟨id, r.startedAt, r.builtAt, r.buildLogId, r.status⟩ db
  let artifact (a : RebuildArtifact) : NewRebuildArtifact :=
    ⟨new.1, a.name, a.diffoscopeLogId, a.attestationLogId, a.status⟩
  have hnew : new.1 = db.rebuilds.seq + 1 := rfl
  -- The artifacts are inserted one after the other; `done` of them have been.
  have hloop (as done : List RebuildArtifact) (d : Db) (hnodup : ((done ++ as).map (·.name)).Nodup)
      (hd : NamesOnce d) (hseq : d.rebuilds.seq = new.1)
      (hnames : d.artifactNames = db.artifactNames ++ done.map fun a => (new.1, a.name)) :
      NamesOnce (as.foldl (fun d a => (artifact a).insert d) d) ∧
        AddsRebuilds db (as.foldl (fun d a => (artifact a).insert d) d) := by
    induction as generalizing done d with
    | nil =>
      refine ⟨hd, ⟨by simp only [List.foldl_nil]; omega, fun x hx => ?_⟩⟩
      rw [List.foldl_nil, hnames] at hx
      rcases List.mem_append.mp hx with hx | hx
      · exact .inl hx
      · obtain ⟨a, -, rfl⟩ := List.mem_map.mp hx
        exact .inr (by simp only; omega)
    | cons a as ih =>
      refine ih (done ++ [a]) _ (by simpa using hnodup) (hd.insertArtifact hseq.ge ?_) hseq ?_
      · rw [hnames]
        intro hmem
        rcases List.mem_append.mp hmem with hmem | hmem
        · have hpast := h.past _ hmem
          exact absurd hpast (by simp only [artifact]; omega)
        · obtain ⟨a', ha', heq⟩ := List.mem_map.mp hmem
          rw [List.map_append, List.nodup_append] at hnodup
          exact hnodup.2.2 a'.name (List.mem_map_of_mem ha') a.name (by simp)
            (congrArg Prod.snd heq)
      · rw [artifactNames_insert, hnames, List.map_append, List.append_assoc]
        rfl
  refine hloop (db.rebuildArtifacts.rows.filter (·.rebuildId == r.id)) [] new.2 ?_
    (h.insertRebuild _) rfl (by simp [Db.artifactNames, new, NewRebuild.insert])
  rw [List.nil_append]
  refine List.Nodup.map_on ?_ ((List.Nodup.of_map _ h.nodup).filter _)
  intro a ha a' ha' hname
  obtain ⟨ha, hid⟩ := List.mem_filter.mp ha
  obtain ⟨ha', hid'⟩ := List.mem_filter.mp ha'
  exact List.inj_on_of_nodup_map h.nodup ha ha'
    (Prod.ext ((beq_iff_eq.mp hid).trans (beq_iff_eq.mp hid').symm) hname)

lemma NamesOnce.copyExistingRebuilds (h : NamesOnce db) (id : ℕ) :
    NamesOnce (Daemon.copyExistingRebuilds id db) ∧
      AddsRebuilds db (Daemon.copyExistingRebuilds id db) := by
  have hloop (rs : List Rebuild) (d : Db) (hd : NamesOnce d ∧ AddsRebuilds db d) :
      NamesOnce (rs.foldl (Daemon.copyRebuild id) d) ∧
        AddsRebuilds db (rs.foldl (Daemon.copyRebuild id) d) := by
    induction rs generalizing d with
    | nil => exact hd
    | cons r rs ih =>
      obtain ⟨hcopy, hadds⟩ := hd.1.copyRebuild id r
      exact ih _ ⟨hcopy, hd.2.trans hadds⟩
  have hsame : NamesOnce db ∧ AddsRebuilds db db := ⟨h, .of_eq rfl rfl⟩
  unfold Daemon.copyExistingRebuilds
  split
  · split
    · exact hloop _ _ hsame
    · exact hsame
  · exact hsame

lemma NamesOnce.commit (h : NamesOnce db) {c : ScheduleConfig} {T : Ties} {now : Time}
    {r : PackageReport} (hok : commitPackageReport c T now r db = .ok db') :
    NamesOnce db' ∧ AddsRebuilds db db' := by
  obtain ⟨db₁, hf, rfl⟩ := commitPackageReport_ok hok
  have hend : NamesOnce db₁ ∧ AddsRebuilds db db₁ := by
    refine foldlM_ok (I := fun _ d => NamesOnce d ∧ AddsRebuilds db d) hf
      ⟨h.congr rfl rfl, .of_eq rfl rfl⟩ fun _ p d d' _ hd hp => ?_
    obtain ⟨first, -, he⟩ := importPackage_ok hp
    have hsame := sameRecords_enqueueImported he
    have hrows : NamesOnce (importRows now first r p d).2 ∧
        AddsRebuilds db (importRows now first r p d).2 := by
      obtain ⟨-, hr, ha⟩ := importRows_frame now first r p d
      have hnames : (importRows now first r p d).2.artifactNames = d.artifactNames := by
        rw [Db.artifactNames, ha]
        rfl
      exact ⟨hd.1.congr (by rw [hr]) hnames, hd.2.trans (.of_eq (by rw [hr]) hnames)⟩
    have himport : NamesOnce (importWithHistory now first r p d).2 ∧
        AddsRebuilds db (importWithHistory now first r p d).2 := by
      unfold importWithHistory
      dsimp only
      split
      · obtain ⟨hcopy, hadds⟩ := hrows.1.copyExistingRebuilds (importRows now first r p d).1.id
        exact ⟨hcopy, hrows.2.trans hadds⟩
      · exact hrows
    have hnames : d'.artifactNames = (importWithHistory now first r p d).2.artifactNames := by
      rw [Db.artifactNames, hsame.artifacts]
      rfl
    exact ⟨himport.1.congr (by rw [hsame.rebuilds]) hnames,
      himport.2.trans (.of_eq (by rw [hsame.rebuilds]) hnames)⟩
  exact ⟨hend.1.congr rfl rfl, hend.2.trans (.of_eq rfl rfl)⟩

/-- The statements that add a rebuild or an artifact. -/
def Stmt.recordsNames : Stmt → Bool
  | .insertRebuild _ | .insertRebuildArtifact _ => true
  | _ => false

/-- The other statements add rebuilds with all their artifacts, if any. -/
lemma NamesOnce.exec (h : NamesOnce db) (env : Env) (t : Time) {s : Stmt}
    (hs : s.recordsNames = false) : NamesOnce ((exec env).answer t s db).2 ∧
      AddsRebuilds db ((exec env).answer t s db).2 := by
  have hkept {d : Db} (hr : d.rebuilds.seq = db.rebuilds.seq)
      (ha : d.artifactNames = db.artifactNames) : NamesOnce d ∧ AddsRebuilds db d :=
    ⟨h.congr hr ha, .of_eq hr ha⟩
  by_cases hrecords : s.keepsRecords = true
  · have hsame := exec_sameRecords env t hrecords db
    exact hkept (by rw [hsame.rebuilds]) (by rw [Db.artifactNames, hsame.artifacts]; rfl)
  · cases s with
    | insertRebuild | insertRebuildArtifact => cases hs
    | commitPackageReport now r =>
      exact Exec.answer_inv (I := fun d => NamesOnce d ∧ AddsRebuilds db d) ⟨h, .of_eq rfl rfl⟩
        fun u db' hok => h.commit (exec_commit hok)
    | resetArtifacts id =>
      exact hkept rfl (Table.map_rows_update db.rebuildArtifacts fun _ _ _ => rfl)
    | insertBuildLog | resetRebuild => exact hkept rfl rfl
    | _ => exact absurd rfl hrecords

end

/-! ### What handlers insert -/

/-- The rebuild inserted last, and the names of the artifacts inserted since. -/
def recordingStep (current : Option (ℕ × List String)) :
    Step Stmt Stmt.Answer Err Time → Option (ℕ × List String)
  | ⟨_, .insertRebuild _, .ok id⟩ => some (id, [])
  | ⟨_, .insertRebuildArtifact new, _⟩ => current.map fun x => (x.1, x.2 ++ [new.name])
  | _ => current

def recording (own : OwnSteps) : Option (ℕ × List String) := own.foldl recordingStep none

lemma recording_append (own : OwnSteps) (a : Step Stmt Stmt.Answer Err Time) :
    recording (own ++ [a]) = recordingStep (recording own) a := by
  simp [recording]

lemma recording_append_other {own : OwnSteps} {a : Step Stmt Stmt.Answer Err Time}
    (h : a.stmt.recordsNames = false) : recording (own ++ [a]) = recording own := by
  obtain ⟨t, s, r⟩ := a
  rw [recording_append]
  cases s <;> first | rfl | cases h

/-- An artifact is inserted for the rebuild inserted last, and, if the report names it once, it is
the first of its name. -/
def insertsFirst (c : Call) (own : OwnSteps) (_ : Time) : Stmt → Prop
  | .insertRebuildArtifact new => ∃ names, recording own = some (new.rebuildId, names) ∧
      (namesOnce c = true → new.name ∉ names)
  | _ => True

lemma insertsFirst_of_other (c : Call) (own : OwnSteps) (t : Time) {s : Stmt}
    (h : s.recordsNames = false) : insertsFirst c own t s := by
  cases s <;> trivial

lemma keeps_recording {α : Type} {c : Call} {p : Handler α} {ok : Stmt → Prop} (hp : Only ok p)
    (hok : ∀ s, ok s → s.recordsNames = false) (current : Option (ℕ × List String)) :
    Keeps (.journal (insertsFirst c)) (fun own => recording own = current) p := by
  refine hp.keeps fun own t s hs h => ⟨insertsFirst_of_other c own t (hok s hs), ?_⟩
  rintro a own' rfl
  rw [recording_append_other (hok s hs), h]

/-- The artifacts of one friend's rebuild. -/
lemma wp_recordNames (h : Headers) (r : RebuildReport) (rebuild : ℕ) (logs : Handler.ArtifactLogs)
    {own : OwnSteps} (hown : recording own = some (rebuild, [])) :
    wp (.journal (insertsFirst (.submitRebuildReport h r)))
      (r.artifacts.foldlM (Handler.recordArtifact rebuild) logs)
      (fun _ _ => True) (fun _ _ => True) own := by
  have hloop := wp_foldlM (L := .journal (insertsFirst (.submitRebuildReport h r)))
    (F := fun _ _ => True) (f := Handler.recordArtifact rebuild)
    (fun own' (_ : Handler.ArtifactLogs) rest => ∃ done, done ++ rest = r.artifacts ∧
      recording own' = some (rebuild, done.map (·.name)))
    (fun own' logs' a rest => ?_) r.artifacts logs ⟨[], rfl, hown⟩
  · exact wp_mono hloop (fun _ _ _ => trivial) fun _ _ _ => trivial
  rintro ⟨done, hdone, hrec⟩
  refine (wp_bind _ _).mpr (wp_mono (keeps_recording (only_artifactLogs logs' a)
    (fun s hs => by cases s <;> first | rfl | cases hs) _ own' hrec) (fun own₁ ids h₁ => ?_)
    fun _ _ _ => trivial)
  refine (wp_bind _ _).mpr (wp_sql (fun t => ⟨_, h₁, fun honce hmem => ?_⟩) (fun t u => ?_)
    fun _ _ => trivial)
  · have hnodup := of_decide_eq_true honce
    rw [← hdone, List.map_append, List.nodup_append] at hnodup
    exact hnodup.2.2 a.name hmem a.name (by simp) rfl
  · refine ⟨done ++ [a], by simpa using hdone, ?_⟩
    rw [recording_append, h₁]
    simp [recordingStep]

lemma handler_insertsFirst (cfg : Config) (c : Call) :
    wp (.journal (insertsFirst c)) (handler cfg c) (fun _ _ => True) (fun _ _ => True) [] := by
  cases c with
  | submitRebuildReport h r =>
    have any {s : Stmt} (hs : s.recordsNames = false) :
        Keeps (.journal (insertsFirst (.submitRebuildReport h r))) (fun _ => True) (sql s) :=
      .stmt s fun own t _ => ⟨insertsFirst_of_other _ own t hs, fun _ _ _ => trivial⟩
    have part {α : Type} {p : Handler α} {ok : Stmt → Prop} (hp : Only ok p)
        (hok : ∀ s, ok s → s.recordsNames = false) :
        Keeps (.journal (insertsFirst (.submitRebuildReport h r))) (fun _ => True) p :=
      hp.keeps fun own t s hs _ => ⟨insertsFirst_of_other _ own t (hok s hs), fun _ _ _ => trivial⟩
    have hrebuild (q : Queued) (log : ℕ) (logs : Handler.ArtifactLogs) (friend : ℕ) :
        Keeps (.journal (insertsFirst (.submitRebuildReport h r))) (fun _ => True)
          (Handler.recordRebuild r q log logs friend) := by
      refine fun own _ => (wp_bind _ _).mpr (wp_sql (fun _ => trivial) (fun t rebuild => ?_)
        fun _ _ => trivial)
      refine wp_recordNames h r rebuild logs ?_
      rw [recording_append]
      rfl
    have hreport (q : Queued) :
        Keeps (.journal (insertsFirst (.submitRebuildReport h r))) (fun _ => True)
          (Handler.recordReport cfg r q) := by
      refine .bind (any rfl) fun friends => .bind (part (only_encode _) fun s hs => hs ▸ rfl) fun _ =>
        .bind (any rfl) fun log => .bind (.foldlM (fun logs friend _ => hrebuild q log logs friend) _)
          fun _ => .bind (any rfl) fun _ => ?_
      split
      · exact part (only_retry cfg q friends) fun s hs => by cases s <;> first | rfl | cases hs
      · exact .pure _
    have hworker := part (only_worker cfg h) fun s hs => by cases s <;> first | rfl | cases hs
    refine (wp_bind _ _).mpr ((wp_attempt _).mpr (wp_mono (hworker [] trivial) (fun own w _ => ?_)
      fun _ _ _ => trivial))
    exact wp_mono (Keeps.bind (any (s := .findQueued r.queueId) rfl) (fun q =>
      .bind (hreport q) fun _ => .pure Response.noContent) own trivial) (fun _ _ _ => trivial)
      fun _ _ _ => trivial
  | _ =>
    refine wp_rules (handler_justified cfg _) (fun own t s hs => ?_) fun _ _ _ _ _ h => h
    cases s with
    | insertRebuildArtifact new =>
      obtain ⟨q, h, r, hc, -⟩ := hs
      cases hc
    | _ => trivial

/-! ### Runs -/

/-- What is known after a run whose reports name no artifact twice. -/
structure Names (env : Env) (tr : List Event) : Prop where
  once : NamesOnce (stateAfter (exec env) env.start tr)
  /-- The rebuild a handler works on has no artifacts but those the handler has inserted. -/
  current : ∀ i id names, recording (own i tr) = some (id, names) →
    id ≤ (stateAfter (exec env) env.start tr).rebuilds.seq ∧
      ∀ name, (id, name) ∈ (stateAfter (exec env) env.start tr).artifactNames → name ∈ names
  /-- No two handlers work on one rebuild. -/
  apart : ∀ i j id names names', recording (own i tr) = some (id, names) →
    recording (own j tr) = some (id, names') → i = j

section
variable {env : Env} {tr : List Event} {e : Event}

lemma own_snoc (i : ℕ) : own i (tr ++ [e]) = own i tr ++ if e.thread = i then [e.toStep] else [] := by
  by_cases h : e.thread = i <;> simp [own, h]

/-- A statement that records nothing. -/
lemma Names.other (h : Names env tr) (hs : e.stmt.recordsNames = false)
    (hstate : e.before = stateAfter (exec env) env.start tr) : Names env (tr ++ [e]) := by
  have hrec (i : ℕ) : recording (own i (tr ++ [e])) = recording (own i tr) := by
    rw [own_snoc]
    split
    · exact recording_append_other hs
    · rw [List.append_nil]
  obtain ⟨honce, hadds⟩ := h.once.exec env e.input hs
  refine ⟨?_, fun i id names hi => ?_, fun i j id names names' hi hj => ?_⟩
  · rw [stateAfter_snoc, Lib.Event.after, hstate]
    exact honce
  · rw [hrec] at hi
    obtain ⟨hseq, hnames⟩ := h.current i id names hi
    rw [stateAfter_snoc, Lib.Event.after, hstate]
    refine ⟨hseq.trans hadds.seq, fun name hname => ?_⟩
    rcases hadds.names _ hname with hold | hnew
    · exact hnames name hold
    · exact absurd hseq hnew.not_ge
  · exact h.apart i j id names names' (hrec i ▸ hi) (hrec j ▸ hj)

/-- The new rebuild has an id that no handler works on. -/
lemma Names.insertRebuild (h : Names env tr) {new : NewRebuild} (hs : e.stmt = .insertRebuild new)
    (hstate : e.before = stateAfter (exec env) env.start tr)
    (hans : e.answer = ((exec env).answer e.input e.stmt e.before).1) : Names env (tr ++ [e]) := by
  obtain ⟨⟨t, s, a⟩, k, c, db⟩ := e
  dsimp only at hs hstate hans
  subst hs hstate hans
  generalize hdb : stateAfter (exec env) env.start tr = db at *
  have hrec (i : ℕ) : recording (own i (tr ++ [⟨⟨t, .insertRebuild new,
      ((exec env).answer t (.insertRebuild new) db).1⟩, k, c, db⟩])) =
        if k = i then some (db.rebuilds.seq + 1, []) else recording (own i tr) := by
    rw [own_snoc]
    dsimp only
    split
    · rw [recording_append]
      rfl
    · rw [List.append_nil]
  have hpast {i id : ℕ} {names : List String} (hi : recording (own i tr) = some (id, names)) :
      id ≤ db.rebuilds.seq := hdb ▸ (h.current i id names hi).1
  have hold {i id : ℕ} {names : List String} (hi : recording (own i tr) = some (id, names)) :
      ∀ name, (id, name) ∈ db.artifactNames → name ∈ names := hdb ▸ (h.current i id names hi).2
  have honce : NamesOnce db := hdb ▸ h.once
  refine ⟨?_, fun i id names hi => ?_, fun i j id names names' hi hj => ?_⟩
  · rw [stateAfter_snoc]
    exact honce.insertRebuild new
  · rw [hrec] at hi
    rw [stateAfter_snoc]
    change id ≤ db.rebuilds.seq + 1 ∧ ∀ name, (id, name) ∈ db.artifactNames → name ∈ names
    split at hi
    · cases hi
      exact ⟨le_rfl, fun name hname => absurd (honce.past _ hname) (by simp)⟩
    · exact ⟨(hpast hi).trans (Nat.le_succ _), hold hi⟩
  · rw [hrec] at hi hj
    split at hi <;> rename_i hki <;> split at hj <;> rename_i hkj
    · exact hki.symm.trans hkj
    · cases hi
      exact absurd (hpast hj) (by simp)
    · cases hj
      exact absurd (hpast hi) (by simp)
    · exact h.apart i j id names names' hi hj

/-- The handler works on the rebuild, and has inserted no artifact of the name. -/
lemma Names.insertArtifact (h : Names env tr) {new : NewRebuildArtifact}
    (hs : e.stmt = .insertRebuildArtifact new)
    (hstate : e.before = stateAfter (exec env) env.start tr)
    (hfirst : insertsFirst e.call (own e.thread tr) e.input e.stmt)
    (hnamed : namesOnce e.call = true) : Names env (tr ++ [e]) := by
  obtain ⟨⟨t, s, a⟩, k, c, db⟩ := e
  dsimp only at hs hstate hfirst hnamed
  subst hs hstate
  obtain ⟨names, hk, hnew⟩ := hfirst
  replace hnew := hnew hnamed
  generalize hdb : stateAfter (exec env) env.start tr = db at *
  have hrec (i : ℕ) : recording (own i (tr ++ [⟨⟨t, .insertRebuildArtifact new, a⟩, k, c, db⟩])) =
      if k = i then some (new.rebuildId, names ++ [new.name]) else recording (own i tr) := by
    rw [own_snoc]
    dsimp only
    split
    · rename_i hki
      rw [← hki, recording_append, hk]
      rfl
    · rw [List.append_nil]
  have hcurrent {i id : ℕ} {names : List String} (hi : recording (own i tr) = some (id, names)) :
      id ≤ db.rebuilds.seq ∧ ∀ name, (id, name) ∈ db.artifactNames → name ∈ names :=
    hdb ▸ h.current i id names hi
  have honce : NamesOnce db := hdb ▸ h.once
  have hinsert (x : ℕ × String) : x ∈ (new.insert db).artifactNames ↔
      x ∈ db.artifactNames ∨ x = (new.rebuildId, new.name) := by
    rw [artifactNames_insert, List.mem_append, List.mem_singleton]
  refine ⟨?_, fun i id names' hi => ?_, fun i j id names₁ names₂ hi hj => ?_⟩
  · rw [stateAfter_snoc]
    exact honce.insertArtifact (hcurrent hk).1 fun hmem => hnew ((hcurrent hk).2 _ hmem)
  · rw [hrec] at hi
    rw [stateAfter_snoc]
    change id ≤ db.rebuilds.seq ∧ ∀ name, (id, name) ∈ (new.insert db).artifactNames → name ∈ names'
    split at hi
    · cases hi
      refine ⟨(hcurrent hk).1, fun name hname => List.mem_append.mpr ?_⟩
      rcases (hinsert _).mp hname with hname | hname
      · exact .inl ((hcurrent hk).2 name hname)
      · exact .inr (List.mem_singleton.mpr (congrArg Prod.snd hname))
    · rename_i hki
      refine ⟨(hcurrent hi).1, fun name hname => ?_⟩
      rcases (hinsert _).mp hname with hname | hname
      · exact (hcurrent hi).2 name hname
      · -- Another handler works on another rebuild.
        obtain rfl : id = new.rebuildId := congrArg Prod.fst hname
        exact absurd (h.apart k i _ _ _ hk hi) hki
  · have hworks {i : ℕ} {names₁ : List String} (hi : (if k = i then
        some (new.rebuildId, names ++ [new.name]) else recording (own i tr)) = some (id, names₁)) :
        ∃ names', recording (own i tr) = some (id, names') := by
      split at hi
      · rename_i hki
        cases hi
        exact ⟨names, hki ▸ hk⟩
      · exact ⟨names₁, hi⟩
    obtain ⟨names', hi⟩ := hworks (hrec i ▸ hi)
    obtain ⟨names'', hj⟩ := hworks (hrec j ▸ hj)
    exact h.apart i j id names' names'' hi hj

lemma names_of_history (hh : History (exec env) insertsFirst env.start tr)
    (hall : ∀ e ∈ tr, namesOnce e.call = true) : Names env tr := by
  induction tr using List.reverseRecOn with
  | nil =>
    refine ⟨⟨List.nodup_nil, by simp [Db.artifactNames, Env.start, Db.empty]⟩, ?_, ?_⟩ <;> simp [recording]
  | append_singleton tr e ih =>
    have h := ih hh.of_append fun x hx => hall x (by simp [hx])
    obtain ⟨hstate, hans, hfirst, -⟩ := hh.last
    by_cases hs : e.stmt.recordsNames = true
    · obtain ⟨new, hs⟩ | ⟨new, hs⟩ : (∃ new, e.stmt = .insertRebuild new) ∨
          ∃ new, e.stmt = .insertRebuildArtifact new := by
        revert hs
        cases e.stmt <;> simp [Stmt.recordsNames]
      · exact h.insertRebuild hs hstate hans
      · exact h.insertArtifact hs hstate hfirst (hall e (by simp))
    · exact h.other (by simpa using hs) hstate

end

/-! ### Each binary package once -/

lemma NamesOnce.listedByName {db : Db} (h : NamesOnce db) (b : Bool) : ListedByName b db := by
  intro p _ _
  rcases hlatest : latestRebuild db p.buildInputId with _ | r
  · simp [namedArtifacts, hlatest]
  · have hsame : (namedArtifacts db p).map (fun a => (a.rebuildId, a.name)) =
        List.replicate (namedArtifacts db p).length (r.id, p.name) := by
      refine List.eq_replicate_iff.mpr ⟨List.length_map _, fun x hx => ?_⟩
      obtain ⟨a, ha, rfl⟩ := List.mem_map.mp hx
      have hon := (List.mem_filter.mp ha).2
      simp only [hlatest, Option.any_some, Bool.and_eq_true, beq_iff_eq] at hon
      exact Prod.ext hon.1.symm hon.2
    have hnodup : ((namedArtifacts db p).map fun a => (a.rebuildId, a.name)).Nodup :=
      h.nodup.sublist (List.filter_sublist.map _)
    rwa [hsame, List.nodup_replicate] at hnodup

/-- **Each binary package is listed exactly once, in every reachable state in which the latest
rebuild of its build input has at most one artifact of its name**, and only there. So it is in every
state of a run in which no report names an artifact twice. -/
theorem binariesListedOnce_iff (env : Env) (as : Schedule) (peers : Table PeerRebuilder)
    (checks : Table PeerSha256Check) (shuffle : ℕ → Shuffle BinaryPackageRecord) (limit : ℤ)
    (hlimit : 1 ≤ limit) (b : Bool) :
    let y : PeerDb := ⟨(runPool env as).state, peers, checks⟩
    (ListsOnce shuffle limit b y ↔ ListedByName b y.packages) ∧
      ((trace env as).all (fun e => namesOnce e.call) = true → ListsOnce shuffle limit b y) := by
  intro y
  have hiff := listsOnce_iff shuffle hlimit b y (reachable_timesKnown ⟨as, rfl⟩)
    (reachable_binariesLinked ⟨as, rfl⟩)
  refine ⟨hiff, fun hall => hiff.mpr ?_⟩
  have hnames := names_of_history (Pool.history (handler_insertsFirst env.config) env.start as).1
    fun e he => List.all_eq_true.mp hall e he
  have honce := hnames.once
  change NamesOnce (stateAfter (exec env) env.start (trace env as)) at honce
  rw [← state_runPool] at honce
  exact honce.listedByName b

/-- A package with one artifact in two versions is imported, `alice` is handed its job, and reports
each of the two under its name. -/
def twoVersions : Schedule :=
  serveAt 0 (.submitPackageReport adminHeaders (debianReport [⟨"hello", "1.0", "https://hello",
    [⟨"hello", "1.0", "amd64", "https://hello_1.0"⟩, ⟨"hello", "1.0+b1", "amd64", "https://hello_1.0+b1"⟩],
    none, none, none⟩])) 0 ++
  serveAt 1 (.requestWork (workerHeaders "alice") ⟨["debian"], "amd64", ["amd64"]⟩) (10 * second) ++
  serveAt 2 (.submitRebuildReport (workerHeaders "alice") ⟨1, 15, [], .good,
    [⟨"hello", none, none, .good⟩, ⟨"hello", none, none, .bad⟩]⟩) (20 * second)

theorem binariesListedOnce_iff_handedOut :
    let y : PeerDb := ⟨(runPool (openDaemon none) handedOut).state, .empty, .empty⟩
    (ListsOnce (fun _ => unshuffled) 1 true y ↔ ListedByName true y.packages) ∧
      ((trace (openDaemon none) handedOut).all (fun e => namesOnce e.call) = true →
        ListsOnce (fun _ => unshuffled) 1 true y) :=
  binariesListedOnce_iff (openDaemon none) handedOut .empty .empty (fun _ => unshuffled) 1 le_rfl true

/-- **Each of the two binary packages is listed with both artifacts.** -/
theorem twoVersions_not_listedOnce : ¬ ∀ env as peers checks shuffle limit b, 1 ≤ limit →
    ListsOnce shuffle limit b ⟨(runPool env as).state, peers, checks⟩ := by
  intro h
  have hdiffer (db : Db) (hrows : binaryTotal (seenIs true) ⟨db, .empty, .empty⟩ = 4)
      (hpackages : (seenPackages true db).length = 2) :
      ¬ ListsOnce (fun _ => unshuffled) 1 true ⟨db, .empty, .empty⟩ := fun honce =>
    absurd (hrows.symm.trans (honce.2.trans hpackages)) (by decide)
  exact hdiffer (runPool (openDaemon none) twoVersions).state (by decide +kernel) (by decide +kernel)
    (h (openDaemon none) twoVersions .empty .empty (fun _ => unshuffled) 1 true le_rfl)

end Rebuilderd.Daemon
